import AccountRegistry.Account

/-!
# The address table

The mappings of a registry and, beside them, the reverse table from native addresses to EVM
addresses, by which collisions are found.  Mappings are only ever added; the latest stands first.
-/

namespace AccountRegistry

/-- The mappings and their reverse table. -/
structure AddressTable where
  mappings : List Mapping
  reverse : List (Int × Int)
  deriving DecidableEq, Repr, Inhabited

namespace AddressTable

/-- No mapping. -/
def empty : AddressTable := ⟨[], []⟩

/-- The mapping of an EVM address. -/
def find? (table : AddressTable) (evm : Int) : Option Mapping :=
  table.mappings.find? fun mapping => mapping.evmAddress = evm

/-- The native address of an EVM address. -/
def native? (table : AddressTable) (evm : Int) : Option Int :=
  (table.find? evm).map Mapping.nativeAddress

/-- The EVM address that a native address is bound to. -/
def evm? (table : AddressTable) (native : Int) : Option Int :=
  table.reverse.lookup native

/-- How many mappings there are. -/
def size (table : AddressTable) : Nat :=
  table.mappings.length

/-- The table with a mapping added to both of its sides. -/
def add (table : AddressTable) (mapping : Mapping) : AddressTable :=
  ⟨mapping :: table.mappings, (mapping.nativeAddress, mapping.evmAddress) :: table.reverse⟩

@[simp] theorem find?_empty (evm : Int) : empty.find? evm = none := rfl

@[simp] theorem evm?_empty (native : Int) : empty.evm? native = none := rfl

theorem find?_add (table : AddressTable) (mapping : Mapping) (evm : Int) :
    (table.add mapping).find? evm =
      if mapping.evmAddress = evm then some mapping else table.find? evm := by
  by_cases same : mapping.evmAddress = evm <;> simp [find?, add, same]

theorem evm?_add (table : AddressTable) (mapping : Mapping) (native : Int) :
    (table.add mapping).evm? native =
      if native = mapping.nativeAddress then some mapping.evmAddress else table.evm? native := by
  by_cases same : native = mapping.nativeAddress
  · simp [evm?, add, same]
  · have differs : (native == mapping.nativeAddress) = false := by simpa using same
    simp [evm?, add, List.lookup_cons, differs, same]

end AddressTable

end AccountRegistry
