import AccountRegistry.Account
import AccountRegistry.Fault

/-!
# Class references

The current class reference of each kind with the number of times it was set.  Each kind is a
slot of its own.
-/

namespace AccountRegistry

/-- A reference and how often its kind was set. -/
structure ReferenceSlot where
  reference : Int
  version : Nat
  deriving DecidableEq, Repr, Inhabited

/-- A slot for each kind, empty until it is set for the first time. -/
structure ClassReferences where
  precompile : Option ReferenceSlot
  contractAccount : Option ReferenceSlot
  eoa : Option ReferenceSlot
  proxy : Option ReferenceSlot
  deriving DecidableEq, Repr, Inhabited

namespace ClassReferences

/-- No kind is set. -/
def empty : ClassReferences := ⟨none, none, none, none⟩

/-- The slot of a kind. -/
def slot (store : ClassReferences) : ClassKind → Option ReferenceSlot
  | .precompile => store.precompile
  | .contractAccount => store.contractAccount
  | .eoa => store.eoa
  | .proxy => store.proxy

/-- The store with the slot of a kind replaced. -/
def withSlot (store : ClassReferences) (kind : ClassKind) (slot : ReferenceSlot) :
    ClassReferences :=
  match kind with
  | .precompile => { store with precompile := some slot }
  | .contractAccount => { store with contractAccount := some slot }
  | .eoa => { store with eoa := some slot }
  | .proxy => { store with proxy := some slot }

@[simp] theorem slot_empty (kind : ClassKind) : empty.slot kind = none := by
  cases kind <;> rfl

@[simp] theorem slot_withSlot_self (store : ClassReferences) (kind : ClassKind)
    (value : ReferenceSlot) : (store.withSlot kind value).slot kind = some value := by
  cases kind <;> rfl

theorem slot_withSlot_of_ne (store : ClassReferences) {kind other : ClassKind}
    (value : ReferenceSlot) (different : other ≠ kind) :
    (store.withSlot kind value).slot other = store.slot other := by
  cases kind <;> cases other <;> first | rfl | exact absurd rfl different

/-- How often a kind was set. -/
def version (store : ClassReferences) (kind : ClassKind) : Nat :=
  match store.slot kind with
  | some slot => slot.version
  | none => 0

/-- The store after a kind was set to a reference. -/
def set (store : ClassReferences) (kind : ClassKind) (reference : Int) : ClassReferences :=
  store.withSlot kind ⟨reference, store.version kind + 1⟩

/-- The kind of a name; other names are refused. -/
def kindOf (label : String) : Except Fault ClassKind :=
  match ClassKind.ofLabel? label with
  | some kind => .ok kind
  | none => .error (.refusal .invalidClassKind [("kind", .text label)])

/-- The fault of reading a kind that was not set. -/
def notConfigured (label : String) : Fault :=
  .registry .notConfigured ("Class reference for '" ++ label ++ "' is not configured")
    (.record [("kind", .text label)])

/-- The reference and version of the kind of a name. -/
def readVersioned (store : ClassReferences) (label : String) : Except Fault VersionedReference := do
  let kind ← kindOf label
  match store.slot kind with
  | some slot => return ⟨kind, slot.reference, slot.version⟩
  | none => throw (notConfigured label)

/-- The reference of the kind of a name. -/
def read (store : ClassReferences) (label : String) : Except Fault Int :=
  (store.readVersioned label).map VersionedReference.reference

end ClassReferences

end AccountRegistry
