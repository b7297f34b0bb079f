import Mathlib.Data.Finset.Card
import AccountRegistry.Address
import AccountRegistry.Registry.AddressTable

/-!
# The address table as a pair of inverse maps

A table only grows, by mappings that it *admits*: neither their EVM address nor their native
address is bound to anything else.  From that alone the two sides of a table stay inverse to each
other (`Valid`), and a mapping that was found once is found in every later table (`Extends`).

* `Valid.empty`, `Valid.add`: the representation invariant at the start and after a write.
* `Valid.evm_injective`, `Valid.size_eq_card`: two EVM addresses never share a native address, and
  the size counts distinct native addresses.
* `Extends.refl`, `Extends.trans`, `Extends.add`: what growing means for a reader.
-/

namespace AccountRegistry.AddressTable

variable {table : AddressTable} {mapping : Mapping} {evm native : Int}

/-! ## Reading -/

theorem evmAddress_of_find? (hfound : table.find? evm = some mapping) :
    mapping.evmAddress = evm := by
  simpa using List.find?_some hfound

theorem mem_of_find? (hfound : table.find? evm = some mapping) : mapping ∈ table.mappings :=
  List.mem_of_find?_eq_some hfound

theorem native?_of_find? (hfound : table.find? evm = some mapping) :
    table.native? evm = some mapping.nativeAddress := by
  simp [native?, hfound]

theorem native?_eq_some_iff :
    table.native? evm = some native ↔
      ∃ mapping, table.find? evm = some mapping ∧ mapping.nativeAddress = native :=
  Option.map_eq_some_iff

theorem native?_eq_none_iff : table.native? evm = none ↔ table.find? evm = none :=
  Option.map_eq_none_iff

theorem native?_add (table : AddressTable) (mapping : Mapping) (evm : Int) :
    (table.add mapping).native? evm =
      if mapping.evmAddress = evm then some mapping.nativeAddress else table.native? evm := by
  unfold native?
  rw [find?_add]
  split <;> rfl

theorem find?_add_self (table : AddressTable) (mapping : Mapping) :
    (table.add mapping).find? mapping.evmAddress = some mapping := by
  rw [find?_add, if_pos rfl]

@[simp] theorem mappings_add (table : AddressTable) (mapping : Mapping) :
    (table.add mapping).mappings = mapping :: table.mappings := rfl

/-! ## Growing -/

/-- The table can take a mapping: its EVM address has none yet, and its native address is bound to
no other EVM address. -/
structure Admits (table : AddressTable) (mapping : Mapping) : Prop where
  unmapped : table.find? mapping.evmAddress = none
  unbound : ∀ evm, table.evm? mapping.nativeAddress = some evm → evm = mapping.evmAddress

/-- Every mapping of the first table is found, unchanged, in the second. -/
def Extends (table later : AddressTable) : Prop :=
  ∀ evm mapping, table.find? evm = some mapping → later.find? evm = some mapping

namespace Extends

theorem refl (table : AddressTable) : table.Extends table :=
  fun _ _ hfound => hfound

theorem trans {first second third : AddressTable} (hfirst : first.Extends second)
    (hsecond : second.Extends third) : first.Extends third :=
  fun evm mapping hfound => hsecond evm mapping (hfirst evm mapping hfound)

/-- Adding a mapping for an unmapped address changes no mapping that is there. -/
theorem add (hunmapped : table.find? mapping.evmAddress = none) :
    table.Extends (table.add mapping) := by
  intro evm found hfound
  rw [find?_add]
  split
  · rename_i hsame
    rw [← hsame, hunmapped] at hfound
    cases hfound
  · exact hfound

theorem native? {later : AddressTable} (hextends : table.Extends later)
    (hmapped : table.native? evm = some native) : later.native? evm = some native := by
  obtain ⟨mapping, hfound, hnative⟩ := native?_eq_some_iff.mp hmapped
  exact native?_eq_some_iff.mpr ⟨mapping, hextends evm mapping hfound, hnative⟩

end Extends

/-! ## The representation invariant -/

/-- The two sides of a table are inverse to each other, each EVM address stands in it once, and
both addresses of each mapping are in range. -/
structure Valid (table : AddressTable) : Prop where
  inverse : ∀ evm native, table.native? evm = some native ↔ table.evm? native = some evm
  keys : (table.mappings.map Mapping.evmAddress).Nodup
  evm_range : ∀ mapping ∈ table.mappings, Address.IsEvm mapping.evmAddress
  native_range : ∀ mapping ∈ table.mappings, Address.IsNative mapping.nativeAddress

namespace Valid

theorem empty : AddressTable.empty.Valid where
  inverse := fun evm native => by simp [native?]
  keys := List.nodup_nil
  evm_range := fun _ hmem => absurd hmem List.not_mem_nil
  native_range := fun _ hmem => absurd hmem List.not_mem_nil

/-- Each mapping of the table is the one that is found under its own EVM address. -/
theorem find?_of_mem (hvalid : table.Valid) (hmem : mapping ∈ table.mappings) :
    table.find? mapping.evmAddress = some mapping := by
  cases hfound : table.find? mapping.evmAddress with
  | none =>
      have hnone := List.find?_eq_none.mp hfound mapping hmem
      simp at hnone
  | some other =>
      -- two mappings with one key are one mapping
      have hsame : other = mapping :=
        List.inj_on_of_nodup_map hvalid.keys (mem_of_find? hfound) hmem
          (evmAddress_of_find? hfound)
      rw [hsame]

/-- Two EVM addresses never share a native address. -/
theorem evm_injective (hvalid : table.Valid) {first second : Int}
    (hfirst : table.native? first = some native) (hsecond : table.native? second = some native) :
    first = second := by
  have hboundFirst := (hvalid.inverse first native).mp hfirst
  have hboundSecond := (hvalid.inverse second native).mp hsecond
  rw [hboundFirst] at hboundSecond
  exact Option.some.inj hboundSecond

theorem natives_nodup (hvalid : table.Valid) :
    (table.mappings.map Mapping.nativeAddress).Nodup := by
  refine (List.Nodup.of_map _ hvalid.keys).map_on ?_
  intro first hfirst second hsecond hsame
  -- a native address that is shared comes back to one EVM address, and so to one mapping
  have hmappedFirst := native?_of_find? (hvalid.find?_of_mem hfirst)
  have hmappedSecond := native?_of_find? (hvalid.find?_of_mem hsecond)
  rw [hsame] at hmappedFirst
  have hevm := hvalid.evm_injective hmappedFirst hmappedSecond
  exact List.inj_on_of_nodup_map hvalid.keys hfirst hsecond hevm

/-- The size of a table is the number of its distinct native addresses. -/
theorem size_eq_card (hvalid : table.Valid) :
    table.size = (table.mappings.map Mapping.nativeAddress).toFinset.card := by
  rw [List.toFinset_card_of_nodup hvalid.natives_nodup, List.length_map]
  rfl

/-- Where the EVM address is unmapped, an admitted native address is bound to nothing at all. -/
theorem evm?_of_admits (hvalid : table.Valid) (hadmits : table.Admits mapping) :
    table.evm? mapping.nativeAddress = none := by
  cases hbound : table.evm? mapping.nativeAddress with
  | none => rfl
  | some evm =>
      have hmapped := (hvalid.inverse _ _).mpr (hadmits.unbound evm hbound ▸ hbound)
      rw [native?_eq_none_iff.mpr hadmits.unmapped] at hmapped
      cases hmapped

/-- An admitted mapping with addresses in range keeps the table valid. -/
theorem add (hvalid : table.Valid) (hadmits : table.Admits mapping)
    (hevm : Address.IsEvm mapping.evmAddress) (hnative : Address.IsNative mapping.nativeAddress) :
    (table.add mapping).Valid where
  inverse := by
    intro evm native
    have hunmapped := native?_eq_none_iff.mpr hadmits.unmapped
    have hunbound := hvalid.evm?_of_admits hadmits
    rw [native?_add, evm?_add]
    by_cases hkey : mapping.evmAddress = evm
    · by_cases hvalue : native = mapping.nativeAddress
      · simp [hkey, hvalue]
      · -- the new key maps to its own native address only, and no older one maps back to it
        rw [if_pos hkey, if_neg hvalue, ← hvalid.inverse, ← hkey, hunmapped]
        simpa using fun hsame : mapping.nativeAddress = native => hvalue hsame.symm
    · by_cases hvalue : native = mapping.nativeAddress
      · rw [if_neg hkey, if_pos hvalue, hvalid.inverse, hvalue, hunbound]
        simpa using hkey
      · rw [if_neg hkey, if_neg hvalue]
        exact hvalid.inverse evm native
  keys := by
    -- the new key cannot stand in the table, where it would be found
    refine List.nodup_cons.mpr ⟨?_, hvalid.keys⟩
    intro hmem
    obtain ⟨other, hother, hsame⟩ := List.mem_map.mp hmem
    have hfound := hvalid.find?_of_mem hother
    rw [hsame, hadmits.unmapped] at hfound
    cases hfound
  evm_range := by
    intro other hother
    rcases List.mem_cons.mp hother with rfl | hother
    · exact hevm
    · exact hvalid.evm_range other hother
  native_range := by
    intro other hother
    rcases List.mem_cons.mp hother with rfl | hother
    · exact hnative
    · exact hvalid.native_range other hother

end Valid

end AccountRegistry.AddressTable
