import AccountRegistry.Proofs.WrittenAddresses
import AccountRegistry.Value

/-!
# Values with their integers as text

The hexadecimal text of an integer has no leading zeros and gives the integer back.  In a value that
is made of lists and records at any depth (`IsData`), every integer is replaced by its text, and all
else stays where it is.

* `Digits.positional?_hexMinimal`, `Digits.hexLiteral_injective`: the text of an integer writes it.
* `integerFree_hexIntegers`, `hexIntegers_of_integerFree`: no integer is left, and where there was
  none nothing changes.
* `at?_hexIntegers`: the part at a place is the part that stood there, with its integers as text.
-/

namespace AccountRegistry

/-! ## Digits -/

namespace Digits

variable {n : Nat}

theorem hexMinimal_ne_nil (n : Nat) : hexMinimal n ≠ [] := by
  rw [hexMinimal]
  split <;> simp

/-- The digits without leading zeros write their number. -/
theorem positional?_hexMinimal (n : Nat) : positional? 16 hexValue? (hexMinimal n) = some n := by
  fun_induction hexMinimal n with
  | case1 n hsmall => rw [Numeral.positional?_singleton, hexValue?_hexDigit hsmall]
  | case2 n hlarge ih =>
      have hlast : hexValue? (hexDigit (n % 16)) = some (n % 16) :=
        hexValue?_hexDigit (Nat.mod_lt _ (by decide))
      refine (Numeral.positional?_append_singleton (hexMinimal_ne_nil _) _).mpr
        ⟨n / 16, n % 16, ih, hlast, ?_⟩
      omega

theorem exists_of_mem_hexMinimal {c : Char} (hmem : c ∈ hexMinimal n) :
    ∃ d < 16, c = hexDigit d := by
  fun_induction hexMinimal n with
  | case1 n hsmall => exact ⟨n, hsmall, List.mem_singleton.mp hmem⟩
  | case2 n hlarge ih =>
      rcases List.mem_append.mp hmem with hfront | hlast
      · exact ih hfront
      · exact ⟨n % 16, Nat.mod_lt _ (by decide), List.mem_singleton.mp hlast⟩

/-- Only zero is written with a zero in front. -/
theorem head?_hexMinimal (hzero : (hexMinimal n).head? = some '0') : n = 0 := by
  fun_induction hexMinimal n with
  | case1 n hsmall =>
      have hall : ∀ d < 16, hexDigit d = '0' → d = 0 := by decide
      exact hall n hsmall (Option.some.inj hzero)
  | case2 n hlarge ih =>
      obtain ⟨c, rest, hfront⟩ := List.exists_cons_of_ne_nil (hexMinimal_ne_nil (n / 16))
      rw [hfront] at hzero ih
      have hsmall := ih hzero
      omega

/-- The characters of the text of an integer. -/
theorem toList_hexLiteral (n : Int) :
    (hexLiteral n).toList =
      '0' :: 'x' :: ((if n < 0 then ['-'] else []) ++ hexMinimal n.natAbs) := by
  by_cases hnegative : n < 0
  · simp [hexLiteral, hnegative]
  · simp [hexLiteral, hnegative]

theorem hexMinimal_injective : Function.Injective hexMinimal := by
  intro first second hsame
  have hvalue := positional?_hexMinimal first
  rw [hsame, positional?_hexMinimal] at hvalue
  exact (Option.some.inj hvalue).symm

theorem minus_notMem_hexMinimal (n : Nat) : '-' ∉ hexMinimal n := by
  intro hmem
  have hall : ∀ d < 16, '-' ≠ hexDigit d := by decide
  obtain ⟨d, hd, hdigit⟩ := exists_of_mem_hexMinimal hmem
  exact hall d hd hdigit

/-- The text of an integer gives it back. -/
theorem hexLiteral_injective : Function.Injective hexLiteral := by
  intro first second hsame
  have hchars := congrArg String.toList hsame
  rw [toList_hexLiteral, toList_hexLiteral, List.cons_inj_right, List.cons_inj_right] at hchars
  by_cases hfirst : first < 0
  · by_cases hsecond : second < 0
    · simp only [hfirst, hsecond, if_true, List.append_cancel_left_eq] at hchars
      have hmagnitude := hexMinimal_injective hchars
      omega
    · simp only [hfirst, hsecond, if_true, if_false, List.nil_append] at hchars
      exact absurd (hchars ▸ List.mem_cons_self) (minus_notMem_hexMinimal second.natAbs)
  · by_cases hsecond : second < 0
    · simp only [hfirst, hsecond, if_true, if_false, List.nil_append] at hchars
      exact absurd (hchars.symm ▸ List.mem_cons_self) (minus_notMem_hexMinimal first.natAbs)
    · simp only [hfirst, hsecond, if_false, List.nil_append] at hchars
      have hmagnitude := hexMinimal_injective hchars
      omega

end Digits

/-! ## Data -/

namespace Value

/-- A value of lists, records and what is neither, without a fault at any depth. -/
inductive IsData : Value → Prop
  | absent : IsData .absent
  | null : IsData .null
  | bool (b : Bool) : IsData (.bool b)
  | number (x : Binary64) : IsData (.number x)
  | integer (n : Int) : IsData (.integer n)
  | text (s : String) : IsData (.text s)
  | list {items : List Value} (hitems : ∀ item ∈ items, IsData item) : IsData (.list items)
  | record {fields : List (String × Value)} (hfields : ∀ field ∈ fields, IsData field.2) :
      IsData (.record fields)

theorem hexItems_eq_map (items : List Value) : hexItems items = items.map hexIntegers := by
  induction items with
  | nil => rfl
  | cons item rest ih => rw [hexItems, ih, List.map_cons]

theorem hexFields_eq_map (fields : List (String × Value)) :
    hexFields fields = fields.map fun field => (field.1, field.2.hexIntegers) := by
  induction fields with
  | nil => rfl
  | cons field rest ih => rw [hexFields, ih, List.map_cons]

theorem itemsIntegerFree_iff {items : List Value} :
    ItemsIntegerFree items ↔ ∀ item ∈ items, item.IntegerFree := by
  induction items with
  | nil => simp [ItemsIntegerFree]
  | cons item rest ih => rw [ItemsIntegerFree, ih, List.forall_mem_cons]

theorem fieldsIntegerFree_iff {fields : List (String × Value)} :
    FieldsIntegerFree fields ↔ ∀ field ∈ fields, field.2.IntegerFree := by
  induction fields with
  | nil => simp [FieldsIntegerFree]
  | cons field rest ih => rw [FieldsIntegerFree, ih, List.forall_mem_cons]

variable {value : Value}

/-- No integer is left. -/
theorem integerFree_hexIntegers (hdata : value.IsData) : value.hexIntegers.IntegerFree := by
  induction hdata with
  | list hitems ih =>
      rw [hexIntegers, hexItems_eq_map]
      exact itemsIntegerFree_iff.mpr (List.forall_mem_map.mpr ih)
  | record hfields ih =>
      rw [hexIntegers, hexFields_eq_map]
      exact fieldsIntegerFree_iff.mpr (List.forall_mem_map.mpr ih)
  | _ => trivial

theorem isData_hexIntegers (hdata : value.IsData) : value.hexIntegers.IsData := by
  induction hdata with
  | list hitems ih =>
      rw [hexIntegers, hexItems_eq_map]
      exact .list (List.forall_mem_map.mpr ih)
  | record hfields ih =>
      rw [hexIntegers, hexFields_eq_map]
      exact .record (List.forall_mem_map.mpr ih)
  | integer n => exact .text _
  | absent => exact .absent
  | null => exact .null
  | bool b => exact .bool b
  | number x => exact .number x
  | text s => exact .text s

/-- A value without integers stays as it is. -/
theorem hexIntegers_of_integerFree (hdata : value.IsData) (hfree : value.IntegerFree) :
    value.hexIntegers = value := by
  induction hdata with
  | integer n => cases hfree
  | @list items hitems ih =>
      have hitemsFree := itemsIntegerFree_iff.mp hfree
      rw [hexIntegers, hexItems_eq_map, List.map_congr_left fun item hitem =>
        ih item hitem (hitemsFree item hitem), List.map_id']
  | @record fields hfields ih =>
      have hfieldsFree := fieldsIntegerFree_iff.mp hfree
      have hsame : ∀ field ∈ fields, (field.1, field.2.hexIntegers) = field := by
        intro field hfield
        rw [ih field hfield (hfieldsFree field hfield)]
      rw [hexIntegers, hexFields_eq_map, List.map_congr_left hsame, List.map_id']
  | _ => rfl

theorem hexIntegers_hexIntegers (hdata : value.IsData) :
    value.hexIntegers.hexIntegers = value.hexIntegers :=
  hexIntegers_of_integerFree (isData_hexIntegers hdata) (integerFree_hexIntegers hdata)

/-! ## Places -/

/-- A step into a value: to an item of a list or to a field of a record. -/
inductive Step where
  | item (index : Nat)
  | field (key : String)

/-- The part of a value at the end of a path. -/
def at? : Value → List Step → Option Value
  | value, [] => some value
  | .list items, .item index :: rest => items[index]?.bind fun item => item.at? rest
  | .record fields, .field key :: rest => (fields.lookup key).bind fun found => found.at? rest
  | _, _ => none

theorem lookup_map_snd {fields : List (String × Value)} (f : Value → Value) (key : String) :
    (fields.map fun field => (field.1, f field.2)).lookup key = (fields.lookup key).map f := by
  induction fields with
  | nil => rfl
  | cons field rest ih =>
      rw [List.map_cons, List.lookup_cons, List.lookup_cons, ih]
      cases key == field.1 <;> rfl

theorem mem_of_lookup {fields : List (String × Value)} {key : String} {found : Value}
    (hfound : fields.lookup key = some found) : (key, found) ∈ fields := by
  obtain ⟨before, after, rfl, -⟩ := List.lookup_eq_some_iff.mp hfound
  simp

/-- Every part stands where it stood, with its integers as text. -/
theorem at?_hexIntegers (hdata : value.IsData) (path : List Step) :
    value.hexIntegers.at? path = (value.at? path).map hexIntegers := by
  induction path generalizing value with
  | nil => rfl
  | cons step rest ih =>
      cases hdata with
      | @list items hitems =>
          cases step with
          | field key => rfl
          | item index =>
              rw [hexIntegers, hexItems_eq_map, at?, at?, List.getElem?_map]
              cases hitem : items[index]? with
              | none => rfl
              | some item => exact ih (hitems item (List.mem_of_getElem? hitem))
      | @record fields hfields =>
          cases step with
          | item index => rfl
          | field key =>
              rw [hexIntegers, hexFields_eq_map, at?, at?, lookup_map_snd]
              cases hfield : fields.lookup key with
              | none => rfl
              | some found => exact ih (hfields (key, found) (mem_of_lookup hfield))
      | _ => cases step <;> rfl

/-- The parts of data are data. -/
theorem isData_at? (hdata : value.IsData) {path : List Step} {part : Value}
    (hpart : value.at? path = some part) : part.IsData := by
  induction path generalizing value with
  | nil =>
      cases hpart
      exact hdata
  | cons step rest ih =>
      cases hdata with
      | @list items hitems =>
          cases step with
          | field key => cases hpart
          | item index =>
              obtain ⟨item, hitem, hpart⟩ := Option.bind_eq_some_iff.mp hpart
              exact ih (hitems item (List.mem_of_getElem? hitem)) hpart
      | @record fields hfields =>
          cases step with
          | item index => cases hpart
          | field key =>
              obtain ⟨found, hfound, hpart⟩ := Option.bind_eq_some_iff.mp hpart
              exact ih (hfields (key, found) (mem_of_lookup hfound)) hpart
      | _ => cases step <;> cases hpart

end Value

end AccountRegistry
