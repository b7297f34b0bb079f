import AccountRegistry.Log.Text
import AccountRegistry.Proofs.HexIntegers

/-!
# Values in log lines

What the arguments of a record are written as.  A text is read from its beginning, so two texts
tell values apart if they differ before one of them ends (`Tell`), and that is passed on from the
parts of a list or a record to the whole, although commas and quotes stand between them.

* `JsonText.tell_hexLiteral`: quoted integers tell whether they are the same.
* `Value.tell_written`: so do values that differ in nothing but integers.
* `Log.tell_line`: so do whole lines that differ in nothing but integers among their arguments.
* `Value.integers_become_text`: what is lost of a value that is written, and what is not.
-/

namespace AccountRegistry

/-! ## Texts that tell values apart -/

/-- Two texts tell whether something is so: it is if they agree, whatever comes after them. -/
def Tell (first second : String) (same : Prop) : Prop :=
  ∀ after after', first.toList ++ after = second.toList ++ after' → same ∧ after = after'

namespace Tell

variable {first second : String} {same other : Prop}

theorem mono (htell : Tell first second same) (himp : same → other) : Tell first second other :=
  fun after after' hagree => (htell after after' hagree).imp_left himp

theorem refl (text : String) (hsame : same) : Tell text text same :=
  fun _ _ hagree => ⟨hsame, List.append_cancel_left hagree⟩

/-- One text after another: each of them tells its part. -/
theorem append {third fourth : String} (hfront : Tell first second same)
    (hback : Tell third fourth other) :
    Tell (first ++ third) (second ++ fourth) (same ∧ other) := by
  intro after after' hagree
  rw [String.toList_append, String.toList_append, List.append_assoc, List.append_assoc] at hagree
  obtain ⟨hsame, hrest⟩ := hfront _ _ hagree
  obtain ⟨hother, hafter⟩ := hback _ _ hrest
  exact ⟨⟨hsame, hother⟩, hafter⟩

/-- Texts between two others. -/
theorem between (htell : Tell first second same) (opening closing : String) :
    Tell (opening ++ first ++ closing) (opening ++ second ++ closing) same :=
  (((refl opening trivial).append htell).append (refl closing trivial)).mono fun h => h.1.2

theorem eq (htell : Tell first second same) (hagree : first = second) : same :=
  (htell [] [] (by rw [hagree])).1

end Tell

/-- Two lists of texts with commas between them tell whether something is so. -/
structure TellAll (first second : List String) (same : Prop) : Prop where
  nil_iff : first = [] ↔ second = []
  tell : Tell (String.intercalate "," first) (String.intercalate "," second) same

namespace TellAll

variable {first second : List String} {same other : Prop}

theorem refl (texts : List String) (hsame : same) : TellAll texts texts same :=
  ⟨Iff.rfl, .refl _ hsame⟩

theorem mono (htell : TellAll first second same) (himp : same → other) :
    TellAll first second other :=
  ⟨htell.nil_iff, htell.tell.mono himp⟩

theorem cons {head head' : String} (hhead : Tell head head' other)
    (htell : TellAll first second same) :
    TellAll (head :: first) (head' :: second) (other ∧ same) := by
  refine ⟨by simp, ?_⟩
  by_cases hnil : first = []
  · have hnil' := htell.nil_iff.mp hnil
    have hsame : same := htell.tell.eq (by rw [hnil, hnil'])
    subst hnil hnil'
    rw [String.intercalate_singleton, String.intercalate_singleton]
    exact hhead.mono fun hother => ⟨hother, hsame⟩
  · have hnil' : second ≠ [] := fun hsecond => hnil (htell.nil_iff.mpr hsecond)
    rw [String.intercalate_cons_of_ne_nil hnil, String.intercalate_cons_of_ne_nil hnil']
    exact ((hhead.append (.refl "," trivial)).append htell.tell).mono fun h => ⟨h.1.1, h.2⟩

theorem append_left (before : List String) (htell : TellAll first second same) :
    TellAll (before ++ first) (before ++ second) same := by
  induction before with
  | nil => exact htell
  | cons text rest ih => exact (cons (.refl text trivial) ih).mono And.right

end TellAll

/-! ## Integers in quotes -/

namespace JsonText

/-- A character that stands for itself in a string. -/
def IsPlain (c : Char) : Prop :=
  escape c = [c] ∧ c ≠ Units.mark

instance (c : Char) : Decidable (IsPlain c) :=
  inferInstanceAs (Decidable (escape c = [c] ∧ c ≠ Units.mark))

theorem IsPlain.ne_quote {c : Char} (hplain : IsPlain c) : c ≠ '"' := by
  rintro rfl
  exact absurd hplain.1 (by decide)

theorem escapeAll_of_plain {chars : List Char} (hplain : ∀ c ∈ chars, IsPlain c) :
    escapeAll chars = chars := by
  fun_induction escapeAll chars with
  | case1 next rest half hhalf ih => exact absurd rfl (hplain _ List.mem_cons_self).2
  | case2 next rest hhalf ih => exact absurd rfl (hplain _ List.mem_cons_self).2
  | case3 c next rest hmark ih =>
      obtain ⟨hc, hrest⟩ := List.forall_mem_cons.mp hplain
      rw [hc.1, ih hrest]
      rfl
  | case4 c => exact (hplain c List.mem_cons_self).1
  | case5 => rfl

theorem isPlain_of_mem_hexLiteral {n : Int} {c : Char} (hmem : c ∈ (Digits.hexLiteral n).toList) :
    IsPlain c := by
  have hdigits : ∀ d < 16, IsPlain (Digits.hexDigit d) := by decide
  rw [Digits.toList_hexLiteral, List.mem_cons, List.mem_cons, List.mem_append] at hmem
  rcases hmem with rfl | rfl | hsign | hdigit
  · decide
  · decide
  · split at hsign
    · rw [List.mem_singleton.mp hsign]
      decide
    · cases hsign
  · obtain ⟨d, hd, rfl⟩ := Digits.exists_of_mem_hexMinimal hdigit
    exact hdigits d hd

theorem toList_quote_hexLiteral (n : Int) :
    (quote (Digits.hexLiteral n)).toList = '"' :: ((Digits.hexLiteral n).toList ++ ['"']) := by
  rw [quote, String.toList_ofList,
    escapeAll_of_plain fun c => isPlain_of_mem_hexLiteral]
  rfl

/-- What stands before the first quote ends with it. -/
theorem append_quote_inj {first second after after' : List Char} (hfirst : ∀ c ∈ first, c ≠ '"')
    (hsecond : ∀ c ∈ second, c ≠ '"')
    (hagree : first ++ '"' :: after = second ++ '"' :: after') :
    first = second ∧ after = after' := by
  induction first generalizing second with
  | nil =>
      cases second with
      | nil => exact ⟨rfl, List.cons_inj_right _ |>.mp hagree⟩
      | cons c rest => exact absurd (List.cons.inj hagree).1.symm (hsecond c List.mem_cons_self)
  | cons c rest ih =>
      obtain ⟨hc, hrest⟩ := List.forall_mem_cons.mp hfirst
      cases second with
      | nil => exact absurd (List.cons.inj hagree).1 hc
      | cons d others =>
          obtain ⟨rfl, htail⟩ := List.cons.inj hagree
          obtain ⟨rfl, hafter⟩ := ih hrest (List.forall_mem_cons.mp hsecond).2 htail
          exact ⟨rfl, hafter⟩

/-- Integers in quotes tell whether they are the same. -/
theorem tell_hexLiteral (first second : Int) :
    Tell (quote (Digits.hexLiteral first)) (quote (Digits.hexLiteral second)) (first = second) := by
  intro after after' hagree
  rw [toList_quote_hexLiteral, toList_quote_hexLiteral, List.cons_append, List.cons_append,
    List.cons_inj_right, List.append_assoc, List.append_assoc] at hagree
  obtain ⟨hdigits, hafter⟩ := append_quote_inj
    (fun c hmem => (isPlain_of_mem_hexLiteral hmem).ne_quote)
    (fun c hmem => (isPlain_of_mem_hexLiteral hmem).ne_quote) hagree
  exact ⟨Digits.hexLiteral_injective (String.toList_injective hdigits), hafter⟩

end JsonText

namespace Value

/-! ## Values that differ in integers -/

mutual

/-- The value with a zero in place of every integer. -/
def zeroed : Value → Value
  | .integer _ => .integer 0
  | .list items => .list (zeroedItems items)
  | .record fields => .record (zeroedFields fields)
  | other => other

/-- `zeroed` on each item. -/
def zeroedItems : List Value → List Value
  | [] => []
  | item :: rest => item.zeroed :: zeroedItems rest

/-- `zeroed` on the value of each field. -/
def zeroedFields : List (String × Value) → List (String × Value)
  | [] => []
  | (key, value) :: rest => (key, value.zeroed) :: zeroedFields rest

end

theorem zeroedItems_eq_map (items : List Value) : zeroedItems items = items.map zeroed := by
  induction items with
  | nil => rfl
  | cons item rest ih => rw [zeroedItems, ih, List.map_cons]

theorem zeroedFields_eq_map (fields : List (String × Value)) :
    zeroedFields fields = fields.map fun field => (field.1, field.2.zeroed) := by
  induction fields with
  | nil => rfl
  | cons field rest ih => rw [zeroedFields, ih, List.map_cons]

/-! ## Written values -/

/-- The text of a value as an argument of a record. -/
def written (value : Value) : String :=
  JsonText.render (value.hexIntegers.toJson?.getD .null)

/-- The text of a field; a field that is absent has none. -/
def writtenField : String × Value → Option String
  | (_, .absent) => none
  | (key, value) => some (JsonText.quote key ++ ":" ++ value.written)

theorem writtenField_of_ne {value : Value} (key : String) (hpresent : value ≠ .absent) :
    writtenField (key, value) = some (JsonText.quote key ++ ":" ++ value.written) := by
  cases value <;> first | rfl | exact absurd rfl hpresent

theorem zeroed_eq_absent {value : Value} : value.zeroed = .absent ↔ value = .absent := by
  cases value <;> simp [zeroed]

theorem written_list (items : List Value) :
    written (.list items) = "[" ++ String.intercalate "," (items.map written) ++ "]" := by
  have hitems : JsonText.renderItems (jsonItems (hexItems items)) = items.map written := by
    induction items with
    | nil => rfl
    | cons item rest ih =>
        rw [hexItems, jsonItems, JsonText.renderItems, ih]
        rfl
  rw [← hitems]
  rfl

theorem written_record (fields : List (String × Value)) :
    written (.record fields) =
      "\x7b" ++ String.intercalate "," (fields.filterMap writtenField) ++ "\x7d" := by
  have hfields : JsonText.renderFields (jsonFields (hexFields fields)) =
      fields.filterMap writtenField := by
    induction fields with
    | nil => rfl
    | cons field rest ih =>
        obtain ⟨key, value⟩ := field
        rw [hexFields, List.filterMap_cons]
        cases value with
        | absent => exact ih
        | _ => exact congrArg _ ih
  rw [← hfields]
  rfl

theorem tellAll_items {items others : List Value}
    (htell : ∀ item ∈ items, ∀ other : Value, other.zeroed = item.zeroed →
      Tell other.written item.written (other = item))
    (hzeroed : others.map zeroed = items.map zeroed) :
    TellAll (others.map written) (items.map written) (others = items) := by
  induction items generalizing others with
  | nil =>
      obtain rfl := List.map_eq_nil_iff.mp hzeroed
      exact .refl [] rfl
  | cons item rest ih =>
      obtain ⟨hitem, hrest⟩ := List.forall_mem_cons.mp htell
      cases others with
      | nil => cases hzeroed
      | cons other others =>
          obtain ⟨hhead, htail⟩ := List.cons.inj hzeroed
          refine (TellAll.cons (hitem other hhead) (ih hrest htail)).mono ?_
          rintro ⟨rfl, rfl⟩
          rfl

theorem tellAll_fields {fields others : List (String × Value)}
    (htell : ∀ field ∈ fields, ∀ other : Value, other.zeroed = field.2.zeroed →
      Tell other.written field.2.written (other = field.2))
    (hzeroed : others.map (fun field => (field.1, field.2.zeroed)) =
      fields.map fun field => (field.1, field.2.zeroed)) :
    TellAll (others.filterMap writtenField) (fields.filterMap writtenField) (others = fields) := by
  induction fields generalizing others with
  | nil =>
      obtain rfl := List.map_eq_nil_iff.mp hzeroed
      exact .refl [] rfl
  | cons field rest ih =>
      obtain ⟨hfield, hrest⟩ := List.forall_mem_cons.mp htell
      cases others with
      | nil => cases hzeroed
      | cons other others =>
          obtain ⟨hhead, htail⟩ := List.cons.inj hzeroed
          obtain ⟨key, value⟩ := field
          obtain ⟨other, otherValue⟩ := other
          obtain ⟨rfl, hvalue⟩ := Prod.mk.inj hhead
          by_cases habsent : value = .absent
          · subst habsent
            obtain rfl := zeroed_eq_absent.mp hvalue
            exact (ih hrest htail).mono (congrArg _)
          · have hpresent : otherValue ≠ .absent := by
              rintro rfl
              exact habsent (zeroed_eq_absent.mp hvalue.symm)
            rw [List.filterMap_cons_some (writtenField_of_ne _ hpresent),
              List.filterMap_cons_some (writtenField_of_ne _ habsent)]
            have hfirst : Tell (JsonText.quote other ++ ":" ++ otherValue.written)
                (JsonText.quote other ++ ":" ++ value.written) (otherValue = value) :=
              ((Tell.refl _ trivial).append (hfield otherValue hvalue)).mono And.right
            refine (TellAll.cons hfirst (ih hrest htail)).mono ?_
            rintro ⟨rfl, rfl⟩
            rfl

/-- Texts of values that differ in nothing but integers tell whether they are the same. -/
theorem tell_written (hdata : value.IsData) {other : Value}
    (hzeroed : other.zeroed = value.zeroed) :
    Tell other.written value.written (other = value) := by
  induction hdata generalizing other with
  | integer n =>
      cases other <;> simp only [zeroed, reduceCtorEq] at hzeroed
      exact (JsonText.tell_hexLiteral _ n).mono (congrArg integer)
  | @list items hitems ih =>
      cases other <;> simp only [zeroed, reduceCtorEq, list.injEq] at hzeroed
      rw [written_list, written_list]
      rw [zeroedItems_eq_map, zeroedItems_eq_map] at hzeroed
      exact ((tellAll_items (fun item hitem _ => ih item hitem) hzeroed).tell.between "[" "]").mono
        (congrArg list)
  | @record fields hfields ih =>
      cases other <;> simp only [zeroed, reduceCtorEq, record.injEq] at hzeroed
      rw [written_record, written_record]
      rw [zeroedFields_eq_map, zeroedFields_eq_map] at hzeroed
      exact ((tellAll_fields (fun field hfield _ => ih field hfield) hzeroed).tell.between
        "\x7b" "\x7d").mono (congrArg record)
  | _ =>
      cases other <;> cases hzeroed
      exact .refl _ rfl

end Value

namespace Log

theorem renderFields_append (fields others : List (String × Json Binary64)) :
    JsonText.renderFields (fields ++ others) =
      JsonText.renderFields fields ++ JsonText.renderFields others := by
  induction fields with
  | nil => rfl
  | cons field rest ih =>
      rw [List.cons_append, JsonText.renderFields, JsonText.renderFields, ih, List.cons_append]

/-- The texts of the fields of a record with arguments. -/
theorem text_record (stream : Stream) (record : Record) :
    ∃ before after, ∀ args : List Value,
      (Line.record stream { record with args := some (recordArgs args) }).text =
        "\x7b" ++ String.intercalate ","
          (before ++ (JsonText.quote "args" ++ ":" ++ (Value.list args).written) :: after) ++
            "\x7d" := by
  refine ⟨JsonText.renderFields ([("level", .number (Binary64.ofNat record.level)),
    ("component", .text "evm-registry")] ++ (record.cause.map fun cause => ("err", cause)).toList),
    JsonText.renderFields (record.message.map fun message => ("msg", message)).toList,
    fun args => ?_⟩
  rw [Line.text, Record.toJson, JsonText.render, renderFields_append, renderFields_append,
    List.append_assoc]
  rfl

/-- Lines of records that differ in nothing but integers among their arguments tell whether the
arguments are the same. -/
theorem tell_line {args others : List Value} (hdata : ∀ arg ∈ args, arg.IsData)
    (hzeroed : others.map Value.zeroed = args.map Value.zeroed) (stream : Stream)
    (record : Record) :
    Tell (Line.record stream { record with args := some (recordArgs others) }).text
      (Line.record stream { record with args := some (recordArgs args) }).text
      (others = args) := by
  have hlists : (Value.list others).zeroed = (Value.list args).zeroed := by
    rw [Value.zeroed, Value.zeroed, Value.zeroedItems_eq_map, Value.zeroedItems_eq_map, hzeroed]
  have hargs : Tell (JsonText.quote "args" ++ ":" ++ (Value.list others).written)
      (JsonText.quote "args" ++ ":" ++ (Value.list args).written) (others = args) :=
    ((Tell.refl _ trivial).append (Value.tell_written (.list hdata) hlists)).mono
      fun hsame => Value.list.inj hsame.2
  obtain ⟨before, after, htext⟩ := text_record stream record
  rw [htext, htext]
  have hfields := (TellAll.cons hargs (.refl after trivial)).append_left before
  exact (hfields.tell.between "\x7b" "\x7d").mono And.left

end Log

namespace Value

/-! ## The law of written values -/

/-- What is written for a value of lists and records at any depth holds no integer.  Each part
stands where it stood: an integer as its hexadecimal text, a part without integers as it is, a list
with as many items and a record with the same keys, and nothing besides.  Lines of records whose
arguments differ in nothing but integers differ, and what is written once is not changed by being
written again. -/
theorem integers_become_text {value : Value} (hdata : value.IsData) :
    value.hexIntegers.IntegerFree ∧
    (∀ path,
      (∀ n, value.at? path = some (.integer n) →
        value.hexIntegers.at? path = some (.text (Digits.hexLiteral n))) ∧
      (∀ part, value.at? path = some part → part.IntegerFree →
        value.hexIntegers.at? path = some part) ∧
      (∀ items, value.at? path = some (.list items) → ∃ others,
        value.hexIntegers.at? path = some (.list others) ∧ others.length = items.length) ∧
      (∀ fields, value.at? path = some (.record fields) → ∃ others,
        value.hexIntegers.at? path = some (.record others) ∧
          others.map Prod.fst = fields.map Prod.fst) ∧
      (value.at? path = none → value.hexIntegers.at? path = none)) ∧
    (∀ n, ∃ digits,
      Digits.hexLiteral n = "0x" ++ (if n < 0 then "-" else "") ++ String.ofList digits ∧
        Numeral.Positional 16 Digits.hexValue? digits n.natAbs ∧
        (∀ c ∈ digits, ∃ d < 16, c = Digits.hexDigit d) ∧
        (digits.head? = some '0' → n = 0)) ∧
    (∀ other : Value, other.zeroed = value.zeroed → other ≠ value →
      ∀ (stream : Log.Stream) (record : Log.Record),
      (Log.Line.record stream { record with args := some (Log.recordArgs [other]) }).text ≠
        (Log.Line.record stream { record with args := some (Log.recordArgs [value]) }).text) ∧
    value.hexIntegers.hexIntegers = value.hexIntegers := by
  refine ⟨integerFree_hexIntegers hdata, fun path => ?_, fun n => ⟨Digits.hexMinimal n.natAbs, rfl,
    Numeral.positional?_eq_some_iff.mp (Digits.positional?_hexMinimal _),
    fun c => Digits.exists_of_mem_hexMinimal, fun hzero => ?_⟩, ?_, hexIntegers_hexIntegers hdata⟩
  · rw [at?_hexIntegers hdata]
    refine ⟨fun n hn => ?_, fun part hpart hfree => ?_, fun items hitems => ?_,
      fun fields hfields => ?_, fun hnone => ?_⟩
    · rw [hn]
      rfl
    · rw [hpart, Option.map_some, hexIntegers_of_integerFree (isData_at? hdata hpart) hfree]
    · rw [hitems]
      exact ⟨_, rfl, by rw [hexItems_eq_map, List.length_map]⟩
    · rw [hfields]
      refine ⟨_, rfl, ?_⟩
      rw [hexFields_eq_map, List.map_map]
      rfl
    · rw [hnone]
      rfl
  · exact Int.natAbs_eq_zero.mp (Digits.head?_hexMinimal hzero)
  · intro other hzeroed hother stream record hagree
    have hlists : [other].map zeroed = [value].map zeroed := List.singleton_inj.mpr hzeroed
    have htell := Log.tell_line (List.forall_mem_singleton.mpr hdata) hlists stream record
    exact hother (List.singleton_inj.mp (htell.eq hagree))

/-- A text that looks like an integer stays beside the integers of a list, and a line tells the
integers apart. -/
theorem integers_become_text_at_any_depth :
    let value (n : Int) : Value :=
      .record [("owner", .integer (-255)), ("slots", .list [.text "0x10", .integer n, .absent])]
    (value 16).IsData ∧
      (value 16).hexIntegers.at? [.field "owner"] = some (.text "0x-ff") ∧
      (value 16).hexIntegers.at? [.field "slots", .item 0] = some (.text "0x10") ∧
      (value 16).hexIntegers.at? [.field "slots", .item 1] = some (.text "0x10") ∧
      ∀ (stream : Log.Stream) (record : Log.Record),
      (Log.Line.record stream { record with args := some (Log.recordArgs [value 17]) }).text ≠
        (Log.Line.record stream { record with args := some (Log.recordArgs [value 16]) }).text := by
  intro value
  have hdata : (value 16).IsData := by
    refine .record (List.forall_mem_cons.mpr ⟨.integer _, List.forall_mem_singleton.mpr ?_⟩)
    refine .list (List.forall_mem_cons.mpr ⟨.text _, List.forall_mem_cons.mpr ⟨.integer _, ?_⟩⟩)
    exact List.forall_mem_singleton.mpr .absent
  have howner : Digits.hexLiteral (-255) = "0x-ff" := by decide +kernel
  have hslot : Digits.hexLiteral 16 = "0x10" := by decide +kernel
  obtain ⟨-, hparts, -, hlines, -⟩ := integers_become_text hdata
  refine ⟨hdata, ?_, (hparts _).2.1 _ rfl trivial, ?_, hlines (value 17) rfl ?_⟩
  · rw [← howner]
    exact (hparts [.field "owner"]).1 (-255) rfl
  · rw [← hslot]
    exact (hparts [.field "slots", .item 1]).1 16 rfl
  · intro hsame
    simp [value] at hsame

end Value

end AccountRegistry
