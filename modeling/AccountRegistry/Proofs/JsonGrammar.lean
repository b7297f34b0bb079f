import AccountRegistry.Proofs.Documents
import AccountRegistry.Proofs.Spelling

/-!
# The grammar of JSON texts

Which text writes which value, said without the reader.  `JsonText.Chars` is the grammar of the
characters of strings and `Literal.Spells` that of numbers.  `JsonText.Writes` makes values of them,
elements, which are values with blank space around them, the elements of lists and the members of
records; a whole text is an element (`JsonText.WritesDocument`).

* `sound`: what is read is written in the passed text.
* `Writes.isRead`: what a piece of a text writes is read from it.
* `parse_eq_ok_iff`: so a text is read as a value exactly if it writes that value, and it writes at
  most one.
* `spelled_of_writes`: every number that a value holds at a path of keys is spelled in a text that
  writes the value.
-/

namespace AccountRegistry.JsonText

open Digits Numeral

/-! ## The grammar -/

/-- Blank space, which may stand around every value and every key. -/
def IsGap (gap : List Char) : Prop :=
  ∀ c ∈ gap, c ∈ [' ', '\t', '\n', '\r']

/-- Characters between quotes, with the characters that they write. -/
inductive Chars : List Char → List Char → Prop
  | nil : Chars [] []
  | plain {c : Char} {text held : List Char} (control : 0x20 ≤ c.toNat) (quote : c ≠ '"')
      (backslash : c ≠ '\\') (rest : Chars text held) : Chars (c :: text) (c :: held)
  | escape {e c : Char} {text held : List Char} (letter : escaped? e = some c)
      (rest : Chars text held) : Chars ('\\' :: e :: text) (c :: held)
  | unit {a b c d : Char} {unit : ℕ} {text held : List Char}
      (digits : Positional 16 hexValue? [a, b, c, d] unit) (rest : Chars text held) :
      Chars ('\\' :: 'u' :: a :: b :: c :: d :: text) (Units.holdUnit unit ++ held)

/-- A text in quotes.  Two halves of a pair that meet in it are one character. -/
inductive Quotes : List Char → String → Prop
  | chars {text held : List Char} (chars : Chars text held) :
      Quotes ('"' :: (text ++ ['"'])) (Units.toText (Units.ofChars held))

/-- A key with blank space around it. -/
inductive Key : List Char → String → Prop
  | padded {before quoted after : List Char} {key : String} (before_gap : IsGap before)
      (quotes : Quotes quoted key) (after_gap : IsGap after) :
      Key (before ++ (quoted ++ after)) key

/-- What a piece of a text can write. -/
inductive Part
  | value (json : Json Literal)
  | element (json : Json Literal)
  | elements (items : List (Json Literal))
  | members (fields : List (String × Json Literal))

/-- A piece of a text that writes a value, with blank space around it or without, or what stands
between the brackets of a list or the braces of a record. -/
inductive Writes : List Char → Part → Prop
  | null : Writes ['n', 'u', 'l', 'l'] (.value .null)
  | true : Writes ['t', 'r', 'u', 'e'] (.value (.bool true))
  | false : Writes ['f', 'a', 'l', 's', 'e'] (.value (.bool false))
  | number {text : List Char} {literal : Literal} (spells : Literal.Spells text literal) :
      Writes text (.value (.number literal))
  | text {quoted : List Char} {s : String} (quotes : Quotes quoted s) :
      Writes quoted (.value (.text s))
  | emptyList {gap : List Char} (blank : IsGap gap) :
      Writes ('[' :: (gap ++ [']'])) (.value (.list []))
  | list {text : List Char} {items : List (Json Literal)} (inside : Writes text (.elements items)) :
      Writes ('[' :: (text ++ [']'])) (.value (.list items))
  | emptyRecord {gap : List Char} (blank : IsGap gap) :
      Writes ('\x7b' :: (gap ++ ['\x7d'])) (.value (.record []))
  | record {text : List Char} {fields : List (String × Json Literal)}
      (inside : Writes text (.members fields)) :
      Writes ('\x7b' :: (text ++ ['\x7d'])) (.value (.record fields))
  | element {before text after : List Char} {json : Json Literal} (before_gap : IsGap before)
      (value : Writes text (.value json)) (after_gap : IsGap after) :
      Writes (before ++ (text ++ after)) (.element json)
  | lastElement {text : List Char} {json : Json Literal} (last : Writes text (.element json)) :
      Writes text (.elements [json])
  | moreElements {text more : List Char} {json : Json Literal} {items : List (Json Literal)}
      (first : Writes text (.element json)) (others : Writes more (.elements items)) :
      Writes (text ++ ',' :: more) (.elements (json :: items))
  | lastMember {name text : List Char} {key : String} {json : Json Literal} (key_eq : Key name key)
      (last : Writes text (.element json)) : Writes (name ++ ':' :: text) (.members [(key, json)])
  | moreMembers {name text more : List Char} {key : String} {json : Json Literal}
      {fields : List (String × Json Literal)} (key_eq : Key name key)
      (first : Writes text (.element json)) (others : Writes more (.members fields)) :
      Writes (name ++ ':' :: (text ++ ',' :: more)) (.members ((key, json) :: fields))

/-- A whole text that writes a value. -/
def WritesDocument (text : String) (document : Json Literal) : Prop :=
  Writes text.toList (.element document)

variable {text rest after gap : List Char} {json : Json Literal} {fuel : ℕ}

/-! ## Blank space -/

theorem IsGap.append {other : List Char} (hgap : IsGap gap) (hother : IsGap other) :
    IsGap (gap ++ other) := by
  intro c hc
  rcases List.mem_append.mp hc with hmem | hmem
  · exact hgap c hmem
  · exact hother c hmem

theorem skipBlank_append (hgap : IsGap gap) (rest : List Char) :
    skipBlank (gap ++ rest) = skipBlank rest := by
  induction gap with
  | nil => rfl
  | cons c gap ih =>
      obtain ⟨hc, hrest⟩ := List.forall_mem_cons.mp hgap
      have hblank : (c == ' ' || c == '\t' || c == '\n' || c == '\r') = true := by
        simpa [or_assoc] using hc
      rw [List.cons_append, skipBlank, if_pos hblank]
      exact ih hrest

theorem skipBlank_spec (text : List Char) : ∃ gap, IsGap gap ∧ text = gap ++ skipBlank text := by
  induction text with
  | nil => exact ⟨[], nofun, rfl⟩
  | cons c text ih =>
      rw [skipBlank]
      split
      · rename_i hblank
        obtain ⟨gap, hgap, htext⟩ := ih
        have hc : c ∈ [' ', '\t', '\n', '\r'] := by simpa [or_assoc] using hblank
        exact ⟨c :: gap, List.forall_mem_cons.mpr ⟨hc, hgap⟩, congrArg (c :: ·) htext⟩
      · exact ⟨[], nofun, rfl⟩

theorem skipBlank_skipBlank (text : List Char) : skipBlank (skipBlank text) = skipBlank text := by
  obtain ⟨gap, hgap, htext⟩ := skipBlank_spec text
  conv_rhs => rw [htext, skipBlank_append hgap]

theorem EndsNumber.append (hgap : IsGap gap) (hends : EndsNumber rest) :
    EndsNumber (gap ++ rest) := by
  cases gap with
  | nil => exact hends
  | cons c gap =>
      intro first hfirst
      cases hfirst
      have hblank := hgap c List.mem_cons_self
      simp only [List.mem_cons, List.not_mem_nil, or_false] at hblank
      rcases hblank with rfl | rfl | rfl | rfl <;> decide

/-! ## Strings -/

theorem unit?_eq_some_iff {a b c d : Char} {unit : ℕ} :
    unit? a b c d = some unit ↔ Positional 16 hexValue? [a, b, c, d] unit := by
  have hread : unit? a b c d = positional? 16 hexValue? [a, b, c, d] := by
    unfold unit? positional?
    simp only [List.mapM_cons, List.mapM_nil]
    cases hexValue? a with
    | none => rfl
    | some w =>
        cases hexValue? b with
        | none => rfl
        | some x =>
            cases hexValue? c with
            | none => rfl
            | some y => cases hexValue? d <;> simp [ofDigits]
  rw [hread, positional?_eq_some_iff]

theorem chars_of_readChars {done chars : List Char}
    (hread : readChars text done = .ok (chars, rest)) :
    ∃ inside held, text = inside ++ '"' :: rest ∧ Chars inside held ∧
      chars = done.reverse ++ held := by
  fun_induction readChars text done with
  | case1 text done =>
      cases hread
      exact ⟨[], [], rfl, .nil, by simp⟩
  | case2 a b c d text done unit hunit ih =>
      obtain ⟨inside, held, rfl, hchars, rfl⟩ := ih hread
      exact ⟨_, _, rfl, .unit (unit?_eq_some_iff.mp hunit) hchars, by simp⟩
  | case4 e text done hplain c hescaped ih =>
      obtain ⟨inside, held, rfl, hchars, rfl⟩ := ih hread
      exact ⟨_, _, rfl, .escape hescaped hchars, by simp⟩
  | case7 c text done hquote hunit hescape hplain ih =>
      obtain ⟨inside, held, rfl, hchars, rfl⟩ := ih hread
      obtain ⟨hcontrol, hbackslash⟩ := not_or.mp hplain
      exact ⟨_, _, rfl, .plain (Nat.le_of_not_lt hcontrol) hquote hbackslash hchars, by simp⟩
  | case3 => cases hread
  | case5 => cases hread
  | case6 => cases hread
  | case8 => cases hread

theorem readChars_of_chars {inside held : List Char} (hchars : Chars inside held)
    (rest done : List Char) :
    readChars (inside ++ '"' :: rest) done = .ok (done.reverse ++ held, rest) := by
  induction hchars generalizing done with
  | nil => simp [readChars]
  | @plain c text held control quote backslash _ ih =>
      have hplain : ¬(c.toNat < 0x20 ∨ c = '\\') :=
        not_or.mpr ⟨Nat.not_lt.mpr control, backslash⟩
      rw [List.cons_append, readChars, if_neg hplain, ih, List.reverse_cons, List.append_assoc]
      · rfl
      · exact quote
      · exact fun _ _ _ _ _ hescape _ => backslash hescape
      · exact fun _ _ hescape _ => backslash hescape
  | @escape e c text held letter _ ih =>
      rw [List.cons_append, List.cons_append, readChars, letter]
      · dsimp only
        rw [ih, List.reverse_cons, List.append_assoc]
        rfl
      · -- the letter in front of four digits stands for no character
        rintro _ _ _ _ _ rfl
        cases letter
  | @unit a b c d unit text held digits _ ih =>
      have hunit := unit?_eq_some_iff.mpr digits
      simp only [List.cons_append, readChars, hunit, ih, List.reverse_append, List.reverse_reverse,
        List.append_assoc]

theorem quotes_of_readString {s : String} (hread : readString text = .ok (s, rest)) :
    ∃ quoted, '"' :: text = quoted ++ rest ∧ Quotes quoted s := by
  unfold readString at hread
  split at hread
  · rename_i hchars
    cases hread
    obtain ⟨inside, held, rfl, hheld, rfl⟩ := chars_of_readChars hchars
    exact ⟨'"' :: (inside ++ ['"']), by simp, .chars hheld⟩
  · cases hread

theorem readString_of_quotes {quoted : List Char} {s : String} (hquotes : Quotes quoted s)
    (rest : List Char) :
    ∃ text, quoted ++ rest = '"' :: text ∧ readString text = .ok (s, rest) := by
  cases hquotes with
  | @chars inside held chars =>
      refine ⟨inside ++ '"' :: rest, by simp, ?_⟩
      rw [readString, readChars_of_chars chars]
      rfl

/-! ## What is read is written -/

theorem eq_append_of_expectWord {word : List Char} (hread : expectWord word text = .ok rest) :
    text = word ++ rest := by
  induction word generalizing text with
  | nil =>
      cases hread
      rfl
  | cons w word ih =>
      cases text with
      | nil => cases hread
      | cons c text =>
          rw [expectWord] at hread
          split at hread
          · rename_i hsame
            rw [hsame, ih hread]
            rfl
          · cases hread

/-- A value that is a word is written by its first letter and the rest of the word. -/
theorem skipBlank_of_expectWord {letter : Char} {inside word : List Char}
    (hletter : skipBlank text = letter :: inside) (hread : expectWord word inside = .ok rest) :
    skipBlank text = letter :: word ++ rest := by
  rw [hletter, eq_append_of_expectWord hread, List.cons_append]

/-- Blank space is passed over up to the next character. -/
theorem gap_of_skipBlank {next : List Char} (hnext : skipBlank text = next) :
    ∃ gap, IsGap gap ∧ text = gap ++ next :=
  hnext ▸ skipBlank_spec text

theorem key_of_readString {inside : List Char} {key : String}
    (hquote : skipBlank text = '"' :: inside) (hread : readString inside = .ok (key, rest)) :
    ∃ name, text = name ++ skipBlank rest ∧ Key name key := by
  obtain ⟨before, hbefore, rfl⟩ := gap_of_skipBlank hquote
  obtain ⟨quoted, hinside, hquotes⟩ := quotes_of_readString hread
  obtain ⟨after, hafter, hrest⟩ := skipBlank_spec rest
  refine ⟨before ++ (quoted ++ after), ?_, .padded hbefore hquotes hafter⟩
  rw [hinside, List.append_assoc, List.append_assoc, ← hrest]

/-- Blank space in front belongs to the first element. -/
theorem Writes.elements_append (hgap : IsGap gap) {items : List (Json Literal)}
    (hwrites : Writes text (.elements items)) : Writes (gap ++ text) (.elements items) := by
  have helement {text : List Char} {json : Json Literal} (hwrites : Writes text (.element json)) :
      Writes (gap ++ text) (.element json) := by
    cases hwrites with
    | element before_gap value after_gap =>
        rw [← List.append_assoc]
        exact .element (hgap.append before_gap) value after_gap
  cases hwrites with
  | lastElement last => exact .lastElement (helement last)
  | moreElements first others =>
      rw [← List.append_assoc]
      exact .moreElements (helement first) others

/-- Blank space in front belongs to the first key. -/
theorem Writes.members_append (hgap : IsGap gap) {fields : List (String × Json Literal)}
    (hwrites : Writes text (.members fields)) : Writes (gap ++ text) (.members fields) := by
  have hkey {name : List Char} {key : String} (hname : Key name key) : Key (gap ++ name) key := by
    cases hname with
    | padded before_gap quotes after_gap =>
        rw [← List.append_assoc]
        exact .padded (hgap.append before_gap) quotes after_gap
  cases hwrites with
  | lastMember key_eq last =>
      rw [← List.append_assoc]
      exact .lastMember (hkey key_eq) last
  | moreMembers key_eq first others =>
      rw [← List.append_assoc]
      exact .moreMembers (hkey key_eq) first others

/-- What is read with some fuel is written in the text that it passes over. -/
structure Sound (fuel : ℕ) : Prop where
  value : ∀ {text rest json}, readValue fuel text = .ok (json, rest) →
    ∃ spelled, skipBlank text = spelled ++ rest ∧ Writes spelled (.value json)
  items : ∀ {text rest items}, readItems fuel text = .ok (items, rest) →
    ∃ spelled, text = spelled ++ ']' :: rest ∧ Writes spelled (.elements items)
  fields : ∀ {text rest fields}, readFields fuel text = .ok (fields, rest) →
    ∃ spelled, text = spelled ++ '\x7d' :: rest ∧ Writes spelled (.members fields)

/-- The blank space on both sides of a value belongs to its element. -/
theorem Sound.element (hsound : Sound fuel) (hread : readValue fuel text = .ok (json, rest)) :
    ∃ spelled, text = spelled ++ skipBlank rest ∧ Writes spelled (.element json) := by
  obtain ⟨before, hbefore, htext⟩ := skipBlank_spec text
  obtain ⟨spelled, hspelled, hwrites⟩ := hsound.value hread
  obtain ⟨after, hafter, hrest⟩ := skipBlank_spec rest
  refine ⟨before ++ (spelled ++ after), ?_, .element hbefore hwrites hafter⟩
  rw [htext, hspelled, List.append_assoc, List.append_assoc, ← hrest]

theorem Sound.value_succ (hsound : Sound fuel)
    (hread : readValue (fuel + 1) text = .ok (json, rest)) :
    ∃ spelled, skipBlank text = spelled ++ rest ∧ Writes spelled (.value json) := by
  rw [readValue] at hread
  split at hread
  · cases hread
  · rename_i inside hopen
    split at hread
    · rename_i hclose
      cases hread
      obtain ⟨gap, hgap, rfl⟩ := gap_of_skipBlank hclose
      exact ⟨'\x7b' :: (gap ++ ['\x7d']), by rw [hopen]; simp, .emptyRecord hgap⟩
    · obtain ⟨⟨fields, rest'⟩, hfields, hread⟩ := except_bind_eq_ok.mp hread
      cases hread
      obtain ⟨gap, hgap, hinside⟩ := skipBlank_spec inside
      obtain ⟨spelled, hspelled, hwrites⟩ := hsound.fields hfields
      refine ⟨'\x7b' :: ((gap ++ spelled) ++ ['\x7d']), ?_,
        .record (hwrites.members_append hgap)⟩
      rw [hopen, hinside, hspelled]
      simp
  · rename_i inside hopen
    split at hread
    · rename_i hclose
      cases hread
      obtain ⟨gap, hgap, rfl⟩ := gap_of_skipBlank hclose
      exact ⟨'[' :: (gap ++ [']']), by rw [hopen]; simp, .emptyList hgap⟩
    · obtain ⟨⟨items, rest'⟩, hitems, hread⟩ := except_bind_eq_ok.mp hread
      cases hread
      obtain ⟨gap, hgap, hinside⟩ := skipBlank_spec inside
      obtain ⟨spelled, hspelled, hwrites⟩ := hsound.items hitems
      refine ⟨'[' :: ((gap ++ spelled) ++ [']']), ?_, .list (hwrites.elements_append hgap)⟩
      rw [hopen, hinside, hspelled]
      simp
  · rename_i inside hquote
    obtain ⟨⟨s, rest'⟩, hstring, hread⟩ := except_bind_eq_ok.mp hread
    cases hread
    obtain ⟨quoted, hquoted, hquotes⟩ := quotes_of_readString hstring
    exact ⟨quoted, hquote.trans hquoted, .text hquotes⟩
  · rename_i hletter
    obtain ⟨rest', hword, hread⟩ := except_bind_eq_ok.mp hread
    cases hread
    exact ⟨_, skipBlank_of_expectWord hletter hword, .true⟩
  · rename_i hletter
    obtain ⟨rest', hword, hread⟩ := except_bind_eq_ok.mp hread
    cases hread
    exact ⟨_, skipBlank_of_expectWord hletter hword, .false⟩
  · rename_i hletter
    obtain ⟨rest', hword, hread⟩ := except_bind_eq_ok.mp hread
    cases hread
    exact ⟨_, skipBlank_of_expectWord hletter hword, .null⟩
  · obtain ⟨⟨literal, rest'⟩, hnumber, hread⟩ := except_bind_eq_ok.mp hread
    cases hread
    obtain ⟨spelled, hspelled, hspells⟩ := spells_of_readNumber hnumber
    exact ⟨spelled, hspelled, .number hspells⟩

theorem Sound.items_succ (hsound : Sound fuel) {items : List (Json Literal)}
    (hread : readItems (fuel + 1) text = .ok (items, rest)) :
    ∃ spelled, text = spelled ++ ']' :: rest ∧ Writes spelled (.elements items) := by
  rw [readItems] at hread
  obtain ⟨⟨item, after⟩, hitem, hread⟩ := except_bind_eq_ok.mp hread
  obtain ⟨spelled, htext, hwrites⟩ := hsound.element hitem
  dsimp only at hread
  split at hread
  · rename_i hcomma
    obtain ⟨⟨items, rest'⟩, hitems, hread⟩ := except_bind_eq_ok.mp hread
    cases hread
    obtain ⟨others, rfl, hothers⟩ := hsound.items hitems
    refine ⟨spelled ++ ',' :: others, ?_, .moreElements hwrites hothers⟩
    rw [htext, hcomma, List.append_assoc, List.cons_append]
  · rename_i hclose
    cases hread
    exact ⟨spelled, by rw [htext, hclose], .lastElement hwrites⟩
  · cases hread

theorem Sound.fields_succ (hsound : Sound fuel) {fields : List (String × Json Literal)}
    (hread : readFields (fuel + 1) text = .ok (fields, rest)) :
    ∃ spelled, text = spelled ++ '\x7d' :: rest ∧ Writes spelled (.members fields) := by
  rw [readFields] at hread
  split at hread
  · rename_i hquote
    obtain ⟨⟨key, afterKey⟩, hkey, hread⟩ := except_bind_eq_ok.mp hread
    obtain ⟨name, htext, hname⟩ := key_of_readString hquote hkey
    dsimp only at hread
    split at hread
    · rename_i hcolon
      obtain ⟨⟨value, afterValue⟩, hvalue, hread⟩ := except_bind_eq_ok.mp hread
      obtain ⟨spelled, hspelled, hwrites⟩ := hsound.element hvalue
      rw [htext, hcolon, hspelled]
      dsimp only at hread
      split at hread
      · rename_i hcomma
        obtain ⟨⟨others, rest'⟩, hothers, hread⟩ := except_bind_eq_ok.mp hread
        cases hread
        obtain ⟨more, rfl, hmore⟩ := hsound.fields hothers
        refine ⟨name ++ ':' :: (spelled ++ ',' :: more), ?_, .moreMembers hname hwrites hmore⟩
        rw [hcomma, List.append_assoc, List.cons_append, List.append_assoc, List.cons_append]
      · rename_i hclose
        cases hread
        refine ⟨name ++ ':' :: spelled, ?_, .lastMember hname hwrites⟩
        rw [hclose, List.append_assoc, List.cons_append]
      · cases hread
    · cases hread
  · cases hread

/-- Whatever is read is written in the text. -/
theorem sound (fuel : ℕ) : Sound fuel := by
  induction fuel with
  | zero =>
      constructor
      · intro text rest json hread
        cases hread
      · intro text rest items hread
        cases hread
      · intro text rest fields hread
        cases hread
  | succ fuel ih => exact ⟨ih.value_succ, ih.items_succ, ih.fields_succ⟩

/-! ## What is written is read -/

theorem skipBlank_of_key {name : List Char} {key : String} (hname : Key name key)
    (rest : List Char) :
    ∃ inside after, skipBlank (name ++ ':' :: rest) = '"' :: inside ∧
      readString inside = .ok (key, after) ∧ skipBlank after = ':' :: rest := by
  cases hname with
  | @padded before quoted after key before_gap quotes after_gap =>
      obtain ⟨inside, hquoted, hread⟩ := readString_of_quotes quotes (after ++ ':' :: rest)
      refine ⟨inside, _, ?_, hread, ?_⟩
      · rw [List.append_assoc, List.append_assoc, skipBlank_append before_gap, hquoted]
        rfl
      · rw [skipBlank_append after_gap]
        rfl

theorem readValue_skipBlank (hread : readValue fuel text = .ok (json, rest)) :
    readValue fuel (skipBlank text) = .ok (json, rest) := by
  cases fuel with
  | zero => cases hread
  | succ fuel =>
      rw [readValue] at hread ⊢
      rwa [skipBlank_skipBlank]

theorem readItems_skipBlank {items : List (Json Literal)}
    (hread : readItems fuel text = .ok (items, rest)) :
    readItems fuel (skipBlank text) = .ok (items, rest) := by
  cases fuel with
  | zero => cases hread
  | succ fuel =>
      rw [readItems] at hread ⊢
      obtain ⟨first, hfirst, hread⟩ := except_bind_eq_ok.mp hread
      exact except_bind_eq_ok.mpr ⟨first, readValue_skipBlank hfirst, hread⟩

theorem readFields_skipBlank {fields : List (String × Json Literal)}
    (hread : readFields fuel text = .ok (fields, rest)) :
    readFields fuel (skipBlank text) = .ok (fields, rest) := by
  cases fuel with
  | zero => cases hread
  | succ fuel =>
      rw [readFields] at hread ⊢
      rwa [skipBlank_skipBlank]

/-- There are no elements in front of a bracket that closes. -/
theorem readItems_close (fuel : ℕ) (rest : List Char) (result : List (Json Literal) × List Char) :
    readItems fuel (']' :: rest) ≠ .ok result := by
  intro hread
  cases fuel with
  | zero => cases hread
  | succ fuel =>
      rw [readItems] at hread
      cases fuel with
      | zero => cases hread
      | succ fuel => cases hread

theorem readFields_close (fuel : ℕ) (rest : List Char)
    (result : List (String × Json Literal) × List Char) :
    readFields fuel ('\x7d' :: rest) ≠ .ok result := by
  intro hread
  cases fuel with
  | zero => cases hread
  | succ fuel => cases hread

theorem readValue_list {inside : List Char} {items : List (Json Literal)}
    (hopen : skipBlank text = '[' :: inside) (hitems : readItems fuel inside = .ok (items, rest)) :
    readValue (fuel + 1) text = .ok (.list items, rest) := by
  have hinside := readItems_skipBlank hitems
  simp only [readValue, hopen]
  split
  · rename_i hclose
    rw [hclose] at hinside
    exact absurd hinside (readItems_close _ _ _)
  · rw [hinside]
    rfl

theorem readValue_record {inside : List Char} {fields : List (String × Json Literal)}
    (hopen : skipBlank text = '\x7b' :: inside)
    (hfields : readFields fuel inside = .ok (fields, rest)) :
    readValue (fuel + 1) text = .ok (.record fields, rest) := by
  have hinside := readFields_skipBlank hfields
  simp only [readValue, hopen]
  split
  · rename_i hclose
    rw [hclose] at hinside
    exact absurd hinside (readFields_close _ _ _)
  · rw [hinside]
    rfl

theorem skipBlank_cons {c : Char} (hc : c ∉ [' ', '\t', '\n', '\r']) :
    skipBlank (c :: rest) = c :: rest := by
  rw [skipBlank, if_neg (by simpa [or_assoc] using hc)]

theorem readValue_number {spelled : List Char} {literal : Literal}
    (hspells : Literal.Spells spelled literal) (hgap : IsGap gap) (hends : EndsNumber rest) :
    readValue (fuel + 1) (gap ++ (spelled ++ rest)) = .ok (.number literal, rest) := by
  have hread := readNumber_of_spells hspells hends
  obtain ⟨c, tail, rfl, hfirst⟩ := head_of_spells hspells
  -- neither blank space nor another value starts with a minus sign or a digit
  have hstart {other : Char} (hother : ¬(other = '-' ∨ decimalValue? other ≠ none)) :
      c ≠ other := by
    rintro rfl
    exact hother hfirst
  have hblank : c ∉ [' ', '\t', '\n', '\r'] := by
    simp only [List.mem_cons, List.not_mem_nil, or_false, not_or]
    exact ⟨hstart (by decide), hstart (by decide), hstart (by decide), hstart (by decide)⟩
  simp only [readValue, skipBlank_append hgap, List.cons_append, skipBlank_cons hblank]
  split
  case h_8 =>
    rw [List.cons_append] at hread
    rw [hread]
    rfl
  case h_1 hnil => cases hnil
  all_goals
    rename_i hhead
    exact absurd (List.cons.inj hhead).1 (hstart (by decide))

theorem readItems_last (hread : readValue fuel text = .ok (json, after))
    (hclose : skipBlank after = ']' :: rest) :
    readItems (fuel + 1) text = .ok ([json], rest) := by
  rw [readItems]
  refine except_bind_eq_ok.mpr ⟨_, hread, ?_⟩
  simp only [hclose]
  rfl

theorem readItems_more {more : List Char} {items : List (Json Literal)}
    (hread : readValue fuel text = .ok (json, after)) (hcomma : skipBlank after = ',' :: more)
    (hmore : readItems fuel more = .ok (items, rest)) :
    readItems (fuel + 1) text = .ok (json :: items, rest) := by
  rw [readItems]
  refine except_bind_eq_ok.mpr ⟨_, hread, ?_⟩
  simp only [hcomma, hmore]
  rfl

theorem readFields_last {name value : List Char} {key : String} (hname : Key name key)
    (hread : readValue fuel value = .ok (json, after)) (hclose : skipBlank after = '\x7d' :: rest) :
    readFields (fuel + 1) (name ++ ':' :: value) = .ok ([(key, json)], rest) := by
  obtain ⟨inside, afterKey, hquote, hkey, hcolon⟩ := skipBlank_of_key hname value
  simp only [readFields, hquote, hkey, hcolon, hread, hclose, bind, Except.bind]
  rfl

theorem readFields_more {name value more : List Char} {key : String}
    {fields : List (String × Json Literal)} (hname : Key name key)
    (hread : readValue fuel value = .ok (json, after)) (hcomma : skipBlank after = ',' :: more)
    (hmore : readFields fuel more = .ok (fields, rest)) :
    readFields (fuel + 1) (name ++ ':' :: value) = .ok ((key, json) :: fields, rest) := by
  obtain ⟨inside, afterKey, hquote, hkey, hcolon⟩ := skipBlank_of_key hname value
  simp only [readFields, hquote, hkey, hcolon, hread, hcomma, hmore, bind, Except.bind]
  rfl

/-- Blank space is passed over up to the bracket or brace that opens. -/
theorem skipBlank_enclosed {opening : Char} (hgap : IsGap gap)
    (hopening : opening ∉ [' ', '\t', '\n', '\r']) (closing : Char) :
    skipBlank (gap ++ (opening :: (text ++ [closing]) ++ rest)) =
      opening :: (text ++ closing :: rest) := by
  rw [skipBlank_append hgap, List.cons_append, skipBlank_cons hopening, List.append_assoc]
  rfl

/-- A number does not go on with what stands behind an element. -/
theorem endsNumber_of_mem {c : Char} (hc : c ∈ [',', ']', '\x7d']) (rest : List Char) :
    EndsNumber (c :: rest) := by
  intro first hfirst
  cases hfirst
  simp only [List.mem_cons, List.not_mem_nil, or_false] at hc
  rcases hc with rfl | rfl | rfl <;> decide

/-- A piece of a text is read as what it writes, if what follows does not go on with it.  The fuel
is at least twice the length of the piece, and one more for a value or two more for what stands
between brackets. -/
def Part.IsRead (text : List Char) : Part → Prop
  | .value json => ∀ fuel gap rest, 2 * text.length ≤ fuel → IsGap gap → EndsNumber rest →
      readValue (fuel + 1) (gap ++ (text ++ rest)) = .ok (json, rest)
  | .element json => ∀ fuel rest, 2 * text.length ≤ fuel → EndsNumber rest →
      ∃ after, readValue (fuel + 1) (text ++ rest) = .ok (json, after) ∧
        skipBlank after = skipBlank rest
  | .elements items => ∀ fuel rest, 2 * text.length ≤ fuel →
      readItems (fuel + 2) (text ++ ']' :: rest) = .ok (items, rest)
  | .members fields => ∀ fuel rest, 2 * text.length ≤ fuel →
      readFields (fuel + 2) (text ++ '\x7d' :: rest) = .ok (fields, rest)

/-- Whatever a piece of a text writes is read. -/
theorem Writes.isRead {part : Part} (hwrites : Writes text part) : part.IsRead text := by
  -- a value takes more fuel than what stands in it, and its brackets pay for that
  have hless {text : List Char} {opening closing : Char} {fuel : ℕ}
      (hfuel : 2 * (opening :: (text ++ [closing])).length ≤ fuel) :
      ∃ less, fuel = less + 2 ∧ 2 * text.length ≤ less := by
    simp only [List.length_cons, List.length_append, List.length_nil] at hfuel
    exact ⟨fuel - 2, by omega, by omega⟩
  induction hwrites with
  | null | true | false =>
      intro fuel gap rest hfuel hgap hends
      simp only [readValue, skipBlank_append hgap]
      rfl
  | number spells =>
      intro fuel gap rest hfuel hgap hends
      exact readValue_number spells hgap hends
  | text quotes =>
      intro fuel gap rest hfuel hgap hends
      obtain ⟨inside, hquoted, hread⟩ := readString_of_quotes quotes rest
      have hopen : skipBlank ('"' :: inside) = '"' :: inside := skipBlank_cons (by decide)
      simp only [readValue, skipBlank_append hgap, hquoted, hopen, hread]
      rfl
  | emptyList blank =>
      intro fuel gap rest hfuel hgap hends
      simp only [readValue, skipBlank_enclosed hgap (by decide : '[' ∉ [' ', '\t', '\n', '\r']),
        skipBlank_append blank]
      rfl
  | list inside ih =>
      intro fuel gap rest hfuel hgap hends
      obtain ⟨less, rfl, hinside⟩ := hless hfuel
      exact readValue_list (skipBlank_enclosed hgap (by decide) _) (ih less rest hinside)
  | emptyRecord blank =>
      intro fuel gap rest hfuel hgap hends
      simp only [readValue, skipBlank_enclosed hgap (by decide : '\x7b' ∉ [' ', '\t', '\n', '\r']),
        skipBlank_append blank]
      rfl
  | record inside ih =>
      intro fuel gap rest hfuel hgap hends
      obtain ⟨less, rfl, hinside⟩ := hless hfuel
      exact readValue_record (skipBlank_enclosed hgap (by decide) _) (ih less rest hinside)
  | @element before text after json before_gap value after_gap ih =>
      intro fuel rest hfuel hends
      refine ⟨after ++ rest, ?_, skipBlank_append after_gap rest⟩
      rw [List.append_assoc, List.append_assoc]
      simp only [List.length_append] at hfuel
      exact ih fuel before (after ++ rest) (by omega) before_gap (hends.append after_gap)
  | lastElement last ih =>
      intro fuel rest hfuel
      obtain ⟨after, hread, hafter⟩ := ih fuel (']' :: rest) hfuel (endsNumber_of_mem (by decide) _)
      exact readItems_last hread hafter
  | @moreElements text more json items first others ihfirst ihothers =>
      intro fuel rest hfuel
      simp only [List.length_append, List.length_cons] at hfuel
      obtain ⟨less, rfl⟩ : ∃ less, fuel = less + 1 := ⟨fuel - 1, by omega⟩
      obtain ⟨after, hread, hafter⟩ := ihfirst (less + 1) (',' :: (more ++ ']' :: rest)) (by omega)
        (endsNumber_of_mem (by decide) _)
      rw [List.append_assoc]
      exact readItems_more hread hafter (ihothers less rest (by omega))
  | @lastMember name text key json key_eq last ih =>
      intro fuel rest hfuel
      simp only [List.length_append, List.length_cons] at hfuel
      obtain ⟨after, hread, hafter⟩ := ih fuel ('\x7d' :: rest) (by omega)
        (endsNumber_of_mem (by decide) _)
      rw [List.append_assoc]
      exact readFields_last key_eq hread hafter
  | @moreMembers name text more key json fields key_eq first others ihfirst ihothers =>
      intro fuel rest hfuel
      simp only [List.length_append, List.length_cons] at hfuel
      obtain ⟨less, rfl⟩ : ∃ less, fuel = less + 1 := ⟨fuel - 1, by omega⟩
      obtain ⟨after, hread, hafter⟩ := ihfirst (less + 1) (',' :: (more ++ '\x7d' :: rest))
        (by omega) (endsNumber_of_mem (by decide) _)
      rw [List.append_assoc, List.cons_append, List.append_assoc]
      exact readFields_more key_eq hread hafter (ihothers less rest (by omega))

/-- A text is read as a value exactly if it writes that value. -/
theorem parse_eq_ok_iff {text : String} {document : Json Literal} :
    parse text = .ok document ↔ WritesDocument text document := by
  unfold parse
  dsimp only
  constructor
  · intro hparse
    split at hparse
    · rename_i hread
      obtain ⟨spelled, htext, hwrites⟩ := (sound _).element hread
      split at hparse
      · rename_i hend
        cases hparse
        rw [hend, List.append_nil] at htext
        rw [WritesDocument, htext]
        exact hwrites
      · cases hparse
    · cases hparse
  · intro hwrites
    obtain ⟨after, hread, hafter⟩ := Writes.isRead hwrites _ [] le_rfl nofun
    rw [List.append_nil] at hread
    simp only [hread, hafter]
    rfl

/-! ## The numbers of a value -/

/-- Every number that a value holds at a path of keys is spelled in a text. -/
def SpelledIn (text : List Char) (json : Json Literal) : Prop :=
  ∀ path literal, json.at? path = some (.number literal) →
    ∃ spelled, spelled <:+: text ∧ Literal.Spells spelled literal

theorem SpelledIn.mono {other : List Char} (hspelled : SpelledIn text json)
    (hwithin : text <:+: other) : SpelledIn other json := by
  intro path literal hat
  obtain ⟨spelled, hhere, hspells⟩ := hspelled path literal hat
  exact ⟨spelled, hhere.trans hwithin, hspells⟩

theorem spelledIn_number {literal : Literal} (hspells : Literal.Spells text literal) :
    SpelledIn text (.number literal) := by
  intro path other hat
  cases path with
  | nil =>
      cases hat
      exact ⟨text, List.infix_rfl, hspells⟩
  | cons key path => cases hat

/-- What is no number and has no fields holds no numbers. -/
theorem spelledIn_of_field?_eq_none (hnumber : ∀ literal, json ≠ .number literal)
    (hnone : ∀ key, json.field? key = none) : SpelledIn text json := by
  intro path literal hat
  cases path with
  | nil =>
      rw [Json.at?_nil, Option.some.injEq] at hat
      exact absurd hat (hnumber literal)
  | cons key path =>
      rw [Json.at?_cons, hnone] at hat
      cases hat

theorem spelledIn_record {fields : List (String × Json Literal)}
    (hfields : ∀ field ∈ fields, SpelledIn text field.2) : SpelledIn text (.record fields) := by
  intro path literal hat
  cases path with
  | nil => cases hat
  | cons key path =>
      rw [Json.at?_cons] at hat
      obtain ⟨value, hvalue, hat⟩ := Option.bind_eq_some_iff.mp hat
      exact hfields (key, value) (Json.mem_of_lookup hvalue) path literal hat

/-- The numbers that a piece of a text holds at paths of keys are spelled in it. -/
def Part.IsSpelledIn (text : List Char) : Part → Prop
  | .value json => SpelledIn text json
  | .element json => SpelledIn text json
  | .elements _ => True
  | .members fields => ∀ field ∈ fields, SpelledIn text field.2

theorem Writes.isSpelledIn {part : Part} (hwrites : Writes text part) : part.IsSpelledIn text := by
  -- items of lists are at no path of keys
  induction hwrites with
  | number spells => exact spelledIn_number spells
  | record inside ih =>
      refine spelledIn_record fun field hfield => (ih field hfield).mono ?_
      exact ⟨['\x7b'], ['\x7d'], by simp⟩
  | emptyRecord blank => exact spelledIn_record nofun
  | null | true | false | text | emptyList | list =>
      exact spelledIn_of_field?_eq_none nofun fun _ => rfl
  | @element before text after json before_gap value after_gap ih =>
      exact ih.mono ⟨before, after, List.append_assoc before text after⟩
  | lastElement | moreElements => trivial
  | @lastMember name text key json key_eq last ih =>
      refine List.forall_mem_singleton.mpr (ih.mono ?_)
      exact ⟨name ++ [':'], [], by simp⟩
  | @moreMembers name text more key json fields key_eq first others ihfirst ihothers =>
      refine List.forall_mem_cons.mpr ⟨ihfirst.mono ?_, fun field hfield =>
        (ihothers field hfield).mono ?_⟩
      · exact ⟨name ++ [':'], ',' :: more, by simp⟩
      · exact ⟨name ++ ':' :: (text ++ [',']), [], by simp⟩

/-- Every number that a text writes at a path of keys is spelled in it. -/
theorem spelled_of_writes {text : String} {document : Json Literal} {path : List String}
    {literal : Literal} (hwrites : WritesDocument text document)
    (hat : document.at? path = some (.number literal)) :
    ∃ spelled, spelled <:+: text.toList ∧ Literal.Spells spelled literal :=
  Writes.isSpelledIn hwrites path literal hat

end AccountRegistry.JsonText
