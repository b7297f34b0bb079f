import AccountRegistry.Proofs.JsonGrammar
import AccountRegistry.Proofs.Literals
import AccountRegistry.Proofs.SpecDocuments
import Mathlib

/-!
# Numbers in the text of a spec

What a text writes in a field is said by the grammar of JSON texts, not by the reader.  A number
that is written in an integer field is rounded before it is read.  An integer that is written there
is the integer of the field, or the text is refused (`Spec.integer_literals_are_exact`).  A fraction
may be rounded to an integer, and then the text is accepted with an integer that it does not write;
the two are no farther apart than rounding takes them (`Spec.number_literals_are_rounded`).
-/

namespace AccountRegistry.Spec

/-! ## A document with another value in one field -/

variable {data json other : Json Binary64} {field : IntegerField}

/-- No field lies at one of the paths that hold something else. -/
theorem IntegerField.not_path_prefix_of_mem (field : IntegerField) (within : List String)
    (hwithin : within ∈ [[], ["id"], ["class_references"], ["chain_context"]]) :
    ¬field.path <+: within := by
  simp only [List.mem_cons, List.not_mem_nil, or_false] at hwithin
  rcases hwithin with rfl | rfl | rfl | rfl <;> cases field <;> simp [path]

theorem IntegerField.not_id_prefix_path (field : IntegerField) : ¬["id"] <+: field.path := by
  cases field <;> simp [path]

/-- A field at a key of the class references is that of a kind. -/
theorem IntegerField.kind_of_path_prefix {key : String}
    (hpath : field.path <+: ["class_references", key]) :
    ∃ kind : ClassKind, kind.specKey = key := by
  cases field with
  | reference kind => exact ⟨kind, by simpa [path] using hpath⟩
  | _ => simp [path] at hpath

/-- A document has the format if it has it with another value in one field, and what it writes in
that field is admitted there. -/
theorem Documented.of_replaceAt (hreplaced : Documented (data.replaceAt field.path other))
    (hat : data.at? field.path = some json) (hwrites : ∃ n, field.Writes json n) :
    Documented data := by
  -- the replacement is seen in the field alone, and no record on the way becomes anything else
  have hshape {within : List String} (hpath : ¬field.path <+: within) :
      Shape.of ((data.replaceAt field.path other).at? within) = Shape.of (data.at? within) :=
    shape_at?_replaceAt data other hpath
  have hothers {another : IntegerField} (hne : another ≠ field) :
      (data.replaceAt field.path other).at? another.path = data.at? another.path :=
    Json.at?_replaceAt_of_apart data other (IntegerField.not_path_prefix hne.symm)
      (IntegerField.not_path_prefix hne)
  have hrecord := hshape (field.not_path_prefix_of_mem [] (by simp))
  have hreferences := hshape (field.not_path_prefix_of_mem ["class_references"] (by simp))
  have hcontext := hshape (field.not_path_prefix_of_mem ["chain_context"] (by simp))
  have hid : (data.replaceAt field.path other).at? ["id"] = data.at? ["id"] :=
    Json.at?_replaceAt_of_apart data other (field.not_path_prefix_of_mem _ (by simp))
      field.not_id_prefix_path
  rw [Json.at?_nil, Json.at?_nil] at hrecord
  refine ⟨⟨hrecord ▸ hreplaced.record, hreferences ▸ hreplaced.references, fun key hkey => ?_,
    hcontext ▸ hreplaced.context⟩, hid ▸ hreplaced.id, fun another hneeded => ?_,
    fun another value hvalue => ?_⟩
  · by_cases hpath : field.path <+: ["class_references", key]
    · exact IntegerField.kind_of_path_prefix hpath
    · exact hreplaced.known key ((isSome_eq_of_shape (hshape hpath)).trans hkey)
  · by_cases hsame : another = field
    · rw [hsame, hat]
      rfl
    · rw [← hothers hsame]
      refine hreplaced.present another ?_
      cases another with
      | coinbase => exact (isSome_eq_of_shape hcontext).trans hneeded
      | baseFee => exact (isSome_eq_of_shape hcontext).trans hneeded
      | _ => exact hneeded
  · by_cases hsame : another = field
    · subst hsame
      cases hat.symm.trans hvalue
      exact hwrites
    · exact hreplaced.integers another value ((hothers hsame).trans hvalue)

/-! ## A number in one field -/

variable {text : String} {document : Json Literal} {literal : Literal} {spec : Spec}

/-- A text is read as the document that it writes, its numbers rounded. -/
theorem parse_of_writes (hwrites : JsonText.WritesDocument text document) :
    parse text = validate (some (document.map Literal.nearest)) := by
  rw [parse, JsonText.read, JsonText.parse_eq_ok_iff.mpr hwrites]
  rfl

/-- Some other value in a field makes a document the one of a spec. -/
def OtherwiseValid (document : Json Literal) (field : IntegerField) : Prop :=
  ∃ other spec,
    validate (some ((document.map Literal.nearest).replaceAt field.path other)) = .ok spec

theorem at?_nearest (hat : document.at? field.path = some (.number literal)) :
    (document.map Literal.nearest).at? field.path = some (.number literal.nearest) := by
  rw [Json.at?_map, hat]
  rfl

/-- What is accepted as a number is the integer that the nearest number is. -/
theorem nearest_of_writes (hwrites : JsonText.WritesDocument text document)
    (hat : document.at? field.path = some (.number literal)) (hok : parse text = .ok spec) :
    ∃ n : ℤ, field.of spec = some n ∧ literal.nearest.value = some (n : ℚ) ∧
      0 ≤ n ∧ n ≤ 2 ^ 53 - 1 ∧ field.Admits n := by
  rw [parse_of_writes hwrites, validate_eq_ok_iff] at hok
  have hfield := hok.integers field
  rw [at?_nearest hat, some_rel_iff] at hfield
  obtain ⟨n, hn, hnumber, hadmits⟩ := hfield
  cases hnumber with
  | number whole lower upper => exact ⟨n, hn, whole, lower, upper, hadmits⟩

/-- A text is accepted if its number in one field is nearest to an integer that the field admits,
and nothing else is wrong with it. -/
theorem accepted_of_nearest (hwrites : JsonText.WritesDocument text document)
    (hat : document.at? field.path = some (.number literal))
    (hotherwise : OtherwiseValid document field) {n : ℤ}
    (hnearest : literal.nearest.value = some (n : ℚ)) (hlower : 0 ≤ n) (hupper : n ≤ 2 ^ 53 - 1)
    (hadmits : field.Admits n) : ∃ spec, parse text = .ok spec := by
  obtain ⟨other, replaced, hreplaced⟩ := hotherwise
  rw [validate_eq_ok_iff] at hreplaced
  have hdocumented := hreplaced.documented.of_replaceAt (at?_nearest hat)
    ⟨n, .number hnearest hlower hupper, hadmits⟩
  obtain ⟨spec, hdescribes⟩ := hdocumented.exists_describes
  exact ⟨spec, (parse_of_writes hwrites).trans (validate_eq_ok_iff.mpr hdescribes)⟩

/-- A document that writes a number as the chain id of a spec. -/
def chainIdDocument (literal : Literal) : Json Literal :=
  .record [("id", .text "net"), ("chain_id", .number literal), ("deployer", .text "1"),
    ("owner", .text "2")]

theorem at?_chainIdDocument (literal : Literal) :
    (chainIdDocument literal).at? IntegerField.chainId.path = some (.number literal) :=
  rfl

theorem otherwiseValid_chainIdDocument (literal : Literal) :
    OtherwiseValid (chainIdDocument literal) .chainId :=
  ⟨.text "0", ⟨"net", 0, 1, 2, none, [], none⟩, rfl⟩

/-- An integer literal that a text writes in a field is spelled in the text.  If the text is
accepted, then with that integer in the field; and if nothing else is wrong with the text and the
field admits the integer, the text is accepted exactly if the integer is from zero to
`2 ^ 53 - 1`. -/
theorem integer_literals_are_exact (hwrites : JsonText.WritesDocument text document)
    (hat : document.at? field.path = some (.number literal)) (hinteger : literal.IsInteger) :
    (∃ spelled, spelled <:+: text.toList ∧ Literal.SpellsInteger spelled literal.integer) ∧
    (∀ spec, parse text = .ok spec → field.of spec = some literal.integer) ∧
    (OtherwiseValid document field → field.Admits literal.integer →
      ((∃ spec, parse text = .ok spec) ↔
        0 ≤ literal.integer ∧ literal.integer ≤ 2 ^ 53 - 1)) := by
  have hvalue : literal.value = literal.integer := Literal.value_of_isInteger hinteger
  have hread {spec : Spec} (hok : parse text = .ok spec) :
      field.of spec = some literal.integer ∧ 0 ≤ literal.integer ∧
        literal.integer ≤ 2 ^ 53 - 1 := by
    obtain ⟨n, hn, hnearest, hlower, hupper, -⟩ := nearest_of_writes hwrites hat hok
    have hexact : n = literal.integer :=
      (Literal.reads_of_nearest hnearest hlower hupper).exact _ hvalue
    subst hexact
    exact ⟨hn, hlower, hupper⟩
  refine ⟨?_, fun spec hok => (hread hok).1, fun hotherwise hadmits => ⟨?_, ?_⟩⟩
  · obtain ⟨spelled, hwithin, hspells⟩ := JsonText.spelled_of_writes hwrites hat
    exact ⟨spelled, hwithin, hspells.integer hinteger⟩
  · rintro ⟨spec, hok⟩
    exact (hread hok).2
  · rintro ⟨hlower, hupper⟩
    exact accepted_of_nearest hwrites hat hotherwise
      (Literal.nearest_of_integer hvalue hlower hupper) hlower hupper hadmits

/-- Of the integers about the end of the safe range one is accepted and one is refused. -/
theorem integer_literals_about_the_largest :
    (∃ spec, parse
        "\x7b\"id\":\"net\",\"chain_id\":9007199254740991,\"deployer\":\"1\",\"owner\":\"2\"\x7d"
        = .ok spec ∧ spec.chainId = 9007199254740991) ∧
      ¬∃ spec, parse
        "\x7b\"id\":\"net\",\"chain_id\":9007199254740993,\"deployer\":\"1\",\"owner\":\"2\"\x7d"
        = .ok spec := by
  have hlargest : JsonText.WritesDocument
      "\x7b\"id\":\"net\",\"chain_id\":9007199254740991,\"deployer\":\"1\",\"owner\":\"2\"\x7d"
      (chainIdDocument ⟨false, 9007199254740991, none, none⟩) := by
    refine JsonText.parse_eq_ok_iff.mp ?_
    cbv
  have hunsafe : JsonText.WritesDocument
      "\x7b\"id\":\"net\",\"chain_id\":9007199254740993,\"deployer\":\"1\",\"owner\":\"2\"\x7d"
      (chainIdDocument ⟨false, 9007199254740993, none, none⟩) := by
    refine JsonText.parse_eq_ok_iff.mp ?_
    cbv
  constructor
  · obtain ⟨-, hexact, haccepted⟩ := integer_literals_are_exact hlargest
      (at?_chainIdDocument _) ⟨rfl, rfl⟩
    have hrange : (9007199254740991 : ℤ) < 2 ^ 64 := by decide
    obtain ⟨spec, hok⟩ := (haccepted (otherwiseValid_chainIdDocument _) hrange).mpr (by decide)
    exact ⟨spec, hok, Option.some.inj (hexact spec hok)⟩
  · obtain ⟨-, -, haccepted⟩ := integer_literals_are_exact hunsafe
      (at?_chainIdDocument _) ⟨rfl, rfl⟩
    have hrange : (9007199254740993 : ℤ) < 2 ^ 64 := by decide
    rw [haccepted (otherwiseValid_chainIdDocument _) hrange]
    decide

/-- A fraction just below one. -/
def almostOne : Literal :=
  ⟨false, 0, some (99999999999999999, 17), none⟩

/-- A text that writes it as the chain id. -/
def almostOneText : String :=
  "\x7b\"id\":\"net\",\"chain_id\":0.99999999999999999,\"deployer\":\"1\",\"owner\":\"2\"\x7d"

theorem writes_almostOneText :
    JsonText.WritesDocument almostOneText (chainIdDocument almostOne) := by
  refine JsonText.parse_eq_ok_iff.mp ?_
  cbv

/-- The text is accepted, and its chain id is one. -/
theorem parse_almostOneText_eq_ok :
    parse almostOneText = .ok ⟨"net", 1, 1, 2, none, [], none⟩ := by
  have hnearest : almostOne.nearest = .finite false 4503599627370496 (-52) := by decide +kernel
  rw [parse_of_writes writes_almostOneText]
  simp only [chainIdDocument, Json.map, Json.mapFields, hnearest]
  rfl

/-- A number literal that a text writes in a field is spelled in the text.  If the text is accepted,
then with the integer in the field that the nearest number is: the literal is no farther from it
than rounding takes it, and is that integer if it is one.  If nothing else is wrong with the text,
it is accepted exactly if the nearest number is an integer from zero to `2 ^ 53 - 1` that the field
admits. -/
theorem number_literals_are_rounded (hwrites : JsonText.WritesDocument text document)
    (hat : document.at? field.path = some (.number literal)) :
    (∃ spelled, spelled <:+: text.toList ∧ Literal.Spells spelled literal) ∧
    (∀ spec, parse text = .ok spec → ∃ n : ℤ, field.of spec = some n ∧
      literal.nearest.value = some (n : ℚ) ∧ 0 ≤ n ∧ n ≤ 2 ^ 53 - 1 ∧
      Literal.Reads literal.value n) ∧
    (OtherwiseValid document field →
      ((∃ spec, parse text = .ok spec) ↔ ∃ n : ℤ, literal.nearest.value = some (n : ℚ) ∧
        0 ≤ n ∧ n ≤ 2 ^ 53 - 1 ∧ field.Admits n)) := by
  refine ⟨JsonText.spelled_of_writes hwrites hat, fun spec hok => ?_, fun hotherwise => ⟨?_, ?_⟩⟩
  · obtain ⟨n, hn, hnearest, hlower, hupper, -⟩ := nearest_of_writes hwrites hat hok
    exact ⟨n, hn, hnearest, hlower, hupper, Literal.reads_of_nearest hnearest hlower hupper⟩
  · rintro ⟨spec, hok⟩
    obtain ⟨n, -, hnearest⟩ := nearest_of_writes hwrites hat hok
    exact ⟨n, hnearest⟩
  · rintro ⟨n, hnearest, hlower, hupper, hadmits⟩
    exact accepted_of_nearest hwrites hat hotherwise hnearest hlower hupper hadmits

/-- The fraction just below one is not farther from it than rounding takes one. -/
theorem almostOne_reads_one : Literal.Reads almostOne.value 1 := by
  obtain ⟨-, hread, -⟩ := number_literals_are_rounded writes_almostOneText (at?_chainIdDocument _)
  obtain ⟨n, hn, -, -, -, hreads⟩ := hread _ parse_almostOneText_eq_ok
  rw [← Option.some.inj hn] at hreads
  exact hreads

/-- A number that is no integer is accepted. -/
theorem fraction_is_accepted_as_one :
    JsonText.WritesDocument almostOneText (chainIdDocument almostOne) ∧
      (chainIdDocument almostOne).at? IntegerField.chainId.path = some (.number almostOne) ∧
      (¬∃ k : ℤ, almostOne.value = k) ∧
      parse almostOneText = .ok ⟨"net", 1, 1, 2, none, [], none⟩ := by
  refine ⟨writes_almostOneText, at?_chainIdDocument _, ?_, parse_almostOneText_eq_ok⟩
  rintro ⟨k, hk⟩
  have hvalue : almostOne.value = 99999999999999999 / 10 ^ 17 := by
    norm_num [almostOne, Literal.value, Binary64.sign, Literal.significand, Literal.scale]
  rw [hvalue, div_eq_iff (by norm_num)] at hk
  have hwhole : (99999999999999999 : ℤ) = k * 10 ^ 17 := by exact_mod_cast hk
  omega

end AccountRegistry.Spec
