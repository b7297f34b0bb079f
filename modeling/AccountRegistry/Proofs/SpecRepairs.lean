import AccountRegistry.Proofs.SpecReports
import Mathlib

/-!
# Repairs of a rejected spec

The report of a rejected document says what is to be repaired.  A location is repaired by a value
that is accepted there; class references that are a record keep their values, and lose the keys that
belong to no kind.

* `Location.Offends.of_mend`: a repair settles its location, and no location offends after it that
  did not offend before.  `Location.Offends.of_repairs` is the same for several repairs.
* `reports_exactly_what_offends`: so the report of a rejected document is complete, and it names
  nothing else.
-/

namespace AccountRegistry.Spec

variable {data new : Json Binary64} {location other : Location} {path rest : List String}

/-! ## Places in a changed document -/

theorem shape_eq_record {value : Option (Json Binary64)} :
    Shape.of value = .record ↔ ∃ fields, value = some (.record fields) := by
  cases value with
  | none => simp [Shape.of]
  | some json => cases json <;> simp [Shape.of]

/-- What is put at a path is not seen in the shape of what is not within it. -/
theorem shape_at?_putAt (data new : Json Binary64) {path within : List String}
    (hpath : ¬path <+: within) :
    Shape.of ((data.putAt path new).at? within) = Shape.of (data.at? within) := by
  by_cases hplace : data.HasPlaceAt path
  · rcases hplace.cases with rfl | ⟨outer, key, fields, rfl, hfields⟩
    · exact absurd List.nil_prefix hpath
    · by_cases houter : outer <+: within
      · rcases Json.exists_of_prefix houter hpath with rfl | ⟨next, rest, hnext, rfl⟩
        · -- the record that gets the value stays a record
          rw [Json.putAt_concat hfields, Json.at?_replaceAt_self, hfields]
          rfl
        · rw [Json.at?_putAt_beside data outer hnext]
      · rw [Json.putAt_concat hfields]
        exact shape_at?_replaceAt data _ houter
  · rw [Json.putAt_of_not_hasPlaceAt hplace]

/-- What is put at a path makes no place for what is not within it. -/
theorem hasPlaceAt_of_putAt (hpath : ¬path <+: rest)
    (hplace : (data.putAt path new).HasPlaceAt rest) : data.HasPlaceAt rest := by
  intro hrest
  have hshape : Shape.of ((data.putAt path new).at? rest.dropLast) = .record :=
    shape_eq_record.mpr (hplace hrest)
  rw [shape_at?_putAt data new fun hinside => hpath (hinside.trans (List.dropLast_prefix rest))]
    at hshape
  exact shape_eq_record.mp hshape

namespace Location

/-- What is put at a path is judged as it is by itself. -/
theorem BrokenAt.of_putAt (hplace : data.HasPlaceAt path)
    (hbroken : location.BrokenAt (data.putAt path new) (path ++ rest)) :
    location.BrokenAt new rest := by
  obtain ⟨hwithin, hkeeps⟩ := hbroken
  rw [Json.at?_putAt_append hplace] at hkeeps
  refine ⟨fun hrest => ?_, hkeeps⟩
  obtain ⟨fields, hfields⟩ := hwithin (List.append_ne_nil_of_right_ne_nil _ hrest)
  rw [List.dropLast_append_of_ne_nil hrest, Json.at?_putAt_append hplace] at hfields
  exact ⟨fields, hfields⟩

/-! ## Which locations lie within which -/

/-- Besides the document and the context there is one location that others lie within. -/
theorem within_cases {outer inner : Location} (hinside : outer.path <+: inner.path) :
    inner = outer ∨ outer = .document ∨ outer = .context ∨
      outer = .references ∧ ∃ kind, inner = .integer (.reference kind) := by
  cases outer with
  | document => exact .inr (.inl rfl)
  | context => exact .inr (.inr (.inl rfl))
  | id =>
      cases inner with
      | id => exact .inl rfl
      | integer field => cases field <;> simp [path, IntegerField.path] at hinside
      | _ => simp [path] at hinside
  | references =>
      cases inner with
      | references => exact .inl rfl
      | integer field =>
          cases field with
          | reference kind => exact .inr (.inr (.inr ⟨rfl, kind, rfl⟩))
          | _ => simp [path, IntegerField.path] at hinside
      | _ => simp [path] at hinside
  | integer field =>
      cases inner with
      | integer another =>
          by_cases hsame : field = another
          · exact .inl (by rw [hsame])
          · exact absurd hinside (IntegerField.not_path_prefix hsame)
      | _ => cases field <;> simp [path, IntegerField.path] at hinside

/-! ## Repairs -/

/-- Whether a key is that of a kind. -/
def isKnown (key : String) : Bool :=
  ClassKind.all.any fun kind => kind.specKey = key

theorem isKnown_iff {key : String} :
    isKnown key = true ↔ ∃ kind : ClassKind, kind.specKey = key := by
  simp only [isKnown, List.any_eq_true, decide_eq_true_eq]
  constructor
  · exact fun ⟨kind, _, hkey⟩ => ⟨kind, hkey⟩
  · exact fun ⟨kind, hkey⟩ => ⟨kind, kind.mem_all, hkey⟩

/-- What a location gets in place of what stands there: a new value, but a record of class
references is kept without the keys that belong to no kind. -/
def repaired : Location → Option (Json Binary64) → Json Binary64 → Json Binary64
  | .references, some (.record fields), _ =>
      .record (fields.filter fun field => isKnown field.1)
  | _, _, new => new

/-- The document with a location repaired. -/
def mend (location : Location) (new data : Json Binary64) : Json Binary64 :=
  data.putAt location.path (location.repaired (data.at? location.path) new)

/-- A value suits a location if no rule of a location within it is broken. -/
def Suits (location : Location) (new : Json Binary64) : Prop :=
  ∀ (inner : Location) (rest : List String), inner.path = location.path ++ rest →
    ¬inner.BrokenAt new rest

theorem repaired_cases (location : Location) (found : Option (Json Binary64))
    (new : Json Binary64) :
    location.repaired found new = new ∨ location = .references ∧ ∃ fields,
      found = some (.record fields) ∧ location.repaired found new =
        .record (fields.filter fun field => isKnown field.1) := by
  unfold repaired
  split
  · exact .inr ⟨rfl, _, rfl, rfl⟩
  · exact .inl rfl

/-- The kept keys break no rule. -/
theorem keeps_filter (fields : List (String × Json Binary64)) :
    Keeps .references (some (.record (fields.filter fun field => isKnown field.1))) := by
  refine ⟨by simp [Shape.of], fun key hkey => ?_⟩
  change (Json.lookup (fields.filter fun field => isKnown field.1) key).isSome at hkey
  rw [Json.lookup_filter] at hkey
  split at hkey
  · rename_i hknown
    exact isKnown_iff.mp hknown
  · cases hkey

/-- The values under the keys of kinds stay. -/
theorem lookup_filter_specKey (fields : List (String × Json Binary64)) (kind : ClassKind) :
    Json.lookup (fields.filter fun field => isKnown field.1) kind.specKey =
      Json.lookup fields kind.specKey := by
  rw [Json.lookup_filter, if_pos (isKnown_iff.mpr ⟨kind, rfl⟩)]

/-- Within a repaired location a rule is broken only further in, where it was broken before. -/
theorem BrokenAt.of_repaired (hsuits : location.Suits new)
    (hpath : other.path = location.path ++ rest)
    (hbroken : other.BrokenAt (location.repaired (data.at? location.path) new) rest) :
    other ≠ location ∧ other.Offends data := by
  rcases repaired_cases location (data.at? location.path) new with
    hnew | ⟨rfl, fields, hfields, hrepaired⟩
  · -- nothing is broken within a suitable value
    rw [hnew] at hbroken
    exact absurd hbroken (hsuits other rest hpath)
  · -- of the class references only those of kinds are left, each as it was
    obtain ⟨-, hbroken⟩ := hrepaired ▸ hbroken
    have hinside : references.path <+: other.path := ⟨rest, hpath.symm⟩
    rcases within_cases hinside with rfl | h | h | ⟨-, kind, rfl⟩
    · rw [List.self_eq_append_right] at hpath
      rw [hpath] at hbroken
      exact absurd (keeps_filter fields) hbroken
    · cases h
    · cases h
    · obtain rfl : rest = [kind.specKey] := (List.cons.inj hpath).2.symm
      rw [Json.at?_singleton, Json.field?, lookup_filter_specKey] at hbroken
      refine ⟨by rintro ⟨⟩, fun _ => ⟨fields, hfields⟩, ?_⟩
      have hat : data.at? ["class_references", kind.specKey] =
          (data.at? references.path).bind (Json.field? kind.specKey) :=
        Json.at?_concat ["class_references"] kind.specKey data
      rw [hfields] at hat
      exact hat ▸ hbroken

/-- Outside of a repaired location a rule is broken only if it was broken before. -/
theorem Offends.of_mend_outside (hpath : ¬location.path <+: other.path)
    (hoffends : other.Offends (location.mend new data)) : other.Offends data := by
  obtain ⟨hplace, hbroken⟩ := hoffends
  refine ⟨hasPlaceAt_of_putAt hpath hplace, fun hkeeps => hbroken ?_⟩
  have hshape : Shape.of ((location.mend new data).at? other.path) =
      Shape.of (data.at? other.path) := shape_at?_putAt data _ hpath
  by_cases hinside : other.path <+: location.path
  · rcases within_cases hinside with rfl | rfl | rfl | ⟨rfl, kind, rfl⟩
    · exact absurd List.prefix_rfl hpath
    · exact hshape.trans hkeeps
    · show Shape.of _ ∈ _
      rw [hshape]
      exact hkeeps
    · -- a repaired class reference adds no key but that of its kind
      refine ⟨hshape ▸ hkeeps.1, fun key hkey => ?_⟩
      by_cases hkind : key = kind.specKey
      · exact ⟨kind, hkind.symm⟩
      · have hbeside : ((mend (.integer (.reference kind)) new data).at? ["class_references"]).bind
            (Json.field? key) = (data.at? ["class_references"]).bind (Json.field? key) := by
          rw [← Json.at?_concat, ← Json.at?_concat]
          exact Json.at?_putAt_beside data ["class_references"] hkind [] _
        exact hkeeps.2 key (hbeside ▸ hkey)
  · rw [mend, Json.at?_putAt_of_apart data _ hpath hinside]
    exact hkeeps

/-- With a suitable value a repair settles its location, and no location offends after it that did
not offend before. -/
theorem Offends.of_mend (hsuits : location.Suits new)
    (hoffends : other.Offends (location.mend new data)) :
    other ≠ location ∧ other.Offends data := by
  by_cases hinside : location.path <+: other.path
  · obtain ⟨rest, hrest⟩ := hinside
    by_cases hplace : data.HasPlaceAt location.path
    · rw [Offends, ← hrest] at hoffends
      exact BrokenAt.of_repaired hsuits hrest.symm (BrokenAt.of_putAt hplace hoffends)
    · -- nothing is put, and where nothing can stand no location offends
      rw [mend, Json.putAt_of_not_hasPlaceAt hplace] at hoffends
      refine ⟨?_, hoffends⟩
      rintro rfl
      exact hplace hoffends.1
  · refine ⟨?_, hoffends.of_mend_outside hinside⟩
    rintro rfl
    exact hinside List.prefix_rfl

/-- After repairs at several locations those offend that offended before and were not repaired. -/
theorem Offends.of_repairs {good : Location → Json Binary64} {found : List Location}
    (hsuits : ∀ location ∈ found, location.Suits (good location))
    (hoffends : other.Offends
      (found.foldl (fun data location => location.mend (good location) data) data)) :
    other ∉ found ∧ other.Offends data := by
  induction found generalizing data with
  | nil => exact ⟨List.not_mem_nil, hoffends⟩
  | cons first rest ih =>
      rw [List.forall_mem_cons] at hsuits
      obtain ⟨hrest, hmended⟩ := ih hsuits.2 hoffends
      obtain ⟨hfirst, hbefore⟩ := hmended.of_mend hsuits.1
      exact ⟨List.not_mem_cons_of_ne_of_not_mem hfirst hrest, hbefore⟩

end Location

/-! ## Rejected documents -/

/-- A value is accepted at a location if it stands there in some document that is accepted. -/
def Location.Accepts (location : Location) (new : Json Binary64) : Prop :=
  ∃ model spec, validate (some model) = .ok spec ∧ model.at? location.path = some new

theorem Location.Accepts.suits (haccepts : location.Accepts new) : location.Suits new := by
  obtain ⟨model, spec, hvalid, hat⟩ := haccepts
  rintro inner rest hpath ⟨hplace, hbroken⟩
  have hwithin (rest : List String) :
      model.at? (location.path ++ rest) = new.at? rest := by
    rw [Json.at?_append, hat]
    rfl
  refine accepted_iff_not_offends.mp ⟨spec, hvalid⟩ inner ⟨?_, ?_⟩
  · rw [hpath]
    cases hrest : rest with
    | nil =>
        rw [List.append_nil]
        exact Json.hasPlaceAt_of_at? hat
    | cons key further =>
        rw [← hrest]
        have hsome : rest ≠ [] := hrest ▸ List.cons_ne_nil _ _
        intro _
        rw [List.dropLast_append_of_ne_nil hsome, hwithin]
        exact hplace hsome
  · rw [hpath, hwithin]
    exact hbroken

/-- A document is rejected exactly if some location offends in it.  The fault then names the
locations that offend and no others, in the order of the schema.  With accepted values at these
locations, and without the class references of no kind, the document is accepted. -/
theorem reports_exactly_what_offends (data : Json Binary64) :
    ((∃ spec, validate (some data) = .ok spec) ↔
      ∀ location : Location, ¬location.Offends data) ∧
    ∀ fault, validate (some data) = .error fault →
      ∃ (found : List Location) (message : String),
        fault = .registry .invalidRegistrySpec message
          (.record [("issues", .list (found.map fun location => .text location.text))]) ∧
        (∀ location, location ∈ found ↔ location.Offends data) ∧
        found.Pairwise (InOrder Location.all) ∧
        ∀ good : Location → Json Binary64,
          (∀ location ∈ found, location.Accepts (good location)) →
          ∃ spec, validate (some (found.foldl
            (fun data location => location.mend (good location) data) data)) = .ok spec := by
  refine ⟨accepted_iff_not_offends, fun fault hrejected => ?_⟩
  obtain ⟨issues, hcheck, rfl⟩ := validate_eq_error_iff.mp hrejected
  obtain ⟨found, hreports⟩ := check_reports data
  have hmem (location : Location) : location ∈ found ↔ location.Offends data := by
    rw [hreports.mem_iff, and_iff_right (Location.mem_all location)]
  refine ⟨found, JsonText.render (.list (issues.map Issue.toJson)), ?_, hmem, hreports.ordered,
    fun good hgood => ?_⟩
  · have hpaths := hreports.paths
    rw [hcheck] at hpaths
    exact issuesFault_of_paths hpaths
  · rw [accepted_iff_not_offends]
    intro location hoffends
    obtain ⟨hother, hbefore⟩ := hoffends.of_repairs fun location hfound =>
      (hgood location hfound).suits
    exact hother ((hmem location).mpr hbefore)

/-- What is missing, malformed, out of range or unknown is reported in the order of the schema, and
with the values of another document at these places the document is accepted. -/
theorem reports_exactly_what_offends_in_several_places :
    let data : Json Binary64 := .record [
      ("class_references", .record [("wallet", .text "5"), ("proxy", .text "0")]),
      ("chain_context", .record [("coinbase", .text "5")]), ("owner", .text "two"),
      ("deployer", .text "1"), ("chain_id", .text "1"), ("id", .text "")]
    let model : Json Binary64 := .record [("id", .text "net"), ("chain_id", .text "1"),
      ("deployer", .text "1"), ("owner", .text "2"),
      ("class_references", .record [("proxy", .text "9")]),
      ("chain_context", .record [("coinbase", .text "0"), ("base_fee", .text "7")])]
    let found : List Location :=
      [.id, .integer .owner, .integer (.reference .proxy), .references, .integer .baseFee]
    found.map Location.text =
        ["id", "owner", "class_references.proxy", "class_references", "chain_context.base_fee"] ∧
      (∃ message, validate (some data) = .error (.registry .invalidRegistrySpec message
        (.record [("issues", .list (found.map fun location => .text location.text))]))) ∧
      ∃ spec, validate (some (found.foldl (fun data location =>
        location.mend ((model.at? location.path).getD .null) data) data)) = .ok spec := by
  intro data model found
  have hpaths : (check (some data)).issues.map Issue.path = found.map Location.path := by cbv
  have hmodel : validate (some model) =
      .ok ⟨"net", 1, 1, 2, none, [("proxy", 9)], some ⟨0, 7⟩⟩ := by cbv
  have hrejected : ∃ message, validate (some data) = .error (.registry .invalidRegistrySpec message
      (.record [("issues", .list (found.map fun location => .text location.text))])) := by
    cases hcheck : check (some data) with
    | valid spec =>
        rw [hcheck] at hpaths
        cases hpaths
    | invalid issues =>
        rw [hcheck] at hpaths
        exact ⟨_, validate_eq_error_iff.mpr ⟨issues, hcheck, issuesFault_of_paths hpaths⟩⟩
  refine ⟨by decide +kernel, hrejected, ?_⟩
  obtain ⟨message, hrejected⟩ := hrejected
  obtain ⟨-, hreports⟩ := reports_exactly_what_offends data
  obtain ⟨reported, _, hfault, -, -, hrepairs⟩ := hreports _ hrejected
  have htexts : (found.map fun location => Value.text location.text) =
      reported.map fun location => Value.text location.text := by
    simp only [Fault.registry.injEq, Value.record.injEq, List.cons.injEq, Prod.mk.injEq,
      Value.list.injEq, and_true, true_and] at hfault
    exact hfault.2
  have hinjective : Function.Injective fun location : Location => Value.text location.text :=
    fun _ _ htext => Location.text_injective (Value.text.inj htext)
  have hsame : found = reported := List.map_injective_iff.mpr hinjective htexts
  rw [hsame]
  refine hrepairs _ fun location hfound => ⟨model, _, hmodel, ?_⟩
  rw [← hsame] at hfound
  simp only [found, List.mem_cons, List.not_mem_nil, or_false] at hfound
  rcases hfound with rfl | rfl | rfl | rfl | rfl <;> rfl

end AccountRegistry.Spec
