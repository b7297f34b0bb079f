import AccountRegistry.Proofs.SpecFormat

/-!
# The documents that are specs

Every document of the format describes a spec (`Spec.documented_iff`), and so the documents that are
accepted are those of the format (`Spec.validates_exactly_the_format`).  The format speaks of the
values at paths alone: neither the order of keys nor a key that it does not name counts for the
result (`Spec.SameContent`).
-/

namespace AccountRegistry.Spec

variable {data other : Json Binary64} {spec : Spec}

/-! ## From a document to its spec -/

/-- A context is made of two integers that are there exactly if it is. -/
theorem exists_context {present : Bool} {coinbase baseFee : Option ℤ}
    (hcoinbase : coinbase.isSome = present) (hbaseFee : baseFee.isSome = present) :
    ∃ context : Option ContextSpec, context.isSome = present ∧
      context.map ContextSpec.coinbase = coinbase ∧
      context.map ContextSpec.baseFee = baseFee := by
  cases coinbase with
  | none =>
      cases baseFee with
      | none => exact ⟨none, hcoinbase, rfl, rfl⟩
      | some fee => cases hcoinbase.trans hbaseFee.symm
  | some n =>
      cases baseFee with
      | none => cases hcoinbase.trans hbaseFee.symm
      | some fee => exact ⟨some ⟨n, fee⟩, hcoinbase, rfl, rfl⟩

/-- Some spec has given integers in its fields, if those are there that no spec goes without. -/
theorem exists_of_eq (id : String) {value : IntegerField → Option ℤ} {present : Bool}
    (hchainId : (value .chainId).isSome) (hdeployer : (value .deployer).isSome)
    (howner : (value .owner).isSome) (hcoinbase : (value .coinbase).isSome = present)
    (hbaseFee : (value .baseFee).isSome = present) :
    ∃ spec : Spec, spec.id = id ∧ (∀ field : IntegerField, field.of spec = value field) ∧
      spec.classReferences = entries spec.reference? ClassKind.all ∧
      spec.chainContext.isSome = present := by
  obtain ⟨chainId, hchainId⟩ := Option.isSome_iff_exists.mp hchainId
  obtain ⟨deployer, hdeployer⟩ := Option.isSome_iff_exists.mp hdeployer
  obtain ⟨owner, howner⟩ := Option.isSome_iff_exists.mp howner
  obtain ⟨context, hcontext, hcoinbase, hbaseFee⟩ := exists_context hcoinbase hbaseFee
  have hreference := lookup_entries_all fun kind => value (.reference kind)
  refine ⟨⟨id, chainId, deployer, owner, value .nativeToken,
    entries (fun kind => value (.reference kind)) ClassKind.all, context⟩, rfl, fun field => ?_,
    congrArg (fun value => entries value ClassKind.all) (funext hreference).symm, hcontext⟩
  cases field with
  | chainId => exact hchainId.symm
  | deployer => exact hdeployer.symm
  | owner => exact howner.symm
  | nativeToken => rfl
  | reference kind => exact hreference kind
  | coinbase => exact hcoinbase
  | baseFee => exact hbaseFee

theorem at?_below_none {key : String} (habsent : data.at? [key] = none) (next : String) :
    data.at? [key, next] = none := by
  rw [Json.at?_pair, ← Json.at?_singleton, habsent]
  rfl

/-- What a document of the format writes in its fields. -/
theorem Documented.exists_values (hdocumented : Documented data) :
    ∃ value : IntegerField → Option ℤ,
      ∀ field, Option.Rel field.Writes (data.at? field.path) (value field) := by
  have hread (field : IntegerField) :
      ∃ value : Option ℤ, Option.Rel field.Writes (data.at? field.path) value := by
    cases hat : data.at? field.path with
    | none => exact ⟨none, .none⟩
    | some json =>
        obtain ⟨n, hwrites⟩ := hdocumented.integers field json hat
        exact ⟨some n, .some hwrites⟩
  choose value hvalue using hread
  exact ⟨value, hvalue⟩

/-- A document of the format describes some spec. -/
theorem Documented.exists_describes (hdocumented : Documented data) :
    ∃ spec, Describes data spec := by
  obtain ⟨value, hvalue⟩ := hdocumented.exists_values
  obtain ⟨hlayout, ⟨id, hid, hnamed⟩, hpresent, -⟩ := hdocumented
  have hrequired (field : IntegerField) (hneeded : field.RequiredIn data) :
      (value field).isSome := by
    have hfield := hvalue field
    obtain ⟨json, hat⟩ := Option.isSome_iff_exists.mp (hpresent field hneeded)
    rw [hat, some_rel_iff] at hfield
    obtain ⟨n, hn, -⟩ := hfield
    rw [hn]
    rfl
  -- the fields of the context are there exactly if it is
  have hbelow (field : IntegerField) (key : String) (hpath : field.path = ["chain_context", key])
      (hneeded : (data.at? ["chain_context"]).isSome → field.RequiredIn data) :
      (value field).isSome = (data.at? ["chain_context"]).isSome := by
    cases hat : data.at? ["chain_context"] with
    | none =>
        have hfield := hvalue field
        rw [hpath, at?_below_none hat, none_rel_iff] at hfield
        rw [hfield]
        rfl
    | some json => exact hrequired field (hneeded (by rw [hat]; rfl))
  obtain ⟨spec, rfl, hof, hlisted, hcontext⟩ := exists_of_eq id (hrequired .chainId trivial)
    (hrequired .deployer trivial) (hrequired .owner trivial)
    (hbelow .coinbase _ rfl fun h => h) (hbelow .baseFee _ rfl fun h => h)
  refine ⟨spec, hlayout, hid, hnamed, fun field => ?_, hlisted, hcontext⟩
  rw [hof]
  exact hvalue field

/-- A document that describes a spec has the format. -/
theorem Describes.documented (hdescribes : Describes data spec) : Documented data := by
  obtain ⟨hlayout, hid, hnamed, hintegers, -, hsome⟩ := hdescribes
  refine ⟨hlayout, ⟨spec.id, hid, hnamed⟩, fun field hneeded => ?_, fun field json hat => ?_⟩
  · have hvalue : (field.of spec).isSome := by
      cases field with
      | chainId => rfl
      | deployer => rfl
      | owner => rfl
      | nativeToken => exact hneeded.elim
      | reference kind => exact hneeded.elim
      | coinbase => rw [IntegerField.of, Option.isSome_map, hsome]; exact hneeded
      | baseFee => rw [IntegerField.of, Option.isSome_map, hsome]; exact hneeded
    obtain ⟨n, hn⟩ := Option.isSome_iff_exists.mp hvalue
    have hfield := hintegers field
    rw [hn, rel_some_iff] at hfield
    obtain ⟨json, hat, -⟩ := hfield
    rw [hat]
    rfl
  · have hfield := hintegers field
    rw [hat, some_rel_iff] at hfield
    obtain ⟨n, -, hwrites⟩ := hfield
    exact ⟨n, hwrites⟩

theorem documented_iff : Documented data ↔ ∃ spec, Describes data spec := by
  constructor
  · exact Documented.exists_describes
  · rintro ⟨spec, hdescribes⟩
    exact hdescribes.documented

/-! ## What counts in a document -/

/-- Two documents that agree on what the format names: the values of the fields, the kinds of the
records, and which keys stand in the class references.  They may differ in the order of their keys
and in keys that the format does not name. -/
structure SameContent (data other : Json Binary64) : Prop where
  record : Shape.of (some data) = Shape.of (some other)
  id : data.at? ["id"] = other.at? ["id"]
  integers : ∀ field : IntegerField, data.at? field.path = other.at? field.path
  references : Shape.of (data.at? ["class_references"]) = Shape.of (other.at? ["class_references"])
  known : ∀ key, (data.at? ["class_references", key]).isSome =
    (other.at? ["class_references", key]).isSome
  context : Shape.of (data.at? ["chain_context"]) = Shape.of (other.at? ["chain_context"])

theorem SameContent.symm (hsame : SameContent data other) : SameContent other data :=
  ⟨hsame.record.symm, hsame.id.symm, fun field => (hsame.integers field).symm,
    hsame.references.symm, fun key => (hsame.known key).symm, hsame.context.symm⟩

/-- Of a record only the values under the keys of the format count. -/
theorem sameContent_of_lookup {fields others : List (String × Json Binary64)}
    (hlookup : ∀ key ∈ names, Json.lookup fields key = Json.lookup others key) :
    SameContent (.record fields) (.record others) := by
  have hat (key : String) (hkey : key ∈ names) (path : List String) :
      (Json.record fields).at? (key :: path) = (Json.record others).at? (key :: path) := by
    rw [Json.at?_cons, Json.at?_cons, Json.field?, Json.field?, hlookup key hkey]
  refine ⟨rfl, hat _ (by decide) _, fun field => ?_, congrArg _ (hat _ (by decide) _),
    fun key => congrArg _ (hat _ (by decide) _), congrArg _ (hat _ (by decide) _)⟩
  cases field <;> exact hat _ (by decide) _

theorem isSome_eq_of_shape {first second : Option (Json Binary64)}
    (hshape : Shape.of first = Shape.of second) : first.isSome = second.isSome := by
  have habsent (found : Option (Json Binary64)) :
      found.isSome = (Shape.of found != .absent) := by
    cases found with
    | none => rfl
    | some json => cases json <;> rfl
  rw [habsent, habsent, hshape]

/-- The paths of two fields are apart. -/
theorem IntegerField.not_path_prefix {field other : IntegerField} (hne : field ≠ other) :
    ¬field.path <+: other.path := by
  cases field <;> cases other <;> simp [path] at hne ⊢
  rename_i kind kind'
  exact fun hkey => hne (specKey_injective hkey)

/-- A replacement is not seen in the shape of what is not within it. -/
theorem shape_at?_replaceAt (data new : Json Binary64) {path within : List String}
    (hpath : ¬path <+: within) :
    Shape.of ((data.replaceAt path new).at? within) = Shape.of (data.at? within) := by
  by_cases hwithin : within <+: path
  · obtain ⟨rest, rfl⟩ := hwithin
    rw [Json.at?_replaceAt_append]
    cases rest with
    | nil =>
        rw [List.append_nil] at hpath
        exact absurd List.prefix_rfl hpath
    | cons key rest =>
        cases data.at? within with
        | none => rfl
        | some value => cases value <;> rfl
  · rw [Json.at?_replaceAt_of_apart data new hpath hwithin]

theorem Layout.congr (hsame : SameContent data other) (hlayout : Layout data) : Layout other :=
  ⟨hsame.record ▸ hlayout.record, hsame.references ▸ hlayout.references,
    fun key hkey => hlayout.known key ((hsame.known key).trans hkey),
    hsame.context ▸ hlayout.context⟩

theorem Describes.congr (hsame : SameContent data other) (hdescribes : Describes data spec) :
    Describes other spec :=
  ⟨hdescribes.toLayout.congr hsame, hsame.id ▸ hdescribes.id, hdescribes.named,
    fun field => hsame.integers field ▸ hdescribes.integers field, hdescribes.listed,
    hdescribes.contextual.trans (isSome_eq_of_shape hsame.context)⟩

/-- Without class references in the document there are none in the spec. -/
theorem Describes.classReferences_eq_nil (hdescribes : Describes data spec)
    (habsent : data.at? ["class_references"] = none) : spec.classReferences = [] := by
  have hreference : spec.reference? = fun _ => none := by
    funext kind
    have hfield := hdescribes.integers (.reference kind)
    rw [IntegerField.path, at?_below_none habsent, none_rel_iff] at hfield
    exact hfield
  rw [hdescribes.listed, hreference]
  rfl

/-- The documents of the format are accepted and no others.  The spec of a document is the one
that it describes, without class references if none are there, and documents of the same content
have the same spec. -/
theorem validates_exactly_the_format (data : Json Binary64) :
    ((∃ spec, validate (some data) = .ok spec) ↔ Documented data) ∧
    (∀ spec, validate (some data) = .ok spec ↔ Describes data spec) ∧
    (∀ spec, validate (some data) = .ok spec → data.at? ["class_references"] = none →
      spec.classReferences = []) ∧
    ∀ other, SameContent data other →
      ∀ spec, validate (some data) = .ok spec ↔ validate (some other) = .ok spec := by
  refine ⟨?_, fun spec => validate_eq_ok_iff, fun spec hvalid habsent => ?_,
    fun other hsame spec => ?_⟩
  · simp only [validate_eq_ok_iff, documented_iff]
  · exact (validate_eq_ok_iff.mp hvalid).classReferences_eq_nil habsent
  · rw [validate_eq_ok_iff, validate_eq_ok_iff]
    exact ⟨Describes.congr hsame, Describes.congr hsame.symm⟩

/-- Other keys, and the same keys in another order, leave the spec as it is. -/
theorem validates_reordered_documents :
    let named : Json Binary64 := .record [("id", .text "net"), ("chain_id", .text "0x1"),
      ("deployer", .text "2"), ("owner", .text "003")]
    let reordered : Json Binary64 := .record [("owner", .text "003"), ("note", .null),
      ("deployer", .text "2"), ("chain_id", .text "0x1"), ("id", .text "net")]
    SameContent named reordered ∧
      validate (some reordered) = .ok ⟨"net", 1, 2, 3, none, [], none⟩ := by
  intro named reordered
  have hsame : SameContent named reordered := by
    apply sameContent_of_lookup
    simp [names, Json.lookup]
  exact ⟨hsame, ((validates_exactly_the_format named).2.2.2 reordered hsame _).mp rfl⟩

end AccountRegistry.Spec
