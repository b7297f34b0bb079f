import AccountRegistry.Proofs.SpecDocuments

/-!
# The report of a spec

A spec is checked at certain places of its document, its locations.  `Location.Keeps` is the rule of
a location for the value that stands there, apart from the rules of the locations further in, and a
location offends if a value could stand there and what stands there breaks the rule.

* `Reports`: the issues of a checked value are about those of some locations that offend, in the
  order of the locations, and without them the value is valid.  What is checked next reports next.
* `check_reports`: a document is checked for the locations that offend in it, and for no others.
-/

namespace AccountRegistry.Spec

/-! ## Locations -/

/-- Whether a spec may go without a field. -/
def IntegerField.Optional : IntegerField → Prop
  | .chainId => False
  | .deployer => False
  | .owner => False
  | .nativeToken => True
  | .reference _ => True
  | .coinbase => False
  | .baseFee => False

/-- The places of a document that are checked. -/
inductive Location where
  | document
  | id
  | integer (field : IntegerField)
  | references
  | context
  deriving DecidableEq

namespace Location

/-- The keys that lead to a location. -/
def path : Location → List String
  | .document => []
  | .id => ["id"]
  | .integer field => field.path
  | .references => ["class_references"]
  | .context => ["chain_context"]

/-- The path as reports write it. -/
def text (location : Location) : String :=
  String.intercalate "." location.path

/-- Every location, in the order of the schema.  A record stands before its fields, but the class
references, whose keys are looked at last. -/
def all : List Location :=
  [.document, .id, .integer .chainId, .integer .deployer, .integer .owner, .integer .nativeToken] ++
    ClassKind.all.map (fun kind => .integer (.reference kind)) ++
    [.references, .context, .integer .coinbase, .integer .baseFee]

/-- The rule of a location for the value that stands there, or for a missing one.  A record answers
for its shape and its keys, and not for the values of its fields. -/
def Keeps : Location → Option (Json Binary64) → Prop
  | .document, value => Shape.of value = .record
  | .id, value => ∃ id, value = some (.text id) ∧ id ≠ ""
  | .integer field, value =>
      (field.Optional ∧ value = none) ∨ ∃ json n, value = some json ∧ field.Writes json n
  | .references, value => Shape.of value ∈ [.absent, .record] ∧
      ∀ key, (value.bind (Json.field? key)).isSome → ∃ kind : ClassKind, kind.specKey = key
  | .context, value => Shape.of value ∈ [.absent, .record]

/-- The rule of a location is broken at a path where a value can stand. -/
def BrokenAt (location : Location) (json : Json Binary64) (path : List String) : Prop :=
  json.HasPlaceAt path ∧ ¬location.Keeps (json.at? path)

/-- The rule of a location is broken in a document. -/
def Offends (location : Location) (data : Json Binary64) : Prop :=
  location.BrokenAt data location.path

theorem mem_all (location : Location) : location ∈ all := by
  cases location with
  | integer field =>
      cases field with
      | reference kind => cases kind <;> decide
      | _ => decide
  | _ => decide

/-- No location is listed twice, and no two are reported alike. -/
theorem nodup_text : (all.map text).Nodup := by
  decide +kernel

theorem text_injective : Function.Injective text := by
  intro first second htext
  exact List.inj_on_of_nodup_map nodup_text first.mem_all second.mem_all htext

variable {location : Location} {data : Json Binary64} {fields : List (String × Json Binary64)}
  {key outer : String}

/-- A location among the fields of a document. -/
theorem offends_iff_of_path (hpath : location.path = [key]) :
    location.Offends (.record fields) ↔ ¬location.Keeps (Json.lookup fields key) := by
  have hplace : (Json.record fields).HasPlaceAt [key] := fun _ => ⟨fields, rfl⟩
  rw [Offends, BrokenAt, hpath, and_iff_right hplace, Json.at?_singleton]
  rfl

/-- A location within a field that is a record. -/
theorem offends_iff_of_inner {inner : List (String × Json Binary64)}
    (hpath : location.path = [outer, key])
    (hrecord : Json.lookup fields outer = some (.record inner)) :
    location.Offends (.record fields) ↔ ¬location.Keeps (Json.lookup inner key) := by
  have hplace : (Json.record fields).HasPlaceAt [outer, key] := by
    refine fun _ => ⟨inner, ?_⟩
    rw [← hrecord]
    exact Json.at?_singleton outer _
  rw [Offends, BrokenAt, hpath, and_iff_right hplace, Json.at?_pair, Json.field?, hrecord]
  rfl

/-- Nothing is missing within a field that is no record. -/
theorem not_offends_of_inner (hpath : location.path = [outer, key])
    (hrecord : ∀ inner, Json.lookup fields outer ≠ some (.record inner)) :
    ¬location.Offends (.record fields) := by
  rintro ⟨hplace, -⟩
  obtain ⟨inner, hinner⟩ := hplace (by rw [hpath]; exact List.cons_ne_nil _ _)
  rw [hpath] at hinner
  exact hrecord inner ((Json.at?_singleton outer _).symm.trans hinner)

end Location

/-! ## Reports -/

/-- One location stands before another in a list, or is the same. -/
def InOrder (locations : List Location) (first second : Location) : Prop :=
  first = second ∨ [first, second].Sublist locations

theorem InOrder.mono {locations more : List Location} (hmore : locations.Sublist more)
    {first second : Location} (horder : InOrder locations first second) :
    InOrder more first second :=
  horder.imp_right fun hsublist => hsublist.trans hmore

/-- A checked value reports those of some locations that offend in a document: its issues are about
them, one or more for each, in the order of the locations, and it is valid if there are none. -/
structure Reports {α : Type} (data : Json Binary64) (locations : List Location)
    (checked : Checked α) (found : List Location) : Prop where
  paths : checked.issues.map Issue.path = found.map Location.path
  mem_iff : ∀ location, location ∈ found ↔ location ∈ locations ∧ location.Offends data
  ordered : found.Pairwise (InOrder locations)
  valid : found = [] → ∃ value, checked = .valid value

namespace Reports

variable {α β : Type} {data : Json Binary64} {locations others : List Location}
  {found further : List Location}

theorem map {checked : Checked α} (hreports : Reports data locations checked found) (f : α → β) :
    Reports data locations (checked.map f) found where
  paths := by rw [Checked.issues_map]; exact hreports.paths
  mem_iff := hreports.mem_iff
  ordered := hreports.ordered
  valid := by
    intro hnone
    obtain ⟨value, hvalid⟩ := hreports.valid hnone
    exact ⟨f value, by rw [hvalid]; rfl⟩

/-- What is checked next reports after what was checked before. -/
theorem apply {function : Checked (α → β)} {checked : Checked α}
    (hfunction : Reports data locations function found)
    (hchecked : Reports data others checked further) :
    Reports data (locations ++ others) (function.apply checked) (found ++ further) where
  paths := by
    rw [Checked.issues_apply, List.map_append, List.map_append, hfunction.paths, hchecked.paths]
  mem_iff := by
    intro location
    rw [List.mem_append, hfunction.mem_iff, hchecked.mem_iff, List.mem_append, or_and_right]
  ordered := by
    rw [List.pairwise_append]
    refine ⟨hfunction.ordered.imp (InOrder.mono (List.sublist_append_left _ _)),
      hchecked.ordered.imp (InOrder.mono (List.sublist_append_right _ _)),
      fun first hfirst second hsecond => ?_⟩
    -- whatever is found first stands among the first locations
    have hhere := ((hfunction.mem_iff first).mp hfirst).1
    have hthere := ((hchecked.mem_iff second).mp hsecond).1
    exact .inr ((List.singleton_sublist.mpr hhere).append (List.singleton_sublist.mpr hthere))
  valid := by
    intro hnone
    obtain ⟨hfound, hfurther⟩ := List.append_eq_nil_iff.mp hnone
    obtain ⟨f, hf⟩ := hfunction.valid hfound
    obtain ⟨value, hvalue⟩ := hchecked.valid hfurther
    exact ⟨f value, by rw [hf, hvalue]; rfl⟩

/-- Locations that do not offend may stand anywhere among the others. -/
theorem weaken {checked : Checked α} (hreports : Reports data locations checked found)
    (hmore : locations.Sublist others)
    (hkept : ∀ location ∈ others, location ∈ locations ∨ ¬location.Offends data) :
    Reports data others checked found where
  paths := hreports.paths
  mem_iff := by
    intro location
    rw [hreports.mem_iff]
    constructor
    · exact fun ⟨hmem, hoffends⟩ => ⟨hmore.subset hmem, hoffends⟩
    · exact fun ⟨hmem, hoffends⟩ => ⟨(hkept location hmem).resolve_right (not_not_intro hoffends),
        hoffends⟩
  ordered := hreports.ordered.imp (InOrder.mono hmore)
  valid := hreports.valid

/-- A valid value reports nothing. -/
theorem of_valid (value : α) (hkept : ∀ location ∈ locations, ¬location.Offends data) :
    Reports data locations (.valid value) [] where
  paths := rfl
  mem_iff := by
    intro location
    refine iff_of_false List.not_mem_nil ?_
    rintro ⟨hmem, hoffends⟩
    exact hkept location hmem hoffends
  ordered := .nil
  valid := fun _ => ⟨value, rfl⟩

/-- An issue reports its location. -/
theorem of_issue {location : Location} (hoffends : location.Offends data)
    (complaint : Complaint) :
    Reports data [location] (.issue location.path complaint : Checked α) [location] where
  paths := rfl
  mem_iff := by
    intro other
    rw [List.mem_singleton]
    constructor
    · rintro rfl
      exact ⟨rfl, hoffends⟩
    · exact And.left
  ordered := List.pairwise_singleton _ _
  valid := nofun

/-- A location that is checked by itself is reported if its rule is broken. -/
theorem of_about {checked : Checked α} {location : Location} {value : Option (Json Binary64)}
    (hoffends : location.Offends data ↔ ¬location.Keeps value)
    (habout : checked.About location.path)
    (hvalid : (∃ result, checked = .valid result) ↔ location.Keeps value) :
    ∃ found, Reports data [location] checked found := by
  cases checked with
  | valid result =>
      refine ⟨[], of_valid result fun other hother => ?_⟩
      rw [List.mem_singleton.mp hother, hoffends, not_not]
      exact hvalid.mp ⟨result, rfl⟩
  | invalid issues =>
      obtain ⟨hsome, hpaths⟩ := habout issues rfl
      have hbroken : location.Offends data := by
        rw [hoffends, ← hvalid]
        exact fun ⟨_, hnone⟩ => nomatch hnone
      have hlength : issues.length ≠ 0 := mt List.length_eq_zero_iff.mp hsome
      -- more than one complaint may be about the same number
      refine ⟨List.replicate issues.length location, ?_, fun other => ?_, ?_, ?_⟩
      · rw [List.map_replicate, List.eq_replicate_iff]
        exact ⟨List.length_map _, List.forall_mem_map.mpr hpaths⟩
      · rw [List.mem_replicate, and_iff_right hlength, List.mem_singleton]
        constructor
        · rintro rfl
          exact ⟨rfl, hbroken⟩
        · exact And.left
      · exact List.pairwise_replicate.mpr (.inr (.inl rfl))
      · intro hnone
        exact absurd ((List.replicate_eq_nil_iff _).mp hnone) hlength

end Reports

/-! ## What is read -/

variable {path : List String} {data : Option (Json Binary64)}

/-- A number that is not whole has a complaint. -/
theorem numberComplaints_ne_nil {x : Binary64} (hfraction : x.toInt? = none) :
    numberComplaints x ≠ [] := by
  have hwhole : x.isWhole = false := by
    rw [Binary64.isWhole, hfraction]
    rfl
  rw [numberComplaints, hwhole]
  exact List.cons_ne_nil _ _

theorem readInteger_about : (readInteger path data).About path := by
  unfold readInteger
  split
  · split
    · exact .valid _
    · exact .issue _
  · split
    · exact .valid _
    · rename_i x _ _ hother
      rintro _ ⟨⟩
      refine ⟨fun hnone => ?_, ?_⟩
      · -- without complaints the number is whole, and then it is read
        rw [List.map_eq_nil_iff] at hnone
        cases hinteger : x.toInt? with
        | none => exact numberComplaints_ne_nil hinteger hnone
        | some n => exact hother n hinteger hnone
      · intro issue hmem
        obtain ⟨complaint, -, rfl⟩ := List.mem_map.mp hmem
        rfl
  · exact .issue _

theorem readId_about : (readId path data).About path := by
  unfold readId
  split
  · split
    · exact .issue _
    · exact .valid _
  · exact .issue _

theorem readOptional_about {α : Type} {read : Option (Json Binary64) → Checked α}
    (habout : ∀ json, (read (some json)).About path) : (readOptional read data).About path := by
  cases data with
  | none => exact .valid _
  | some json => exact (habout json).map _

theorem exists_valid_iff_of_required (field : IntegerField) (hrequired : ¬field.Optional)
    {checked : Checked ℤ}
    (hread : ∀ n, checked = .valid n ↔ Option.Rel field.Writes data (some n)) :
    (∃ n, checked = .valid n) ↔ Location.Keeps (.integer field) data := by
  simp only [hread, rel_some_iff, Location.Keeps, hrequired, false_and, false_or]
  exact exists_comm

theorem exists_valid_iff_of_optional (field : IntegerField) (hoptional : field.Optional)
    {read : Option (Json Binary64) → Checked ℤ}
    (hread : ∀ data n, read data = .valid n ↔ Option.Rel field.Writes data (some n)) :
    (∃ value, readOptional read data = .valid value) ↔
      Location.Keeps (.integer field) data := by
  simp only [readOptional_eq_valid hread, Location.Keeps, hoptional, true_and]
  cases data with
  | none => simp [none_rel_iff]
  | some json => simp [some_rel_iff]

/-! ## What is read of a record -/

variable {fields inner : List (String × Json Binary64)}

theorem readReferences_reports
    (hinner : Json.lookup fields "class_references" = some (.record inner))
    (kinds : List ClassKind) :
    ∃ found, Reports (.record fields) (kinds.map fun kind => .integer (.reference kind))
      (readReferences ["class_references"] inner kinds) found := by
  induction kinds with
  | nil => exact ⟨[], .of_valid _ nofun⟩
  | cons kind rest ih =>
      obtain ⟨further, hrest⟩ := ih
      have hoffends : (Location.integer (.reference kind)).Offends (.record fields) ↔
          ¬Location.Keeps (.integer (.reference kind)) (Json.lookup inner kind.specKey) :=
        Location.offends_iff_of_inner rfl hinner
      obtain ⟨found, hhere⟩ := Reports.of_about hoffends
        (readOptional_about fun _ => readInteger_about.refine _ _)
        (exists_valid_iff_of_optional (.reference kind) trivial fun _ _ =>
          readReference_eq_valid kind)
      exact ⟨_, (hhere.map _).apply hrest⟩

/-- The keys of the class references are checked by themselves. -/
theorem unknownKeys_reports
    (hinner : Json.lookup fields "class_references" = some (.record inner)) :
    ∃ found, Reports (.record fields) [.references] (match unknownKeys inner with
      | [] => .valid ()
      | keys => .issue ["class_references"] (.unknownKeys keys) : Checked Unit) found := by
  have hoffends : Location.references.Offends (.record fields) ↔
      ¬Location.references.Keeps (some (.record inner)) :=
    hinner ▸ Location.offends_iff_of_path rfl
  have hkeeps : Location.references.Keeps (some (.record inner)) ↔ unknownKeys inner = [] := by
    rw [unknownKeys_eq_nil]
    exact and_iff_right (by simp [Shape.of])
  cases hunknown : unknownKeys inner with
  | nil =>
      refine ⟨[], .of_valid _ ?_⟩
      rw [List.forall_mem_singleton, hoffends, not_not, hkeeps, hunknown]
  | cons key rest =>
      refine ⟨_, .of_issue (hoffends.mpr fun hkept => ?_) _⟩
      rw [hkeeps, hunknown] at hkept
      cases hkept

theorem readReferenceRecord_reports (fields : List (String × Json Binary64)) :
    ∃ found, Reports (.record fields)
      (ClassKind.all.map (fun kind => .integer (.reference kind)) ++ [.references])
      (readReferenceRecord ["class_references"] (Json.lookup fields "class_references"))
      found := by
  have hoffends : Location.references.Offends (.record fields) ↔
      ¬Location.references.Keeps (Json.lookup fields "class_references") :=
    Location.offends_iff_of_path rfl
  have hwithin (hrecord : ∀ inner, Json.lookup fields "class_references" ≠ some (.record inner)) :
      ∀ location ∈ ClassKind.all.map (fun kind => Location.integer (.reference kind)),
        ¬location.Offends (.record fields) := by
    rw [List.forall_mem_map]
    exact fun kind _ => Location.not_offends_of_inner rfl hrecord
  cases hat : Json.lookup fields "class_references" with
  | none =>
      rw [hat] at hoffends hwithin
      -- what is absent has no fields to ask for
      refine ⟨[], .of_valid _ (List.forall_mem_append.mpr ⟨hwithin (by simp), ?_⟩)⟩
      rw [List.forall_mem_singleton, hoffends, not_not]
      exact ⟨by decide, by simp⟩
  | some json =>
      rw [hat] at hoffends hwithin
      cases json with
      | record inner =>
          obtain ⟨found, hfound⟩ := readReferences_reports hat ClassKind.all
          obtain ⟨further, hfurther⟩ := unknownKeys_reports hat
          exact ⟨_, (hfound.map _).apply hfurther⟩
      | _ =>
          -- the shape alone is reported, as there are no keys to look at
          refine ⟨_, (Reports.of_issue (hoffends.mpr fun hkeeps => ?_) _).weaken
            (List.sublist_append_right _ _) fun location hmem => ?_⟩
          · simpa [Shape.of] using hkeeps.1
          · rw [List.mem_append, or_comm] at hmem
            exact hmem.imp_right (hwithin (by simp) location)

/-- Both fields of a context are required. -/
theorem contextFields_reports
    (hinner : Json.lookup fields "chain_context" = some (.record inner)) :
    ∃ found, Reports (.record fields) [.integer .coinbase, .integer .baseFee]
      (readContext ["chain_context"] (some (.record inner))) found := by
  have hcoinbase : (Location.integer .coinbase).Offends (.record fields) ↔
      ¬Location.Keeps (.integer .coinbase) (Json.lookup inner "coinbase") :=
    Location.offends_iff_of_inner rfl hinner
  have hbaseFee : (Location.integer .baseFee).Offends (.record fields) ↔
      ¬Location.Keeps (.integer .baseFee) (Json.lookup inner "base_fee") :=
    Location.offends_iff_of_inner rfl hinner
  obtain ⟨found, hfound⟩ := Reports.of_about hcoinbase (readInteger_about.refine _ _)
    (exists_valid_iff_of_required .coinbase not_false fun _ => readNative_eq_valid fun _ => Iff.rfl)
  obtain ⟨further, hfurther⟩ := Reports.of_about hbaseFee readInteger_about
    (exists_valid_iff_of_required .baseFee not_false fun _ => readInteger_eq_valid_baseFee)
  exact ⟨_, (hfound.map _).apply hfurther⟩

theorem readContext_reports (fields : List (String × Json Binary64)) :
    ∃ found, Reports (.record fields) ([.context] ++ [.integer .coinbase, .integer .baseFee])
      (readOptional (readContext ["chain_context"]) (Json.lookup fields "chain_context"))
      found := by
  have hoffends : Location.context.Offends (.record fields) ↔
      ¬Location.context.Keeps (Json.lookup fields "chain_context") :=
    Location.offends_iff_of_path rfl
  have hwithin (hrecord : ∀ inner, Json.lookup fields "chain_context" ≠ some (.record inner)) :
      ∀ location ∈ [Location.integer .coinbase, .integer .baseFee],
        ¬location.Offends (.record fields) := by
    rw [List.forall_mem_cons, List.forall_mem_singleton]
    exact ⟨Location.not_offends_of_inner rfl hrecord, Location.not_offends_of_inner rfl hrecord⟩
  cases hat : Json.lookup fields "chain_context" with
  | none =>
      rw [hat] at hoffends hwithin
      refine ⟨[], .of_valid _ (List.forall_mem_append.mpr ⟨?_, hwithin (by simp)⟩)⟩
      rw [List.forall_mem_singleton, hoffends, not_not]
      exact List.mem_cons_self
  | some json =>
      rw [hat] at hoffends hwithin
      cases json with
      | record inner =>
          -- the context itself keeps its rule, and its fields are left
          obtain ⟨found, hfound⟩ := contextFields_reports hat
          refine ⟨_, (hfound.map _).weaken (List.sublist_append_right _ _) fun location hmem => ?_⟩
          refine (List.mem_append.mp hmem).symm.imp_right fun hcontext => ?_
          rw [List.mem_singleton.mp hcontext, hoffends, not_not]
          simp [Location.Keeps, Shape.of]
      | _ =>
          refine ⟨_, (Reports.of_issue (hoffends.mpr fun hkeeps => ?_) _).weaken
            (List.sublist_append_left _ _) fun location hmem => ?_⟩
          · simp [Location.Keeps, Shape.of] at hkeeps
          · exact (List.mem_append.mp hmem).imp_right (hwithin (by simp) location)

/-! ## What is read of a document -/

/-- Below the document there is a place for a value only if it is a record. -/
theorem Location.Offends.eq_record {location : Location} {data : Json Binary64}
    (hoffends : location.Offends data) (hbelow : location ≠ .document) :
    ∃ fields, data = .record fields := by
  have hpath : location.path ≠ [] := by
    cases location with
    | document => exact absurd rfl hbelow
    | integer field => cases field <;> exact List.cons_ne_nil _ _
    | _ => exact List.cons_ne_nil _ _
  obtain ⟨inner, hinner⟩ := hoffends.1 hpath
  cases data with
  | record fields => exact ⟨fields, rfl⟩
  | _ =>
      cases houter : location.path.dropLast with
      | nil =>
          rw [houter, Json.at?_nil] at hinner
          cases hinner
      | cons key rest =>
          rw [houter, Json.at?_cons] at hinner
          cases hinner

/-- A document is checked for the locations that offend in it, and for no others. -/
theorem check_reports (data : Json Binary64) :
    ∃ found, Reports data Location.all (check (some data)) found := by
  cases data with
  | record fields =>
      have hid : Location.id.Offends (.record fields) ↔
          ¬Location.id.Keeps (Json.lookup fields "id") := Location.offends_iff_of_path rfl
      have hfield (field : IntegerField) (key : String) (hpath : field.path = [key]) :
          (Location.integer field).Offends (.record fields) ↔
            ¬Location.Keeps (.integer field) (Json.lookup fields key) :=
        Location.offends_iff_of_path hpath
      obtain ⟨_, hid⟩ := Reports.of_about hid readId_about (exists_congr fun _ => readId_eq_valid)
      obtain ⟨_, hchainId⟩ := Reports.of_about (hfield .chainId _ rfl)
        (readInteger_about.refine _ _) (exists_valid_iff_of_required .chainId not_false
          fun _ => readChainId_eq_valid)
      obtain ⟨_, hdeployer⟩ := Reports.of_about (hfield .deployer _ rfl)
        (readInteger_about.refine _ _) (exists_valid_iff_of_required .deployer not_false
          fun _ => readNative_eq_valid fun _ => Iff.rfl)
      obtain ⟨_, howner⟩ := Reports.of_about (hfield .owner _ rfl) (readInteger_about.refine _ _)
        (exists_valid_iff_of_required .owner not_false
          fun _ => readNative_eq_valid fun _ => Iff.rfl)
      obtain ⟨_, htoken⟩ := Reports.of_about (hfield .nativeToken _ rfl)
        (readOptional_about fun _ => readInteger_about.refine _ _)
        (exists_valid_iff_of_optional .nativeToken trivial
          fun _ _ => readNative_eq_valid fun _ => Iff.rfl)
      obtain ⟨_, hreferences⟩ := readReferenceRecord_reports fields
      obtain ⟨_, hcontext⟩ := readContext_reports fields
      have hfields := ((((((hid.map Spec.mk).apply hchainId).apply hdeployer).apply howner).apply
        htoken).apply hreferences).apply hcontext
      -- the document itself keeps its rule
      refine ⟨_, hfields.weaken (List.sublist_cons_self Location.document _)
        fun location hmem => ?_⟩
      rcases List.mem_cons.mp hmem with rfl | hmem
      · exact .inr fun hoffends => hoffends.2 rfl
      · exact .inl hmem
  | _ =>
      refine ⟨_, (Reports.of_issue ⟨fun hempty => absurd rfl hempty, fun hkeeps => ?_⟩ _).weaken
        (List.singleton_sublist.mpr (Location.mem_all .document)) fun location _ => ?_⟩
      · cases hkeeps
      · -- below what is no record nothing is missing
        by_cases hdocument : location = .document
        · exact .inl (List.mem_singleton.mpr hdocument)
        · refine .inr fun hoffends => ?_
          obtain ⟨fields, hrecord⟩ := hoffends.eq_record hdocument
          cases hrecord

/-- A document is accepted exactly if no location offends in it. -/
theorem accepted_iff_not_offends {data : Json Binary64} :
    (∃ spec, validate (some data) = .ok spec) ↔ ∀ location : Location, ¬location.Offends data := by
  obtain ⟨found, hreports⟩ := check_reports data
  have hfound : found = [] ↔ ∀ location : Location, ¬location.Offends data := by
    rw [List.eq_nil_iff_forall_not_mem]
    simp only [hreports.mem_iff, Location.mem_all, true_and]
  simp only [validate, Checked.mapError_toExcept_eq_ok]
  rw [← hfound]
  refine ⟨?_, hreports.valid⟩
  rintro ⟨spec, hvalid⟩
  have hpaths := hreports.paths
  rw [hvalid] at hpaths
  exact List.map_eq_nil_iff.mp hpaths.symm

/-- A document is rejected for its issues. -/
theorem validate_eq_error_iff {data : Option (Json Binary64)} {fault : Fault} :
    validate data = .error fault ↔
      ∃ issues, check data = .invalid issues ∧ issuesFault issues = fault := by
  unfold validate
  cases check data with
  | valid spec =>
      refine iff_of_false nofun ?_
      rintro ⟨issues, hvalid, -⟩
      cases hvalid
  | invalid issues =>
      show Except.error (issuesFault issues) = Except.error fault ↔ _
      simp

/-- The fault names the locations of the issues. -/
theorem issuesFault_of_paths {issues : List Issue} {found : List Location}
    (hpaths : issues.map Issue.path = found.map Location.path) :
    issuesFault issues = .registry .invalidRegistrySpec
      (JsonText.render (.list (issues.map Issue.toJson)))
      (.record [("issues", .list (found.map fun location => .text location.text))]) := by
  have htexts := congrArg (List.map fun path => Value.text (String.intercalate "." path)) hpaths
  rw [List.map_map, List.map_map] at htexts
  exact congrArg (fun texts => Fault.registry _ _ (.record [("issues", .list texts)])) htexts

end AccountRegistry.Spec
