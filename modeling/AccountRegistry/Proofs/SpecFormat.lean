import AccountRegistry.Proofs.Address
import AccountRegistry.Proofs.Checked
import AccountRegistry.Proofs.Documents
import AccountRegistry.Proofs.Numerals
import AccountRegistry.Proofs.Rounding
import AccountRegistry.Spec.Reader
import Mathlib.Logic.Function.Basic

/-!
# The format of registry specs

A document is a record with integers at fixed paths (`Spec.IntegerField`), each written as a numeral
or as a whole number (`Json.Writes`) that its field admits.  `Spec.Documented` says which documents
have the format, and `Spec.Describes` which spec a document describes.  A document is read as the
spec that it describes, and as nothing else (`Spec.validate_eq_ok_iff`): one lemma for each reader
says which values it accepts.
-/

namespace AccountRegistry

/-- What is written as an integer: a numeral, or a whole number from zero to `2 ^ 53 - 1`. -/
inductive Json.Writes : Json Binary64 → ℤ → Prop
  | numeral {text : String} {n : ℕ} (denotes : Numeral.Denotes text.toList n) :
      Writes (.text text) n
  | number {x : Binary64} {n : ℤ} (whole : x.value = some (n : ℚ)) (lower : 0 ≤ n)
      (upper : n ≤ 2 ^ 53 - 1) : Writes (.number x) n

theorem Json.Writes.nonneg {json : Json Binary64} {n : ℤ} (hwrites : json.Writes n) : 0 ≤ n := by
  cases hwrites with
  | numeral => exact Int.natCast_nonneg _
  | number _ lower => exact lower

namespace Spec

/-! ## The format -/

/-- The keys of the format. -/
def names : List String :=
  ["id", "chain_id", "deployer", "owner", "native_token", "class_references", "chain_context"]

/-- The fields of a spec that hold an integer. -/
inductive IntegerField where
  | chainId
  | deployer
  | owner
  | nativeToken
  | reference (kind : ClassKind)
  | coinbase
  | baseFee
  deriving DecidableEq

namespace IntegerField

/-- The keys that lead to a field. -/
def path : IntegerField → List String
  | .chainId => ["chain_id"]
  | .deployer => ["deployer"]
  | .owner => ["owner"]
  | .nativeToken => ["native_token"]
  | .reference kind => ["class_references", kind.specKey]
  | .coinbase => ["chain_context", "coinbase"]
  | .baseFee => ["chain_context", "base_fee"]

/-- The rule for the integers of a field, besides not being negative. -/
def Admits : IntegerField → ℤ → Prop
  | .chainId, n => n < 2 ^ 64
  | .deployer, n => n < 2 ^ 251 - 256
  | .owner, n => n < 2 ^ 251 - 256
  | .nativeToken, n => n < 2 ^ 251 - 256
  | .reference _, n => 0 < n ∧ n < Address.fieldPrime
  | .coinbase, n => n < 2 ^ 251 - 256
  | .baseFee, _ => True

/-- The integer of a field in a spec. -/
def of (spec : Spec) : IntegerField → Option ℤ
  | .chainId => some spec.chainId
  | .deployer => some spec.deployer
  | .owner => some spec.owner
  | .nativeToken => spec.nativeToken
  | .reference kind => spec.reference? kind
  | .coinbase => spec.chainContext.map ContextSpec.coinbase
  | .baseFee => spec.chainContext.map ContextSpec.baseFee

/-- Whether a document may not go without a field. -/
def RequiredIn (data : Json Binary64) : IntegerField → Prop
  | .chainId => True
  | .deployer => True
  | .owner => True
  | .nativeToken => False
  | .reference _ => False
  | .coinbase => (data.at? ["chain_context"]).isSome
  | .baseFee => (data.at? ["chain_context"]).isSome

/-- What is written as an integer that a field admits. -/
def Writes (field : IntegerField) (json : Json Binary64) (n : ℤ) : Prop :=
  json.Writes n ∧ field.Admits n

end IntegerField

/-- The records of a document: it is one, and so are its class references and its block context
if they are there; the class references have no other keys than those of the kinds. -/
structure Layout (data : Json Binary64) : Prop where
  record : Shape.of (some data) = .record
  references : Shape.of (data.at? ["class_references"]) ∈ [.absent, .record]
  known : ∀ key, (data.at? ["class_references", key]).isSome →
    ∃ kind : ClassKind, kind.specKey = key
  context : Shape.of (data.at? ["chain_context"]) ∈ [.absent, .record]

/-- The documents that are specs. -/
structure Documented (data : Json Binary64) : Prop extends Layout data where
  id : ∃ id, data.at? ["id"] = some (.text id) ∧ id ≠ ""
  present : ∀ field : IntegerField, field.RequiredIn data → (data.at? field.path).isSome
  integers : ∀ (field : IntegerField) json, data.at? field.path = some json →
    ∃ n, field.Writes json n

/-- The entries of class references under the keys of some kinds, in the order of the kinds. -/
def entries (value : ClassKind → Option ℤ) (kinds : List ClassKind) : List (String × ℤ) :=
  kinds.filterMap fun kind => (value kind).map fun n => (kind.specKey, n)

/-- The spec that a document writes: every field is the integer that is written there, and absent
where nothing is written. -/
structure Describes (data : Json Binary64) (spec : Spec) : Prop extends Layout data where
  id : data.at? ["id"] = some (.text spec.id)
  named : spec.id ≠ ""
  integers : ∀ field : IntegerField,
    Option.Rel field.Writes (data.at? field.path) (field.of spec)
  listed : spec.classReferences = entries spec.reference? ClassKind.all
  contextual : spec.chainContext.isSome = (data.at? ["chain_context"]).isSome

/-! ## Reading one integer -/

variable {path : List String} {data : Option (Json Binary64)} {n : ℤ}

theorem rel_some_iff {α β : Type} {r : α → β → Prop} {found : Option α} {value : β} :
    Option.Rel r found (some value) ↔ ∃ x, found = some x ∧ r x value := by
  constructor
  · rintro ⟨hrel⟩
    exact ⟨_, rfl, hrel⟩
  · rintro ⟨x, rfl, hrel⟩
    exact .some hrel

theorem some_rel_iff {α β : Type} {r : α → β → Prop} {x : α} {value : Option β} :
    Option.Rel r (some x) value ↔ ∃ n, value = some n ∧ r x n := by
  constructor
  · rintro ⟨hrel⟩
    exact ⟨_, rfl, hrel⟩
  · rintro ⟨n, rfl, hrel⟩
    exact .some hrel

theorem none_rel_iff {α β : Type} {r : α → β → Prop} {value : Option β} :
    Option.Rel r none value ↔ value = none := by
  constructor
  · rintro ⟨⟩
    rfl
  · rintro rfl
    exact .none

/-- Nothing is to be said against the whole numbers from zero to `2 ^ 53 - 1`. -/
theorem numberComplaints_eq_nil {x : Binary64} (hvalue : x.value = some (n : ℚ)) :
    numberComplaints x = [] ↔ 0 ≤ n ∧ n ≤ 2 ^ 53 - 1 := by
  have hwhole : x.isWhole = true := by
    rw [Binary64.isWhole, Binary64.toInt?_eq_some_iff.mpr hvalue]
    rfl
  have hbelow (bound : ℤ) : x.below bound = true ↔ n < bound := by
    rw [Binary64.below_iff hvalue, Int.cast_lt]
  have habove (bound : ℤ) : x.above bound = true ↔ bound < n := by
    rw [Binary64.above_iff hvalue, Int.cast_lt]
  have hsafe : Binary64.maxSafe = 2 ^ 53 - 1 := by decide
  simp only [numberComplaints, hwhole, if_true, List.nil_append, List.append_eq_nil_iff,
    ite_eq_right_iff, reduceCtorEq, imp_false, hbelow, habove, hsafe]
  omega

/-- An integer is read from what is written as one, and from nothing else. -/
theorem readInteger_eq_valid :
    readInteger path data = .valid n ↔ Option.Rel Json.Writes data (some n) := by
  rw [rel_some_iff]
  constructor
  · intro hread
    unfold readInteger at hread
    split at hread
    · rename_i text
      split at hread
      · rename_i hnumeral
        cases hread
        exact ⟨_, rfl, .numeral (Numeral.read?_eq_some_iff.mp hnumeral)⟩
      · cases hread
    · rename_i x
      split at hread
      · rename_i hinteger hcomplaints
        cases hread
        have hvalue := Binary64.toInt?_eq_some_iff.mp hinteger
        obtain ⟨hlower, hupper⟩ := (numberComplaints_eq_nil hvalue).mp hcomplaints
        exact ⟨_, rfl, .number hvalue hlower hupper⟩
      · cases hread
    · cases hread
  · rintro ⟨json, rfl, hwrites⟩
    cases hwrites with
    | numeral denotes =>
        have hnumeral := Numeral.read?_eq_some_iff.mpr denotes
        rw [← Numeral.ofText?] at hnumeral
        simp only [readInteger, hnumeral]
    | number whole lower upper =>
        have hinteger := Binary64.toInt?_eq_some_iff.mpr whole
        have hcomplaints := (numberComplaints_eq_nil whole).mpr ⟨lower, upper⟩
        simp only [readInteger, hinteger, hcomplaints]

/-- A rule on an integer that is read. -/
theorem refine_readInteger_eq_valid {holds : ℤ → Bool} {message : String} {field : IntegerField}
    (hadmits : ∀ n, 0 ≤ n → (holds n = true ↔ field.Admits n)) :
    (readInteger path data).refine holds path message = .valid n ↔
      Option.Rel field.Writes data (some n) := by
  rw [Checked.refine_eq_valid, readInteger_eq_valid, rel_some_iff, rel_some_iff]
  constructor
  · rintro ⟨⟨json, rfl, hwrites⟩, hholds⟩
    exact ⟨json, rfl, hwrites, (hadmits n hwrites.nonneg).mp hholds⟩
  · rintro ⟨json, rfl, hwrites, hadmitted⟩
    exact ⟨⟨json, rfl, hwrites⟩, (hadmits n hwrites.nonneg).mpr hadmitted⟩

theorem readChainId_eq_valid :
    readChainId path data = .valid n ↔ Option.Rel IntegerField.chainId.Writes data (some n) :=
  refine_readInteger_eq_valid fun n _ => by
    rw [decide_eq_true_eq]
    exact Iff.rfl

theorem isNative_iff_of_nonneg (hnonneg : 0 ≤ n) : Address.IsNative n ↔ n < 2 ^ 251 - 256 := by
  rw [Address.isNative_iff]
  exact and_iff_right hnonneg

theorem readNative_eq_valid {field : IntegerField}
    (hadmits : ∀ n, field.Admits n ↔ n < 2 ^ 251 - 256) :
    readNative path data = .valid n ↔ Option.Rel field.Writes data (some n) :=
  refine_readInteger_eq_valid fun n hnonneg => by
    rw [decide_eq_true_eq, isNative_iff_of_nonneg hnonneg, hadmits]

theorem readReference_eq_valid (kind : ClassKind) :
    readReference path data = .valid n ↔
      Option.Rel (IntegerField.reference kind).Writes data (some n) :=
  refine_readInteger_eq_valid fun n _ => by
    rw [decide_eq_true_eq]
    exact Iff.rfl

theorem readInteger_eq_valid_baseFee :
    readInteger path data = .valid n ↔ Option.Rel IntegerField.baseFee.Writes data (some n) := by
  simp only [readInteger_eq_valid, rel_some_iff, IntegerField.Writes, IntegerField.Admits, and_true]

theorem readOptional_eq_valid {α : Type} {read : Option (Json Binary64) → Checked α}
    {r : Json Binary64 → α → Prop} {value : Option α}
    (hread : ∀ data n, read data = .valid n ↔ Option.Rel r data (some n)) :
    readOptional read data = .valid value ↔ Option.Rel r data value := by
  cases data with
  | none =>
      rw [readOptional, Checked.valid.injEq]
      constructor
      · rintro rfl
        exact .none
      · rintro ⟨⟩
        rfl
  | some json =>
      rw [readOptional, Checked.map_eq_valid]
      constructor
      · rintro ⟨n, hvalid, rfl⟩
        exact (hread (some json) n).mp hvalid
      · rintro ⟨hrel⟩
        exact ⟨_, (hread (some json) _).mpr (.some hrel), rfl⟩

/-! ## Reading the records -/

theorem specKey_injective : Function.Injective ClassKind.specKey := by
  intro first second hkey
  cases first <;> cases second <;> first | rfl | exact absurd hkey (by decide)

theorem entries_cons (value : ClassKind → Option ℤ) (kind : ClassKind) (rest : List ClassKind) :
    entries value (kind :: rest) =
      ((value kind).map fun n => (kind.specKey, n)).toList ++ entries value rest := by
  rw [entries, List.filterMap_cons]
  cases value kind <;> rfl

/-- Under the key of a kind stands its value. -/
theorem lookup_entries (value : ClassKind → Option ℤ) (kinds : List ClassKind) (kind : ClassKind) :
    (entries value kinds).lookup kind.specKey = if kind ∈ kinds then value kind else none := by
  induction kinds with
  | nil => rfl
  | cons other rest ih =>
      rw [entries_cons, List.lookup_append, ih]
      by_cases hkind : kind = other
      · subst hkind
        cases value kind <;> simp
      · have hkey : (kind.specKey == other.specKey) = false :=
          beq_eq_false_iff_ne.mpr fun hsame => hkind (specKey_injective hsame)
        cases value other <;> simp [List.lookup_cons, hkind, hkey]

theorem lookup_entries_all (value : ClassKind → Option ℤ) (kind : ClassKind) :
    (entries value ClassKind.all).lookup kind.specKey = value kind := by
  rw [lookup_entries, if_pos kind.mem_all]

/-- The class references are read kind by kind. -/
theorem readReferences_eq_valid {fields : List (String × Json Binary64)} {kinds : List ClassKind}
    (hnodup : kinds.Nodup) {references : List (String × ℤ)} :
    readReferences path fields kinds = .valid references ↔
      ∃ value : ClassKind → Option ℤ, (∀ kind ∈ kinds, Option.Rel
          (IntegerField.reference kind).Writes (Json.lookup fields kind.specKey) (value kind)) ∧
        references = entries value kinds := by
  induction kinds generalizing references with
  | nil =>
      rw [readReferences, Checked.valid.injEq]
      constructor
      · rintro rfl
        exact ⟨fun _ => none, nofun, rfl⟩
      · rintro ⟨value, -, rfl⟩
        rfl
  | cons kind rest ih =>
      obtain ⟨hkind, hrest⟩ := List.nodup_cons.mp hnodup
      have hhere (value : Option ℤ) :
          readOptional (readReference (path ++ [kind.specKey])) (Json.lookup fields kind.specKey) =
              .valid value ↔
            Option.Rel (IntegerField.reference kind).Writes (Json.lookup fields kind.specKey)
              value :=
        readOptional_eq_valid fun _ _ => readReference_eq_valid kind
      rw [readReferences, Checked.apply_eq_valid]
      constructor
      · rintro ⟨f, others, hfunction, hothers, rfl⟩
        obtain ⟨own, hown, rfl⟩ := Checked.map_eq_valid.mp hfunction
        obtain ⟨value, hvalues, rfl⟩ := (ih hrest).mp hothers
        -- the kind is not among the rest, so its value can be chosen freely
        have hsame : ∀ other ∈ rest, Function.update value kind own other = value other := by
          intro other hother
          exact Function.update_of_ne (fun hsame : other = kind => hkind (hsame ▸ hother)) _ _
        refine ⟨Function.update value kind own, ?_, ?_⟩
        · rw [List.forall_mem_cons, Function.update_self]
          refine ⟨(hhere own).mp hown, fun other hother => ?_⟩
          rw [hsame other hother]
          exact hvalues other hother
        · rw [entries_cons, Function.update_self]
          congr 1
          apply List.filterMap_congr
          intro other hother
          rw [hsame other hother]
      · rintro ⟨value, hvalues, rfl⟩
        obtain ⟨hown, hothers⟩ := List.forall_mem_cons.mp hvalues
        refine ⟨_, _, Checked.map_eq_valid.mpr ⟨value kind, (hhere _).mpr hown, rfl⟩,
          (ih hrest).mpr ⟨value, hothers, rfl⟩, ?_⟩
        rw [entries_cons]

/-- No key is unknown exactly if all that count are those of kinds. -/
theorem unknownKeys_eq_nil {fields : List (String × Json Binary64)} :
    unknownKeys fields = [] ↔
      ∀ key, (Json.lookup fields key).isSome → ∃ kind : ClassKind, kind.specKey = key := by
  rw [unknownKeys, List.filter_eq_nil_iff]
  refine forall_congr' fun key => ?_
  rw [Json.mem_keys, ← Json.lookup_isSome_iff]
  refine imp_congr_right fun _ => ?_
  simp only [Bool.not_eq_true', Bool.not_eq_false, List.any_eq_true, decide_eq_true_eq]
  constructor
  · exact fun ⟨kind, _, hkey⟩ => ⟨kind, hkey⟩
  · exact fun ⟨kind, hkey⟩ => ⟨kind, kind.mem_all, hkey⟩

theorem readReferenceRecord_eq_valid {references : List (String × ℤ)} :
    readReferenceRecord path data = .valid references ↔
      Shape.of data ∈ [.absent, .record] ∧
      (∀ key, (data.bind (Json.field? key)).isSome → ∃ kind : ClassKind, kind.specKey = key) ∧
      ∃ value : ClassKind → Option ℤ, (∀ kind, Option.Rel (IntegerField.reference kind).Writes
          (data.bind (Json.field? kind.specKey)) (value kind)) ∧
        references = entries value ClassKind.all := by
  cases data with
  | none =>
      rw [readReferenceRecord, Checked.valid.injEq]
      constructor
      · rintro rfl
        exact ⟨by decide, nofun, fun _ => none, fun _ => .none, rfl⟩
      · rintro ⟨-, -, value, hvalues, rfl⟩
        have hnone : value = fun _ => none := funext fun kind => none_rel_iff.mp (hvalues kind)
        rw [hnone]
        rfl
  | some json =>
      cases json with
      | record fields =>
          have hshape : Shape.of (some (.record fields)) ∈ [.absent, .record] := by
            simp [Shape.of]
          have hnodup : ClassKind.all.Nodup := by decide
          have hreferences : readReferences path fields ClassKind.all = .valid references ↔ _ :=
            readReferences_eq_valid hnodup
          rw [readReferenceRecord, Checked.apply_eq_valid]
          constructor
          · rintro ⟨f, _, hfunction, hstrict, hresult⟩
            obtain ⟨found, hfound, rfl⟩ := Checked.map_eq_valid.mp hfunction
            cases hresult
            obtain ⟨value, hvalues, hentries⟩ := hreferences.mp hfound
            refine ⟨hshape, ?_, value, fun kind => hvalues kind kind.mem_all, hentries⟩
            cases hunknown : unknownKeys fields with
            | nil => exact unknownKeys_eq_nil.mp hunknown
            | cons key keys =>
                rw [hunknown] at hstrict
                cases hstrict
          · rintro ⟨-, hknown, value, hvalues, hentries⟩
            have hfound := hreferences.mpr ⟨value, fun kind _ => hvalues kind, hentries⟩
            refine ⟨_, (), Checked.map_eq_valid.mpr ⟨_, hfound, rfl⟩, ?_, rfl⟩
            rw [unknownKeys_eq_nil.mpr hknown]
      | _ => simp [readReferenceRecord, Checked.issue, Shape.of]

theorem readContext_eq_valid {context : ContextSpec} :
    readContext path data = .valid context ↔
      Shape.of data = .record ∧
      Option.Rel IntegerField.coinbase.Writes (data.bind (Json.field? "coinbase"))
        (some context.coinbase) ∧
      Option.Rel IntegerField.baseFee.Writes (data.bind (Json.field? "base_fee"))
        (some context.baseFee) := by
  cases data with
  | none => simp [readContext, Checked.issue, Shape.of]
  | some json =>
      cases json with
      | record fields =>
          rw [readContext, Checked.apply_eq_valid]
          constructor
          · rintro ⟨f, fee, hfunction, hfee, rfl⟩
            obtain ⟨coinbase, hcoinbase, rfl⟩ := Checked.map_eq_valid.mp hfunction
            exact ⟨rfl, (readNative_eq_valid fun _ => Iff.rfl).mp hcoinbase,
              readInteger_eq_valid_baseFee.mp hfee⟩
          · rintro ⟨-, hcoinbase, hfee⟩
            exact ⟨_, _, Checked.map_eq_valid.mpr
                ⟨_, (readNative_eq_valid fun _ => Iff.rfl).mpr hcoinbase, rfl⟩,
              readInteger_eq_valid_baseFee.mpr hfee, rfl⟩
      | _ => simp [readContext, Checked.issue, Shape.of]

theorem readOptional_readContext_eq_valid {context : Option ContextSpec} :
    readOptional (readContext path) data = .valid context ↔
      Shape.of data ∈ [.absent, .record] ∧ context.isSome = data.isSome ∧
      Option.Rel IntegerField.coinbase.Writes (data.bind (Json.field? "coinbase"))
        (context.map ContextSpec.coinbase) ∧
      Option.Rel IntegerField.baseFee.Writes (data.bind (Json.field? "base_fee"))
        (context.map ContextSpec.baseFee) := by
  cases data with
  | none =>
      cases context with
      | none => simp [readOptional, Shape.of, none_rel_iff]
      | some value => simp [readOptional, Shape.of]
  | some json =>
      have hpresent :
          Shape.of (some json) ∈ [.absent, .record] ↔ Shape.of (some json) = .record := by
        cases json <;> simp [Shape.of]
      rw [readOptional, Checked.map_eq_valid, hpresent]
      constructor
      · rintro ⟨value, hread, rfl⟩
        obtain ⟨hshape, hcoinbase, hfee⟩ := readContext_eq_valid.mp hread
        exact ⟨hshape, rfl, hcoinbase, hfee⟩
      · rintro ⟨hshape, hsome, hcoinbase, hfee⟩
        obtain ⟨value, rfl⟩ := Option.isSome_iff_exists.mp hsome
        exact ⟨value, readContext_eq_valid.mpr ⟨hshape, hcoinbase, hfee⟩, rfl⟩

theorem readId_eq_valid {id : String} :
    readId path data = .valid id ↔ data = some (.text id) ∧ id ≠ "" := by
  unfold readId
  split
  · rename_i text
    split
    · rename_i hempty
      simp only [Checked.issue, reduceCtorEq, false_iff, Option.some.injEq, Json.text.injEq]
      rintro ⟨rfl, hnamed⟩
      exact hnamed hempty
    · rename_i hnamed
      simp only [Checked.valid.injEq, Option.some.injEq, Json.text.injEq]
      constructor
      · rintro rfl
        exact ⟨rfl, hnamed⟩
      · exact And.left
  · rename_i hother
    simp only [Checked.issue, reduceCtorEq, false_iff]
    rintro ⟨rfl, -⟩
    exact hother _ rfl

/-! ## Reading a spec -/

/-- A spec is read field by field. -/
theorem readFields_eq_valid {fields : List (String × Json Binary64)} {spec : Spec} :
    readFields fields = .valid spec ↔
      readId ["id"] (Json.lookup fields "id") = .valid spec.id ∧
      readChainId ["chain_id"] (Json.lookup fields "chain_id") = .valid spec.chainId ∧
      readNative ["deployer"] (Json.lookup fields "deployer") = .valid spec.deployer ∧
      readNative ["owner"] (Json.lookup fields "owner") = .valid spec.owner ∧
      readOptional (readNative ["native_token"]) (Json.lookup fields "native_token") =
        .valid spec.nativeToken ∧
      readReferenceRecord ["class_references"] (Json.lookup fields "class_references") =
        .valid spec.classReferences ∧
      readOptional (readContext ["chain_context"]) (Json.lookup fields "chain_context") =
        .valid spec.chainContext := by
  simp only [readFields, Checked.apply_eq_valid, Checked.map_eq_valid]
  constructor
  · rintro ⟨_, context, ⟨_, references, ⟨_, token, ⟨_, owner, ⟨_, deployer, ⟨_, chainId, ⟨id, hid,
      rfl⟩, hchainId, rfl⟩, hdeployer, rfl⟩, howner, rfl⟩, htoken, rfl⟩, hreferences, rfl⟩,
      hcontext, rfl⟩
    exact ⟨hid, hchainId, hdeployer, howner, htoken, hreferences, hcontext⟩
  · rintro ⟨hid, hchainId, hdeployer, howner, htoken, hreferences, hcontext⟩
    exact ⟨_, _, ⟨_, _, ⟨_, _, ⟨_, _, ⟨_, _, ⟨_, _, ⟨_, hid, rfl⟩, hchainId, rfl⟩, hdeployer, rfl⟩,
      howner, rfl⟩, htoken, rfl⟩, hreferences, rfl⟩, hcontext, rfl⟩

/-- A document is read as the spec that it describes, and as nothing else. -/
theorem validate_eq_ok_iff {data : Json Binary64} {spec : Spec} :
    validate (some data) = .ok spec ↔ Describes data spec := by
  rw [validate, Checked.mapError_toExcept_eq_ok]
  cases data with
  | record fields =>
      have htop (key : String) : (Json.record fields).at? [key] = Json.lookup fields key :=
        Json.at?_singleton key _
      have hdown (key next : String) : (Json.record fields).at? [key, next] =
          (Json.lookup fields key).bind (Json.field? next) :=
        Json.at?_pair key next _
      have hnative (field : IntegerField) (hadmits : ∀ n, field.Admits n ↔ n < 2 ^ 251 - 256)
          (path : List String) (data : Option (Json Binary64)) (n : ℤ) :
          readNative path data = .valid n ↔ Option.Rel field.Writes data (some n) :=
        readNative_eq_valid hadmits
      rw [check, readFields_eq_valid, readId_eq_valid, readChainId_eq_valid,
        hnative .deployer fun _ => Iff.rfl, hnative .owner fun _ => Iff.rfl,
        readOptional_eq_valid (hnative .nativeToken (fun _ => Iff.rfl) _),
        readReferenceRecord_eq_valid, readOptional_readContext_eq_valid]
      simp only [← hdown]
      simp only [← htop]
      constructor
      · rintro ⟨⟨hid, hnamed⟩, hchainId, hdeployer, howner, htoken,
          ⟨hreferences, hknown, value, hvalues, hentries⟩, hcontext, hsome, hcoinbase, hfee⟩
        -- the list gives back what was read for each kind, which is what the spec looks up
        have hvalue : spec.reference? = value := by
          funext kind
          rw [reference?, hentries, lookup_entries_all]
        subst hvalue
        refine ⟨⟨rfl, hreferences, hknown, hcontext⟩, hid, hnamed, fun field => ?_, hentries,
          hsome⟩
        cases field with
        | chainId => exact hchainId
        | deployer => exact hdeployer
        | owner => exact howner
        | nativeToken => exact htoken
        | reference kind => exact hvalues kind
        | coinbase => exact hcoinbase
        | baseFee => exact hfee
      · rintro ⟨⟨-, hreferences, hknown, hcontext⟩, hid, hnamed, hintegers, hlisted, hsome⟩
        exact ⟨⟨hid, hnamed⟩, hintegers .chainId, hintegers .deployer, hintegers .owner,
          hintegers .nativeToken, ⟨hreferences, hknown, spec.reference?,
            fun kind => hintegers (.reference kind), hlisted⟩,
          hcontext, hsome, hintegers .coinbase, hintegers .baseFee⟩
  | _ =>
      constructor
      · intro hcheck
        cases hcheck
      · intro hdescribes
        cases hdescribes.record

end Spec

end AccountRegistry
