import AccountRegistry.Json.Basic

/-!
# Values within documents

`at?` is the value that a document holds at a path of keys, where the last field of a key counts,
and `replaceAt` puts another value there.  Two paths of which neither goes on from the other are
apart, and a replacement at one of them is not seen at the other.  `putAt` puts a value also where
there is none, if the record is there that it belongs to.
-/

namespace AccountRegistry.Json

variable {ν μ : Type}

/-! ## Fields -/

theorem foldl_lookup (fields : List (String × Json ν)) (key : String) (found : Option (Json ν)) :
    fields.foldl (fun found field => if field.1 = key then some field.2 else found) found =
      (lookup fields key).or found := by
  induction fields generalizing found with
  | nil => rfl
  | cons field rest ih =>
      have hlookup : lookup (field :: rest) key =
          (lookup rest key).or (if field.1 = key then some field.2 else none) := ih _
      rw [List.foldl_cons, ih, hlookup, Option.or_assoc]
      split <;> rfl

theorem lookup_cons (field : String × Json ν) (rest : List (String × Json ν)) (key : String) :
    lookup (field :: rest) key =
      (lookup rest key).or (if field.1 = key then some field.2 else none) := by
  rw [lookup, List.foldl_cons, foldl_lookup]

/-- A key counts exactly if some field has it. -/
theorem lookup_isSome_iff {fields : List (String × Json ν)} {key : String} :
    (lookup fields key).isSome ↔ key ∈ fields.map Prod.fst := by
  induction fields with
  | nil => simp [lookup]
  | cons field rest ih =>
      rw [lookup_cons, Option.isSome_or, Bool.or_eq_true, ih, List.map_cons, List.mem_cons,
        or_comm]
      apply or_congr_left
      by_cases hkey : field.1 = key
      · simp [hkey]
      · simp [hkey, Ne.symm hkey]

theorem mem_of_lookup {fields : List (String × Json ν)} {key : String} {value : Json ν}
    (hlookup : lookup fields key = some value) : (key, value) ∈ fields := by
  induction fields with
  | nil => cases hlookup
  | cons field rest ih =>
      rw [lookup_cons, Option.or_eq_some_iff] at hlookup
      rcases hlookup with hlater | ⟨-, hhere⟩
      · exact List.mem_cons_of_mem _ (ih hlater)
      · split at hhere
        · rename_i hkey
          cases hhere
          rw [← hkey]
          exact List.mem_cons_self
        · cases hhere

theorem lookup_append (fields others : List (String × Json ν)) (key : String) :
    lookup (fields ++ others) key = (lookup others key).or (lookup fields key) := by
  rw [lookup, List.foldl_append, foldl_lookup]
  rfl

theorem lookup_filter (fields : List (String × Json ν)) (keep : String → Bool) (key : String) :
    lookup (fields.filter fun field => keep field.1) key =
      if keep key then lookup fields key else none := by
  induction fields with
  | nil => simp [lookup]
  | cons field rest ih =>
      rw [List.filter_cons, lookup_cons]
      by_cases hkey : field.1 = key
      · subst hkey
        by_cases hkeep : keep field.1 = true
        · rw [if_pos hkeep, lookup_cons, ih, if_pos hkeep, if_pos hkeep]
        · rw [if_neg hkeep, ih, if_neg hkeep, if_neg hkeep]
      · rw [if_neg hkey, Option.or_none, ← ih]
        split
        · rw [lookup_cons, if_neg hkey, Option.or_none]
        · rfl

theorem lookup_mapFields (f : ν → μ) (fields : List (String × Json ν)) (key : String) :
    lookup (mapFields f fields) key = (lookup fields key).map (map f) := by
  induction fields with
  | nil => rfl
  | cons field rest ih =>
      rw [mapFields, lookup_cons, lookup_cons, ih]
      dsimp only
      cases lookup rest key with
      | some value => rfl
      | none => split <;> rfl

theorem field?_map (f : ν → μ) (key : String) (json : Json ν) :
    (json.map f).field? key = (json.field? key).map (map f) := by
  cases json with
  | record fields =>
      rw [map]
      exact lookup_mapFields f fields key
  | _ => rfl

theorem mem_insertIndex {n : Nat} {key other : String} {indexed : List (Nat × String)} :
    other ∈ (insertIndex n key indexed).map Prod.snd ↔
      other = key ∨ other ∈ indexed.map Prod.snd := by
  induction indexed with
  | nil => simp [insertIndex]
  | cons entry rest ih =>
      rw [insertIndex]
      split
      · simp
      · rw [List.map_cons, List.mem_cons, ih, List.map_cons, List.mem_cons]
        exact or_left_comm

/-- Listing keys in their order leaves none out. -/
theorem mem_orderedKeys {keys : List String} {key : String} :
    key ∈ orderedKeys keys ↔ key ∈ keys := by
  unfold orderedKeys
  dsimp only
  rw [List.mem_append, List.mem_filter]
  refine (or_congr_left (b := key ∈ keys ∧ (index? key).isSome) ?_).trans ?_
  · -- the indices are inserted one by one
    induction keys with
    | nil => simp
    | cons other rest ih =>
        rw [List.foldr_cons]
        cases hindex : index? other with
        | none =>
            dsimp only
            rw [ih, List.mem_cons]
            constructor
            · exact fun ⟨hmem, hsome⟩ => ⟨.inr hmem, hsome⟩
            · rintro ⟨rfl | hmem, hsome⟩
              · rw [hindex] at hsome
                cases hsome
              · exact ⟨hmem, hsome⟩
        | some n =>
            dsimp only
            rw [mem_insertIndex, ih, List.mem_cons]
            constructor
            · rintro (rfl | ⟨hmem, hsome⟩)
              · exact ⟨.inl rfl, by rw [hindex]; rfl⟩
              · exact ⟨.inr hmem, hsome⟩
            · rintro ⟨rfl | hmem, hsome⟩
              · exact .inl rfl
              · exact .inr ⟨hmem, hsome⟩
  · cases index? key <;> simp

/-- The keys of a record are those of its fields. -/
theorem mem_keys {fields : List (String × Json ν)} {key : String} :
    key ∈ keys fields ↔ key ∈ fields.map Prod.fst := by
  rw [keys, mem_orderedKeys, List.mem_eraseDups]

/-! ## Paths -/

/-- The value at a path of keys. -/
def at? : List String → Json ν → Option (Json ν)
  | [], json => some json
  | key :: path, json => (json.field? key).bind (at? path)

/-- The value with another one at a path of keys. -/
def replaceAt : Json ν → List String → Json ν → Json ν
  | _, [], new => new
  | .record fields, key :: path, new =>
      .record (fields.map fun field =>
        if field.1 = key then (key, field.2.replaceAt path new) else field)
  | json, _ :: _, _ => json

@[simp] theorem at?_nil (json : Json ν) : json.at? [] = some json := by
  rw [at?]

@[simp] theorem at?_cons (key : String) (path : List String) (json : Json ν) :
    json.at? (key :: path) = (json.field? key).bind (at? path) := by
  rw [at?]

theorem at?_singleton (key : String) (json : Json ν) : json.at? [key] = json.field? key := by
  rw [at?_cons]
  cases json.field? key <;> simp

theorem at?_pair (key next : String) (json : Json ν) :
    json.at? [key, next] = (json.field? key).bind (field? next) := by
  rw [at?_cons]
  cases json.field? key with
  | none => rfl
  | some value => exact at?_singleton next value

theorem at?_append (path rest : List String) (json : Json ν) :
    json.at? (path ++ rest) = (json.at? path).bind (at? rest) := by
  induction path generalizing json with
  | nil => simp
  | cons key path ih =>
      rw [List.cons_append, at?_cons, at?_cons]
      cases json.field? key with
      | none => rfl
      | some value => exact ih value

theorem at?_concat (path : List String) (key : String) (json : Json ν) :
    json.at? (path ++ [key]) = (json.at? path).bind (field? key) := by
  rw [at?_append]
  cases json.at? path with
  | none => rfl
  | some value => exact at?_singleton key value

theorem at?_map (f : ν → μ) (path : List String) (json : Json ν) :
    (json.map f).at? path = (json.at? path).map (map f) := by
  induction path generalizing json with
  | nil => simp
  | cons key path ih =>
      rw [at?_cons, at?_cons, field?_map]
      cases json.field? key with
      | none => rfl
      | some value => exact ih value

theorem lookup_replaceAt (fields : List (String × Json ν)) (key : String) (path : List String)
    (new : Json ν) (other : String) :
    lookup (fields.map fun field =>
        if field.1 = key then (key, field.2.replaceAt path new) else field) other =
      if other = key then (lookup fields key).map fun value => value.replaceAt path new
      else lookup fields other := by
  induction fields with
  | nil => simp [lookup]
  | cons field rest ih =>
      rw [List.map_cons, lookup_cons, lookup_cons, lookup_cons, ih]
      by_cases hother : other = key
      · rw [if_pos hother, if_pos hother, hother]
        by_cases hfield : field.1 = key
        · cases lookup rest key <;> simp [hfield]
        · cases lookup rest key <;> simp [hfield]
      · rw [if_neg hother, if_neg hother]
        by_cases hfield : field.1 = key
        · simp [hfield, Ne.symm hother]
        · simp [hfield]

theorem field?_replaceAt (json : Json ν) (key : String) (path : List String) (new : Json ν)
    (other : String) :
    (json.replaceAt (key :: path) new).field? other =
      if other = key then (json.field? key).map fun value => value.replaceAt path new
      else json.field? other := by
  cases json with
  | record fields =>
      rw [replaceAt]
      exact lookup_replaceAt fields key path new other
  | _ => simp [replaceAt, field?]

/-- Of a replacement further down, a value on the way keeps all the rest. -/
theorem at?_replaceAt_append (json : Json ν) (path rest : List String) (new : Json ν) :
    (json.replaceAt (path ++ rest) new).at? path =
      (json.at? path).map fun value => value.replaceAt rest new := by
  induction path generalizing json with
  | nil => simp
  | cons key path ih =>
      rw [List.cons_append, at?_cons, at?_cons, field?_replaceAt, if_pos rfl]
      cases json.field? key with
      | none => rfl
      | some value => exact ih value

theorem at?_replaceAt_self (json : Json ν) (path : List String) (new : Json ν) :
    (json.replaceAt path new).at? path = (json.at? path).map fun _ => new := by
  have hself := at?_replaceAt_append json path [] new
  rw [List.append_nil] at hself
  rw [hself]
  simp only [replaceAt]

/-- A replacement is not seen at a path that is apart from its own. -/
theorem at?_replaceAt_of_apart {path other : List String} (json : Json ν) (new : Json ν)
    (hpath : ¬path <+: other) (hother : ¬other <+: path) :
    (json.replaceAt path new).at? other = json.at? other := by
  induction path generalizing other json with
  | nil => exact absurd (List.nil_prefix) hpath
  | cons key path ih =>
      cases other with
      | nil => exact absurd (List.nil_prefix) hother
      | cons key' other =>
          rw [at?_cons, at?_cons, field?_replaceAt]
          by_cases hkey : key' = key
          · subst hkey
            rw [if_pos rfl]
            cases json.field? key' with
            | none => rfl
            | some value =>
                rw [List.cons_prefix_cons] at hpath hother
                exact ih value (fun h => hpath ⟨rfl, h⟩) (fun h => hother ⟨rfl, h⟩)
          · rw [if_neg hkey]

/-! ## Putting a value -/

/-- The fields with a value under a key: in the place of what stands under it, or else at the
end. -/
def setField (fields : List (String × Json ν)) (key : String) (value : Json ν) :
    List (String × Json ν) :=
  if key ∈ fields.map Prod.fst then
    fields.map fun field => if field.1 = key then (key, value) else field
  else fields ++ [(key, value)]

theorem lookup_setField (fields : List (String × Json ν)) (key : String) (value : Json ν)
    (other : String) :
    lookup (setField fields key value) other =
      if other = key then some value else lookup fields other := by
  unfold setField
  split
  · rename_i hmem
    have hreplaced := lookup_replaceAt fields key [] value other
    simp only [replaceAt] at hreplaced
    rw [hreplaced]
    obtain ⟨old, hold⟩ := Option.isSome_iff_exists.mp (lookup_isSome_iff.mpr hmem)
    rw [hold]
    rfl
  · rw [lookup_append, lookup_cons]
    by_cases hother : other = key
    · rw [if_pos hother, if_pos hother.symm]
      rfl
    · rw [if_neg hother, if_neg (Ne.symm hother)]
      rfl

/-- A value can stand at a path if its last key belongs to a record. -/
def HasPlaceAt (json : Json ν) (path : List String) : Prop :=
  path ≠ [] → ∃ fields, json.at? path.dropLast = some (.record fields)

/-- The value with another one put at a path of keys, where it can stand; an absent last key is
added to its record. -/
def putAt (json : Json ν) (path : List String) (new : Json ν) : Json ν :=
  match path.getLast?, json.at? path.dropLast with
  | none, _ => new
  | some key, some (.record fields) =>
      json.replaceAt path.dropLast (.record (setField fields key new))
  | some _, _ => json

theorem putAt_nil (json new : Json ν) : json.putAt [] new = new := by
  rw [putAt, List.getLast?_nil]

theorem putAt_concat {json : Json ν} {outer : List String} {fields : List (String × Json ν)}
    (hrecord : json.at? outer = some (.record fields)) (key : String) (new : Json ν) :
    json.putAt (outer ++ [key]) new = json.replaceAt outer (.record (setField fields key new)) := by
  rw [putAt, List.getLast?_concat, List.dropLast_concat, hrecord]

theorem HasPlaceAt.exists_fields {json : Json ν} {outer : List String} {key : String}
    (hplace : json.HasPlaceAt (outer ++ [key])) :
    ∃ fields, json.at? outer = some (.record fields) := by
  have hfields := hplace (List.append_ne_nil_of_right_ne_nil _ (List.cons_ne_nil _ _))
  rwa [List.dropLast_concat] at hfields

theorem HasPlaceAt.cases {json : Json ν} {path : List String} (hplace : json.HasPlaceAt path) :
    path = [] ∨ ∃ outer key fields, path = outer ++ [key] ∧
      json.at? outer = some (.record fields) := by
  rcases List.eq_nil_or_concat path with rfl | ⟨outer, key, rfl⟩
  · exact .inl rfl
  · rw [List.concat_eq_append] at hplace ⊢
    obtain ⟨fields, hfields⟩ := hplace.exists_fields
    exact .inr ⟨outer, key, fields, rfl, hfields⟩

/-- What stands at a path has its place there. -/
theorem hasPlaceAt_of_at? {json value : Json ν} {path : List String}
    (hat : json.at? path = some value) : json.HasPlaceAt path := by
  rcases List.eq_nil_or_concat path with rfl | ⟨outer, key, rfl⟩
  · exact fun hempty => absurd rfl hempty
  · rw [List.concat_eq_append] at hat ⊢
    rw [at?_concat, Option.bind_eq_some_iff] at hat
    obtain ⟨outermost, houter, hfield⟩ := hat
    intro _
    rw [List.dropLast_concat]
    cases outermost with
    | record fields => exact ⟨fields, houter⟩
    | _ => cases hfield

/-- Where no value can stand, none is put. -/
theorem putAt_of_not_hasPlaceAt {json : Json ν} {path : List String}
    (hplace : ¬json.HasPlaceAt path) (new : Json ν) : json.putAt path new = json := by
  rw [HasPlaceAt, Classical.not_imp] at hplace
  obtain ⟨hpath, hnone⟩ := hplace
  unfold putAt
  split
  · rename_i hlast
    exact absurd (List.getLast?_eq_none_iff.mp hlast) hpath
  · rename_i fields _ hfields
    exact absurd ⟨fields, hfields⟩ hnone
  · rfl

/-- What is put at a path is found there. -/
theorem at?_putAt_append {json : Json ν} {path : List String} (hplace : json.HasPlaceAt path)
    (rest : List String) (new : Json ν) :
    (json.putAt path new).at? (path ++ rest) = new.at? rest := by
  rcases hplace.cases with rfl | ⟨outer, key, fields, rfl, hfields⟩
  · rw [putAt_nil, List.nil_append]
  · rw [putAt_concat hfields, List.append_assoc, at?_append, at?_replaceAt_self, hfields]
    show ((Json.record (setField fields key new)).at? (key :: rest)) = _
    rw [at?_cons, field?, lookup_setField, if_pos rfl]
    rfl

/-- What is put under one key is not seen under another key of the record. -/
theorem at?_putAt_beside (json : Json ν) (outer : List String) {key other : String}
    (hother : other ≠ key) (rest : List String) (new : Json ν) :
    (json.putAt (outer ++ [key]) new).at? (outer ++ other :: rest) =
      json.at? (outer ++ other :: rest) := by
  by_cases hplace : json.HasPlaceAt (outer ++ [key])
  · obtain ⟨fields, hfields⟩ := hplace.exists_fields
    rw [putAt_concat hfields, at?_append, at?_append, at?_replaceAt_self, hfields]
    show (Json.record (setField fields key new)).at? (other :: rest) =
      (Json.record fields).at? (other :: rest)
    rw [at?_cons, at?_cons, field?, field?, lookup_setField, if_neg hother]
  · rw [putAt_of_not_hasPlaceAt hplace]

/-- A path that goes on from the record of another one, but not from its last key. -/
theorem exists_of_prefix {outer other : List String} {key : String} (houter : outer <+: other)
    (hpath : ¬outer ++ [key] <+: other) :
    other = outer ∨ ∃ next rest, next ≠ key ∧ other = outer ++ next :: rest := by
  obtain ⟨rest, rfl⟩ := houter
  cases rest with
  | nil => exact .inl (List.append_nil _)
  | cons next rest =>
      refine .inr ⟨next, rest, ?_, rfl⟩
      rintro rfl
      exact hpath ⟨rest, by rw [List.append_assoc]; rfl⟩

/-- What is put at a path is not seen at a path that is apart from it. -/
theorem at?_putAt_of_apart (json : Json ν) {path other : List String} (new : Json ν)
    (hpath : ¬path <+: other) (hother : ¬other <+: path) :
    (json.putAt path new).at? other = json.at? other := by
  by_cases hplace : json.HasPlaceAt path
  · rcases hplace.cases with rfl | ⟨outer, key, fields, rfl, hfields⟩
    · exact absurd List.nil_prefix hpath
    · -- the other path leaves this one at the record that gets the value, or before it
      by_cases houter : outer <+: other
      · rcases exists_of_prefix houter hpath with rfl | ⟨next, rest, hnext, rfl⟩
        · exact absurd (List.prefix_append _ _) hother
        · exact at?_putAt_beside json outer hnext rest new
      · rw [putAt_concat hfields]
        exact at?_replaceAt_of_apart json _ houter fun hinside =>
          hother (hinside.trans (List.prefix_append _ _))
  · rw [putAt_of_not_hasPlaceAt hplace]

end AccountRegistry.Json
