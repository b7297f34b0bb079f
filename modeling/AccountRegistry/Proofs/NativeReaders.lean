import AccountRegistry.Proofs.Settings
import AccountRegistry.Proofs.SpecNumbers
import AccountRegistry.Proofs.SpecReports
import AccountRegistry.Proofs.WrittenAddresses

/-!
# The readers of native addresses

A native address is read from a text by its parser, from a field of a spec and from a variable of an
environment.  The parser and the reader of specs have their own bounds; `ReadsAlike` says that a
reader treats a text as the parser does.

* `Spec.field_readsAlike`, `Settings.variable_readsAlike`: every field and every variable for native
  addresses does.
* `Address.native_addresses_are_read_alike`: so all of them accept the same texts, which are the
  numerals below a bound.
-/

namespace AccountRegistry

open Address

/-- A reader of something that holds a text at a path treats the text as the parser of native
addresses does.  It reports the path if the text does not parse, and only then; what it returns
holds the address that the text parses to; and if all else is well, it returns something exactly if
the text parses. -/
structure ReadsAlike {α : Type} (text : String) (path : List String) (issues : List Issue)
    (result : Except Fault α) (value : α → Option ℤ) (otherwiseValid : Prop) : Prop where
  reported : path ∈ issues.map Issue.path ↔ ¬∃ n, parseNative text = .ok n
  read : ∀ found, result = .ok found → ∃ n, parseNative text = .ok n ∧ value found = some n
  accepted : otherwiseValid →
    ((∃ found, result = .ok found) ↔ ∃ n, parseNative text = .ok n)

namespace Spec

/-- The fields that hold native addresses. -/
def nativeFields : List IntegerField := [.deployer, .owner, .nativeToken, .coinbase]

variable {field : IntegerField} {text : String} {data : Json Binary64} {n : ℤ}

theorem admits_of_mem (hfield : field ∈ nativeFields) (n : ℤ) :
    field.Admits n ↔ n < 2 ^ 251 - 256 := by
  simp only [nativeFields, List.mem_cons, List.not_mem_nil, or_false] at hfield
  rcases hfield with rfl | rfl | rfl | rfl <;> rfl

/-- What a text writes in a field for native addresses is what it parses to. -/
theorem writes_text_iff (hfield : field ∈ nativeFields) :
    field.Writes (.text text) n ↔ parseNative text = .ok n := by
  rw [parseNative_eq_ok, IntegerField.Writes, admits_of_mem hfield]
  constructor
  · rintro ⟨hwrites, hupper⟩
    cases hwrites with
    | numeral denotes => exact ⟨_, denotes, rfl, hupper⟩
  · rintro ⟨m, hdenotes, rfl, hupper⟩
    exact ⟨.numeral hdenotes, hupper⟩

theorem Location.path_injective : Function.Injective Location.path := fun _ _ hpath =>
  Location.text_injective (congrArg (String.intercalate ".") hpath)

/-- A field that holds a text is reported if the text does not parse, and only then. -/
theorem mem_paths_iff (hfield : field ∈ nativeFields)
    (hat : data.at? field.path = some (.text text)) :
    field.path ∈ (check (some data)).issues.map Issue.path ↔ ¬∃ n, parseNative text = .ok n := by
  obtain ⟨found, hreports⟩ := check_reports data
  have hkeeps : (Location.integer field).Keeps (some (.text text)) ↔
      ∃ n, parseNative text = .ok n := by
    simp [Location.Keeps, writes_text_iff hfield]
  have hoffends : (Location.integer field).Offends data ↔ ¬∃ n, parseNative text = .ok n := by
    -- where a text stands a value can stand, so only the rule of the field is left
    rw [← hkeeps, ← hat]
    exact and_iff_right (Json.hasPlaceAt_of_at? hat)
  rw [hreports.paths, ← hoffends]
  have hpath : field.path = (Location.integer field).path := rfl
  rw [hpath, List.mem_map_of_injective Location.path_injective, hreports.mem_iff,
    and_iff_right (Location.mem_all _)]

/-- A field of a spec that holds a text reads it as the parser does. -/
theorem field_readsAlike (hfield : field ∈ nativeFields)
    (hat : data.at? field.path = some (.text text)) :
    ReadsAlike text field.path (check (some data)).issues (validate (some data)) field.of
      (∃ other spec, validate (some (data.replaceAt field.path other)) = .ok spec) := by
  have hread (spec : Spec) (hvalid : validate (some data) = .ok spec) :
      ∃ n, parseNative text = .ok n ∧ field.of spec = some n := by
    have hwritten := (validate_eq_ok_iff.mp hvalid).integers field
    rw [hat, some_rel_iff] at hwritten
    obtain ⟨n, hn, hwrites⟩ := hwritten
    exact ⟨n, (writes_text_iff hfield).mp hwrites, hn⟩
  refine ⟨mem_paths_iff hfield hat, hread, ?_⟩
  rintro ⟨other, replaced, hreplaced⟩
  constructor
  · rintro ⟨spec, hvalid⟩
    exact (hread spec hvalid).imp fun _ => And.left
  · rintro ⟨n, hn⟩
    have hdocumented := (validate_eq_ok_iff.mp hreplaced).documented.of_replaceAt hat
      ⟨n, (writes_text_iff hfield).mpr hn⟩
    obtain ⟨spec, hdescribes⟩ := hdocumented.exists_describes
    exact ⟨spec, validate_eq_ok_iff.mpr hdescribes⟩

end Spec

namespace Settings

/-- The variables that hold native addresses. -/
def nativeVariables : List Variable := [.address, .owner]

/-- The address that a variable gives in settings. -/
def Variable.addressIn : Variable → RegistrySettings → Option ℤ
  | .address, settings => settings.address
  | .owner, settings => settings.owner
  | _, _ => none

variable {var : Variable} {text : String} {environment : Environment}

theorem accepts_iff_of_mem (hvar : var ∈ nativeVariables) :
    var.Accepts text ↔ ∃ n, parseNative text = .ok n := by
  simp only [nativeVariables, List.mem_cons, List.not_mem_nil, or_false] at hvar
  rcases hvar with rfl | rfl <;> rfl

theorem addressIn_of_reads {settings : RegistrySettings} (hvar : var ∈ nativeVariables)
    (hset : environment.get? var.name = some text) (hreads : Reads environment settings) :
    ∃ n, parseNative text = .ok n ∧ var.addressIn settings = some n := by
  have hrel : Option.Rel (fun text address => parseNative text = .ok address)
      (environment.get? var.name) (var.addressIn settings) := by
    simp only [nativeVariables, List.mem_cons, List.not_mem_nil, or_false] at hvar
    rcases hvar with rfl | rfl
    · exact hreads.address
    · exact hreads.owner
  rw [hset, Spec.some_rel_iff] at hrel
  obtain ⟨n, hn, hparsed⟩ := hrel
  exact ⟨n, hparsed, hn⟩

/-- A variable of an environment that is set to a text reads it as the parser does. -/
theorem variable_readsAlike (hvar : var ∈ nativeVariables)
    (hset : environment.get? var.name = some text) :
    ReadsAlike text [var.name] (readRegistry environment).issues
      (load readRegistry environment) var.addressIn
      (∀ other : Variable, other ≠ var → other.Fits environment) := by
  have hfits : var.Fits environment ↔ ∃ n, parseNative text = .ok n :=
    (Variable.fits_iff_of_set hset).trans (accepts_iff_of_mem hvar)
  refine ⟨?_, fun settings hload => addressIn_of_reads hvar hset (reads_of_load hload),
    fun hothers => ?_⟩
  · rw [(readRegistry_reports environment).paths, mem_misfits, hfits]
  · -- the text decides once all the other variables fit
    rw [exists_load_iff, ← hfits]
    refine ⟨fun hall => hall var, fun hfit other => ?_⟩
    by_cases hsame : other = var
    · rw [hsame]
      exact hfit
    · exact hothers other hsame

end Settings

namespace Address

/-- A text is a native address for the parser exactly if it is a numeral below `2 ^ 251 - 256`, and
every field of a spec and every variable of an environment that is for native addresses reads it as
the parser does. -/
theorem native_addresses_are_read_alike (text : String) :
    (∀ n : ℤ, parseNative text = .ok n ↔
      ∃ m : ℕ, Numeral.Denotes text.toList m ∧ n = m ∧ n < 2 ^ 251 - 256) ∧
    (∀ field ∈ Spec.nativeFields, ∀ data : Json Binary64,
      data.at? field.path = some (.text text) →
        ReadsAlike text field.path (Spec.check (some data)).issues (Spec.validate (some data))
          field.of (∃ other spec,
            Spec.validate (some (data.replaceAt field.path other)) = .ok spec)) ∧
    ∀ var ∈ Settings.nativeVariables, ∀ environment : Environment,
      environment.get? var.name = some text →
        ReadsAlike text [var.name] (Settings.readRegistry environment).issues
          (Settings.load Settings.readRegistry environment) var.addressIn
          (∀ other : Settings.Variable, other ≠ var → other.Fits environment) :=
  ⟨fun _ => parseNative_eq_ok, fun _ hfield _ hat => Spec.field_readsAlike hfield hat,
    fun _ hvar _ hset => Settings.variable_readsAlike hvar hset⟩

/-- The largest native address, in capitals and after zeros, is read everywhere; the number after it
is reported everywhere. -/
theorem native_addresses_are_read_alike_at_the_bound :
    let largest := "0x007FFFFFFFFFFFFFFFFFFFFFFFFFFFFFFFFFFFFFFFFFFFFFFFFFFFFFFFFFFFEFF"
    let next := "3618502788666131106986593281521497120414687020801267626233049500247285300992"
    let data (text : String) : Json Binary64 := .record [("id", .text "net"),
      ("chain_id", .text "1"), ("deployer", .text "1"), ("owner", .text text)]
    parseNative largest = .ok (2 ^ 251 - 257) ∧
      (∃ spec, Spec.validate (some (data largest)) = .ok spec ∧ spec.owner = 2 ^ 251 - 257) ∧
      (∃ settings, Settings.load Settings.readRegistry ⟨[("REGISTRY_OWNER", largest)]⟩ =
        .ok settings ∧ settings.owner = some (2 ^ 251 - 257)) ∧
      ["owner"] ∈ (Spec.check (some (data next))).issues.map Issue.path ∧
      ["REGISTRY_OWNER"] ∈
        (Settings.readRegistry ⟨[("REGISTRY_OWNER", next)]⟩).issues.map Issue.path := by
  intro largest next data
  have hnumeral : Numeral.read? largest.toList = some (2 ^ 251 - 257) := by decide +kernel
  have hlargest : parseNative largest = .ok (2 ^ 251 - 257) :=
    parseNative_eq_ok.mpr ⟨_, Numeral.read?_eq_some_iff.mp hnumeral, by norm_num, by norm_num⟩
  have hnext : ¬∃ n, parseNative next = .ok n := by
    rw [← Settings.Variable.parses_iff_isSome]
    decide +kernel
  have hat (text : String) : (data text).at? Spec.IntegerField.owner.path = some (.text text) := rfl
  have hset (text : String) : (⟨[("REGISTRY_OWNER", text)]⟩ : Environment).get?
      Settings.Variable.owner.name = some text := rfl
  obtain ⟨-, hfields, hvariables⟩ := native_addresses_are_read_alike largest
  have hfield := hfields .owner (by decide) _ (hat largest)
  have hvariable := hvariables .owner (by decide) _ (hset largest)
  obtain ⟨-, hnextFields, hnextVariables⟩ := native_addresses_are_read_alike next
  refine ⟨hlargest, ?_, ?_, (hnextFields .owner (by decide) _ (hat next)).reported.mpr hnext,
    (hnextVariables .owner (by decide) _ (hset next)).reported.mpr hnext⟩
  · have hotherwise : ∃ other spec, Spec.validate (some ((data largest).replaceAt
        Spec.IntegerField.owner.path other)) = .ok spec :=
      ⟨.text "2", ⟨"net", 1, 1, 2, none, [], none⟩, rfl⟩
    obtain ⟨spec, hvalid⟩ := (hfield.accepted hotherwise).mpr ⟨_, hlargest⟩
    obtain ⟨n, hn, hvalue⟩ := hfield.read spec hvalid
    cases hlargest.symm.trans hn
    exact ⟨spec, hvalid, Option.some.inj hvalue⟩
  · have hothers (other : Settings.Variable) (hne : other ≠ .owner) :
        other.Fits ⟨[("REGISTRY_OWNER", largest)]⟩ :=
      Settings.Variable.fits_of_absent (by cases other <;> first | rfl | exact absurd rfl hne)
    obtain ⟨settings, hload⟩ := (hvariable.accepted hothers).mpr ⟨_, hlargest⟩
    obtain ⟨n, hn, hvalue⟩ := hvariable.read settings hload
    cases hlargest.symm.trans hn
    exact ⟨settings, hload, hvalue⟩

end Address

end AccountRegistry
