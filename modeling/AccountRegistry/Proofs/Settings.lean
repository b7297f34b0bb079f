import AccountRegistry.Proofs.SpecRanges

/-!
# The settings that an environment gives

The registry reads five variables.  Each one has its own rule for a text (`Variable.Accepts`), and
one that is not set fits as well.

* `readRegistry_reports`: there is one issue for each variable that does not fit, in the order of
  the variables, and no other issue.
* `readRegistry_valid`: the settings say what is written in the variables.
* `exists_load_iff`, `issues_of_load`: settings are loaded if every variable fits, and otherwise
  there is a fault of those issues.
-/

namespace AccountRegistry.Settings

/-- The variables that the registry reads. -/
inductive Variable where
  | mode
  | level
  | specPath
  | address
  | owner
  deriving DecidableEq

namespace Variable

/-- The name of a variable. -/
def name : Variable → String
  | .mode => "NODE_ENV"
  | .level => "LOG_LEVEL"
  | .specPath => "REGISTRY_SPEC_PATH"
  | .address => "REGISTRY_ADDRESS"
  | .owner => "REGISTRY_OWNER"

/-- Every variable, in the order in which they are read. -/
def all : List Variable := [.mode, .level, .specPath, .address, .owner]

theorem mem_all (var : Variable) : var ∈ all := by
  cases var <;> decide

theorem name_injective : Function.Injective name := by
  intro first second
  cases first <;> cases second <;> decide

/-- The texts that a variable can be set to. -/
def Accepts : Variable → String → Prop
  | .mode, text => text ∈ ["development", "production", "test"]
  | .level, text => text ∈ ["trace", "debug", "info", "warn", "error", "silent"]
  | .specPath, text => text ≠ ""
  | .address, text => ∃ address, Address.parseNative text = .ok address
  | .owner, text => ∃ address, Address.parseNative text = .ok address

theorem parses_iff_isSome {text : String} :
    (Address.parseNative text).toOption.isSome ↔
      ∃ address, Address.parseNative text = .ok address := by
  cases Address.parseNative text with
  | ok address => simp [Except.toOption]
  | error fault => simp [Except.toOption]

instance (text : String) : (var : Variable) → Decidable (var.Accepts text)
  | .mode => inferInstanceAs (Decidable (text ∈ ["development", "production", "test"]))
  | .level => inferInstanceAs
      (Decidable (text ∈ ["trace", "debug", "info", "warn", "error", "silent"]))
  | .specPath => inferInstanceAs (Decidable (text ≠ ""))
  | .address => decidable_of_iff _ parses_iff_isSome
  | .owner => decidable_of_iff _ parses_iff_isSome

/-- A variable is not set, or it is set to a text that it accepts. -/
def Fits (var : Variable) (environment : Environment) : Prop :=
  ∀ text ∈ environment.get? var.name, var.Accepts text

instance (var : Variable) (environment : Environment) : Decidable (var.Fits environment) :=
  inferInstanceAs (Decidable (∀ text ∈ environment.get? var.name, var.Accepts text))

variable {var : Variable} {environment : Environment} {text : String}

theorem fits_of_absent (habsent : environment.get? var.name = none) : var.Fits environment := by
  intro text htext
  cases habsent.symm.trans htext

theorem fits_iff_of_set (hset : environment.get? var.name = some text) :
    var.Fits environment ↔ var.Accepts text := by
  constructor
  · exact fun hfits => hfits text hset
  · intro haccepts other hother
    cases hset.symm.trans hother
    exact haccepts

end Variable

/-! ## Issues -/

/-- The paths at which some variables are reported: one for each that does not fit, in their
order. -/
def misfits (environment : Environment) (among : List Variable) : List (List String) :=
  (among.filter fun var => ¬var.Fits environment).map fun var => [var.name]

/-- A checked value reports those of some variables that do not fit in an environment, and it is
valid if there are none. -/
structure Reports {α : Type} (environment : Environment) (among : List Variable)
    (checked : Checked α) : Prop where
  paths : checked.issues.map Issue.path = misfits environment among
  valid : (∀ var ∈ among, var.Fits environment) → ∃ value, checked = .valid value

section Reporting

variable {α β : Type} {environment : Environment} {among others : List Variable} {var : Variable}

theorem Reports.map {checked : Checked α} (hreports : Reports environment among checked)
    (f : α → β) : Reports environment among (checked.map f) where
  paths := by rw [Checked.issues_map]; exact hreports.paths
  valid := by
    intro hfits
    obtain ⟨value, hvalid⟩ := hreports.valid hfits
    exact ⟨f value, by rw [hvalid]; rfl⟩

/-- What is read next reports after what was read before. -/
theorem Reports.apply {function : Checked (α → β)} {checked : Checked α}
    (hfunction : Reports environment among function)
    (hchecked : Reports environment others checked) :
    Reports environment (among ++ others) (function.apply checked) where
  paths := by
    rw [Checked.issues_apply, List.map_append, hfunction.paths, hchecked.paths, misfits, misfits,
      misfits, List.filter_append, List.map_append]
  valid := by
    intro hfits
    obtain ⟨hhere, hthere⟩ := List.forall_mem_append.mp hfits
    obtain ⟨f, hf⟩ := hfunction.valid hhere
    obtain ⟨value, hvalue⟩ := hchecked.valid hthere
    exact ⟨f value, by rw [hf, hvalue]; rfl⟩

theorem Reports.of_fits {value : α} (hfits : var.Fits environment) :
    Reports environment [var] (.valid value) where
  paths := by simp [misfits, hfits, Checked.issues]
  valid := fun _ => ⟨value, rfl⟩

theorem Reports.of_not_fits (hunfit : ¬var.Fits environment) (complaint : Complaint) :
    Reports environment [var] (.issue [var.name] complaint : Checked α) where
  paths := by simp [misfits, hunfit, Checked.issues, Checked.issue]
  valid := fun hfits => absurd (hfits var List.mem_cons_self) hunfit

/-- A variable is read as one of some options. -/
theorem readOption_reports (var : Variable) {options : List α} {label : α → String}
    (hoptions : ∀ text, var.Accepts text ↔ text ∈ options.map label) (default : α) :
    Reports environment [var] (readOption var.name options label default environment) := by
  unfold readOption
  split
  · rename_i habsent
    exact .of_fits (Variable.fits_of_absent habsent)
  · rename_i text hset
    have hfits := (Variable.fits_iff_of_set hset).trans (hoptions text)
    split
    · rename_i option hoption
      have hlabel := List.find?_some hoption
      exact .of_fits (hfits.mpr (List.mem_map.mpr
        ⟨option, List.mem_of_find?_eq_some hoption, of_decide_eq_true hlabel⟩))
    · rename_i hnone
      refine .of_not_fits (fun hfit => ?_) _
      obtain ⟨option, hoption, hlabel⟩ := List.mem_map.mp (hfits.mp hfit)
      exact List.find?_eq_none.mp hnone option hoption (decide_eq_true hlabel)

/-- A variable is read as what its text says. -/
theorem readOptional_reports (var : Variable) {read : String → Except Complaint α}
    (hread : ∀ text, var.Accepts text ↔ ∃ value, read text = .ok value) :
    Reports environment [var] (readOptional var.name read environment) := by
  unfold readOptional
  split
  · rename_i habsent
    exact .of_fits (Variable.fits_of_absent habsent)
  · rename_i text hset
    have hfits := (Variable.fits_iff_of_set hset).trans (hread text)
    split
    · rename_i value hvalue
      exact .of_fits (hfits.mpr ⟨value, hvalue⟩)
    · rename_i complaint hcomplaint
      refine .of_not_fits (fun hfit => ?_) complaint
      obtain ⟨value, hvalue⟩ := hfits.mp hfit
      cases hcomplaint.symm.trans hvalue

end Reporting

theorem path_eq_ok {text result : String} : path text = .ok result ↔ text ≠ "" ∧ text = result := by
  unfold path
  split
  · rename_i hempty
    simp [hempty]
  · rename_i hfilled
    rw [Except.ok.injEq, and_iff_right hfilled]

theorem nativeAddress_eq_ok {text : String} {address : Int} :
    nativeAddress text = .ok address ↔ Address.parseNative text = .ok address := by
  unfold nativeAddress
  split
  · rename_i hparsed
    rw [hparsed]
    simp
  · rename_i hparsed
    rw [hparsed]
    simp

/-- An environment is read with one issue for each variable that does not fit. -/
theorem readRegistry_reports (environment : Environment) :
    Reports environment Variable.all (readRegistry environment) := by
  have hmode : Reports environment [.mode] (readOption "NODE_ENV"
      [Mode.development, .production, .test] Mode.label .development environment) :=
    readOption_reports .mode (fun _ => Iff.rfl) Mode.development
  have hlevel : Reports environment [.level] (readOption "LOG_LEVEL"
      [Log.Level.trace, .debug, .info, .warn, .error, .silent] Log.Level.label .info environment) :=
    readOption_reports .level (fun _ => Iff.rfl) Log.Level.info
  have hspecPath : Reports environment [.specPath]
      (readOptional "REGISTRY_SPEC_PATH" path environment) :=
    readOptional_reports .specPath fun text => by simp [path_eq_ok, Variable.Accepts]
  have haddress : Reports environment [.address]
      (readOptional "REGISTRY_ADDRESS" nativeAddress environment) :=
    readOptional_reports .address fun text => by
      simp [nativeAddress_eq_ok, Variable.Accepts]
  have howner : Reports environment [.owner]
      (readOptional "REGISTRY_OWNER" nativeAddress environment) :=
    readOptional_reports .owner fun text => by
      simp [nativeAddress_eq_ok, Variable.Accepts]
  have hbase : Reports environment [.mode, .level] (readBase environment) :=
    (hmode.map BaseSettings.mk).apply hlevel
  exact (((hbase.map RegistrySettings.mk).apply hspecPath).apply haddress).apply howner

/-! ## Settings -/

/-- The settings say what is written in the variables; a mode and a level that are not set have
defaults, and whatever else is not set is missing. -/
structure Reads (environment : Environment) (settings : RegistrySettings) : Prop where
  mode : settings.base.mode.label = (environment.get? "NODE_ENV").getD "development"
  level : settings.base.level.label = (environment.get? "LOG_LEVEL").getD "info"
  specPath : settings.specPath = environment.get? "REGISTRY_SPEC_PATH"
  address : Option.Rel (fun text address => Address.parseNative text = .ok address)
    (environment.get? "REGISTRY_ADDRESS") settings.address
  owner : Option.Rel (fun text address => Address.parseNative text = .ok address)
    (environment.get? "REGISTRY_OWNER") settings.owner

theorem readOption_valid {α : Type} {name : String} {options : List α} {label : α → String}
    {default value : α} {environment : Environment}
    (hread : readOption name options label default environment = .valid value) :
    label value = (environment.get? name).getD (label default) := by
  unfold readOption at hread
  split at hread
  · rename_i habsent
    cases hread
    rw [habsent]
    rfl
  · rename_i text hset
    split at hread
    · rename_i option hoption
      have hlabel := List.find?_some hoption
      cases hread
      rw [hset]
      exact of_decide_eq_true hlabel
    · cases hread

theorem readOptional_rel {α : Type} {name : String} {read : String → Except Complaint α}
    {environment : Environment} {r : String → α → Prop} {value : Option α}
    (hr : ∀ text value, read text = .ok value → r text value)
    (hread : readOptional name read environment = .valid value) :
    Option.Rel r (environment.get? name) value := by
  cases value with
  | some value =>
      obtain ⟨text, hset, htext⟩ := readOptional_valid hread
      rw [hset]
      exact .some (hr text value htext)
  | none =>
      unfold readOptional at hread
      split at hread
      · rename_i habsent
        rw [habsent]
        exact .none
      · split at hread <;> cases hread

/-- Settings that were read say what is written in the variables. -/
theorem readRegistry_valid {environment : Environment} {settings : RegistrySettings}
    (hread : readRegistry environment = .valid settings) : Reads environment settings := by
  obtain ⟨_, owner, hthree, howner, rfl⟩ := Checked.apply_eq_valid.mp hread
  obtain ⟨_, address, htwo, haddress, rfl⟩ := Checked.apply_eq_valid.mp hthree
  obtain ⟨_, specPath, hone, hspecPath, rfl⟩ := Checked.apply_eq_valid.mp htwo
  obtain ⟨base, hbase, rfl⟩ := Checked.map_eq_valid.mp hone
  obtain ⟨_, level, hmap, hlevel, rfl⟩ := Checked.apply_eq_valid.mp hbase
  obtain ⟨mode, hmode, rfl⟩ := Checked.map_eq_valid.mp hmap
  refine ⟨readOption_valid hmode, readOption_valid hlevel, ?_, ?_, ?_⟩
  · have hpath : Option.Rel Eq (environment.get? "REGISTRY_SPEC_PATH") specPath :=
      readOptional_rel (fun _ _ hok => (path_eq_ok.mp hok).2) hspecPath
    generalize environment.get? "REGISTRY_SPEC_PATH" = found at hpath
    cases hpath with
    | none => rfl
    | some hsame => exact congrArg some hsame.symm
  · exact readOptional_rel (fun _ _ => nativeAddress_eq_ok.mp) haddress
  · exact readOptional_rel (fun _ _ => nativeAddress_eq_ok.mp) howner

/-! ## Loading -/

variable {environment : Environment}

theorem reads_of_load {settings : RegistrySettings}
    (hload : load readRegistry environment = .ok settings) : Reads environment settings :=
  readRegistry_valid (Checked.mapError_toExcept_eq_ok.mp hload)

theorem mem_misfits {var : Variable} :
    [var.name] ∈ misfits environment Variable.all ↔ ¬var.Fits environment := by
  rw [misfits, List.mem_map]
  constructor
  · rintro ⟨other, hother, hname⟩
    rw [← Variable.name_injective (List.singleton_inj.mp hname)]
    exact of_decide_eq_true (List.mem_filter.mp hother).2
  · intro hunfit
    exact ⟨var, List.mem_filter.mpr ⟨var.mem_all, decide_eq_true hunfit⟩, rfl⟩

/-- Settings are loaded exactly if every variable fits. -/
theorem exists_load_iff :
    (∃ settings, load readRegistry environment = .ok settings) ↔
      ∀ var : Variable, var.Fits environment := by
  have hreports := readRegistry_reports environment
  constructor
  · rintro ⟨settings, hload⟩ var
    have hpaths := hreports.paths
    rw [Checked.mapError_toExcept_eq_ok.mp hload] at hpaths
    -- a variable that does not fit would have been reported
    by_contra hunfit
    have hmem := mem_misfits.mpr hunfit
    rw [← hpaths] at hmem
    cases hmem
  · intro hfits
    obtain ⟨settings, hvalid⟩ := hreports.valid fun var _ => hfits var
    exact ⟨settings, Checked.mapError_toExcept_eq_ok.mpr hvalid⟩

/-- Loading fails with one issue for each variable that does not fit, and no other. -/
theorem issues_of_load {fault : Fault} (hload : load readRegistry environment = .error fault) :
    ∃ issues, fault = issuesFault issues ∧
      issues.map Issue.path = misfits environment Variable.all := by
  have hpaths := (readRegistry_reports environment).paths
  unfold load at hload
  cases hread : readRegistry environment with
  | valid settings =>
      rw [hread] at hload
      cases hload
  | invalid issues =>
      rw [hread] at hload hpaths
      cases hload
      exact ⟨issues, rfl, hpaths⟩

end AccountRegistry.Settings
