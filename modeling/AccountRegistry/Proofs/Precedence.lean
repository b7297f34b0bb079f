import AccountRegistry.Proofs.Settings

/-!
# Where settings come from

A file of variables is loaded into the environment of the process before settings are read.  What
the process has set itself stays, even if it is empty, and of several values in the file the last
one is assigned, up to its first NUL.  Settings that are read from an explicit environment depend on
nothing else (`Settings.process_comes_before_file`).

The results are about files alone: a process that has both a key and a vault takes its variables
from the vault.
-/

namespace AccountRegistry

namespace EnvironmentFile

/-- The last value that a text writes for a name. -/
def WritesLast (text name value : String) : Prop :=
  ∃ before after, settings text = before ++ (name, value) :: after ∧
    ∀ setting ∈ after, setting.1 ≠ name

/-- The last value that a text assigns to a name: what it writes last for the name, as a variable
holds it. -/
def AssignsLast (text name value : String) : Prop :=
  ∃ written, WritesLast text name written ∧ Environment.upToNul written = value

theorem get?_ofText {text name value : String} :
    (ofText text).get? name = some value ↔ WritesLast text name value := by
  -- the first entry of the reversed list is the last assignment
  rw [ofText, Environment.get?, List.lookup_eq_some_iff]
  constructor
  · rintro ⟨after, before, hsettings, hafter⟩
    refine ⟨before.reverse, after.reverse, ?_, fun setting hsetting hname => ?_⟩
    · have hreverse := congrArg List.reverse hsettings
      simpa using hreverse
    · have hdiffers := hafter setting (List.mem_reverse.mp hsetting)
      simp [hname] at hdiffers
  · rintro ⟨before, after, hsettings, hafter⟩
    refine ⟨after.reverse, before.reverse, by simp [hsettings], fun setting hsetting => ?_⟩
    have hdiffers := hafter setting (List.mem_reverse.mp hsetting)
    simpa using Ne.symm hdiffers

theorem get?_environment {content : Content} {name value : String} :
    (environment content).get? name = some value ↔
      ∃ text, content.text? = some text ∧ WritesLast text name value := by
  unfold environment
  cases content.text? with
  | none => simp [Environment.get?]
  | some text => simp [get?_ofText]

/-- What is assigned from a file is what its text assigns last. -/
theorem assigned_environment {content : Content} {name value : String} :
    ((environment content).get? name).map Environment.upToNul = some value ↔
      ∃ text, content.text? = some text ∧ AssignsLast text name value := by
  rw [Option.map_eq_some_iff]
  constructor
  · rintro ⟨written, hwritten, hvalue⟩
    obtain ⟨text, htext, hlast⟩ := get?_environment.mp hwritten
    exact ⟨text, htext, written, hlast, hvalue⟩
  · rintro ⟨text, htext, written, hlast, hvalue⟩
    exact ⟨written, get?_environment.mpr ⟨text, htext, hlast⟩, hvalue⟩

/-- The path that is given for a file, or none. -/
def givenPath (given : Option String) : Value :=
  given.elim .absent .text

theorem places_givenPath (home : String) (given : Option String) :
    places home (givenPath given) = [path home (given.getD "")] := by
  cases given <;> rfl

variable {home : String} {directory : String → Content} {process : Environment}
  {given : Option String}

/-- Without a vault the file that is given is loaded, and nothing goes wrong. -/
theorem loadFrom_of_no_vault (hvault : vaultKey? process = none ∨
    vaultOf? home directory (givenPath given) = none) :
    (loadFrom home directory process (givenPath given)).environment =
        process.filledFrom (environment (directory (path home (given.getD "")))) ∧
      (loadFrom home directory process (givenPath given)).fault = none := by
  unfold loadFrom load
  rw [places_givenPath]
  split
  · -- only a key and a vault together take the place of the file
    rename_i hkey hfound
    rcases hvault with hnone | hnone
    · cases hkey.symm.trans hnone
    · cases hfound.symm.trans hnone
  · exact ⟨rfl, rfl⟩

end EnvironmentFile

namespace Settings

open EnvironmentFile

/-- What loading settings from an environment comes to: settings that say what is written in the
variables if all variables fit, and otherwise a fault with an issue for each one that does not. -/
structure LoadsFrom (environment : Environment) (result : Except Fault RegistrySettings) :
    Prop where
  reads : ∀ settings, result = .ok settings → Reads environment settings
  succeeds : (∃ settings, result = .ok settings) ↔ ∀ var : Variable, var.Fits environment
  fails : ∀ fault, result = .error fault → ∃ issues, fault = issuesFault issues ∧
    issues.map Issue.path = misfits environment Variable.all

theorem load_loadsFrom (environment : Environment) :
    LoadsFrom environment (load readRegistry environment) :=
  ⟨fun _ => reads_of_load, exists_load_iff, fun _ => issues_of_load⟩

theorem loadAfter_of_no_fault {loading : Loading} (hfault : loading.fault = none)
    (explicit : Option Environment) :
    loadAfter readRegistry loading explicit =
      load readRegistry (explicit.getD loading.environment) := by
  rw [loadAfter, hfault]

/-- Without an explicit environment, a variable that is read has the value of the process if it is
set there, and otherwise the last value that the file assigns.  An explicit environment is read
alone, whatever the process and the file contain. -/
theorem process_comes_before_file (home : String) (directory : String → Content)
    (process : Environment) (given : Option String)
    (hvault : vaultKey? process = none ∨ vaultOf? home directory (givenPath given) = none) :
    let loading := loadFrom home directory process (givenPath given)
    let file := directory (EnvironmentFile.path home (given.getD ""))
    (∀ (var : Variable) (value : String), loading.environment.get? var.name = some value ↔
        process.get? var.name = some value ∨ process.get? var.name = none ∧
          ∃ text, file.text? = some text ∧ AssignsLast text var.name value) ∧
      LoadsFrom loading.environment (loadAfter readRegistry loading none) ∧
      ∀ source, loadAfter readRegistry loading (some source) = load readRegistry source ∧
        LoadsFrom source (load readRegistry source) := by
  intro loading file
  obtain ⟨hfilled, hfault⟩ := loadFrom_of_no_vault hvault
  refine ⟨fun var value => ?_, ?_, fun source =>
    ⟨loadAfter_of_no_fault hfault (some source), load_loadsFrom source⟩⟩
  · rw [hfilled, Environment.get?_filledFrom, Option.or_eq_some_iff, assigned_environment]
  · rw [loadAfter_of_no_fault hfault none]
    exact load_loadsFrom loading.environment

/-- The process has an empty mode, which is no mode, and a level that the file cannot change; the
file assigns an owner twice, at last with a NUL behind it, and an address that is none.  Two
variables are reported.  An explicit environment is read without any of it. -/
theorem process_comes_before_file_and_both_are_checked :
    let text :=
      "LOG_LEVEL=trace\nREGISTRY_OWNER='7'\nREGISTRY_OWNER=\"0x10\x00f\"\nREGISTRY_ADDRESS=alice"
    let directory : String → Content := fun place =>
      if place = ".env" then .file (text.toList.map fun c => c.toNat.toUInt8) else .missing
    let process : Environment := ⟨[("NODE_ENV", ""), ("LOG_LEVEL", "warn")]⟩
    let loading := loadFrom "/root" directory process .absent
    loading.environment.get? "LOG_LEVEL" = some "warn" ∧
      loading.environment.get? "REGISTRY_OWNER" = some "0x10" ∧
      (∃ issues, loadAfter readRegistry loading none = .error (issuesFault issues) ∧
        issues.map Issue.path = [["NODE_ENV"], ["REGISTRY_ADDRESS"]]) ∧
      loadAfter readRegistry loading (some ⟨[("REGISTRY_OWNER", "0x10")]⟩) =
        .ok ⟨⟨.development, .info⟩, none, none, some 16⟩ := by
  intro text directory process loading
  have htext : (directory ".env").text? = some text := by decide +kernel
  have hsettings : settings text = [("LOG_LEVEL", "trace"), ("REGISTRY_OWNER", "7")] ++
      ("REGISTRY_OWNER", "0x10\x00f") :: [("REGISTRY_ADDRESS", "alice")] := by
    decide +kernel
  obtain ⟨hvalues, hloaded, hexplicit⟩ :=
    process_comes_before_file "/root" directory process none (.inl (by decide +kernel))
  have hassigned : AssignsLast text "REGISTRY_OWNER" "0x10" :=
    ⟨"0x10\x00f", ⟨_, _, hsettings, by decide +kernel⟩, by decide +kernel⟩
  have hlevel : loading.environment.get? "LOG_LEVEL" = some "warn" :=
    (hvalues .level _).mpr (.inl (by decide +kernel))
  have howner : loading.environment.get? "REGISTRY_OWNER" = some "0x10" :=
    (hvalues .owner _).mpr (.inr ⟨by decide +kernel, text, htext, hassigned⟩)
  have hmode : loading.environment.get? Variable.mode.name = some "" :=
    (hvalues .mode _).mpr (.inl (by decide +kernel))
  refine ⟨hlevel, howner, ?_, (hexplicit _).1.trans rfl⟩
  cases hresult : loadAfter readRegistry loading none with
  | ok settings =>
      have hfits := hloaded.succeeds.mp ⟨settings, hresult⟩ .mode
      exact absurd ((Variable.fits_iff_of_set hmode).mp hfits) (by decide)
  | error fault =>
      have hmisfits : misfits loading.environment Variable.all =
          [["NODE_ENV"], ["REGISTRY_ADDRESS"]] := by decide +kernel
      obtain ⟨issues, rfl, hpaths⟩ := hloaded.fails fault hresult
      exact ⟨issues, rfl, hpaths.trans hmisfits⟩

end Settings

end AccountRegistry
