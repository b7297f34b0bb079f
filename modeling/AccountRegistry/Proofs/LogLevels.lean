import AccountRegistry.Node
import AccountRegistry.Proofs.LogCalls
import AccountRegistry.Proofs.Precedence
import Mathlib.Data.List.Forall2

/-!
# The level that a node logs at

A node makes its logger from the variables that the process was started with.  After that it loads
the files into its environment and reads its settings, one of which is a level as well.  The two
levels agree if the process sets the level: no file changes a variable that is set.  If only a file
sets the level, the settings say so and the logger still has the default
(`Node.level_is_read_before_the_file`).

* `EnvironmentFile.get?_load_of_set`: what the process sets is kept by files and vaults.
* `Node.completes_iff`: what a process has come to when its first stage is complete.
* `Log.Session.logsAt_makeReady`: a logger that is ready logs at the level that it was made with.
-/

namespace AccountRegistry

/-! ## Variables that are set -/

namespace EnvironmentFile

variable {process : Environment} {name value : String}

theorem get?_filledFrom_of_set (hset : process.get? name = some value) (other : Environment) :
    (process.filledFrom other).get? name = some value := by
  rw [Environment.get?_filledFrom, hset, Option.some_or]

theorem get?_filled_of_set (hset : process.get? name = some value) (files : List Content) :
    (filled process files).get? name = some value := by
  induction files generalizing process with
  | nil => exact hset
  | cons file rest ih => exact ih (get?_filledFrom_of_set hset (environment file))

/-- What the process sets is kept by its files and by a vault. -/
theorem get?_load_of_set (hset : process.get? name = some value) (files : List Content)
    (vault : Option Content) : (load process files vault).environment.get? name = some value := by
  unfold load
  split
  · have hsealed := get?_filledFrom_of_set hset
    dsimp only
    split
    · exact get?_filledFrom_of_set (hsealed _) _
    · exact hsealed _
  · exact get?_filled_of_set hset files

end EnvironmentFile

/-! ## Levels of loggers -/

namespace Log

/-- Without the registry's own variable the general one gives the level. -/
theorem levelText_of_general {environment : Environment}
    (hown : environment.nonEmpty? "PINO_LEVEL" = none) :
    levelText environment = (environment.nonEmpty? "LOG_LEVEL").getD "info" := by
  rw [levelText, hown]

namespace Session

/-- A session logs at a level: of the entries that it comes to the end of, it writes those of at
least that level and no other, and it comes to the end unless the cause of one that is to be
written cannot be. -/
structure LogsAt (session : Session) (level : Level) : Prop where
  writes : ∀ (entries : List Entry) (after : Session) (written : List (List Line)),
    session.run (entries.map Use.entry) = .ok (after, written) →
      List.Forall₂ (fun entry lines => lines ≠ [] ↔ level.rank ≤ entry.severity.level.rank)
        entries written
  ends : ∀ entries : List Entry,
    (∃ result, session.run (entries.map Use.entry) = .ok result) ↔
      ∀ entry ∈ entries, level.rank ≤ entry.severity.level.rank → entry.Explicable

/-- A logger that is ready logs at the level that it was made with, whatever its environment. -/
theorem logsAt_makeReady (logger : Logger) (environment : Environment) :
    LogsAt ⟨logger.makeReady.1, environment⟩ logger.level where
  writes := by
    intro entries after written hrun
    obtain ⟨-, -, rfl⟩ := run_entries_eq_ok.mp hrun
    exact List.forall₂_map_right_iff.mpr (List.forall₂_same.mpr fun _ _ => lines_makeReady_ne_nil)
  ends := fun _ => exists_run_iff.trans (forall₂_congr fun _ _ => takes_makeReady)

end Session

end Log

/-! ## The first stage of a node -/

namespace Node

open Settings EnvironmentFile

/-- A process completes its first stage. -/
def Completes (process : Environment) (file : Content) (vault : Option Content)
    (booted : Booted) : Prop :=
  ∃ booting, boot process file vault = .ok booting ∧ booting.outcome = .ok booted

/-- The logger of a node in its environment. -/
def Booted.session (booted : Booted) : Log.Session :=
  ⟨booted.logger, booted.environment⟩

variable {process : Environment} {file : Content} {vault : Option Content} {booted : Booted}

/-- The logger was made from the process alone, and the settings were read after the files were
loaded. -/
theorem completes_iff :
    Completes process file vault booted ↔ ∃ logger settings,
      Log.Logger.create process = .ok logger ∧
        loadAfter readRegistry (load process [file] vault) none = .ok settings ∧
        booted = ⟨logger.makeReady.1, (load process [file] vault).environment, settings⟩ := by
  unfold Completes boot
  cases Log.Logger.create process with
  | error fault => simp [Except.map]
  | ok logger =>
      cases hload : loadAfter readRegistry (load process [file] vault) none with
      | error fault => simp [Except.map, Stage.after, failed, hload]
      | ok settings => simp [Except.map, Stage.after, hload, eq_comm]

/-- Settings that were read after loading say what is written in the environment. -/
theorem reads_of_loadAfter {loading : Loading} {settings : RegistrySettings}
    (hload : loadAfter readRegistry loading none = .ok settings) :
    Reads loading.environment settings := by
  unfold loadAfter at hload
  split at hload
  · cases hload
  · exact reads_of_load hload

/-- A process that sets no level of its own logs at the default. -/
theorem level_of_absent {logger : Log.Logger} (hown : process.nonEmpty? "PINO_LEVEL" = none)
    (habsent : process.get? "LOG_LEVEL" = none) (hmade : Log.Logger.create process = .ok logger) :
    logger.level = .info := by
  have htext : Log.levelText process = Log.Level.info.label := by
    rw [Log.levelText_of_general hown, Environment.nonEmpty?, habsent]
    rfl
  cases hmade.symm.trans (Log.Logger.create_of_label htext)
  rfl

/-- A process that sets a level logs at that level, if it is one that settings can have. -/
theorem level_of_set {logger : Log.Logger} {level : Log.Level}
    (hown : process.nonEmpty? "PINO_LEVEL" = none)
    (hset : process.get? "LOG_LEVEL" = some level.label)
    (hmade : Log.Logger.create process = .ok logger) : logger.level = level := by
  have htext : Log.levelText process = level.label := by
    rw [Log.levelText_of_general hown, Environment.nonEmpty?, hset]
    cases level <;> rfl
  cases hmade.symm.trans (Log.Logger.create_of_label htext)
  rfl

/-- The level of the settings is that of the environment after the files were loaded.  A node logs
at this level if the process itself sets it; otherwise it logs at the default, whatever its file
says. -/
theorem level_is_read_before_the_file (process : Environment) (file : Content)
    (vault : Option Content) (booted : Booted) (hown : process.nonEmpty? "PINO_LEVEL" = none)
    (hcompletes : Completes process file vault booted) :
    booted.settings.base.level.label = (booted.environment.get? "LOG_LEVEL").getD "info" ∧
      ((process.get? "LOG_LEVEL").isSome → booted.session.LogsAt booted.settings.base.level) ∧
      (process.get? "LOG_LEVEL" = none → booted.session.LogsAt .info) := by
  obtain ⟨logger, settings, hmade, hload, rfl⟩ := completes_iff.mp hcompletes
  have hlevel := (reads_of_loadAfter hload).level
  have hlogs : Log.Session.LogsAt ⟨logger.makeReady.1, (load process [file] vault).environment⟩
      logger.level := Log.Session.logsAt_makeReady _ _
  refine ⟨hlevel, fun hset => ?_, fun habsent => ?_⟩
  · obtain ⟨text, htext⟩ := Option.isSome_iff_exists.mp hset
    rw [get?_load_of_set htext, Option.getD_some] at hlevel
    rw [level_of_set hown (htext.trans (congrArg some hlevel.symm)) hmade] at hlogs
    exact hlogs
  · rw [level_of_absent hown habsent hmade] at hlogs
    exact hlogs

/-- The process asks for warnings and its file for everything: warnings it is. -/
theorem level_of_the_process_is_logged_at :
    let file : Content := .file ("LOG_LEVEL=trace\nREGISTRY_OWNER=7".toList.map
      fun c => c.toNat.toUInt8)
    let process : Environment := ⟨[("LOG_LEVEL", "warn")]⟩
    ∃ booted, Completes process file none booted ∧ booted.settings.owner = some 7 ∧
      booted.settings.base.level = .warn ∧ booted.session.LogsAt .warn := by
  intro file process
  have hload : loadAfter readRegistry (load process [file] none) none =
      .ok ⟨⟨.development, .warn⟩, none, none, some 7⟩ :=
    except_eq_ok_of_toOption (by decide +kernel)
  let booted : Booted := ⟨⟨.warn, true⟩, (load process [file] none).environment,
    ⟨⟨.development, .warn⟩, none, none, some 7⟩⟩
  have hmade : Log.Logger.create process = .ok ⟨.warn, false⟩ :=
    Log.Logger.create_of_label (by decide +kernel)
  have hcompletes : Completes process file none booted :=
    completes_iff.mpr ⟨_, _, hmade, hload, rfl⟩
  refine ⟨booted, hcompletes, rfl, rfl, ?_⟩
  exact (level_is_read_before_the_file process file none booted (by decide +kernel)
    hcompletes).2.1 (by decide +kernel)

/-- The file asks for errors only and the process for nothing: the settings have the level of the
file, and an entry below it is written. -/
theorem level_of_the_file_is_ignored :
    let file : Content := .file ("LOG_LEVEL=error".toList.map fun c => c.toNat.toUInt8)
    let entry : Log.Entry := ⟨.info, .text "Registry genesis applied", []⟩
    ∃ booted, Completes ⟨[]⟩ file none booted ∧ booted.settings.base.level = .error ∧
      ¬booted.settings.base.level.rank ≤ entry.severity.level.rank ∧
      booted.session.run [.entry entry] = .ok (booted.session, [Log.recordLines entry]) := by
  intro file entry
  have hload : loadAfter readRegistry (load ⟨[]⟩ [file] none) none =
      .ok ⟨⟨.development, .error⟩, none, none, none⟩ :=
    except_eq_ok_of_toOption (by decide +kernel)
  let booted : Booted := ⟨⟨.info, true⟩, (load ⟨[]⟩ [file] none).environment,
    ⟨⟨.development, .error⟩, none, none, none⟩⟩
  have hmade : Log.Logger.create ⟨[]⟩ = .ok ⟨.info, false⟩ :=
    Log.Logger.create_of_label (by decide +kernel)
  have hcompletes : Completes ⟨[]⟩ file none booted :=
    completes_iff.mpr ⟨_, _, hmade, hload, rfl⟩
  exact ⟨booted, hcompletes, rfl, by decide, rfl⟩

end Node

end AccountRegistry
