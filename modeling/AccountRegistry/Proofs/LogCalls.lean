import AccountRegistry.Log.Logger
import Mathlib.Logic.Basic

/-!
# Calls of a logger

A program makes one entry after the other.  Nothing about the logger or its environment changes
meanwhile, so what is written for an entry depends on the entry alone.  A call fails if the entry is
to be written and does not have the form in which it would be; the entries after it are then not
made.

* `Logger.create_of_label`, `consoleLevel_of_label`: a level that the environment gives by its name
  is the level of the records and the level of the console.
* `Session.run_entries_eq_ok`: what a session writes for entries, and when it comes to the end.
-/

namespace AccountRegistry.Log

variable {environment : Environment} {level : Level} {entry : Entry}

/-! ## Levels -/

theorem Level.admits_iff {severity : Severity} :
    level.admits severity = true ↔ level.rank ≤ severity.level.rank :=
  decide_eq_true_iff

/-- Lines that are written for what a level admits. -/
theorem Level.written_ne_nil {severity : Severity} {lines : List Line} (hlines : lines ≠ []) :
    (if level.admits severity then lines else []) ≠ [] ↔ level.rank ≤ severity.level.rank := by
  rw [← admits_iff]
  split
  · rename_i hadmits
    exact iff_of_true hlines hadmits
  · rename_i hadmits
    exact iff_of_false (fun hne => hne rfl) hadmits

/-- A logger is made with the level that the environment gives. -/
theorem Logger.create_of_label (hlevel : levelText environment = level.label) :
    Logger.create environment = .ok ⟨level, false⟩ := by
  simp only [Logger.create, hlevel, Level.ofAnyCase?_label]

/-- The cause of an entry can be written: only an error has one. -/
def Entry.Explicable (entry : Entry) : Prop :=
  entry.severity = .error → ∀ cause ∈ entry.args.head?, cause.isExplicable = true

/-- A logger that is ready writes what its level admits. -/
theorem Logger.lines_makeReady (logger : Logger) (environment : Environment) (entry : Entry) :
    logger.makeReady.1.lines environment entry =
      if logger.level.admits entry.severity then recordLines entry else [] := rfl

theorem recordLines_ne_nil (entry : Entry) : recordLines entry ≠ [] := by
  unfold recordLines streams
  split <;> simp

/-- A logger that is ready fails at causes that cannot be written, and at nothing else. -/
theorem Logger.hasForm_makeReady (logger : Logger) (entry : Entry) :
    logger.makeReady.1.hasForm entry = true ↔ entry.Explicable := by
  have hform : logger.makeReady.1.hasForm entry =
      (entry.severity != .error || (entry.args.take 1).all Value.isExplicable) := rfl
  rw [hform, Entry.Explicable]
  by_cases herror : entry.severity = .error
  · cases entry.args <;> simp [herror]
  · simp [herror]

namespace Session

variable {session after : Session} {entries : List Entry} {written : List (List Line)}

/-- The lines of a session for an entry. -/
def lines (session : Session) (entry : Entry) : List Line :=
  session.logger.lines session.environment entry

/-- A session does not fail at an entry: there is nothing to write, or the entry has the form in
which it is written. -/
def Takes (session : Session) (entry : Entry) : Prop :=
  session.lines entry ≠ [] → session.logger.hasForm entry = true

theorem take_of_takes (htakes : session.Takes entry) :
    session.take (.entry entry) = .ok (session, session.lines entry) := by
  have hwrite : session.logger.write session.environment entry = .ok (session.lines entry) := by
    refine if_pos ?_
    by_cases hnil : session.lines entry = []
    · rw [show session.logger.lines session.environment entry = [] from hnil]
      rfl
    · rw [htakes hnil, Bool.or_true]
  rw [take, hwrite]
  rfl

theorem take_of_not_takes (htakes : ¬session.Takes entry) :
    session.take (.entry entry) = .error .textless := by
  obtain ⟨hlines, hform⟩ := Classical.not_imp.mp htakes
  have hwrite : session.logger.write session.environment entry = .error .textless := by
    refine if_neg ?_
    rw [Bool.not_eq_true] at hform
    rw [hform, Bool.or_false]
    exact fun hempty => hlines (List.isEmpty_iff.mp hempty)
  rw [take, hwrite]
  rfl

/-- A session that fails at none of its entries writes the lines of each. -/
theorem run_entries_of_takes (htakes : ∀ entry ∈ entries, session.Takes entry) :
    session.run (entries.map Use.entry) = .ok (session, entries.map session.lines) := by
  induction entries with
  | nil => rfl
  | cons entry rest ih =>
      obtain ⟨hfirst, hrest⟩ := List.forall_mem_cons.mp htakes
      rw [List.map_cons, run, take_of_takes hfirst]
      dsimp only
      rw [ih hrest]
      rfl

/-- A session that fails at one of its entries does not come to their end. -/
theorem run_entries_of_not_takes (hfails : ¬∀ entry ∈ entries, session.Takes entry) :
    session.run (entries.map Use.entry) = .error .textless := by
  induction entries with
  | nil => exact absurd (List.forall_mem_nil _) hfails
  | cons entry rest ih =>
      rw [List.map_cons, run]
      by_cases hfirst : session.Takes entry
      · have hrest : ¬∀ entry ∈ rest, session.Takes entry :=
          fun htakes => hfails (List.forall_mem_cons.mpr ⟨hfirst, htakes⟩)
        rw [take_of_takes hfirst]
        dsimp only
        rw [ih hrest]
        rfl
      · rw [take_of_not_takes hfirst]

/-- A session comes to the end of its entries exactly if it fails at none of them. -/
theorem run_entries_eq_ok :
    session.run (entries.map Use.entry) = .ok (after, written) ↔
      (∀ entry ∈ entries, session.Takes entry) ∧ after = session ∧
        written = entries.map session.lines := by
  by_cases htakes : ∀ entry ∈ entries, session.Takes entry
  · rw [run_entries_of_takes htakes, and_iff_right htakes, Except.ok.injEq, Prod.mk.injEq]
    exact and_congr eq_comm eq_comm
  · rw [run_entries_of_not_takes htakes]
    exact ⟨nofun, fun hend => absurd hend.1 htakes⟩

theorem exists_run_iff :
    (∃ result, session.run (entries.map Use.entry) = .ok result) ↔
      ∀ entry ∈ entries, session.Takes entry := by
  constructor
  · rintro ⟨⟨after, written⟩, hrun⟩
    exact (run_entries_eq_ok.mp hrun).1
  · exact fun htakes => ⟨_, run_entries_of_takes htakes⟩

/-! ## Loggers that are ready -/

variable {logger : Logger}

theorem lines_makeReady_ne_nil :
    lines ⟨logger.makeReady.1, environment⟩ entry ≠ [] ↔
      logger.level.rank ≤ entry.severity.level.rank := by
  rw [lines, Logger.lines_makeReady]
  exact Level.written_ne_nil (recordLines_ne_nil entry)

theorem takes_makeReady :
    Takes ⟨logger.makeReady.1, environment⟩ entry ↔
      (logger.level.rank ≤ entry.severity.level.rank → entry.Explicable) :=
  imp_congr lines_makeReady_ne_nil (logger.hasForm_makeReady entry)

end Session

end AccountRegistry.Log
