import AccountRegistry.Proofs.FailedCalls

/-!
# The moments of a run

A run goes through moments, each of which is an event with what it meets.  What a run says is said
moment by moment (`Machine.effects_eq`, `System.answers_eq`).

Events that change nothing can be left out: what remains meets what it met before
(`momentsFrom_filter`), so it says what it said before and leads to the same end.
-/

namespace AccountRegistry

section Runs

variable {σ ε : Type}

/-- An event and what it meets. -/
structure Moment (σ ε : Type) where
  before : σ
  event : ε

/-- The moments of a run from a start. -/
def momentsFrom (next : σ → ε → σ) : σ → List ε → List (Moment σ ε)
  | _, [] => []
  | start, event :: rest => ⟨start, event⟩ :: momentsFrom next (next start event) rest

variable {next : σ → ε → σ}

@[simp] theorem momentsFrom_cons (start : σ) (event : ε) (rest : List ε) :
    momentsFrom next start (event :: rest) =
      ⟨start, event⟩ :: momentsFrom next (next start event) rest := rfl

theorem momentsFrom_append (start : σ) (before later : List ε) :
    momentsFrom next start (before ++ later) =
      momentsFrom next start before ++ momentsFrom next (before.foldl next start) later := by
  induction before generalizing start with
  | nil => rfl
  | cons event rest ih => simp only [List.cons_append, momentsFrom_cons, ih, List.foldl_cons]

/-- A moment of a run is one of its events after those that came before it. -/
theorem mem_momentsFrom {start : σ} {events : List ε} {moment : Moment σ ε} :
    moment ∈ momentsFrom next start events ↔
      ∃ before later, events = before ++ moment.event :: later ∧
        moment.before = before.foldl next start := by
  constructor
  · intro hmem
    induction events generalizing start with
    | nil => cases hmem
    | cons event rest ih =>
        rcases List.mem_cons.mp hmem with rfl | hrest
        · exact ⟨[], rest, rfl, rfl⟩
        · obtain ⟨before, later, rfl, hbefore⟩ := ih hrest
          exact ⟨event :: before, later, rfl, hbefore⟩
  · rintro ⟨before, later, rfl, hbefore⟩
    rw [momentsFrom_append, momentsFrom_cons, ← hbefore]
    exact List.mem_append_right _ List.mem_cons_self

/-- If what is left out changes nothing, what is kept has the moments that it had, and the run ends
where it did. -/
theorem momentsFrom_filter (next : σ → ε → σ) (drops : Moment σ ε → Bool)
    (hidle : ∀ before event, drops ⟨before, event⟩ = true → next before event = before)
    (start : σ) (events : List ε) :
    let kept := (momentsFrom next start events).filter fun moment => !drops moment
    momentsFrom next start (kept.map Moment.event) = kept ∧
      (kept.map Moment.event).foldl next start = events.foldl next start := by
  induction events generalizing start with
  | nil => exact ⟨rfl, rfl⟩
  | cons event rest ih =>
      obtain ⟨hmoments, hend⟩ := ih (next start event)
      intro kept
      cases hdrops : drops ⟨start, event⟩ with
      | false =>
          have hkept : kept = ⟨start, event⟩ ::
              (momentsFrom next (next start event) rest).filter fun moment => !drops moment :=
            List.filter_cons_of_pos (by simp [hdrops])
          rw [hkept, List.map_cons, momentsFrom_cons, hmoments, List.foldl_cons, hend]
          exact ⟨rfl, rfl⟩
      | true =>
          have hkept : kept =
              (momentsFrom next (next start event) rest).filter fun moment => !drops moment :=
            List.filter_cons_of_neg (by simp [hdrops])
          rw [hkept, List.foldl_cons]
          rw [hidle start event hdrops] at hmoments hend ⊢
          exact ⟨hmoments, hend⟩

end Runs

/-! ## A registry over any ledger -/

namespace Machine

/-- The moments of a run of a registry. -/
def moments (wiring : Wiring) (machine : Machine) (events : List Event) :
    List (Moment Machine Event) :=
  momentsFrom (fun machine event => (machine.step wiring event).machine) machine events

variable (wiring : Wiring) (machine : Machine)

theorem run_eq_foldl (events : List Event) :
    machine.run wiring events =
      events.foldl (fun machine event => (machine.step wiring event).machine) machine := by
  induction events generalizing machine with
  | nil => rfl
  | cons event rest ih => exact ih _

/-- What a registry meets at a moment of a run is where a part of the run has led to. -/
theorem before_of_mem_moments {machine : Machine} {events : List Event}
    {moment : Moment Machine Event} (hmem : moment ∈ machine.moments wiring events) :
    ∃ part, moment.before = machine.run wiring part := by
  obtain ⟨part, -, -, hbefore⟩ := mem_momentsFrom.mp hmem
  exact ⟨part, hbefore.trans (run_eq_foldl wiring machine part).symm⟩

theorem effects_eq (events : List Event) :
    machine.effects wiring events =
      (machine.moments wiring events).map fun moment =>
        (moment.before.step wiring moment.event).effect := by
  induction events generalizing machine with
  | nil => rfl
  | cons event rest ih => exact congrArg _ (ih _)

end Machine

/-! ## A registry over the ledger in memory -/

namespace System

/-- The moments of a run of a system. -/
def moments (wiring : Wiring) (system : System) (events : List Event) :
    List (Moment System Event) :=
  momentsFrom (fun system event => (system.step wiring event).system) system events

variable (wiring : Wiring) (system : System)

theorem run_eq_foldl (events : List Event) :
    system.run wiring events =
      events.foldl (fun system event => (system.step wiring event).system) system := by
  induction events generalizing system with
  | nil => rfl
  | cons event rest ih => exact ih _

theorem answers_eq (events : List Event) :
    system.answers wiring events =
      (system.moments wiring events).map fun moment =>
        let step := moment.before.step wiring moment.event
        (step.effect, step.reply, step.log) := by
  induction events generalizing system with
  | nil => rfl
  | cons event rest ih => exact congrArg _ (ih _)

end System

end AccountRegistry
