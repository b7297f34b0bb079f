import AccountRegistry.Proofs.Machine

/-!
# Calls inside a waiting call

While a call waits for the ledger, the ledger may make further calls, which may wait in turn.  The
calls that wait are a stack of frames: what happens *inside* a frame leaves it alone, because only
a reply ends a waiting call and it always goes to the latest (`Inside`).

* `step_asked`: what is known when a provisioning asks the ledger.
* `entered_of_waiting`: a call that waits was made at some moment of the run, and everything since
  then has happened inside it.
-/

namespace AccountRegistry.Machine

variable {wiring : Wiring} {machine : Machine}

/-- The events happen while the calls of a frame wait: no reply goes to one of these. -/
def Inside (wiring : Wiring) (frame : List Waiting) : Machine → List Event → Prop
  | _, [] => True
  | machine, event :: rest =>
      (∀ reply, event = .reply reply → machine.waiting ≠ frame) ∧
        Inside wiring frame (machine.step wiring event).machine rest

theorem Inside.concat {frame : List Waiting} {events : List Event} {event : Event}
    (hinside : machine.Inside wiring frame events)
    (hlast : ∀ reply, event = .reply reply → (machine.run wiring events).waiting ≠ frame) :
    machine.Inside wiring frame (events ++ [event]) := by
  induction events generalizing machine with
  | nil => exact ⟨hlast, trivial⟩
  | cons first rest ih => exact ⟨hinside.1, ih hinside.2 hlast⟩

/-- What happens inside a frame leaves it alone. -/
theorem Inside.waiting {frame above : List Waiting} {events : List Event}
    (hinside : machine.Inside wiring frame events) (hwaiting : machine.waiting = above ++ frame) :
    ∃ above, (machine.run wiring events).waiting = above ++ frame := by
  induction events generalizing machine above with
  | nil => exact ⟨above, hwaiting⟩
  | cons event rest ih =>
      rcases step_waiting wiring machine event with hkept | ⟨call, plan, -, -, hjoined⟩ |
        ⟨latest, reply, rfl, hleft⟩
      · exact ih hinside.2 (hkept.trans hwaiting)
      · have hstack : (machine.step wiring event).machine.waiting =
            (⟨call, plan⟩ :: above) ++ frame :=
          hjoined.trans (congrArg (⟨call, plan⟩ :: ·) hwaiting)
        exact ih hinside.2 hstack
      · -- the reply ends a call above the frame, for the frame alone may not be replied to
        cases above with
        | nil => exact absurd hwaiting (hinside.1 reply rfl)
        | cons first others =>
            exact ih hinside.2 (List.cons.inj (hleft.symm.trans hwaiting)).2

/-- Once as many calls wait as at first, they are those that waited then. -/
theorem Inside.waiting_eq {events : List Event}
    (hinside : machine.Inside wiring machine.waiting events)
    (hlength : (machine.run wiring events).waiting.length = machine.waiting.length) :
    (machine.run wiring events).waiting = machine.waiting := by
  obtain ⟨above, habove⟩ := hinside.waiting (List.nil_append _).symm
  rw [habove, List.length_append] at hlength
  rw [habove, List.eq_nil_of_length_eq_zero (Nat.add_eq_right.mp hlength), List.nil_append]

/-- A call that asks the ledger joins the waiting calls and changes nothing else. -/
theorem step_asked (hstandard : wiring.Standard) {call other : Call} {plan : DeploymentPlan}
    (hasked : (machine.step wiring (.call call)).effect = .asked other plan) :
    other = call ∧ (Registry.begin wiring call machine.state).outcome = .ok (.asks plan) ∧
      (machine.step wiring (.call call)).machine =
        ⟨machine.state, ⟨call, plan⟩ :: machine.waiting⟩ := by
  cases hended : (Registry.begin wiring call machine.state).outcome with
  | error stop => simp [step, hended] at hasked
  | ok progress =>
      cases progress with
      | finished answer => simp [step, hended] at hasked
      | asks asked =>
          simp only [step, hended, Effect.asked.injEq] at hasked ⊢
          obtain ⟨rfl, rfl⟩ := hasked
          rw [Registry.begin_asks_state hstandard hended]
          exact ⟨rfl, rfl, rfl⟩

/-- After `earlier` a call asked the ledger for a plan while the calls `beneath` were waiting, and
`inner` has happened inside it since. -/
structure Entered (wiring : Wiring) (machine : Machine) (earlier inner : List Event) (call : Call)
    (plan : DeploymentPlan) (beneath : List Waiting) : Prop where
  asked : (Registry.begin wiring call (machine.run wiring earlier).state).outcome =
    .ok (.asks plan)
  waiting : (machine.run wiring earlier).waiting = beneath
  inside : ((machine.run wiring earlier).step wiring (.call call)).machine.Inside wiring
    (⟨call, plan⟩ :: beneath) inner

/-- A call that waits after a run that began between calls has entered its wait in that run. -/
theorem entered_of_waiting (hidle : machine.waiting = []) {events : List Event}
    {newer beneath : List Waiting} {call : Call} {plan : DeploymentPlan}
    (hwaiting : (machine.run wiring events).waiting = newer ++ ⟨call, plan⟩ :: beneath) :
    ∃ earlier inner, events = earlier ++ .call call :: inner ∧
      Entered wiring machine earlier inner call plan beneath := by
  -- from the last event to the first: the frame stands until the event that pushed it
  induction events using List.reverseRecOn generalizing newer with
  | nil =>
      have hnone : machine.waiting = newer ++ ⟨call, plan⟩ :: beneath := hwaiting
      rw [hidle] at hnone
      simp at hnone
  | append_singleton before event ih =>
      rw [run_append, run_cons] at hwaiting
      have hextend {above : List Waiting}
          (hstood : (machine.run wiring before).waiting = above ++ ⟨call, plan⟩ :: beneath)
          (hlast : ∀ reply, event = .reply reply →
            (machine.run wiring before).waiting ≠ ⟨call, plan⟩ :: beneath) :
          ∃ earlier inner, before ++ [event] = earlier ++ .call call :: inner ∧
            Entered wiring machine earlier inner call plan beneath := by
        obtain ⟨earlier, inner, rfl, hentered⟩ := ih hstood
        refine ⟨earlier, inner ++ [event], by simp, { hentered with inside := ?_ }⟩
        refine hentered.inside.concat ?_
        simpa only [run_append, run_cons] using hlast
      rcases step_waiting wiring (machine.run wiring before) event with hkept |
        ⟨joining, made, rfl, hasks, hjoined⟩ | ⟨latest, reply, rfl, hleft⟩
      · refine hextend (hkept.symm.trans hwaiting) ?_
        rintro reply rfl hframe
        rw [step_reply_cons reply hframe] at hkept
        have hlength := congrArg List.length (hkept.trans hframe)
        simp at hlength
      · have hstack := hjoined.symm.trans hwaiting
        cases newer with
        | nil =>
            obtain ⟨hsame, hrest⟩ := List.cons.inj hstack
            cases hsame
            exact ⟨before, [], rfl, hasks, hrest, trivial⟩
        | cons _ above =>
            exact hextend (List.cons.inj hstack).2 (fun _ hreply => nomatch hreply)
      · have hstood : (machine.run wiring before).waiting =
            (latest :: newer) ++ ⟨call, plan⟩ :: beneath := by
          rw [hleft]
          exact congrArg (latest :: ·) hwaiting
        refine hextend hstood ?_
        intro _ _ hframe
        -- one more call waits than those of the frame
        have hlength := congrArg List.length (hstood.symm.trans hframe)
        simp only [List.length_append, List.length_cons] at hlength
        omega

end AccountRegistry.Machine
