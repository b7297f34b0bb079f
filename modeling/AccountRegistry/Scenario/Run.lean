import AccountRegistry.Scenario.Basic

/-!
# Taking steps

A step that asks the ledger is put aside: the steps of the next scripted outcome come first, then
its reply.  `take` does one job and says which jobs come before all others; each job weighs less
than what it was made from, so that every list of jobs comes to an end.
-/

namespace AccountRegistry.Scenario

/-- Where a scenario is played: what is wired, what the ledger claims to hold besides its own
accounts, whether it follows the script, and whether the registry's deployments bypass it. -/
structure Setting where
  wiring : Wiring
  declared : List DeployedAccount
  scripted : Bool
  bypassed : Bool

/-- A system with the outcomes that its ledger is to follow. -/
structure Stage where
  system : System
  script : List Outcome

/-- Something to do: a step, a reply to the latest waiting call, or one to a direct request. -/
inductive Job where
  | perform (step : Step)
  | reply (verdict : Verdict)
  | settle (request : DeployRequest) (verdict : Verdict)

/-- How a step ended, with the number of mappings, of requests that the ledger saw and of its
accounts at that moment. -/
structure Result where
  outcome : Except Stop Answer
  mappings : Nat
  requests : Nat
  accounts : Nat

/-- What a job led to: the stage after it, the jobs that come next, the end of a step if it was
one, and what was said to the log. -/
structure Turn where
  stage : Stage
  jobs : List Job
  result : Option Result
  log : List Log.Entry

/-- The account that the ledger shows at an address. -/
def account? (setting : Setting) (stage : Stage) (address : Int) : Option DeployedAccount :=
  (setting.declared.find? fun account => account.address = address) <|>
    stage.system.ledger.find? address

/-- A reply as the ending of the step that made the request. -/
def outcomeOf : HostReply → Except Stop Answer
  | .deployed address => .ok (.integer address)
  | .refused fault => .error (.failed fault)
  | .threw fault => .error (.escaped fault)

/-- The result of a step that has just ended. -/
def resultAt (stage : Stage) (outcome : Except Stop Answer) : Result :=
  ⟨outcome, stage.system.machine.state.table.size, stage.system.ledger.requests,
    stage.system.ledger.size⟩

/-- The end of a step. -/
def ended (stage : Stage) (outcome : Except Stop Answer) (log : List Log.Entry) : Turn :=
  ⟨stage, [], some (resultAt stage outcome), log⟩

/-- Put a request aside until the steps of the next outcome are taken. -/
def consult (scripted : Bool) (stage : Stage) (job : Verdict → Job) (log : List Log.Entry) :
    Turn :=
  match scripted, stage.script with
  | true, .mk before verdict :: rest =>
      ⟨{ stage with script := rest }, before.map Job.perform ++ [job verdict], none, log⟩
  | _, _ => ⟨stage, [job .deploys], none, log⟩

/-- The turn of an event of the registry: its call ended, or waits for the ledger. -/
def afterEvent (setting : Setting) (script : List Outcome) (step : System.Step) : Turn :=
  let stage : Stage := ⟨step.system, script⟩
  match step.effect with
  | .ended _ outcome => ended stage outcome step.log
  | .asked _ _ => consult (setting.scripted || setting.bypassed) stage .reply step.log
  | .ignored => ended stage (.ok .nothing) step.log

/-- The event by which the latest waiting call gets its reply. -/
def replyEvent (setting : Setting) (system : System) (verdict : Verdict) : System.Event :=
  if setting.bypassed then
    .reply (.deployed ((system.machine.waiting.head?.map fun w => w.plan.nativeAddress).getD 0))
  else
    match verdict with
    | .deploys => .deploy
    | .replies reply => .reply reply

/-- Take one step. -/
def takeStep (setting : Setting) (stage : Stage) : Step → Turn
  | .call call =>
      afterEvent setting stage.script
        (stage.system.call setting.wiring (account? setting stage) call)
  | .deploy request => consult setting.scripted stage (.settle request) []
  | .isDeployed address =>
      ended stage (.ok (.flag (account? setting stage address).isSome)) []
  | .deployment address =>
      match account? setting stage address with
      | some account => ended stage (.ok (.account account)) []
      | none => ended stage (.ok .nothing) []
  | .reject rejection =>
      let step := stage.system.step setting.wiring (.reject rejection)
      ended { stage with system := step.system } (.ok .nothing) step.log
  | .script outcomes => ended { stage with script := stage.script ++ outcomes } (.ok .nothing) []

/-- Do one job. -/
def take (setting : Setting) (stage : Stage) : Job → Turn
  | .perform step => takeStep setting stage step
  | .reply verdict =>
      let step := stage.system.step setting.wiring (replyEvent setting stage.system verdict)
      match step.effect with
      | .ended _ outcome => ended { stage with system := step.system } outcome step.log
      | _ => ended { stage with system := step.system } (.ok .nothing) step.log
  | .settle request .deploys =>
      let step := stage.system.step setting.wiring (.request request)
      ended { stage with system := step.system }
        ((step.reply.map outcomeOf).getD (.ok .nothing)) step.log
  | .settle _ (.replies reply) => ended stage (outcomeOf reply) []

/-- The weight of a job. -/
def Job.weight : Job → Nat
  | .perform step => step.weight
  | _ => 1

/-- The weight of all of some jobs. -/
def Job.weights : List Job → Nat
  | [] => 0
  | job :: rest => job.weight + Job.weights rest

theorem Job.weights_append (first second : List Job) :
    Job.weights (first ++ second) = Job.weights first + Job.weights second := by
  induction first with
  | nil => simp [Job.weights]
  | cons job rest ih => simp [Job.weights, ih, Nat.add_assoc]

theorem Job.weights_perform (steps : List Step) :
    Job.weights (steps.map Job.perform) = Step.weights steps := by
  induction steps with
  | nil => rfl
  | cons step rest ih => simp [Job.weights, Job.weight, Step.weights, ih]

/-- The weight of some jobs and of the script that is left. -/
def weight (stage : Stage) (jobs : List Job) : Nat :=
  Outcome.weights stage.script + Job.weights jobs

theorem weight_consult (scripted : Bool) (stage : Stage) (job : Verdict → Job)
    (log : List Log.Entry) (light : ∀ verdict, (job verdict).weight = 1) :
    weight (consult scripted stage job log).stage (consult scripted stage job log).jobs
      ≤ Outcome.weights stage.script + 1 := by
  unfold consult
  split
  · rename_i before verdict rest same
    simp only [weight, same, Job.weights_append, Job.weights_perform, Job.weights, light,
      Outcome.weights, Outcome.weight]
    omega
  · simp [weight, Job.weights, light]

theorem weight_ended (stage : Stage) (outcome : Except Stop Answer) (log : List Log.Entry) :
    weight (ended stage outcome log).stage (ended stage outcome log).jobs =
      Outcome.weights stage.script := by
  simp [ended, weight, Job.weights]

theorem weight_afterEvent (setting : Setting) (script : List Outcome) (step : System.Step) :
    weight (afterEvent setting script step).stage (afterEvent setting script step).jobs
      ≤ Outcome.weights script + 1 := by
  unfold afterEvent
  split
  · simp [weight_ended]
  · exact weight_consult _ _ _ _ fun _ => rfl
  · simp [weight_ended]

theorem weight_takeStep (setting : Setting) (stage : Stage) (step : Step) :
    weight (takeStep setting stage step).stage (takeStep setting stage step).jobs
      < Outcome.weights stage.script + step.weight := by
  have two := step.two_le_weight
  cases step with
  | call call =>
      exact Nat.lt_of_le_of_lt (weight_afterEvent _ _ _) (by omega)
  | deploy request =>
      exact Nat.lt_of_le_of_lt (weight_consult _ _ _ _ fun _ => rfl) (by omega)
  | isDeployed address => simp only [takeStep, weight_ended]; omega
  | deployment address =>
      simp only [takeStep]
      split <;> (rw [weight_ended]; omega)
  | reject rejection => simp only [takeStep, weight_ended]; omega
  | script outcomes =>
      simp only [takeStep, weight_ended, Outcome.weights_append, Step.weight]
      omega

theorem weight_take (setting : Setting) (stage : Stage) (job : Job) :
    weight (take setting stage job).stage (take setting stage job).jobs
      < Outcome.weights stage.script + job.weight := by
  cases job with
  | perform step => exact weight_takeStep setting stage step
  | reply verdict =>
      simp only [take]
      split <;> simp [weight_ended, Job.weight]
  | settle request verdict =>
      cases verdict <;> simp [take, weight_ended, Job.weight]

/-- Do jobs until none is left: the stage at the end, the results of the steps in the order in
which they ended, and what was said to the log. -/
def run (setting : Setting) (stage : Stage) :
    List Job → Stage × List Result × List Log.Entry
  | [] => (stage, [], [])
  | job :: rest =>
      let turn := take setting stage job
      let later := run setting turn.stage (turn.jobs ++ rest)
      (later.1, turn.result.toList ++ later.2.1, turn.log ++ later.2.2)
termination_by jobs => weight stage jobs
decreasing_by
  have lighter := weight_take setting stage job
  simp only [weight, Job.weights_append, Job.weights] at lighter ⊢
  omega

end AccountRegistry.Scenario
