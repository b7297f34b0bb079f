import AccountRegistry.System

/-!
# Scenarios

A scenario is a registry with steps to take on it, over a ledger whose replies are scripted: an
outcome says which steps the ledger takes before it replies, and what it replies.  Steps and
outcomes contain each other; their `weight` bounds how much there is to do.
-/

namespace AccountRegistry.Scenario

/-- How a scripted outcome ends: the ledger deploys what it was asked for, or replies otherwise. -/
inductive Verdict where
  | deploys
  | replies (reply : HostReply)
  deriving Inhabited

/-- A rule that rejects the requests of a salt and of a kind of account, or of any. -/
structure Rule where
  reason : String
  salt : Option Int
  kind : Option String

/-- The rejection of a rule. -/
def Rule.rejection (rule : Rule) : Rejection := fun request =>
  if rule.salt.all (· = request.salt) ∧ rule.kind.all (· = request.initialization.kind) then
    some rule.reason
  else none

mutual

/-- A step: a call of the registry, or something that happens at its ledger. -/
inductive Step where
  | call (call : Call)
  | deploy (request : DeployRequest)
  | isDeployed (address : Int)
  | deployment (address : Int)
  | reject (rejection : Rejection)
  | script (outcomes : List Outcome)

/-- What the ledger does with one request: some steps, and then its reply. -/
inductive Outcome where
  | mk (before : List Step) (verdict : Verdict)

end

instance : Inhabited Step := ⟨.script []⟩

mutual

/-- How much a step can bring with it. -/
def Step.weight : Step → Nat
  | .script outcomes => 2 + Outcome.weights outcomes
  | _ => 2

/-- The weight of the steps of an outcome and of its reply. -/
def Outcome.weight : Outcome → Nat
  | .mk before _ => 1 + Step.weights before

/-- The weight of all of some steps. -/
def Step.weights : List Step → Nat
  | [] => 0
  | step :: rest => step.weight + Step.weights rest

/-- The weight of all of some outcomes. -/
def Outcome.weights : List Outcome → Nat
  | [] => 0
  | outcome :: rest => outcome.weight + Outcome.weights rest

end

theorem Step.two_le_weight (step : Step) : 2 ≤ step.weight := by
  cases step <;> simp [Step.weight]

theorem Outcome.weights_append (first second : List Outcome) :
    Outcome.weights (first ++ second) = Outcome.weights first + Outcome.weights second := by
  induction first with
  | nil => simp [Outcome.weights]
  | cons outcome rest ih => simp [Outcome.weights, ih, Nat.add_assoc]

end AccountRegistry.Scenario
