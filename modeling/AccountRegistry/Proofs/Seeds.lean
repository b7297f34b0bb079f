import AccountRegistry.Proofs.System

/-!
# What the addresses of a run are made from

A `Seed` is what the address of a deployment is computed from.  The seeds of a run are those of the
requests that the ledger deployed and those that the registry derived an address from; a run that
`CollisionFree` holds of has no two of them at one address.  Only the seeds that really occur are
listed: a call on a mapped address derives nothing, nor does one that stops before.
-/

namespace AccountRegistry

/-- What the address of a deployment is computed from. -/
structure Seed where
  deployer : Int
  salt : Int
  classReference : Int
  arguments : List Int
  deriving DecidableEq, Repr, Inhabited

/-- The address that a seed gives. -/
def Seed.address (hash : Hash) (seed : Seed) : Except Fault Int :=
  Derivation.contractAddress hash seed.deployer seed.salt seed.classReference seed.arguments

/-- The seed of a request. -/
def DeployRequest.seed (request : DeployRequest) : Seed :=
  ⟨request.deployer, request.salt, request.classReference, request.constructorArgs⟩

/-- The seed of the account of an EVM address. -/
def Seed.ofAccount (deployer classReference evm : Int) : Seed :=
  ⟨deployer, evm, classReference, Derivation.accountArguments deployer evm⟩

/-- No two seeds that differ give the same address. -/
def CollisionFree (hash : Hash) (seeds : List Seed) : Prop :=
  ∀ first ∈ seeds, ∀ second ∈ seeds, ∀ place,
    first.address hash = .ok place → second.address hash = .ok place → first = second

/-- For given seeds this can be computed. -/
theorem CollisionFree.of_toOption {hash : Hash} {seeds : List Seed}
    (hdistinct : ∀ first ∈ seeds, ∀ second ∈ seeds,
      (first.address hash).toOption = (second.address hash).toOption → first = second) :
    CollisionFree hash seeds := by
  intro first hfirst second hsecond place hplace hsame
  exact hdistinct first hfirst second hsecond (by rw [hplace, hsame])

/-! ## Derivations -/

/-- The seed that the registry derives the address of an account from. -/
def Wiring.derived (wiring : Wiring) (state : State) (evm : Int) : List Seed :=
  match wiring.provisioner.derive state.references evm, state.references.reference? .proxy with
  | .ok _, some reference => [.ofAccount wiring.identity.deployer reference evm]
  | _, _ => []

/-- The seed that the registry derives the address of a plan from. -/
def Wiring.planned (wiring : Wiring) (state : State) (evm : Int) (kind code : String) :
    List Seed :=
  match wiring.provisioner.plan state.references evm kind code with
  | .ok plan => [plan.request.seed]
  | .error _ => []

/-- The seeds that a call derives addresses from. -/
def Call.seeds (wiring : Wiring) (state : State) : Call → List Seed
  | .resolve evm =>
      if (state.table.find? evm).isSome then []
      else wiring.planned state evm
        (if state.codeAt evm = "0x" then ClassKind.eoa.label else ClassKind.contractAccount.label)
        (state.codeAt evm)
  | .provisionEoa evm =>
      if (state.table.find? evm).isSome then []
      else wiring.planned state evm ClassKind.eoa.label "0x"
  | .provisionContract evm bytecode =>
      if (state.table.find? evm).isSome then []
      else wiring.planned state evm ClassKind.contractAccount.label bytecode
  | .register _ evm _ =>
      if (state.table.find? evm).isSome then [] else wiring.derived state evm
  | .compute evm =>
      if (state.table.find? evm).isSome then [] else wiring.derived state evm
  | .derive evm => wiring.derived state evm
  | .plan evm kind bytecode => wiring.planned state evm kind bytecode
  | _ => []

/-- The seed of a request, if the ledger deploys it. -/
def Ledger.seeds (hash : Hash) (ledger : Ledger) (request : DeployRequest) : List Seed :=
  match ledger.reply hash request with
  | .deployed _ => [request.seed]
  | _ => []

namespace System

/-- The seeds of an event. -/
def seeds (wiring : Wiring) (system : System) : Event → List Seed
  | .call call => call.seeds wiring system.machine.state
  | .deploy =>
      match system.pending? with
      | some request => system.ledger.seeds wiring.hash request
      | none => []
  | .request request => system.ledger.seeds wiring.hash request
  | .reply _ => []
  | .reject _ => []

/-- The seeds of a run. -/
def runSeeds (wiring : Wiring) : System → List Event → List Seed
  | _, [] => []
  | system, event :: rest =>
      system.seeds wiring event ++ runSeeds wiring (system.step wiring event).system rest

/-- Each event of a run takes its seeds from those of the run. -/
theorem obeys_of_runSeeds {wiring : Wiring} {system : System} {events : List Event}
    {seeds : List Seed} (hsubset : system.runSeeds wiring events ⊆ seeds) :
    system.Obeys wiring (fun system event => system.seeds wiring event ⊆ seeds) events := by
  induction events generalizing system with
  | nil => trivial
  | cons event rest ih =>
      obtain ⟨hevent, hrest⟩ := List.append_subset.mp hsubset
      exact ⟨hevent, ih hrest⟩

end System

/-! ## Where seeds come from -/

/-- A registration is told what the ledger shows, which makes no difference to what is derived. -/
theorem Call.seeds_informed (wiring : Wiring) (state : State)
    (view : Int → Option DeployedAccount) (call : Call) :
    (call.informed view).seeds wiring state = call.seeds wiring state := by
  cases call <;> rfl

/-- A call that asks the ledger has derived the address of its plan. -/
theorem Call.Wants.seed_mem {wiring : Wiring} (hstandard : wiring.Standard) {state : State}
    {call : Call} {evm : Int} {kind code : String} {plan : DeploymentPlan}
    (hwants : call.Wants state evm kind code) (hunmapped : state.table.find? evm = none)
    (hplan : Provisioning.plan wiring.hash wiring.identity.deployer ClassReferences.read
      state.references evm kind code = .ok plan) :
    plan.request.seed ∈ call.seeds wiring state := by
  -- the three calls differ in what they ask for, not in how it is planned
  have hplanned : wiring.planned state evm kind code = [plan.request.seed] := by
    unfold Wiring.planned
    rw [hstandard]
    dsimp only [Provisioner.standard]
    rw [hplan]
  have hfree : (state.table.find? evm).isSome = false := by
    rw [hunmapped]
    rfl
  cases hwants with
  | resolve | eoa | contract =>
      simp only [Call.seeds, hfree, hplanned, Bool.false_eq_true, if_false, List.mem_singleton]

/-- A successful derivation is made under the current proxy reference. -/
theorem Wiring.derived_of_derive {wiring : Wiring} (hstandard : wiring.Standard) {state : State}
    {evm native : Int}
    (hderived : Provisioning.derive wiring.hash wiring.identity.deployer ClassReferences.read
      state.references evm = .ok native) :
    ∃ reference, wiring.derived state evm = [.ofAccount wiring.identity.deployer reference evm] ∧
      Derivation.accountAddress wiring.hash reference evm wiring.identity.deployer =
        .ok native := by
  obtain ⟨-, reference, hreference, hnative⟩ := Provisioning.derive_eq_ok.mp hderived
  refine ⟨reference, ?_, hnative⟩
  unfold Wiring.derived
  rw [hstandard]
  dsimp only [Provisioner.standard]
  rw [hderived, hreference]

end AccountRegistry
