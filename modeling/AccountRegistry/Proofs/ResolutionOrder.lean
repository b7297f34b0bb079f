import AccountRegistry.Proofs.Completion

/-!
# The order of resolutions

Addresses are resolved one after the other over the ledger in memory.  A first resolution may deploy
and write what later ones read, and one that is rejected is tried again each time.  All the same the
order makes no difference, as long as the addresses that are derived do not get in each other's way.

* `verdict`: what the resolution of an address comes to in the system before the first one.
* `after`: the system as a function of the addresses that were resolved so far: it holds the plans
  that were granted, each of them once, and the ledger has counted what it rejected.
* `complete_after`: one more resolution ends as its verdict says, and leads from there to there.
* `resolution_order_is_free`: so both the results and, up to the order of the entries, the system at
  the end are those of any other order.
-/

namespace AccountRegistry

/-- What is found by a property that one entry at most has does not depend on the order. -/
theorem find?_eq_of_perm {α : Type} {first second : List α} (hperm : first.Perm second)
    {p : α → Bool}
    (hunique : ∀ a ∈ first, ∀ b ∈ first, p a = true → p b = true → a = b) :
    first.find? p = second.find? p := by
  cases hsecond : second.find? p with
  | none =>
      refine List.find?_eq_none.mpr fun a hmem => ?_
      exact List.find?_eq_none.mp hsecond a (hperm.mem_iff.mp hmem)
  | some b =>
      have hb : b ∈ first := hperm.mem_iff.mpr (List.mem_of_find?_eq_some hsecond)
      have hpb : p b = true := List.find?_some hsecond
      cases hfirst : first.find? p with
      | none => exact absurd hpb (List.find?_eq_none.mp hfirst b hb)
      | some a =>
          rw [hunique a (List.mem_of_find?_eq_some hfirst) b hb (List.find?_some hfirst) hpb]

/-- What the resolution of an address comes to: it is mapped, there is no plan for it, or there is
one that the ledger rejects or grants. -/
inductive Verdict where
  | mapped (native : Int)
  | stopped (stop : Stop)
  | rejected (plan : DeploymentPlan) (reason : String)
  | granted (plan : DeploymentPlan)

namespace Verdict

/-- What the call ends with. -/
def outcome : Verdict → Except Stop Answer
  | mapped native => .ok (.integer native)
  | stopped stop => .error stop
  | rejected plan reason => .error (.failed (Ledger.rejected plan.request reason))
  | granted plan => .ok (.integer plan.nativeAddress)

/-- The plan that is carried out, where one is. -/
def plan? : Verdict → Option DeploymentPlan
  | granted plan => some plan
  | _ => none

/-- Whether the ledger has to count a request for nothing. -/
def isRejected : Verdict → Bool
  | rejected _ _ => true
  | _ => false

theorem plan?_eq_some {verdict : Verdict} {plan : DeploymentPlan} :
    verdict.plan? = some plan ↔ verdict = granted plan := by
  cases verdict <;> simp [plan?]

end Verdict

namespace System

/-! ## Runs of resolutions -/

/-- Resolve one address after the other. -/
def resolveAll (wiring : Wiring) : System → List Int → System
  | system, [] => system
  | system, evm :: rest =>
      resolveAll wiring (system.complete wiring (.resolve evm) none).system rest

/-- What the resolutions lead to, in their order. -/
def resolutions (wiring : Wiring) : System → List Int → List Effect
  | _, [] => []
  | system, evm :: rest =>
      let next := system.complete wiring (.resolve evm) none
      next.effect :: resolutions wiring next.system rest

/-- The addresses are out of each other's way: no two that are unmapped are derived to one native
address, and none is derived to the native address of another mapping. -/
structure Apart (wiring : Wiring) (system : System) (evms : List Int) : Prop where
  distinct : ∀ first ∈ evms, ∀ second ∈ evms,
    system.machine.state.table.find? first = none →
    system.machine.state.table.find? second = none → ∀ native,
      wiring.provisioner.derive system.machine.state.references first = .ok native →
      wiring.provisioner.derive system.machine.state.references second = .ok native →
      first = second
  unbound : ∀ evm ∈ evms, system.machine.state.table.find? evm = none → ∀ native,
    wiring.provisioner.derive system.machine.state.references evm = .ok native →
    ∀ bound, system.machine.state.table.evm? native = some bound → bound = evm

/-- Two systems that differ at most in the order of their mappings and accounts. -/
structure SameUpToOrder (first second : System) : Prop where
  mappings : first.machine.state.table.mappings.Perm second.machine.state.table.mappings
  mapping : ∀ evm, first.machine.state.table.find? evm = second.machine.state.table.find? evm
  bound : ∀ native, first.machine.state.table.evm? native = second.machine.state.table.evm? native
  accounts : first.ledger.accounts.Perm second.ledger.accounts
  account : ∀ place, first.ledger.find? place = second.ledger.find? place
  requests : first.ledger.requests = second.ledger.requests
  rejection : first.ledger.rejection = second.ledger.rejection
  state : { first.machine.state with table := .empty } =
    { second.machine.state with table := .empty }
  waiting : first.machine.waiting = second.machine.waiting

variable {wiring : Wiring} {origin : System} {evms done : List Int} {evm : Int}

/-! ## Verdicts -/

/-- What the resolution of an address comes to in a system. -/
def verdict (wiring : Wiring) (system : System) (evm : Int) : Verdict :=
  match system.machine.state.table.find? evm with
  | some mapping => .mapped mapping.nativeAddress
  | none =>
      match wiring.intends system.machine.state evm with
      | .error stop => .stopped stop
      | .ok plan =>
          match system.ledger.rejection plan.request with
          | some reason => .rejected plan reason
          | none => .granted plan

theorem verdict_eq_granted {plan : DeploymentPlan} :
    origin.verdict wiring evm = .granted plan ↔
      origin.machine.state.table.find? evm = none ∧
        wiring.intends origin.machine.state evm = .ok plan ∧
        origin.ledger.rejection plan.request = none := by
  unfold verdict
  split
  · rename_i mapping hfound
    simp [hfound]
  · rename_i hunmapped
    split
    · rename_i stop hstopped
      simp [hstopped]
    · rename_i made hintends
      split
      · rename_i reason hrejected
        simp only [reduceCtorEq, hintends, Except.ok.injEq, false_iff]
        rintro ⟨-, rfl, hadmitted⟩
        rw [hrejected] at hadmitted
        cases hadmitted
      · rename_i hadmitted
        simp only [Verdict.granted.injEq, hunmapped, hintends, Except.ok.injEq, true_and]
        constructor
        · rintro rfl
          exact ⟨rfl, hadmitted⟩
        · exact And.left

/-- The plans that are granted among the addresses, each of them once. -/
def grants (wiring : Wiring) (origin : System) (done : List Int) : List DeploymentPlan :=
  done.dedup.filterMap fun evm => (origin.verdict wiring evm).plan?

theorem mem_grants (hstandard : wiring.Standard) {plan : DeploymentPlan} :
    plan ∈ origin.grants wiring done ↔
      plan.evmAddress ∈ done ∧ origin.verdict wiring plan.evmAddress = .granted plan := by
  simp only [grants, List.mem_filterMap, List.mem_dedup, Verdict.plan?_eq_some]
  constructor
  · rintro ⟨evm, hmem, hgranted⟩
    obtain ⟨-, hintends, -⟩ := verdict_eq_granted.mp hgranted
    obtain ⟨rfl, -⟩ := Wiring.intends_eq_ok hstandard hintends
    exact ⟨hmem, hgranted⟩
  · rintro ⟨hmem, hgranted⟩
    exact ⟨plan.evmAddress, hmem, hgranted⟩

theorem grants_cons_of_mem (hmem : evm ∈ done) :
    origin.grants wiring (evm :: done) = origin.grants wiring done := by
  rw [grants, List.dedup_cons_of_mem hmem, grants]

theorem grants_cons_of_none (hplan : (origin.verdict wiring evm).plan? = none) :
    origin.grants wiring (evm :: done) = origin.grants wiring done := by
  by_cases hmem : evm ∈ done
  · exact grants_cons_of_mem hmem
  · simp only [grants, List.dedup_cons_of_notMem hmem, List.filterMap_cons, hplan]

theorem grants_cons_of_granted {plan : DeploymentPlan} (hnew : evm ∉ done)
    (hgranted : origin.verdict wiring evm = .granted plan) :
    origin.grants wiring (evm :: done) = plan :: origin.grants wiring done := by
  simp only [grants, List.dedup_cons_of_notMem hnew, List.filterMap_cons, hgranted, Verdict.plan?]

/-- Plans that are granted for one EVM address are one plan. -/
theorem eq_of_evm (hstandard : wiring.Standard) {first second : DeploymentPlan}
    (hfirst : first ∈ origin.grants wiring done) (hsecond : second ∈ origin.grants wiring done)
    (hevm : first.evmAddress = second.evmAddress) : first = second := by
  have hgranted := ((mem_grants hstandard).mp hfirst).2
  rw [hevm, ((mem_grants hstandard).mp hsecond).2] at hgranted
  exact (Verdict.granted.inj hgranted).symm

/-- Plans for one native address are one plan, if the addresses are apart. -/
theorem Apart.eq_of_native (hapart : origin.Apart wiring evms) (hstandard : wiring.Standard)
    (hdone : done ⊆ evms) {first second : DeploymentPlan}
    (hfirst : first ∈ origin.grants wiring done) (hsecond : second ∈ origin.grants wiring done)
    (hnative : first.nativeAddress = second.nativeAddress) : first = second := by
  obtain ⟨hfirstDone, hfirstGranted⟩ := (mem_grants hstandard).mp hfirst
  obtain ⟨hsecondDone, hsecondGranted⟩ := (mem_grants hstandard).mp hsecond
  obtain ⟨hfirstFree, hfirstIntended, -⟩ := verdict_eq_granted.mp hfirstGranted
  obtain ⟨hsecondFree, hsecondIntended, -⟩ := verdict_eq_granted.mp hsecondGranted
  obtain ⟨-, -, -, hfirstDerived⟩ := Wiring.intends_eq_ok hstandard hfirstIntended
  obtain ⟨-, -, -, hsecondDerived⟩ := Wiring.intends_eq_ok hstandard hsecondIntended
  refine eq_of_evm hstandard hfirst hsecond ?_
  exact hapart.distinct _ (hdone hfirstDone) _ (hdone hsecondDone) hfirstFree hsecondFree _
    hfirstDerived (hnative ▸ hsecondDerived)

/-! ## The system after some resolutions -/

/-- The system in which some plans have been carried out and some requests have been rejected. -/
def carried (origin : System) (plans : List DeploymentPlan) (rejected : Nat) : System where
  machine :=
    { origin.machine with
      state :=
        { origin.machine.state with
          table := ⟨plans.map DeploymentPlan.mapping ++ origin.machine.state.table.mappings,
            plans.map (fun plan => (plan.nativeAddress, plan.evmAddress)) ++
              origin.machine.state.table.reverse⟩ } }
  ledger :=
    { origin.ledger with
      accounts :=
        (plans.filter fun plan => origin.ledger.find? plan.nativeAddress = none).map
          (fun plan => Ledger.account plan.request plan.nativeAddress) ++ origin.ledger.accounts
      requests := origin.ledger.requests + plans.length + rejected }

/-- The system after some addresses were resolved, the latest first. -/
def after (wiring : Wiring) (origin : System) (done : List Int) : System :=
  origin.carried (origin.grants wiring done)
    (done.countP fun evm => (origin.verdict wiring evm).isRejected)

theorem after_nil (wiring : Wiring) (origin : System) : origin.after wiring [] = origin := rfl

theorem find?_carried (origin : System) (plans : List DeploymentPlan) (rejected : Nat) (evm : Int) :
    (origin.carried plans rejected).machine.state.table.find? evm =
      ((plans.find? fun plan => plan.evmAddress = evm).map DeploymentPlan.mapping).or
        (origin.machine.state.table.find? evm) := by
  simp only [carried, AddressTable.find?, List.find?_append, List.find?_map]
  rfl

theorem evm?_carried (origin : System) (plans : List DeploymentPlan) (rejected : Nat)
    (native : Int) :
    (origin.carried plans rejected).machine.state.table.evm? native =
      ((plans.find? fun plan => plan.nativeAddress = native).map DeploymentPlan.evmAddress).or
        (origin.machine.state.table.evm? native) := by
  simp only [carried, AddressTable.evm?, List.lookup_append]
  congr 1
  induction plans with
  | nil => rfl
  | cons plan rest ih =>
      by_cases hnative : plan.nativeAddress = native
      · simp [hnative]
      · simp [List.lookup_cons, hnative, beq_eq_false_iff_ne.mpr (Ne.symm hnative), ih]

theorem find?_ledger_carried (origin : System) (plans : List DeploymentPlan) (rejected : Nat)
    (place : Int) :
    (origin.carried plans rejected).ledger.find? place =
      ((plans.find? fun plan => origin.ledger.find? plan.nativeAddress = none ∧
          plan.nativeAddress = place).map
        fun plan => Ledger.account plan.request plan.nativeAddress).or
        (origin.ledger.find? place) := by
  simp only [carried, Ledger.find?, List.find?_append, List.find?_map, List.find?_filter]
  congr 2
  simp [Ledger.account]

/-- A mapped address stays mapped, for a plan is granted to an unmapped one only. -/
theorem find?_after_of_mapped (hstandard : wiring.Standard) {mapping : Mapping}
    (hmapped : origin.machine.state.table.find? evm = some mapping) :
    (origin.after wiring done).machine.state.table.find? evm = some mapping := by
  have hnone : (origin.grants wiring done).find? (fun plan => plan.evmAddress = evm) = none := by
    refine List.find?_eq_none.mpr fun plan hmem hevm => ?_
    obtain ⟨-, hgranted⟩ := (mem_grants hstandard).mp hmem
    have hfree := (verdict_eq_granted.mp hgranted).1
    rw [of_decide_eq_true hevm, hmapped] at hfree
    cases hfree
  rw [after, find?_carried, hnone, hmapped]
  rfl

/-- An address with a granted plan is mapped by its first resolution. -/
theorem find?_after_of_granted (hstandard : wiring.Standard) {plan : DeploymentPlan}
    (hgranted : origin.verdict wiring evm = .granted plan) (hmem : evm ∈ done) :
    (origin.after wiring done).machine.state.table.find? evm = some plan.mapping := by
  obtain ⟨-, hintends, -⟩ := verdict_eq_granted.mp hgranted
  obtain ⟨hevm, -⟩ := Wiring.intends_eq_ok hstandard hintends
  have hplan : plan ∈ origin.grants wiring done := by
    rw [mem_grants hstandard, hevm]
    exact ⟨hmem, hgranted⟩
  cases hfound : (origin.grants wiring done).find? (fun plan => plan.evmAddress = evm) with
  | none => exact absurd (decide_eq_true hevm) (List.find?_eq_none.mp hfound plan hplan)
  | some other =>
      have hother : other.evmAddress = evm := by simpa using List.find?_some hfound
      have hsame : other = plan :=
        eq_of_evm hstandard (List.mem_of_find?_eq_some hfound) hplan (hother.trans hevm.symm)
      rw [after, find?_carried, hfound, hsame]
      rfl

/-- Any other address stays unmapped. -/
theorem find?_after_of_unmapped (hstandard : wiring.Standard)
    (hunmapped : origin.machine.state.table.find? evm = none)
    (hnew : (origin.verdict wiring evm).plan? = none ∨ evm ∉ done) :
    (origin.after wiring done).machine.state.table.find? evm = none := by
  have hnone : (origin.grants wiring done).find? (fun plan => plan.evmAddress = evm) = none := by
    refine List.find?_eq_none.mpr fun plan hmem hevm => ?_
    obtain ⟨hdone, hgranted⟩ := (mem_grants hstandard).mp hmem
    rw [of_decide_eq_true hevm] at hdone hgranted
    rcases hnew with hplan | hnew
    · rw [hgranted] at hplan
      cases hplan
    · exact hnew hdone
  rw [after, find?_carried, hnone, hunmapped]
  rfl

/-- The native address of a plan is bound to no other EVM address by what came before. -/
theorem Apart.evm?_after (hapart : origin.Apart wiring evms) (hstandard : wiring.Standard)
    (hdone : done ⊆ evms) (hmem : evm ∈ evms)
    (hunmapped : origin.machine.state.table.find? evm = none) {plan : DeploymentPlan}
    (hintends : wiring.intends origin.machine.state evm = .ok plan) {bound : Int}
    (hbound : (origin.after wiring done).machine.state.table.evm? plan.nativeAddress =
      some bound) : bound = evm := by
  obtain ⟨-, -, -, hderived⟩ := Wiring.intends_eq_ok hstandard hintends
  rw [after, evm?_carried] at hbound
  rcases Option.or_eq_some_iff.mp hbound with hgranted | ⟨-, hbefore⟩
  · obtain ⟨other, hother, rfl⟩ := Option.map_eq_some_iff.mp hgranted
    have hnative : other.nativeAddress = plan.nativeAddress := by
      simpa using List.find?_some hother
    obtain ⟨hotherDone, hotherGranted⟩ :=
      (mem_grants hstandard).mp (List.mem_of_find?_eq_some hother)
    obtain ⟨hotherFree, hotherIntended, -⟩ := verdict_eq_granted.mp hotherGranted
    obtain ⟨-, -, -, hotherDerived⟩ := Wiring.intends_eq_ok hstandard hotherIntended
    exact hapart.distinct _ (hdone hotherDone) _ hmem hotherFree hunmapped _
      (hnative ▸ hotherDerived) hderived
  · exact hapart.unbound evm hmem hunmapped _ hderived bound hbefore

/-- Nothing was deployed at the native address of a plan that is carried out for the first time. -/
theorem Apart.find?_ledger_after (hapart : origin.Apart wiring evms) (hstandard : wiring.Standard)
    (hdone : done ⊆ evms) (hmem : evm ∈ evms) (hnew : evm ∉ done) {plan : DeploymentPlan}
    (hgranted : origin.verdict wiring evm = .granted plan) :
    (origin.after wiring done).ledger.find? plan.nativeAddress =
      origin.ledger.find? plan.nativeAddress := by
  have hrecent : plan ∈ origin.grants wiring (evm :: done) := by
    rw [grants_cons_of_granted hnew hgranted]
    exact List.mem_cons_self
  obtain ⟨-, hintends, -⟩ := verdict_eq_granted.mp hgranted
  obtain ⟨hevm, -⟩ := Wiring.intends_eq_ok hstandard hintends
  have hnone : (origin.grants wiring done).find? (fun plan' =>
      origin.ledger.find? plan'.nativeAddress = none ∧
        plan'.nativeAddress = plan.nativeAddress) = none := by
    refine List.find?_eq_none.mpr fun other hother hsame => ?_
    have hearlier : other ∈ origin.grants wiring (evm :: done) := by
      rw [grants_cons_of_granted hnew hgranted]
      exact List.mem_cons_of_mem _ hother
    have hplan : other = plan := hapart.eq_of_native hstandard
      (List.cons_subset.mpr ⟨hmem, hdone⟩) hearlier hrecent (of_decide_eq_true hsame).2
    have hdone := ((mem_grants hstandard).mp hother).1
    rw [hplan, hevm] at hdone
    exact hnew hdone
  rw [after, find?_ledger_carried, hnone]
  rfl

/-! ## One resolution after others -/

theorem after_cons_of_kept
    (hgrants : origin.grants wiring (evm :: done) = origin.grants wiring done)
    (hrejected : (origin.verdict wiring evm).isRejected = false) :
    origin.after wiring (evm :: done) = origin.after wiring done := by
  simp only [after, hgrants, List.countP_cons, hrejected, Bool.false_eq_true, if_false,
    Nat.add_zero]

theorem after_cons_of_rejected {plan : DeploymentPlan} {reason : String}
    (hverdict : origin.verdict wiring evm = .rejected plan reason) :
    origin.after wiring (evm :: done) =
      ⟨(origin.after wiring done).machine, (origin.after wiring done).ledger.counted⟩ := by
  have hgrants : origin.grants wiring (evm :: done) = origin.grants wiring done :=
    grants_cons_of_none (by rw [hverdict]; rfl)
  have hrejected : (origin.verdict wiring evm).isRejected = true := by
    rw [hverdict]
    rfl
  simp only [after, hgrants, List.countP_cons, hrejected, if_true]
  rfl

/-- A plan is carried out by writing its mapping and by passing its request to the ledger. -/
theorem carried_cons {hash : Hash} {deployer : Int} {plan : DeploymentPlan}
    (hderived : plan.Derived hash deployer)
    (hadmitted : origin.ledger.rejection plan.request = none) {plans : List DeploymentPlan}
    {rejected : Nat}
    (hsame : (origin.carried plans rejected).ledger.find? plan.nativeAddress =
      origin.ledger.find? plan.nativeAddress) :
    origin.carried (plan :: plans) rejected =
      ⟨⟨Addresses.writing (origin.carried plans rejected).machine.state plan.mapping,
          (origin.carried plans rejected).machine.waiting⟩,
        (origin.carried plans rejected).ledger.deploy hash plan.request⟩ := by
  have hcount : origin.ledger.requests + (plans.length + 1) + rejected =
      origin.ledger.requests + plans.length + rejected + 1 := by omega
  have hlet : (origin.carried plans rejected).ledger.rejection plan.request = none := hadmitted
  rw [Ledger.deploy_of_admitted hderived hlet, hsame]
  by_cases hfree : origin.ledger.find? plan.nativeAddress = none
  · rw [if_pos hfree]
    simp only [carried, List.filter_cons, hfree, decide_true, if_true, List.length_cons, hcount]
    rfl
  · rw [if_neg hfree]
    simp only [carried, List.filter_cons, hfree, decide_false, Bool.false_eq_true, if_false,
      List.length_cons, hcount]
    rfl

theorem Apart.after_cons_of_granted (hapart : origin.Apart wiring evms)
    (hstandard : wiring.Standard) (hdone : done ⊆ evms) (hmem : evm ∈ evms) (hnew : evm ∉ done)
    {plan : DeploymentPlan} (hgranted : origin.verdict wiring evm = .granted plan) :
    origin.after wiring (evm :: done) =
      ⟨⟨Addresses.writing (origin.after wiring done).machine.state plan.mapping,
          (origin.after wiring done).machine.waiting⟩,
        (origin.after wiring done).ledger.deploy wiring.hash plan.request⟩ := by
  obtain ⟨-, hintends, hadmitted⟩ := verdict_eq_granted.mp hgranted
  obtain ⟨-, hderived, -⟩ := Wiring.intends_eq_ok hstandard hintends
  have hrejected : (origin.verdict wiring evm).isRejected = false := by
    rw [hgranted]
    rfl
  have hsame := hapart.find?_ledger_after hstandard hdone hmem hnew hgranted
  rw [after, grants_cons_of_granted hnew hgranted, List.countP_cons_of_neg (by simp [hrejected])]
  exact carried_cons hderived hadmitted hsame

/-- An address with a granted plan ends with the planned address: it is carried out by the first
resolution, and found by those that come later. -/
theorem Apart.complete_after_of_granted (hapart : origin.Apart wiring evms)
    (hstandard : wiring.Standard) (hdone : done ⊆ evms) (hmem : evm ∈ evms)
    {plan : DeploymentPlan} (hgranted : origin.verdict wiring evm = .granted plan) :
    ((origin.after wiring done).complete wiring (.resolve evm) none).effect =
        .ended (.resolve evm) (.ok (.integer plan.nativeAddress)) ∧
      ((origin.after wiring done).complete wiring (.resolve evm) none).system =
        origin.after wiring (evm :: done) := by
  obtain ⟨hunmapped, hintends, hadmitted⟩ := verdict_eq_granted.mp hgranted
  by_cases hnew : evm ∈ done
  · have hfound : (origin.after wiring done).machine.state.table.find? evm = some plan.mapping :=
      find?_after_of_granted hstandard hgranted hnew
    obtain ⟨heffect, hsystem⟩ :=
      complete_of_finished rfl (Registry.begin_resolve_of_mapped hfound) none
    rw [heffect, hsystem,
      after_cons_of_kept (grants_cons_of_mem hnew) (by rw [hgranted]; rfl)]
    exact ⟨rfl, rfl⟩
  · have hfree : (origin.after wiring done).machine.state.table.find? evm = none :=
      find?_after_of_unmapped hstandard hunmapped (.inr hnew)
    have hbegun := Registry.begin_resolve_asks hfree hintends
      fun bound => hapart.evm?_after hstandard hdone hmem hunmapped hintends
    obtain ⟨heffect, hsystem⟩ := complete_of_admitted hstandard rfl hbegun hadmitted
    rw [heffect, hsystem, hapart.after_cons_of_granted hstandard hdone hmem hnew hgranted]
    exact ⟨rfl, rfl⟩

/-- One more resolution ends as its verdict says, whatever was resolved before, and leads to the
system after it. -/
theorem complete_after (hstandard : wiring.Standard) (hapart : origin.Apart wiring evms)
    (hdone : done ⊆ evms) (hmem : evm ∈ evms) :
    ((origin.after wiring done).complete wiring (.resolve evm) none).effect =
        .ended (.resolve evm) (origin.verdict wiring evm).outcome ∧
      ((origin.after wiring done).complete wiring (.resolve evm) none).system =
        origin.after wiring (evm :: done) := by
  have hfree (hunmapped : origin.machine.state.table.find? evm = none)
      (hplan : (origin.verdict wiring evm).plan? = none) :
      (origin.after wiring done).machine.state.table.find? evm = none :=
    find?_after_of_unmapped hstandard hunmapped (.inl hplan)
  cases hfound : origin.machine.state.table.find? evm with
  | some mapping =>
      have hverdict : origin.verdict wiring evm = .mapped mapping.nativeAddress := by
        simp only [verdict, hfound]
      have hplan : (origin.verdict wiring evm).plan? = none := by rw [hverdict]; rfl
      have hkept : (origin.after wiring done).machine.state.table.find? evm = some mapping :=
        find?_after_of_mapped hstandard hfound
      obtain ⟨heffect, hsystem⟩ :=
        complete_of_finished rfl (Registry.begin_resolve_of_mapped hkept) none
      rw [heffect, hsystem,
        after_cons_of_kept (grants_cons_of_none hplan) (by rw [hverdict]; rfl), hverdict]
      exact ⟨rfl, rfl⟩
  | none =>
      cases hintends : wiring.intends origin.machine.state evm with
      | error stop =>
          have hverdict : origin.verdict wiring evm = .stopped stop := by
            simp only [verdict, hfound, hintends]
          have hplan : (origin.verdict wiring evm).plan? = none := by rw [hverdict]; rfl
          have hbegun := Registry.begin_resolve_stops (hfree hfound hplan) hintends
          obtain ⟨heffect, hsystem⟩ := complete_of_stopped rfl hbegun none
          rw [heffect, hsystem,
            after_cons_of_kept (grants_cons_of_none hplan) (by rw [hverdict]; rfl), hverdict]
          exact ⟨rfl, rfl⟩
      | ok plan =>
          cases hrejection : origin.ledger.rejection plan.request with
          | some reason =>
              have hverdict : origin.verdict wiring evm = .rejected plan reason := by
                simp only [verdict, hfound, hintends, hrejection]
              have hplan : (origin.verdict wiring evm).plan? = none := by rw [hverdict]; rfl
              have hbegun := Registry.begin_resolve_asks (hfree hfound hplan) hintends
                fun bound => hapart.evm?_after hstandard hdone hmem hfound hintends
              obtain ⟨heffect, hsystem⟩ := complete_of_rejected hstandard rfl hbegun hrejection
              rw [heffect, hsystem, after_cons_of_rejected hverdict, hverdict]
              exact ⟨rfl, rfl⟩
          | none =>
              have hverdict : origin.verdict wiring evm = .granted plan :=
                verdict_eq_granted.mpr ⟨hfound, hintends, hrejection⟩
              rw [hverdict]
              exact hapart.complete_after_of_granted hstandard hdone hmem hverdict

/-- A run of resolutions: each ends as its verdict says. -/
theorem resolveAll_after (hstandard : wiring.Standard) (hapart : origin.Apart wiring evms)
    {rest : List Int} (hdone : done ⊆ evms) (hrest : rest ⊆ evms) :
    (origin.after wiring done).resolutions wiring rest =
        rest.map (fun evm => .ended (.resolve evm) (origin.verdict wiring evm).outcome) ∧
      (origin.after wiring done).resolveAll wiring rest =
        origin.after wiring (rest.reverse ++ done) := by
  induction rest generalizing done with
  | nil => exact ⟨rfl, rfl⟩
  | cons evm rest ih =>
      obtain ⟨hmem, hrest⟩ := List.cons_subset.mp hrest
      obtain ⟨heffect, hsystem⟩ := complete_after hstandard hapart hdone hmem
      obtain ⟨heffects, hended⟩ := ih (List.cons_subset.mpr ⟨hmem, hdone⟩) hrest
      simp only [resolutions, resolveAll, heffect, hsystem, heffects, hended, List.map_cons,
        List.reverse_cons, List.append_assoc, List.singleton_append, and_self]

/-! ## Other orders -/

/-- The system after some resolutions is the same up to order whatever order they came in. -/
theorem Apart.after_same (hapart : origin.Apart wiring evms) (hstandard : wiring.Standard)
    {other : List Int} (hdone : done ⊆ evms) (hperm : done.Perm other) :
    (origin.after wiring done).SameUpToOrder (origin.after wiring other) := by
  have hplans : (origin.grants wiring done).Perm (origin.grants wiring other) :=
    hperm.dedup.filterMap _
  have hnative : ∀ native, ∀ first ∈ origin.grants wiring done,
      ∀ second ∈ origin.grants wiring done, first.nativeAddress = native →
      second.nativeAddress = native → first = second :=
    fun native first hfirst second hsecond hone htwo =>
      hapart.eq_of_native hstandard hdone hfirst hsecond (hone.trans htwo.symm)
  have hrejected := hperm.countP_eq fun evm => (origin.verdict wiring evm).isRejected
  exact {
    mappings := (hplans.map _).append_right _
    mapping := fun evm => by
      rw [after, after, find?_carried, find?_carried, find?_eq_of_perm hplans]
      intro first hfirst second hsecond hone htwo
      exact eq_of_evm hstandard hfirst hsecond
        ((of_decide_eq_true hone).trans (of_decide_eq_true htwo).symm)
    bound := fun native => by
      rw [after, after, evm?_carried, evm?_carried, find?_eq_of_perm hplans]
      intro first hfirst second hsecond hone htwo
      exact hnative native first hfirst second hsecond (of_decide_eq_true hone)
        (of_decide_eq_true htwo)
    accounts := ((hplans.filter _).map _).append_right _
    account := fun place => by
      rw [after, after, find?_ledger_carried, find?_ledger_carried, find?_eq_of_perm hplans]
      intro first hfirst second hsecond hone htwo
      exact hnative place first hfirst second hsecond (of_decide_eq_true hone).2
        (of_decide_eq_true htwo).2
    requests := by
      show origin.ledger.requests + _ + _ = origin.ledger.requests + _ + _
      rw [hplans.length_eq, hrejected]
    rejection := rfl
    state := rfl
    waiting := rfl }

/-- In every reachable state of a created registry over the ledger in memory, with a rule that stays
as it is, addresses are resolved one after the other.  If the native addresses that are derived for
the unmapped ones differ from each other and are not bound to other EVM addresses, any other order
leads to the same mappings, the same accounts and the same number of requests, and every occurrence
of an address in either order has the same result. -/
theorem resolution_order_is_free {hash : Hash} {setup : Setup} {launched : Launched}
    (hcreated : Launched.create hash setup = .ok launched) (ledger : Ledger) (events : List Event)
    (evms others : List Int) (hperm : evms.Perm others) :
    let wiring := launched.wiring
    let origin := (idle launched.state ledger).run wiring events
    origin.Apart wiring evms →
    (origin.resolveAll wiring evms).SameUpToOrder (origin.resolveAll wiring others) ∧
    ∃ outcome : Int → Except Stop Answer,
      origin.resolutions wiring evms = evms.map (fun evm => .ended (.resolve evm) (outcome evm)) ∧
      origin.resolutions wiring others =
        others.map (fun evm => .ended (.resolve evm) (outcome evm)) := by
  intro wiring origin hapart
  have hstandard : wiring.Standard := Launched.create_standard hcreated
  obtain ⟨hresults, hended⟩ :=
    resolveAll_after hstandard hapart (List.nil_subset evms) (List.Subset.refl evms)
  obtain ⟨hotherResults, hotherEnded⟩ :=
    resolveAll_after hstandard hapart (List.nil_subset evms) hperm.symm.subset
  rw [after_nil] at hresults hended hotherResults hotherEnded
  rw [hended, hotherEnded, List.append_nil, List.append_nil]
  refine ⟨hapart.after_same hstandard ?_ ?_, _, hresults, hotherResults⟩
  · exact List.reverse_subset.mpr (List.Subset.refl evms)
  · exact (evms.reverse_perm.trans hperm).trans others.reverse_perm.symm

/-! ## Two orders -/

theorem Apart.of_toOption {system : System}
    (hdistinct : ∀ first ∈ evms, ∀ second ∈ evms,
      (wiring.provisioner.derive system.machine.state.references first).toOption =
        (wiring.provisioner.derive system.machine.state.references second).toOption →
      (wiring.provisioner.derive system.machine.state.references first).toOption = none ∨
        first = second)
    (hempty : system.machine.state.table.reverse = []) : system.Apart wiring evms where
  distinct first hfirst second hsecond _ _ native hone htwo := by
    rcases hdistinct first hfirst second hsecond (by rw [hone, htwo]) with hnone | hsame
    · rw [hone] at hnone
      cases hnone
    · exact hsame
  unbound evm _ _ native _ bound hbound := by
    rw [AddressTable.evm?, hempty] at hbound
    cases hbound

/-- A ledger whose rule rejects the requests for address 8. -/
def withoutEight : Ledger :=
  ⟨[], fun request => if request.salt = 8 then some "full" else none, 0⟩

/-- Where every account lives at the EVM address that it stands for, two addresses are resolved with
repetitions, together with one that the ledger rejects and one that is out of range.  In the other
order the deployments come the other way round, and the requests are counted at other moments. -/
theorem resolution_order_is_free_with_repetitions :
    let wiring := (Launched.small .toSalt).wiring
    let origin := (idle (Launched.small .toSalt).state withoutEight).run wiring
      [.call (.setClassReference 2 "proxy" 9)]
    let first := origin.resolveAll wiring [7, 8, 5, -1, 7, 8]
    let second := origin.resolveAll wiring [8, 8, -1, 5, 7, 7]
    first.SameUpToOrder second ∧ first.machine.state.table.mappings.length = 2 ∧
      second.ledger.requests = 4 := by
  intro wiring origin first second
  have hapart : origin.Apart wiring [7, 8, 5, -1, 7, 8] :=
    .of_toOption (by decide +kernel) (by decide +kernel)
  obtain ⟨hsame, -⟩ := resolution_order_is_free (Launched.create_small .toSalt) withoutEight
    [.call (.setClassReference 2 "proxy" 9)] [7, 8, 5, -1, 7, 8] [8, 8, -1, 5, 7, 7]
    (by decide) hapart
  exact ⟨hsame, by decide +kernel, by decide +kernel⟩

end System

end AccountRegistry
