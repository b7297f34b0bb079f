import AccountRegistry.Proofs.AddressTable
import AccountRegistry.Proofs.PrivilegedWrites
import AccountRegistry.Proofs.Provisioning
import AccountRegistry.Registry.Wiring

/-!
# What a registry stores is in range

Every value that a registry stores was checked when it was written: the owner, the class
references, the native token, the block context and both addresses of each mapping (`State.Valid`).
A created registry starts like that, whatever its spec holds, because creation checks the two
addresses of its identity.  The privileged writes, genesis and the lifecycle keep it in every
ending, and can only be refused.
-/

namespace AccountRegistry

open Procedure

/-! ## The invariant -/

/-- Every stored value is in the range of its slot. -/
structure State.Valid (state : State) : Prop where
  owner : Address.IsNative state.owner
  references : ∀ kind reference, state.references.reference? kind = some reference →
    Address.IsClassReference reference
  nativeToken : ∀ token, state.nativeToken = some token → Address.IsNative token
  context : ∀ context, state.context = some context →
    Address.IsNative context.coinbase ∧ 0 ≤ context.baseFee
  table : state.table.Valid

theorem State.Valid.initial {owner : Int} (howner : Address.IsNative owner)
    (code : List (Int × String)) : (State.initial owner code).Valid where
  owner := howner
  references := by
    intro kind reference hreference
    have hempty : ClassReferences.empty.reference? kind = some reference := hreference
    simp [ClassReferences.reference?] at hempty
  nativeToken := nofun
  context := nofun
  table := .empty

theorem ClassReferences.reference?_set (store : ClassReferences) (kind other : ClassKind)
    (reference : Int) :
    (store.set kind reference).reference? other =
      if other = kind then some reference else store.reference? other := by
  unfold reference? set
  by_cases hkind : other = kind
  · rw [if_pos hkind, hkind, slot_withSlot_self]
    rfl
  · rw [if_neg hkind, slot_withSlot_of_ne store _ hkind]

/-- Only addresses in range make an identity. -/
theorem Identity.ofSpec_isNative {spec : Spec} {overrides : Overrides} {identity : Identity}
    (hidentity : Identity.ofSpec spec overrides = .ok identity) :
    Address.IsNative identity.deployer ∧ Address.IsNative identity.initialOwner := by
  unfold Identity.ofSpec at hidentity
  dsimp only at hidentity
  split at hidentity
  · cases hidentity
  · rename_i hdeployer
    split at hidentity
    · cases hidentity
    · rename_i howner
      cases hidentity
      exact ⟨not_not.mp hdeployer, not_not.mp howner⟩

theorem Wiring.create_isNative {hash : Hash} {setup : Setup} {wiring : Wiring}
    (hcreated : Wiring.create hash setup = .ok wiring) :
    Address.IsNative wiring.identity.deployer ∧ Address.IsNative wiring.identity.initialOwner := by
  unfold Wiring.create at hcreated
  split at hcreated
  · rename_i identity hidentity
    cases hcreated
    exact Identity.ofSpec_isNative hidentity
  · cases hcreated

/-! ## The privileged writes -/

namespace Configuration

/-- What a privileged write can be refused with. -/
def codes : List FaultCode :=
  [.unauthorized, .invalidNativeAddress, .invalidClassKind, .invalidClassReference,
   .alreadyConfigured, .invalidBaseFee]

theorem transferOwnership_guarded (caller newOwner : Int) :
    Guarded State.Valid [.unauthorized, .invalidNativeAddress]
      (transferOwnership caller newOwner) := by
  intro state hvalid
  rcases transferOwnership_cases hvalid.owner caller newOwner with ⟨-, hrefused⟩ |
    ⟨-, -, hrefused⟩ | ⟨-, hnew, houtcome, hstate⟩
  · exact hrefused.guarded hvalid (by simp)
  · exact hrefused.guarded hvalid (by simp)
  · rw [houtcome, hstate]
    exact ⟨{ hvalid with owner := hnew }, .ok _⟩

theorem setClassReference_guarded (caller : Int) (label : String) (reference : Int) :
    Guarded State.Valid [.unauthorized, .invalidClassKind, .invalidClassReference]
      (setClassReference caller label reference) := by
  intro state hvalid
  rcases setClassReference_cases state caller label reference with ⟨-, hrefused⟩ |
    ⟨-, -, hrefused⟩ | ⟨-, -, hrefused⟩ | ⟨-, hreference, kind, -, houtcome, hstate⟩
  · exact hrefused.guarded hvalid (by simp)
  · exact hrefused.guarded hvalid (by simp)
  · exact hrefused.guarded hvalid (by simp)
  · rw [houtcome, hstate]
    refine ⟨{ hvalid with references := ?_ }, .ok _⟩
    intro other stored hstored
    dsimp only at hstored
    rw [ClassReferences.reference?_set] at hstored
    split at hstored
    · cases hstored
      exact hreference
    · exact hvalid.references other stored hstored

theorem setNativeToken_guarded (caller address : Int) :
    Guarded State.Valid [.unauthorized, .alreadyConfigured, .invalidNativeAddress]
      (setNativeToken caller address) := by
  intro state hvalid
  rcases setNativeToken_cases hvalid.nativeToken caller address with ⟨-, hrefused⟩ |
    ⟨-, -, hrefused⟩ | ⟨-, -, -, hrefused⟩ | ⟨-, -, haddress, houtcome, hstate⟩
  · exact hrefused.guarded hvalid (by simp)
  · exact hrefused.guarded hvalid (by simp)
  · exact hrefused.guarded hvalid (by simp)
  · rw [houtcome, hstate]
    refine ⟨{ hvalid with nativeToken := ?_ }, .ok _⟩
    intro token htoken
    cases htoken
    exact haddress

theorem setContext_guarded (caller coinbase baseFee : Int) :
    Guarded State.Valid [.unauthorized, .invalidNativeAddress, .invalidBaseFee]
      (setContext caller coinbase baseFee) := by
  intro state hvalid
  rcases setContext_cases state caller coinbase baseFee with ⟨-, hrefused⟩ |
    ⟨-, -, hrefused⟩ | ⟨-, -, -, hrefused⟩ | ⟨-, hcoinbase, hfee, houtcome, hstate⟩
  · exact hrefused.guarded hvalid (by simp)
  · exact hrefused.guarded hvalid (by simp)
  · exact hrefused.guarded hvalid (by simp)
  · rw [houtcome, hstate]
    refine ⟨{ hvalid with context := ?_ }, .ok _⟩
    intro context hcontext
    cases hcontext
    exact ⟨hcoinbase, hfee⟩

end Configuration

/-! ## Genesis -/

namespace Genesis

theorem applyReferences_guarded (spec : Spec) (owner : Int) (kinds : List ClassKind) :
    Guarded State.Valid Configuration.codes (applyReferences spec owner kinds) := by
  induction kinds with
  | nil => exact .pure ()
  | cons kind rest ih =>
      unfold applyReferences
      split
      · exact ((Configuration.setClassReference_guarded _ _ _).mono (by decide)).bind fun _ => ih
      · exact ih

theorem applyToken_guarded (spec : Spec) (owner : Int) :
    Guarded State.Valid Configuration.codes (applyToken spec owner) := by
  unfold applyToken
  split
  · exact ((Configuration.setNativeToken_guarded _ _).mono (by decide)).bind fun _ => .pure _
  · exact .pure ()

theorem applyContext_guarded (spec : Spec) (owner : Int) :
    Guarded State.Valid Configuration.codes (applyContext spec owner) := by
  unfold applyContext
  split
  · exact ((Configuration.setContext_guarded _ _ _).mono (by decide)).bind fun _ => .pure _
  · exact .pure ()

/-- Genesis leaves valid slots behind even where the values of the spec are refused. -/
theorem init_guarded (spec : Spec) :
    Guarded State.Valid Configuration.codes (init spec) := by
  refine Guarded.get.bind fun current => ?_
  split
  · exact .pure ()
  · refine .bind (Guarded.get.bind fun state => ?_) fun _ => .modify fun _ hvalid => { hvalid with }
    exact (applyReferences_guarded spec _ _).bind fun _ =>
      (applyToken_guarded spec _).bind fun _ =>
      (applyContext_guarded spec _).bind fun _ => .note _ _ _

end Genesis

/-! ## The lifecycle -/

namespace Lifecycle

variable {σ : Type} {invariant : σ → Prop} {codes : List FaultCode}

theorem runInOrder_guarded {transition : Service σ → Procedure σ Unit} {complaint : String}
    {services : List (Service σ)}
    (htransition : ∀ service ∈ services, Guarded invariant codes (transition service)) :
    Guarded invariant codes (runInOrder transition complaint services) := by
  induction services with
  | nil => exact .pure ()
  | cons service rest ih =>
      refine (htransition service List.mem_cons_self).attempt_bind ?_ ?_
      · intro _
        exact ih fun other hother => htransition other (List.mem_cons_of_mem _ hother)
      · intro fault hwithin
        exact (Guarded.note _ _ _).bind fun _ => .fail hwithin

/-- However many of them fail, every service is stopped, and the faults are kept. -/
theorem stopEach_ends {services : List (Service σ)}
    (hstop : ∀ service ∈ services, Guarded invariant codes service.stop) (state : σ)
    (hinvariant : invariant state) :
    invariant (stopEach services state).state ∧
      ∃ faults, (stopEach services state).outcome = .ok faults ∧
        ∀ fault ∈ faults, Stop.Within codes (.failed fault) := by
  induction services generalizing state with
  | nil => exact ⟨hinvariant, [], rfl, nofun⟩
  | cons service rest ih =>
      obtain ⟨hkept, hwithin⟩ := hstop service List.mem_cons_self state hinvariant
      obtain ⟨hrest, faults, hfaults, hcodes⟩ :=
        ih (fun other hother => hstop other (List.mem_cons_of_mem _ hother)) _ hkept
      -- the rest starts in the state that this service left, whether or not its fault is kept
      unfold stopEach
      rw [state_bind, outcome_bind, state_attempt]
      unfold attempt
      dsimp only
      cases hended : (service.stop state).outcome with
      | ok _ =>
          dsimp only
          rw [bind_of_ok _ hfaults]
          exact ⟨hrest, faults, rfl, hcodes⟩
      | error stop =>
          have hstopped := hwithin stop hended
          cases stop with
          | escaped fault => cases hstopped
          | failed fault =>
              dsimp only
              rw [bind_of_ok _ hfaults]
              exact ⟨hrest, fault :: faults, rfl, List.forall_mem_cons.mpr ⟨hstopped, hcodes⟩⟩

theorem noteEach_guarded (message : String) (faults : List Fault) :
    Guarded invariant codes (noteEach message faults) := by
  induction faults with
  | nil => exact .pure ()
  | cons fault rest ih => exact (Guarded.note _ _ _).bind fun _ => ih

theorem stopAll_guarded {services : List (Service σ)}
    (hstop : ∀ service ∈ services, Guarded invariant codes service.stop) :
    Guarded invariant codes (stopAll services) := by
  intro state hinvariant
  obtain ⟨hkept, faults, hfaults, hcodes⟩ := stopEach_ends
    (fun service hservice => hstop service (List.mem_reverse.mp hservice)) state hinvariant
  unfold stopAll
  rw [bind_of_ok _ hfaults]
  refine (noteEach_guarded _ _).bind (fun _ => ?_) _ hkept
  cases faults with
  | nil => exact .pure ()
  | cons fault rest => exact .fail (hcodes fault List.mem_cons_self)

end Lifecycle

/-- A service is initialized with the refusals of genesis at most, and started and stopped without
any. -/
theorem Wiring.service_guarded (wiring : Wiring) (id : ServiceId) :
    Guarded State.Valid Configuration.codes (wiring.service id).init ∧
      Guarded State.Valid [] (wiring.service id).start ∧
      Guarded State.Valid [] (wiring.service id).stop := by
  refine ⟨?_, .modify fun _ hvalid => { hvalid with }, .modify fun _ hvalid => { hvalid with }⟩
  unfold Wiring.service
  dsimp only
  split
  · exact Genesis.init_guarded wiring.spec
  · exact .modify fun _ hvalid => { hvalid with }

end AccountRegistry
