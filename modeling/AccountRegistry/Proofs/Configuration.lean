import AccountRegistry.Proofs.Procedure
import AccountRegistry.Registry.Wiring

/-!
# What the administration leaves alone

Each privileged write touches one slot of the state, genesis writes through the privileged writes,
and the lifecycle runs genesis and marks services.  So any view of the state that does not depend
on those slots is kept by all of them, whether they succeed or fail.
-/

namespace AccountRegistry

open Procedure

variable {β : Type} {view : State → β}

/-! ## The privileged writes -/

namespace Configuration

theorem authorize_keeps (operation : String) (caller : Int) :
    Keeps view (authorize operation caller) := by
  refine Keeps.get.bind fun state => ?_
  split
  · exact Keeps.pure _
  · exact Keeps.fail _

theorem transferOwnership_keeps
    (howner : ∀ (state : State) (owner : Int), view { state with owner := owner } = view state)
    (caller newOwner : Int) : Keeps view (transferOwnership caller newOwner) := by
  refine (authorize_keeps _ _).bind fun _ => (Keeps.ofExcept _).bind fun owner => ?_
  refine Keeps.get.bind fun _ => (Keeps.modify fun state => howner state owner).bind fun _ => ?_
  exact (Keeps.orEscape _).bind fun _ => (Keeps.orEscape _).bind fun _ =>
    (Keeps.note _ _ _).bind fun _ => Keeps.pure _

theorem setClassReference_keeps
    (hreferences : ∀ (state : State) (references : ClassReferences),
      view { state with references := references } = view state)
    (caller : Int) (label : String) (reference : Int) :
    Keeps view (setClassReference caller label reference) := by
  refine (authorize_keeps _ _).bind fun _ => (Keeps.ofExcept _).bind fun kind => ?_
  split
  · exact Keeps.fail _
  · refine Keeps.get.bind fun _ => ?_
    exact (Keeps.modify fun state => hreferences state _).bind fun _ =>
      (Keeps.note _ _ _).bind fun _ => Keeps.pure _

theorem setNativeToken_keeps
    (htoken : ∀ (state : State) (token : Option Int),
      view { state with nativeToken := token } = view state)
    (caller address : Int) : Keeps view (setNativeToken caller address) := by
  refine (authorize_keeps _ _).bind fun _ => Keeps.get.bind fun state => ?_
  split
  · exact (Keeps.orEscape _).bind fun _ => Keeps.fail _
  · refine (Keeps.ofExcept _).bind fun token => ?_
    exact (Keeps.modify fun state => htoken state _).bind fun _ =>
      (Keeps.orEscape _).bind fun _ => (Keeps.note _ _ _).bind fun _ => Keeps.pure _

theorem setContext_keeps
    (hcontext : ∀ (state : State) (context : Option ChainContext),
      view { state with context := context } = view state)
    (caller coinbase baseFee : Int) : Keeps view (setContext caller coinbase baseFee) := by
  refine (authorize_keeps _ _).bind fun _ => (Keeps.ofExcept _).bind fun beneficiary => ?_
  split
  · exact Keeps.fail _
  · refine Keeps.get.bind fun _ => ?_
    exact (Keeps.modify fun state => hcontext state _).bind fun _ =>
      (Keeps.note _ _ _).bind fun _ => Keeps.pure _

end Configuration

/-! ## Genesis -/

namespace Genesis

variable
  (hreferences : ∀ (state : State) (references : ClassReferences),
    view { state with references := references } = view state)
  (htoken : ∀ (state : State) (token : Option Int),
    view { state with nativeToken := token } = view state)
  (hcontext : ∀ (state : State) (context : Option ChainContext),
    view { state with context := context } = view state)

include hreferences in
theorem applyReferences_keeps (spec : Spec) (owner : Int) (kinds : List ClassKind) :
    Keeps view (applyReferences spec owner kinds) := by
  induction kinds with
  | nil => exact Keeps.pure _
  | cons kind rest ih =>
      unfold applyReferences
      split
      · exact (Configuration.setClassReference_keeps hreferences _ _ _).bind fun _ => ih
      · exact ih

include htoken in
theorem applyToken_keeps (spec : Spec) (owner : Int) : Keeps view (applyToken spec owner) := by
  unfold applyToken
  split
  · exact (Configuration.setNativeToken_keeps htoken _ _).bind fun _ => Keeps.pure _
  · exact Keeps.pure _

include hcontext in
theorem applyContext_keeps (spec : Spec) (owner : Int) : Keeps view (applyContext spec owner) := by
  unfold applyContext
  split
  · exact (Configuration.setContext_keeps hcontext _ _ _).bind fun _ => Keeps.pure _
  · exact Keeps.pure _

include hreferences htoken hcontext in
theorem apply_keeps (spec : Spec) : Keeps view (apply spec) := by
  refine Keeps.get.bind fun state => ?_
  exact (applyReferences_keeps hreferences _ _ _).bind fun _ =>
    (applyToken_keeps htoken _ _).bind fun _ =>
    (applyContext_keeps hcontext _ _).bind fun _ => Keeps.note _ _ _

include hreferences htoken hcontext in
theorem init_keeps
    (hinitialized : ∀ (state : State) (service : ServiceId),
      view (state.markInitialized service) = view state)
    (spec : Spec) : Keeps view (init spec) := by
  refine Keeps.get.bind fun state => ?_
  split
  · exact Keeps.pure _
  · exact (apply_keeps hreferences htoken hcontext spec).bind fun _ =>
      Keeps.modify fun state => hinitialized state _

end Genesis

/-! ## The lifecycle -/

namespace Lifecycle

variable {σ γ : Type} {view : σ → γ}

theorem runInOrder_keeps {transition : Service σ → Procedure σ Unit} {complaint : String}
    {services : List (Service σ)}
    (htransition : ∀ service ∈ services, Keeps view (transition service)) :
    Keeps view (runInOrder transition complaint services) := by
  induction services with
  | nil => exact Keeps.pure _
  | cons service rest ih =>
      refine (htransition service List.mem_cons_self).attempt.bind fun result => ?_
      split
      · exact ih fun other hother => htransition other (List.mem_cons_of_mem _ hother)
      · exact (Keeps.note _ _ _).bind fun _ => Keeps.fail _

theorem stopEach_keeps {services : List (Service σ)}
    (hstop : ∀ service ∈ services, Keeps view service.stop) : Keeps view (stopEach services) := by
  induction services with
  | nil => exact Keeps.pure _
  | cons service rest ih =>
      refine (hstop service List.mem_cons_self).attempt.bind fun result => ?_
      refine (ih fun other hother => hstop other (List.mem_cons_of_mem _ hother)).bind fun _ => ?_
      exact Keeps.pure _

theorem noteEach_keeps (message : String) (faults : List Fault) :
    Keeps view (noteEach message faults : Procedure σ Unit) := by
  induction faults with
  | nil => exact Keeps.pure _
  | cons fault rest ih => exact (Keeps.note _ _ _).bind fun _ => ih

theorem stopAll_keeps {services : List (Service σ)}
    (hstop : ∀ service ∈ services, Keeps view service.stop) : Keeps view (stopAll services) := by
  refine (stopEach_keeps fun service hservice => ?_).bind fun faults => ?_
  · exact hstop service (List.mem_reverse.mp hservice)
  · refine (noteEach_keeps _ _).bind fun _ => ?_
    split
    · exact Keeps.pure _
    · exact Keeps.fail _

end Lifecycle

end AccountRegistry
