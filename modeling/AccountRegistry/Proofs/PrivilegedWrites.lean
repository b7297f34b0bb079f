import AccountRegistry.Proofs.Address
import AccountRegistry.Proofs.Refusals
import AccountRegistry.Registry.Configuration

/-!
# What a privileged write comes to

Each privileged write is refused for the first of its reasons, in the order in which it checks
them, and then changes nothing; if there is none, it writes its one slot and succeeds.  All checks
come before the write.  What follows the write are the texts of addresses, and those are in range:
the new one was checked, and the old one is in range in every state that the registry reaches.
-/

namespace AccountRegistry

theorem Address.native_of_isNative {value : Int} (hrange : IsNative value) :
    native value = .ok value :=
  if_pos hrange

theorem Address.native_of_not_isNative {value : Int} (hrange : ¬ IsNative value) :
    ∃ fault, native value = .error fault ∧ fault.code? = some .invalidNativeAddress :=
  ⟨_, if_neg hrange, rfl⟩

namespace Configuration

open Procedure

variable {state : State}

/-! ## Authorization -/

theorem authorize_bind_of_owner {α : Type} (operation : String) {caller : Int}
    (next : Unit → Procedure State α) (hcaller : caller = state.owner) :
    (authorize operation caller >>= next) state = next () state := by
  have hauthorized : authorize operation caller state = ⟨.ok (), state, []⟩ := by
    unfold authorize
    rw [get_bind, if_pos hcaller, pure_run]
  rw [bind_of_ok next (by rw [hauthorized]), hauthorized]
  rfl

theorem authorize_refused {operation : String} {caller : Int} (hcaller : caller ≠ state.owner) :
    (authorize operation caller state).Refused .unauthorized state := by
  unfold authorize
  rw [get_bind, if_neg hcaller]
  exact refused_of_fail rfl state

/-! ## The four writes -/

theorem transferOwnership_cases (howner : Address.IsNative state.owner) (caller newOwner : Int) :
    let ending := transferOwnership caller newOwner state
    (caller ≠ state.owner ∧ ending.Refused .unauthorized state) ∨
    (caller = state.owner ∧ ¬ Address.IsNative newOwner ∧
      ending.Refused .invalidNativeAddress state) ∨
    (caller = state.owner ∧ Address.IsNative newOwner ∧ ending.outcome = .ok newOwner ∧
      ending.state = { state with owner := newOwner }) := by
  intro ending
  by_cases hcaller : caller = state.owner
  · by_cases hnew : Address.IsNative newOwner
    · -- both owners are printed after the write, the old one too
      obtain ⟨previousText, hprevious⟩ := howner.formatNative
      obtain ⟨ownerText, hnext⟩ := hnew.formatNative
      refine .inr (.inr ⟨hcaller, hnew, ?_⟩)
      simp only [ending, transferOwnership, authorize_bind_of_owner _ _ hcaller,
        Address.native_of_isNative hnew, ofExcept_ok, pure_bind_run, get_bind, modify_bind,
        hprevious, hnext, orEscape_ok]
      exact ⟨rfl, rfl⟩
    · obtain ⟨fault, hfault, hcode⟩ := Address.native_of_not_isNative hnew
      refine .inr (.inl ⟨hcaller, hnew, ?_⟩)
      simp only [ending, transferOwnership, authorize_bind_of_owner _ _ hcaller, hfault,
        ofExcept_error]
      exact refused_bind _ (refused_of_fail hcode state)
  · exact .inl ⟨hcaller, refused_bind _ (authorize_refused hcaller)⟩

theorem setClassReference_cases (state : State) (caller : Int) (label : String) (reference : Int) :
    let ending := setClassReference caller label reference state
    (caller ≠ state.owner ∧ ending.Refused .unauthorized state) ∨
    (caller = state.owner ∧ ClassKind.ofLabel? label = none ∧
      ending.Refused .invalidClassKind state) ∨
    (caller = state.owner ∧ ¬ Address.IsClassReference reference ∧
      ending.Refused .invalidClassReference state) ∨
    (caller = state.owner ∧ Address.IsClassReference reference ∧
      ∃ kind, ClassKind.ofLabel? label = some kind ∧
        ending.outcome = .ok ⟨kind, reference, state.references.version kind + 1⟩ ∧
        ending.state = { state with references := state.references.set kind reference }) := by
  intro ending
  by_cases hcaller : caller = state.owner
  · cases hkind : ClassKind.ofLabel? label with
    | none =>
        refine .inr (.inl ⟨hcaller, rfl, ?_⟩)
        simp only [ending, setClassReference, authorize_bind_of_owner _ _ hcaller,
          ClassReferences.kindOf, hkind, ofExcept_error]
        exact refused_bind _ (refused_of_fail rfl state)
    | some kind =>
        refine .inr (.inr ?_)
        simp only [ending, setClassReference, authorize_bind_of_owner _ _ hcaller,
          ClassReferences.kindOf, hkind, ofExcept_ok, pure_bind_run]
        by_cases hreference : Address.IsClassReference reference
        · refine .inr ⟨hcaller, hreference, kind, rfl, ?_⟩
          simp only [hreference, not_true_eq_false, if_false, get_bind, modify_bind]
          exact ⟨rfl, rfl⟩
        · refine .inl ⟨hcaller, hreference, ?_⟩
          simp only [hreference, not_false_eq_true, if_true]
          exact refused_of_fail rfl state
  · exact .inl ⟨hcaller, refused_bind _ (authorize_refused hcaller)⟩

theorem setNativeToken_cases
    (htoken : ∀ token, state.nativeToken = some token → Address.IsNative token)
    (caller address : Int) :
    let ending := setNativeToken caller address state
    (caller ≠ state.owner ∧ ending.Refused .unauthorized state) ∨
    (caller = state.owner ∧ state.nativeToken ≠ none ∧
      ending.Refused .alreadyConfigured state) ∨
    (caller = state.owner ∧ state.nativeToken = none ∧ ¬ Address.IsNative address ∧
      ending.Refused .invalidNativeAddress state) ∨
    (caller = state.owner ∧ state.nativeToken = none ∧ Address.IsNative address ∧
      ending.outcome = .ok address ∧
      ending.state = { state with nativeToken := some address }) := by
  intro ending
  by_cases hcaller : caller = state.owner
  · refine .inr ?_
    simp only [ending, setNativeToken, authorize_bind_of_owner _ _ hcaller, get_bind]
    cases hslot : state.nativeToken with
    | some current =>
        -- the refusal names the token that is in the slot
        obtain ⟨currentText, hcurrent⟩ := (htoken current hslot).formatNative
        refine .inl ⟨hcaller, nofun, ?_⟩
        simp only [hcurrent, orEscape_ok, pure_bind_run]
        exact refused_of_fail rfl state
    | none =>
        refine .inr ?_
        by_cases haddress : Address.IsNative address
        · obtain ⟨tokenText, htext⟩ := haddress.formatNative
          refine .inr ⟨hcaller, rfl, haddress, ?_⟩
          simp only [Address.native_of_isNative haddress, ofExcept_ok, pure_bind_run, modify_bind,
            htext, orEscape_ok]
          exact ⟨rfl, rfl⟩
        · obtain ⟨fault, hfault, hcode⟩ := Address.native_of_not_isNative haddress
          refine .inl ⟨hcaller, rfl, haddress, ?_⟩
          simp only [hfault, ofExcept_error]
          exact refused_bind _ (refused_of_fail hcode state)
  · exact .inl ⟨hcaller, refused_bind _ (authorize_refused hcaller)⟩

theorem setContext_cases (state : State) (caller coinbase baseFee : Int) :
    let ending := setContext caller coinbase baseFee state
    let context : ChainContext := ⟨coinbase, baseFee, contextVersion state + 1⟩
    (caller ≠ state.owner ∧ ending.Refused .unauthorized state) ∨
    (caller = state.owner ∧ ¬ Address.IsNative coinbase ∧
      ending.Refused .invalidNativeAddress state) ∨
    (caller = state.owner ∧ Address.IsNative coinbase ∧ baseFee < 0 ∧
      ending.Refused .invalidBaseFee state) ∨
    (caller = state.owner ∧ Address.IsNative coinbase ∧ 0 ≤ baseFee ∧
      ending.outcome = .ok context ∧ ending.state = { state with context := some context }) := by
  intro ending context
  by_cases hcaller : caller = state.owner
  · refine .inr ?_
    simp only [ending, setContext, authorize_bind_of_owner _ _ hcaller]
    by_cases hcoinbase : Address.IsNative coinbase
    · refine .inr ?_
      simp only [Address.native_of_isNative hcoinbase, ofExcept_ok, pure_bind_run]
      by_cases hfee : baseFee < 0
      · refine .inl ⟨hcaller, hcoinbase, hfee, ?_⟩
        simp only [hfee, if_true]
        exact refused_of_fail rfl state
      · refine .inr ⟨hcaller, hcoinbase, Int.not_lt.mp hfee, ?_⟩
        simp only [hfee, if_false, get_bind, modify_bind]
        exact ⟨rfl, rfl⟩
    · obtain ⟨fault, hfault, hcode⟩ := Address.native_of_not_isNative hcoinbase
      refine .inl ⟨hcaller, hcoinbase, ?_⟩
      simp only [hfault, ofExcept_error]
      exact refused_bind _ (refused_of_fail hcode state)
  · exact .inl ⟨hcaller, refused_bind _ (authorize_refused hcaller)⟩

end Configuration

end AccountRegistry
