import AccountRegistry.Proofs.Writes

/-!
# Genesis as a list of writes

Genesis is nothing but the writes of a spec, made by the owner one after the other.

* `Write.performAll_cases`: of a list of writes, those up to the first that is not granted are made.
* `Genesis.apply_performs`: genesis is such a list.
* `Genesis.init_attempt`: the three ways in which an attempt at genesis goes.
-/

namespace AccountRegistry

open Procedure

variable {state : State}

/-! ## Lists of writes -/

namespace Slots

/-- The slots after a list of writes. -/
def afterAll (slots : Slots) (writes : List Write) : Slots :=
  writes.foldl after slots

/-- The writes of a list up to the first that is not granted. -/
def granted : Slots → List Write → List Write
  | _, [] => []
  | slots, write :: rest =>
      if write.Granted slots then write :: granted (slots.after write) rest else []

variable {slots : Slots} {write : Write} {rest writes : List Write}

@[simp] theorem afterAll_nil (slots : Slots) : slots.afterAll [] = slots := rfl

@[simp] theorem afterAll_cons (slots : Slots) (write : Write) (rest : List Write) :
    slots.afterAll (write :: rest) = (slots.after write).afterAll rest := rfl

theorem afterAll_append (slots : Slots) (before later : List Write) :
    slots.afterAll (before ++ later) = (slots.afterAll before).afterAll later :=
  List.foldl_append

theorem granted_cons (hgranted : write.Granted slots) :
    slots.granted (write :: rest) = write :: (slots.after write).granted rest :=
  if_pos hgranted

theorem granted_cons_of_not (hrefused : ¬ write.Granted slots) :
    slots.granted (write :: rest) = [] :=
  if_neg hrefused

theorem prefix_granted (slots : Slots) (writes : List Write) :
    slots.granted writes <+: writes := by
  induction writes generalizing slots with
  | nil => exact List.nil_prefix
  | cons write rest ih =>
      by_cases hgranted : write.Granted slots
      · rw [granted_cons hgranted]
        exact (List.cons_prefix_cons).mpr ⟨rfl, ih _⟩
      · rw [granted_cons_of_not hgranted]
        exact List.nil_prefix

/-- Each of the writes is granted when it is its turn. -/
def Admits (slots : Slots) (writes : List Write) : Prop :=
  slots.granted writes = writes

theorem admits_nil (slots : Slots) : slots.Admits [] := rfl

theorem admits_cons : slots.Admits (write :: rest) ↔
    write.Granted slots ∧ (slots.after write).Admits rest := by
  unfold Admits
  by_cases hgranted : write.Granted slots
  · rw [granted_cons hgranted, List.cons_inj_right]
    simp [hgranted]
  · rw [granted_cons_of_not hgranted]
    simp [hgranted]

theorem admits_append {before later : List Write} :
    slots.Admits (before ++ later) ↔
      slots.Admits before ∧ (slots.afterAll before).Admits later := by
  induction before generalizing slots with
  | nil => simp [admits_nil]
  | cons write rest ih => rw [List.cons_append, admits_cons, admits_cons, ih, and_assoc,
      afterAll_cons]

theorem admits_granted (slots : Slots) (writes : List Write) :
    slots.Admits (slots.granted writes) := by
  induction writes generalizing slots with
  | nil => exact admits_nil slots
  | cons write rest ih =>
      by_cases hgranted : write.Granted slots
      · rw [granted_cons hgranted, admits_cons]
        exact ⟨hgranted, ih _⟩
      · rw [granted_cons_of_not hgranted]
        exact admits_nil slots

end Slots

namespace Write

/-- Make a list of writes, up to the first that is refused. -/
def performAll (caller : Int) : List Write → Procedure State Unit
  | [] => pure ()
  | write :: rest => do
      write.perform caller
      performAll caller rest

/-- The writes of a list that are made in this way. -/
def made (caller : Int) : List Write → State → List Write
  | [], _ => []
  | write :: rest, state =>
      match (write.perform caller state).outcome with
      | .ok () => write :: made caller rest (write.perform caller state).state
      | .error _ => []

theorem performAll_append (caller : Int) (before later : List Write) :
    performAll caller (before ++ later) =
      performAll caller before >>= fun _ => performAll caller later := by
  induction before with
  | nil => rfl
  | cons write rest ih =>
      show (write.perform caller >>= fun _ => performAll caller (rest ++ later)) =
        (write.perform caller >>= fun _ => performAll caller rest) >>= fun _ => _
      rw [bind_bind, ih]

/-- The owner of a list without transfers makes the writes that are granted, and is refused at the
first that is not, but never as unauthorized. -/
theorem performAll_cases (hvalid : state.Valid) (writes : List Write)
    (howner : ∀ write ∈ writes, write.slot ≠ .owner) :
    let ending := performAll state.owner writes state
    made state.owner writes state = state.slots.granted writes ∧
    ending.state = state.withSlots (state.slots.afterAll (state.slots.granted writes)) ∧
    (state.slots.granted writes = writes ∧ ending.outcome = .ok () ∨
      state.slots.granted writes ≠ writes ∧ ∃ fault, ending.outcome = .error (.failed fault) ∧
        fault.code? ≠ some .unauthorized) := by
  induction writes generalizing state with
  | nil => exact ⟨rfl, rfl, .inl ⟨rfl, rfl⟩⟩
  | cons write rest ih =>
      intro ending
      obtain ⟨hslot, hrest⟩ := List.forall_mem_cons.mp howner
      have hending : ending = (write.perform state.owner >>= fun _ =>
        performAll state.owner rest) state := rfl
      rcases write.perform_cases hvalid with
        ⟨hgranted, houtcome, hstate⟩ | ⟨hrefused, code, hcode, ⟨fault, houtcome, hnamed⟩, hstate⟩
      · -- the rest meets the slots after this write, and the same owner
        let next := state.withSlots (state.slots.after write)
        have hnext : next.Valid := by
          have hkept := (write.perform_guarded state.owner state hvalid).1
          rwa [hstate] at hkept
        have hsame : next.owner = state.owner := Slots.owner_after state.slots hslot
        have hmade : made state.owner (write :: rest) state =
            write :: made state.owner rest next := by
          simp only [made, houtcome, hstate]
          rfl
        obtain ⟨hih, hwritten, hended⟩ := ih hnext hrest
        rw [hsame] at hih hwritten hended
        rw [hending, bind_of_ok _ houtcome, hstate, Slots.granted_cons hgranted, hmade, hih]
        refine ⟨rfl, hwritten, ?_⟩
        have hlonger : write :: (state.slots.after write).granted rest = write :: rest ↔
            next.slots.granted rest = rest := List.cons_inj_right write
        rwa [ne_eq, hlonger]
      · have hmade : made state.owner (write :: rest) state = [] := by
          simp only [made, houtcome]
        rw [hending, bind_of_error _ houtcome, hstate, Slots.granted_cons_of_not hrefused, hmade]
        refine ⟨rfl, rfl, .inr ⟨nofun, fault, rfl, ?_⟩⟩
        rw [hnamed]
        exact fun hsame => hcode (Option.some.inj hsame)

end Write

/-! ## Genesis -/

/-- The writes of the class references of a spec. -/
def Spec.referenceWrites (spec : Spec) : List Write :=
  ClassKind.all.filterMap fun kind => (spec.reference? kind).map (Write.reference kind)

/-- The writes of a spec, in the order in which genesis makes them. -/
def Spec.writes (spec : Spec) : List Write :=
  spec.referenceWrites ++ (spec.nativeToken.map Write.nativeToken).toList ++
    (spec.chainContext.map fun context =>
      Write.context context.coinbase context.baseFee).toList

/-- A result that is dropped can be dropped later. -/
theorem Write.bind_pure_bind {σ α β : Type} (operation : Procedure σ α)
    (next : Unit → Procedure σ β) :
    (operation >>= fun _ => pure ()) >>= next = operation >>= fun _ => next () := by
  rw [bind_bind]
  rfl

namespace Genesis

theorem applyReferences_eq (spec : Spec) (owner : Int) (kinds : List ClassKind) :
    applyReferences spec owner kinds = Write.performAll owner
      (kinds.filterMap fun kind => (spec.reference? kind).map (Write.reference kind)) := by
  induction kinds with
  | nil => rfl
  | cons kind rest ih =>
      unfold applyReferences
      cases hreference : spec.reference? kind with
      | none => simp only [List.filterMap_cons, hreference, Option.map_none, ih]
      | some value =>
          simp only [List.filterMap_cons, hreference, Option.map_some, ih]
          exact (Write.bind_pure_bind (Configuration.setClassReference owner kind.label value)
            fun _ => _).symm

theorem applyToken_eq (spec : Spec) (owner : Int) :
    applyToken spec owner =
      Write.performAll owner (spec.nativeToken.map Write.nativeToken).toList := by
  unfold applyToken
  cases spec.nativeToken with
  | none => rfl
  | some token => exact (Write.bind_pure_bind (Configuration.setNativeToken owner token) pure).symm

theorem applyContext_eq (spec : Spec) (owner : Int) :
    applyContext spec owner = Write.performAll owner
      (spec.chainContext.map fun context =>
        Write.context context.coinbase context.baseFee).toList := by
  unfold applyContext
  cases spec.chainContext with
  | none => rfl
  | some context =>
      exact (Write.bind_pure_bind
        (Configuration.setContext owner context.coinbase context.baseFee) pure).symm

/-- Genesis makes the writes of its spec, as the owner; what it says then has no part in it. -/
theorem apply_performs (spec : Spec) (state : State) :
    (apply spec state).outcome = (Write.performAll state.owner spec.writes state).outcome ∧
      (apply spec state).state = (Write.performAll state.owner spec.writes state).state := by
  -- the three parts are one list of writes
  have hparts (said : Procedure State Unit) :
      (applyReferences spec state.owner ClassKind.all >>= fun _ =>
        applyToken spec state.owner >>= fun _ => applyContext spec state.owner >>= fun _ => said) =
      Write.performAll state.owner spec.writes >>= fun _ => said := by
    rw [Spec.writes, Spec.referenceWrites, Write.performAll_append, Write.performAll_append,
      ← applyReferences_eq, ← applyToken_eq, ← applyContext_eq]
    simp only [bind_bind]
  have hrun : apply spec state = (Write.performAll state.owner spec.writes >>= fun _ =>
      note .info "Registry genesis applied" [.record [("id", .text spec.id),
        ("classReferences", .number (Binary64.ofNat spec.classReferences.length)),
        ("nativeToken", .bool spec.nativeToken.isSome),
        ("chainContext", .bool spec.chainContext.isSome)]]) state := by
    rw [← hparts]
    rfl
  rw [hrun]
  constructor
  · rw [outcome_bind]
    cases (Write.performAll state.owner spec.writes state).outcome with
    | ok _ => rfl
    | error stop => rfl
  · exact state_bind_of_keeps (fun _ => Keeps.note _ _ _) state

end Genesis

/-- Whether genesis was applied. -/
def State.genesisDone (state : State) : Bool :=
  state.initialized.contains .genesis

theorem State.genesisDone_markInitialized (state : State) (service : ServiceId) :
    (state.markInitialized service).genesisDone =
      (decide (service = .genesis) || state.genesisDone) := by
  unfold genesisDone markInitialized including
  rw [Bool.eq_iff_iff]
  simp only [List.contains_iff_mem, List.mem_filter, Bool.or_eq_true, decide_eq_true_eq]
  constructor
  · rintro ⟨-, hsame | hmem⟩
    · exact .inl hsame.symm
    · exact .inr hmem
  · rintro (hsame | hmem)
    · exact ⟨by decide, .inl hsame.symm⟩
    · exact ⟨by decide, .inr hmem⟩

theorem Spec.mem_referenceWrites {spec : Spec} {write : Write}
    (hmem : write ∈ spec.referenceWrites) : ∃ kind value, write = .reference kind value := by
  obtain ⟨kind, -, hwrite⟩ := List.mem_filterMap.mp hmem
  obtain ⟨value, -, rfl⟩ := Option.map_eq_some_iff.mp hwrite
  exact ⟨kind, value, rfl⟩

theorem Spec.slot_of_mem_writes {spec : Spec} {write : Write} (hmem : write ∈ spec.writes) :
    write.slot ≠ .owner := by
  simp only [Spec.writes, List.mem_append, Option.mem_toList, Option.map_eq_some_iff] at hmem
  rcases hmem with (hreference | ⟨token, -, rfl⟩) | ⟨context, -, rfl⟩
  · obtain ⟨kind, value, rfl⟩ := Spec.mem_referenceWrites hreference
    exact nofun
  · exact nofun
  · exact nofun

/-- No slot is written twice by the writes of a spec. -/
theorem Spec.nodup_writes (spec : Spec) : (spec.writes.map Write.slot).Nodup := by
  have hsublist (kinds : List ClassKind) :
      ((kinds.filterMap fun kind => (spec.reference? kind).map (Write.reference kind)).map
        Write.slot).Sublist (kinds.map Slot.reference) := by
    induction kinds with
    | nil => exact .refl _
    | cons kind rest ih =>
        cases hreference : spec.reference? kind with
        | none => simpa [hreference] using ih.cons _
        | some value => simpa [hreference, Write.slot] using ih
  have htoken : ((spec.nativeToken.map Write.nativeToken).toList.map Write.slot).Sublist
      [Slot.nativeToken] := by
    cases spec.nativeToken with
    | none => exact List.nil_sublist _
    | some token => exact .refl _
  have hcontext : ((spec.chainContext.map fun context =>
      Write.context context.coinbase context.baseFee).toList.map Write.slot).Sublist
      [Slot.context] := by
    cases spec.chainContext with
    | none => exact List.nil_sublist _
    | some context => exact .refl _
  have hall : (spec.writes.map Write.slot).Sublist
      (ClassKind.all.map Slot.reference ++ [.nativeToken] ++ [.context]) := by
    rw [Spec.writes, List.map_append, List.map_append]
    exact ((hsublist ClassKind.all).append htoken).append hcontext
  exact hall.nodup (by decide)

namespace Genesis

/-- The writes that an attempt at genesis makes. -/
def writes (spec : Spec) (state : State) : List Write :=
  if state.genesisDone then [] else Write.made state.owner spec.writes state

theorem writes_of_done (spec : Spec) (hdone : state.genesisDone = true) :
    writes spec state = [] :=
  if_pos hdone

theorem writes_of_open (hvalid : state.Valid) (spec : Spec) (hopen : state.genesisDone = false) :
    writes spec state = state.slots.granted spec.writes := by
  rw [writes, if_neg (Bool.eq_false_iff.mp hopen)]
  exact (Write.performAll_cases hvalid _ fun _ => Spec.slot_of_mem_writes).1

/-- What an attempt at genesis comes to: it finds genesis done, or makes the writes of the spec that
are granted.  Only if these are all of them, it succeeds and genesis is done. -/
inductive Attempt {α : Type} (spec : Spec) (state : State) (result : α)
    (ending : Ending State α) : Prop
  | skipped
      (hdone : state.genesisDone = true)
      (hafter : ending.state.genesisDone = true)
      (houtcome : ending.outcome = .ok result)
      (hslots : ending.state.slots = state.slots)
  | applied
      (hopen : state.genesisDone = false)
      (hafter : ending.state.genesisDone = true)
      (hgranted : state.slots.granted spec.writes = spec.writes)
      (houtcome : ending.outcome = .ok result)
      (hslots : ending.state.slots = state.slots.afterAll spec.writes)
  | failed
      (hopen : state.genesisDone = false)
      (hafter : ending.state.genesisDone = false)
      (hrefused : state.slots.granted spec.writes ≠ spec.writes)
      (fault : Fault)
      (houtcome : ending.outcome = .error (.failed fault))
      (hslots : ending.state.slots = state.slots.afterAll (state.slots.granted spec.writes))

/-- An attempt as part of something that starts with the same slots, and passes on what the attempt
came to. -/
theorem Attempt.within {α β : Type} {spec : Spec} {start : State} {value : α} {result : β}
    {ending : Ending State α} {whole : Ending State β}
    (hattempt : Attempt spec state value ending) (hslots : state.slots = start.slots)
    (hdone : state.genesisDone = start.genesisDone) (hstate : whole.state = ending.state)
    (hok : ending.outcome = .ok value → whole.outcome = .ok result)
    (herror : ∀ fault, ending.outcome = .error (.failed fault) →
      whole.outcome = .error (.failed fault)) : Attempt spec start result whole := by
  cases hattempt with
  | skipped hskipped hafter houtcome hsame =>
      rw [hdone] at hskipped
      rw [hslots] at hsame
      rw [← hstate] at hafter hsame
      exact .skipped hskipped hafter (hok houtcome) hsame
  | applied hopen hafter hgranted houtcome hwritten =>
      rw [hdone] at hopen
      rw [hslots] at hgranted hwritten
      rw [← hstate] at hafter hwritten
      exact .applied hopen hafter hgranted (hok houtcome) hwritten
  | failed hopen hafter hrefused fault houtcome hwritten =>
      rw [hdone] at hopen
      rw [hslots] at hrefused hwritten
      rw [← hstate] at hafter hwritten
      exact .failed hopen hafter hrefused fault (herror fault houtcome) hwritten

/-- Where genesis is open, an init ends as the writes of the spec do. -/
theorem init_of_open (spec : Spec) (hopen : state.genesisDone = false) :
    let written := Write.performAll state.owner spec.writes state
    (init spec state).outcome = written.outcome ∧
      (init spec state).state =
        match written.outcome with
        | .ok () => written.state.markInitialized .genesis
        | .error _ => written.state := by
  intro written
  obtain ⟨happlied, hleft⟩ := apply_performs spec state
  have hinit : init spec state =
      (apply spec >>= fun _ => modify fun state => state.markInitialized .genesis) state := by
    have hcontains : ¬ state.initialized.contains .genesis = true := Bool.eq_false_iff.mp hopen
    unfold init
    rw [get_bind, if_neg hcontains]
  rw [hinit]
  cases houtcome : written.outcome with
  | ok _ =>
      rw [bind_of_ok _ (happlied.trans houtcome), hleft]
      exact ⟨rfl, rfl⟩
  | error stop =>
      rw [bind_of_error _ (happlied.trans houtcome), hleft]
      exact ⟨rfl, rfl⟩

/-- All that an init comes to, with the whole state that it leaves. -/
theorem init_cases (hvalid : state.Valid) (spec : Spec) :
    (state.genesisDone = true ∧ init spec state = ⟨.ok (), state, []⟩) ∨
    (state.genesisDone = false ∧ state.slots.granted spec.writes = spec.writes ∧
      (init spec state).outcome = .ok () ∧
      (init spec state).state =
        (state.withSlots (state.slots.afterAll spec.writes)).markInitialized .genesis) ∨
    (state.genesisDone = false ∧ state.slots.granted spec.writes ≠ spec.writes ∧
      (∃ fault, (init spec state).outcome = .error (.failed fault) ∧
        fault.code? ≠ some .unauthorized) ∧
      (init spec state).state =
        state.withSlots (state.slots.afterAll (state.slots.granted spec.writes))) := by
  cases hdone : state.genesisDone with
  | true =>
      refine .inl ⟨rfl, ?_⟩
      have hcontains : state.initialized.contains .genesis = true := hdone
      unfold init
      rw [get_bind, if_pos hcontains, pure_run]
  | false =>
      obtain ⟨hinit, hstate⟩ := init_of_open spec hdone
      obtain ⟨-, hwritten, hended⟩ :=
        Write.performAll_cases hvalid spec.writes fun _ => Spec.slot_of_mem_writes
      rcases hended with ⟨hall, houtcome⟩ | ⟨hsome, fault, houtcome, hcode⟩
      · rw [houtcome] at hinit hstate
        rw [hall] at hwritten
        exact .inr (.inl ⟨rfl, hall, hinit, hstate.trans (by rw [hwritten])⟩)
      · rw [houtcome] at hinit hstate
        exact .inr (.inr ⟨rfl, hsome, ⟨fault, hinit, hcode⟩, hstate.trans hwritten⟩)

theorem init_attempt (hvalid : state.Valid) (spec : Spec) :
    Attempt spec state () (init spec state) := by
  rcases init_cases hvalid spec with ⟨hdone, hending⟩ |
    ⟨hopen, hall, houtcome, hstate⟩ | ⟨hopen, hsome, ⟨fault, houtcome, -⟩, hstate⟩
  · rw [hending]
    exact .skipped hdone hdone rfl rfl
  · refine .applied hopen ?_ hall houtcome ?_
    · rw [hstate]
      exact State.genesisDone_markInitialized _ _
    · rw [hstate]
      rfl
  · refine .failed hopen ?_ hsome fault houtcome ?_
    · rw [hstate]
      exact hopen
    · rw [hstate]
      rfl

end Genesis

end AccountRegistry
