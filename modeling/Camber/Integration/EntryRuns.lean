import Camber.Integration.Entry

/-! Every action of an entry is a sequence of `Moves`: what one piece of a critical section can do.
-/

namespace Camber.Integration.Entry

open Transition Relation SettleStage

/-- One piece of a transition. -/
inductive Moves (late outside : Prop) (e : Entry) : Entry → Prop
  | commit (state : EntryState) (haccepts : e.phase.state.accepts = true)
      (hforward : e.phase.state.rank ≤ state.rank) (hunsettled : state ≠ .settled) :
      Moves late outside e (e.commit state)
  | flags (reportsClose stopped forced cleanupOwed : Bool) :
      Moves late outside e { e with phase := { e.phase with reportsClose, stopped, forced, cleanupOwed } }
  | begun (haccepts : e.phase.state.accepts = true)
      (hlimit : e.phase.running < e.operationLimit) :
      Moves late outside e { e with
        phase := { e.phase with
          inFlight := e.phase.inFlight + 1
          running := e.phase.running + 1 }
        guards := e.guards ++ [⟨true, false⟩] }
  | released {i : ℕ} {held : OperationGuard} (hguard : e.guards[i]? = some held)
      (hholds : held.holdsLimit = true) :
      Moves late outside e { e with
        phase := { e.phase with running := e.phase.running - 1 }
        guards := e.guards.modify i ({ · with holdsLimit := false }) }
  | ended {i : ℕ} {held : OperationGuard} (hguard : e.guards[i]? = some held)
      (hended : held.ended = false) :
      Moves late outside e { e with
        phase := { e.phase with
          inFlight := e.phase.inFlight - 1
          running := if held.holdsLimit then e.phase.running - 1 else e.phase.running }
        guards := e.guards.modify i fun _ => ⟨false, true⟩ }
  | charged (error : IntegrationError) (disposition : ParticipantDisposition)
      (hfirst : e.phase.closeFailure = none)
      (hearly : e.phase.account.isSome = true ∨ e.phase.state = .settled ∨ late) :
      Moves late outside e { e with
        phase := { e.phase with closeFailure := some (error, disposition) }
        charges := e.charges ++ [error] }
  | attached (haccepts : e.phase.state.accepts = true) :
      Moves late outside e
        { e with phase := { e.phase with closeOwner := .waiting }, owner := true }
  | woken (hwaiting : e.phase.closeOwner = .waiting) :
      Moves late outside e { e with phase := { e.phase with closeOwner := .running } }
  | detached : Moves late outside e
      { e with phase := { e.phase with closeOwner := .absent }, owner := false }
  | cleared (htaken : e.phase.account = none) :
      Moves late outside e { e with phase := { e.phase with closeFailure := none } }
  | taken {account : ℕ} (hclosing : e.phase.state = .closing) (hidle : e.phase.inFlight = 0)
      (habsent : e.phase.closeOwner = .absent) (haccount : e.phase.account = some account) :
      Moves late outside e { e with
        phase := { e.phase with closeFailure := none, account := none }
        settlers := e.settlers ++ [⟨account, e.phase.settlement, false, .taken⟩] }
  | named {account : ℕ} (hclosing : e.phase.state.accepts = false)
      (haccount : e.phase.account = some account)
      (hearly : e.phase.closeFailure = none ∨ late) :
      Moves late outside e { e with
        phase := { e.phase with stopped := true, account := none }
        settlers := e.settlers ++
          [⟨account, .failed (.incompleteClose e.kind) .named, true, .taken⟩] }
  | proceeded {i : ℕ} {settler : Settler} (hsettler : e.settlers[i]? = some settler)
      (hgoes : settler.stage ≠ .done) (houtside : outside) :
      Moves late outside e { e.settleStep settler with
        settlers := e.settlers.modify i ({ · with stage := settler.stage.next }) }
  | runtimeEnds (houtside : outside) : Moves late outside e e.runtimeEnds

abbrev Changes (late outside : Prop) : Entry → Entry → Prop := ReflTransGen (Moves late outside)

variable {late outside : Prop} {e : Entry}

theorem drain_changes : Changes late outside e e.drain := by
  unfold drain
  by_cases hdrained : e.phase.state = .closing ∧ e.phase.inFlight = 0
  · obtain ⟨hclosing, hidle⟩ := hdrained
    cases howner : e.phase.closeOwner with
    | waiting =>
      rw [Phase.drained_waiting hclosing hidle howner]
      exact .single (.woken howner)
    | running =>
      rw [Phase.drained_running hclosing hidle howner]
      exact .refl
    | absent =>
      cases haccount : e.phase.account with
      | some account =>
        rw [Phase.drained_taken hclosing hidle howner haccount]
        exact .single (.taken hclosing hidle howner haccount)
      | none =>
        rw [Phase.drained_gone hclosing hidle howner haccount]
        exact .single (.cleared haccount)
  · rw [Phase.drained_pending hdrained]
    exact .refl

theorem commitClosing_changes (haccepts : e.phase.state.accepts = true) (cause : CloseCause) :
    Changes late outside e (e.commitClosing cause) := by
  refine .head (.flags e.phase.reportsClose (decide (cause = CloseCause.stop)) e.phase.forced
    e.phase.cleanupOwed) (.single ?_)
  exact .commit .closing haccepts
    ((EntryState.rank_le_one_of_accepts haccepts).trans (by decide)) (by decide)

theorem establish_changes (reportsClose : Bool) (operation : IntegrationOperation) :
    Changes late outside e (e.orSame (e.establish reportsClose operation)) := by
  unfold establish
  cases hstate : e.phase.state with
  | admitted =>
    refine .head (.commit .ready (by rw [hstate]; rfl) (by rw [hstate]; decide) (by decide)) ?_
    exact .single (.flags (e.phase.reportsClose || reportsClose) e.phase.stopped e.phase.forced
      e.phase.cleanupOwed)
  | ready =>
    exact .single (.flags (e.phase.reportsClose || reportsClose) e.phase.stopped e.phase.forced
      e.phase.cleanupOwed)
  | closing => exact .refl
  | settled => exact .refl

theorem beginOperation_changes (operation : IntegrationOperation) (room : Bool) :
    Changes late outside e (e.orSame (e.beginOperation operation room)) := by
  unfold beginOperation
  split
  next haccepts _ =>
    by_cases hlimit : e.operationLimit ≤ e.phase.running
    · rw [if_pos hlimit]
      exact .refl
    · rw [if_neg hlimit]
      cases room with
      | true => exact .single (.begun haccepts (Nat.lt_of_not_le hlimit))
      | false => exact .refl
  next => exact .refl

theorem releaseLimit_changes (i : ℕ) : Changes late outside e (e.releaseLimit i) := by
  unfold releaseLimit
  split
  next held hguard =>
    by_cases hholds : held.holdsLimit = true
    · rw [if_pos hholds]
      exact .single (.released hguard hholds)
    · rw [if_neg hholds]
  next => exact .refl

theorem endOperation_changes {i : ℕ} (hready : e.Ready (.releaseLimit i)) (how : OperationEnd)
    (owesCleanup : Bool) : Changes late outside e (e.endOperation i how owesCleanup) := by
  obtain ⟨held, hguard, hended⟩ := (Option.any_eq_true _ _).mp hready
  have hended : held.ended = false := by simpa using hended
  unfold endOperation
  rw [hguard]
  refine .head (.flags e.phase.reportsClose e.phase.stopped
    (e.phase.forced || decide (how = OperationEnd.forced)) (e.phase.cleanupOwed || owesCleanup)) ?_
  exact .head (.ended hguard hended) drain_changes

theorem closeBy_changes (cause : CloseCause) : Changes late outside e (e.closeBy cause) := by
  unfold closeBy
  cases hstate : e.phase.state with
  | admitted => exact (commitClosing_changes (by rw [hstate]; rfl) cause).trans drain_changes
  | ready => exact (commitClosing_changes (by rw [hstate]; rfl) cause).trans drain_changes
  | closing => exact .refl
  | settled => exact .refl

theorem charge_changes (error : IntegrationError) : Changes late outside e (e.charge error) := by
  unfold charge
  split
  next h => exact .single (.charged error .completed (Option.isNone_iff_eq_none.mp h.2) (.inl h.1))
  next => exact .refl

theorem attachCloseOwner_changes (operation : IntegrationOperation) :
    Changes late outside e (e.orSame (e.attachCloseOwner operation)) := by
  unfold attachCloseOwner
  split
  next haccepts _ => exact .single (.attached haccepts)
  next => exact .refl

def ChargesInTime (e : Entry) (closed : Option (Except IntegrationError Unit)) : Prop :=
  match closed with
  | some (.error _) => e.phase.account.isSome = true ∨ e.phase.state = .settled
  | _ => True

instance (e : Entry) : DecidablePred e.ChargesInTime := fun closed => by
  unfold ChargesInTime
  split <;> infer_instance

theorem ownerEnded_changes {closed : Option (Except IntegrationError Unit)}
    (hearly : e.ChargesInTime closed ∨ late) : Changes late outside e (e.ownerEnded closed) := by
  unfold ownerEnded
  split
  next error hfirst =>
    refine .single (.charged error .named hfirst ?_)
    rcases hearly with (haccount | hsettled) | hlate
    · exact .inl haccount
    · exact .inr (.inl hsettled)
    · exact .inr (.inr hlate)
  next => exact .single (.flags e.phase.reportsClose e.phase.stopped true e.phase.cleanupOwed)
  next => exact .refl

theorem endCloseOwner_changes {closed : Option (Except IntegrationError Unit)}
    (hearly : e.ChargesInTime closed ∨ late) : Changes late outside e (e.endCloseOwner closed) := by
  refine .head .detached (ReflTransGen.trans (ownerEnded_changes ?_) drain_changes)
  exact hearly

theorem takeOutstanding_changes (hclosing : e.phase.state.accepts = false)
    (hearly : e.phase.account = none ∨ e.phase.closeFailure = none ∨ late) :
    Changes late outside e e.takeOutstanding := by
  unfold takeOutstanding
  split
  next account haccount =>
    refine .single (.named hclosing haccount (hearly.resolve_left ?_))
    rw [haccount]
    exact Option.some_ne_none account
  next => exact .single (.flags e.phase.reportsClose true e.phase.forced e.phase.cleanupOwed)

theorem nameOutstanding_changes
    (hearly : e.phase.account = none ∨ e.phase.closeFailure = none ∨ late) :
    Changes late outside e e.nameOutstanding := by
  unfold nameOutstanding
  by_cases haccepts : e.phase.state.accepts = true
  · -- closing is committed first, which touches neither the account nor the failure
    rw [if_pos haccepts]
    exact (commitClosing_changes haccepts .stop).trans (takeOutstanding_changes rfl hearly)
  · rw [if_neg haccepts]
    exact takeOutstanding_changes (Bool.eq_false_iff.mpr haccepts) hearly

theorem proceed_changes {i : ℕ} (hready : e.Ready (.proceed i)) (houtside : outside) :
    Changes late outside e (e.proceed i) := by
  obtain ⟨settler, hsettler, hgoes⟩ := (Option.any_eq_true _ _).mp hready
  unfold proceed
  rw [hsettler]
  exact .single (.proceeded hsettler (by simpa using hgoes) houtside)

def InTime (e : Entry) : Action → Prop
  | .endCloseOwner closed => e.ChargesInTime closed
  | .nameOutstanding => e.phase.account = none ∨ e.phase.closeFailure = none
  | _ => True

instance (e : Entry) : DecidablePred e.InTime
  | .endCloseOwner closed => inferInstanceAs (Decidable (e.ChargesInTime closed))
  | .nameOutstanding => inferInstanceAs (Decidable (_ ∨ _))
  | .ready | .connected | .reportsClose | .beginOperation _ _ | .releaseLimit _ | .endOperation _ _ _
  | .requestClose _ | .stop _ | .charge _ | .attachCloseOwner _ | .proceed _ | .runtimeEnds =>
    inferInstanceAs (Decidable True)

def Action.isOutside : Action → Bool
  | .proceed _ | .runtimeEnds => true
  | _ => false

theorem act_changes (late outside : Prop) {action : Action} (hready : e.Ready action)
    (hearly : e.InTime action ∨ late) (houtside : action.isOutside = true → outside) :
    Changes late outside e (act action e) := by
  cases action with
  | ready => exact establish_changes false .ready
  | connected => exact establish_changes true .connect
  | reportsClose =>
    exact .single (.flags true e.phase.stopped e.phase.forced e.phase.cleanupOwed)
  | beginOperation operation room => exact beginOperation_changes operation room
  | releaseLimit i => exact releaseLimit_changes i
  | endOperation i how owesCleanup => exact endOperation_changes hready how owesCleanup
  | requestClose admitsChildren => exact closeBy_changes _
  | stop admitsChildren => exact closeBy_changes _
  | charge error => exact charge_changes error
  | attachCloseOwner operation => exact attachCloseOwner_changes operation
  | endCloseOwner closed => exact endCloseOwner_changes hearly
  | nameOutstanding => exact nameOutstanding_changes (or_assoc.mp hearly)
  | proceed i => exact proceed_changes hready (houtside rfl)
  | runtimeEnds => exact .single (.runtimeEnds (houtside rfl))

theorem Changes.keeps (Inv : Entry → Prop) {e' : Entry} (hchanges : Changes late outside e e')
    (hmove : ∀ {e e'}, Moves late outside e e' → Inv e → Inv e') (h : Inv e) : Inv e' := by
  induction hchanges with
  | refl => exact h
  | tail _ move ih => exact hmove move ih

structure Counted (e : Entry) : Prop where
  published : e.published = e.phase.state
  inFlight : e.phase.inFlight = e.guards.countP fun held => !held.ended
  running : e.phase.running = e.guards.countP OperationGuard.holdsLimit
  holding : ∀ {i : ℕ} {held : OperationGuard}, e.guards[i]? = some held →
    held.holdsLimit = true → held.ended = false
  bounded : e.phase.running ≤ e.operationLimit
  owner : e.owner = true ↔ e.phase.closeOwner ≠ .absent

namespace Counted

theorem new (id account : ℕ) (kind : IntegrationKind) (operationLimit : ℕ) :
    Counted (.new id account kind operationLimit) where
  published := rfl
  inFlight := rfl
  running := rfl
  holding h := by simp [Entry.new] at h
  bounded := Nat.zero_le _
  owner := by simp [Entry.new, Phase.new]

theorem running_le_inFlight (h : Counted e) : e.phase.running ≤ e.phase.inFlight := by
  rw [h.running, h.inFlight]
  refine List.countP_mono_left fun held hheld hholds => ?_
  obtain ⟨i, hi⟩ := List.getElem?_of_mem hheld
  rw [h.holding hi hholds]
  rfl

variable {i : ℕ} {held : OperationGuard}

theorem holding_modify (h : Counted e) {change : OperationGuard → OperationGuard}
    (hchange : ∀ held, (change held).holdsLimit = false) {j : ℕ}
    (hguard : (e.guards.modify i change)[j]? = some held) (hholds : held.holdsLimit = true) :
    held.ended = false := by
  obtain ⟨old, hold, rfl⟩ := Roster.of_getElem?_modify hguard
  by_cases hij : i = j
  · rw [if_pos hij, hchange] at hholds
    cases hholds
  · rw [if_neg hij] at hholds ⊢
    exact h.holding hold hholds

theorem begun (h : Counted e) (hlimit : e.phase.running < e.operationLimit) :
    Counted { e with
      phase := { e.phase with
        inFlight := e.phase.inFlight + 1
        running := e.phase.running + 1 }
      guards := e.guards ++ [⟨true, false⟩] } where
  published := h.published
  inFlight := by
    show e.phase.inFlight + 1 = _
    rw [Roster.countP_join, ← h.inFlight]
    rfl
  running := by
    show e.phase.running + 1 = _
    rw [Roster.countP_join, ← h.running]
    rfl
  holding := by
    intro i held hguard hholds
    rcases Roster.of_getElem?_join hguard with hold | ⟨-, rfl⟩
    · exact h.holding hold hholds
    · rfl
  bounded := hlimit
  owner := h.owner

theorem released (h : Counted e) (hguard : e.guards[i]? = some held)
    (hholds : held.holdsLimit = true) :
    Counted { e with
      phase := { e.phase with running := e.phase.running - 1 }
      guards := e.guards.modify i ({ · with holdsLimit := false }) } where
  published := h.published
  inFlight := by
    show e.phase.inFlight = (e.guards.modify i _).countP _
    rw [h.inFlight, Roster.countP_modify_same]
    intro held _
    rfl
  running := by
    show e.phase.running - 1 = (e.guards.modify i _).countP _
    have hleave := Roster.countP_modify_leave (p := OperationGuard.holdsLimit)
      (f := ({ · with holdsLimit := false })) hguard hholds rfl
    rw [h.running]
    omega
  holding hguard' hholds' := h.holding_modify (fun _ => rfl) hguard' hholds'
  bounded := (Nat.sub_le _ _).trans h.bounded
  owner := h.owner

theorem ended (h : Counted e) (hguard : e.guards[i]? = some held) (hended : held.ended = false) :
    Counted { e with
      phase := { e.phase with
        inFlight := e.phase.inFlight - 1
        running := if held.holdsLimit then e.phase.running - 1 else e.phase.running }
      guards := e.guards.modify i fun _ => ⟨false, true⟩ } where
  published := h.published
  inFlight := by
    show e.phase.inFlight - 1 = (e.guards.modify i _).countP _
    have hleave := Roster.countP_modify_leave (p := fun held : OperationGuard => !held.ended)
      (f := fun _ => ⟨false, true⟩) hguard (by simp [hended]) rfl
    rw [h.inFlight]
    omega
  running := by
    show (if held.holdsLimit then e.phase.running - 1 else e.phase.running) =
      (e.guards.modify i _).countP _
    have hcount := Roster.countP_modify (p := OperationGuard.holdsLimit)
      (f := fun _ => ⟨false, true⟩) hguard
    rw [h.running]
    cases hholds : held.holdsLimit with
    | true =>
      simp only [hholds, if_true] at hcount ⊢
      simp only [Bool.false_eq_true, if_false] at hcount
      omega
    | false =>
      simp only [hholds, Bool.false_eq_true, if_false] at hcount ⊢
      omega
  holding hguard' hholds' := h.holding_modify (fun _ => rfl) hguard' hholds'
  bounded := by
    show (if held.holdsLimit then e.phase.running - 1 else e.phase.running) ≤ _
    have hbounded := h.bounded
    split
    · exact (Nat.sub_le _ _).trans hbounded
    · exact hbounded
  owner := h.owner

theorem settleStep (h : Counted e) (settler : Settler) : Counted (e.settleStep settler) := by
  unfold Entry.settleStep
  cases settler.stage with
  | taken => exact ⟨h.published, h.inFlight, h.running, h.holding, h.bounded, h.owner⟩
  | answered =>
    dsimp only
    split
    · exact ⟨h.published, h.inFlight, h.running, h.holding, h.bounded, h.owner⟩
    · exact h
  | reported => exact ⟨h.published, h.inFlight, h.running, h.holding, h.bounded, h.owner⟩
  | fixed =>
    dsimp only
    split
    · exact ⟨h.published, h.inFlight, h.running, h.holding, h.bounded, h.owner⟩
    · exact h
  | retired => exact ⟨rfl, h.inFlight, h.running, h.holding, h.bounded, h.owner⟩
  | done => exact h

theorem move {e' : Entry} (h : Counted e) (move : Moves late outside e e') : Counted e' := by
  cases move with
  | commit state => exact ⟨rfl, h.inFlight, h.running, h.holding, h.bounded, h.owner⟩
  | begun _ hlimit => exact h.begun hlimit
  | released hguard hholds => exact h.released hguard hholds
  | ended hguard hended => exact h.ended hguard hended
  | attached =>
    exact ⟨h.published, h.inFlight, h.running, h.holding, h.bounded, by simp⟩
  | woken hwaiting =>
    have howner : e.owner = true := h.owner.mpr (by rw [hwaiting]; decide)
    exact ⟨h.published, h.inFlight, h.running, h.holding, h.bounded, by simp [howner]⟩
  | detached => exact ⟨h.published, h.inFlight, h.running, h.holding, h.bounded, by simp⟩
  | @proceeded i settler =>
    have hstep := h.settleStep settler
    exact ⟨hstep.published, hstep.inFlight, hstep.running, hstep.holding, hstep.bounded, hstep.owner⟩
  | flags | charged | cleared | taken | named | runtimeEnds =>
    exact ⟨h.published, h.inFlight, h.running, h.holding, h.bounded, h.owner⟩

end Counted

/-- The account was not taken: nothing is settled. -/
structure Unsettled (e : Entry) : Prop where
  state : e.phase.state ≠ .settled
  settlers : e.settlers = []
  closed : e.closed = none
  answers : e.answers = []
  listed : e.listed = e.runtime

structure Settling (e : Entry) (settler : Settler) : Prop where
  settlers : e.settlers = [settler]
  state : e.phase.state = if settler.stage = .done then .settled else .closing
  drained : settler.named = false → e.phase.inFlight = 0 ∧ e.phase.closeOwner = .absent
  answers : e.answers = if settler.stage = .taken then [] else [settler.settlement.failure e.id]
  closed : e.closed =
    if 3 ≤ settler.stage.rank then some (settler.settlement.closed e.id) else none
  listed : e.listed = (e.runtime && decide (settler.stage.rank < 4))

structure SameSettlement (e e' : Entry) : Prop where
  account : e'.phase.account = e.phase.account
  settlers : e'.settlers = e.settlers
  closed : e'.closed = e.closed
  answers : e'.answers = e.answers
  listed : e'.listed = e.listed
  runtime : e'.runtime = e.runtime

/-- The account is there until one settlement takes it. -/
structure Progress (e : Entry) : Prop where
  unsettled : ∀ {account}, e.phase.account = some account → Unsettled e
  settling : e.phase.account = none → ∃ settler, Settling e settler

namespace Progress

theorem new (id account : ℕ) (kind : IntegrationKind) (operationLimit : ℕ) :
    Progress (.new id account kind operationLimit) where
  unsettled _ := ⟨by simp [Entry.new, Phase.new], rfl, rfl, rfl, rfl⟩
  settling h := by cases h

theorem not_accepts (h : Progress e) (htaken : e.phase.account = none) :
    e.phase.state.accepts = false := by
  obtain ⟨settler, hsettling⟩ := h.settling htaken
  rw [hsettling.state]
  split <;> rfl

theorem unsettled_of_accepts (h : Progress e) (haccepts : e.phase.state.accepts = true) :
    ∃ account, e.phase.account = some account := by
  cases haccount : e.phase.account with
  | some account => exact ⟨account, rfl⟩
  | none =>
    rw [h.not_accepts haccount] at haccepts
    cases haccepts

theorem done (h : Progress e) (hsettled : e.phase.state = .settled) :
    ∃ settler, settler.stage = .done ∧ Settling e settler := by
  cases haccount : e.phase.account with
  | some account => exact absurd hsettled (h.unsettled haccount).state
  | none =>
    obtain ⟨settler, hsettling⟩ := h.settling haccount
    refine ⟨settler, ?_, hsettling⟩
    by_contra hnot
    rw [hsettling.state, if_neg hnot] at hsettled
    cases hsettled

variable {e' : Entry}

theorem unsettled_frame (h : Unsettled e) (hsame : SameSettlement e e')
    (hstate : e'.phase.state ≠ .settled) : Unsettled e' where
  state := hstate
  settlers := hsame.settlers.trans h.settlers
  closed := hsame.closed.trans h.closed
  answers := hsame.answers.trans h.answers
  listed := by rw [hsame.listed, hsame.runtime, h.listed]

theorem accepting (h : Progress e) (hsame : SameSettlement e e')
    (haccepts : e.phase.state.accepts = true) (hstate : e'.phase.state ≠ .settled) :
    Progress e' := by
  obtain ⟨account, hsome⟩ := h.unsettled_of_accepts haccepts
  refine ⟨fun _ => unsettled_frame (h.unsettled hsome) hsame hstate, fun hnone => ?_⟩
  rw [hsame.account, hsome] at hnone
  cases hnone

theorem frame (h : Progress e) (hsame : SameSettlement e e') (hid : e'.id = e.id)
    (hstate : e'.phase.state = e.phase.state) (hidle : e.phase.inFlight = 0 → e'.phase.inFlight = 0)
    (habsent : e.phase.closeOwner = .absent → e'.phase.closeOwner = .absent) : Progress e' := by
  refine ⟨fun hsome => ?_, fun hnone => ?_⟩
  · have hunsettled := h.unsettled (hsame.account.symm.trans hsome)
    refine unsettled_frame hunsettled hsame ?_
    rw [hstate]
    exact hunsettled.state
  · obtain ⟨settler, hsettling⟩ := h.settling (hsame.account.symm.trans hnone)
    refine ⟨settler, hsame.settlers.trans hsettling.settlers, hstate.trans hsettling.state,
      ?_, ?_, ?_, ?_⟩
    · intro hdrained
      exact (hsettling.drained hdrained).imp hidle habsent
    · rw [hsame.answers, hid, hsettling.answers]
    · rw [hsame.closed, hid, hsettling.closed]
    · rw [hsame.listed, hsame.runtime, hsettling.listed]

theorem take (h : Progress e) {account : ℕ} (haccount : e.phase.account = some account)
    {settler : Settler} (hstage : settler.stage = .taken) (hgone : e'.phase.account = none)
    (hsettlers : e'.settlers = e.settlers ++ [settler]) (hstate : e'.phase.state = .closing)
    (hdrained : settler.named = false → e'.phase.inFlight = 0 ∧ e'.phase.closeOwner = .absent)
    (hclosed : e'.closed = e.closed) (hanswers : e'.answers = e.answers)
    (hlisted : e'.listed = e.listed) (hruntime : e'.runtime = e.runtime) : Progress e' := by
  have hunsettled := h.unsettled haccount
  refine ⟨fun hsome => ?_, fun _ => ⟨settler, ?_, ?_, hdrained, ?_, ?_, ?_⟩⟩
  · rw [hgone] at hsome
    cases hsome
  · rw [hsettlers, hunsettled.settlers]
    rfl
  · rw [hstate, hstage]
    rfl
  · rw [hanswers, hstage, hunsettled.answers]
    rfl
  · rw [hclosed, hstage, hunsettled.closed]
    rfl
  · rw [hlisted, hruntime, hstage, hunsettled.listed]
    exact (Bool.and_true _).symm

theorem proceeded (h : Progress e) {i : ℕ} {settler : Settler}
    (hsettler : e.settlers[i]? = some settler) (hgoes : settler.stage ≠ .done) :
    Progress { e.settleStep settler with
      settlers := e.settlers.modify i ({ · with stage := settler.stage.next }) } := by
  have htaken : e.phase.account = none := by
    by_contra hsome
    obtain ⟨account, haccount⟩ := Option.ne_none_iff_exists'.mp hsome
    rw [(h.unsettled haccount).settlers] at hsettler
    cases hsettler
  obtain ⟨one, hsettling⟩ := h.settling htaken
  -- there is one settlement, and it is the one that proceeds
  rw [hsettling.settlers] at hsettler
  obtain ⟨rfl, rfl⟩ : i = 0 ∧ one = settler := by
    cases i with
    | zero => exact ⟨rfl, by simpa using hsettler⟩
    | succ i => simp at hsettler
  have hmodify : e.settlers.modify 0 ({ · with stage := one.stage.next }) =
      [{ one with stage := one.stage.next }] := by
    rw [hsettling.settlers]
    rfl
  obtain ⟨-, hstate, hdrained, hanswers, hclosed, hlisted⟩ := hsettling
  refine ⟨fun hsome => ?_, fun _ => ⟨{ one with stage := one.stage.next }, hmodify, ?_, ?_, ?_, ?_, ?_⟩⟩
  · have hsame := e.settleStep_account one
    rw [show (e.settleStep one).phase.account = _ from hsome, htaken] at hsame
    cases hsame
  · show (e.settleStep one).phase.state = _
    rw [settleStep_state, hstate]
    cases hstage : one.stage <;> simp_all [next]
  · intro hnamed
    show (e.settleStep one).phase.inFlight = 0 ∧ (e.settleStep one).phase.closeOwner = .absent
    rw [settleStep_inFlight, settleStep_closeOwner]
    exact hdrained hnamed
  · show (e.settleStep one).answers = _
    rw [settleStep_answers, hanswers]
    cases hstage : one.stage <;> simp [next]
  · show (e.settleStep one).closed = _
    rw [settleStep_closed, hclosed]
    cases hstage : one.stage <;> simp_all [next, rank]
  · show (e.settleStep one).listed = _
    rw [settleStep_listed, hlisted]
    cases hstage : one.stage <;> simp_all [next, rank]

theorem move (h : Progress e) (move : Moves late outside e e') : Progress e' := by
  cases move with
  | commit state haccepts _ hunsettled =>
    exact h.accepting ⟨rfl, rfl, rfl, rfl, rfl, rfl⟩ haccepts hunsettled
  | begun haccepts | attached haccepts =>
    obtain ⟨account, hsome⟩ := h.unsettled_of_accepts haccepts
    exact h.accepting ⟨rfl, rfl, rfl, rfl, rfl, rfl⟩ haccepts (h.unsettled hsome).state
  | ended =>
    refine h.frame ⟨rfl, rfl, rfl, rfl, rfl, rfl⟩ rfl rfl (fun hidle => ?_) fun habsent => habsent
    show e.phase.inFlight - 1 = 0
    rw [hidle]
  | woken hwaiting =>
    refine h.frame ⟨rfl, rfl, rfl, rfl, rfl, rfl⟩ rfl rfl (fun hidle => hidle) fun habsent => ?_
    rw [hwaiting] at habsent
    cases habsent
  | detached => exact h.frame ⟨rfl, rfl, rfl, rfl, rfl, rfl⟩ rfl rfl (fun hidle => hidle) fun _ => rfl
  | taken hclosing hidle habsent haccount =>
    exact h.take haccount rfl rfl rfl hclosing (fun _ => ⟨hidle, habsent⟩) rfl rfl rfl rfl
  | named hclosing haccount =>
    have hstate : e.phase.state = .closing := by
      have hunsettled := (h.unsettled haccount).state
      cases hstate : e.phase.state <;> simp_all [EntryState.accepts]
    exact h.take haccount rfl rfl rfl hstate (fun hnamed => by cases hnamed) rfl rfl rfl rfl
  | proceeded hsettler hgoes => exact h.proceeded hsettler hgoes
  | runtimeEnds =>
    refine ⟨fun hsome => ?_, fun hnone => ?_⟩
    · have hunsettled := h.unsettled hsome
      exact ⟨hunsettled.state, hunsettled.settlers, hunsettled.closed, hunsettled.answers, rfl⟩
    · obtain ⟨settler, hsettling⟩ := h.settling hnone
      exact ⟨settler, hsettling.settlers, hsettling.state, hsettling.drained, hsettling.answers,
        hsettling.closed, rfl⟩
  | flags | released | charged | cleared =>
    exact h.frame ⟨rfl, rfl, rfl, rfl, rfl, rfl⟩ rfl rfl (fun hidle => hidle) fun habsent => habsent

end Progress

/-- What no step takes back. -/
structure Forward (e e' : Entry) : Prop where
  rank : e.phase.state.rank ≤ e'.phase.state.rank
  guards : e.phase.state.accepts = false → e'.guards.length = e.guards.length
  closed : ∀ {result}, e.closed = some result → e'.closed = some result
  id : e'.id = e.id
  operationLimit : e'.operationLimit = e.operationLimit

namespace Forward

theorem refl (e : Entry) : Forward e e := ⟨le_rfl, fun _ => rfl, fun h => h, rfl, rfl⟩

variable {e' : Entry}

theorem not_accepts (h : Forward e e') (hclosing : e.phase.state.accepts = false) :
    e'.phase.state.accepts = false := by
  have hrank := (EntryState.two_le_rank_of_not_accepts hclosing).trans h.rank
  by_contra haccepts
  have := EntryState.rank_le_one_of_accepts (Bool.not_eq_false _ ▸ haccepts)
  omega

theorem trans {e₁ e₂ e₃ : Entry} (h : Forward e₁ e₂) (h' : Forward e₂ e₃) : Forward e₁ e₃ where
  rank := h.rank.trans h'.rank
  guards hclosing := (h'.guards (h.not_accepts hclosing)).trans (h.guards hclosing)
  closed hclosed := h'.closed (h.closed hclosed)
  id := h'.id.trans h.id
  operationLimit := h'.operationLimit.trans h.operationLimit

theorem of_move (move : Moves late outside e e') : Forward e e' := by
  cases move with
  | commit state haccepts hforward => exact ⟨hforward, fun _ => rfl, fun h => h, rfl, rfl⟩
  | begun haccepts =>
    refine ⟨le_rfl, fun hclosing => ?_, fun h => h, rfl, rfl⟩
    rw [haccepts] at hclosing
    cases hclosing
  | released => exact ⟨le_rfl, fun _ => List.length_modify .., fun h => h, rfl, rfl⟩
  | ended => exact ⟨le_rfl, fun _ => List.length_modify .., fun h => h, rfl, rfl⟩
  | @proceeded i settler =>
    refine ⟨?_, fun _ => ?_, fun {result} hclosed => ?_, e.settleStep_id settler, ?_⟩
    · show e.phase.state.rank ≤ (e.settleStep settler).phase.state.rank
      rw [settleStep_state]
      split
      · cases e.phase.state <;> decide
      · exact le_rfl
    · show (e.settleStep settler).guards.length = _
      rw [settleStep_guards]
    · show (e.settleStep settler).closed = _
      rw [settleStep_closed, hclosed]
      split <;> rfl
    · exact e.settleStep_operationLimit settler
  | flags | charged | attached | woken | detached | cleared | taken | named | runtimeEnds =>
    exact ⟨le_rfl, fun _ => rfl, fun h => h, rfl, rfl⟩

theorem of_changes (hchanges : Changes late outside e e') : Forward e e' := by
  induction hchanges with
  | refl => exact refl e
  | tail _ move ih => exact ih.trans (of_move move)

theorem of_runs {trace : List Action} (run : Runs Steps e trace e') : Forward e e' := by
  induction run with
  | nil => exact refl e
  | snoc _ step ih =>
    obtain ⟨hready, rfl⟩ := step
    exact ih.trans (of_changes (act_changes True True hready (.inr trivial) fun _ => trivial))

end Forward

theorem keeps_of_runs (Inv : Entry → Prop) {trace : List Action} (run : Runs Steps e trace e')
    (hmove : ∀ {e e'}, Moves True True e e' → Inv e → Inv e') (h : Inv e) : Inv e' := by
  induction run with
  | nil => exact h
  | snoc _ step ih =>
    obtain ⟨hready, rfl⟩ := step
    exact (act_changes True True hready (.inr trivial) fun _ => trivial).keeps _ hmove ih

section

variable {id account : ℕ} {kind : IntegrationKind} {operationLimit : ℕ} {trace : List Action}
  (run : Runs Steps (.new id account kind operationLimit) trace e)

include run

theorem counted_of_runs : Counted e :=
  keeps_of_runs _ run (fun move h => h.move move) (.new ..)

theorem progress_of_runs : Progress e :=
  keeps_of_runs _ run (fun move h => h.move move) (.new ..)

end

theorem beginOperation_refused (hclosing : e.phase.state.accepts = false)
    (operation : IntegrationOperation) (room : Bool) :
    e.beginOperation operation room = .error (e.closedError operation) := by
  unfold beginOperation
  rw [hclosing]

/-- Over every interleaving from admission on, and between any two of its states: the state only
moves forward and is the one observers see; one settlement takes the close account, answers it once
and fixes one result that never changes; no operation begins once closing is committed; the running
operations stay within the limit and the operations in flight; a settlement that does not name the
entry outstanding found no operation in flight and no close owner, and none comes back; and the
registry no longer lists an entry seen settled. -/
theorem entry_lifecycle {id account : ℕ} {kind : IntegrationKind} {operationLimit : ℕ}
    {early later : List Action} {before after : Entry}
    (run : Runs Steps (.new id account kind operationLimit) early before)
    (rest : Runs Steps before later after) :
    (before.published.rank ≤ after.published.rank ∧ after.published = after.phase.state) ∧
    (after.settlers.length = (if after.phase.account.isSome then 0 else 1) ∧
      after.answers.length ≤ 1 ∧
      (∀ result, before.closed = some result → after.closed = some result) ∧
      (after.published = .settled →
        after.settlers.length = 1 ∧ after.answers.length = 1 ∧ after.closed.isSome = true)) ∧
    (before.published.accepts = false → after.guards.length = before.guards.length ∧
      ∀ operation room, after.beginOperation operation room = .error (after.closedError operation)) ∧
    (after.phase.running ≤ operationLimit ∧ after.phase.running ≤ after.phase.inFlight) ∧
    (∀ settler ∈ after.settlers, settler.named = false →
      after.phase.inFlight = 0 ∧ after.phase.closeOwner = .absent ∧
        (∀ held ∈ after.guards, held.ended = true) ∧ after.owner = false) ∧
    (after.published = .settled → after.listed = false) := by
  have hwhole := run.append rest
  have hcounted := counted_of_runs hwhole
  have hprogress := progress_of_runs hwhole
  have hforward := Forward.of_runs rest
  have hbefore := (counted_of_runs run).published
  refine ⟨⟨?_, hcounted.published⟩, ⟨?_, ?_, fun _ h => hforward.closed h, ?_⟩, fun hclosing => ⟨?_, ?_⟩,
    ⟨?_, hcounted.running_le_inFlight⟩, ?_, ?_⟩
  · rw [hbefore, hcounted.published]
    exact hforward.rank
  · cases haccount : after.phase.account with
    | some account => rw [(hprogress.unsettled haccount).settlers]; rfl
    | none =>
      obtain ⟨settler, hsettling⟩ := hprogress.settling haccount
      rw [hsettling.settlers]
      rfl
  · cases haccount : after.phase.account with
    | some account => simp [(hprogress.unsettled haccount).answers]
    | none =>
      obtain ⟨settler, hsettling⟩ := hprogress.settling haccount
      rw [hsettling.answers]
      split <;> simp
  · intro hsettled
    rw [hcounted.published] at hsettled
    obtain ⟨settler, hdone, hsettling⟩ := hprogress.done hsettled
    refine ⟨by rw [hsettling.settlers]; rfl, ?_, ?_⟩
    · rw [hsettling.answers, hdone]
      rfl
    · rw [hsettling.closed, hdone]
      rfl
  · exact hforward.guards (hbefore ▸ hclosing)
  · exact beginOperation_refused (hforward.not_accepts (hbefore ▸ hclosing))
  · have hbounded := hcounted.bounded
    rwa [(Forward.of_runs hwhole).operationLimit] at hbounded
  · intro settler hsettler hnamed
    cases haccount : after.phase.account with
    | some account =>
      rw [(hprogress.unsettled haccount).settlers] at hsettler
      cases hsettler
    | none =>
      obtain ⟨one, hsettling⟩ := hprogress.settling haccount
      rw [hsettling.settlers] at hsettler
      obtain rfl := List.mem_singleton.mp hsettler
      obtain ⟨hidle, habsent⟩ := hsettling.drained hnamed
      refine ⟨hidle, habsent, fun held hheld => ?_, ?_⟩
      · have hnone := hcounted.inFlight.symm.trans hidle
        simpa using List.countP_eq_zero.mp hnone held hheld
      · simpa [habsent] using hcounted.owner
  · intro hsettled
    rw [hcounted.published] at hsettled
    obtain ⟨settler, hdone, hsettling⟩ := hprogress.done hsettled
    rw [hsettling.listed, hdone]
    exact Bool.and_false _

def sampleEarly : List Action :=
  [.ready, .beginOperation .publish true, .beginOperation .publish true,
    .endOperation 0 .finished false, .requestClose (some true)]

def sampleLate : List Action :=
  [.beginOperation .publish true, .releaseLimit 1, .endOperation 1 .finished false,
    .proceed 0, .proceed 0, .proceed 0, .proceed 0, .proceed 0]

theorem entry_lifecycle_sample :
    ∃ before after, Runs Steps (.new 7 0 .nats 2) sampleEarly before ∧
      Runs Steps before sampleLate after ∧ before.published = .closing ∧
      after.published = .settled ∧ after.guards.length = before.guards.length ∧
      after.listed = false := by
  have hearly : ReadyAll Ready act (.new 7 0 .nats 2) sampleEarly := by decide
  have hlate : ReadyAll Ready act (replay act (.new 7 0 .nats 2) sampleEarly) sampleLate := by
    decide
  have hlifecycle := entry_lifecycle (runs_replay hearly) (runs_replay hlate)
  refine ⟨_, _, runs_replay hearly, runs_replay hlate, by decide, by decide, ?_, ?_⟩
  · exact (hlifecycle.2.2.1 (by decide)).1
  · exact hlifecycle.2.2.2.2.2 (by decide)

end Camber.Integration.Entry
