import Camber.Integration.Accounts

/-! An entry owns its close account, the count of operations still running, its committed state and
the one close result every closer reads. -/

namespace Camber.Integration

open Transition

inductive EntryState where
  | admitted
  | ready
  | closing
  | settled
deriving DecidableEq

namespace EntryState

def accepts : EntryState → Bool
  | .admitted | .ready => true
  | .closing | .settled => false

def rank : EntryState → ℕ
  | .admitted => 0
  | .ready => 1
  | .closing => 2
  | .settled => 3

theorem rank_le_one_of_accepts {state : EntryState} (h : state.accepts = true) :
    state.rank ≤ 1 := by
  cases state <;> simp_all [accepts, rank]

theorem two_le_rank_of_not_accepts {state : EntryState} (h : state.accepts = false) :
    2 ≤ state.rank := by
  cases state <;> simp_all [accepts, rank]

end EntryState

inductive OperationEnd where
  | finished
  | abandoned
  | forced
deriving DecidableEq

/-- How an entry settled. -/
inductive Settlement where
  | completed
  | cancelledAndJoined
  | failed (error : IntegrationError) (disposition : ParticipantDisposition)

namespace Settlement

def failure (id : ℕ) : Settlement → Option IntegrationError
  | .completed | .cancelledAndJoined => none
  | .failed error _ => some (error.withInstance id)

def closed (id : ℕ) : Settlement → Except IntegrationError Unit
  | .completed | .cancelledAndJoined => .ok ()
  | .failed error _ => .error (error.withInstance id)

def disposition : Settlement → ParticipantDisposition
  | .completed => .completed
  | .cancelledAndJoined => .cancelledAndJoined
  | .failed _ disposition => disposition

end Settlement

/-- Where an adapter's close owner stands. -/
inductive CloseOwnerState where
  | absent
  | waiting
  | running
deriving DecidableEq

inductive CloseCause where
  | requested
  | stop
deriving DecidableEq

def owningCause (admitsChildren : Option Bool) (cause : CloseCause) : CloseCause :=
  if admitsChildren = some false then .stop else cause

/-- The part of an entry its transitions change. -/
structure Phase where
  state : EntryState
  inFlight : ℕ
  running : ℕ
  forced : Bool
  closeOwner : CloseOwnerState
  closeFailure : Option (IntegrationError × ParticipantDisposition)
  account : Option ℕ
  reportsClose : Bool
  cleanupOwed : Bool
  stopped : Bool

inductive Drained where
  | pending
  | wakeOwner
  | settle (account : ℕ) (settlement : Settlement)

namespace Phase

def new (account : ℕ) : Phase where
  state := .admitted
  inFlight := 0
  running := 0
  forced := false
  closeOwner := .absent
  closeFailure := none
  account := some account
  reportsClose := false
  cleanupOwed := false
  stopped := false

def settlement (phase : Phase) : Settlement :=
  match phase.closeFailure, phase.forced with
  | some (error, disposition), _ => .failed error disposition
  | none, true => .cancelledAndJoined
  | none, false => .completed

def drained (phase : Phase) : Drained × Phase :=
  if phase.state = .closing ∧ phase.inFlight = 0 then
    match phase.closeOwner with
    | .waiting => (.wakeOwner, { phase with closeOwner := .running })
    | .running => (.pending, phase)
    | .absent =>
      match phase.account with
      | some account =>
        (.settle account phase.settlement, { phase with closeFailure := none, account := none })
      | none => (.pending, { phase with closeFailure := none })
  else (.pending, phase)

section Drained

variable {phase : Phase}

theorem drained_pending (h : ¬(phase.state = .closing ∧ phase.inFlight = 0)) :
    phase.drained = (.pending, phase) := if_neg h

variable (hclosing : phase.state = .closing) (hidle : phase.inFlight = 0)

include hclosing hidle

theorem drained_waiting (howner : phase.closeOwner = .waiting) :
    phase.drained = (.wakeOwner, { phase with closeOwner := .running }) := by
  simp [drained, hclosing, hidle, howner]

theorem drained_running (howner : phase.closeOwner = .running) :
    phase.drained = (.pending, phase) := by
  simp [drained, hclosing, hidle, howner]

theorem drained_taken (howner : phase.closeOwner = .absent) {account : ℕ}
    (haccount : phase.account = some account) :
    phase.drained =
      (.settle account phase.settlement, { phase with closeFailure := none, account := none }) := by
  simp [drained, hclosing, hidle, howner, haccount]

theorem drained_gone (howner : phase.closeOwner = .absent) (haccount : phase.account = none) :
    phase.drained = (.pending, { phase with closeFailure := none }) := by
  simp [drained, hclosing, hidle, howner, haccount]

end Drained

end Phase

/-- One admitted operation's claim on its entry. -/
structure OperationGuard where
  holdsLimit : Bool
  ended : Bool

inductive SettleStage where
  | taken
  | answered
  | reported
  | fixed
  | retired
  | done
deriving DecidableEq

namespace SettleStage

def rank : SettleStage → ℕ
  | .taken => 0
  | .answered => 1
  | .reported => 2
  | .fixed => 3
  | .retired => 4
  | .done => 5

def next : SettleStage → SettleStage
  | .taken => .answered
  | .answered => .reported
  | .reported => .fixed
  | .fixed => .retired
  | .retired | .done => .done

end SettleStage

structure Settler where
  account : ℕ
  settlement : Settlement
  named : Bool
  stage : SettleStage

structure CloseReport where
  operation : IntegrationOperation
  failed : Option (IntegrationFailure × Retryability)
  stopped : Bool

structure Entry where
  id : ℕ
  kind : IntegrationKind
  operationLimit : ℕ
  phase : Phase
  published : EntryState
  closed : Option (Except IntegrationError Unit)
  guards : List OperationGuard
  /-- Whether a `CloseOwner` of this entry has not ended yet. -/
  owner : Bool
  settlers : List Settler
  listed : Bool
  runtime : Bool
  answers : List (Option IntegrationError)
  charges : List IntegrationError
  reports : List CloseReport
  disposition : Option ParticipantDisposition

namespace Entry

def new (id account : ℕ) (kind : IntegrationKind) (operationLimit : ℕ) : Entry where
  id := id
  kind := kind
  operationLimit := operationLimit
  phase := .new account
  published := .admitted
  closed := none
  guards := []
  owner := false
  settlers := []
  listed := true
  runtime := true
  answers := []
  charges := []
  reports := []
  disposition := none

def closedError (operation : IntegrationOperation) (entry : Entry) : IntegrationError :=
  (IntegrationError.new entry.kind operation .closed .never).withInstance entry.id

def commit (state : EntryState) (entry : Entry) : Entry :=
  { entry with phase := { entry.phase with state := state }, published := state }

def establish (reportsClose : Bool) (operation : IntegrationOperation) (entry : Entry) :
    Except IntegrationError Entry :=
  let arm (entry : Entry) : Entry :=
    { entry with phase :=
        { entry.phase with reportsClose := entry.phase.reportsClose || reportsClose } }
  match entry.phase.state with
  | .admitted => .ok (arm (entry.commit .ready))
  | .ready => .ok (arm entry)
  | .closing | .settled => .error (entry.closedError operation)

def ready (entry : Entry) : Except IntegrationError Entry := entry.establish false .ready

def connected (entry : Entry) : Except IntegrationError Entry := entry.establish true .connect

def reportsClose (entry : Entry) : Entry :=
  { entry with phase := { entry.phase with reportsClose := true } }

def commitClosing (cause : CloseCause) (entry : Entry) : Entry :=
  { entry with phase := { entry.phase with stopped := decide (cause = CloseCause.stop) } }.commit .closing

def beginOperation (operation : IntegrationOperation) (room : Bool) (entry : Entry) :
    Except IntegrationError Entry :=
  match entry.phase.state.accepts, entry.phase.account with
  | true, some _ =>
    if entry.operationLimit ≤ entry.phase.running then
      .error ((busy entry.kind operation).withInstance entry.id)
    else if room then
      .ok { entry with
        phase := { entry.phase with
          inFlight := entry.phase.inFlight + 1
          running := entry.phase.running + 1 }
        guards := entry.guards ++ [⟨true, false⟩] }
    else .error ((busy entry.kind operation).withInstance entry.id)
  | _, _ => .error (entry.closedError operation)

def releaseLimit (index : ℕ) (entry : Entry) : Entry :=
  match entry.guards[index]? with
  | some held =>
    if held.holdsLimit then
      { entry with
        phase := { entry.phase with running := entry.phase.running - 1 }
        guards := entry.guards.modify index ({ · with holdsLimit := false }) }
    else entry
  | none => entry

def actOn : Drained → Entry → Entry
  | .pending, entry | .wakeOwner, entry => entry
  | .settle account settlement, entry =>
    { entry with settlers := entry.settlers ++ [⟨account, settlement, false, .taken⟩] }

def drain (entry : Entry) : Entry :=
  { entry with phase := entry.phase.drained.2 }.actOn entry.phase.drained.1

def endOperation (index : ℕ) (how : OperationEnd) (owesCleanup : Bool) (entry : Entry) : Entry :=
  match entry.guards[index]? with
  | some held =>
    { entry with
      phase := { entry.phase with
        inFlight := entry.phase.inFlight - 1
        running := if held.holdsLimit then entry.phase.running - 1 else entry.phase.running
        forced := entry.phase.forced || decide (how = OperationEnd.forced)
        cleanupOwed := entry.phase.cleanupOwed || owesCleanup }
      guards := entry.guards.modify index fun _ => ⟨false, true⟩ }.drain
  | none => entry

def closeBy (cause : CloseCause) (entry : Entry) : Entry :=
  match entry.phase.state with
  | .admitted | .ready => (entry.commitClosing cause).drain
  | .closing | .settled => entry

/-- The first section of `fail_and_close`; a request to close follows it. -/
def charge (error : IntegrationError) (entry : Entry) : Entry :=
  if entry.phase.account.isSome ∧ entry.phase.closeFailure.isNone then
    { entry with
      phase := { entry.phase with closeFailure := some (error, .completed) }
      charges := entry.charges ++ [error] }
  else entry

def attachCloseOwner (operation : IntegrationOperation) (entry : Entry) :
    Except IntegrationError Entry :=
  match entry.phase.state.accepts, entry.phase.closeOwner with
  | true, .absent =>
    .ok { entry with phase := { entry.phase with closeOwner := .waiting }, owner := true }
  | _, _ => .error (entry.closedError operation)

def ownerEnded (closed : Option (Except IntegrationError Unit)) (entry : Entry) : Entry :=
  match closed, entry.phase.closeFailure with
  | some (.error error), none =>
    { entry with
      phase := { entry.phase with closeFailure := some (error, .named) }
      charges := entry.charges ++ [error] }
  | none, _ => { entry with phase := { entry.phase with forced := true } }
  | some _, _ => entry

def endCloseOwner (closed : Option (Except IntegrationError Unit)) (entry : Entry) : Entry :=
  ({ entry with phase := { entry.phase with closeOwner := .absent }, owner := false }.ownerEnded
    closed).drain

def takeOutstanding (entry : Entry) : Entry :=
  match entry.phase.account with
  | some account =>
    { entry with
      phase := { entry.phase with stopped := true, account := none }
      settlers := entry.settlers ++
        [⟨account, .failed (.incompleteClose entry.kind) .named, true, .taken⟩] }
  | none => { entry with phase := { entry.phase with stopped := true } }

def nameOutstanding (entry : Entry) : Entry :=
  (if entry.phase.state.accepts then entry.commitClosing .stop else entry).takeOutstanding

def closeReport (settlement : Settlement) (entry : Entry) : CloseReport :=
  match settlement, entry.phase.cleanupOwed with
  | .failed error _, _ =>
    ⟨error.operation, some (error.failure, error.retryability), entry.phase.stopped⟩
  | _, true => ⟨.close, some (.cleanupIncomplete, .never), entry.phase.stopped⟩
  | _, false => ⟨.close, none, entry.phase.stopped⟩

def settleStep (settler : Settler) (entry : Entry) : Entry :=
  match settler.stage with
  | .taken => { entry with answers := entry.answers ++ [settler.settlement.failure entry.id] }
  | .answered =>
    if entry.phase.reportsClose then
      { entry with reports := entry.reports ++ [entry.closeReport settler.settlement] }
    else entry
  | .reported => { entry with closed := entry.closed <|> some (settler.settlement.closed entry.id) }
  | .fixed =>
    if entry.runtime then
      { entry with listed := false, disposition := some settler.settlement.disposition }
    else entry
  | .retired => entry.commit .settled
  | .done => entry

section SettleStep

variable (settler : Settler) (entry : Entry)

@[simp] theorem settleStep_id : (entry.settleStep settler).id = entry.id := by
  unfold settleStep
  split <;> (try split) <;> rfl

@[simp] theorem settleStep_account :
    (entry.settleStep settler).phase.account = entry.phase.account := by
  unfold settleStep
  split <;> (try split) <;> rfl

@[simp] theorem settleStep_inFlight :
    (entry.settleStep settler).phase.inFlight = entry.phase.inFlight := by
  unfold settleStep
  split <;> (try split) <;> rfl

@[simp] theorem settleStep_closeOwner :
    (entry.settleStep settler).phase.closeOwner = entry.phase.closeOwner := by
  unfold settleStep
  split <;> (try split) <;> rfl

@[simp] theorem settleStep_runtime : (entry.settleStep settler).runtime = entry.runtime := by
  unfold settleStep
  split <;> (try split) <;> rfl

@[simp] theorem settleStep_operationLimit :
    (entry.settleStep settler).operationLimit = entry.operationLimit := by
  unfold settleStep
  split <;> (try split) <;> rfl

@[simp] theorem settleStep_guards : (entry.settleStep settler).guards = entry.guards := by
  unfold settleStep
  split <;> (try split) <;> rfl

@[simp] theorem settleStep_charges : (entry.settleStep settler).charges = entry.charges := by
  unfold settleStep
  split <;> (try split) <;> rfl

theorem settleStep_state : (entry.settleStep settler).phase.state =
    if settler.stage = .retired then .settled else entry.phase.state := by
  unfold settleStep
  cases settler.stage <;> simp [commit] <;> split <;> rfl

theorem settleStep_answers : (entry.settleStep settler).answers =
    if settler.stage = .taken then entry.answers ++ [settler.settlement.failure entry.id]
    else entry.answers := by
  unfold settleStep
  cases settler.stage <;> simp [commit] <;> split <;> rfl

theorem settleStep_closed : (entry.settleStep settler).closed =
    if settler.stage = .reported then
      entry.closed <|> some (settler.settlement.closed entry.id)
    else entry.closed := by
  unfold settleStep
  cases settler.stage <;> simp [commit] <;> split <;> rfl

theorem settleStep_listed : (entry.settleStep settler).listed =
    if settler.stage = .fixed ∧ entry.runtime = true then false else entry.listed := by
  unfold settleStep
  cases settler.stage <;> simp [commit] <;> split <;> simp_all

end SettleStep

def proceed (index : ℕ) (entry : Entry) : Entry :=
  match entry.settlers[index]? with
  | some settler =>
    { entry.settleStep settler with
      settlers := entry.settlers.modify index ({ · with stage := settler.stage.next }) }
  | none => entry

def runtimeEnds (entry : Entry) : Entry := { entry with runtime := false, listed := false }

inductive Action where
  | ready
  | connected
  | reportsClose
  | beginOperation (operation : IntegrationOperation) (room : Bool)
  | releaseLimit (index : ℕ)
  | endOperation (index : ℕ) (how : OperationEnd) (owesCleanup : Bool)
  | requestClose (admitsChildren : Option Bool)
  | stop (admitsChildren : Option Bool)
  | charge (error : IntegrationError)
  | attachCloseOwner (operation : IntegrationOperation)
  | endCloseOwner (closed : Option (Except IntegrationError Unit))
  | nameOutstanding
  | proceed (index : ℕ)
  | runtimeEnds

def orSame (entry : Entry) : Except IntegrationError Entry → Entry
  | .ok next => next
  | .error _ => entry

def act : Action → Entry → Entry
  | .ready, entry => entry.orSame entry.ready
  | .connected, entry => entry.orSame entry.connected
  | .reportsClose, entry => entry.reportsClose
  | .beginOperation operation room, entry => entry.orSame (entry.beginOperation operation room)
  | .releaseLimit index, entry => entry.releaseLimit index
  | .endOperation index how owesCleanup, entry => entry.endOperation index how owesCleanup
  | .requestClose admitsChildren, entry => entry.closeBy (owningCause admitsChildren .requested)
  | .stop admitsChildren, entry => entry.closeBy (owningCause admitsChildren .stop)
  | .charge error, entry => entry.charge error
  | .attachCloseOwner operation, entry => entry.orSame (entry.attachCloseOwner operation)
  | .endCloseOwner closed, entry => entry.endCloseOwner closed
  | .nameOutstanding, entry => entry.nameOutstanding
  | .proceed index, entry => entry.proceed index
  | .runtimeEnds, entry => entry.runtimeEnds

def Ready (entry : Entry) : Action → Prop
  | .releaseLimit index | .endOperation index _ _ =>
    entry.guards[index]?.any (fun held => !held.ended) = true
  | .endCloseOwner _ => entry.owner = true
  | .proceed index => entry.settlers[index]?.any (fun settler => settler.stage ≠ .done) = true
  | .ready | .connected | .reportsClose | .beginOperation _ _ | .requestClose _ | .stop _
  | .charge _ | .attachCloseOwner _ | .nameOutstanding | .runtimeEnds => True

instance (entry : Entry) : DecidablePred entry.Ready := fun action => by
  unfold Ready
  split <;> infer_instance

def Steps : Entry → Action → Entry → Prop := Acts Ready act

end Entry

end Camber.Integration
