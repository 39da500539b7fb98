import Camber.Basic

/-! One lock orders every fact about how a server stops. Times are milliseconds. -/

namespace Camber.Server

inductive StopPhase where
  | running
  | graceful
  | cancelled
  | timedOut
  | finished
deriving DecidableEq

/-- The two phases a server is forced into. -/
def StopPhase.forced : StopPhase → Bool
  | .cancelled | .timedOut => true
  | .running | .graceful | .finished => false

inductive StopOutcome where
  | pending
  | completed
  | failed
  | cancelled
  | timedOut
deriving DecidableEq

inductive StopEvent where
  | graceful (instant : ℕ)
  | cancel
  | abandon
  | fatal (error : RuntimeError)
  | deadlineExpiry
  | settled
deriving DecidableEq

structure StopTransition where
  phase : StopPhase
  changed : Bool

structure CommittedStop where
  phase : StopPhase
  gracefulAt : Option ℕ
  aggregateExpiry : Option ℕ
  forcedAt : Option ℕ
  fatal : Option RuntimeError
  fatalRecorded : Bool
  result : Option (Except RuntimeError Unit)
  outcome : StopOutcome
  commanded : Bool
  commits : ℕ
  applied : ℕ
  laterFatalFacts : ℕ

/-- The expiry a runtime and its servers share. It is written once. -/
structure AggregateShutdown where
  grace : ℕ
  expiry : Option ℕ

namespace AggregateShutdown

def mintAt (shutdown : AggregateShutdown) (instant : ℕ) : ℕ × AggregateShutdown :=
  match shutdown.expiry with
  | some expiry => (expiry, shutdown)
  | none => (instant + shutdown.grace, { shutdown with expiry := some (instant + shutdown.grace) })

/-- The time left before the shared expiry, if one was minted. -/
def remaining (shutdown : AggregateShutdown) (now : ℕ) : Option ℕ :=
  shutdown.expiry.map (· - now)

end AggregateShutdown

structure ServerStopState where
  committed : CommittedStop
  shutdown : AggregateShutdown

namespace ServerStopState

def new (shutdown : AggregateShutdown) : ServerStopState where
  committed :=
    { phase := .running
      gracefulAt := none
      aggregateExpiry := none
      forcedAt := none
      fatal := none
      fatalRecorded := false
      result := none
      outcome := .pending
      commanded := false
      commits := 0
      applied := 0
      laterFatalFacts := 0 }
  shutdown := shutdown

def phase (stop : ServerStopState) : StopPhase := stop.committed.phase

def commitGraceful (instant : ℕ) (stop : ServerStopState) : ServerStopState :=
  match stop.committed.phase with
  | .running =>
    let minted := stop.shutdown.mintAt instant
    { committed :=
        { stop.committed with
          phase := .graceful
          gracefulAt := some instant
          aggregateExpiry := some minted.1 }
      shutdown := minted.2 }
  | .graceful | .cancelled | .timedOut | .finished => stop

end ServerStopState

namespace CommittedStop

def commitForced (now : ℕ) (commanded : Bool) (committed : CommittedStop) : CommittedStop :=
  let committed := { committed with commanded := committed.commanded || commanded }
  match committed.phase with
  | .running | .graceful => { committed with phase := .cancelled, forcedAt := some now }
  | .cancelled | .timedOut | .finished => committed

def commitTimeout (committed : CommittedStop) : CommittedStop :=
  match committed.phase with
  | .graceful => { committed with phase := .timedOut }
  | .running | .cancelled | .timedOut | .finished => committed

/-- A forced stop takes the result away from the fatal fact, which stays counted. -/
def displaceFatal (committed : CommittedStop) : CommittedStop :=
  match committed.fatal with
  | none => committed
  | some _ =>
    { committed with fatal := none, laterFatalFacts := committed.laterFatalFacts + 1 }

def drainedResult : Option RuntimeError → Except RuntimeError Unit × StopOutcome
  | some error => (.error error, .failed)
  | none => (.ok (), .completed)

def commitSettlement (committed : CommittedStop) : CommittedStop :=
  match committed.phase with
  | .running | .finished => committed
  | .cancelled =>
    { committed.displaceFatal with
      phase := .finished
      result := some (.error .cancelled)
      outcome := .cancelled }
  | .timedOut =>
    { committed.displaceFatal with
      phase := .finished
      result := some (.error .timeout)
      outcome := .timedOut }
  | .graceful =>
    { committed with
      fatal := none
      phase := .finished
      result := some (drainedResult committed.fatal).1
      outcome := (drainedResult committed.fatal).2 }

end CommittedStop

namespace ServerStopState

def commitFatal (now : ℕ) (error : RuntimeError) (stop : ServerStopState) : ServerStopState :=
  let stop := { stop with committed := { stop.committed with fatalRecorded := true } }
  match stop.committed.phase, stop.committed.fatal with
  | .running, none =>
    { stop with committed := { stop.committed with fatal := some error } }.commitGraceful now
  | .running, some _ =>
    { stop with
      committed :=
        { stop.committed with
          laterFatalFacts := stop.committed.laterFatalFacts + 1 } }.commitGraceful now
  | .graceful, none => { stop with committed := { stop.committed with fatal := some error } }
  | .graceful, some _ | .cancelled, _ | .timedOut, _ | .finished, _ =>
    { stop with
      committed :=
        { stop.committed with laterFatalFacts := stop.committed.laterFatalFacts + 1 } }

def commitEvent (now : ℕ) (event : StopEvent) (stop : ServerStopState) : ServerStopState :=
  match event with
  | .graceful instant => stop.commitGraceful instant
  | .cancel => { stop with committed := stop.committed.commitForced now true }
  | .abandon => { stop with committed := stop.committed.commitForced now false }
  | .fatal error => stop.commitFatal now error
  | .deadlineExpiry => { stop with committed := stop.committed.commitTimeout }
  | .settled => { stop with committed := stop.committed.commitSettlement }

def apply (now : ℕ) (event : StopEvent) (stop : ServerStopState) :
    StopTransition × ServerStopState :=
  let before := stop.committed.phase
  let counted :=
    { stop with committed := { stop.committed with applied := stop.committed.applied + 1 } }
  let done := counted.commitEvent now event
  let changed := decide (done.committed.phase ≠ before)
  (⟨done.committed.phase, changed⟩,
    { done with
      committed :=
        { done.committed with
          commits := if changed then done.committed.commits + 1 else done.committed.commits } })

/-- Commit the settlement and take the result it fixed, in one acquisition. -/
def settle (now : ℕ) (stop : ServerStopState) :
    Option (Except RuntimeError Unit) × ServerStopState :=
  let done := (stop.apply now .settled).2
  (done.committed.result, { done with committed := { done.committed with result := none } })

end ServerStopState

/-- The phase an event leaves, which depends on the phase alone. -/
def StopPhase.after : StopPhase → StopEvent → StopPhase
  | .running, .graceful _ | .running, .fatal _ => .graceful
  | .running, .cancel | .running, .abandon => .cancelled
  | .running, .deadlineExpiry | .running, .settled => .running
  | .graceful, .graceful _ | .graceful, .fatal _ => .graceful
  | .graceful, .cancel | .graceful, .abandon => .cancelled
  | .graceful, .deadlineExpiry => .timedOut
  | .graceful, .settled | .cancelled, .settled | .timedOut, .settled => .finished
  | .cancelled, _ => .cancelled
  | .timedOut, _ => .timedOut
  | .finished, _ => .finished

namespace ServerStopState

variable {now : ℕ} {stop : ServerStopState}

theorem phase_commitGraceful (instant : ℕ) :
    (stop.commitGraceful instant).phase = stop.phase.after (.graceful instant) := by
  unfold commitGraceful phase
  cases h : stop.committed.phase <;> simp [h, StopPhase.after]

theorem phase_commitFatal (error : RuntimeError) :
    (stop.commitFatal now error).phase = stop.phase.after (.fatal error) := by
  unfold commitFatal phase
  cases h : stop.committed.phase <;> cases hf : stop.committed.fatal <;>
    simp [h, hf, StopPhase.after, commitGraceful]

/-- The lock's view of the phase is the automaton's. -/
@[simp] theorem phase_apply (event : StopEvent) :
    (stop.apply now event).2.phase = stop.phase.after event := by
  have hcommit : ∀ stop : ServerStopState,
      (stop.commitEvent now event).phase = stop.phase.after event := by
    intro stop
    cases event with
    | graceful instant => exact phase_commitGraceful instant
    | fatal error => exact phase_commitFatal error
    | cancel | abandon =>
      unfold commitEvent phase CommittedStop.commitForced
      cases stop.committed.phase <;> simp [StopPhase.after]
    | deadlineExpiry =>
      unfold commitEvent phase CommittedStop.commitTimeout
      cases h : stop.committed.phase <;> simp [h, StopPhase.after]
    | settled =>
      unfold commitEvent phase CommittedStop.commitSettlement
      cases h : stop.committed.phase <;> simp [h, StopPhase.after]
  exact hcommit _

@[simp] theorem phase_settle : (stop.settle now).2.phase = stop.phase.after .settled :=
  phase_apply .settled

@[simp] theorem phase_new (shutdown : AggregateShutdown) : (new shutdown).phase = .running := rfl

end ServerStopState

end Camber.Server
