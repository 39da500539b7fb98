import Camber.Lib.Transition
import Camber.Inbound.Ready
import Camber.Server.Stop

/-! The supervisor is one task, the handle's callers are any number of others, and they meet in two
places only: the stop state behind its lock and the control watch. -/

namespace Camber.Server
open Watch

open Inbound (ServerControl)

def forcedJoinGrace : ℕ := 100

def sendAbort : Channel ServerControl → Channel ServerControl :=
  Channel.sendIfModified fun
    | .running | .graceful => some .abort
    | .abort => none

def sendGraceful : Channel ServerControl → Channel ServerControl :=
  Channel.sendIfModified fun
    | .running => some .graceful
    | .graceful | .abort => none

inductive HandleCall where
  | requestGraceful
  | requestCancel
  | abandon
deriving DecidableEq

namespace HandleCall

def event (now : ℕ) : HandleCall → StopEvent
  | .requestGraceful => .graceful now
  | .requestCancel => .cancel
  | .abandon => .abandon

def publish : HandleCall → Channel ServerControl → Channel ServerControl
  | .requestGraceful => sendGraceful
  | .requestCancel | .abandon => sendAbort

end HandleCall

inductive AcceptResult where
  | stream (socket : ℕ)
  | transient
  | fatal (message : String)
deriving DecidableEq

/-- What joining a connection's task answers. -/
inductive JoinResult where
  | completed
  | cancelled
  | panicked (message : String)
deriving DecidableEq

def joinPanicToError : JoinResult → RuntimeError
  | .panicked message => .taskPanicked message
  | .completed | .cancelled => .taskPanicked "owned HTTP task cancelled unexpectedly"

inductive SupervisorEvent where
  | scriptWake
  | deadline
  | control (requested : ServerControl)
  | runtime (selectedAt : ℕ)
  | accept (result : AcceptResult)
  | permit (granted : Bool)
  | connection (socket : ℕ) (result : JoinResult)
deriving DecidableEq

/-- Which of the two transitions `close_admission` publishes. -/
inductive Closing where
  | graceful
  | abort
deriving DecidableEq

def Closing.publish : Closing → Channel ServerControl → Channel ServerControl
  | .graceful => sendGraceful
  | .abort => sendAbort

inductive Point where
  /-- The head of `step`. -/
  | top
  /-- Inside `select_event`. -/
  | waiting
  | committing (event : StopEvent)
  /-- About to read the committed phase in `apply_committed_phase`. -/
  | applying
  | arming (closing : Closing)
  /-- In `close_admission`, about to release the listener and publish. -/
  | publishing (closing : Closing)
  /-- In `close_admission`, about to mark the control watch as seen. -/
  | marking (closing : Closing)
  | closingPending
  | parking (socket : ℕ)
  | admitting (socket : ℕ) (permit : Bool)
  | spawning (socket : ℕ) (permit : Bool)
  | panicked
  | draining
  | returned (result : Except RuntimeError Unit)
deriving DecidableEq

structure Connection where
  socket : ℕ
  permit : Bool

structure Supervisor where
  listener : Bool
  cleanupFailure : Option RuntimeError
  applied : StopPhase
  runtimeShutdown : Bool
  pending : Option ℕ
  seen : ℕ
  connections : List Connection
  supervisorAborted : Bool
  deadline : Option ℕ
  abortStarted : Bool
  unwinding : Option RuntimeError
  point : Point

namespace Supervisor

def appliedForced (supervisor : Supervisor) : Bool := supervisor.applied.forced

def startAbortIfReady (supervisor : Supervisor) : Supervisor :=
  if supervisor.appliedForced && !supervisor.abortStarted then
    { supervisor with abortStarted := true, supervisorAborted := true }
  else supervisor

def forceAbort (supervisor : Supervisor) : Supervisor :=
  { supervisor with deadline := none, abortStarted := true, supervisorAborted := true }

def abortDrainComplete (supervisor : Supervisor) : Bool :=
  supervisor.appliedForced && supervisor.abortStarted && supervisor.connections.isEmpty

def gracefulDrainComplete (supervisor : Supervisor) : Bool :=
  decide (supervisor.applied = .graceful) && supervisor.connections.isEmpty

def classifyCompletion (supervisor : Supervisor) : JoinResult → Option RuntimeError
  | .completed => none
  | .cancelled => if supervisor.supervisorAborted then none else some (joinPanicToError .cancelled)
  | .panicked message => some (joinPanicToError (.panicked message))

end Supervisor

structure ServerConfig where
  shutdownTimeout : ℕ
  connectionLimit : Option ℕ
  cleanup : Option RuntimeError

structure System where
  config : ServerConfig
  stop : ServerStopState
  control : Channel ServerControl
  calls : List HandleCall
  fired : Bool
  supervisor : Supervisor
  spawned : List ℕ
  closed : List ℕ

namespace System

def new (config : ServerConfig) (shutdown : AggregateShutdown) (inRuntime : Bool) : System where
  config := config
  stop := ServerStopState.new shutdown
  control := ⟨.running, 0⟩
  calls := []
  fired := false
  supervisor :=
    { listener := true
      cleanupFailure := none
      applied := .running
      runtimeShutdown := inRuntime
      pending := none
      seen := 0
      connections := []
      supervisorAborted := false
      deadline := none
      abortStarted := false
      unwinding := none
      point := .top }
  spawned := []
  closed := []

def goto (point : Point) (system : System) : System :=
  { system with supervisor := { system.supervisor with point := point } }

def admissionIsOpen (system : System) : Bool :=
  system.supervisor.listener && !(system.supervisor.runtimeShutdown && system.fired)

def close (socket : ℕ) (system : System) : System :=
  { system with closed := system.closed ++ [socket] }

def gracefulDeadline (now : ℕ) (system : System) : ℕ × AggregateShutdown :=
  let committedAt := system.stop.committed.gracefulAt.getD now
  let (shared, shutdown) := system.stop.shutdown.mintAt committedAt
  (min shared (now + system.config.shutdownTimeout), shutdown)

def forcedDeadline (now : ℕ) (system : System) : ℕ :=
  let remaining :=
    if system.stop.committed.commanded then 0
    else (system.stop.shutdown.remaining now).getD system.config.shutdownTimeout
  now + max remaining forcedJoinGrace

/-- `report_serve_outcome`: only one error can leave, and how the serving ended comes first. -/
def reportServeOutcome : Except RuntimeError Unit → Option RuntimeError → Except RuntimeError Unit
  | .ok (), none => .ok ()
  | .ok (), some error => .error error
  | .error error, _ => .error error

def finish (now : ℕ) (system : System) : System :=
  let (served, stop) := system.stop.settle now
  { system with
    stop := stop
    supervisor :=
      { system.supervisor with
        cleanupFailure := none
        point :=
          .returned (reportServeOutcome (served.getD (.ok ())) system.supervisor.cleanupFailure) } }

def applyCommittedPhase (system : System) : System :=
  match system.supervisor.applied, system.stop.phase with
  | .running, .graceful =>
    { system with
      supervisor := { system.supervisor with applied := .graceful, point := .arming .graceful } }
  | .running, .cancelled | .graceful, .cancelled =>
    { system with
      supervisor := { system.supervisor with applied := .cancelled, point := .arming .abort } }
  | .running, .timedOut | .graceful, .timedOut =>
    { system with
      supervisor := { system.supervisor with applied := .timedOut, point := .arming .abort } }
  | _, _ => system.goto .top

def arm (now : ℕ) (closing : Closing) (system : System) : System :=
  match closing with
  | .graceful =>
    let (deadline, shutdown) := system.gracefulDeadline now
    { system with
      stop := { system.stop with shutdown := shutdown }
      supervisor :=
        { system.supervisor with deadline := some deadline, point := .publishing .graceful } }
  | .abort =>
    { system with
      supervisor :=
        { system.supervisor with
          deadline := some (system.forcedDeadline now)
          point := .publishing .abort } }

def publishControl (closing : Closing) (system : System) : System :=
  let supervisor := system.supervisor
  { system with
    control := closing.publish system.control
    supervisor :=
      { supervisor with
        listener := false
        cleanupFailure :=
          if supervisor.listener then system.config.cleanup.or supervisor.cleanupFailure
          else supervisor.cleanupFailure
        point := .marking closing } }

def markSeen (system : System) : System :=
  { system with
    supervisor :=
      { system.supervisor with seen := system.control.version, point := .closingPending } }

def closePending (system : System) : System :=
  { system with
    closed := system.closed ++ system.supervisor.pending.toList
    supervisor :=
      { system.supervisor with
        pending := none
        point := if system.supervisor.unwinding.isSome then .draining else .top } }

def advance (now : ℕ) (system : System) : System :=
  match system.supervisor.point with
  | .top =>
    let started := { system with supervisor := system.supervisor.startAbortIfReady }
    if started.supervisor.abortDrainComplete || started.supervisor.gracefulDrainComplete then
      started.finish now
    else started.goto .waiting
  | .committing event =>
    { system with stop := (system.stop.apply now event).2 }.goto .applying
  | .applying => system.applyCommittedPhase
  | .arming closing => system.arm now closing
  | .publishing closing => system.publishControl closing
  | .marking _ => system.markSeen
  | .closingPending => system.closePending
  | .parking socket =>
    if system.admissionIsOpen then
      { system with supervisor := { system.supervisor with pending := some socket, point := .top } }
    else (system.close socket).goto .top
  | .admitting socket permit =>
    if system.admissionIsOpen then system.goto (.spawning socket permit)
    else (system.close socket).goto .top
  | .spawning socket permit =>
    { system with
      spawned := system.spawned ++ [socket]
      supervisor :=
        { system.supervisor with
          connections := system.supervisor.connections ++ [⟨socket, permit⟩]
          point := .top } }
  | .panicked =>
    { system with
      stop := (system.stop.apply now .abandon).2
      supervisor := { system.supervisor with applied := .cancelled, point := .arming .abort } }
  | .draining =>
    { system with
      supervisor :=
        { system.supervisor with
          connections := []
          supervisorAborted := true
          point := .returned (.error (system.supervisor.unwinding.getD .cancelled)) } }
  | .waiting | .returned _ => system

def select (event : SupervisorEvent) (system : System) : System :=
  let supervisor := system.supervisor
  match event with
  | .scriptWake => system.goto .top
  | .deadline =>
    if supervisor.appliedForced then
      { system with supervisor := { supervisor.forceAbort with point := .top } }
    else system.goto (.committing .deadlineExpiry)
  | .control _ =>
    { system with
      supervisor := { supervisor with seen := system.control.version, point := .applying } }
  | .runtime selectedAt =>
    { system with
      supervisor :=
        { supervisor with runtimeShutdown := false, point := .committing (.graceful selectedAt) } }
  | .accept (.stream socket) =>
    match system.config.connectionLimit with
    | some _ => system.goto (.parking socket)
    | none => system.goto (.admitting socket false)
  | .accept .transient => system.goto .top
  | .accept (.fatal message) => system.goto (.committing (.fatal (.io message)))
  | .permit true =>
    match supervisor.pending with
    | some socket =>
      { system with
        supervisor := { supervisor with pending := none, point := .admitting socket true } }
    | none => system.goto .top
  | .permit false =>
    { system with
      closed := system.closed ++ supervisor.pending.toList
      supervisor := { supervisor with pending := none, point := .top } }
  | .connection socket result =>
    let connections := supervisor.connections.eraseP fun c => decide (c.socket = socket)
    { system with
      supervisor :=
        { supervisor with
          connections := connections
          point :=
            match supervisor.classifyCompletion result with
            | none => .top
            | some error => .committing (.fatal error) } }

def held (system : System) : ℕ := system.supervisor.connections.countP Connection.permit

def Selectable (now : ℕ) (system : System) : SupervisorEvent → Prop
  | .scriptWake => True
  | .deadline => ∃ d ∈ system.supervisor.deadline, d ≤ now
  | .control requested =>
    system.control.Changed system.supervisor.seen ∧ requested = system.control.value
  | .runtime selectedAt =>
    system.supervisor.runtimeShutdown = true ∧ system.fired = true ∧ selectedAt = now
  | .accept _ => system.supervisor.pending = none ∧ system.supervisor.listener = true
  | .permit true =>
    system.supervisor.pending ≠ none ∧ ∃ n ∈ system.config.connectionLimit, system.held < n
  | .permit false => system.supervisor.pending ≠ none
  | .connection socket _ => socket ∈ system.supervisor.connections.map Connection.socket

instance (now : ℕ) (system : System) : DecidablePred (system.Selectable now) := fun event => by
  unfold Selectable
  split <;> infer_instance

end System

inductive Action where
  | call (call : HandleCall) (now : ℕ)
  | publish (call : HandleCall)
  | fire
  | mint (instant : ℕ)
  | select (now : ℕ) (event : SupervisorEvent)
  | advance (now : ℕ)
  | panic (error : RuntimeError)

def Action.isAdvance : Action → Bool
  | .advance _ => true
  | _ => false

namespace System

def act : Action → System → System
  | .call call now, system =>
    { system with
      stop := (system.stop.apply now (call.event now)).2
      calls := call :: system.calls }
  | .publish call, system =>
    { system with control := call.publish system.control, calls := system.calls.erase call }
  | .fire, system => { system with fired := true }
  | .mint instant, system =>
    { system with stop := { system.stop with shutdown := (system.stop.shutdown.mintAt instant).2 } }
  | .select _ event, system => system.select event
  | .advance now, system => system.advance now
  | .panic error, system =>
    { system with
      supervisor := { system.supervisor with unwinding := some error, point := .panicked } }

end System

namespace Point

def isWaiting : Point → Bool
  | .waiting => true
  | _ => false

def isReturned : Point → Bool
  | .returned _ => true
  | _ => false

end Point

def System.Ready (system : System) : Action → Prop
  | .call _ _ | .fire | .mint _ => True
  | .publish call => call ∈ system.calls
  | .select now event => system.supervisor.point.isWaiting = true ∧ system.Selectable now event
  | .advance _ =>
    system.supervisor.point.isWaiting = false ∧ system.supervisor.point.isReturned = false
  | .panic _ =>
    system.supervisor.unwinding = none ∧ system.supervisor.point.isReturned = false

instance (system : System) : DecidablePred system.Ready := fun action => by
  unfold System.Ready
  split <;> infer_instance

def Steps : System → Action → System → Prop := Transition.Acts System.Ready System.act

end Camber.Server
