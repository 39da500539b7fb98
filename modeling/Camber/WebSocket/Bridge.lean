import Camber.Lib.Transition
import Camber.Inbound.Ready
import Camber.Server.Stop

/-! Two pumps run under one coordinator: the inbound pump moves peer frames into the receive queue,
the outbound pump moves admitted messages into the transport sink. -/

namespace Camber.WebSocket

open Inbound (ServerControl)
open Server (StopPhase)

inductive WsMessage where
  | text (text : String)
  | binary (data : Str.Bytes)
deriving DecidableEq

/-- One frame of the transport. -/
inductive WsFrameMessage where
  | text (text : String)
  | binary (data : Str.Bytes)
  | ping (data : Str.Bytes)
  | pong (data : Str.Bytes)
  | close
  | frame
deriving DecidableEq

def intoFrame : WsMessage → WsFrameMessage
  | .text text => .text text
  | .binary data => .binary data

def fromFrame : WsFrameMessage → Option WsMessage
  | .text text => some (.text text)
  | .binary data => some (.binary data)
  | .ping _ | .pong _ | .close | .frame => none

@[simp] theorem fromFrame_intoFrame (message : WsMessage) :
    fromFrame (intoFrame message) = some message := by
  cases message <;> rfl

/-- Why a direct WebSocket ended. -/
inductive WsCloseCause where
  | peerClosed
  | peerDisconnected
  | serverShutdown
  | serverCancelled
  | receiverDropped
  | sendersDropped
deriving DecidableEq

def WsCloseCause.discardsQueuedMessages : WsCloseCause → Bool
  | .serverCancelled | .receiverDropped => true
  | .peerClosed | .peerDisconnected | .serverShutdown | .sendersDropped => false

inductive WsReceive where
  | message (message : WsMessage)
  | closed (cause : WsCloseCause)
deriving DecidableEq

inductive OutboundDisposition where
  | drain
  | cancel
deriving DecidableEq

def outboundDisposition : WsCloseCause → OutboundDisposition
  | .serverShutdown | .sendersDropped => .drain
  | .serverCancelled | .peerClosed | .peerDisconnected | .receiverDropped => .cancel

def stoppedOr : StopPhase → WsCloseCause → WsCloseCause
  | .cancelled, _ | .timedOut, _ => .serverCancelled
  | .running, offered | .graceful, offered | .finished, offered => offered

theorem stoppedOr_cases (phase : StopPhase) (offered : WsCloseCause) :
    stoppedOr phase offered = offered ∨ stoppedOr phase offered = .serverCancelled := by
  cases phase <;> simp [stoppedOr]

def controlCause : ServerControl → WsCloseCause
  | .graceful => .serverShutdown
  | .abort | .running => .serverCancelled

inductive InboundPoint where
  | reading
  | admitting (message : WsMessage)
deriving DecidableEq

inductive OutboundPoint where
  | receiving
  /-- Waiting for the sink, with a message in `pending`. -/
  | writing
  | flushing
deriving DecidableEq

inductive Point where
  | racing
  | committing (offered : WsCloseCause)
  | closingSends (cause : WsCloseCause)
  | closingReceives (cause : WsCloseCause)
  | settling (cause : WsCloseCause)
  | draining (cause : WsCloseCause)
  | owing (cause : WsCloseCause)
  | ended
deriving DecidableEq

/-- What the transport sink was given. -/
inductive SinkItem where
  | frame (item : WsFrameMessage)
  | close
  | flush
deriving DecidableEq

structure Bridge where
  /-- `ws_buffer_size`, the capacity of both queues. -/
  bufferSize : ℕ
  queue : List WsMessage
  reserved : ℕ
  senders : ℕ
  sendClosed : Bool
  inbox : List WsMessage
  receiver : Bool
  inboxClosed : Bool
  receiving : Bool
  producers : Bool
  inbound : InboundPoint
  outbound : OutboundPoint
  pending : Option WsMessage
  point : Point
  terminal : Option WsCloseCause
  wire : List SinkItem
  /-- The messages of the sends that returned `Ok`, in the order of the queue. -/
  admitted : List WsMessage
  peer : List WsMessage
  answers : List WsReceive
  refusals : List WsCloseCause

namespace Bridge

def new (bufferSize : ℕ) : Bridge where
  bufferSize := bufferSize
  queue := []
  reserved := 0
  senders := 1
  sendClosed := false
  inbox := []
  receiver := true
  inboxClosed := false
  receiving := false
  producers := true
  inbound := .reading
  outbound := .receiving
  pending := none
  point := .racing
  terminal := none
  wire := []
  admitted := []
  peer := []
  answers := []
  refusals := []

def committed (bridge : Bridge) : WsCloseCause := bridge.terminal.getD .serverCancelled

def receiveRefused (bridge : Bridge) : Bool :=
  !bridge.receiver || bridge.inboxClosed || !bridge.producers

def exhausted (bridge : Bridge) : Bool :=
  bridge.queue.isEmpty && decide (bridge.reserved = 0) &&
    (bridge.sendClosed || decide (bridge.senders = 0))

def offer (cause : WsCloseCause) (bridge : Bridge) : Bridge :=
  { bridge with point := .committing cause }

def push (message : WsMessage) (bridge : Bridge) : Bridge :=
  { bridge with
    queue := bridge.queue ++ [message]
    reserved := bridge.reserved - 1
    admitted := bridge.admitted ++ [message] }

def dropReceiver (bridge : Bridge) : Bridge :=
  { bridge with receiver := false, receiving := false, inbox := [] }

/-- `settled_cause`: a queue the bridge let go without a cause reads as a cancelled server. -/
def settledCause (bridge : Bridge) : Option WsCloseCause :=
  match bridge.terminal, !bridge.producers || bridge.inboxClosed with
  | some cause, _ => some cause
  | none, true => some bridge.committed
  | none, false => none

def beginReceive (bridge : Bridge) : Bridge :=
  match bridge.settledCause with
  | some cause =>
    if cause.discardsQueuedMessages then
      { bridge with
        inboxClosed := true
        inbox := []
        answers := bridge.answers ++ [.closed cause] }
    else { bridge with receiving := true }
  | none => { bridge with receiving := true }

def answerReceive (bridge : Bridge) : Bridge :=
  match bridge.inbox with
  | message :: rest =>
    { bridge with
      inbox := rest
      receiving := false
      answers := bridge.answers ++ [.message message] }
  | [] =>
    { bridge with
      receiving := false
      answers := bridge.answers ++ [.closed bridge.committed] }

def read (item : Option WsFrameMessage) (bridge : Bridge) : Bridge :=
  match item with
  | none => bridge.offer .peerDisconnected
  | some .close => bridge.offer .peerClosed
  | some item =>
    match fromFrame item with
    | none => bridge
    | some message =>
      { bridge with inbound := .admitting message, peer := bridge.peer ++ [message] }

def admitFrame (bridge : Bridge) : Bridge :=
  match bridge.inbound with
  | .reading => bridge
  | .admitting message =>
    if bridge.receiveRefused then { bridge with inbound := .reading }.offer .receiverDropped
    else { bridge with inbound := .reading, inbox := bridge.inbox ++ [message] }

def writeFailed (bridge : Bridge) : Bridge :=
  match bridge.point with
  | .draining cause => { bridge with point := .owing cause }
  | _ => bridge.offer .peerDisconnected

def takeMessage (bridge : Bridge) : Bridge :=
  match bridge.queue with
  | message :: rest =>
    { bridge with queue := rest, pending := some message, outbound := .writing }
  | [] =>
    match bridge.point with
    | .draining cause => { bridge with point := .owing cause }
    | _ => bridge.offer .sendersDropped

def handOver (bridge : Bridge) : Bridge :=
  { bridge with
    wire := bridge.wire ++ bridge.pending.toList.map (SinkItem.frame ∘ intoFrame)
    pending := none
    outbound := .flushing }

/-- `commit`: inside the stop lock where a server is over the bridge. -/
def commit (phase : Option StopPhase) (bridge : Bridge) : Bridge :=
  match bridge.point with
  | .committing offered =>
    let cause := phase.elim offered (stoppedOr · offered)
    let fixed := bridge.terminal.getD cause
    { bridge with terminal := some fixed, point := .closingSends fixed }
  | _ => bridge

def settle (bridge : Bridge) : Bridge :=
  match bridge.point with
  | .settling cause =>
    match outboundDisposition cause with
    | .drain =>
      { bridge with
        point := .draining cause
        outbound := if bridge.pending.isSome then .writing else .receiving }
    | .cancel => { bridge with point := .owing cause, pending := none, queue := [] }
  | _ => bridge

def owedClose : WsCloseCause → List SinkItem
  | .serverCancelled | .peerDisconnected => []
  | .serverShutdown | .receiverDropped | .sendersDropped => [.close]
  | .peerClosed => [.flush]

def oweClose (bridge : Bridge) : Bridge :=
  match bridge.point with
  | .owing cause => { bridge with point := .ended, wire := bridge.wire ++ owedClose cause }
  | _ => bridge

def closeSends (bridge : Bridge) : Bridge :=
  match bridge.point with
  | .closingSends cause => { bridge with sendClosed := true, point := .closingReceives cause }
  | _ => bridge

def closeReceives (bridge : Bridge) : Bridge :=
  match bridge.point with
  | .closingReceives cause => { bridge with producers := false, point := .settling cause }
  | _ => bridge

def abort (bridge : Bridge) : Bridge := { bridge with point := .ended }

end Bridge

inductive Action where
  | cloneSender
  | dropSender
  | reserve
  /-- A send fills the slot it found, and returns `Ok`. -/
  | push (message : WsMessage)
  | refuseSend
  | beginReceive
  | answerReceive
  | abandonReceive
  | dropReceiver
  | read (item : Option WsFrameMessage)
  | admitFrame
  | takeMessage
  | handOver
  | readyFailed
  | sendFailed
  | flushed
  | flushFailed
  | receiverLeft
  | control (mode : ServerControl)
  | commit (phase : Option StopPhase)
  | closeSends
  | closeReceives
  | settle
  | oweClose
  | abort
  | taken

namespace Bridge

def act : Action → Bridge → Bridge
  | .cloneSender, bridge => { bridge with senders := bridge.senders + 1 }
  | .dropSender, bridge => { bridge with senders := bridge.senders - 1 }
  | .reserve, bridge => { bridge with reserved := bridge.reserved + 1 }
  | .push message, bridge => bridge.push message
  | .refuseSend, bridge => { bridge with refusals := bridge.refusals ++ [bridge.committed] }
  | .beginReceive, bridge => bridge.beginReceive
  | .answerReceive, bridge => bridge.answerReceive
  | .abandonReceive, bridge => { bridge with receiving := false }
  | .dropReceiver, bridge => bridge.dropReceiver
  | .read item, bridge => bridge.read item
  | .admitFrame, bridge => bridge.admitFrame
  | .takeMessage, bridge => bridge.takeMessage
  | .handOver, bridge => bridge.handOver
  | .readyFailed, bridge => bridge.writeFailed
  | .sendFailed, bridge => { bridge with pending := none }.writeFailed
  | .flushed, bridge => { bridge with outbound := .receiving }
  | .flushFailed, bridge => bridge.writeFailed
  | .receiverLeft, bridge => bridge.offer .receiverDropped
  | .control mode, bridge => bridge.offer (controlCause mode)
  | .commit phase, bridge => bridge.commit phase
  | .closeSends, bridge => bridge.closeSends
  | .closeReceives, bridge => bridge.closeReceives
  | .settle, bridge => bridge.settle
  | .oweClose, bridge => bridge.oweClose
  | .abort, bridge => bridge.abort
  | .taken, bridge =>
    { bridge with point := .ended, sendClosed := true, producers := false, pending := none }

end Bridge

namespace Point

def writes : Point → Bool
  | .racing | .draining _ => true
  | _ => false

def isCommitting : Point → Bool
  | .committing _ => true
  | _ => false

def isClosingSends : Point → Bool
  | .closingSends _ => true
  | _ => false

def isClosingReceives : Point → Bool
  | .closingReceives _ => true
  | _ => false

def isSettling : Point → Bool
  | .settling _ => true
  | _ => false

def isOwing : Point → Bool
  | .owing _ => true
  | _ => false

def isDraining : Point → Bool
  | .draining _ => true
  | _ => false

end Point

namespace Bridge

def Ready (bridge : Bridge) : Action → Prop
  | .cloneSender => 0 < bridge.senders
  | .dropSender => bridge.reserved < bridge.senders
  | .reserve => bridge.reserved < bridge.senders ∧ bridge.sendClosed = false ∧
      bridge.queue.length + bridge.reserved < bridge.bufferSize
  | .push _ => 0 < bridge.reserved
  | .refuseSend =>
    0 < bridge.senders ∧ (bridge.terminal ≠ none ∨ bridge.sendClosed = true)
  | .beginReceive => bridge.receiver = true ∧ bridge.receiving = false
  | .answerReceive => bridge.receiving = true ∧
      (bridge.inbox ≠ [] ∨ bridge.producers = false ∨ bridge.inboxClosed = true)
  | .abandonReceive => bridge.receiving = true
  | .dropReceiver => bridge.receiver = true
  | .read _ => bridge.point = .racing ∧ bridge.inbound = .reading
  | .admitFrame => bridge.point = .racing ∧ bridge.inbound ≠ .reading ∧
      (bridge.receiveRefused = true ∨ bridge.inbox.length < bridge.bufferSize)
  | .takeMessage => bridge.point.writes = true ∧ bridge.outbound = .receiving ∧
      (bridge.queue ≠ [] ∨ bridge.exhausted = true)
  | .handOver | .readyFailed | .sendFailed =>
    bridge.point.writes = true ∧ bridge.outbound = .writing
  | .flushed | .flushFailed => bridge.point.writes = true ∧ bridge.outbound = .flushing
  | .receiverLeft => bridge.point = .racing ∧ bridge.receiver = false ∧ 0 < bridge.senders
  | .control _ => bridge.point = .racing
  | .commit _ => bridge.point.isCommitting = true
  | .closeSends => bridge.point.isClosingSends = true
  | .closeReceives => bridge.point.isClosingReceives = true
  | .settle => bridge.point.isSettling = true
  | .oweClose => bridge.point.isOwing = true
  | .abort => bridge.point.isDraining = true ∨ bridge.point.isOwing = true
  | .taken => bridge.point ≠ .ended

instance (bridge : Bridge) : DecidablePred bridge.Ready := fun action => by
  unfold Ready
  split <;> infer_instance

end Bridge

def Steps : Bridge → Action → Bridge → Prop := Transition.Acts Bridge.Ready Bridge.act

end Camber.WebSocket
