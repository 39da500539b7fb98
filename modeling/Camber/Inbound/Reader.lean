import Camber.Inbound.Transfer
import Camber.Lib.Transition

/-! `OperationEnvelope` carries the budgets of one admitted request and builds the authority each
payload owner takes. -/

namespace Camber.Inbound
open Str

structure RequestBudget where
  bodyIdle : Option ℕ
  total : Option ℕ

structure RouteBudgets where
  request : RequestBudget
  upload : TransferBudget
  download : TransferBudget

structure OperationEnvelope where
  budgets : RouteBudgets
  total : Option ℕ

namespace OperationEnvelope

def admitRequest (budgets : RouteBudgets) (admittedAt : ℕ) : OperationEnvelope :=
  ⟨budgets, budgets.request.total.map (admittedAt + ·)⟩

def guard (idle total : Option ℕ) (now : ℕ) : InboundGuard := ⟨idle, total, none, now⟩

def inbound (operation : OperationEnvelope) (now : ℕ) : InboundGuard :=
  guard operation.budgets.request.bodyIdle operation.total now

def upload (operation : OperationEnvelope) (registration : TransferBudget) (now : ℕ) :
    TransferOwner :=
  ⟨.upload, registration.narrowedBy operation.budgets.upload, some (operation.inbound now)⟩

def handoffUpload (operation : OperationEnvelope) (registration : TransferBudget) (now : ℕ) :
    TransferOwner :=
  ⟨.upload, registration.narrowedBy operation.budgets.upload,
    some (guard operation.budgets.request.bodyIdle none now)⟩

def download (operation : OperationEnvelope) (registration : TransferBudget) (now : ℕ) :
    TransferOwner :=
  ⟨.download, registration.narrowedBy operation.budgets.download, some (guard none none now)⟩

end OperationEnvelope

/-- What one read of the wire came back with. -/
inductive WireRead where
  | end_
  | failed (error : Text)
  | trailers
  | data (bytes : Bytes)

structure ReaderTurn where
  wire : Option WireRead
  observed : ℕ
  delivered : ℕ
  shared : Shared
  cellFree : Bool

/-- The state one inbound turn reads and writes. -/
structure InboundRead where
  budget : BodyBudget
  retained : Bytes
  guard : InboundGuard
deriving DecidableEq

inductive InboundFailure where
  | mapped (rejected : Rejected)
  | silent (terminal : InboundTerminal)
deriving DecidableEq

def mappedRefusal (terminal : InboundTerminal) (budget : RequestBudget) (wire : Option Rejected) :
    Option Rejected :=
  match terminal with
  | .routeBodyLimit | .transferBytes | .transferIdle | .transferTotal | .sourceFailure => wire
  | .bodyIdle => budget.bodyIdle.map .bodyTimeout
  | .requestTotal => budget.total.map .requestTimeout
  | .shutdownDeadline | .forcedCancellation | .disconnect | .responseHead => none

def InboundFailure.ofTerminal (terminal : InboundTerminal) (budget : RequestBudget)
    (wire : Option Rejected) : InboundFailure :=
  match mappedRefusal terminal budget wire with
  | some rejected => .mapped rejected
  | none => .silent terminal

namespace InboundRead

def fold (frame : WireRead) (read : InboundRead) (carried : InboundReady) (now : ℕ) :
    (InboundReady × Option Rejected) × InboundRead :=
  match frame with
  | .end_ => ((carried.withResponseHead, none), read)
  | .failed error => ((carried.withSourceFailure, some (.bodyUnreadable error)), read)
  | .trailers => ((carried, none), read)
  | .data data =>
    match read.budget.admitFrame data.length with
    | (.error rejected, budget) =>
      ((carried.withRouteBodyLimit, some rejected), { read with budget := budget })
    | (.ok _, budget) =>
      ((carried, none), ⟨budget, read.retained ++ data, read.guard.frameDelivered data.length now⟩)

def advance (read : InboundRead) (turn : ReaderTurn) :
    (InboundReady × Option Rejected) × InboundRead :=
  let (carried, guard) := read.guard.observed turn.shared turn.observed
  let read := { read with guard := guard }
  match turn.wire with
  | none => ((carried, none), read)
  | some frame => fold frame read carried turn.delivered

def selected (read : InboundRead) (turn : ReaderTurn) : Option InboundTerminal :=
  (read.advance turn).1.1.firstReady

end InboundRead

inductive Reader where
  | reading (read : InboundRead)
  | returned (answer : Except InboundFailure Bytes)
deriving DecidableEq

namespace Reader

def settle (operation : OperationEnvelope) (read : InboundRead) (turn : ReaderTurn) : Reader :=
  let ((ready, wire), read) := read.advance turn
  match ready.firstReady with
  | none => .reading read
  | some .responseHead => .returned (.ok read.retained)
  | some ended =>
    .returned (.error (if turn.cellFree then
      .ofTerminal ended operation.budgets.request wire else .silent ended))

def retainWithinBudget (operation : OperationEnvelope) (limit now : ℕ) : Reader :=
  .reading ⟨⟨limit, 0⟩, [], operation.inbound now⟩

end Reader

end Camber.Inbound
