import Camber.Lib.Transition
import Camber.Multipart.Parser

/-! An access handle and a driver meet in a slot that holds at most one command. -/

namespace Camber.Multipart
open Str

inductive CommandKind where
  | nextField
  | nextChunk
  | discard
deriving DecidableEq

inductive SessionReply where
  | field (metadata : FieldMetadata)
  | chunk (bytes : Bytes)
  | fieldEnd
  | end_
  | failed (error : RuntimeError)
deriving DecidableEq

def SessionReply.isFailed : SessionReply → Bool
  | .failed _ => true
  | _ => false

inductive SlotPhase where
  | idle
  | issued (kind : CommandKind)
  | accepted
  | published (reply : SessionReply)
  | lost
deriving DecidableEq

inductive Acceptance where
  | accepted (kind : CommandKind)
  | pending
  | closed

def sessionClosed : String := "multipart session is closed"

def closed : RuntimeError := malformed sessionClosed

structure SlotInner where
  admitting : Bool
  attached : Bool
  terminated : Bool
  abandoned : Bool
  phase : SlotPhase

namespace SlotInner

def new : SlotInner := ⟨true, true, false, false, .idle⟩

def isOpen (inner : SlotInner) : Bool := inner.admitting && inner.attached && !inner.abandoned

def tryAccept (inner : SlotInner) : Acceptance × SlotInner :=
  match inner.phase, inner.isOpen with
  | .issued kind, true => (.accepted kind, { inner with phase := .accepted })
  | .lost, _ => (.closed, inner)
  | _, false => (.closed, inner)
  | _, true => (.pending, inner)

def publish (inner : SlotInner) (reply : SessionReply) : Bool × SlotInner :=
  match inner.phase with
  | .accepted => (true, { inner with phase := .published reply })
  | _ => (false, inner)

def acknowledged (inner : SlotInner) : Option Bool :=
  match inner.phase, inner.isOpen with
  | .idle, _ => some true
  | .issued _, _ => some true
  | .lost, _ => some false
  | _, false => some false
  | _, true => none

def takePublished (inner : SlotInner) : Option SessionReply × SlotInner :=
  match inner.phase with
  | .published reply => (some reply, { inner with phase := .idle })
  | _ => (none, inner)

def acknowledge (inner : SlotInner) : Except RuntimeError (Option SessionReply) × SlotInner :=
  let (published, inner) := inner.takePublished
  match published, inner.isOpen, inner.phase, inner.terminated with
  | some reply, true, _, _ => (.ok (some reply), inner)
  | _, false, _, _ => (.error closed, inner)
  | none, true, .lost, _ => (.error closed, inner)
  | none, true, _, true => (.error closed, inner)
  | none, true, _, false => (.ok none, inner)

def issue (inner : SlotInner) (kind : CommandKind) : Except RuntimeError SlotInner :=
  if inner.isOpen && !inner.terminated && inner.phase == .idle then
    .ok { inner with phase := .issued kind }
  else .error closed

def abandon (inner : SlotInner) : SlotInner := { inner with abandoned := true }

def revoke (inner : SlotInner) : SlotInner := { inner with admitting := false }

def detach (inner : SlotInner) : SlotInner := { inner with attached := false }

def terminate (inner : SlotInner) : SlotInner := { inner with terminated := true }

/-- The drop of an armed `OperationGuard`: a command the driver did not take is retracted, any other
one poisons the session. -/
def dropGuard (inner : SlotInner) (terminalBeforeAcceptance : Bool) : SlotInner :=
  match inner.phase, terminalBeforeAcceptance with
  | .issued _, false => { inner with phase := .idle }
  | .idle, false => { inner with phase := .idle }
  | _, _ => { inner with phase := .lost, abandoned := true }

end SlotInner

inductive BodyEnd where
  | complete
  | unreadable (diagnostic : String)
  | overLimit (limit : ℕ)
  | ended (error : RuntimeError)

inductive MultipartTerminal where
  | clean
  | parserFailure (error : RuntimeError)
  | abandoned
  | ended (error : RuntimeError)

/-- What `MultipartFailure::split` and `restate` make of an error together. -/
def restate : RuntimeError → RuntimeError
  | .requestBodyLimit diagnostic => .requestBodyLimit diagnostic
  | .requestBodyUnreadable diagnostic => .requestBodyUnreadable diagnostic
  | .multipart diagnostic => .multipart diagnostic
  | other => .multipart other.display

structure Fault where
  error : RuntimeError
  recorded : Option MultipartTerminal

def Fault.reply (fault : Fault) : SessionReply := .failed (restate fault.error)

def Fault.terminal (fault : Fault) : MultipartTerminal :=
  fault.recorded.getD (.parserFailure (restate fault.error))

def BodyEnd.fault : BodyEnd → Option Fault
  | .complete => none
  | .unreadable diagnostic =>
    some ⟨.requestBodyUnreadable ("request body read failed: " ++ diagnostic), none⟩
  | .overLimit limit =>
    some ⟨.requestBodyLimit ("request body exceeds the admitted maximum of " ++ toString limit ++
      " bytes"), none⟩
  | .ended error => some ⟨error, some (.ended error)⟩

structure SessionBody where
  parser : IncrementalParser
  source : Bytes
  frames : List Bytes
  ending : BodyEnd

namespace SessionBody

def new (boundary : Text) (limits : MultipartLimits) (frames : List Bytes) (ending : BodyEnd) :
    SessionBody :=
  ⟨.new boundary limits, [], frames, ending⟩

/-- The loop of `next_event`. -/
def nextEventFrom (ending : BodyEnd) (p : IncrementalParser) (source : Bytes)
    (frames : List Bytes) : Except Fault (ParserEvent × SessionBody) :=
  match p.advance source with
  | .error e => .error ⟨e, none⟩
  | .ok (some event, p, source) => .ok (event, ⟨p, source, frames, ending⟩)
  | .ok (none, p, source) =>
    match frames with
    | frame :: frames => nextEventFrom ending p frame frames
    | [] =>
      match ending.fault with
      | some fault => .error fault
      | none =>
        match p.finish with
        | .error e => .error ⟨e, none⟩
        | .ok (event, p) => .ok (event, ⟨p, source, [], ending⟩)

def pumped (body : SessionBody) : Except Fault (ParserEvent × SessionBody) :=
  match nextEventFrom body.ending body.parser body.source body.frames with
  | .error fault => .error fault
  | .ok (event, body) =>
    .ok (event, { body with parser := body.parser.releaseDelivered event.reservation })

end SessionBody

def replyFor : CommandKind → ParserEvent → Option SessionReply
  | _, .end_ => some .end_
  | .nextField, .field metadata => some (.field metadata)
  | .nextChunk, .chunk chunk => some (.chunk chunk)
  | .nextChunk, .fieldEnd => some .fieldEnd
  | .discard, .fieldEnd => some .fieldEnd
  | .nextField, .chunk _ => none
  | .nextField, .fieldEnd => none
  | .nextChunk, .field _ => none
  | .discard, .field _ => none
  | .discard, .chunk _ => none

/-- Where `run` of the driver stands. -/
inductive DriverPoint where
  | accepting
  | servicing (kind : CommandKind)
  | publishing (reply : SessionReply)
  | awaiting (failed : Bool)
  | abandoning (acknowledged : Bool)
  | settling
  | settled (terminal : MultipartTerminal)

def DriverPoint.next (acknowledged : Bool) : DriverPoint :=
  if acknowledged then .accepting else .settling

/-- The operation the application has in flight. -/
inductive Caller where
  | free
  | waiting (kind : CommandKind)
  | failing (kind : CommandKind)
  /-- A `discard` ended without draining: its field is still to be dropped. -/
  | leaving
deriving DecidableEq

structure SlotSession where
  slot : SlotInner
  point : DriverPoint
  body : SessionBody
  terminal : Option MultipartTerminal
  stream : Bool
  field : Option Bool
  caller : Caller
  accepted : Bool
  acknowledged : List (CommandKind × SessionReply)

namespace SlotSession

def new (body : SessionBody) : SlotSession where
  slot := .new
  point := .accepting
  body := body
  terminal := none
  stream := true
  field := none
  caller := .free
  accepted := false
  acknowledged := []

inductive Action where
  | issue (kind : CommandKind)
  | takeReply
  | dropOperation
  | dropField
  | dropStream
  | accept
  | seeRevoked
  /-- One turn of `pump`. -/
  | pump
  | publish
  | awaitAcknowledgment
  | abandon
  | terminate
  | revoke
deriving DecidableEq

def mayIssue (s : SlotSession) : CommandKind → Bool
  | .nextField => s.stream && s.field == none
  | .nextChunk => s.field == some false
  | .discard => s.field == some false

def issue (s : SlotSession) (kind : CommandKind) : SlotSession :=
  if s.caller = .free ∧ s.mayIssue kind = true then
    match s.slot.issue kind with
    | .ok slot => { s with slot, caller := .waiting kind }
    | .error _ => { s with caller := .failing kind }
  else s

def received (s : SlotSession) : CommandKind → SessionReply → SlotSession
  | .nextField, .field _ => { s with caller := .free, field := some false }
  | .nextField, _ => { s with caller := .free }
  | .nextChunk, .fieldEnd => { s with caller := .free, field := some true }
  | .nextChunk, _ => { s with caller := .free }
  | .discard, .fieldEnd => { s with caller := .free, field := none }
  | .discard, _ => { s with caller := .leaving }

def takeReply (s : SlotSession) : SlotSession :=
  match s.caller with
  | .waiting kind =>
    match s.slot.acknowledge with
    | (.ok (some reply), slot) =>
      ({ s with
        slot
        accepted := false
        acknowledged := s.acknowledged ++ [(kind, reply)] } : SlotSession).received kind reply
    | (.ok none, slot) => { s with slot }
    | (.error _, slot) => { s with slot, caller := .failing kind }
  | _ => s

def dropOperation (s : SlotSession) : SlotSession :=
  match s.caller with
  | .waiting kind | .failing kind =>
    { s with
      slot := s.slot.dropGuard (kind == .discard)
      accepted := false
      caller := if kind = .discard then .leaving else .free }
  | _ => s

def dropField (s : SlotSession) : SlotSession :=
  match s.caller, s.field with
  | .free, some complete | .leaving, some complete =>
    { s with
      field := none
      caller := .free
      slot := if complete then s.slot else s.slot.abandon }
  | _, _ => s

def dropStream (s : SlotSession) : SlotSession :=
  if s.caller = .free ∧ s.field = none then { s with stream := false, slot := s.slot.detach }
  else s

def accept (s : SlotSession) : SlotSession :=
  match s.point with
  | .accepting =>
    match s.slot.tryAccept with
    | (.accepted kind, slot) => { s with slot, accepted := true, point := .servicing kind }
    | (.pending, slot) => { s with slot }
    | (.closed, slot) => { s with slot, point := .settling }
  | _ => s

def seeRevoked (s : SlotSession) : SlotSession :=
  match s.point with
  | .servicing _ => if s.slot.admitting then s else { s with point := .settling }
  | _ => s

def pump (s : SlotSession) : SlotSession :=
  match s.point with
  | .servicing kind =>
    match s.body.pumped with
    | .error fault =>
      { s with
        terminal := some (s.terminal.getD fault.terminal)
        point := .publishing fault.reply }
    | .ok (event, body) =>
      match replyFor kind event with
      | some reply =>
        { s with
          body
          terminal := if reply = .end_ then some (s.terminal.getD .clean) else s.terminal
          point := .publishing reply }
      | none => { s with body }
  | _ => s

def publish (s : SlotSession) : SlotSession :=
  match s.point with
  | .publishing reply =>
    match s.slot.publish reply with
    | (true, slot) => { s with slot, point := .awaiting reply.isFailed }
    | (false, slot) =>
      { s with slot, point := if reply.isFailed then .abandoning false else .settling }
  | _ => s

def awaitAcknowledgment (s : SlotSession) : SlotSession :=
  match s.point with
  | .awaiting failed =>
    match s.slot.acknowledged with
    | some settled => { s with point := if failed then .abandoning settled else .next settled }
    | none => s
  | _ => s

def abandon (s : SlotSession) : SlotSession :=
  match s.point with
  | .abandoning settled => { s with slot := s.slot.abandon, point := .next settled }
  | _ => s

def terminate (s : SlotSession) : SlotSession :=
  match s.point with
  | .settling =>
    { s with slot := s.slot.terminate, point := .settled (s.terminal.getD .abandoned) }
  | _ => s

def revoke (s : SlotSession) : SlotSession := { s with slot := s.slot.revoke }

def act : Action → SlotSession → SlotSession
  | .issue kind, s => s.issue kind
  | .takeReply, s => s.takeReply
  | .dropOperation, s => s.dropOperation
  | .dropField, s => s.dropField
  | .dropStream, s => s.dropStream
  | .accept, s => s.accept
  | .seeRevoked, s => s.seeRevoked
  | .pump, s => s.pump
  | .publish, s => s.publish
  | .awaitAcknowledgment, s => s.awaitAcknowledgment
  | .abandon, s => s.abandon
  | .terminate, s => s.terminate
  | .revoke, s => s.revoke

end SlotSession

def SessionReply.reading : SessionReply → Bool
  | .field _ => true
  | .chunk _ => true
  | _ => false

/-- The replies of a consumer that asks for the next field outside a field and for the next chunk
inside one, over the first `n` events of the body. -/
def uninterrupted : ℕ → Bool → SessionBody → List SessionReply
  | 0, _, _ => []
  | n + 1, reading, body =>
    match body.pumped with
    | .error fault => [fault.reply]
    | .ok (event, body) =>
      match replyFor (if reading then .nextChunk else .nextField) event with
      | some reply => reply :: uninterrupted n reply.reading body
      | none => uninterrupted n reading body

/-- `Skips taken read`: the replies taken are those read in order, except that each `discard` took
one reply, the end of its field or a failure, for it and the chunks of the field before it. -/
inductive Skips : List (CommandKind × SessionReply) → List SessionReply → Prop
  | nil : Skips [] []
  | next {taken : List (CommandKind × SessionReply)} {read : List SessionReply}
      {kind : CommandKind} {reply : SessionReply} (h : Skips taken read)
      (hkind : kind ≠ .discard) : Skips (taken ++ [(kind, reply)]) (read ++ [reply])
  | discard {taken : List (CommandKind × SessionReply)} {read : List SessionReply}
      {reply : SessionReply} (h : Skips taken read) (skipped : List Bytes)
      (hends : reply = .fieldEnd ∨ ∃ error, reply = .failed error) :
      Skips (taken ++ [(.discard, reply)]) (read ++ skipped.map .chunk ++ [reply])

end Camber.Multipart
