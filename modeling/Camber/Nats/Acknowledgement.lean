import Camber.Integration.Cleanup
import Camber.Lib.Text
import Camber.Lib.Transition

/-! Every acknowledged publish registers under a fresh token before it is submitted, and names the
token in its private reply subject. -/

namespace Camber.Nats

open Str Integration Transition

def failure (operation : IntegrationOperation) (failure : IntegrationFailure)
    (retryability : Retryability) : IntegrationError :=
  .new .nats operation failure retryability

def tokensExhausted : IntegrationError := failure .publish .limitExceeded .never

def noStreamReached : IntegrationError := failure .publish .unavailable .safe

def acknowledgementInconclusive : IntegrationError :=
  failure .publish .outcomeUnknown .outcomeUnknown

inductive ErrorCode where
  | streamMessageExceedsMaximum
  | streamHeaderExceedsMaximum
  | streamNotMatch
  | other (code : ℕ)

structure JetStreamError where
  code : ℕ
  errorCode : ErrorCode

def forbidden : ℕ := 403

def acknowledgementRefused (error : JetStreamError) : IntegrationError :=
  let kind : IntegrationFailure :=
    match error.errorCode with
    | .streamMessageExceedsMaximum | .streamHeaderExceedsMaximum => .limitExceeded
    | .streamNotMatch => .rejected
    | .other _ => if error.code = forbidden then .permissionDenied else .rejected
  failure .publish kind .never

inductive PublishErrorKind where
  | maxPayloadExceeded
  | invalidSubject
  | send

def publishRefused : PublishErrorKind → IntegrationError
  | .maxPayloadExceeded => failure .publish .limitExceeded .never
  | .invalidSubject => failure .publish .rejected .never
  | .send => failure .publish .unavailable .safe

def connectionReplaced (operation : IntegrationOperation) : IntegrationError :=
  failure operation .outcomeUnknown .outcomeUnknown

def deadlinePassed (operation : IntegrationOperation) (submitted : Bool) : IntegrationError :=
  failure operation .timeout (if submitted then .outcomeUnknown else .safe)

structure Message where
  subject : Text
  status : Option ℕ
  payload : Bytes
deriving DecidableEq

structure PublishAck where
  stream : Text
  sequence : ℕ

inductive Response where
  | ok (receipt : PublishAck)
  | err (error : JetStreamError)

def statusOk : ℕ := 200

def statusNoResponders : ℕ := 503

def maxAckBytes : ℕ := 4096

structure Settings where
  inbox : Text
  stream : Text
  decode : Bytes → Option Response

section

variable (settings : Settings)

def decoded (payload : Bytes) : Except IntegrationError Unit :=
  if maxAckBytes < payload.length then .error acknowledgementInconclusive
  else
    match settings.decode payload with
    | some (.ok receipt) =>
      if receipt.stream = settings.stream ∧ 0 < receipt.sequence then .ok ()
      else .error acknowledgementInconclusive
    | some (.err error) => .error (acknowledgementRefused error)
    | none => .error acknowledgementInconclusive

def acknowledgement (reply : Message) : Except IntegrationError Unit :=
  match reply.status with
  | none => decoded settings reply.payload
  | some status =>
    if status = statusOk then decoded settings reply.payload
    else if status = statusNoResponders then .error noStreamReached
    else .error acknowledgementInconclusive

def tokenOf (subject : Text) : Option ℕ :=
  (subject.dropPrefix? settings.inbox).bind fun rest =>
    (stripPrefixChar '.' rest).bind fun token =>
      if !token.isEmpty && token.all Decimal.isDigit then Decimal.parseU64 token else none

end

/-- The tokens one connection issues, in order. -/
structure ReplyTokens where
  next : ℕ

def ReplyTokens.issue (tokens : ReplyTokens) : Option (ℕ × ReplyTokens) :=
  if tokens.next + 1 < 2 ^ 64 then some (tokens.next, ⟨tokens.next + 1⟩) else none

structure Pending where
  tokens : ReplyTokens
  waiting : List (ℕ × ℕ)
  ended : Bool

namespace Pending

def remove (pending : Pending) (token : ℕ) : Pending :=
  { pending with waiting := pending.waiting.filter fun entry => entry.1 ≠ token }

def insert (pending : Pending) (token sender : ℕ) : Pending :=
  { pending with waiting := (token, sender) :: (pending.remove token).waiting }

def register (pending : Pending) (sender : ℕ) : Except IntegrationError (ℕ × Pending) :=
  if pending.ended then .error noStreamReached
  else
    match pending.tokens.issue with
    | none => .error tokensExhausted
    | some (token, tokens) => .ok (token, { pending with tokens := tokens }.insert token sender)

def end_ (pending : Pending) : Pending := { pending with ended := true, waiting := [] }

end Pending

abbrev Outcome := Option (Except IntegrationError Unit)

/-- Where an acknowledged publish stands. -/
inductive Stage where
  | admitted
  | registered
  | submitted
  | received (reply : Message)
  | checked (reply : Message)
  | leaving (outcome : Outcome)
  | closed (outcome : Outcome)
deriving DecidableEq

def Stage.live : Stage → Bool
  | registered | submitted | received _ | checked _ | leaving _ => true
  | admitted | closed _ => false

structure Publish where
  transport : ℕ
  token : Option ℕ
  stage : Stage
  reply : Option Message
deriving DecidableEq

/-- One call of `route`: the reply, the SDK's connection at that time, the publish whose sender the
call took, and whether it has handed the reply over. -/
structure Route where
  reply : Message
  transport : ℕ
  target : Option ℕ
  sent : Bool

structure State where
  pending : Pending
  transport : ℕ
  publishes : List Publish
  routes : List Route

inductive Action where
  | admits
  | register (p : ℕ)
  | submit (p : ℕ)
  | refuse (p : ℕ) (kind : Option PublishErrorKind)
  | receive (p : ℕ)
  | lose (p : ℕ)
  | disconnected (p : ℕ)
  | deadline (p : ℕ)
  | check (p : ℕ)
  | accept (p : ℕ)
  | cancel (p : ℕ)
  | retire (p : ℕ)
  /-- `route` takes the sender its reply names. -/
  | route (reply : Message)
  /-- `route` sends. -/
  | send (k : ℕ)
  | end_
  | reconnect

namespace State

def start (transport : ℕ) : State := ⟨⟨⟨0⟩, [], false⟩, transport, [], []⟩

def senderGone (s : State) (p : ℕ) : Bool :=
  s.pending.waiting.all (fun entry => entry.2 ≠ p) &&
    s.routes.all fun route => route.sent || route.target ≠ some p

def move (s : State) (p : ℕ) (stage : Stage) : State :=
  { s with publishes := s.publishes.modify p fun publish => { publish with stage := stage } }

def registering (s : State) (p : ℕ) : State :=
  match s.pending.register p with
  | .error error => s.move p (.closed (some (.error error)))
  | .ok (token, pending) =>
    { s with
      pending := pending
      publishes := s.publishes.modify p fun publish =>
        { publish with token := some token, stage := .registered } }

def routing (settings : Settings) (s : State) (reply : Message) : State :=
  match tokenOf settings reply.subject with
  | none => { s with routes := s.routes ++ [⟨reply, s.transport, none, true⟩] }
  | some token =>
    { s with
      pending := s.pending.remove token
      routes := s.routes ++
        [⟨reply, s.transport, s.pending.waiting.lookup token,
          (s.pending.waiting.lookup token).isNone⟩] }

def sending (s : State) (k : ℕ) (route : Route) (p : ℕ) : State :=
  { s with
    routes := s.routes.modify k fun route => { route with sent := true }
    publishes := s.publishes.modify p fun publish =>
      if publish.stage.live then { publish with reply := some route.reply } else publish }

def publishing (settings : Settings) (s : State) (p : ℕ) (publish : Publish) :
    Action → Option State
  | .register _ => if publish.stage = .admitted then some (s.registering p) else none
  | .submit _ => if publish.stage = .registered then some (s.move p .submitted) else none
  | .refuse _ kind =>
    if publish.stage = .registered then
      some (s.move p (.leaving (some (.error
        (match kind with
        | some kind => publishRefused kind
        | none => deadlinePassed .publish false)))))
    else none
  | .receive _ =>
    match publish.stage, publish.reply with
    | .submitted, some reply => some (s.move p (.received reply))
    | _, _ => none
  | .lose _ =>
    if publish.stage = .submitted ∧ publish.reply = none ∧ s.senderGone p then
      some (s.move p (.leaving (some (.error acknowledgementInconclusive))))
    else none
  | .disconnected _ =>
    if publish.stage = .submitted then
      some (s.move p (.leaving (some (.error (connectionReplaced .publish)))))
    else none
  | .deadline _ =>
    if publish.stage = .submitted then
      some (s.move p (.leaving (some (.error (deadlinePassed .publish true)))))
    else none
  | .check _ =>
    match publish.stage with
    | .received reply =>
      if s.transport = publish.transport then some (s.move p (.checked reply))
      else some (s.move p (.leaving (some (.error (connectionReplaced .publish)))))
    | _ => none
  | .accept _ =>
    match publish.stage with
    | .checked reply => some (s.move p (.leaving (some (acknowledgement settings reply))))
    | _ => none
  | .cancel _ =>
    match publish.stage with
    | .admitted => some (s.move p (.closed none))
    | .registered | .submitted => some (s.move p (.leaving none))
    | _ => none
  | .retire _ =>
    match publish.stage, publish.token with
    | .leaving outcome, some token =>
      some { s.move p (.closed outcome) with pending := s.pending.remove token }
    | _, _ => none
  | _ => none

end State

def Action.publish? : Action → Option ℕ
  | .register p | .submit p | .refuse p _ | .receive p | .lose p | .disconnected p | .deadline p
  | .check p | .accept p | .cancel p | .retire p => some p
  | .admits | .route _ | .send _ | .end_ | .reconnect => none

def next (settings : Settings) (s : State) (action : Action) : Option State :=
  match action with
  | .admits => some { s with publishes := s.publishes ++ [⟨s.transport, none, .admitted, none⟩] }
  | .route reply => some (s.routing settings reply)
  | .send k =>
    match s.routes[k]? with
    | some route =>
      match route.sent, route.target with
      | false, some p => some (s.sending k route p)
      | _, _ => none
    | none => none
  | .end_ => some { s with pending := s.pending.end_ }
  | .reconnect => some { s with transport := s.transport + 1 }
  | action =>
    action.publish?.bind fun p =>
      s.publishes[p]?.bind fun publish => s.publishing settings p publish action

def Ready (settings : Settings) (s : State) (action : Action) : Prop :=
  (next settings s action).isSome = true

instance (settings : Settings) (s : State) (action : Action) : Decidable (Ready settings s action) :=
  inferInstanceAs (Decidable (_ = true))

def act (settings : Settings) (action : Action) (s : State) : State :=
  (next settings s action).getD s

abbrev Steps (settings : Settings) := Acts (Ready settings) (act settings)

theorem next_of_steps {settings : Settings} {s s' : State} {action : Action}
    (h : Steps settings s action s') : next settings s action = some s' := by
  obtain ⟨hready, rfl⟩ := h
  obtain ⟨s', hs'⟩ := Option.isSome_iff_exists.mp hready
  rw [act, hs', Option.getD_some]

end Camber.Nats
