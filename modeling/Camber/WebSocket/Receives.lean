import Camber.WebSocket.Ending

/-! The peer's messages pass the inbound pump and the receive queue one after the other, so the
receiver sees them in order until the connection is over. -/

namespace Camber.WebSocket

open Transition
open Server (StopPhase)

def WsReceive.payload : WsReceive → Option WsMessage
  | .message sent => some sent
  | .closed _ => none

/-- The message the inbound pump has read and not queued yet. -/
def InboundPoint.held : InboundPoint → List WsMessage
  | .reading => []
  | .admitting message => [message]

namespace Bridge

/-- The messages the receiver returned, in order. -/
def received (bridge : Bridge) : List WsMessage := bridge.answers.filterMap WsReceive.payload

def queued (bridge : Bridge) : List WsMessage := bridge.received ++ bridge.inbox

def ReportedClosed (bridge : Bridge) : Prop := ∃ cause, WsReceive.closed cause ∈ bridge.answers

end Bridge

structure SameReceives (bridge next : Bridge) : Prop where
  answers : next.answers = bridge.answers
  inbox : next.inbox = bridge.inbox
  peer : next.peer = bridge.peer
  inbound : next.inbound = bridge.inbound
  receiver : next.receiver = bridge.receiver
  inboxClosed : next.inboxClosed = bridge.inboxClosed
  refusals : next.refusals = bridge.refusals
  receiving : next.receiving = true → bridge.receiving = true ∨ bridge.receiver = true

inductive Moves (bridge : Bridge) : Bridge → Prop
  | quiet {next : Bridge} (same : SameReceives bridge next) : Moves bridge next
  | refuse (ended : bridge.Over) :
      Moves bridge { bridge with refusals := bridge.refusals ++ [bridge.committed] }
  | read {message : WsMessage} (idle : bridge.inbound = .reading) :
      Moves bridge
        { bridge with inbound := .admitting message, peer := bridge.peer ++ [message] }
  | queue {message : WsMessage} (live : bridge.Live) (held : bridge.inbound = .admitting message)
      (present : bridge.receiver = true) :
      Moves bridge
        { bridge with inbound := .reading, inbox := bridge.inbox ++ [message] }
  | turnAway (absent : bridge.receiver = false) :
      Moves bridge (Bridge.offer .receiverDropped { bridge with inbound := .reading })
  | answer {message : WsMessage} {rest : List WsMessage} (head : bridge.inbox = message :: rest) :
      Moves bridge
        { bridge with
          inbox := rest
          receiving := false
          answers := bridge.answers ++ [.message message] }
  | close (ended : bridge.Over) (empty : bridge.inbox = []) (present : bridge.receiver = true) :
      Moves bridge
        { bridge with
          receiving := false
          answers := bridge.answers ++ [.closed bridge.committed] }
  | discard (ended : bridge.Over) (discards : bridge.committed.discardsQueuedMessages = true) :
      Moves bridge
        { bridge with
          inboxClosed := true
          inbox := []
          answers := bridge.answers ++ [.closed bridge.committed] }
  | depart : Moves bridge bridge.dropReceiver

structure Told (bridge : Bridge) : Prop where
  era : bridge.Live ∨ bridge.Over
  live : bridge.Live → bridge.producers = true ∧ bridge.inboxClosed = false ∧
    bridge.sendClosed = false ∧ bridge.refusals = [] ∧ ¬ bridge.ReportedClosed
  answers : ∃ closures, bridge.answers =
    bridge.received.map .message ++ List.replicate closures (.closed bridge.committed)
  refusals : ∀ cause ∈ bridge.refusals, cause = bridge.committed
  reported : bridge.ReportedClosed → bridge.inbox = []
  discarded : bridge.inboxClosed = true →
    bridge.inbox = [] ∧ bridge.committed.discardsQueuedMessages = true
  heard : bridge.inboxClosed = true → bridge.ReportedClosed
  gone : bridge.receiver = false → bridge.inbox = []
  waiting : bridge.receiving = true → bridge.receiver = true
  kept : bridge.receiver = true → bridge.inboxClosed = false →
    bridge.peer = bridge.queued ++ bridge.inbound.held
  ordered : bridge.received <+: bridge.peer

namespace Told

variable {bridge next : Bridge}

theorem new (bufferSize : ℕ) : Told (Bridge.new bufferSize) where
  era := .inl ⟨rfl, .inl rfl⟩
  live _ := ⟨rfl, rfl, rfl, rfl, by simp [Bridge.ReportedClosed, Bridge.new]⟩
  answers := ⟨0, rfl⟩
  refusals := by simp [Bridge.new]
  reported _ := rfl
  discarded := by simp [Bridge.new]
  heard := by simp [Bridge.new]
  gone _ := rfl
  waiting := by simp [Bridge.new]
  kept _ _ := rfl
  ordered := List.prefix_refl []

theorem answers_eq (h : Told bridge) (hopen : ¬ bridge.ReportedClosed) :
    bridge.answers = bridge.received.map .message := by
  obtain ⟨closures, hanswers⟩ := h.answers
  cases closures with
  | zero => simpa using hanswers
  | succ closures =>
    refine absurd ⟨bridge.committed, ?_⟩ hopen
    rw [hanswers]
    simp

theorem over_of_closed (h : Told bridge) (hclosed : bridge.producers = false ∨
    bridge.inboxClosed = true ∨ bridge.sendClosed = true ∨ bridge.terminal ≠ none) :
    bridge.Over := by
  refine h.era.resolve_left fun hlive => ?_
  obtain ⟨hproducers, hinbox, hsend, -⟩ := h.live hlive
  rcases hclosed with hclosed | hclosed | hclosed | hclosed
  · simp [hproducers] at hclosed
  · simp [hinbox] at hclosed
  · simp [hsend] at hclosed
  · exact hclosed hlive.1

end Told

variable {bridge : Bridge}

theorem Bridge.settledCause_eq {cause : WsCloseCause} (hsettled : bridge.settledCause = some cause) :
    cause = bridge.committed ∧
      (bridge.terminal ≠ none ∨ bridge.producers = false ∨ bridge.inboxClosed = true) := by
  unfold Bridge.settledCause at hsettled
  split at hsettled
  next hterminal =>
    cases hsettled
    simp [Bridge.committed, hterminal]
  next hclosed =>
    cases hsettled
    refine ⟨rfl, .inr ?_⟩
    simpa using hclosed
  next => cases hsettled

namespace Told

variable {bridge : Bridge}

theorem moves_beginReceive (h : Told bridge) (hpresent : bridge.receiver = true) :
    Moves bridge bridge.beginReceive := by
  have hwait : SameReceives bridge { bridge with receiving := true } :=
    ⟨rfl, rfl, rfl, rfl, rfl, rfl, rfl, fun _ => .inr hpresent⟩
  unfold Bridge.beginReceive
  split
  next cause hsettled =>
    obtain ⟨rfl, hends⟩ := Bridge.settledCause_eq hsettled
    split
    next hdiscards =>
      refine .discard (h.over_of_closed ?_) hdiscards
      tauto
    next => exact .quiet hwait
  next => exact .quiet hwait

theorem moves_answerReceive (h : Told bridge) (hreceiving : bridge.receiving = true)
    (hready : bridge.inbox ≠ [] ∨ bridge.producers = false ∨ bridge.inboxClosed = true) :
    Moves bridge bridge.answerReceive := by
  unfold Bridge.answerReceive
  split
  next message rest hinbox => exact .answer hinbox
  next hinbox =>
    refine .close (h.over_of_closed ?_) hinbox (h.waiting hreceiving)
    tauto

theorem moves_read (hidle : bridge.inbound = .reading) (item : Option WsFrameMessage) :
    Moves bridge (bridge.read item) := by
  unfold Bridge.read
  split
  · exact .quiet ⟨rfl, rfl, rfl, rfl, rfl, rfl, rfl, .inl⟩
  · exact .quiet ⟨rfl, rfl, rfl, rfl, rfl, rfl, rfl, .inl⟩
  · split
    · exact .quiet ⟨rfl, rfl, rfl, rfl, rfl, rfl, rfl, .inl⟩
    · exact .read hidle

theorem moves_admitFrame (h : Told bridge) (hracing : bridge.point = .racing) :
    Moves bridge bridge.admitFrame := by
  have hlive : bridge.Live := h.era.resolve_right fun hover => hover.2.1 hracing
  obtain ⟨hproducers, hinbox, -⟩ := h.live hlive
  unfold Bridge.admitFrame
  split
  next => exact .quiet ⟨rfl, rfl, rfl, rfl, rfl, rfl, rfl, .inl⟩
  next message hheld =>
    split
    next hrefused =>
      refine .turnAway ?_
      simpa [Bridge.receiveRefused, hproducers, hinbox] using hrefused
    next hrefused =>
      refine .queue hlive hheld ?_
      simpa [Bridge.receiveRefused, hproducers, hinbox] using hrefused

-- The coordinator and the outbound pump leave the receiving half alone.

theorem quiet_takeMessage : SameReceives bridge bridge.takeMessage := by
  unfold Bridge.takeMessage
  split
  · exact ⟨rfl, rfl, rfl, rfl, rfl, rfl, rfl, .inl⟩
  · split
    · exact ⟨rfl, rfl, rfl, rfl, rfl, rfl, rfl, .inl⟩
    · exact ⟨rfl, rfl, rfl, rfl, rfl, rfl, rfl, .inl⟩

theorem quiet_writeFailed : SameReceives bridge bridge.writeFailed := by
  unfold Bridge.writeFailed
  split
  · exact ⟨rfl, rfl, rfl, rfl, rfl, rfl, rfl, .inl⟩
  · exact ⟨rfl, rfl, rfl, rfl, rfl, rfl, rfl, .inl⟩

theorem quiet_commit (phase : Option StopPhase) : SameReceives bridge (bridge.commit phase) := by
  unfold Bridge.commit
  split
  · exact ⟨rfl, rfl, rfl, rfl, rfl, rfl, rfl, .inl⟩
  · exact ⟨rfl, rfl, rfl, rfl, rfl, rfl, rfl, .inl⟩

theorem quiet_closeSends : SameReceives bridge bridge.closeSends := by
  unfold Bridge.closeSends
  split
  · exact ⟨rfl, rfl, rfl, rfl, rfl, rfl, rfl, .inl⟩
  · exact ⟨rfl, rfl, rfl, rfl, rfl, rfl, rfl, .inl⟩

theorem quiet_closeReceives : SameReceives bridge bridge.closeReceives := by
  unfold Bridge.closeReceives
  split
  · exact ⟨rfl, rfl, rfl, rfl, rfl, rfl, rfl, .inl⟩
  · exact ⟨rfl, rfl, rfl, rfl, rfl, rfl, rfl, .inl⟩

theorem quiet_settle : SameReceives bridge bridge.settle := by
  unfold Bridge.settle
  split
  · split
    · exact ⟨rfl, rfl, rfl, rfl, rfl, rfl, rfl, .inl⟩
    · exact ⟨rfl, rfl, rfl, rfl, rfl, rfl, rfl, .inl⟩
  · exact ⟨rfl, rfl, rfl, rfl, rfl, rfl, rfl, .inl⟩

theorem quiet_oweClose : SameReceives bridge bridge.oweClose := by
  unfold Bridge.oweClose
  split
  · exact ⟨rfl, rfl, rfl, rfl, rfl, rfl, rfl, .inl⟩
  · exact ⟨rfl, rfl, rfl, rfl, rfl, rfl, rfl, .inl⟩

theorem moves (h : Told bridge) {action : Action} (hready : bridge.Ready action) :
    Moves bridge (bridge.act action) := by
  cases action with
  | abandonReceive =>
    exact .quiet ⟨rfl, rfl, rfl, rfl, rfl, rfl, rfl, fun hnext => by cases hnext⟩
  | cloneSender | dropSender | reserve | push | handOver | flushed
  | receiverLeft | control | abort | taken =>
    exact .quiet ⟨rfl, rfl, rfl, rfl, rfl, rfl, rfl, .inl⟩
  | refuseSend =>
    refine .refuse (h.over_of_closed ?_)
    obtain ⟨-, hclosed⟩ := hready
    tauto
  | beginReceive => exact h.moves_beginReceive hready.1
  | answerReceive => exact h.moves_answerReceive hready.1 hready.2
  | dropReceiver => exact .depart
  | read item => exact moves_read hready.2 item
  | admitFrame => exact h.moves_admitFrame hready.1
  | takeMessage => exact .quiet quiet_takeMessage
  | readyFailed | flushFailed => exact .quiet quiet_writeFailed
  | sendFailed =>
    have hsame : SameReceives { bridge with pending := none } _ := quiet_writeFailed
    exact .quiet ⟨hsame.answers, hsame.inbox, hsame.peer, hsame.inbound, hsame.receiver,
      hsame.inboxClosed, hsame.refusals, hsame.receiving⟩
  | commit phase => exact .quiet (quiet_commit phase)
  | closeSends => exact .quiet quiet_closeSends
  | closeReceives => exact .quiet quiet_closeReceives
  | settle => exact .quiet quiet_settle
  | oweClose => exact .quiet quiet_oweClose

end Told

namespace Bridge

variable {bridge next : Bridge}

theorem received_append_message {message : WsMessage}
    (h : next.answers = bridge.answers ++ [.message message]) :
    next.received = bridge.received ++ [message] := by
  rw [received, h, List.filterMap_append]
  rfl

theorem received_append_closed {cause : WsCloseCause}
    (h : next.answers = bridge.answers ++ [.closed cause]) : next.received = bridge.received := by
  rw [received, h, List.filterMap_append]
  exact List.append_nil _

end Bridge

namespace Told

variable {bridge next : Bridge}

variable (h : Told bridge)

include h

theorem answers_same (turns : Turns bridge next) (hanswers : next.answers = bridge.answers) :
    ∃ closures, next.answers =
      next.received.map .message ++ List.replicate closures (.closed next.committed) := by
  have hreceived : next.received = bridge.received := by rw [Bridge.received, hanswers]; rfl
  rw [hanswers, hreceived]
  rcases h.era with hlive | hover
  · refine ⟨0, ?_⟩
    simpa using h.answers_eq (h.live hlive).2.2.2.2
  · rw [turns.committed_eq hover]
    exact h.answers

theorem answers_closed (hcause : next.committed = bridge.committed)
    (hanswers : next.answers = bridge.answers ++ [.closed bridge.committed]) :
    ∃ closures, next.answers =
      next.received.map .message ++ List.replicate closures (.closed next.committed) := by
  obtain ⟨closures, hbefore⟩ := h.answers
  refine ⟨closures + 1, ?_⟩
  rw [Bridge.received_append_closed hanswers, hcause, hanswers, List.replicate_succ',
    ← List.append_assoc, ← hbefore]

theorem refusals_same (turns : Turns bridge next) (hrefusals : next.refusals = bridge.refusals) :
    ∀ cause ∈ next.refusals, cause = next.committed := by
  rw [hrefusals]
  rcases h.era with hlive | hover
  · rw [(h.live hlive).2.2.2.1]
    simp
  · rw [turns.committed_eq hover]
    exact h.refusals

theorem live_same (turns : Turns bridge next)
    (hanswers : next.ReportedClosed → bridge.ReportedClosed)
    (hclosed : next.inboxClosed = bridge.inboxClosed) (hrefusals : next.refusals = bridge.refusals)
    (hlive : next.Live) :
    next.producers = true ∧ next.inboxClosed = false ∧ next.sendClosed = false ∧
      next.refusals = [] ∧ ¬ next.ReportedClosed := by
  obtain ⟨hbefore, hproducers, hsends⟩ := turns.of_live hlive
  rw [hproducers, hsends, hclosed, hrefusals]
  obtain ⟨h₁, h₂, h₃, h₄, h₅⟩ := h.live hbefore
  exact ⟨h₁, h₂, h₃, h₄, fun hnext => h₅ (hanswers hnext)⟩

theorem discarded_same (turns : Turns bridge next) (hclosed : next.inboxClosed = bridge.inboxClosed)
    (hinbox : bridge.inbox = [] → next.inbox = []) (hnext : next.inboxClosed = true) :
    next.inbox = [] ∧ next.committed.discardsQueuedMessages = true := by
  rw [hclosed] at hnext
  have hover := h.over_of_closed (.inr (.inl hnext))
  obtain ⟨hempty, hdiscards⟩ := h.discarded hnext
  rw [turns.committed_eq hover]
  exact ⟨hinbox hempty, hdiscards⟩

theorem step_quiet (turns : Turns bridge next) (same : SameReceives bridge next) : Told next where
  era := turns.next_era
  live := h.live_same turns (by rw [Bridge.ReportedClosed, same.answers]; exact id)
    same.inboxClosed same.refusals
  answers := h.answers_same turns same.answers
  refusals := h.refusals_same turns same.refusals
  reported := by
    rw [Bridge.ReportedClosed, same.answers, same.inbox]
    exact h.reported
  discarded := h.discarded_same turns same.inboxClosed (by rw [same.inbox]; exact id)
  heard := by
    rw [same.inboxClosed, Bridge.ReportedClosed, same.answers]
    exact h.heard
  gone := by
    rw [same.receiver, same.inbox]
    exact h.gone
  waiting hnext := by
    rw [same.receiver]
    rcases same.receiving hnext with hbefore | hbefore
    · exact h.waiting hbefore
    · exact hbefore
  kept := by
    rw [same.receiver, same.inboxClosed, same.peer, same.inbound, Bridge.queued, Bridge.received,
      same.answers, same.inbox]
    exact h.kept
  ordered := by
    rw [same.peer, Bridge.received, same.answers]
    exact h.ordered

theorem step_refuse (ended : bridge.Over) :
    Told { bridge with refusals := bridge.refusals ++ [bridge.committed] } where
  era := h.era
  live hlive := absurd ended (show bridge.Live from hlive).not_over
  answers := h.answers
  refusals := by
    intro cause hmem
    rcases List.mem_append.mp hmem with hmem | hmem
    · exact h.refusals cause hmem
    · exact List.mem_singleton.mp hmem
  reported := h.reported
  discarded := h.discarded
  heard := h.heard
  gone := h.gone
  waiting := h.waiting
  kept := h.kept
  ordered := h.ordered

theorem step_read (idle : bridge.inbound = .reading) (message : WsMessage) :
    Told { bridge with inbound := .admitting message, peer := bridge.peer ++ [message] } where
  era := h.era
  live := h.live
  answers := h.answers
  refusals := h.refusals
  reported := h.reported
  discarded := h.discarded
  heard := h.heard
  gone := h.gone
  waiting := h.waiting
  kept hreceiver hclosed := by
    have hkept := h.kept hreceiver hclosed
    rw [idle, InboundPoint.held, List.append_nil] at hkept
    show bridge.peer ++ [message] = bridge.queued ++ [message]
    rw [hkept]
  ordered := h.ordered.trans (List.prefix_append _ _)

theorem step_queue {message : WsMessage} (live : bridge.Live)
    (held : bridge.inbound = .admitting message) (present : bridge.receiver = true) :
    Told { bridge with inbound := .reading, inbox := bridge.inbox ++ [message] } where
  era := h.era
  live := h.live
  answers := h.answers
  refusals := h.refusals
  reported hreported := absurd hreported (h.live live).2.2.2.2
  discarded hdiscarded := by
    have hopen : bridge.inboxClosed = false := (h.live live).2.1
    rw [show bridge.inboxClosed = true from hdiscarded] at hopen
    cases hopen
  heard := h.heard
  gone habsent := by
    rw [show bridge.receiver = false from habsent] at present
    cases present
  waiting := h.waiting
  kept _ _ := by
    have hkept := h.kept present (h.live live).2.1
    rw [held] at hkept
    show bridge.peer = (bridge.received ++ (bridge.inbox ++ [message])) ++ []
    rw [hkept, Bridge.queued, InboundPoint.held]
    simp
  ordered := h.ordered

theorem step_turnAway (absent : bridge.receiver = false)
    (turns : Turns bridge (Bridge.offer .receiverDropped { bridge with inbound := .reading })) :
    Told (Bridge.offer .receiverDropped { bridge with inbound := .reading }) where
  era := turns.next_era
  live := h.live_same turns id rfl rfl
  answers := h.answers
  refusals := h.refusals
  reported := h.reported
  discarded := h.discarded
  heard := h.heard
  gone := h.gone
  waiting := h.waiting
  kept hpresent := by
    rw [show bridge.receiver = true from hpresent] at absent
    cases absent
  ordered := h.ordered

theorem step_answer {message : WsMessage} {rest : List WsMessage}
    (head : bridge.inbox = message :: rest)
    (hanswers : next.answers = bridge.answers ++ [.message message])
    (hnext : next = { bridge with inbox := rest, receiving := false, answers := next.answers }) :
    Told next := by
  have hopen : ¬ bridge.ReportedClosed := fun hreported => by
    rw [h.reported hreported] at head
    cases head
  have hkeeps : bridge.inboxClosed = false := by
    rcases Bool.eq_false_or_eq_true bridge.inboxClosed with hclosed | hclosed
    · rw [(h.discarded hclosed).1] at head
      cases head
    · exact hclosed
  have hpresent : bridge.receiver = true := by
    rcases Bool.eq_false_or_eq_true bridge.receiver with hreceiver | hreceiver
    · exact hreceiver
    · rw [h.gone hreceiver] at head
      cases head
  have hreceived := Bridge.received_append_message hanswers
  have hreported : ¬ next.ReportedClosed := by
    rintro ⟨cause, hmem⟩
    rw [hanswers] at hmem
    rcases List.mem_append.mp hmem with hmem | hmem
    · exact hopen ⟨cause, hmem⟩
    · cases List.mem_singleton.mp hmem
  have hqueued : next.queued = bridge.queued := by
    rw [Bridge.queued, Bridge.queued, hreceived, head, hnext]
    simp
  have hpeer : next.peer = bridge.peer := by rw [hnext]
  have hkept : next.peer = next.queued ++ next.inbound.held := by
    rw [hqueued, hpeer, h.kept hpresent hkeeps, hnext]
  have hopen' : next.inboxClosed ≠ true := by
    rw [hnext]
    simp [hkeeps]
  refine ⟨?_, ?_, ⟨0, ?_⟩, ?_, fun hclosed => absurd hclosed hreported,
    fun hclosed => absurd hclosed hopen', fun hclosed => absurd hclosed hopen', ?_, ?_,
    fun _ _ => hkept, ?_⟩
  · rw [hnext]
    exact h.era
  · intro hlive
    rw [hnext] at hlive ⊢
    obtain ⟨h₁, h₂, h₃, h₄, -⟩ := h.live hlive
    exact ⟨h₁, h₂, h₃, h₄, hnext ▸ hreported⟩
  · rw [hreceived, hanswers, h.answers_eq hopen]
    simp
  · rw [hnext]
    exact h.refusals
  · intro habsent
    rw [hnext] at habsent
    rw [show bridge.receiver = false from habsent] at hpresent
    cases hpresent
  · rw [hnext]
    exact fun _ => hpresent
  · rw [hkept, Bridge.queued, List.append_assoc]
    exact List.prefix_append _ _

theorem step_close (ended : bridge.Over) (empty : bridge.inbox = []) :
    Told
      { bridge with
        receiving := false
        answers := bridge.answers ++ [.closed bridge.committed] } := by
  have hreceived : Bridge.received
      { bridge with
        receiving := false
        answers := bridge.answers ++ [.closed bridge.committed] } = bridge.received :=
    Bridge.received_append_closed rfl
  exact {
    era := h.era
    live := fun hlive => absurd ended (show bridge.Live from hlive).not_over
    answers := h.answers_closed rfl rfl
    refusals := h.refusals
    reported := fun _ => empty
    discarded := h.discarded
    heard := fun _ => ⟨bridge.committed, by simp⟩
    gone := h.gone
    waiting := fun hreceiving => by cases hreceiving
    kept := by
      rw [Bridge.queued, hreceived]
      exact h.kept
    ordered := by
      rw [hreceived]
      exact h.ordered }

theorem step_discard (ended : bridge.Over)
    (discards : bridge.committed.discardsQueuedMessages = true) :
    Told
      { bridge with
        inboxClosed := true
        inbox := []
        answers := bridge.answers ++ [.closed bridge.committed] } where
  era := h.era
  live hlive := absurd ended (show bridge.Live from hlive).not_over
  answers := h.answers_closed rfl rfl
  refusals := h.refusals
  reported _ := rfl
  discarded _ := ⟨rfl, discards⟩
  heard _ := ⟨bridge.committed, by simp⟩
  gone _ := rfl
  waiting := h.waiting
  kept _ hopen := by cases hopen
  ordered := by
    rw [@Bridge.received_append_closed bridge _ _ rfl]
    exact h.ordered

theorem step_depart : Told bridge.dropReceiver where
  era := h.era
  live := h.live
  answers := h.answers
  refusals := h.refusals
  reported _ := rfl
  discarded hclosed := ⟨rfl, (h.discarded hclosed).2⟩
  heard := h.heard
  gone _ := rfl
  waiting hreceiving := by cases hreceiving
  kept hpresent := by cases hpresent
  ordered := h.ordered

theorem step (turns : Turns bridge next) (moves : Moves bridge next) : Told next := by
  cases moves with
  | quiet same => exact h.step_quiet turns same
  | refuse ended => exact h.step_refuse ended
  | read idle => exact h.step_read idle _
  | queue live held present => exact h.step_queue live held present
  | turnAway absent => exact h.step_turnAway absent turns
  | answer head => exact h.step_answer head rfl rfl
  | close ended empty => exact h.step_close ended empty
  | discard ended discards => exact h.step_discard ended discards
  | depart => exact h.step_depart

end Told

theorem told_of_runs {bufferSize : ℕ} {trace : List Action}
    (run : Runs Steps (Bridge.new bufferSize) trace bridge) : Told bridge := by
  induction run with
  | nil => exact Told.new bufferSize
  | snoc _ step ih =>
    obtain ⟨hready, rfl⟩ := step
    exact ih.step (Turns.act ih.era hready) (ih.moves hready)

namespace Bridge

def GaveUp (bridge : Bridge) : Prop :=
  bridge.inboxClosed = true ∨ (bridge.receiver = false ∧ ¬ bridge.ReportedClosed)

end Bridge

theorem Moves.queued_kept {next : Bridge} (h : Told bridge) (moves : Moves bridge next) :
    next.GaveUp ∨ (¬ bridge.GaveUp ∧ bridge.queued <+: next.queued) := by
  -- where neither the queue nor the answers move, both states gave up or neither did
  have hsame : ∀ {next : Bridge}, next.answers = bridge.answers → next.inbox = bridge.inbox →
      next.receiver = bridge.receiver → next.inboxClosed = bridge.inboxClosed →
      next.GaveUp ∨ (¬ bridge.GaveUp ∧ bridge.queued <+: next.queued) := by
    intro next hanswers hinbox hreceiver hclosed
    have hgave : next.GaveUp ↔ bridge.GaveUp := by
      rw [Bridge.GaveUp, Bridge.GaveUp, Bridge.ReportedClosed, Bridge.ReportedClosed, hanswers,
        hreceiver, hclosed]
    have hqueued : next.queued = bridge.queued := by
      rw [Bridge.queued, Bridge.received, hanswers, hinbox]
      rfl
    by_cases hup : bridge.GaveUp
    · exact .inl (hgave.mpr hup)
    · exact .inr ⟨hup, hqueued ▸ List.prefix_refl _⟩
  cases moves with
  | quiet same => exact hsame same.answers same.inbox same.receiver same.inboxClosed
  | refuse => exact hsame rfl rfl rfl rfl
  | read => exact hsame rfl rfl rfl rfl
  | turnAway => exact hsame rfl rfl rfl rfl
  | discard => exact .inl (.inl rfl)
  | queue live _ present =>
    refine .inr ⟨?_, ?_⟩
    · rintro (hclosed | ⟨habsent, -⟩)
      · simp [(h.live live).2.1] at hclosed
      · simp [present] at habsent
    · show bridge.received ++ bridge.inbox <+: bridge.received ++ (bridge.inbox ++ _)
      rw [← List.append_assoc]
      exact List.prefix_append _ _
  | answer head =>
    refine .inr ⟨?_, ?_⟩
    · rintro (hclosed | ⟨habsent, -⟩)
      · simp [(h.discarded hclosed).1] at head
      · simp [h.gone habsent] at head
    · show bridge.received ++ bridge.inbox <+:
        (bridge.answers ++ [WsReceive.message _]).filterMap WsReceive.payload ++ _
      rw [List.filterMap_append, head]
      simp [Bridge.received, WsReceive.payload]
  | close ended empty present =>
    by_cases hclosed : bridge.inboxClosed = true
    · exact .inl (.inl hclosed)
    · refine .inr ⟨?_, ?_⟩
      · rintro (hup | ⟨habsent, -⟩)
        · exact hclosed hup
        · simp [present] at habsent
      · show bridge.received ++ bridge.inbox <+:
          (bridge.answers ++ [WsReceive.closed _]).filterMap WsReceive.payload ++ bridge.inbox
        rw [List.filterMap_append, Bridge.received, List.append_assoc]
        exact List.prefix_refl _
  | depart =>
    by_cases hreported : bridge.ReportedClosed
    · by_cases hclosed : bridge.inboxClosed = true
      · exact .inl (.inl hclosed)
      · refine .inr ⟨?_, ?_⟩
        · rintro (hup | ⟨-, hopen⟩)
          · exact hclosed hup
          · exact hopen hreported
        · rw [Bridge.queued, h.reported hreported]
          exact List.prefix_refl _
    · exact .inl (.inr ⟨rfl, hreported⟩)

theorem queued_kept_of_runs {start : Bridge} {trace : List Action} (h : Told start)
    (run : Runs Steps start trace bridge) :
    Told bridge ∧ (bridge.GaveUp ∨ start.queued <+: bridge.queued) := by
  induction run with
  | nil => exact ⟨h, .inr (List.prefix_refl _)⟩
  | snoc _ step ih =>
    obtain ⟨hready, rfl⟩ := step
    obtain ⟨htold, hbefore⟩ := ih
    refine ⟨htold.step (Turns.act htold.era hready) (htold.moves hready), ?_⟩
    rcases (htold.moves hready).queued_kept htold with hup | ⟨hkeeps, hstep⟩
    · exact .inl hup
    · exact .inr ((hbefore.resolve_left hkeeps).trans hstep)

theorem Told.resumes (h : Told bridge) (hreceiving : bridge.receiving = true)
    (hkeeps : bridge.Over → bridge.committed.discardsQueuedMessages = false) {message : WsMessage}
    {rest : List WsMessage} (head : bridge.inbox = message :: rest) :
    ∃ next, Runs Steps bridge [.abandonReceive, .beginReceive, .answerReceive] next ∧
      next.answers = bridge.answers ++ [.message message] := by
  have hbegin : Bridge.beginReceive { bridge with receiving := false } = bridge := by
    have hrestore : { { bridge with receiving := false } with receiving := true } = bridge := by
      rw [← hreceiving]
    unfold Bridge.beginReceive
    split
    next cause hsettled =>
      obtain ⟨rfl, hends⟩ := Bridge.settledCause_eq hsettled
      have hover : bridge.Over := h.over_of_closed (by
        rcases hends with hends | hends | hends
        · exact .inr (.inr (.inr hends))
        · exact .inl hends
        · exact .inr (.inl hends))
      rw [if_neg (by simpa [Bridge.committed] using hkeeps hover)]
      exact hrestore
    next => exact hrestore
  have hready : ReadyAll Bridge.Ready Bridge.act bridge
      [.abandonReceive, .beginReceive, .answerReceive] := by
    refine ⟨hreceiving, ⟨h.waiting hreceiving, rfl⟩, ⟨?_, .inl ?_⟩, trivial⟩
    · show (Bridge.beginReceive { bridge with receiving := false }).receiving = true
      rw [hbegin]
      exact hreceiving
    · show (Bridge.beginReceive { bridge with receiving := false }).inbox ≠ []
      rw [hbegin, head]
      exact List.cons_ne_nil _ _
  refine ⟨_, runs_replay hready, ?_⟩
  show (Bridge.beginReceive { bridge with receiving := false }).answerReceive.answers = _
  rw [hbegin, Bridge.answerReceive, head]

structure Delivered (bridge : Bridge) : Prop where
  ordered : bridge.received <+: bridge.peer
  /-- Messages first; behind the first `Closed` there are only more of them, for one cause. -/
  answers : ∃ closures, bridge.answers =
    bridge.received.map .message ++ List.replicate closures (.closed bridge.committed)
  refusals : ∀ cause ∈ bridge.refusals, cause = bridge.committed
  /-- Whatever receives were dropped on the way, nothing is missing before `Closed`. -/
  kept : bridge.receiver = true → ¬ bridge.ReportedClosed →
    bridge.peer = bridge.received ++ bridge.inbox ++ bridge.inbound.held
  resumes : bridge.receiving = true →
    (bridge.Over → bridge.committed.discardsQueuedMessages = false) →
    ∀ message rest, bridge.inbox = message :: rest →
      ∃ next, Runs Steps bridge [.abandonReceive, .beginReceive, .answerReceive] next ∧
        next.answers = bridge.answers ++ [.message message]

/-- Whatever the peer, the application, the server and the bridge do, the receives return the peer's
messages in order and then one cause, the one the senders report too. -/
theorem receives_delivered {bufferSize : ℕ} {early late : List Action} {before bridge : Bridge}
    (hearly : Runs Steps (Bridge.new bufferSize) early before)
    (hlate : Runs Steps before late bridge) :
    Delivered bridge ∧
      ∀ cause, bridge.terminal = some cause → cause.discardsQueuedMessages = false →
        bridge.ReportedClosed → before.received ++ before.inbox <+: bridge.received := by
  obtain ⟨htold, hqueued⟩ := queued_kept_of_runs (told_of_runs hearly) hlate
  refine ⟨⟨htold.ordered, htold.answers, htold.refusals, ?_, ?_⟩, ?_⟩
  · intro hpresent hreported
    apply htold.kept hpresent
    rw [Bool.eq_false_iff]
    exact fun hclosed => hreported (htold.heard hclosed)
  · intro hreceiving hkeeps message rest head
    exact htold.resumes hreceiving hkeeps head
  · intro cause hcause hkeeps hreported
    have hcommitted : bridge.committed = cause := by rw [Bridge.committed, hcause]; rfl
    have hnotUp : ¬ bridge.GaveUp := by
      rintro (hclosed | ⟨-, hopen⟩)
      · rw [← hcommitted, (htold.discarded hclosed).2] at hkeeps
        cases hkeeps
      · exact hopen hreported
    have hreturned : bridge.queued = bridge.received := by
      rw [Bridge.queued, htold.reported hreported, List.append_nil]
    rw [← hreturned]
    exact hqueued.resolve_left hnotUp

/-- Two peer messages; a receive that is dropped, one that returns the first message; the peer
closes; the receiver returns the second message and then reports the close, as a sender does. -/
def sampleReceives : List Action :=
  [.read (some (.text "a")), .beginReceive, .abandonReceive, .admitFrame,
    .read (some (.binary [1])), .admitFrame, .beginReceive, .answerReceive, .beginReceive]

def sampleClose : List Action :=
  [.read (some .close), .commit none, .closeSends, .closeReceives, .answerReceive,
    .beginReceive, .answerReceive, .refuseSend]

theorem receives_delivered_sampleReceives :
    ∃ before bridge, Runs Steps (Bridge.new 4) sampleReceives before ∧
      Runs Steps before sampleClose bridge ∧
      bridge.answers = [.message (.text "a"), .message (.binary [1]), .closed .peerClosed] ∧
      bridge.refusals = [.peerClosed] ∧ Delivered bridge ∧
      before.received ++ before.inbox <+: bridge.received := by
  have hready : ReadyAll Bridge.Ready Bridge.act (Bridge.new 4) sampleReceives := by
    decide
  have hready' : ReadyAll Bridge.Ready Bridge.act
      (replay Bridge.act (Bridge.new 4) sampleReceives) sampleClose := by decide
  obtain ⟨hdelivered, hkept⟩ := receives_delivered (runs_replay hready) (runs_replay hready')
  refine ⟨_, _, runs_replay hready, runs_replay hready', by decide, by decide,
    hdelivered, hkept .peerClosed (by decide +kernel) rfl ⟨.peerClosed, by decide +kernel⟩⟩

end Camber.WebSocket
