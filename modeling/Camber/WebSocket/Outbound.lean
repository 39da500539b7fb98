import Camber.WebSocket.Bridge

/-! The sink is given the admitted messages in admission order, each at most once, whatever ends the
connection. -/

namespace Camber.WebSocket

open Transition Bridge SinkItem
open Server (StopPhase)

def SinkItem.message : SinkItem → Option WsMessage
  | .frame item => fromFrame item
  | .close | .flush => none

def SinkItem.ofMessage (message : WsMessage) : SinkItem := .frame (intoFrame message)

@[simp] theorem SinkItem.message_ofMessage (message : WsMessage) :
    (ofMessage message).message = some message := fromFrame_intoFrame message

def Bridge.handed (bridge : Bridge) : List WsMessage := bridge.wire.filterMap message

def Bridge.owed (bridge : Bridge) : List WsMessage := bridge.pending.toList ++ bridge.queue

theorem Bridge.wire_handOver (bridge : Bridge) :
    bridge.handOver.wire = bridge.wire ++ bridge.pending.toList.map ofMessage := rfl

theorem Bridge.handed_handOver (bridge : Bridge) :
    bridge.handOver.handed = bridge.handed ++ bridge.pending.toList := by
  rw [handed, wire_handOver, List.filterMap_append]
  cases bridge.pending <;> simp [handed]

def Point.mayWrite : Point → Bool
  | .racing | .draining _ => true
  | .committing cause | .closingSends cause | .closingReceives cause | .settling cause =>
    decide (outboundDisposition cause = .drain)
  | .owing _ | .ended => false

/-- What is owed to the sink, and what it was given. -/
structure Ordered (bridge : Bridge) : Prop where
  handed_le : bridge.handed <+: bridge.admitted
  balance : bridge.point.mayWrite = true → bridge.admitted = bridge.handed ++ bridge.owed
  held : bridge.outbound ≠ .writing → bridge.pending = none
  fresh : bridge.point = .racing ∨ bridge.point.isCommitting = true → bridge.terminal = none

namespace Ordered

theorem new (bufferSize : ℕ) : Ordered (Bridge.new bufferSize) where
  handed_le := List.prefix_refl []
  balance _ := rfl
  held _ := rfl
  fresh _ := rfl

variable {bridge next : Bridge}

variable (h : Ordered bridge)

include h

theorem frame (hadmitted : next.admitted = bridge.admitted) (hwire : next.wire = bridge.wire)
    (howed : next.owed = bridge.owed)
    (hpoint : next.point.mayWrite = true → bridge.point.mayWrite = true)
    (hheld : next.outbound ≠ .writing → next.pending = none)
    (hfresh : next.point = .racing ∨ next.point.isCommitting = true → next.terminal = none) :
    Ordered next where
  handed_le := by
    rw [handed, hwire, hadmitted]
    exact h.handed_le
  balance hmay := by
    rw [hadmitted, handed, hwire, howed]
    exact h.balance (hpoint hmay)
  held := hheld
  fresh := hfresh

theorem stop (hadmitted : next.admitted = bridge.admitted)
    (hwire : next.wire.filterMap message = bridge.handed)
    (hpoint : next.point.mayWrite = false) (hheld : next.outbound ≠ .writing → next.pending = none)
    (hfresh : next.point = .racing ∨ next.point.isCommitting = true → next.terminal = none) :
    Ordered next where
  handed_le := by
    rw [handed, hwire, hadmitted]
    exact h.handed_le
  balance hmay := by simp [hpoint] at hmay
  held := hheld
  fresh := hfresh

theorem offer (hracing : bridge.point = .racing) (cause : WsCloseCause) :
    Ordered (bridge.offer cause) :=
  h.frame rfl rfl rfl (fun _ => by rw [hracing]; rfl) h.held fun _ => h.fresh (.inl hracing)

theorem push (message : WsMessage) : Ordered (bridge.push message) where
  handed_le := h.handed_le.trans (List.prefix_append _ _)
  balance hmay := by
    show bridge.admitted ++ [message] = bridge.handed ++ (bridge.pending.toList ++ (bridge.queue ++ [message]))
    rw [h.balance hmay, owed]
    simp only [List.append_assoc]
  held := h.held
  fresh := h.fresh

theorem beginReceive : Ordered bridge.beginReceive := by
  unfold Bridge.beginReceive
  split
  · split
    · exact h.frame rfl rfl rfl id h.held h.fresh
    · exact h.frame rfl rfl rfl id h.held h.fresh
  · exact h.frame rfl rfl rfl id h.held h.fresh

theorem answerReceive : Ordered bridge.answerReceive := by
  unfold Bridge.answerReceive
  split
  · exact h.frame rfl rfl rfl id h.held h.fresh
  · exact h.frame rfl rfl rfl id h.held h.fresh

theorem read (hracing : bridge.point = .racing) (item : Option WsFrameMessage) :
    Ordered (bridge.read item) := by
  unfold Bridge.read
  split
  · exact h.offer hracing _
  · exact h.offer hracing _
  · split
    · exact h
    · exact h.frame rfl rfl rfl id h.held h.fresh

theorem admitFrame (hracing : bridge.point = .racing) : Ordered bridge.admitFrame := by
  unfold Bridge.admitFrame
  split
  · exact h
  · have hread : Ordered { bridge with inbound := .reading } :=
      h.frame rfl rfl rfl id h.held h.fresh
    split
    · exact hread.offer hracing _
    · exact h.frame rfl rfl rfl id h.held h.fresh

theorem takeMessage (hwrites : bridge.point.writes = true)
    (hreceiving : bridge.outbound = .receiving) : Ordered bridge.takeMessage := by
  have hpending : bridge.pending = none := h.held (by simp [hreceiving])
  unfold Bridge.takeMessage
  split
  next message rest hqueue =>
    refine h.frame rfl rfl ?_ id (fun hnot => absurd rfl hnot) h.fresh
    simp [owed, hpending, hqueue]
  next hqueue =>
    split
    next cause hpoint => exact h.stop rfl rfl rfl h.held (by simp [Point.isCommitting])
    next hpoint =>
      have hracing : bridge.point = .racing := by
        cases hp : bridge.point <;> simp_all [Point.writes]
      exact h.offer hracing _

theorem handOver (hwrites : bridge.point.writes = true) : Ordered bridge.handOver := by
  have hmay : bridge.point.mayWrite = true := by
    cases hp : bridge.point <;> simp_all [Point.writes, Point.mayWrite]
  have hbalance : bridge.admitted = bridge.handOver.handed ++ bridge.handOver.owed := by
    rw [bridge.handed_handOver, h.balance hmay, owed, List.append_assoc]
    rfl
  exact ⟨⟨_, hbalance.symm⟩, fun _ => hbalance, fun _ => rfl, h.fresh⟩

theorem writeFailed (hwrites : bridge.point.writes = true)
    (hadmitted : next.admitted = bridge.admitted) (hwire : next.wire = bridge.wire)
    (hpoint : next.point = bridge.point) (hterminal : next.terminal = bridge.terminal)
    (hheld : next.outbound ≠ .writing → next.pending = none) : Ordered next.writeFailed := by
  unfold Bridge.writeFailed
  split
  next cause hcause =>
    refine h.stop hadmitted ?_ rfl hheld (by simp [Point.isCommitting])
    rw [hwire, handed]
  next hnot =>
    have hracing : bridge.point = .racing := by
      cases hp : bridge.point <;> simp_all [Point.writes]
    refine h.stop hadmitted ?_ rfl hheld ?_
    · show next.wire.filterMap message = bridge.handed
      rw [hwire, handed]
    · intro _
      show next.terminal = none
      rw [hterminal]
      exact h.fresh (.inl hracing)

theorem commit (phase : Option StopPhase) : Ordered (bridge.commit phase) := by
  unfold Bridge.commit
  split
  next offered hpoint =>
    have hterminal : bridge.terminal = none := h.fresh (.inr (by rw [hpoint]; rfl))
    refine h.frame rfl rfl rfl ?_ h.held (by simp [Point.isCommitting])
    rw [hterminal, hpoint]
    -- a stop can only turn the offer into a cause that cancels
    rcases phase with _ | phase
    · exact id
    · rcases stoppedOr_cases phase offered with hsame | hcancelled
      · simp only [Option.elim_some, hsame]
        exact id
      · simp [hcancelled, Point.mayWrite, outboundDisposition]
  next => exact h

theorem settle : Ordered bridge.settle := by
  unfold Bridge.settle
  split
  next cause hpoint =>
    split
    next hdrain =>
      refine h.frame rfl rfl rfl ?_ ?_ (by simp [Point.isCommitting])
      · intro _
        simp [hpoint, Point.mayWrite, hdrain]
      · cases hpending : bridge.pending <;> simp
    next => exact h.stop rfl rfl rfl (fun _ => rfl) (by simp [Point.isCommitting])
  next => exact h

theorem oweClose : Ordered bridge.oweClose := by
  unfold Bridge.oweClose
  split
  next cause hpoint =>
    refine h.stop rfl ?_ rfl h.held (by simp [Point.isCommitting])
    have howed : (owedClose cause).filterMap message = [] := by
      cases cause <;> rfl
    simp [handed, List.filterMap_append, howed]
  next => exact h

theorem closeSends : Ordered bridge.closeSends := by
  unfold Bridge.closeSends
  split
  next cause hpoint =>
    exact h.frame rfl rfl rfl (by rw [hpoint]; exact id) h.held (by simp [Point.isCommitting])
  next => exact h

theorem closeReceives : Ordered bridge.closeReceives := by
  unfold Bridge.closeReceives
  split
  next cause hpoint =>
    exact h.frame rfl rfl rfl (by rw [hpoint]; exact id) h.held (by simp [Point.isCommitting])
  next => exact h

theorem act {action : Action} (hready : bridge.Ready action) : Ordered (bridge.act action) := by
  cases action with
  | cloneSender | dropSender | reserve | refuseSend | abandonReceive | dropReceiver =>
    exact h.frame rfl rfl rfl id h.held h.fresh
  | push message => exact h.push message
  | beginReceive => exact h.beginReceive
  | answerReceive => exact h.answerReceive
  | read item => exact h.read hready.1 item
  | admitFrame => exact h.admitFrame hready.1
  | takeMessage => exact h.takeMessage hready.1 hready.2.1
  | handOver => exact h.handOver hready.1
  | readyFailed | flushFailed => exact h.writeFailed hready.1 rfl rfl rfl rfl h.held
  | sendFailed => exact h.writeFailed hready.1 rfl rfl rfl rfl fun _ => rfl
  | flushed => exact h.frame rfl rfl rfl id (fun _ => h.held (by simp [hready.2])) h.fresh
  | receiverLeft => exact h.offer hready.1 _
  | control mode => exact h.offer hready _
  | commit phase => exact h.commit phase
  | closeSends => exact h.closeSends
  | closeReceives => exact h.closeReceives
  | settle => exact h.settle
  | oweClose => exact h.oweClose
  | abort => exact h.stop rfl rfl rfl h.held (by simp [Bridge.act, abort, Point.isCommitting])
  | taken => exact h.stop rfl rfl rfl (fun _ => rfl) (by simp [Bridge.act, Point.isCommitting])

end Ordered

variable {bridge : Bridge}

theorem ordered_of_runs {bufferSize : ℕ} {trace : List Action}
    (run : Runs Steps (Bridge.new bufferSize) trace bridge) : Ordered bridge := by
  induction run with
  | nil => exact Ordered.new bufferSize
  | snoc _ step ih =>
    obtain ⟨hready, rfl⟩ := step
    exact ih.act hready

def Peaceful (bridge : Bridge) : Action → Prop
  | .read item => item ≠ none ∧ item ≠ some .close
  | .readyFailed | .sendFailed | .flushFailed | .control _ | .abort | .taken => False
  | .commit phase => phase = none ∨ phase = some .running
  | .dropReceiver => bridge.senders = 0
  | _ => True

def OffersNothingLate (bridge : Bridge) : Action → Prop
  | .admitFrame => bridge.receiver = false → bridge.owed = []
  | _ => True

def WsCloseCause.released : WsCloseCause → Bool
  | .receiverDropped | .sendersDropped => true
  | .peerClosed | .peerDisconnected | .serverShutdown | .serverCancelled => false

def Point.cause : Point → Option WsCloseCause
  | .racing | .ended => none
  | .committing cause | .closingSends cause | .closingReceives cause | .settling cause
  | .draining cause | .owing cause => some cause

structure Released (bridge : Bridge) : Prop where
  gone : bridge.receiver = false → bridge.senders = 0
  few : bridge.reserved ≤ bridge.senders
  race : bridge.point = .racing → bridge.terminal = none ∧ bridge.producers = true ∧
    bridge.inboxClosed = false ∧ bridge.sendClosed = false
  settled : bridge.point ≠ .racing →
    bridge.owed = [] ∧ bridge.senders = 0 ∧ bridge.handed = bridge.admitted
  cause : ∀ cause ∈ bridge.point.cause, cause.released = true
  wire : bridge.point ≠ .ended → bridge.wire = bridge.handed.map ofMessage
  ended : bridge.point = .ended → bridge.wire = bridge.admitted.map ofMessage ++ [.close]

namespace Released

theorem new (bufferSize : ℕ) : Released (Bridge.new bufferSize) where
  gone := by simp [Bridge.new]
  few := by simp [Bridge.new]
  race _ := ⟨rfl, rfl, rfl, rfl⟩
  settled := by simp [Bridge.new]
  cause := by simp [Bridge.new, Point.cause]
  wire _ := rfl
  ended := by simp [Bridge.new]

variable {bridge next : Bridge}

variable (h : Released bridge)

include h

theorem frame (hgone : next.receiver = false → next.senders = 0)
    (hsenders : next.senders = bridge.senders) (hreserved : next.reserved = bridge.reserved)
    (hpoint : next.point = bridge.point) (howed : next.owed = bridge.owed)
    (hwire : next.wire = bridge.wire) (hadmitted : next.admitted = bridge.admitted) (hrace :
      bridge.point = .racing → next.terminal = bridge.terminal ∧ next.producers = bridge.producers ∧
      next.inboxClosed = bridge.inboxClosed ∧ next.sendClosed = bridge.sendClosed) :
    Released next where
  gone := hgone
  few := by
    rw [hreserved, hsenders]
    exact h.few
  race hracing := by
    rw [hpoint] at hracing
    obtain ⟨hterminal, hproducers, hinbox, hclosed⟩ := hrace hracing
    rw [hterminal, hproducers, hinbox, hclosed]
    exact h.race hracing
  settled hnot := by
    rw [hpoint] at hnot
    rw [howed, hsenders, handed, hwire, hadmitted]
    exact h.settled hnot
  cause := by
    rw [hpoint]
    exact h.cause
  wire hnot := by
    rw [hpoint] at hnot
    rw [handed, hwire]
    exact h.wire hnot
  ended hended := by
    rw [hpoint] at hended
    rw [hwire, hadmitted]
    exact h.ended hended

theorem offer (hordered : Ordered bridge) (hracing : bridge.point = .racing)
    (howed : bridge.owed = []) (hsenders : bridge.senders = 0) {cause : WsCloseCause}
    (hcause : cause.released = true) : Released (bridge.offer cause) where
  gone _ := hsenders
  few := h.few
  race := by simp [Bridge.offer]
  settled _ := by
    have hbalance := hordered.balance (by rw [hracing]; rfl)
    rw [howed, List.append_nil] at hbalance
    exact ⟨howed, hsenders, hbalance.symm⟩
  cause := by simpa [Bridge.offer, Point.cause] using hcause
  wire _ := h.wire (by simp [hracing])
  ended := by simp [Bridge.offer]

theorem goOn (hpoint : bridge.point ≠ .racing) (hended : bridge.point ≠ .ended)
    (hgone : next.receiver = bridge.receiver) (hsenders : next.senders = bridge.senders)
    (hreserved : next.reserved = bridge.reserved) (howed : next.owed = [])
    (hwire : next.wire = bridge.wire) (hadmitted : next.admitted = bridge.admitted)
    (hnext : next.point ≠ .racing ∧ next.point ≠ .ended)
    (hcause : ∀ cause ∈ next.point.cause, cause.released = true) : Released next where
  gone := by
    rw [hgone, hsenders]
    exact h.gone
  few := by
    rw [hreserved, hsenders]
    exact h.few
  race hracing := absurd hracing hnext.1
  settled _ := by
    obtain ⟨-, hnone, hhanded⟩ := h.settled hpoint
    rw [hsenders, handed, hwire, hadmitted]
    exact ⟨howed, hnone, hhanded⟩
  cause := hcause
  wire _ := by
    rw [handed, hwire]
    exact h.wire hended
  ended hended' := absurd hended' hnext.2

theorem racing_of_sender (hsender : 0 < bridge.senders) : bridge.point = .racing := by
  by_contra hnot
  have := (h.settled hnot).2.1
  omega

theorem push (hready : 0 < bridge.reserved) (message : WsMessage) :
    Released (bridge.push message) := by
  have hsender : 0 < bridge.senders := hready.trans_le h.few
  have hracing := h.racing_of_sender hsender
  have hpoint : (bridge.push message).point = .racing := hracing
  refine ⟨h.gone, ?_, fun _ => h.race hracing, fun hnot => absurd hpoint hnot, h.cause, h.wire, ?_⟩
  · show bridge.reserved - 1 ≤ bridge.senders
    exact (Nat.sub_le _ _).trans h.few
  · intro hended
    rw [hpoint] at hended
    cases hended

theorem beginReceive : Released bridge.beginReceive := by
  have hopen : Released { bridge with receiving := true } :=
    h.frame h.gone rfl rfl rfl rfl rfl rfl fun _ => ⟨rfl, rfl, rfl, rfl⟩
  unfold Bridge.beginReceive
  split
  next cause hcause =>
    split
    · refine h.frame h.gone rfl rfl rfl rfl rfl rfl fun hracing => ?_
      -- no cause is settled while the race is open
      obtain ⟨hterminal, hproducers, hinbox, -⟩ := h.race hracing
      simp [settledCause, hterminal, hproducers, hinbox] at hcause
    · exact hopen
  · exact hopen

theorem answerReceive : Released bridge.answerReceive := by
  unfold Bridge.answerReceive
  split <;> exact h.frame h.gone rfl rfl rfl rfl rfl rfl fun _ => ⟨rfl, rfl, rfl, rfl⟩

theorem read {item : Option WsFrameMessage} (hnone : item ≠ none) (hclose : item ≠ some .close) :
    Released (bridge.read item) := by
  unfold Bridge.read
  split
  · exact absurd rfl hnone
  · exact absurd rfl hclose
  · split
    · exact h
    · exact h.frame h.gone rfl rfl rfl rfl rfl rfl fun _ => ⟨rfl, rfl, rfl, rfl⟩

theorem admitFrame (hordered : Ordered bridge) (hracing : bridge.point = .racing)
    (hlate : bridge.receiver = false → bridge.owed = []) : Released bridge.admitFrame := by
  unfold Bridge.admitFrame
  split
  · exact h
  next message hadmitting =>
    have hread : Released { bridge with inbound := .reading } :=
      h.frame h.gone rfl rfl rfl rfl rfl rfl fun _ => ⟨rfl, rfl, rfl, rfl⟩
    have hread' : Ordered { bridge with inbound := .reading } :=
      hordered.frame rfl rfl rfl id hordered.held hordered.fresh
    split
    next hrefused =>
      obtain ⟨-, hproducers, hinbox, -⟩ := h.race hracing
      have hgone : bridge.receiver = false := by
        simpa [receiveRefused, hproducers, hinbox] using hrefused
      exact hread.offer hread' hracing (hlate hgone) (h.gone hgone) rfl
    next => exact h.frame h.gone rfl rfl rfl rfl rfl rfl fun _ => ⟨rfl, rfl, rfl, rfl⟩

theorem takeMessage (hordered : Ordered bridge) (hwrites : bridge.point.writes = true)
    (hreceiving : bridge.outbound = .receiving)
    (hready : bridge.queue ≠ [] ∨ bridge.exhausted = true) : Released bridge.takeMessage := by
  have hpending : bridge.pending = none := hordered.held (by simp [hreceiving])
  unfold Bridge.takeMessage
  split
  next message rest hqueue =>
    refine h.frame h.gone rfl rfl rfl ?_ rfl rfl fun _ => ⟨rfl, rfl, rfl, rfl⟩
    simp [owed, hpending, hqueue]
  next hqueue =>
    have howed : bridge.owed = [] := by simp [owed, hpending, hqueue]
    split
    next cause hpoint =>
      refine h.goOn (by simp [hpoint]) (by simp [hpoint]) rfl rfl rfl howed rfl rfl (by simp) ?_
      simpa [hpoint, Point.cause] using h.cause
    next hnot =>
      have hracing : bridge.point = .racing := by
        cases hp : bridge.point <;> simp_all [Point.writes]
      -- the queue is open, so it is exhausted because no sender is left
      obtain ⟨-, -, -, hclosed⟩ := h.race hracing
      have hexhausted := hready.resolve_left (by simp [hqueue])
      have hsenders : bridge.senders = 0 := by
        simp only [exhausted, hclosed, Bool.and_eq_true, Bool.false_or,
          decide_eq_true_eq] at hexhausted
        exact hexhausted.2
      exact h.offer hordered hracing howed hsenders rfl

theorem handOver (hwrites : bridge.point.writes = true) : Released bridge.handOver where
  gone := h.gone
  few := h.few
  race := h.race
  settled hnot := by
    -- a drain finds nothing to write
    obtain ⟨howed, hsenders, hhanded⟩ := h.settled hnot
    obtain ⟨hpending, hqueue⟩ : bridge.pending.toList = [] ∧ bridge.queue = [] := by
      simpa [owed] using howed
    rw [bridge.handed_handOver, hpending, List.append_nil]
    exact ⟨hqueue, hsenders, hhanded⟩
  cause := h.cause
  wire hnot := by
    rw [bridge.handed_handOver, bridge.wire_handOver, List.map_append, h.wire hnot]
  ended hended := by
    have hpoint : bridge.point = .ended := hended
    simp [hpoint, Point.writes] at hwrites

theorem commit (hordered : Ordered bridge) {phase : Option StopPhase}
    (hphase : phase = none ∨ phase = some .running) : Released (bridge.commit phase) := by
  unfold Bridge.commit
  split
  next offered hpoint =>
    have hterminal : bridge.terminal = none := hordered.fresh (.inr (by rw [hpoint]; rfl))
    have hcause : phase.elim offered (stoppedOr · offered) = offered := by
      rcases hphase with rfl | rfl <;> rfl
    have hreleased : offered.released = true := h.cause offered (by simp [hpoint, Point.cause])
    have howed := (h.settled (by simp [hpoint])).1
    refine h.goOn (by simp [hpoint]) (by simp [hpoint]) rfl rfl rfl howed rfl rfl (by simp) ?_
    simpa [Point.cause, hterminal, hcause] using hreleased
  next => exact h

theorem closeSends : Released bridge.closeSends := by
  unfold Bridge.closeSends
  split
  next cause hpoint =>
    have howed := (h.settled (by simp [hpoint])).1
    refine h.goOn (by simp [hpoint]) (by simp [hpoint]) rfl rfl rfl howed rfl rfl (by simp) ?_
    simpa [hpoint, Point.cause] using h.cause
  next => exact h

theorem closeReceives : Released bridge.closeReceives := by
  unfold Bridge.closeReceives
  split
  next cause hpoint =>
    have howed := (h.settled (by simp [hpoint])).1
    refine h.goOn (by simp [hpoint]) (by simp [hpoint]) rfl rfl rfl howed rfl rfl (by simp) ?_
    simpa [hpoint, Point.cause] using h.cause
  next => exact h

theorem settle : Released bridge.settle := by
  unfold Bridge.settle
  split
  next cause hpoint =>
    have howed := (h.settled (by simp [hpoint])).1
    split
    · refine h.goOn (by simp [hpoint]) (by simp [hpoint]) rfl rfl rfl howed rfl rfl (by simp) ?_
      simpa [hpoint, Point.cause] using h.cause
    · refine h.goOn (by simp [hpoint]) (by simp [hpoint]) rfl rfl rfl rfl rfl rfl (by simp) ?_
      simpa [hpoint, Point.cause] using h.cause
  next => exact h

theorem oweClose : Released bridge.oweClose := by
  unfold Bridge.oweClose
  split
  next cause hpoint =>
    obtain ⟨howed, hsenders, hhanded⟩ := h.settled (by simp [hpoint])
    have hreleased : cause.released = true := h.cause cause (by simp [hpoint, Point.cause])
    have hclose : owedClose cause = [.close] := by
      cases cause <;> simp_all [WsCloseCause.released, owedClose]
    have hwire := h.wire (by simp [hpoint])
    refine ⟨h.gone, h.few, by simp, fun _ => ⟨howed, hsenders, ?_⟩, by simp [Point.cause],
      fun hnot => absurd rfl hnot, fun _ => ?_⟩
    · show (bridge.wire ++ owedClose cause).filterMap message = bridge.admitted
      have hnone : [close].filterMap message = [] := rfl
      rw [hclose, List.filterMap_append, hnone, List.append_nil]
      exact hhanded
    · show bridge.wire ++ owedClose cause = _
      rw [hclose, hwire, hhanded]
  next => exact h

theorem act (hordered : Ordered bridge) {action : Action} (hready : bridge.Ready action)
    (hpeaceful : Peaceful bridge action) (hlate : OffersNothingLate bridge action) :
    Released (bridge.act action) := by
  cases action with
  | cloneSender =>
    have hracing := h.racing_of_sender hready
    refine ⟨fun hgone => ?_, ?_, h.race, fun hnot => absurd hracing hnot, h.cause, h.wire, h.ended⟩
    · have := h.gone hgone
      simp only [Ready] at hready
      omega
    · exact h.few.trans (Nat.le_succ _)
  | dropSender =>
    simp only [Ready] at hready
    have hracing := h.racing_of_sender (by omega)
    refine ⟨fun hgone => ?_, ?_, h.race, fun hnot => absurd hracing hnot, h.cause, h.wire, h.ended⟩
    · show bridge.senders - 1 = 0
      have := h.gone hgone
      omega
    · show bridge.reserved ≤ bridge.senders - 1
      omega
  | reserve => exact ⟨h.gone, hready.1, h.race, h.settled, h.cause, h.wire, h.ended⟩
  | push message => exact h.push hready message
  | refuseSend | abandonReceive =>
    exact h.frame h.gone rfl rfl rfl rfl rfl rfl fun _ => ⟨rfl, rfl, rfl, rfl⟩
  | beginReceive => exact h.beginReceive
  | answerReceive => exact h.answerReceive
  | dropReceiver =>
    exact h.frame (fun _ => hpeaceful) rfl rfl rfl rfl rfl rfl fun _ => ⟨rfl, rfl, rfl, rfl⟩
  | read item => exact h.read hpeaceful.1 hpeaceful.2
  | admitFrame => exact h.admitFrame hordered hready.1 hlate
  | takeMessage => exact h.takeMessage hordered hready.1 hready.2.1 hready.2.2
  | handOver => exact h.handOver hready.1
  | readyFailed | sendFailed | flushFailed | control | abort | taken => exact hpeaceful.elim
  | flushed => exact h.frame h.gone rfl rfl rfl rfl rfl rfl fun _ => ⟨rfl, rfl, rfl, rfl⟩
  | receiverLeft =>
    have := h.gone hready.2.1
    have := hready.2.2
    omega
  | commit phase => exact h.commit hordered hpeaceful
  | closeSends => exact h.closeSends
  | closeReceives => exact h.closeReceives
  | settle => exact h.settle
  | oweClose => exact h.oweClose

end Released

theorem released_of_runs {bufferSize : ℕ} {trace : List Action}
    (run : Runs (Guarded Steps fun bridge action =>
      Peaceful bridge action ∧ OffersNothingLate bridge action) (Bridge.new bufferSize) trace bridge) :
    Released bridge := by
  induction run with
  | nil => exact Released.new bufferSize
  | snoc run step ih =>
    obtain ⟨⟨hready, rfl⟩, hpeaceful, hlate⟩ := step
    exact ih.act (ordered_of_runs run.unguard) hready hpeaceful hlate

/-! ## Progress

With a ready sink the bridge needs nobody else: its own next step is determined, and there
are finitely many of them. -/

def Bridge.ownWrite (bridge : Bridge) : Option Action :=
  match bridge.outbound with
  | .writing => some .handOver
  | .flushing => some .flushed
  | .receiving =>
    if bridge.queue ≠ [] ∨ bridge.exhausted = true then some .takeMessage else none

def Bridge.own (bridge : Bridge) : Option Action :=
  match bridge.point with
  | .racing | .draining _ => bridge.ownWrite
  | .committing _ => some (.commit none)
  | .closingSends _ => some .closeSends
  | .closingReceives _ => some .closeReceives
  | .settling _ => some .settle
  | .owing _ => some .oweClose
  | .ended => none

def Action.own : Action → Bool
  | .takeMessage | .handOver | .flushed | .commit _ | .closeSends | .closeReceives | .settle
  | .oweClose => true
  | _ => false

def Point.stages : Point → ℕ
  | .racing => 7
  | .committing _ => 6
  | .closingSends _ => 5
  | .closingReceives _ => 4
  | .settling _ => 3
  | .draining _ => 2
  | .owing _ => 1
  | .ended => 0

def OutboundPoint.stages : OutboundPoint → ℕ
  | .receiving => 0
  | .flushing => 1
  | .writing => 2

def Bridge.work (bridge : Bridge) : ℕ :=
  3 * bridge.queue.length + bridge.outbound.stages + 3 * bridge.point.stages

structure OwnStep (bridge : Bridge) (action : Action) : Prop where
  ready : bridge.Ready action
  own : action.own = true
  peaceful : Peaceful bridge action
  late : OffersNothingLate bridge action
  work : (bridge.act action).work < bridge.work
  admitted : (bridge.act action).admitted = bridge.admitted
  senders : (bridge.act action).senders = bridge.senders

theorem ownStep_takeMessage (hwrites : bridge.point.writes = true)
    (houtbound : bridge.outbound = .receiving)
    (hready : bridge.queue ≠ [] ∨ bridge.exhausted = true) : OwnStep bridge .takeMessage := by
  cases hqueue : bridge.queue with
  | cons message rest =>
    refine ⟨⟨hwrites, houtbound, hready⟩, rfl, trivial, trivial, ?_, ?_, ?_⟩
    · simp [Bridge.act, Bridge.takeMessage, work, hqueue, houtbound, OutboundPoint.stages]
      omega
    · simp [Bridge.act, Bridge.takeMessage, hqueue]
    · simp [Bridge.act, Bridge.takeMessage, hqueue]
  | nil =>
    refine ⟨⟨hwrites, houtbound, hready⟩, rfl, trivial, trivial, ?_, ?_, ?_⟩ <;>
      cases hpoint : bridge.point <;>
      simp_all [Bridge.act, Bridge.takeMessage, work, Bridge.offer, Point.writes,
        Point.stages]

theorem Bridge.ownWrite_spec {action : Action} (hwrites : bridge.point.writes = true)
    (h : bridge.ownWrite = some action) : OwnStep bridge action := by
  unfold ownWrite at h
  split at h
  next houtbound =>
    cases h
    refine ⟨⟨hwrites, houtbound⟩, rfl, trivial, trivial, ?_, rfl, rfl⟩
    simp [Bridge.act, Bridge.handOver, work, houtbound, OutboundPoint.stages]
  next houtbound =>
    cases h
    refine ⟨⟨hwrites, houtbound⟩, rfl, trivial, trivial, ?_, rfl, rfl⟩
    simp [Bridge.act, work, houtbound, OutboundPoint.stages]
  next houtbound =>
    split at h
    next hready =>
      cases h
      exact ownStep_takeMessage hwrites houtbound hready
    next => cases h

theorem Bridge.own_spec {action : Action} (h : bridge.own = some action) :
    OwnStep bridge action := by
  unfold Bridge.own at h
  split at h
  next hpoint => exact bridge.ownWrite_spec (by rw [hpoint]; rfl) h
  next cause hpoint => exact bridge.ownWrite_spec (by rw [hpoint]; rfl) h
  next offered hpoint =>
    cases h
    refine ⟨?_, rfl, .inl rfl, trivial, ?_, ?_, ?_⟩ <;>
      simp [Ready, Bridge.act, Bridge.commit, work, hpoint, Point.isCommitting,
        Point.stages]
  next cause hpoint =>
    cases h
    refine ⟨?_, rfl, trivial, trivial, ?_, ?_, ?_⟩ <;>
      simp [Ready, Bridge.act, Bridge.closeSends, work, hpoint,
        Point.isClosingSends, Point.stages]
  next cause hpoint =>
    cases h
    refine ⟨?_, rfl, trivial, trivial, ?_, ?_, ?_⟩ <;>
      simp [Ready, Bridge.act, Bridge.closeReceives, work, hpoint,
        Point.isClosingReceives, Point.stages]
  next cause hpoint =>
    cases h
    have hstages : (if bridge.pending.isSome then OutboundPoint.writing else .receiving).stages ≤ 2 := by
      split <;> simp [OutboundPoint.stages]
    refine ⟨by simp [Ready, hpoint, Point.isSettling], rfl, trivial, trivial, ?_, ?_, ?_⟩ <;>
      cases hdisposition : outboundDisposition cause <;>
      simp only [Bridge.act, Bridge.settle, hpoint, hdisposition, work, Point.stages,
        List.length_nil]
    · omega
    · omega
  next cause hpoint =>
    cases h
    refine ⟨?_, rfl, trivial, trivial, ?_, ?_, ?_⟩ <;>
      simp [Ready, Bridge.act, Bridge.oweClose, work, hpoint, Point.isOwing,
        Point.stages]
  next => cases h

theorem Released.own_eq_none (h : Released bridge) (hordered : Ordered bridge)
    (hown : bridge.own = none) :
    bridge.point = .ended ∨ (bridge.point = .racing ∧ bridge.owed = [] ∧ 0 < bridge.senders) := by
  have hwait : bridge.ownWrite = none → bridge.owed = [] ∧ bridge.exhausted = false := by
    intro hwrite
    unfold ownWrite at hwrite
    split at hwrite
    next => cases hwrite
    next => cases hwrite
    next houtbound =>
      have hpending : bridge.pending = none := hordered.held (by simp [houtbound])
      split at hwrite
      next => cases hwrite
      next hready =>
        rw [not_or, not_not] at hready
        exact ⟨by simp [owed, hpending, hready.1], by simpa using hready.2⟩
  -- a queue nobody can fill any more is exhausted
  have hsender : bridge.owed = [] → bridge.exhausted = false → 0 < bridge.senders := by
    intro howed hexhausted
    have hqueue : bridge.queue = [] := (List.append_eq_nil_iff.mp howed).2
    by_contra hnot
    have hnone : bridge.senders = 0 := by omega
    have hreserved : bridge.reserved = 0 := by
      have := h.few
      omega
    simp [exhausted, hqueue, hnone, hreserved] at hexhausted
  unfold Bridge.own at hown
  split at hown
  next hpoint =>
    obtain ⟨howed, hexhausted⟩ := hwait hown
    exact .inr ⟨hpoint, howed, hsender howed hexhausted⟩
  next cause hpoint =>
    obtain ⟨howed, hexhausted⟩ := hwait hown
    have := (h.settled (by simp [hpoint])).2.1
    have := hsender howed hexhausted
    omega
  case h_8 hpoint => exact .inl hpoint
  all_goals cases hown

theorem Released.rests (h : Released bridge) (hordered : Ordered bridge) :
    ∃ trace next, Runs Steps bridge trace next ∧ (∀ action ∈ trace, action.own = true) ∧
      next.admitted = bridge.admitted ∧ next.senders = bridge.senders ∧ Released next ∧
      Ordered next ∧ next.own = none := by
  induction hwork : bridge.work using Nat.strong_induction_on generalizing bridge with
  | _ work ih =>
    cases hown : bridge.own with
    | none => exact ⟨[], bridge, .nil, by simp, rfl, rfl, h, hordered, hown⟩
    | some action =>
      have hstep := own_spec hown
      have hnext := h.act hordered hstep.ready hstep.peaceful hstep.late
      have hnext' := hordered.act hstep.ready
      obtain ⟨trace, next, run, htrace, hadmitted, hsenders, hreleased, hlast, hquiet⟩ :=
        ih _ (hwork ▸ hstep.work) hnext hnext' rfl
      have hfirst : Runs Steps bridge [action] (bridge.act action) :=
        show Runs _ _ ([] ++ [action]) _ from Runs.nil.snoc ⟨hstep.ready, rfl⟩
      refine ⟨[action] ++ trace, next, hfirst.append run, ?_, hadmitted.trans hstep.admitted,
        hsenders.trans hstep.senders, hreleased, hlast, hquiet⟩
      intro other hmem
      rcases List.mem_cons.mp hmem with rfl | hmem
      · exact hstep.own
      · exact htrace other hmem

structure Kept (bridge : Bridge) : Prop where
  closed : .close ∈ bridge.wire →
    bridge.wire = bridge.admitted.map ofMessage ++ [.close]
  progress : ∃ trace next, Runs Steps bridge trace next ∧ (∀ action ∈ trace, action.own = true) ∧
    next.handed = bridge.admitted ∧ (bridge.senders = 0 →
      next.wire = bridge.admitted.map ofMessage ++ [.close])

theorem Released.kept (h : Released bridge) (hordered : Ordered bridge) : Kept bridge := by
  constructor
  · intro hclose
    apply h.ended
    by_contra hnot
    rw [h.wire hnot] at hclose
    obtain ⟨message, -, hmessage⟩ := List.mem_map.mp hclose
    cases hmessage
  · obtain ⟨trace, next, run, htrace, hadmitted, hsenders, hreleased, hlast, hown⟩ :=
      h.rests hordered
    refine ⟨trace, next, run, htrace, ?_⟩
    rcases hreleased.own_eq_none hlast hown with hended | ⟨hracing, howed, hsender⟩
    · have hhanded := (hreleased.settled (by simp [hended])).2.2
      rw [← hadmitted]
      exact ⟨hhanded, fun _ => hreleased.ended hended⟩
    · have hbalance := hlast.balance (by rw [hracing]; rfl)
      rw [howed, List.append_nil] at hbalance
      rw [← hadmitted]
      exact ⟨hbalance.symm, fun hnone => by omega⟩

/-- Under every cause the sink is given admitted messages only, in order and once each. -/
theorem admitted_sends_kept {bufferSize : ℕ} {trace : List Action} {bridge : Bridge}
    (run : Runs Steps (Bridge.new bufferSize) trace bridge) :
    bridge.handed <+: bridge.admitted ∧
      (Runs (Guarded Steps fun bridge action =>
          Peaceful bridge action ∧ OffersNothingLate bridge action)
        (Bridge.new bufferSize) trace bridge → Kept bridge) := by
  have hordered := ordered_of_runs run
  exact ⟨hordered.handed_le, fun guarded => (released_of_runs guarded).kept hordered⟩

def letGo : List Action :=
  [.reserve, .push (.text "hi"), .takeMessage, .dropSender, .dropReceiver]

def peerSpeaks : List Action := [.read (some (.text "yo")), .admitFrame]

instance (bridge : Bridge) : DecidablePred (Peaceful bridge)
  | .read _ => inferInstanceAs (Decidable (_ ∧ _))
  | .readyFailed | .sendFailed | .flushFailed | .control _ | .abort | .taken =>
    inferInstanceAs (Decidable False)
  | .commit _ => inferInstanceAs (Decidable (_ ∨ _))
  | .dropReceiver => inferInstanceAs (Decidable (_ = _))
  | .cloneSender | .dropSender | .reserve | .push _ | .refuseSend | .beginReceive
  | .answerReceive | .abandonReceive | .admitFrame | .takeMessage | .handOver | .flushed
  | .receiverLeft | .closeSends | .closeReceives | .settle | .oweClose =>
    inferInstanceAs (Decidable True)

instance (bridge : Bridge) : DecidablePred (OffersNothingLate bridge) := fun action => by
  unfold OffersNothingLate
  split <;> infer_instance

theorem admitted_sends_kept_letGo :
    ∃ bridge, Runs Steps (Bridge.new 4) letGo bridge ∧ bridge.admitted = [.text "hi"] ∧
      bridge.handed <+: bridge.admitted ∧ Kept bridge := by
  have hready : ReadyAll (fun bridge action => bridge.Ready action ∧
      (Peaceful bridge action ∧ OffersNothingLate bridge action)) Bridge.act (Bridge.new 4)
      letGo := by decide
  have guarded := (runs_replay hready).mono fun _ _ _ step => guarded_acts.mpr step
  obtain ⟨hhanded, hkept⟩ := admitted_sends_kept guarded.unguard
  exact ⟨_, guarded.unguard, by decide, hhanded, hkept guarded⟩

/-- The first message is in the sink and not flushed, and the second is still queued, when the
application lets go. -/
def stuckFlush : List Action :=
  [.reserve, .push (.text "hi"), .takeMessage, .handOver, .reserve, .push (.text "ho"), .dropSender,
    .dropReceiver]

def cancelledRun : List Action :=
  stuckFlush ++ peerSpeaks ++ [.commit none, .closeSends, .closeReceives, .settle, .oweClose]

/-- The race ends `ReceiverDropped`: the queued message is cancelled and the close follows without
it. -/
theorem admitted_send_cancelled_by_peer_frame :
    ∃ bridge, Runs (Guarded Steps Peaceful) (Bridge.new 4) cancelledRun bridge ∧
      bridge.admitted = [.text "hi", .text "ho"] ∧ bridge.wire = [.frame (.text "hi"), .close] ∧
        ¬ Kept bridge := by
  have hready : ReadyAll (fun bridge action => bridge.Ready action ∧ Peaceful bridge action)
      Bridge.act (Bridge.new 4) cancelledRun := by decide
  have guarded := (runs_replay hready).mono fun _ _ _ step => guarded_acts.mpr step
  have hwire : (replay Bridge.act (Bridge.new 4) cancelledRun).wire =
      [.frame (.text "hi"), .close] := by decide
  have hadmitted : (replay Bridge.act (Bridge.new 4) cancelledRun).admitted =
      [.text "hi", .text "ho"] := by decide
  refine ⟨_, guarded, hadmitted, hwire, fun h => ?_⟩
  have hclosed := h.closed (by rw [hwire]; simp)
  rw [hwire, hadmitted] at hclosed
  cases hclosed

end Camber.WebSocket
