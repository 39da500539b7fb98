import Camber.WebSocket.Bridge

/-! A connection is live until its bridge commits a cause or is taken away, and over from then on.
-/

namespace Camber.WebSocket

open Server (StopPhase)

namespace Bridge

def Live (bridge : Bridge) : Prop :=
  bridge.terminal = none ∧ (bridge.point = .racing ∨ bridge.point.isCommitting = true)

def Over (bridge : Bridge) : Prop :=
  (bridge.terminal ≠ none ∨ bridge.point = .ended) ∧ bridge.point ≠ .racing ∧
    bridge.point.isCommitting = false

theorem Live.not_over {bridge : Bridge} (h : bridge.Live) : ¬ bridge.Over := by
  rintro ⟨-, hracing, hcommitting⟩
  rcases h.2 with hpoint | hpoint
  · exact hracing hpoint
  · simp [hpoint] at hcommitting

end Bridge

inductive Turns (bridge next : Bridge) : Prop
  | live (before : bridge.Live) (after : next.Live) (producers : next.producers = bridge.producers)
      (sends : next.sendClosed = bridge.sendClosed)
  | ends (before : bridge.Live) (after : next.Over)
  | rests (before : bridge.Over) (after : next.Over) (cause : next.terminal = bridge.terminal)

namespace Turns

variable {bridge next : Bridge}

section

variable (h : bridge.Live ∨ bridge.Over)

include h

theorem stay (hterminal : next.terminal = bridge.terminal) (hpoint : next.point = bridge.point)
    (hproducers : next.producers = bridge.producers)
    (hsends : next.sendClosed = bridge.sendClosed) : Turns bridge next := by
  rcases h with h | h
  · refine .live h ?_ hproducers hsends
    rw [Bridge.Live, hterminal, hpoint]
    exact h
  · refine .rests h ?_ hterminal
    rw [Bridge.Over, hterminal, hpoint]
    exact h

theorem offer (hracing : bridge.point = .racing) {offered : WsCloseCause}
    (hterminal : next.terminal = bridge.terminal) (hpoint : next.point = .committing offered)
    (hproducers : next.producers = bridge.producers)
    (hsends : next.sendClosed = bridge.sendClosed) : Turns bridge next := by
  have hlive : bridge.Live := h.resolve_right fun hover => hover.2.1 hracing
  refine .live hlive ⟨hterminal.trans hlive.1, .inr ?_⟩ hproducers hsends
  rw [hpoint]
  rfl

theorem proceed (hracing : bridge.point ≠ .racing) (hcommitting : bridge.point.isCommitting = false)
    (hended : bridge.point ≠ .ended) (hterminal : next.terminal = bridge.terminal)
    (hracing' : next.point ≠ .racing) (hcommitting' : next.point.isCommitting = false) :
    Turns bridge next := by
  have hover : bridge.Over := by
    refine h.resolve_left fun hlive => ?_
    rcases hlive.2 with hpoint | hpoint
    · exact hracing hpoint
    · simp [hpoint] at hcommitting
  have hfixed : bridge.terminal ≠ none := hover.1.resolve_right hended
  exact .rests hover ⟨.inl (hterminal ▸ hfixed), hracing', hcommitting'⟩ hterminal

theorem writeFailed (hwrites : bridge.point.writes = true)
    (hterminal : next.terminal = bridge.terminal) (hpoint : next.point = bridge.point)
    (hproducers : next.producers = bridge.producers)
    (hsends : next.sendClosed = bridge.sendClosed) : Turns bridge next.writeFailed := by
  unfold Bridge.writeFailed
  split
  next cause hcause =>
    rw [hpoint] at hcause
    exact proceed h (by simp [hcause]) (by simp [hcause, Point.isCommitting]) (by simp [hcause])
      hterminal (by simp) rfl
  next hnot =>
    have hracing : bridge.point = .racing := by
      cases hp : bridge.point <;> simp_all [Point.writes]
    exact offer h hracing hterminal rfl hproducers hsends

theorem takeMessage (hwrites : bridge.point.writes = true) : Turns bridge bridge.takeMessage := by
  unfold Bridge.takeMessage
  split
  · exact stay h rfl rfl rfl rfl
  · split
    next cause hcause =>
      exact proceed h (by simp [hcause]) (by simp [hcause, Point.isCommitting])
        (by simp [hcause]) rfl (by simp) rfl
    next hnot =>
      have hracing : bridge.point = .racing := by
        cases hp : bridge.point <;> simp_all [Point.writes]
      exact offer h hracing rfl rfl rfl rfl

theorem beginReceive : Turns bridge bridge.beginReceive := by
  unfold Bridge.beginReceive
  split
  · split
    · exact stay h rfl rfl rfl rfl
    · exact stay h rfl rfl rfl rfl
  · exact stay h rfl rfl rfl rfl

theorem answerReceive : Turns bridge bridge.answerReceive := by
  unfold Bridge.answerReceive
  split
  · exact stay h rfl rfl rfl rfl
  · exact stay h rfl rfl rfl rfl

theorem read (hracing : bridge.point = .racing) (item : Option WsFrameMessage) :
    Turns bridge (bridge.read item) := by
  unfold Bridge.read
  split
  · exact offer h hracing rfl rfl rfl rfl
  · exact offer h hracing rfl rfl rfl rfl
  · split
    · exact stay h rfl rfl rfl rfl
    · exact stay h rfl rfl rfl rfl

theorem admitFrame (hracing : bridge.point = .racing) : Turns bridge bridge.admitFrame := by
  unfold Bridge.admitFrame
  split
  · exact stay h rfl rfl rfl rfl
  · split
    · exact offer h hracing rfl rfl rfl rfl
    · exact stay h rfl rfl rfl rfl

theorem commit (hcommitting : bridge.point.isCommitting = true) (phase : Option StopPhase) :
    Turns bridge (bridge.commit phase) := by
  have hlive : bridge.Live := by
    refine h.resolve_right fun hover => ?_
    simp [hover.2.2] at hcommitting
  unfold Bridge.commit
  split
  · exact .ends hlive ⟨.inl (by simp), by simp, rfl⟩
  · exact stay h rfl rfl rfl rfl

theorem closeSends : Turns bridge bridge.closeSends := by
  unfold Bridge.closeSends
  split
  next cause hcause =>
    exact proceed h (by simp [hcause]) (by simp [hcause, Point.isCommitting]) (by simp [hcause])
      rfl (by simp) rfl
  next => exact stay h rfl rfl rfl rfl

theorem closeReceives : Turns bridge bridge.closeReceives := by
  unfold Bridge.closeReceives
  split
  next cause hcause =>
    exact proceed h (by simp [hcause]) (by simp [hcause, Point.isCommitting]) (by simp [hcause])
      rfl (by simp) rfl
  next => exact stay h rfl rfl rfl rfl

theorem settle : Turns bridge bridge.settle := by
  unfold Bridge.settle
  split
  next cause hcause =>
    have hcommitting : bridge.point.isCommitting = false := by rw [hcause]; rfl
    split
    · exact proceed h (by simp [hcause]) hcommitting (by simp [hcause]) rfl (by simp) rfl
    · exact proceed h (by simp [hcause]) hcommitting (by simp [hcause]) rfl (by simp) rfl
  next => exact stay h rfl rfl rfl rfl

theorem oweClose : Turns bridge bridge.oweClose := by
  unfold Bridge.oweClose
  split
  next cause hcause =>
    exact proceed h (by simp [hcause]) (by simp [hcause, Point.isCommitting]) (by simp [hcause])
      rfl (by simp) rfl
  next => exact stay h rfl rfl rfl rfl

theorem abort (hcut : bridge.point.isDraining = true ∨ bridge.point.isOwing = true) :
    Turns bridge bridge.abort := by
  have hpoint : bridge.point ≠ .racing ∧ bridge.point.isCommitting = false ∧
      bridge.point ≠ .ended := by
    cases hp : bridge.point <;>
      simp_all [Point.isDraining, Point.isOwing, Point.isCommitting]
  exact proceed h hpoint.1 hpoint.2.1 hpoint.2.2 rfl (by simp [Bridge.abort]) rfl

theorem taken (hterminal : next.terminal = bridge.terminal) (hpoint : next.point = .ended) :
    Turns bridge next := by
  have hover : next.Over := ⟨.inr hpoint, by simp [hpoint], by rw [hpoint]; rfl⟩
  rcases h with h | h
  · exact .ends h hover
  · exact .rests h hover hterminal

theorem act {action : Action} (hready : bridge.Ready action) :
    Turns bridge (bridge.act action) := by
  cases action with
  | cloneSender | dropSender | reserve | refuseSend | abandonReceive | dropReceiver
  | push | handOver | flushed => exact stay h rfl rfl rfl rfl
  | beginReceive => exact beginReceive h
  | answerReceive => exact answerReceive h
  | read item => exact read h hready.1 item
  | admitFrame => exact admitFrame h hready.1
  | takeMessage => exact takeMessage h hready.1
  | readyFailed | flushFailed | sendFailed => exact writeFailed h hready.1 rfl rfl rfl rfl
  | receiverLeft => exact offer h hready.1 rfl rfl rfl rfl
  | control mode => exact offer h hready rfl rfl rfl rfl
  | commit phase => exact commit h hready phase
  | closeSends => exact closeSends h
  | closeReceives => exact closeReceives h
  | settle => exact settle h
  | oweClose => exact oweClose h
  | abort => exact abort h hready
  | taken => exact taken h rfl rfl

end

theorem next_era (h : Turns bridge next) : next.Live ∨ next.Over := by
  cases h with
  | live _ after => exact .inl after
  | ends _ after => exact .inr after
  | rests _ after => exact .inr after

theorem committed_eq (h : Turns bridge next) (hover : bridge.Over) :
    next.committed = bridge.committed := by
  cases h with
  | live before => exact absurd hover before.not_over
  | ends before => exact absurd hover before.not_over
  | rests _ _ cause => rw [Bridge.committed, cause, Bridge.committed]

theorem of_live (h : Turns bridge next) (hlive : next.Live) :
    bridge.Live ∧ next.producers = bridge.producers ∧ next.sendClosed = bridge.sendClosed := by
  cases h with
  | live before _ producers sends => exact ⟨before, producers, sends⟩
  | ends _ after => exact absurd after hlive.not_over
  | rests _ after => exact absurd after hlive.not_over

end Turns

end Camber.WebSocket
