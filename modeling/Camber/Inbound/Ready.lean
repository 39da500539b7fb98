import Camber.Lib.Primitive

/-! The sources one inbound turn found ready, and the terminal it commits of them. -/

namespace Camber.Inbound

inductive InboundTerminal where
  | shutdownDeadline
  | forcedCancellation
  | routeBodyLimit
  | transferBytes
  | bodyIdle
  | transferIdle
  | transferTotal
  | requestTotal
  | disconnect
  | sourceFailure
  | responseHead
deriving DecidableEq

def InboundTerminal.debug : InboundTerminal → String
  | .shutdownDeadline => "ShutdownDeadline"
  | .forcedCancellation => "ForcedCancellation"
  | .routeBodyLimit => "RouteBodyLimit"
  | .transferBytes => "TransferBytes"
  | .bodyIdle => "BodyIdle"
  | .transferIdle => "TransferIdle"
  | .transferTotal => "TransferTotal"
  | .requestTotal => "RequestTotal"
  | .disconnect => "Disconnect"
  | .sourceFailure => "SourceFailure"
  | .responseHead => "ResponseHead"

/-- The inbound sources one turn observed as ready. -/
structure InboundReady where
  shutdownDeadline : Bool := false
  forcedCancellation : Bool := false
  routeBodyLimit : Bool := false
  transferBytes : Bool := false
  bodyIdle : Bool := false
  transferIdle : Bool := false
  transferTotal : Bool := false
  requestTotal : Bool := false
  disconnect : Bool := false
  sourceFailure : Bool := false
  responseHead : Bool := false

namespace InboundReady

def holds (ready : InboundReady) : InboundTerminal → Bool
  | .shutdownDeadline => ready.shutdownDeadline
  | .forcedCancellation => ready.forcedCancellation
  | .routeBodyLimit => ready.routeBodyLimit
  | .transferBytes => ready.transferBytes
  | .bodyIdle => ready.bodyIdle
  | .transferIdle => ready.transferIdle
  | .transferTotal => ready.transferTotal
  | .requestTotal => ready.requestTotal
  | .disconnect => ready.disconnect
  | .sourceFailure => ready.sourceFailure
  | .responseHead => ready.responseHead

def withLocal (ready : InboundReady) : InboundTerminal → InboundReady
  | .shutdownDeadline => { ready with shutdownDeadline := true }
  | .forcedCancellation => { ready with forcedCancellation := true }
  | .routeBodyLimit => { ready with routeBodyLimit := true }
  | .transferBytes => { ready with transferBytes := true }
  | .bodyIdle => { ready with bodyIdle := true }
  | .transferIdle => { ready with transferIdle := true }
  | .transferTotal => { ready with transferTotal := true }
  | .requestTotal => { ready with requestTotal := true }
  | .disconnect => { ready with disconnect := true }
  | .sourceFailure => { ready with sourceFailure := true }
  | .responseHead => { ready with responseHead := true }

def withTransferBytes (ready : InboundReady) : InboundReady := ready.withLocal .transferBytes

def withTransferIdle (ready : InboundReady) : InboundReady := ready.withLocal .transferIdle

def withTransferTotal (ready : InboundReady) : InboundReady := ready.withLocal .transferTotal

def withResponseHead (ready : InboundReady) : InboundReady := ready.withLocal .responseHead

def withSourceFailure (ready : InboundReady) : InboundReady := ready.withLocal .sourceFailure

def withRouteBodyLimit (ready : InboundReady) : InboundReady := ready.withLocal .routeBodyLimit

def ownRead : List InboundTerminal :=
  [.routeBodyLimit, .transferBytes, .disconnect, .sourceFailure, .responseHead]

def carried : List InboundTerminal :=
  [.shutdownDeadline, .forcedCancellation, .bodyIdle, .transferIdle, .transferTotal, .requestTotal]

def firstReady (ready : InboundReady) : Option InboundTerminal :=
  (ownRead ++ carried).find? ready.holds

@[simp] theorem holds_withLocal (ready : InboundReady) (t u : InboundTerminal) :
    (ready.withLocal t).holds u = (decide (u = t) || ready.holds u) := by
  cases t <;> cases u <;> rfl

theorem mem_order (t : InboundTerminal) : t ∈ ownRead ++ carried := by
  cases t <;> decide

theorem firstReady_holds {ready : InboundReady} {t : InboundTerminal}
    (h : ready.firstReady = some t) : ready.holds t = true :=
  List.find?_some h

theorem firstReady_eq_none {ready : InboundReady} :
    ready.firstReady = none ↔ ∀ t, ready.holds t = false := by
  rw [firstReady, List.find?_eq_none]
  constructor
  · intro h t
    simpa using h t (mem_order t)
  · intro h t _
    simp [h t]

/-- What stands before an idle body in the read order. -/
def beforeIdle : List InboundTerminal := ownRead ++ [.shutdownDeadline, .forcedCancellation]

theorem firstReady_eq_bodyIdle {ready : InboundReady} :
    ready.firstReady = some .bodyIdle ↔
      ready.holds .bodyIdle = true ∧ ∀ x ∈ beforeIdle, ready.holds x = false := by
  have horder : ownRead ++ carried =
      beforeIdle ++ .bodyIdle :: [.transferIdle, .transferTotal, .requestTotal] := rfl
  have hnone : beforeIdle.find? ready.holds = none ↔ ∀ x ∈ beforeIdle, ready.holds x = false := by
    simp [List.find?_eq_none]
  rw [firstReady, horder, List.find?_append, Option.or_eq_some_iff, hnone]
  constructor
  · rintro (hfound | ⟨hbefore, hfound⟩)
    · exact absurd (List.mem_of_find?_eq_some hfound) (by decide)
    · exact ⟨List.find?_some hfound, hbefore⟩
  · rintro ⟨hidle, hbefore⟩
    exact .inr ⟨hbefore, List.find?_cons_of_pos hidle⟩

end InboundReady

inductive ServerControl where
  | running
  | graceful
  | abort
deriving DecidableEq

structure Shared where
  control : Option ServerControl
  shutdown : ℕ
  terminating : Bool
  disconnected : Bool

/-- The inbound authority one payload owner holds. -/
structure InboundGuard where
  idle : Option ℕ
  total : Option ℕ
  shutdownDeadline : Option ℕ
  quietSince : ℕ
deriving DecidableEq

namespace InboundGuard

def frameDelivered (guard : InboundGuard) (delivered now : ℕ) : InboundGuard :=
  match delivered with
  | 0 => guard
  | _ + 1 => { guard with quietSince := now }

def controlState (guard : InboundGuard) (shared : Shared) : Option ServerControl × InboundGuard :=
  match shared.control, guard.shutdownDeadline with
  | some .graceful, none =>
    (some .graceful, { guard with shutdownDeadline := some shared.shutdown })
  | control, _ => (control, guard)

def reached (deadline : Option ℕ) (now : ℕ) : Bool := deadline.any fun instant => instant ≤ now

def elapsed (interval : Option ℕ) (since now : ℕ) : Bool :=
  interval.any fun length => length ≤ now - since

def observed (guard : InboundGuard) (shared : Shared) (now : ℕ) : InboundReady × InboundGuard :=
  let (control, guard) := guard.controlState shared
  ({ shutdownDeadline := reached guard.shutdownDeadline now
     forcedCancellation := control == some .abort
     bodyIdle := elapsed guard.idle guard.quietSince now
     requestTotal := reached guard.total now
     disconnect := shared.terminating || shared.disconnected }, guard)

variable {now : ℕ}

theorem elapsed_iff {interval : Option ℕ} {since : ℕ} :
    elapsed interval since now = true ↔ ∃ length, interval = some length ∧ length ≤ now - since := by
  cases interval <;> simp [elapsed]

theorem reached_iff {deadline : Option ℕ} :
    reached deadline now = true ↔ ∃ instant, deadline = some instant ∧ instant ≤ now := by
  cases deadline <;> simp [reached]

theorem controlState_eq (guard : InboundGuard) (shared : Shared) :
    guard.controlState shared = (shared.control,
      { guard with shutdownDeadline := (guard.controlState shared).2.shutdownDeadline }) := by
  rcases guard with ⟨idle, total, shutdownDeadline, quietSince⟩
  rcases shared with ⟨control, shutdown, terminating, disconnected⟩
  cases control with
  | none => rfl
  | some control => cases control <;> cases shutdownDeadline <;> rfl

@[simp] theorem observed_idle (guard : InboundGuard) (shared : Shared) (now : ℕ) :
    (guard.observed shared now).2.idle = guard.idle := by
  rw [observed, controlState_eq]

@[simp] theorem observed_quietSince (guard : InboundGuard) (shared : Shared) (now : ℕ) :
    (guard.observed shared now).2.quietSince = guard.quietSince := by
  rw [observed, controlState_eq]

theorem observed_bodyIdle (guard : InboundGuard) (shared : Shared) (now : ℕ) :
    (guard.observed shared now).1.bodyIdle = elapsed guard.idle guard.quietSince now := by
  rw [observed, controlState_eq]

theorem observed_ownRead (guard : InboundGuard) (shared : Shared) (now : ℕ) :
    ∀ x ∈ InboundReady.ownRead, (guard.observed shared now).1.holds x =
      (decide (x = .disconnect) && (shared.terminating || shared.disconnected)) := by
  rw [observed, controlState_eq]
  simp [InboundReady.ownRead, InboundReady.holds]

/-- The terminals a guard can report. -/
def reports : List InboundTerminal :=
  [.shutdownDeadline, .forcedCancellation, .bodyIdle, .requestTotal, .disconnect]

theorem mem_reports_of_observed {guard : InboundGuard} {shared : Shared} {t : InboundTerminal}
    (h : (guard.observed shared now).1.holds t = true) : t ∈ reports := by
  cases t <;> first | decide | cases h

end InboundGuard

end Camber.Inbound
