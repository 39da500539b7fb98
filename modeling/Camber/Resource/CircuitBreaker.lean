import Camber.Lib.Roster
import Camber.Lib.Transition

/-! A breaker keeps its state, its count of consecutive failures and the time it last opened in
three separate atomics. -/

namespace Camber.CircuitBreaker

open Transition

/-- The circuit states stored in the breaker's `AtomicU8`. -/
inductive Circuit where
  | closed
  | open
  | halfOpen
deriving DecidableEq

def defaultFailureThreshold : ℕ := 5

def defaultCooldown : ℕ := 30 * 10 ^ 9

def noTimestamp : ℕ := 2 ^ 64 - 1

structure Config where
  name : String
  failureThreshold : ℕ
  cooldown : ℕ

def wrap (name : String) : Config := ⟨name, defaultFailureThreshold, defaultCooldown⟩

def Config.setFailureThreshold (n : ℕ) (config : Config) : Config :=
  { config with failureThreshold := if n < 1 then 1 else n }

def Config.openError (config : Config) : String :=
  "circuit breaker open for resource: " ++ config.name

structure Shared where
  state : Circuit
  consecutiveFailures : ℕ
  lastOpenedNanos : ℕ
  now : ℕ

/-- Which of `health_check_closed` and `health_check_half_open` runs the inner check. -/
inductive Mode where
  | closed
  | halfOpen
deriving DecidableEq

/-- What a call of `health_check` does next. -/
inductive Call where
  | entering
  /-- `health_check_open`: load the time the circuit opened. -/
  | readingStamp
  | cooling (openedAt : ℕ)
  /-- The compare-exchange from `OPEN` to `HALF_OPEN`. -/
  | cooled
  | starting (mode : Mode)
  | inner (mode : Mode)
  | resetting (mode : Mode)
  /-- Store `CLOSED`. -/
  | closing
  /-- `record_failure`: load the count. -/
  | recording (error : String)
  | counting (error : String) (prev : ℕ)
  /-- `open_circuit`: read the clock. -/
  | stamping (error : String)
  | storing (error : String) (nanos : ℕ)
  /-- Store `OPEN`. -/
  | opening (error : String)
  | returned (result : Except String Unit)
deriving DecidableEq

namespace Call

def enter : Circuit → Call
  | .open => readingStamp
  | .halfOpen => starting .halfOpen
  | .closed => starting .closed

def answered : Mode → Except String Unit → Call
  | mode, .ok () => resetting mode
  | .closed, .error error => recording error
  | .halfOpen, .error error => stamping error

def step (config : Config) (shared : Shared) : Call → Option (Shared × Call)
  | entering => some (shared, enter shared.state)
  | readingStamp =>
    let openedAt :=
      if shared.lastOpenedNanos = noTimestamp then shared.now else shared.lastOpenedNanos
    some (shared, cooling openedAt)
  | cooling openedAt =>
    if config.cooldown ≤ shared.now - openedAt then some (shared, cooled)
    else some (shared, returned (.error config.openError))
  | cooled =>
    if shared.state = .open then some ({ shared with state := .halfOpen }, starting .halfOpen)
    else some (shared, returned (.error config.openError))
  | resetting .closed => some ({ shared with consecutiveFailures := 0 }, returned (.ok ()))
  | resetting .halfOpen => some ({ shared with consecutiveFailures := 0 }, closing)
  | closing => some ({ shared with state := .closed }, returned (.ok ()))
  | recording error =>
    if config.failureThreshold ≤ shared.consecutiveFailures then some (shared, stamping error)
    else some (shared, counting error shared.consecutiveFailures)
  | counting error prev =>
    if shared.consecutiveFailures = prev then
      some ({ shared with consecutiveFailures := prev + 1 },
        if config.failureThreshold ≤ prev + 1 then stamping error else returned (.error error))
    else some (shared, recording error)
  | stamping error => some (shared, storing error (shared.now % 2 ^ 64))
  | storing error nanos => some ({ shared with lastOpenedNanos := nanos }, opening error)
  | opening error => some ({ shared with state := .open }, returned (.error error))
  | starting _ | inner _ | returned _ => none

/-- Whether the call has not loaded the state, loaded it as `OPEN`, or is over: it neither probes
nor is about to write the state. -/
def standsBy : Call → Bool
  | entering | readingStamp | cooling _ | cooled | returned _ => true
  | _ => false

end Call

structure Breaker where
  shared : Shared
  calls : List Call

inductive Action where
  | tick (nanos : ℕ)
  /-- A new call of `health_check`. -/
  | call
  | step (caller : ℕ)
  | start (caller : ℕ)
  | answer (caller : ℕ) (result : Except String Unit)
deriving DecidableEq

namespace Breaker

def new : Breaker := ⟨⟨.closed, 0, noTimestamp, 0⟩, []⟩

def put (caller : ℕ) (call : Call) (breaker : Breaker) : Breaker :=
  { breaker with calls := breaker.calls.modify caller fun _ => call }

def next (config : Config) (breaker : Breaker) : Action → Option Breaker
  | .tick nanos =>
    some { breaker with shared := { breaker.shared with now := breaker.shared.now + nanos } }
  | .call => some { breaker with calls := breaker.calls ++ [.entering] }
  | .step caller =>
    match breaker.calls[caller]? with
    | some call => (call.step config breaker.shared).map fun (shared, after) =>
        { breaker.put caller after with shared := shared }
    | none => none
  | .start caller =>
    match breaker.calls[caller]? with
    | some (.starting mode) => some (breaker.put caller (.inner mode))
    | _ => none
  | .answer caller result =>
    match breaker.calls[caller]? with
    | some (.inner mode) => some (breaker.put caller (.answered mode result))
    | _ => none

def Ready (config : Config) (breaker : Breaker) (action : Action) : Prop :=
  (breaker.next config action).isSome = true

instance (config : Config) (breaker : Breaker) : DecidablePred (breaker.Ready config) := fun _ =>
  inferInstanceAs (Decidable (_ = true))

def act (config : Config) (action : Action) (breaker : Breaker) : Breaker :=
  (breaker.next config action).getD breaker

def Steps (config : Config) : Breaker → Action → Breaker → Prop :=
  Acts (Ready config) (act config)

theorem next_of_steps {config : Config} {breaker after : Breaker} {action : Action}
    (h : Steps config breaker action after) : breaker.next config action = some after := by
  obtain ⟨hready, rfl⟩ := h
  obtain ⟨after, hafter⟩ := Option.isSome_iff_exists.mp hready
  rw [act, hafter]
  rfl

inductive Does (config : Config) (breaker : Breaker) : Action → Breaker → Prop
  | tick (nanos : ℕ) : Does config breaker (.tick nanos)
      { breaker with shared := { breaker.shared with now := breaker.shared.now + nanos } }
  | call : Does config breaker .call { breaker with calls := breaker.calls ++ [.entering] }
  | step {caller : ℕ} {call after : Call} {shared : Shared}
      (hcall : breaker.calls[caller]? = some call)
      (hstep : call.step config breaker.shared = some (shared, after)) :
      Does config breaker (.step caller) { breaker.put caller after with shared := shared }
  | start {caller : ℕ} {mode : Mode} (hcall : breaker.calls[caller]? = some (.starting mode)) :
      Does config breaker (.start caller) (breaker.put caller (.inner mode))
  | answer {caller : ℕ} {mode : Mode} (result : Except String Unit)
      (hcall : breaker.calls[caller]? = some (.inner mode)) :
      Does config breaker (.answer caller result) (breaker.put caller (.answered mode result))

theorem does_of_steps {config : Config} {breaker after : Breaker} {action : Action}
    (h : Steps config breaker action after) : Does config breaker action after := by
  have hnext := next_of_steps h
  cases action with
  | tick nanos => cases hnext; exact .tick nanos
  | call => cases hnext; exact .call
  | step caller =>
    simp only [next] at hnext
    split at hnext
    next call hcall =>
      obtain ⟨⟨shared, left⟩, hstep, rfl⟩ := Option.map_eq_some_iff.mp hnext
      exact .step hcall hstep
    · cases hnext
  | start caller =>
    simp only [next] at hnext
    split at hnext
    next mode hcall => cases hnext; exact .start hcall
    · cases hnext
  | answer caller result =>
    simp only [next] at hnext
    split at hnext
    next mode hcall => cases hnext; exact .answer result hcall
    · cases hnext

end Breaker

end Camber.CircuitBreaker
