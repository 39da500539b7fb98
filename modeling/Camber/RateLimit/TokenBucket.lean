import Camber.Lib.Roster
import Camber.Lib.Transition

/-! Refill and acquire are compare-exchange loops, so the steps of concurrent calls interleave. -/

namespace Camber.RateLimit

open Transition

def u64Max : ℕ := 2 ^ 64 - 1

def saturatingMul (a b : ℕ) : ℕ := min (a * b) u64Max

def saturatingAdd (a b : ℕ) : ℕ := min (a + b) u64Max

def nowNs (clock : ℕ) : ℕ := min clock u64Max

structure Limits where
  rate : ℕ
  intervalNs : ℕ
  burst : ℕ
  rate_pos : 0 < rate
  interval_pos : 0 < intervalNs
  rate_le_burst : rate ≤ burst

structure RateLimitBuilder where
  tokens : ℕ
  interval : ℕ
  burst : Option ℕ

namespace RateLimitBuilder

def build (builder : RateLimitBuilder) : Except String Limits :=
  if htokens : builder.tokens = 0 then
    .error "rate_limit: tokens must be greater than 0"
  else if hinterval : builder.interval = 0 then
    .error "rate_limit: interval must be greater than zero"
  else if hburst : builder.burst.getD builder.tokens < builder.tokens then
    .error "rate_limit: burst must be >= tokens"
  else if builder.interval ≤ u64Max then
    .ok
      { rate := builder.tokens
        intervalNs := builder.interval
        burst := builder.burst.getD builder.tokens
        rate_pos := Nat.pos_of_ne_zero htokens
        interval_pos := Nat.pos_of_ne_zero hinterval
        rate_le_burst := Nat.le_of_not_lt hburst }
  else .error "rate_limit: interval exceeds the monotonic clock range"

end RateLimitBuilder

def builder : RateLimitBuilder := ⟨0, 10 ^ 9, none⟩

/-- Whole intervals of time claimed by one refill. -/
structure Window where
  start : ℕ
  intervals : ℕ
deriving DecidableEq

def Window.stop (limits : Limits) (window : Window) : ℕ :=
  window.start + window.intervals * limits.intervalNs

/-- What a call of `try_acquire` does next. -/
inductive Call where
  | entering
  | refilling (now : ℕ)
  | claiming (now last : ℕ)
  /-- `add_tokens`: load the tokens. -/
  | adding (window : Window)
  | crediting (window : Window) (current : ℕ)
  | acquiring
  | taking (current : ℕ)
  | returned (granted : Bool)
deriving DecidableEq

def Call.retry : Call → Option Call
  | .claiming now _ => some (.refilling now)
  | .crediting window _ => some (.adding window)
  | .taking _ => some .acquiring
  | _ => none

/-- The window a call has claimed and not yet added. -/
def Call.window : Call → List Window
  | .adding window | .crediting window _ => [window]
  | _ => []

def Call.Valid (now : ℕ) : Call → Prop
  | .refilling reading | .claiming reading _ => reading ≤ now
  | .taking current => 0 < current
  | _ => True

theorem Call.Valid.mono {now later : ℕ} {call : Call} (h : call.Valid now) (hle : now ≤ later) :
    call.Valid later := by
  cases call with
  | refilling reading | claiming reading last => exact le_trans h hle
  | taking current => exact h
  | entering | adding window | crediting window current | acquiring | returned granted =>
    exact trivial

/-- The bucket's atomics, the clock, the calls, and what came of them. -/
structure Bucket where
  tokens : ℕ
  lastRefillNs : ℕ
  clock : ℕ
  calls : List Call
  grants : ℕ
  credited : List Window

inductive Action where
  | tick (nanos : ℕ)
  /-- A new call of `try_acquire`. -/
  | call
  | step (caller : ℕ)
  | spurious (caller : ℕ)

namespace Bucket

def new (limits : Limits) (clock : ℕ) : Bucket := ⟨limits.burst, nowNs clock, clock, [], 0, []⟩

def put (caller : ℕ) (call : Call) (bucket : Bucket) : Bucket :=
  { bucket with calls := bucket.calls.modify caller fun _ => call }

section

variable (limits : Limits)

def intervalsSince (now last : ℕ) : ℕ := (now - last) / limits.intervalNs

/-- What the tokens become when a window's are added. -/
def refilled (window : Window) (current : ℕ) : ℕ :=
  min (saturatingAdd current (saturatingMul window.intervals limits.rate)) limits.burst

/-- The next atomic step of a call; a compare-exchange succeeds if the value is the expected. -/
def step (bucket : Bucket) (caller : ℕ) : Call → Option Bucket
  | .entering => some (bucket.put caller (.refilling (nowNs bucket.clock)))
  | .refilling now =>
    if intervalsSince limits now bucket.lastRefillNs = 0 then some (bucket.put caller .acquiring)
    else some (bucket.put caller (.claiming now bucket.lastRefillNs))
  | .claiming now last =>
    if bucket.lastRefillNs = last then
      let intervals := intervalsSince limits now last
      let advanced := saturatingMul intervals limits.intervalNs
      some { bucket.put caller (.adding ⟨last, intervals⟩) with
        lastRefillNs := saturatingAdd last advanced }
    else some (bucket.put caller (.refilling now))
  | .adding window => some (bucket.put caller (.crediting window bucket.tokens))
  | .crediting window current =>
    if bucket.tokens = current then
      some { bucket.put caller .acquiring with
        tokens := refilled limits window current
        credited := bucket.credited ++ [window] }
    else some (bucket.put caller (.adding window))
  | .acquiring =>
    if bucket.tokens = 0 then some (bucket.put caller (.returned false))
    else some (bucket.put caller (.taking bucket.tokens))
  | .taking current =>
    if bucket.tokens = current then
      some { bucket.put caller (.returned true) with
        tokens := current - 1
        grants := bucket.grants + 1 }
    else some (bucket.put caller .acquiring)
  | .returned _ => none

def next (bucket : Bucket) : Action → Option Bucket
  | .tick nanos => some { bucket with clock := bucket.clock + nanos }
  | .call => some { bucket with calls := bucket.calls ++ [.entering] }
  | .step caller => bucket.calls[caller]?.bind (bucket.step limits caller)
  | .spurious caller =>
    (bucket.calls[caller]?.bind Call.retry).map fun call => bucket.put caller call

def Ready (bucket : Bucket) (action : Action) : Prop := (bucket.next limits action).isSome = true

instance (bucket : Bucket) : DecidablePred (bucket.Ready limits) := fun _ =>
  inferInstanceAs (Decidable (_ = true))

def act (action : Action) (bucket : Bucket) : Bucket := (bucket.next limits action).getD bucket

def Steps : Bucket → Action → Bucket → Prop := Acts (Ready limits) (act limits)

def retryAfterSecs (bucket : Bucket) : ℕ :=
  let elapsed := nowNs bucket.clock - bucket.lastRefillNs
  let remaining := limits.intervalNs - elapsed % limits.intervalNs
  max ((remaining + (10 ^ 9 - 1)) / 10 ^ 9) 1

end

variable {limits : Limits}

variable {bucket after : Bucket}

theorem next_of_steps {action : Action} (h : Steps limits bucket action after) :
    bucket.next limits action = some after := by
  obtain ⟨hready, rfl⟩ := h
  obtain ⟨after, hafter⟩ := Option.isSome_iff_exists.mp hready
  rw [act, hafter]
  rfl

inductive Moves (limits : Limits) (bucket : Bucket) (caller : ℕ) : Call → Bucket → Prop
  | stay {call after : Call} (hwindow : after.window = call.window)
      (hvalid : call.Valid (nowNs bucket.clock) → after.Valid (nowNs bucket.clock)) :
      Moves limits bucket caller call (bucket.put caller after)
  | claim {now : ℕ} :
      Moves limits bucket caller (.claiming now bucket.lastRefillNs)
        { bucket.put caller
            (.adding ⟨bucket.lastRefillNs, intervalsSince limits now bucket.lastRefillNs⟩) with
          lastRefillNs := saturatingAdd bucket.lastRefillNs
            (saturatingMul (intervalsSince limits now bucket.lastRefillNs) limits.intervalNs) }
  | credit {window : Window} :
      Moves limits bucket caller (.crediting window bucket.tokens)
        { bucket.put caller .acquiring with
          tokens := refilled limits window bucket.tokens
          credited := bucket.credited ++ [window] }
  | grant :
      Moves limits bucket caller (.taking bucket.tokens)
        { bucket.put caller (.returned true) with
          tokens := bucket.tokens - 1
          grants := bucket.grants + 1 }

theorem moves_of_step {caller : ℕ} {call : Call} (h : bucket.step limits caller call = some after) :
    Moves limits bucket caller call after := by
  cases call with
  | entering =>
    cases h
    exact .stay rfl fun _ => le_refl (nowNs bucket.clock)
  | adding window =>
    cases h
    exact .stay rfl fun _ => trivial
  | refilling now =>
    simp only [step] at h
    split at h <;> cases h
    · exact .stay rfl fun _ => trivial
    · exact .stay rfl fun hvalid => hvalid
  | acquiring =>
    simp only [step] at h
    split at h <;> cases h
    · exact .stay rfl fun _ => trivial
    next htokens => exact .stay rfl fun _ => Nat.pos_of_ne_zero htokens
  | claiming now last =>
    simp only [step] at h
    split at h
    next hlast =>
      subst hlast
      cases h
      exact .claim
    · cases h
      exact .stay rfl fun hvalid => hvalid
  | crediting window current =>
    simp only [step] at h
    split at h
    next hcurrent =>
      subst hcurrent
      cases h
      exact .credit
    · cases h
      exact .stay rfl fun _ => trivial
  | taking current =>
    simp only [step] at h
    split at h
    next hcurrent =>
      subst hcurrent
      cases h
      exact .grant
    · cases h
      exact .stay rfl fun _ => trivial
  | returned granted => cases h

theorem moves_of_retry {caller : ℕ} {call again : Call} (h : call.retry = some again) :
    Moves limits bucket caller call (bucket.put caller again) := by
  cases call with
  | claiming now last =>
    cases h
    exact .stay rfl fun hvalid => hvalid
  | crediting window current | taking current =>
    cases h
    exact .stay rfl fun _ => trivial
  | entering | refilling now | adding window | acquiring | returned granted => cases h

theorem steps_cases {action : Action} (h : Steps limits bucket action after) :
    (∃ nanos, action = .tick nanos ∧ after = { bucket with clock := bucket.clock + nanos }) ∨
    (action = .call ∧ after = { bucket with calls := bucket.calls ++ [.entering] }) ∨
    (∃ caller call, action = .step caller ∧ bucket.calls[caller]? = some call ∧
      bucket.step limits caller call = some after) ∨
    ∃ caller call again, action = .spurious caller ∧ bucket.calls[caller]? = some call ∧
      call.retry = some again ∧ after = bucket.put caller again := by
  have hnext := next_of_steps h
  cases action with
  | tick nanos =>
    cases hnext
    exact .inl ⟨nanos, rfl, rfl⟩
  | call =>
    cases hnext
    exact .inr (.inl ⟨rfl, rfl⟩)
  | step caller =>
    obtain ⟨call, hcall, hstep⟩ := Option.bind_eq_some_iff.mp hnext
    exact .inr (.inr (.inl ⟨caller, call, rfl, hcall, hstep⟩))
  | spurious caller =>
    obtain ⟨again, hagain, rfl⟩ := Option.map_eq_some_iff.mp hnext
    obtain ⟨call, hcall, hretry⟩ := Option.bind_eq_some_iff.mp hagain
    exact .inr (.inr (.inr ⟨caller, call, again, rfl, hcall, hretry, rfl⟩))

end Bucket

end Camber.RateLimit
