import Camber.Resource.HalfOpen

/-! Used by one caller at a time the breaker is the textbook one, as long as the clock fits the
stored word when the circuit opens. -/

namespace Camber.CircuitBreaker

open Transition Breaker Call

/-- The textbook breaker: closed with its count of consecutive failures, or open since a time. -/
inductive Textbook where
  | closed (failures : ℕ)
  | open (since : ℕ)

/-- What one call did: when it started and ended, its inner check's start and answer with the clock
readings at which they happened, and what it returned. -/
structure Seen where
  caller : ℕ
  startedAt : ℕ
  endedAt : ℕ
  probes : List (ℕ × Action)
  result : Except String Unit

namespace Textbook

/-- One inner check, started and answered at the two readings. -/
def probed (caller : ℕ) (times : ℕ × ℕ) (result : Except String Unit) : List (ℕ × Action) :=
  [(times.1, .start caller), (times.2, .answer caller result)]

/-- The calls of the textbook breaker. An open one answers for itself until the cooldown has passed,
and starts no check before; it opens, or opens again, after the check has failed. -/
inductive Takes (config : Config) : Textbook → Seen → Textbook → Prop
  | passed {n caller startedAt endedAt : ℕ} {times : ℕ × ℕ} :
      Takes config (.closed n)
        ⟨caller, startedAt, endedAt, probed caller times (.ok ()), .ok ()⟩ (.closed 0)
  | counted {n caller startedAt endedAt : ℕ} {times : ℕ × ℕ} {error : String}
      (hfew : n + 1 < config.failureThreshold) :
      Takes config (.closed n)
        ⟨caller, startedAt, endedAt, probed caller times (.error error), .error error⟩
        (.closed (n + 1))
  | opened {n caller startedAt endedAt stamp : ℕ} {times : ℕ × ℕ} {error : String}
      (hlast : n + 1 = config.failureThreshold) (hstart : times.2 ≤ stamp) (hend : stamp ≤ endedAt) :
      Takes config (.closed n)
        ⟨caller, startedAt, endedAt, probed caller times (.error error), .error error⟩ (.open stamp)
  | refused {since caller startedAt endedAt : ℕ} (hearly : startedAt < since + config.cooldown) :
      Takes config (.open since)
        ⟨caller, startedAt, endedAt, [], .error config.openError⟩ (.open since)
  | recovered {since caller startedAt endedAt : ℕ} {times : ℕ × ℕ}
      (hlate : since + config.cooldown ≤ times.1) :
      Takes config (.open since)
        ⟨caller, startedAt, endedAt, probed caller times (.ok ()), .ok ()⟩ (.closed 0)
  | reopened {since caller startedAt endedAt stamp : ℕ} {times : ℕ × ℕ} {error : String}
      (hlate : since + config.cooldown ≤ times.1) (hstart : times.2 ≤ stamp)
      (hend : stamp ≤ endedAt) :
      Takes config (.open since)
        ⟨caller, startedAt, endedAt, probed caller times (.error error), .error error⟩ (.open stamp)

variable {config : Config} {book after : Textbook} {caller startedAt endedAt : ℕ}
  {times : ℕ × ℕ} {probes : List (ℕ × Action)} {result : Except String Unit}

theorem Takes.later (h : Takes config book ⟨caller, startedAt, endedAt, probes, result⟩ after)
    (nanos : ℕ) :
    Takes config book ⟨caller, startedAt, endedAt + nanos, probes, result⟩ after := by
  cases h with
  | passed => exact .passed
  | counted hfew => exact .counted hfew
  | opened hlast hstart hend => exact .opened hlast hstart (by omega)
  | refused hearly => exact .refused hearly
  | recovered hlate => exact .recovered hlate
  | reopened hlate hstart hend => exact .reopened hlate hstart (by omega)

/-- The cooldown of an open breaker has passed at `now`. -/
def Late (config : Config) (book : Textbook) (now : ℕ) : Prop :=
  ∃ since, book = .open since ∧ since + config.cooldown ≤ now

/-- A check started at `now` opens the breaker when it fails. -/
def Opens (config : Config) (book : Textbook) (now : ℕ) : Prop :=
  (∃ n, book = .closed n ∧ n + 1 = config.failureThreshold) ∨ Late config book now

theorem Late.later {now : ℕ} (h : Late config book now) (nanos : ℕ) :
    Late config book (now + nanos) := by
  obtain ⟨since, hbook, hlate⟩ := h
  exact ⟨since, hbook, by omega⟩

theorem Opens.takes {stamp : ℕ} {error : String} (h : Opens config book times.1)
    (hstart : times.2 ≤ stamp) (hend : stamp ≤ endedAt) :
    Takes config book
      ⟨caller, startedAt, endedAt, probed caller times (.error error), .error error⟩
      (.open stamp) := by
  rcases h with ⟨n, rfl, hlast⟩ | ⟨since, rfl, hlate⟩
  · exact .opened hlast hstart hend
  · exact .reopened hlate hstart hend

end Textbook

/-- The atomics hold what the textbook breaker remembers. -/
def Represents (config : Config) (shared : Shared) : Textbook → Prop
  | .closed failures =>
    shared.state = .closed ∧ shared.consecutiveFailures = failures ∧
      failures < config.failureThreshold
  | .open since =>
    shared.state = .open ∧ shared.lastOpenedNanos = since ∧ since ≠ noTimestamp ∧
      since ≤ shared.now

theorem Represents.later {config : Config} {shared : Shared} {book : Textbook}
    (h : Represents config shared book) (nanos : ℕ) :
    Represents config { shared with now := shared.now + nanos } book := by
  cases book with
  | closed failures => exact h
  | «open» since => exact ⟨h.1, h.2.1, h.2.2.1, Nat.le_add_right_of_le h.2.2.2⟩

def Call.isOver : Call → Bool
  | .returned _ => true
  | _ => false

def Call.stamps : Call → Bool
  | .stamping _ => true
  | _ => false

/-- The most steps a call alone has to go until it returns. -/
def Call.left : Call → ℕ
  | .entering => 11
  | .readingStamp => 10
  | .cooling _ => 9
  | .cooled => 8
  | .starting _ => 7
  | .inner _ => 6
  | .recording _ => 5
  | .counting _ _ => 4
  | .stamping _ => 3
  | .storing _ _ | .resetting .halfOpen => 2
  | .opening _ | .closing | .resetting .closed => 1
  | .returned _ => 0

/-- What a call does next, where the inner check answers `result`. -/
def Call.due (caller : ℕ) (result : Except String Unit) : Call → Action
  | .starting _ => .start caller
  | .inner _ => .answer caller result
  | _ => .step caller

def Action.isOwn : Action → Bool
  | .tick _ => false
  | _ => true

/-- The starts and answers of inner checks in a trace. -/
def probesOf (trace : List (ℕ × Action)) : List (ℕ × Action) := trace.filter fun e => e.2.isProbe

/-- How many actions of a trace are not the clock's. -/
def ownSteps (trace : List (ℕ × Action)) : ℕ := trace.countP fun e => e.2.isOwn

theorem probesOf_snoc (trace : List (ℕ × Action)) (entry : ℕ × Action) :
    probesOf (trace ++ [entry]) = probesOf trace ++ if entry.2.isProbe then [entry] else [] := by
  rw [probesOf, List.filter_append]
  cases h : entry.2.isProbe <;> simp [probesOf, h]

theorem ownSteps_snoc (trace : List (ℕ × Action)) (entry : ℕ × Action) :
    ownSteps (trace ++ [entry]) = ownSteps trace + if entry.2.isOwn then 1 else 0 := by
  rw [ownSteps, List.countP_append, List.countP_singleton]
  rfl

/-- The clock still fits the stored word whenever the circuit opens. -/
def InRange (breaker : Breaker) : Action → Prop
  | .step caller =>
    breaker.calls[caller]?.any stamps = true → breaker.shared.now < noTimestamp
  | _ => True

instance (breaker : Breaker) : DecidablePred (InRange breaker)
  | .step _ => inferInstanceAs (Decidable (_ → _))
  | .tick _ | .call | .start _ | .answer _ _ => inferInstanceAs (Decidable True)

/-- The breaker `idle` later, when one more call of `health_check` has started. -/
def Breaker.entered (config : Config) (idle : ℕ) (breaker : Breaker) : Breaker :=
  act config .call (act config (.tick idle) breaker)

/-- An action during a call, with the clock reading it happens at: no further call starts. -/
def During (config : Config) (Meets : Breaker → Action → Prop) (breaker : Breaker)
    (entry : ℕ × Action) (after : Breaker) : Prop :=
  Acts (fun breaker (entry : ℕ × Action) => breaker.Ready config entry.2 ∧
      entry.1 = breaker.shared.now ∧ entry.2 ≠ .call ∧ Meets breaker entry.2)
    (fun entry => act config entry.2) breaker entry after

/-- One whole call, from a pause of any length before it to its return. -/
structure HealthCheck (config : Config) (Meets : Breaker → Action → Prop) (before : Breaker)
    (seen : Seen) (after : Breaker) : Prop where
  caller : seen.caller = before.calls.length
  run : ∃ idle trace, before.shared.now + idle = seen.startedAt ∧
    Runs (During config Meets) (before.entered config idle) trace after ∧
      probesOf trace = seen.probes
  result : after.calls[seen.caller]? = some (.returned seen.result)
  ended : after.shared.now = seen.endedAt

/-- A call in progress returns: it takes eleven steps of its own at most, and until it has returned
its next one can be taken, whatever its inner check answers. -/
structure Returning (config : Config) (caller : ℕ) (trace : List (ℕ × Action))
    (breaker : Breaker) : Prop where
  bounded : ownSteps trace ≤ 11
  ready : ∃ call, breaker.calls[caller]? = some call ∧
    (call.isOver = false → ∀ result, breaker.Ready config (call.due caller result))

section Inside

variable (config : Config) (book : Textbook) (caller startedAt : ℕ)

/-- What is known of the breaker when a call runs its check from `checkedAt` on. -/
def Fits (shared : Shared) (checkedAt : ℕ) : Mode → Prop
  | .closed => Represents config shared book ∧ ∃ n, book = .closed n
  | .halfOpen => book.Late config checkedAt

/-- Where a call stands that found the breaker representing `book`, by its probes so far. -/
def Stands (probes : List (ℕ × Action)) (shared : Shared) : Call → Prop
  | .entering => probes = [] ∧ Represents config shared book
  | .readingStamp => probes = [] ∧ Represents config shared book ∧ ∃ since, book = .open since
  | .cooling openedAt => probes = [] ∧ Represents config shared book ∧ book = .open openedAt
  | .cooled => probes = [] ∧ Represents config shared book ∧ book.Late config shared.now
  | .starting mode => probes = [] ∧ Fits config book shared shared.now mode
  | .inner mode =>
    ∃ checkedAt, probes = [(checkedAt, .start caller)] ∧ Fits config book shared checkedAt mode
  | .resetting mode =>
    ∃ times, probes = Textbook.probed caller times (.ok ()) ∧ Fits config book shared times.1 mode
  | .closing =>
    ∃ times, probes = Textbook.probed caller times (.ok ()) ∧ book.Late config times.1 ∧
      shared.consecutiveFailures = 0
  | .recording error =>
    ∃ times, probes = Textbook.probed caller times (.error error) ∧
      Fits config book shared times.1 .closed ∧ times.2 ≤ shared.now
  | .counting error prev =>
    ∃ times, probes = Textbook.probed caller times (.error error) ∧
      Fits config book shared times.1 .closed ∧ times.2 ≤ shared.now ∧
      shared.consecutiveFailures = prev
  | .stamping error =>
    ∃ times, probes = Textbook.probed caller times (.error error) ∧
      book.Opens config times.1 ∧ times.2 ≤ shared.now
  | .storing error nanos =>
    ∃ times, probes = Textbook.probed caller times (.error error) ∧
      book.Opens config times.1 ∧ times.2 ≤ nanos ∧ nanos ≤ shared.now ∧ nanos ≠ noTimestamp
  | .opening error =>
    ∃ times, probes = Textbook.probed caller times (.error error) ∧
      book.Opens config times.1 ∧ times.2 ≤ shared.lastOpenedNanos ∧
      shared.lastOpenedNanos ≤ shared.now ∧ shared.lastOpenedNanos ≠ noTimestamp
  | .returned result =>
    ∃ after, book.Takes config ⟨caller, startedAt, shared.now, probes, result⟩ after ∧
      Represents config shared after

/-- The state inside a call whose trace so far is `trace`. -/
structure Inside (trace : List (ℕ × Action)) (breaker : Breaker) : Prop where
  call : ∃ call, breaker.calls[caller]? = some call ∧
    Stands config book caller startedAt (probesOf trace) breaker.shared call ∧
    ownSteps trace + call.left ≤ 11
  others : ∀ other call, other ≠ caller → breaker.calls[other]? = some call →
    call.isOver = true
  clock : startedAt ≤ breaker.shared.now

end Inside

variable {config : Config} {book : Textbook} {caller startedAt : ℕ} {probes : List (ℕ × Action)}
  {trace : List (ℕ × Action)} {shared : Shared} {breaker : Breaker}

theorem Fits.later {mode : Mode} {checkedAt : ℕ} (h : Fits config book shared checkedAt mode)
    (nanos : ℕ) : Fits config book { shared with now := shared.now + nanos } checkedAt mode := by
  cases mode with
  | closed => exact ⟨h.1.later nanos, h.2⟩
  | halfOpen => exact h

theorem Stands.later {call : Call} (h : Stands config book caller startedAt probes shared call)
    (nanos : ℕ) :
    Stands config book caller startedAt probes { shared with now := shared.now + nanos } call := by
  cases call with
  | entering => exact ⟨h.1, h.2.later nanos⟩
  | readingStamp => exact ⟨h.1, h.2.1.later nanos, h.2.2⟩
  | cooling openedAt => exact ⟨h.1, h.2.1.later nanos, h.2.2⟩
  | cooled => exact ⟨h.1, h.2.1.later nanos, h.2.2.later nanos⟩
  | starting mode =>
    refine ⟨h.1, ?_⟩
    cases mode with
    | closed => exact Fits.later h.2 nanos
    | halfOpen => exact Textbook.Late.later h.2 nanos
  | inner mode | resetting mode =>
    obtain ⟨times, hprobes, hfits⟩ := h
    exact ⟨times, hprobes, hfits.later nanos⟩
  | closing => exact h
  | recording error =>
    obtain ⟨times, hprobes, hfits, hafter⟩ := h
    exact ⟨times, hprobes, hfits.later nanos, Nat.le_add_right_of_le hafter⟩
  | counting error prev =>
    obtain ⟨times, hprobes, hfits, hafter, hprev⟩ := h
    exact ⟨times, hprobes, hfits.later nanos, Nat.le_add_right_of_le hafter, hprev⟩
  | stamping error =>
    obtain ⟨times, hprobes, hopens, hafter⟩ := h
    exact ⟨times, hprobes, hopens, Nat.le_add_right_of_le hafter⟩
  | storing error stamp | opening error =>
    obtain ⟨times, hprobes, hopens, hafter, hend, hstamp⟩ := h
    exact ⟨times, hprobes, hopens, hafter, Nat.le_add_right_of_le hend, hstamp⟩
  | returned result =>
    obtain ⟨after, htakes, hrep⟩ := h
    exact ⟨after, htakes.later nanos, hrep.later nanos⟩

theorem Stands.entered (hprobes : probes = []) (h : Represents config shared book) :
    Stands config book caller startedAt probes shared (enter shared.state) ∧
      (enter shared.state).left < 11 := by
  cases book with
  | closed failures =>
    rw [h.1]
    exact ⟨⟨hprobes, h, failures, rfl⟩, by decide⟩
  | «open» since =>
    rw [h.1]
    exact ⟨⟨hprobes, h, since, rfl⟩, by decide⟩

theorem Stands.counted {error : String} {times : ℕ × ℕ}
    (hprobes : probes = Textbook.probed caller times (.error error))
    (hfits : Fits config book shared times.1 .closed) (hafter : times.2 ≤ shared.now) :
    let after : Call := if config.failureThreshold ≤ shared.consecutiveFailures + 1
      then .stamping error else .returned (.error error)
    Stands config book caller startedAt probes
      { shared with consecutiveFailures := shared.consecutiveFailures + 1 } after ∧
      after.left < 4 := by
  obtain ⟨hrep, n, rfl⟩ := hfits
  obtain ⟨hstate, hcount, hfew⟩ := hrep
  rw [hcount]
  by_cases hlast : config.failureThreshold ≤ n + 1
  · rw [if_pos hlast]
    exact ⟨⟨times, hprobes, .inl ⟨n, rfl, by omega⟩, hafter⟩, by simp [left]⟩
  · rw [if_neg hlast]
    refine ⟨⟨.closed (n + 1), ?_, hstate, rfl, by omega⟩, by simp [left]⟩
    rw [hprobes]
    exact .counted (by omega)

/-- A step of the call keeps what is known of it, and brings it nearer to its return. -/
theorem Stands.step {call after : Call} {next : Shared}
    (h : Stands config book caller startedAt probes shared call)
    (hthreshold : 1 ≤ config.failureThreshold) (hclock : startedAt ≤ shared.now)
    (hrange : call.stamps = true → shared.now < noTimestamp)
    (hstep : call.step config shared = some (next, after)) :
    (Stands config book caller startedAt probes next after ∧ after.left < call.left) ∧
      next.now = shared.now := by
  cases call with
  | entering =>
    cases hstep
    exact ⟨Stands.entered h.1 h.2, rfl⟩
  | readingStamp =>
    cases hstep
    obtain ⟨hprobes, hrep, since, rfl⟩ := h
    have hstamp : shared.lastOpenedNanos ≠ noTimestamp := by
      rw [hrep.2.1]
      exact hrep.2.2.1
    rw [if_neg hstamp]
    exact ⟨⟨⟨hprobes, hrep, congrArg Textbook.open hrep.2.1.symm⟩, by simp [left]⟩, rfl⟩
  | cooling openedAt =>
    obtain ⟨hprobes, hrep, rfl⟩ := h
    have hpast := hrep.2.2.2
    simp only [Call.step] at hstep
    split at hstep
    next hlate =>
      cases hstep
      exact ⟨⟨⟨hprobes, hrep, openedAt, rfl, by omega⟩, by simp [left]⟩, rfl⟩
    next hearly =>
      cases hstep
      refine ⟨⟨⟨.open openedAt, ?_, hrep⟩, by simp [left]⟩, rfl⟩
      rw [hprobes]
      exact .refused (by omega)
  | cooled =>
    obtain ⟨hprobes, hrep, since, rfl, hlate⟩ := h
    -- nobody else moves the state, so the compare-exchange succeeds
    simp only [Call.step, hrep.1, if_true] at hstep
    cases hstep
    exact ⟨⟨⟨hprobes, since, rfl, hlate⟩, by simp [left]⟩, rfl⟩
  | resetting mode =>
    obtain ⟨times, hprobes, hfits⟩ := h
    cases mode with
    | closed =>
      cases hstep
      obtain ⟨hrep, n, rfl⟩ := hfits
      refine ⟨⟨⟨.closed 0, ?_, hrep.1, rfl, Nat.zero_lt_of_lt hrep.2.2⟩, by simp [left]⟩, rfl⟩
      rw [hprobes]
      exact .passed
    | halfOpen =>
      cases hstep
      exact ⟨⟨⟨times, hprobes, hfits, rfl⟩, by simp [left]⟩, rfl⟩
  | closing =>
    cases hstep
    obtain ⟨times, hprobes, ⟨since, rfl, hlate⟩, hcount⟩ := h
    refine ⟨⟨⟨.closed 0, ?_, rfl, hcount, hthreshold⟩, by simp [left]⟩, rfl⟩
    rw [hprobes]
    exact .recovered hlate
  | recording error =>
    obtain ⟨times, hprobes, hfits, hafter⟩ := h
    have hfew : ¬ config.failureThreshold ≤ shared.consecutiveFailures := by
      obtain ⟨hrep, n, rfl⟩ := hfits
      rw [hrep.2.1]
      exact Nat.not_le_of_lt hrep.2.2
    simp only [Call.step, hfew, if_false] at hstep
    cases hstep
    exact ⟨⟨⟨times, hprobes, hfits, hafter, rfl⟩, by simp [left]⟩, rfl⟩
  | counting error prev =>
    obtain ⟨times, hprobes, hfits, hafter, rfl⟩ := h
    simp only [Call.step, if_true] at hstep
    cases hstep
    exact ⟨Stands.counted hprobes hfits hafter, rfl⟩
  | stamping error =>
    cases hstep
    obtain ⟨times, hprobes, hopens, hafter⟩ := h
    have hnow := hrange rfl
    unfold noTimestamp at hnow
    have hfit : shared.now % 2 ^ 64 = shared.now := Nat.mod_eq_of_lt (by omega)
    rw [hfit]
    refine ⟨⟨⟨times, hprobes, hopens, hafter, le_rfl, ?_⟩, by simp [left]⟩, rfl⟩
    unfold noTimestamp
    omega
  | storing error nanos =>
    cases hstep
    exact ⟨⟨h, by simp [left]⟩, rfl⟩
  | opening error =>
    cases hstep
    obtain ⟨times, hprobes, hopens, hstart, hend, hstamp⟩ := h
    refine ⟨⟨⟨.open shared.lastOpenedNanos, ?_, rfl, rfl, hstamp, hend⟩, by simp [left]⟩, rfl⟩
    rw [hprobes]
    exact hopens.takes hstart hend
  | starting mode | inner mode | returned result => cases hstep

theorem Call.step_isSome (caller : ℕ) {call : Call} (hwaits : call.due caller (.ok ()) = .step caller)
    (hover : call.isOver = false) : (call.step config shared).isSome = true := by
  cases call with
  | starting mode | inner mode => cases hwaits
  | returned result => cases hover
  | resetting mode => cases mode <;> rfl
  | cooling openedAt | cooled | recording error | counting error prev =>
    simp only [Call.step]
    split <;> rfl
  | entering | readingStamp | closing | stamping error | storing error nanos | opening error => rfl

theorem Breaker.ready_due {call : Call} (hcall : breaker.calls[caller]? = some call)
    (hover : call.isOver = false) (result : Except String Unit) :
    breaker.Ready config (call.due caller result) := by
  cases call with
  | starting mode | inner mode => simp [due, Ready, next, hcall]
  | returned result => cases hover
  | _ =>
    simp only [due, Ready, next, hcall, Option.isSome_map]
    exact step_isSome caller rfl hover

namespace Inside

theorem own {call : Call} (h : Inside config book caller startedAt trace breaker) {other : ℕ}
    (hcall : breaker.calls[other]? = some call) (hover : call.isOver = false) :
    other = caller ∧
      Stands config book caller startedAt (probesOf trace) breaker.shared call ∧
      ownSteps trace + call.left ≤ 11 := by
  have hsame : other = caller := by
    by_contra hne
    rw [h.others other call hne hcall] at hover
    cases hover
  subst hsame
  obtain ⟨found, hfound, hstands⟩ := h.call
  obtain rfl : call = found := Option.some.inj (hcall.symm.trans hfound)
  exact ⟨rfl, hstands⟩

theorem put (h : Inside config book caller startedAt trace breaker) {call : Call}
    {shared : Shared} {later : List (ℕ × Action)}
    (hstands : Stands config book caller startedAt (probesOf later) shared call)
    (hleft : ownSteps later + call.left ≤ 11)
    (hnow : shared.now = breaker.shared.now) :
    Inside config book caller startedAt later
      { breaker.put caller call with shared := shared } := by
  obtain ⟨found, hfound, _⟩ := h.call
  refine ⟨⟨call, Roster.getElem?_modify_self hfound, hstands, hleft⟩,
    fun other now hne hcall => ?_, ?_⟩
  · rw [Breaker.put, Roster.getElem?_modify_ne hne.symm] at hcall
    exact h.others other now hne hcall
  · exact hnow ▸ h.clock

theorem step {action : Action} {after : Breaker} (hthreshold : 1 ≤ config.failureThreshold)
    (h : Inside config book caller startedAt trace breaker)
    (hdoes : Does config breaker action after) (hcall : action ≠ .call)
    (hrange : InRange breaker action) :
    Inside config book caller startedAt (trace ++ [(breaker.shared.now, action)]) after := by
  cases hdoes with
  | tick nanos =>
    obtain ⟨call, hfound, hstands, hleft⟩ := h.call
    refine ⟨⟨call, hfound, ?_, ?_⟩, h.others, Nat.le_add_right_of_le h.clock⟩
    · rw [probesOf_snoc, if_neg (by simp [Action.isProbe]), List.append_nil]
      exact hstands.later nanos
    · rw [ownSteps_snoc, if_neg (by simp [Action.isOwn])]
      exact hleft
  | call => exact absurd rfl hcall
  | @step other call after shared hfound hstep =>
    have hover : call.isOver = false := by
      cases call with
      | returned result => cases hstep
      | _ => rfl
    obtain ⟨rfl, hstands, hleft⟩ := h.own hfound hover
    have hstamps : call.stamps = true → breaker.shared.now < noTimestamp := by
      intro hcall
      apply hrange
      rw [hfound]
      exact hcall
    obtain ⟨⟨hstands', hnearer⟩, hnow⟩ := hstands.step hthreshold h.clock hstamps hstep
    refine h.put ?_ ?_ hnow
    · rw [probesOf_snoc, if_neg (by simp [Action.isProbe]), List.append_nil]
      exact hstands'
    · simp only [ownSteps_snoc, Action.isOwn, if_true]
      omega
  | @start other mode hfound =>
    obtain ⟨rfl, ⟨hnone, hfits⟩, hleft⟩ := h.own hfound rfl
    refine h.put ⟨breaker.shared.now, ?_, hfits⟩ ?_ rfl
    · rw [probesOf_snoc, hnone]
      rfl
    · simp only [ownSteps_snoc, Action.isOwn, if_true, left] at hleft ⊢
      omega
  | @answer other mode result hfound =>
    obtain ⟨rfl, ⟨checkedAt, hstart, hfits⟩, hleft⟩ := h.own hfound rfl
    have hprobed : probesOf (trace ++ [(breaker.shared.now, Action.answer other result)]) =
        Textbook.probed other (checkedAt, breaker.shared.now) result := by
      rw [probesOf_snoc, hstart]
      rfl
    have hsteps : ∀ call : Call, call.left ≤ 5 →
        ownSteps (trace ++ [(breaker.shared.now, Action.answer other result)]) + call.left ≤ 11 := by
      intro call hcall
      have hinner : ownSteps trace + 6 ≤ 11 := hleft
      simp only [ownSteps_snoc, Action.isOwn, if_true]
      omega
    cases result with
    | ok value =>
      refine h.put ⟨_, hprobed, hfits⟩ (hsteps _ ?_) rfl
      cases mode <;> simp [answered, left]
    | error error =>
      cases mode with
      | closed => exact h.put ⟨_, hprobed, hfits, le_rfl⟩ (hsteps _ le_rfl) rfl
      | halfOpen =>
        refine h.put ⟨_, hprobed, .inr hfits, le_rfl⟩ (hsteps (.stamping error) ?_) rfl
        simp [left]

theorem run {start : Breaker} (hthreshold : 1 ≤ config.failureThreshold)
    (hstart : Inside config book caller startedAt [] start)
    (run : Runs (During config InRange) start trace breaker) :
    Inside config book caller startedAt trace breaker := by
  refine run.invariant hstart fun {trace state label next} _ h step => ?_
  obtain ⟨reading, action⟩ := label
  obtain ⟨⟨hready, rfl, hcall, hrange⟩, hnext⟩ := step
  exact h.step hthreshold (does_of_steps ⟨hready, hnext⟩) hcall hrange

theorem returning (h : Inside config book caller startedAt trace breaker) :
    Returning config caller trace breaker := by
  obtain ⟨call, hcall, -, hleft⟩ := h.call
  exact ⟨by omega, call, hcall, fun hover result => ready_due hcall hover result⟩

end Inside

/-- No call is in progress, and the atomics hold what `book` says. -/
structure Rests (config : Config) (book : Textbook) (breaker : Breaker) : Prop where
  represents : Represents config breaker.shared book
  ended : ∀ call ∈ breaker.calls, call.isOver = true

theorem Rests.entered (h : Rests config book breaker) (idle : ℕ) :
    Inside config book breaker.calls.length (breaker.shared.now + idle) []
      (breaker.entered config idle) := by
  refine ⟨⟨.entering, Roster.getElem?_join_length, ⟨rfl, h.represents.later idle⟩, le_rfl⟩,
    fun other call hne hcall => ?_, le_rfl⟩
  rcases Roster.of_getElem?_join hcall with hold | ⟨hlast, _⟩
  · exact h.ended call (List.mem_of_getElem? hold)
  · exact absurd hlast hne

theorem Rests.healthCheck {seen : Seen} {after : Breaker}
    (hthreshold : 1 ≤ config.failureThreshold) (h : Rests config book breaker)
    (hcheck : HealthCheck config InRange breaker seen after) :
    ∃ next, book.Takes config seen next ∧ Rests config next after := by
  obtain ⟨caller, startedAt, endedAt, probes, result⟩ := seen
  obtain ⟨rfl, ⟨idle, trace, rfl, run, rfl⟩, hresult, rfl⟩ := hcheck
  have hinside := (h.entered idle).run hthreshold run
  obtain ⟨call, hcall, hstands, -⟩ := hinside.call
  obtain rfl : call = .returned result := Option.some.inj (hcall.symm.trans hresult)
  obtain ⟨next, htakes, hrep⟩ := hstands
  refine ⟨next, htakes, hrep, fun call hmem => ?_⟩
  obtain ⟨other, hother⟩ := List.mem_iff_getElem?.mp hmem
  by_cases hsame : other = breaker.calls.length
  · subst hsame
    obtain rfl : call = .returned result := Option.some.inj (hother.symm.trans hresult)
    rfl
  · exact hinside.others other call hsame hother

/-- Calls that do not overlap take the textbook breaker from state to state, between them the
atomics hold what it remembers, and every call started after them returns. -/
theorem sequential_textbook {calls : List Seen} (hthreshold : 1 ≤ config.failureThreshold)
    (run : Runs (HealthCheck config InRange) Breaker.new calls breaker) :
    (∃ book, Runs (Textbook.Takes config) (.closed 0) calls book ∧
      Represents config breaker.shared book) ∧
    ∀ idle trace during, Runs (During config InRange) (breaker.entered config idle) trace during →
      Returning config breaker.calls.length trace during := by
  have hrests : ∃ book, Runs (Textbook.Takes config) (.closed 0) calls book ∧
      Rests config book breaker := by
    induction run with
    | nil => exact ⟨.closed 0, .nil, ⟨rfl, rfl, hthreshold⟩, fun call hcall => by cases hcall⟩
    | snoc _ hcheck ih =>
      obtain ⟨book, hbook, hrests⟩ := ih
      obtain ⟨next, htakes, hnext⟩ := hrests.healthCheck hthreshold hcheck
      exact ⟨next, hbook.snoc htakes, hnext⟩
  obtain ⟨book, hbook, hrests⟩ := hrests
  refine ⟨⟨book, hbook, hrests.represents⟩, fun idle trace during hduring => ?_⟩
  exact ((hrests.entered idle).run hthreshold hduring).returning

/-- The steps of a call at one clock reading: its check fails, and the first failure opens. -/
def failing (caller now : ℕ) : List (ℕ × Action) :=
  ([.step caller, .start caller, .answer caller (.error "down")] ++
    .replicate 5 (.step caller)).map fun action => (now, action)

def recovering (caller now : ℕ) : List (ℕ × Action) :=
  (.replicate 4 (.step caller) ++ [.start caller, .answer caller (.ok ())] ++
    .replicate 2 (.step caller)).map fun action => (now, action)

def checked (idle : ℕ) (trace : List (ℕ × Action)) (breaker : Breaker) : Breaker :=
  replay (fun entry => act sampleConfig entry.2) (breaker.entered sampleConfig idle) trace

theorem healthCheck_checked {Meets : Breaker → Action → Prop} {seen : Seen} {idle : ℕ}
    (hcaller : seen.caller = breaker.calls.length)
    (hstart : breaker.shared.now + idle = seen.startedAt)
    (hready : ReadyAll (fun breaker (entry : ℕ × Action) => breaker.Ready sampleConfig entry.2 ∧
        entry.1 = breaker.shared.now ∧ entry.2 ≠ .call ∧ Meets breaker entry.2)
      (fun entry => act sampleConfig entry.2) (breaker.entered sampleConfig idle) trace)
    (hprobes : probesOf trace = seen.probes)
    (hresult : (checked idle trace breaker).calls[seen.caller]? = some (.returned seen.result))
    (hended : (checked idle trace breaker).shared.now = seen.endedAt) :
    HealthCheck sampleConfig Meets breaker seen (checked idle trace breaker) :=
  ⟨hcaller, ⟨idle, trace, hstart, runs_replay hready, hprobes⟩, hresult, hended⟩

def failed (idle : ℕ) : Breaker := checked idle (failing 0 idle) .new

def recovered (idle after : ℕ) : Breaker :=
  checked after (recovering 1 (idle + after)) (failed idle)

def seenFailed (now : ℕ) : Seen :=
  ⟨0, now, now, Textbook.probed 0 (now, now) (.error "down"), .error "down"⟩

def seenRecovered (now : ℕ) : Seen := ⟨1, now, now, Textbook.probed 1 (now, now) (.ok ()), .ok ()⟩

theorem sequential_textbook_recovered :
    ∃ book, Runs (Textbook.Takes sampleConfig) (.closed 0)
        [seenFailed 7, seenRecovered (7 + 30 * 10 ^ 9)] book ∧
      Represents sampleConfig (recovered 7 (30 * 10 ^ 9)).shared book := by
  have hfailed : HealthCheck sampleConfig InRange Breaker.new (seenFailed 7) (failed 7) := by
    apply healthCheck_checked <;> decide
  have hrecovered : HealthCheck sampleConfig InRange (failed 7)
      (seenRecovered (7 + 30 * 10 ^ 9)) (recovered 7 (30 * 10 ^ 9)) := by
    apply healthCheck_checked <;> decide +kernel
  exact (sequential_textbook (by decide) ((Runs.nil.snoc hfailed).snoc hrecovered)).1

/-- A circuit that opens once the clock has passed the stored word runs an inner check at once. -/
theorem check_before_cooldown :
    Runs (HealthCheck sampleConfig fun _ _ => True) Breaker.new
        [seenFailed (2 ^ 64), seenRecovered (2 ^ 64)] (recovered (2 ^ 64) 0) ∧
      ¬ ∃ book, Runs (Textbook.Takes sampleConfig) (.closed 0)
        [seenFailed (2 ^ 64), seenRecovered (2 ^ 64)] book := by
  have hfailed : HealthCheck sampleConfig (fun _ _ => True) Breaker.new (seenFailed (2 ^ 64))
      (failed (2 ^ 64)) := by
    apply healthCheck_checked <;> decide
  have hrecovered : HealthCheck sampleConfig (fun _ _ => True) (failed (2 ^ 64))
      (seenRecovered (2 ^ 64)) (recovered (2 ^ 64) 0) := by
    apply healthCheck_checked <;> decide
  refine ⟨(Runs.nil.snoc hfailed).snoc hrecovered, ?_⟩
  rintro ⟨book, hbook⟩
  obtain ⟨mid, hfirst, hsecond⟩ := Runs.pair_iff.mp hbook
  -- the first failure opens the circuit at the clock of the second call
  generalize hseen : seenFailed (2 ^ 64) = seen at hfirst
  generalize hlater : seenRecovered (2 ^ 64) = later at hsecond
  cases hfirst with
  | passed => simp [seenFailed] at hseen
  | counted hfew => exact absurd hfew (by decide)
  | opened hlast hstart hend =>
    cases hsecond with
    | refused | reopened => simp [seenRecovered] at hlater
    | recovered hlate =>
      have hcooldown : 0 < sampleConfig.cooldown := by decide
      simp only [seenFailed, seenRecovered, Textbook.probed, Seen.mk.injEq, List.cons.injEq,
        Prod.mk.injEq] at hseen hlater
      omega

end Camber.CircuitBreaker
