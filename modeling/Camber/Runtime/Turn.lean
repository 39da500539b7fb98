import Camber.Basic
import Camber.Lib.Roster
import Camber.Lib.Transition

/-! A turn admits callers to a resource through a semaphore, and counts those that wait for it. The
semaphore is left open: a poll of one of its futures comes with the answer, whatever it is. -/

namespace Camber.Runtime

open Transition

inductive TurnRefused where
  | deadline
  | cancelled
  | closed

namespace Turn

inductive Refusal where
  | refused (refusal : TurnRefused)
  | noRuntime

/-- What a poll of the semaphore's future answers: nothing yet, a permit, or that it is closed. -/
abbrev Answer := Option (Except Unit Unit)

/-- Not polled yet; between the semaphore's answer and the `TurnWait` of the same poll; between two
polls; told a refusal; with the guard in hand; dropped. -/
inductive Stage where
  | created
  | polled (answer : Answer)
  | waiting
  | refused (refusal : Refusal)
  | holding
  | over

/-- A call of `acquire`, or of `acquire_until` with `bounded` its deadline argument. `registered` is
the flag of its `TurnWait`. -/
structure Acquisition where
  bounded : Option (Option ℕ)
  stage : Stage
  registered : Bool

inductive Action where
  | call (bounded : Option (Option ℕ))
  | poll (i : ℕ) (cancelled : Bool) (now : ℕ) (answer : Answer)
  | settle (i : ℕ) (timer : Option (Except Refusal Unit))
  | drop (i : ℕ)
  | release (i : ℕ)

end Turn

/-- A turn beside every acquisition started on it. -/
structure Turn where
  queued : ℕ
  acquisitions : List Turn.Acquisition

namespace Turn

def readyRefusal (cancelled : Bool) (now : ℕ) (deadline : Option ℕ) : Option TurnRefused :=
  if cancelled then some .cancelled
  else (deadline.filter fun expiry => decide (expiry ≤ now)).map fun _ => .deadline

namespace Acquisition

/-- A poll of `acquire_until`, or of `acquire`, which has no refusal of its own. -/
def poll (a : Acquisition) (cancelled : Bool) (now : ℕ) (answer : Answer) : Acquisition :=
  match a.bounded.bind (readyRefusal cancelled now) with
  | some refusal => { a with stage := .refused (.refused refusal) }
  | none => { a with stage := .polled answer }

/-- A poll that stays pending registers, and `poll_grant` polls the timer of the deadline. -/
def wait (a : Acquisition) (timer : Option (Except Refusal Unit)) : Acquisition :=
  { a with
    registered := true
    stage :=
      match a.bounded.join, timer with
      | some _, some (.ok ()) => .refused (.refused .deadline)
      | some _, some (.error refusal) => .refused refusal
      | _, _ => .waiting }

/-- The end of a `TurnWait`, by its `finish` or its destructor. -/
def finish (a : Acquisition) (stage : Stage) : Acquisition := { a with stage, registered := false }

/-- What an acquisition becomes by a step of its own. -/
def next (a : Acquisition) : Action → Option Acquisition
  | .call _ => none
  | .poll _ cancelled now answer =>
    match a.stage with
    | .created | .waiting => some (a.poll cancelled now answer)
    | _ => none
  | .settle _ timer =>
    match a.stage with
    | .polled none => some (a.wait timer)
    | .polled (some (.ok ())) => some (a.finish .holding)
    | .polled (some (.error ())) => some (a.finish (.refused (.refused .closed)))
    | _ => none
  | .drop _ =>
    match a.stage with
    | .created | .waiting | .refused _ => some (a.finish .over)
    | _ => none
  | .release _ =>
    match a.stage with
    | .holding => some { a with stage := .over }
    | _ => none

end Acquisition

/-- The counter is changed where a `TurnWait` changes its flag. -/
def count (before after : Acquisition) (queued : ℕ) : ℕ :=
  match before.registered, after.registered with
  | false, true => queued + 1
  | true, false => queued - 1
  | _, _ => queued

def own (turn : Turn) (i : ℕ) (action : Action) : Option Turn := do
  let a ← turn.acquisitions[i]?
  let b ← a.next action
  some ⟨count a b turn.queued, turn.acquisitions.modify i fun _ => b⟩

def next (turn : Turn) : Action → Option Turn
  | .call bounded =>
    some { turn with acquisitions := turn.acquisitions ++ [⟨bounded, .created, false⟩] }
  | .poll i cancelled now answer => turn.own i (.poll i cancelled now answer)
  | .settle i timer => turn.own i (.settle i timer)
  | .drop i => turn.own i (.drop i)
  | .release i => turn.own i (.release i)

def Step (turn : Turn) (action : Action) (after : Turn) : Prop := turn.next action = some after

/-- What a future's `TurnWait` keeps: a suspended one counts, and one that was not polled, that
delivered its guard or that was dropped does not. -/
structure Acquisition.Sound (a : Acquisition) : Prop where
  waiting : a.stage = .waiting → a.registered = true
  outside : a.stage = .created ∨ a.stage = .holding ∨ a.stage = .over → a.registered = false

theorem Acquisition.Sound.next {a b : Acquisition} {action : Action} (h : a.Sound)
    (hnext : a.next action = some b) : b.Sound := by
  unfold Acquisition.next at hnext
  split at hnext
  · cases hnext
  · -- a poll leaves the flag to the rest of it
    split at hnext <;> cases hnext <;> unfold poll <;> split <;> exact ⟨nofun, by simp⟩
  · split at hnext <;> cases hnext
    · refine ⟨fun _ => rfl, ?_⟩
      unfold wait
      dsimp only
      split <;> simp
    · exact ⟨nofun, fun _ => rfl⟩
    · exact ⟨nofun, fun _ => rfl⟩
  · split at hnext <;> cases hnext <;> exact ⟨nofun, fun _ => rfl⟩
  · split at hnext <;> cases hnext
    next hholding => exact ⟨nofun, fun _ => h.outside (.inr (.inl hholding))⟩

structure Inv (turn : Turn) : Prop where
  sound : ∀ a ∈ turn.acquisitions, a.Sound
  counted : turn.queued = turn.acquisitions.countP (·.registered)

variable {turn after : Turn} {action : Action}

namespace Inv

theorem call (h : Inv turn) (bounded : Option (Option ℕ)) :
    Inv { turn with acquisitions := turn.acquisitions ++ [⟨bounded, .created, false⟩] } := by
  refine ⟨fun a ha => ?_, ?_⟩
  · rcases List.mem_append.mp ha with ha | ha
    · exact h.sound a ha
    · rw [List.mem_singleton.mp ha]
      exact ⟨nofun, fun _ => rfl⟩
  · rw [Roster.countP_join]
    exact h.counted

theorem own (h : Inv turn) {i : ℕ} (hstep : turn.own i action = some after) : Inv after := by
  obtain ⟨a, ha, hstep⟩ := Option.bind_eq_some_iff.mp hstep
  obtain ⟨b, hb, ⟨⟩⟩ := Option.bind_eq_some_iff.mp hstep
  refine ⟨fun d hd => ?_, ?_⟩
  · obtain ⟨j, hj⟩ := List.mem_iff_getElem?.mp hd
    rcases Roster.modify_cases ha hj with ⟨-, rfl⟩ | ⟨-, hd⟩
    · exact (h.sound a (List.mem_of_getElem? ha)).next hb
    · exact h.sound d (List.mem_of_getElem? hd)
  · -- a registered acquisition is among those counted, so that no subtraction stops at zero
    have hpos := Roster.countP_pos_of_getElem? (p := (·.registered)) ha
    have hmodify := Roster.countP_modify (p := (·.registered)) (f := fun _ => b) ha
    rw [← h.counted] at hpos hmodify
    cases hwas : a.registered <;> cases his : b.registered <;> simp_all [count]
    omega

theorem step (h : Inv turn) (hstep : turn.Step action after) : Inv after := by
  cases action with
  | call bounded =>
    cases hstep
    exact h.call bounded
  | poll | settle | drop | release => exact h.own hstep

end Inv

end Turn

end Camber.Runtime
