import Camber.Basic
import Camber.Lib.Roster
import Camber.Lib.Transition

/-! A resource runs one callback at a time: a worker holds the gate from its claim to its release.
-/

namespace Camber.Resource

open Transition Roster

inductive ResourcePhase where
  | startupHealth
  | periodicHealth
  | shutdown
deriving DecidableEq

inductive ResourceFailureKind where
  | returned (cause : String)
  | panicked (message : String)
  | deadlineExceeded
  | lostWorker
  | blockedByActiveCallback
deriving DecidableEq

abbrev CallbackOutcome := Option ResourceFailureKind

def settled (outcome : CallbackOutcome) : ParticipantDisposition :=
  if outcome.isSome then .named else .completed

inductive Stage where
  /-- The gate has not answered: `try_claim`, or `claim_within` while it waits. -/
  | claiming
  /-- In `admit_worker`. -/
  | claimed
  | running
  | called (outcome : CallbackOutcome)
  | released (outcome : CallbackOutcome)
  | ended
deriving DecidableEq

def Stage.holds : Stage → Bool
  | .claimed | .running | .called _ => true
  | .claiming | .released _ | .ended => false

inductive Wait where
  | waiting
  | reported (outcome : CallbackOutcome)
  | dropped
deriving DecidableEq

/-- One call of `run_callback` or `run_callback_blocking`, with the claims it took and gave back and
the callbacks it started. -/
structure Visit where
  entry : ℕ
  phase : ResourcePhase
  stage : Stage := .claiming
  wait : Wait := .waiting
  takes : ℕ := 0
  releases : ℕ := 0
  starts : ℕ := 0

inductive Work where
  | claim
  | block
  | refuse
  | spawn
  | finish (outcome : CallbackOutcome)
  | release
  | deliver
  | expire
  | interrupt

def Visit.step (active : Bool) (v : Visit) : Work → Option (Bool × Visit)
  | .claim =>
    if v.stage = .claiming ∧ active = false then
      some (true, { v with stage := .claimed, takes := v.takes + 1 })
    else none
  | .block =>
    if v.stage = .claiming ∧ active = true then
      some (true, { v with stage := .ended, wait := .reported (some .blockedByActiveCallback) })
    else none
  | .refuse =>
    if v.stage = .claimed then
      some (false, { v with
        stage := .ended, wait := .reported (some .lostWorker), releases := v.releases + 1 })
    else none
  | .spawn =>
    if v.stage = .claimed then
      some (active, { v with stage := .running, starts := v.starts + 1 })
    else none
  | .finish outcome =>
    if v.stage = .running then some (active, { v with stage := .called outcome }) else none
  | .release =>
    match v.stage with
    | .called outcome =>
      some (false, { v with stage := .released outcome, releases := v.releases + 1 })
    | _ => none
  | .deliver =>
    match v.stage with
    | .released outcome =>
      some (active, { v with
        stage := .ended, wait := if v.wait = .waiting then .reported outcome else v.wait })
    | _ => none
  | .expire =>
    if 0 < v.starts ∧ v.wait = .waiting then
      some (active, { v with wait := .reported (some .deadlineExceeded) })
    else none
  | .interrupt =>
    if 0 < v.starts ∧ v.wait = .waiting ∧ v.phase = .periodicHealth then
      some (active, { v with wait := .dropped })
    else none

/-- The steps at which the claim is dropped: `drop(claim)` in `run_worker`, and the claim of a worker
that was not admitted. -/
def Visit.returns (v : Visit) (work : Work) : Bool :=
  match work, v.stage with
  | .release, .called _ | .refuse, .claimed => true
  | _, _ => false

def ResourcePhase.entry (size visited : ℕ) : ResourcePhase → Option ℕ
  | .startupHealth => if visited < size then some visited else none
  | .periodicHealth => if 0 < size then some (visited % size) else none
  | .shutdown => if visited < size then some (size - 1 - visited) else none

structure Passes where
  active : ℕ → Bool
  visits : List Visit

inductive Action where
  | visit (phase : ResourcePhase)
  | work (visit : ℕ) (work : Work)

namespace Passes

def new : Passes := ⟨fun _ => false, []⟩

def next (size : ℕ) (s : Passes) : Action → Option Passes
  | .visit phase =>
    if s.visits.any fun v => v.phase = phase && v.wait = .waiting then none
    else
      (phase.entry size (s.visits.countP (·.phase = phase))).map fun entry =>
        { s with visits := s.visits ++ [{ entry, phase }] }
  | .work i work => do
    let v ← s.visits[i]?
    let (flag, after) ← v.step (s.active v.entry) work
    some ⟨Function.update s.active v.entry flag, s.visits.modify i fun _ => after⟩

end Passes

def Visit.Sound (v : Visit) : Prop :=
  match v.stage with
  | .claiming => v.takes = 0 ∧ v.releases = 0 ∧ v.starts = 0 ∧ v.wait = .waiting
  | .claimed => v.takes = 1 ∧ v.releases = 0 ∧ v.starts = 0
  | .running | .called _ => v.takes = 1 ∧ v.releases = 0 ∧ v.starts = 1
  | .released _ => v.takes = 1 ∧ v.releases = 1 ∧ v.starts = 1
  | .ended =>
    v.takes = 1 ∧ v.releases = 1 ∧ v.starts ≤ 1 ∨
      v.takes = 0 ∧ v.releases = 0 ∧ v.starts = 0 ∧
        v.wait = .reported (some .blockedByActiveCallback)

theorem Visit.Sound.step {active flag : Bool} {v after : Visit} {work : Work} (h : v.Sound)
    (hheld : v.stage.holds = true → active = true)
    (hstep : v.step active work = some (flag, after)) :
    after.Sound ∧ after.entry = v.entry ∧ after.phase = v.phase ∧
      ((if after.stage.holds then 1 else 0) + (if active then 1 else 0) =
        (if v.stage.holds then 1 else 0) + if flag then 1 else 0) := by
  obtain ⟨entry, phase, stage, wait, takes, releases, starts⟩ := v
  cases work with
  | claim | block | refuse | spawn | finish outcome | expire | interrupt =>
    simp only [Visit.step] at hstep
    split at hstep
    next hready =>
      cases hstep
      cases stage <;> simp_all [Visit.Sound, Stage.holds]
    next => cases hstep
  | release =>
    cases stage with
    | called outcome =>
      cases hstep
      simp_all [Visit.Sound, Stage.holds]
    | _ => cases hstep
  | deliver =>
    cases stage with
    | released outcome =>
      cases hstep
      simp_all [Visit.Sound, Stage.holds]
    | _ => cases hstep

def holdsAt (entry : ℕ) (v : Visit) : Bool := v.stage.holds && v.entry == entry

def shutsDown (entry : ℕ) (v : Visit) : Bool := v.phase = .shutdown && v.entry == entry

structure Inv (size : ℕ) (s : Passes) : Prop where
  sound : ∀ v ∈ s.visits, v.Sound
  gate : ∀ entry, s.visits.countP (holdsAt entry) = if s.active entry then 1 else 0
  last : ∀ v ∈ s.visits, v.phase = .shutdown →
    size ≤ v.entry + s.visits.countP (·.phase = .shutdown)
  once : ∀ entry, s.visits.countP (shutsDown entry) ≤ 1

namespace Inv

variable {size : ℕ} {s next : Passes}

theorem visit (h : Inv size s) {phase : ResourcePhase} {entry : ℕ}
    (hentry : phase.entry size (s.visits.countP (·.phase = phase)) = some entry) :
    Inv size { s with visits := s.visits ++ [{ entry, phase }] } := by
  have hcount : (s.visits ++ [({ entry, phase } : Visit)]).countP (·.phase = .shutdown) = _ :=
    countP_join
  refine ⟨?_, ?_, ?_, ?_⟩
  · intro v hv
    rcases List.mem_append.mp hv with hv | hv
    · exact h.sound v hv
    · rw [List.mem_singleton.mp hv]
      exact ⟨rfl, rfl, rfl, rfl⟩
  · intro other
    rw [countP_join, ← h.gate other]
    rfl
  · intro v hv hphase
    rw [hcount]
    rcases List.mem_append.mp hv with hv | hv
    · have hlast := h.last v hv hphase
      omega
    · obtain rfl := List.mem_singleton.mp hv
      obtain rfl : phase = .shutdown := hphase
      simp only [ResourcePhase.entry] at hentry
      split at hentry
      · cases hentry
        simp only [decide_true, if_true]
        omega
      · cases hentry
  · intro other
    rw [countP_join]
    by_cases hnew : shutsDown other { entry, phase } = true
    · -- the pass has not come down to this resource yet
      have hnone : s.visits.countP (shutsDown other) = 0 := by
        rw [List.countP_eq_zero]
        intro v hv hdown
        simp only [shutsDown, Bool.and_eq_true, decide_eq_true_eq, beq_iff_eq] at hnew hdown
        obtain ⟨rfl, rfl⟩ := hnew
        have hlast := h.last v hv hdown.1
        simp only [ResourcePhase.entry] at hentry
        split at hentry
        · cases hentry
          omega
        · cases hentry
      rw [hnone, if_pos hnew]
    · rw [if_neg hnew]
      exact h.once other

theorem work (h : Inv size s) {i : ℕ} {v after : Visit} {flag : Bool} {work : Work}
    (hv : s.visits[i]? = some v) (hstep : v.step (s.active v.entry) work = some (flag, after)) :
    Inv size ⟨Function.update s.active v.entry flag, s.visits.modify i fun _ => after⟩ := by
  have hheld : v.stage.holds = true → s.active v.entry = true := by
    intro hholds
    have hpos := countP_pos_of_getElem? hv (p := holdsAt v.entry) (by simp [holdsAt, hholds])
    rw [h.gate] at hpos
    by_contra hinactive
    rw [if_neg hinactive] at hpos
    exact lt_irrefl 0 hpos
  obtain ⟨hsound, hentry, hphase, hflag⟩ :=
    (h.sound v (List.mem_of_getElem? hv)).step hheld hstep
  refine ⟨?_, ?_, ?_, ?_⟩
  · intro w hw
    obtain ⟨j, hj⟩ := List.mem_iff_getElem?.mp hw
    obtain ⟨old, hold, rfl⟩ := of_getElem?_modify hj
    split
    · exact hsound
    · exact h.sound old (List.mem_of_getElem? hold)
  · intro other
    have hmodify := countP_modify (p := holdsAt other) (f := fun _ => after) hv
    rw [h.gate other] at hmodify
    by_cases hsame : v.entry = other
    · subst hsame
      simp only [holdsAt, hentry, beq_self_eq_true, Bool.and_true] at hmodify
      simp only [Function.update_self]
      unfold holdsAt at hmodify ⊢
      linarith
    · have hold : holdsAt other v = false := by simp [holdsAt, hsame]
      have hnew : holdsAt other after = false := by simp [holdsAt, hentry, hsame]
      simp only [Function.update_of_ne (Ne.symm hsame)]
      simpa [hold, hnew] using hmodify
  · have hcount : (s.visits.modify i fun _ => after).countP (·.phase = .shutdown) =
        s.visits.countP (·.phase = .shutdown) := by
      apply countP_modify_same
      intro old hold
      obtain rfl := Option.some.inj (hv.symm.trans hold)
      rw [hphase]
    intro w hw hdown
    rw [hcount]
    obtain ⟨j, hj⟩ := List.mem_iff_getElem?.mp hw
    obtain ⟨old, hold, rfl⟩ := of_getElem?_modify hj
    split at hdown
    next hsame =>
      rw [hphase] at hdown
      rw [if_pos hsame, hentry]
      exact h.last v (List.mem_of_getElem? hv) hdown
    next hother =>
      rw [if_neg hother]
      exact h.last old (List.mem_of_getElem? hold) hdown
  · intro other
    refine le_of_eq_of_le (countP_modify_same ?_) (h.once other)
    intro old hold
    obtain rfl := Option.some.inj (hv.symm.trans hold)
    rw [shutsDown, hphase, hentry, shutsDown]

theorem step (h : Inv size s) {action : Action} (hnext : s.next size action = some next) :
    Inv size next := by
  cases action with
  | visit phase =>
    simp only [Passes.next] at hnext
    split at hnext
    · cases hnext
    · obtain ⟨entry, hentry, rfl⟩ := Option.map_eq_some_iff.mp hnext
      exact h.visit hentry
  | work i work =>
    obtain ⟨v, hv, hnext⟩ := Option.bind_eq_some_iff.mp hnext
    obtain ⟨⟨flag, after⟩, hstep, hnext⟩ := Option.bind_eq_some_iff.mp hnext
    cases hnext
    exact h.work hv hstep

end Inv

theorem Visit.Sound.returned {v : Visit} {work : Work} (h : v.Sound) (active : Bool)
    (hreturns : v.returns work = true) :
    ∃ after, v.step active work = some (false, after) ∧ after.takes = 1 ∧
      after.releases = after.takes := by
  obtain ⟨entry, phase, stage, wait, takes, releases, starts⟩ := v
  cases work with
  | release =>
    cases stage with
    | called outcome =>
      obtain ⟨rfl, rfl, rfl⟩ := h
      exact ⟨_, rfl, rfl, rfl⟩
    | _ => cases hreturns
  | refuse =>
    cases stage with
    | claimed =>
      obtain ⟨rfl, rfl, rfl⟩ := h
      exact ⟨_, rfl, rfl, rfl⟩
    | _ => cases hreturns
  | _ => cases hreturns

end Camber.Resource
