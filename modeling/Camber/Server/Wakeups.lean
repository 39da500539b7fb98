import Camber.Server.Supervisor

/-! A committed stop is in a call, in the control watch, or before the supervisor's next read. -/

namespace Camber.Server
open ServerStopState StopPhase Point

open Inbound (ServerControl)
open Transition

def StopPhase.level : StopPhase → ℕ
  | .running => 0
  | .graceful => 1
  | .cancelled | .timedOut | .finished => 2

def controlLevel : ServerControl → ℕ
  | .running => 0
  | .graceful => 1
  | .abort => 2

def Closing.level : Closing → ℕ
  | .graceful => 1
  | .abort => 2

def HandleCall.closing : HandleCall → Closing
  | .requestGraceful => .graceful
  | .requestCancel | .abandon => .abort

theorem HandleCall.publish_eq (call : HandleCall) : call.publish = call.closing.publish := by
  cases call <;> rfl

theorem HandleCall.event_ne_settled (call : HandleCall) (now : ℕ) : call.event now ≠ .settled := by
  cases call <;> simp [HandleCall.event]

theorem StopPhase.after_cases (phase : StopPhase) (event : StopEvent) (h : event ≠ .settled) :
    phase.after event = phase ∨ phase.level < (phase.after event).level := by
  cases phase <;> cases event <;> simp_all [after, StopPhase.level]

theorem StopPhase.level_le_after (phase : StopPhase) (event : StopEvent) :
    phase.level ≤ (phase.after event).level := by
  cases phase <;> cases event <;> simp [after, StopPhase.level]

theorem StopPhase.after_ne_finished {phase : StopPhase} {event : StopEvent}
    (hphase : phase ≠ .finished) (hevent : event ≠ .settled) :
    phase.after event ≠ .finished := by
  cases phase <;> cases event <;> simp_all [after]

theorem HandleCall.level_after (call : HandleCall) (now : ℕ) (phase : StopPhase) :
    (phase.after (call.event now)).level = max phase.level call.closing.level := by
  cases call <;> cases phase <;> rfl

theorem Closing.publish_spec (closing : Closing) (control : Watch.Channel ServerControl) :
    (closing.level ≤ controlLevel control.value ∧ closing.publish control = control) ∨
      (controlLevel control.value < closing.level ∧
        controlLevel (closing.publish control).value = closing.level ∧
        (closing.publish control).version = control.version + 1) := by
  obtain ⟨value, version⟩ := control
  cases closing <;> cases value <;>
    simp [Closing.publish, sendGraceful, sendAbort, Watch.Channel.sendIfModified, controlLevel,
      Closing.level]

theorem Closing.level_publish (closing : Closing) (control : Watch.Channel ServerControl) :
    controlLevel (closing.publish control).value =
      max (controlLevel control.value) closing.level := by
  rcases closing.publish_spec control with ⟨hle, heq⟩ | ⟨hlt, hvalue, -⟩
  · rw [heq, max_eq_left hle]
  · rw [hvalue, max_eq_right hlt.le]

theorem Closing.version_le_publish (closing : Closing) (control : Watch.Channel ServerControl) :
    control.version ≤ (closing.publish control).version := by
  rcases closing.publish_spec control with ⟨-, heq⟩ | ⟨-, -, hversion⟩
  · rw [heq]
  · omega

theorem Closing.publish_eq_or_changed (closing : Closing) {control : Watch.Channel ServerControl}
    {seen : ℕ} (hle : seen ≤ control.version) :
    closing.publish control = control ∨ (closing.publish control).Changed seen := by
  rcases closing.publish_spec control with ⟨-, heq⟩ | ⟨-, -, hversion⟩
  · exact .inl heq
  · right
    show (closing.publish control).version ≠ seen
    omega

structure Caught (applied phase : StopPhase) (control : Watch.Channel ServerControl) (seen : ℕ)
    (calls : List HandleCall) (reading : Prop) : Prop where
  unfinished : phase ≠ .finished
  applied_le : applied = phase ∨ applied.level < phase.level
  committed : phase.level ≤ applied.level ∨ reading ∨ phase.level ≤ controlLevel control.value ∨
    ∃ call ∈ calls, phase.level ≤ call.closing.level
  unseen : applied.level < controlLevel control.value → control.Changed seen ∨ reading

namespace Caught

variable {applied phase : StopPhase} {control : Watch.Channel ServerControl} {seen : ℕ}
  {calls : List HandleCall} {reading reading' : Prop}

variable (h : Caught applied phase control seen calls reading)

include h

theorem level_applied_le : applied.level ≤ phase.level := by
  rcases h.applied_le with rfl | hlt
  · exact le_rfl
  · exact hlt.le

theorem move (hread : ¬ reading) : Caught applied phase control seen calls reading' where
  unfinished := h.unfinished
  applied_le := h.applied_le
  committed := by
    rcases h.committed with hc | hc | hc | hc
    · exact .inl hc
    · exact absurd hc hread
    · exact .inr (.inr (.inl hc))
    · exact .inr (.inr (.inr hc))
  unseen hlt := .inl ((h.unseen hlt).resolve_right hread)

theorem toRead {seen' : ℕ} : Caught applied phase control seen' calls True where
  unfinished := h.unfinished
  applied_le := h.applied_le
  committed := .inr (.inl trivial)
  unseen _ := .inr trivial

theorem commit {event : StopEvent} (hevent : event ≠ .settled) :
    Caught applied (phase.after event) control seen calls True where
  unfinished := after_ne_finished h.unfinished hevent
  applied_le := by
    rcases phase.after_cases event hevent with heq | hlt
    · rw [heq]
      exact h.applied_le
    · exact .inr (h.level_applied_le.trans_lt hlt)
  committed := .inr (.inl trivial)
  unseen _ := .inr trivial

theorem call (call : HandleCall) (now : ℕ) :
    Caught applied (phase.after (call.event now)) control seen (call :: calls) reading where
  unfinished := after_ne_finished h.unfinished (call.event_ne_settled now)
  applied_le := by
    rcases phase.after_cases _ (call.event_ne_settled now) with heq | hlt
    · rw [heq]
      exact h.applied_le
    · exact .inr (h.level_applied_le.trans_lt hlt)
  committed := by
    rw [call.level_after now phase]
    rcases le_total phase.level call.closing.level with hle | hle
    · rw [max_eq_right hle]
      exact .inr (.inr (.inr ⟨call, List.mem_cons_self, le_rfl⟩))
    · rw [max_eq_left hle]
      rcases h.committed with hc | hc | hc | ⟨other, hmem, hc⟩
      · exact .inl hc
      · exact .inr (.inl hc)
      · exact .inr (.inr (.inl hc))
      · exact .inr (.inr (.inr ⟨other, List.mem_cons_of_mem _ hmem, hc⟩))
  unseen := h.unseen

theorem publish (hle : seen ≤ control.version) (call : HandleCall) :
    Caught applied phase (call.publish control) seen (calls.erase call) reading where
  unfinished := h.unfinished
  applied_le := h.applied_le
  committed := by
    rw [call.publish_eq, call.closing.level_publish]
    rcases h.committed with hc | hc | hc | ⟨other, hmem, hc⟩
    · exact .inl hc
    · exact .inr (.inl hc)
    · exact .inr (.inr (.inl (hc.trans (le_max_left _ _))))
    · by_cases heq : other = call
      · subst heq
        exact .inr (.inr (.inl (hc.trans (le_max_right _ _))))
      · exact .inr (.inr (.inr ⟨other, (List.mem_erase_of_ne heq).mpr hmem, hc⟩))
  unseen hlt := by
    rw [call.publish_eq] at hlt ⊢
    rcases call.closing.publish_eq_or_changed hle with heq | hchanged
    · rw [heq] at hlt ⊢
      exact h.unseen hlt
    · exact .inl hchanged

theorem announce (hle : seen ≤ control.version) (closing : Closing) :
    Caught applied phase (closing.publish control) seen calls reading where
  unfinished := h.unfinished
  applied_le := h.applied_le
  committed := by
    rw [closing.level_publish]
    rcases h.committed with hc | hc | hc | hc
    · exact .inl hc
    · exact .inr (.inl hc)
    · exact .inr (.inr (.inl (hc.trans (le_max_left _ _))))
    · exact .inr (.inr (.inr hc))
  unseen hlt := by
    rcases closing.publish_eq_or_changed hle with heq | hchanged
    · rw [heq] at hlt ⊢
      exact h.unseen hlt
    · exact .inl hchanged

theorem mark (hvalue : controlLevel control.value ≤ applied.level) :
    Caught applied phase control control.version calls reading where
  unfinished := h.unfinished
  applied_le := h.applied_le
  committed := h.committed
  unseen hlt := absurd hlt hvalue.not_gt

theorem apply (hvalue : controlLevel control.value ≤ phase.level) :
    Caught phase phase control seen calls reading' where
  unfinished := h.unfinished
  applied_le := .inl rfl
  committed := .inl le_rfl
  unseen hlt := absurd hlt hvalue.not_gt

end Caught

namespace Point

def Closes (level : ℕ) : Point → Prop
  | .arming closing | .publishing closing | .marking closing => closing.level ≤ level
  | _ => True

def Core : Point → Prop
  | .committing event => event ≠ .settled
  | .panicked | .draining => False
  | _ => True

theorem Closes.mono {point : Point} {level level' : ℕ} (h : point.Closes level)
    (hle : level ≤ level') : point.Closes level' := by
  cases point with
  | arming closing | publishing closing | marking closing => exact Nat.le_trans h hle
  | _ => trivial

end Point

structure Live (system : System) : Prop where
  caught : Caught system.supervisor.applied system.stop.phase system.control
    system.supervisor.seen system.calls (system.supervisor.point = .applying)
  core : system.supervisor.point.Core
  closes : system.supervisor.point.Closes system.supervisor.applied.level

structure Notified (system : System) : Prop where
  seen_le : system.supervisor.seen ≤ system.control.version
  value_le : controlLevel system.control.value ≤ system.stop.phase.level
  calls_le : ∀ call ∈ system.calls, call.closing.level ≤ system.stop.phase.level
  closes : system.supervisor.point.Closes system.stop.phase.level
  live : system.supervisor.unwinding = none → system.supervisor.point.isReturned = false →
    Live system

def MarksNoAbort (system : System) (action : Action) : Prop :=
  action.isAdvance = true → system.supervisor.point = .marking .graceful →
    system.control.value ≠ .abort

instance (system : System) (action : Action) : Decidable (MarksNoAbort system action) :=
  inferInstanceAs (Decidable (_ → _ → _))

theorem Notified.new (config : ServerConfig) (shutdown : AggregateShutdown) (inRuntime : Bool) :
    Notified (System.new config shutdown inRuntime) where
  seen_le := le_rfl
  value_le := le_rfl
  calls_le := by simp [System.new]
  closes := trivial
  live _ _ :=
    { caught :=
        { unfinished := by simp [System.new]
          applied_le := .inl rfl
          committed := .inl le_rfl
          unseen := by simp [System.new, controlLevel] }
      core := trivial
      closes := trivial }

structure Frame (system next : System) : Prop where
  phase : next.stop.phase = system.stop.phase
  control : next.control = system.control
  calls : next.calls = system.calls
  seen : next.supervisor.seen = system.supervisor.seen
  applied : next.supervisor.applied = system.supervisor.applied
  unwinding : next.supervisor.unwinding = system.supervisor.unwinding

variable {system next : System} {closing : Closing}

theorem Notified.frame (h : Notified system) (hframe : Frame system next)
    (hcloses : ∀ level, system.supervisor.point.Closes level → next.supervisor.point.Closes level)
    (hlive : system.supervisor.unwinding = none →
      system.supervisor.point ≠ .applying ∧ system.supervisor.point.isReturned = false ∧
        (system.supervisor.point.Core → next.supervisor.point.Core)) : Notified next where
  seen_le := by
    rw [hframe.seen, hframe.control]
    exact h.seen_le
  value_le := by
    rw [hframe.control, hframe.phase]
    exact h.value_le
  calls_le := by
    rw [hframe.calls, hframe.phase]
    exact h.calls_le
  closes := by
    rw [hframe.phase]
    exact hcloses _ h.closes
  live hunwinding _ := by
    rw [hframe.unwinding] at hunwinding
    obtain ⟨happlying, hreturned, hcore⟩ := hlive hunwinding
    have hold := h.live hunwinding hreturned
    refine ⟨?_, hcore hold.core, ?_⟩
    · rw [hframe.phase, hframe.control, hframe.calls, hframe.seen, hframe.applied]
      exact hold.caught.move happlying
    · rw [hframe.applied]
      exact hcloses _ hold.closes

theorem Point.eq_waiting {point : Point} (h : point.isWaiting = true) : point = .waiting := by
  cases point <;> simp_all [isWaiting]

theorem Notified.inLoop (h : Notified system) (hframe : Frame system next)
    (hpoint : system.supervisor.point ≠ .applying)
    (hreturned : system.supervisor.point.isReturned = false) (hcore : next.supervisor.point.Core)
    (hcloses : ∀ level, next.supervisor.point.Closes level) : Notified next :=
  h.frame hframe (fun level _ => hcloses level) fun _ => ⟨hpoint, hreturned, fun _ => hcore⟩

theorem Notified.leave (h : Notified system) (hframe : Frame system next)
    (hwait : system.supervisor.point = .waiting) (hcore : next.supervisor.point.Core)
    (hcloses : ∀ level, next.supervisor.point.Closes level) : Notified next :=
  h.inLoop hframe (by simp [hwait]) (by rw [hwait]; rfl) hcore hcloses

def Point.Loops : Point → Prop
  | .top | .applying | .parking _ | .admitting _ _ => True
  | .committing event => event ≠ .settled
  | _ => False

theorem Point.Loops.core {point : Point} (h : point.Loops) : point.Core := by
  cases point with
  | committing event => exact h
  | top | applying | parking _ | admitting _ _ => trivial
  | _ => exact h.elim

theorem Point.Loops.closes {point : Point} (h : point.Loops) (level : ℕ) : point.Closes level := by
  cases point with
  | arming _ | publishing _ | marking _ => exact h.elim
  | _ => trivial

/-- What an event of `select_event` leaves alone, and where it leads. -/
structure Selected (system next : System) : Prop where
  config : next.config = system.config
  stop : next.stop = system.stop
  control : next.control = system.control
  calls : next.calls = system.calls
  spawned : next.spawned = system.spawned
  applied : next.supervisor.applied = system.supervisor.applied
  listener : next.supervisor.listener = system.supervisor.listener
  unwinding : next.supervisor.unwinding = system.supervisor.unwinding
  pending : next.supervisor.pending = system.supervisor.pending ∨ next.supervisor.pending = none
  seen : next.supervisor.seen = system.supervisor.seen ∨
    next.supervisor.seen = system.control.version ∧ next.supervisor.point = .applying
  runtime : next.supervisor.runtimeShutdown = system.supervisor.runtimeShutdown ∨
    ∃ instant, next.supervisor.point = .committing (.graceful instant)
  loops : next.supervisor.point.Loops

theorem System.selected (system : System) (event : SupervisorEvent) :
    Selected system (system.select event) := by
  unfold System.select System.goto
  dsimp only
  repeat' split
  all_goals
    refine ⟨rfl, rfl, rfl, rfl, rfl, rfl, rfl, rfl, ?_, ?_, ?_, ?_⟩
    all_goals simp [Loops, Supervisor.forceAbort]

theorem Notified.select (h : Notified system) (hwait : system.supervisor.point = .waiting)
    (event : SupervisorEvent) : Notified (system.select event) := by
  have hsel := system.selected event
  rcases hsel.seen with hseen | ⟨hseen, hpoint⟩
  · exact h.leave ⟨congrArg _ hsel.stop, hsel.control, hsel.calls, hseen, hsel.applied,
      hsel.unwinding⟩ hwait hsel.loops.core hsel.loops.closes
  · -- the change is marked as seen, and the phase is read next
    refine ⟨?_, ?_, ?_, hsel.loops.closes _, ?_⟩
    · rw [hseen, hsel.control]
    · rw [hsel.control, hsel.stop]
      exact h.value_le
    · rw [hsel.calls, hsel.stop]
      exact h.calls_le
    · intro hunwinding _
      have hold := h.live (hsel.unwinding ▸ hunwinding) (by rw [hwait]; rfl)
      refine ⟨?_, hsel.loops.core, hsel.loops.closes _⟩
      rw [hsel.applied, hsel.stop, hsel.control, hsel.calls, eq_true hpoint]
      exact hold.caught.toRead

theorem Notified.call (h : Notified system) (call : HandleCall) (now : ℕ) :
    Notified (system.act (.call call now)) where
  seen_le := h.seen_le
  value_le := by
    simp only [System.act, phase_apply]
    exact h.value_le.trans (level_le_after _ _)
  calls_le := by
    simp only [System.act, phase_apply]
    intro other hmem
    rw [call.level_after]
    rcases List.mem_cons.mp hmem with rfl | hmem
    · exact le_max_right _ _
    · exact (h.calls_le other hmem).trans (le_max_left _ _)
  closes := by
    simp only [System.act, phase_apply]
    exact h.closes.mono (level_le_after _ _)
  live hunwinding hreturned := by
    have hold := h.live hunwinding hreturned
    refine ⟨?_, hold.core, hold.closes⟩
    simp only [System.act, phase_apply]
    exact hold.caught.call call now

theorem Notified.publish (h : Notified system) {call : HandleCall} (hmem : call ∈ system.calls) :
    Notified (system.act (.publish call)) where
  seen_le := by
    simp only [System.act, call.publish_eq]
    exact h.seen_le.trans (call.closing.version_le_publish _)
  value_le := by
    simp only [System.act, call.publish_eq, Closing.level_publish]
    exact max_le h.value_le (h.calls_le call hmem)
  calls_le other hother := h.calls_le other (List.mem_of_mem_erase hother)
  closes := h.closes
  live hunwinding hreturned := by
    have hold := h.live hunwinding hreturned
    exact ⟨hold.caught.publish h.seen_le call, hold.core, hold.closes⟩

theorem Notified.commit (h : Notified system) {event : StopEvent} (now : ℕ)
    (hpoint : system.supervisor.point = .committing event) :
    Notified (({ system with stop := (system.stop.apply now event).2 } : System).goto .applying)
    where
  seen_le := h.seen_le
  value_le := by
    simp only [System.goto, phase_apply]
    exact h.value_le.trans (level_le_after _ _)
  calls_le := by
    simp only [System.goto, phase_apply]
    intro call hmem
    exact (h.calls_le call hmem).trans (level_le_after _ _)
  closes := trivial
  live hunwinding _ := by
    have hold := h.live hunwinding (by rw [hpoint]; rfl)
    have hevent : event ≠ .settled := by simpa [hpoint, Point.Core] using hold.core
    refine ⟨?_, trivial, trivial⟩
    simpa [System.goto] using hold.caught.commit hevent

theorem System.applyCommittedPhase_cases (system : System) :
    (∃ closing : Closing, closing.level = system.stop.phase.level ∧
      system.applyCommittedPhase =
        { system with
          supervisor :=
            { system.supervisor with applied := system.stop.phase, point := .arming closing } }) ∨
      (system.applyCommittedPhase = system.goto .top ∧
        (system.supervisor.applied.level < system.stop.phase.level →
          system.stop.phase = .finished)) := by
  unfold System.applyCommittedPhase
  cases happlied : system.supervisor.applied <;> cases hphase : system.stop.phase
  case running.graceful => exact .inl ⟨.graceful, rfl, rfl⟩
  case running.cancelled | graceful.cancelled => exact .inl ⟨.abort, rfl, rfl⟩
  case running.timedOut | graceful.timedOut => exact .inl ⟨.abort, rfl, rfl⟩
  all_goals exact .inr ⟨rfl, by simp [StopPhase.level]⟩

section

variable (h : Notified system)

include h

theorem Notified.applyCommittedPhase (hpoint : system.supervisor.point = .applying) :
    Notified system.applyCommittedPhase := by
  have hreturned : system.supervisor.point.isReturned = false := by rw [hpoint]; rfl
  rcases system.applyCommittedPhase_cases with ⟨closing, hlevel, heq⟩ | ⟨heq, hbehind⟩
  · rw [heq]
    refine ⟨h.seen_le, h.value_le, h.calls_le, hlevel.le, ?_⟩
    intro hunwinding _
    have hold := h.live hunwinding hreturned
    exact ⟨hold.caught.apply h.value_le, trivial, hlevel.le⟩
  · rw [heq]
    refine ⟨h.seen_le, h.value_le, h.calls_le, trivial, ?_⟩
    intro hunwinding _
    have hold := (h.live hunwinding hreturned).caught
    -- nothing was ahead, so what the supervisor has applied is the committed phase
    have happlied : system.supervisor.applied = system.stop.phase :=
      hold.applied_le.resolve_right fun hlt => hold.unfinished (hbehind hlt)
    refine ⟨?_, trivial, trivial⟩
    show Caught system.supervisor.applied _ _ _ _ _
    rw [happlied]
    exact hold.apply h.value_le

theorem Notified.arm (now : ℕ) (hpoint : system.supervisor.point = .arming closing) :
    Notified (system.arm now closing) := by
  have hframe : Frame system (system.arm now closing) := by
    cases closing <;> exact ⟨rfl, rfl, rfl, rfl, rfl, rfl⟩
  have hnext : (system.arm now closing).supervisor.point = .publishing closing := by
    cases closing <;> rfl
  apply h.frame hframe
  · rw [hpoint, hnext]
    exact fun _ hcloses => hcloses
  · intro _
    rw [hpoint, hnext]
    exact ⟨by simp, rfl, fun _ => trivial⟩

theorem Notified.publishControl (hpoint : system.supervisor.point = .publishing closing) :
    Notified (system.publishControl closing) := by
  have hcloses : closing.level ≤ system.stop.phase.level := by
    simpa [hpoint, Point.Closes] using h.closes
  refine ⟨h.seen_le.trans (closing.version_le_publish _), ?_, h.calls_le, hcloses, ?_⟩
  · show controlLevel (closing.publish system.control).value ≤ system.stop.phase.level
    rw [closing.level_publish]
    exact max_le h.value_le hcloses
  · intro hunwinding _
    have hold := h.live hunwinding (by rw [hpoint]; rfl)
    have hnot : system.supervisor.point ≠ .applying := by simp [hpoint]
    have hlevel : closing.level ≤ system.supervisor.applied.level := by
      simpa [hpoint, Point.Closes] using hold.closes
    exact ⟨(hold.caught.announce h.seen_le closing).move hnot, trivial, hlevel⟩

theorem Notified.markSeen (hpoint : system.supervisor.point = .marking closing)
    (hvalue : closing = .graceful → system.control.value ≠ .abort) : Notified system.markSeen := by
  refine ⟨le_rfl, h.value_le, h.calls_le, trivial, ?_⟩
  intro hunwinding _
  have hold := h.live hunwinding (by rw [hpoint]; rfl)
  have hnot : system.supervisor.point ≠ .applying := by simp [hpoint]
  have hcloses : closing.level ≤ system.supervisor.applied.level := by
    simpa [hpoint, Point.Closes] using hold.closes
  have hlevel : controlLevel system.control.value ≤ closing.level := by
    cases closing with
    | graceful => cases hv : system.control.value <;> simp_all [controlLevel, Closing.level]
    | abort => cases system.control.value <;> simp [controlLevel, Closing.level]
  exact ⟨(hold.caught.mark (hlevel.trans hcloses)).move hnot, trivial, trivial⟩

theorem Notified.top (now : ℕ) (hpoint : system.supervisor.point = .top) :
    Notified (system.advance now) := by
  have hstart : Frame system { system with supervisor := system.supervisor.startAbortIfReady } := by
    unfold Supervisor.startAbortIfReady
    split <;> exact ⟨rfl, rfl, rfl, rfl, rfl, rfl⟩
  have hstarted : system.supervisor.startAbortIfReady.point = .top := by
    unfold Supervisor.startAbortIfReady
    split <;> exact hpoint
  have hn : Notified { system with supervisor := system.supervisor.startAbortIfReady } := by
    apply h.frame hstart
    · rw [hpoint]
      exact fun _ _ => by rw [hstarted]; trivial
    · intro _
      rw [hpoint]
      exact ⟨by simp, rfl, fun _ => by rw [hstarted]; trivial⟩
  simp only [System.advance, hpoint]
  split
  · -- the drain is over: the core has returned
    refine ⟨hn.seen_le, ?_, ?_, trivial, fun _ hreturned => ?_⟩
    · simp only [System.finish, phase_settle]
      exact hn.value_le.trans (level_le_after _ _)
    · simp only [System.finish, phase_settle]
      intro call hmem
      exact (hn.calls_le call hmem).trans (level_le_after _ _)
    · simp [System.finish, isReturned] at hreturned
  · exact hn.inLoop ⟨rfl, rfl, rfl, rfl, rfl, rfl⟩ (by simp [hstarted])
      (by rw [hstarted]; rfl) trivial fun _ => trivial

theorem Notified.unwind (now : ℕ) (hpoint : system.supervisor.point = .panicked) :
    Notified
      { system with
        stop := (system.stop.apply now .abandon).2
        supervisor := { system.supervisor with applied := .cancelled, point := .arming .abort } }
    where
  seen_le := h.seen_le
  value_le := by
    simp only [phase_apply]
    exact h.value_le.trans (level_le_after _ _)
  calls_le := by
    simp only [phase_apply]
    intro call hmem
    exact (h.calls_le call hmem).trans (level_le_after _ _)
  closes := by
    have hlevel := HandleCall.abandon.level_after now system.stop.phase
    simp only [phase_apply]
    exact (le_max_right _ _).trans hlevel.ge
  live hunwinding _ := by
    -- the point is reached by a panic only
    have hcore := (h.live hunwinding (by rw [hpoint]; rfl)).core
    simp [hpoint, Point.Core] at hcore

theorem Notified.advance (now : ℕ)
    (hmeets : system.supervisor.point = .marking .graceful → system.control.value ≠ .abort) :
    Notified (system.advance now) := by
  cases hpoint : system.supervisor.point with
  | top => exact h.top now hpoint
  | waiting | returned result =>
    simp only [System.advance, hpoint]
    exact h
  | committing event =>
    simp only [System.advance, hpoint]
    exact h.commit now hpoint
  | applying =>
    simp only [System.advance, hpoint]
    exact h.applyCommittedPhase hpoint
  | arming closing =>
    simp only [System.advance, hpoint]
    exact h.arm now hpoint
  | publishing closing =>
    simp only [System.advance, hpoint]
    exact h.publishControl hpoint
  | marking closing =>
    simp only [System.advance, hpoint]
    exact h.markSeen hpoint fun hclosing => hmeets (by rw [hpoint, hclosing])
  | closingPending =>
    simp only [System.advance, hpoint]
    have hframe : Frame system system.closePending := ⟨rfl, rfl, rfl, rfl, rfl, rfl⟩
    apply h.frame hframe
    · intro level _
      unfold System.closePending
      dsimp only
      split <;> trivial
    · intro hunwinding
      rw [hpoint]
      refine ⟨by simp, rfl, fun _ => ?_⟩
      simp [System.closePending, hunwinding, Point.Core]
  | parking socket | admitting socket permit =>
    simp only [System.advance, hpoint]
    split
    · exact h.inLoop ⟨rfl, rfl, rfl, rfl, rfl, rfl⟩ (by simp [hpoint]) (by rw [hpoint]; rfl)
        trivial fun _ => trivial
    · exact h.inLoop ⟨rfl, rfl, rfl, rfl, rfl, rfl⟩ (by simp [hpoint]) (by rw [hpoint]; rfl)
        trivial fun _ => trivial
  | spawning socket permit =>
    simp only [System.advance, hpoint]
    exact h.inLoop ⟨rfl, rfl, rfl, rfl, rfl, rfl⟩ (by simp [hpoint]) (by rw [hpoint]; rfl)
      trivial fun _ => trivial
  | panicked =>
    simp only [System.advance, hpoint]
    exact h.unwind now hpoint
  | draining =>
    simp only [System.advance, hpoint]
    exact ⟨h.seen_le, h.value_le, h.calls_le, trivial, fun _ hreturned => nomatch hreturned⟩

theorem Notified.act {action : Action} (hready : system.Ready action)
    (hmeets : MarksNoAbort system action) : Notified (system.act action) := by
  cases action with
  | call call now => exact h.call call now
  | publish call => exact h.publish hready
  | fire | mint instant =>
    refine ⟨h.seen_le, h.value_le, h.calls_le, h.closes, ?_⟩
    intro hunwinding hreturned
    have hold := h.live hunwinding hreturned
    exact ⟨hold.caught, hold.core, hold.closes⟩
  | select now event => exact h.select (eq_waiting hready.1) event
  | advance now => exact h.advance now (hmeets rfl)
  | panic error => exact ⟨h.seen_le, h.value_le, h.calls_le, trivial, fun hu => nomatch hu⟩

end

def Point.Unwinds : Point → Prop
  | .panicked | .arming _ | .publishing _ | .marking _ | .closingPending | .draining
  | .returned _ => True
  | .top | .waiting | .committing _ | .applying | .parking _ | .admitting _ _
  | .spawning _ _ => False

theorem System.unwinding_advance (system : System) (now : ℕ) :
    (system.advance now).supervisor.unwinding = system.supervisor.unwinding := by
  cases hpoint : system.supervisor.point with
  | top =>
    have hstart : system.supervisor.startAbortIfReady.unwinding = system.supervisor.unwinding := by
      unfold Supervisor.startAbortIfReady
      split <;> rfl
    simp only [System.advance, hpoint]
    split <;> exact hstart
  | applying =>
    simp only [System.advance, hpoint]
    rcases system.applyCommittedPhase_cases with ⟨_, -, heq⟩ | ⟨heq, -⟩ <;> simp [heq, System.goto]
  | arming closing =>
    simp only [System.advance, hpoint]
    cases closing <;> rfl
  | parking socket | admitting socket permit =>
    simp only [System.advance, hpoint]
    split <;> rfl
  | _ =>
    simp [System.advance, hpoint, System.goto, System.publishControl, System.markSeen,
      System.closePending]

theorem System.unwinds_advance (now : ℕ) (hpanic : system.supervisor.unwinding ≠ none)
    (h : system.supervisor.point.Unwinds) : (system.advance now).supervisor.point.Unwinds := by
  cases hpoint : system.supervisor.point with
  | top | waiting | committing _ | applying | parking _ | admitting _ _ | spawning _ _ =>
    simp [hpoint, Unwinds] at h
  | arming closing =>
    simp only [System.advance, hpoint]
    cases closing <;> trivial
  | closingPending =>
    have hsome : system.supervisor.unwinding.isSome = true := Option.isSome_iff_ne_none.mpr hpanic
    simp only [System.advance, hpoint, System.closePending, hsome]
    trivial
  | returned result =>
    simp only [System.advance, hpoint]
    trivial
  | publishing _ | marking _ | panicked | draining =>
    simp only [System.advance, hpoint]
    trivial

theorem unwinds_of_runs {config : ServerConfig} {shutdown : AggregateShutdown} {inRuntime : Bool}
    {trace : List Action} (run : Runs Steps (System.new config shutdown inRuntime) trace system)
    (hpanic : system.supervisor.unwinding ≠ none) : system.supervisor.point.Unwinds := by
  induction run with
  | nil => simp [System.new] at hpanic
  | @snoc _ state _ action _ step ih =>
    obtain ⟨hready, rfl⟩ := step
    cases action with
    | call call now => exact ih hpanic
    | publish call => exact ih hpanic
    | fire => exact ih hpanic
    | mint instant => exact ih hpanic
    | panic error => trivial
    | advance now =>
      have hbefore := hpanic
      simp only [System.act, System.unwinding_advance] at hbefore
      exact System.unwinds_advance now hbefore (ih hbefore)
    | select now event =>
      simp only [System.act, (state.selected event).unwinding] at hpanic
      have hpoint := ih hpanic
      rw [eq_waiting hready.1] at hpoint
      exact hpoint.elim

theorem notified_of_runs {config : ServerConfig} {shutdown : AggregateShutdown} {inRuntime : Bool}
    {trace : List Action}
    (run : Runs (Guarded Steps MarksNoAbort) (System.new config shutdown inRuntime) trace system) :
    Notified system := by
  induction run with
  | nil => exact Notified.new config shutdown inRuntime
  | snoc _ step ih =>
    obtain ⟨⟨hready, rfl⟩, hmeets⟩ := step
    exact ih.act hready hmeets

structure Wakeful (system : System) : Prop where
  notified : system.supervisor.applied = system.stop.phase ∨
    system.control.Changed system.supervisor.seen ∨ system.calls ≠ []
  forced : system.stop.phase.forced = true → system.supervisor.applied = system.stop.phase ∨
    system.control.Changed system.supervisor.seen ∨
    ∃ call ∈ system.calls, (call.publish system.control).Changed system.supervisor.seen

theorem HandleCall.publish_changed {call : HandleCall} {control : Watch.Channel ServerControl}
    {seen : ℕ} (hle : seen ≤ control.version)
    (hlevel : controlLevel control.value < call.closing.level) :
    (call.publish control).Changed seen := by
  rw [call.publish_eq]
  rcases call.closing.publish_spec control with ⟨hge, -⟩ | ⟨-, -, hversion⟩
  · omega
  · show (call.closing.publish control).version ≠ seen
    omega

theorem Notified.wakeful (h : Notified system) (hwait : system.supervisor.point = .waiting)
    (hunwinding : system.supervisor.unwinding = none) : Wakeful system := by
  have hold := (h.live hunwinding (by rw [hwait]; rfl)).caught
  have hread : ¬ system.supervisor.point = .applying := by simp [hwait]
  -- where the applied phase is the lower one, the committed level is published or in a call
  have hbehind : system.supervisor.applied = system.stop.phase ∨
      system.control.Changed system.supervisor.seen ∨
      ∃ call ∈ system.calls, system.stop.phase.level ≤ call.closing.level := by
    rcases hold.applied_le with heq | hlt
    · exact .inl heq
    · rcases hold.committed with hc | hc | hc | hc
      · omega
      · exact absurd hc hread
      · exact .inr (.inl ((hold.unseen (hlt.trans_le hc)).resolve_right hread))
      · exact .inr (.inr hc)
  constructor
  · rcases hbehind with heq | hchanged | ⟨call, hmem, -⟩
    · exact .inl heq
    · exact .inr (.inl hchanged)
    · exact .inr (.inr (List.ne_nil_of_mem hmem))
  · intro hforced
    rcases hbehind with heq | hchanged | ⟨call, hmem, hlevel⟩
    · exact .inl heq
    · exact .inr (.inl hchanged)
    · -- the call may find its level published already, and then that change is the unseen one
      by_cases hvalue : controlLevel system.control.value < call.closing.level
      · exact .inr (.inr ⟨call, hmem, HandleCall.publish_changed h.seen_le hvalue⟩)
      · rcases hold.applied_le with heq | hlt
        · exact .inl heq
        · have hunseen := hold.unseen (by omega)
          exact .inr (.inl (hunseen.resolve_right hread))

/-- In every interleaving in which no graceful close marks a published abort as seen, a supervisor
that waits has applied the committed phase or will be told of it. -/
theorem supervisor_wakeful {config : ServerConfig} {shutdown : AggregateShutdown}
    {inRuntime : Bool} {trace : List Action} {system : System}
    (run : Runs (Guarded Steps MarksNoAbort) (System.new config shutdown inRuntime) trace system)
    (hwait : system.supervisor.point = .waiting) : Wakeful system := by
  apply (notified_of_runs run).wakeful hwait
  by_contra hpanic
  have hunwinds := unwinds_of_runs run.unguard hpanic
  rw [hwait] at hunwinds
  exact hunwinds

def gracefulStop : List Action :=
  [.advance 0, .select 0 (.accept (.stream 1)), .advance 0, .advance 0, .advance 0,
    .call .requestGraceful 5, .publish .requestGraceful, .select 6 (.control .graceful),
    .advance 6]

def closeAndWait : List Action :=
  [.advance 7, .advance 7, .advance 7, .advance 7, .advance 7]

def sampleServer : System := System.new ⟨30000, none, none⟩ ⟨30000, none⟩ false

/-- A cancellation between two waits of the supervisor is seen. -/
theorem supervisor_wakeful_cancelled :
    ∃ system, Runs (Guarded Steps MarksNoAbort) sampleServer
        (gracefulStop ++ closeAndWait ++ [.call .requestCancel 8, .publish .requestCancel]) system ∧
      system.stop.phase = .cancelled ∧ system.supervisor.applied = .graceful ∧ Wakeful system := by
  have hready : ReadyAll (fun system action => system.Ready action ∧ MarksNoAbort system action)
      System.act sampleServer
      (gracefulStop ++ closeAndWait ++ [.call .requestCancel 8, .publish .requestCancel]) := by
    decide
  have run := (runs_replay hready).mono fun _ _ _ step => guarded_acts.mpr step
  exact ⟨_, run, by decide, by decide, supervisor_wakeful run (by decide)⟩

/-- The abort is published after the supervisor has read the graceful phase and before it marks the
watch as seen. -/
theorem abort_swallowed_by_graceful_close :
    ∃ system, Runs Steps sampleServer
        (gracefulStop ++ [.call .requestCancel 6, .publish .requestCancel] ++ closeAndWait) system ∧
      system.supervisor.point = .waiting ∧ system.stop.phase = .cancelled ∧ ¬ Wakeful system := by
  have hready : ReadyAll System.Ready System.act sampleServer
      (gracefulStop ++ [.call .requestCancel 6, .publish .requestCancel] ++ closeAndWait) := by
    decide
  refine ⟨_, runs_replay hready, by decide, by decide, fun h => ?_⟩
  exact absurd h.notified (by decide)

end Camber.Server
