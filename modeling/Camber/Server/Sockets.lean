import Camber.Server.Wakeups

/-! A socket is in the supervisor's hand while it is handled, parked while it waits for a permit of
the connection limit, and in the end spawned as a connection or closed. -/

namespace Camber.Server

open Transition Point SupervisorEvent Supervisor

def Point.inHand : Point → List ℕ
  | .parking socket | .admitting socket _ | .spawning socket _ => [socket]
  | _ => []

def Point.permitsInHand : Point → ℕ
  | .admitting _ true | .spawning _ true => 1
  | _ => 0

/-- A server beside its connection limit: `permits` lists the sockets of the connections that hold a
permit. -/
structure Gated where
  system : System
  permits : List ℕ

inductive GateAct where
  | server (action : Action)
  | release (socket : ℕ)

namespace Gated

def new (config : ServerConfig) (shutdown : AggregateShutdown) (inRuntime : Bool) : Gated :=
  ⟨System.new config shutdown inRuntime, []⟩

def inUse (g : Gated) : ℕ := g.permits.length + g.system.supervisor.point.permitsInHand

def handed (system : System) : Action → List ℕ
  | .advance _ =>
    match system.supervisor.point with
    | .spawning socket true => [socket]
    | _ => []
  | _ => []

def Ready (g : Gated) : GateAct → Prop
  | .server (.select _ (.permit true)) =>
    g.system.supervisor.point.isWaiting = true ∧ g.system.supervisor.pending ≠ none ∧
      ∃ n ∈ g.system.config.connectionLimit, g.inUse < n
  | .server (.panic _) => False
  | .server action => g.system.Ready action
  | .release socket => socket ∈ g.permits

instance (g : Gated) : DecidablePred g.Ready := fun action => by
  unfold Ready
  split <;> infer_instance

def act : GateAct → Gated → Gated
  | .server action, g => ⟨g.system.act action, g.permits ++ handed g.system action⟩
  | .release socket, g => { g with permits := g.permits.erase socket }

abbrev Steps := Acts Ready act

end Gated

def SupervisorEvent.accepts : SupervisorEvent → Option ℕ
  | .accept (.stream socket) => some socket
  | _ => none

def SupervisorEvent.joins : SupervisorEvent → Option ℕ
  | .connection socket _ => some socket
  | _ => none

def GateAct.event : GateAct → Option SupervisorEvent
  | .server (.select _ event) => some event
  | _ => none

def acceptedSockets (trace : List GateAct) : List ℕ :=
  trace.filterMap fun action => action.event.bind accepts

def joinedSockets (trace : List GateAct) : List ℕ :=
  trace.filterMap fun action => action.event.bind joins

/-- Every accepted socket is spawned, closed, parked or in hand, one of them at most waits, and
every spawned one is a connection that is owned or was joined. -/
structure Placed (acc done : List ℕ) (system : System) : Prop where
  placed : acc.Perm (system.spawned ++ system.closed ++
    (system.supervisor.pending.toList ++ system.supervisor.point.inHand))
  single : system.supervisor.pending = none ∨ system.supervisor.point.inHand = []
  joined : system.spawned.Perm (system.supervisor.connections.map Connection.socket ++ done)

variable {acc done : List ℕ} {system next : System}

theorem Placed.keep (h : Placed acc done system) (hspawned : next.spawned = system.spawned)
    (hclosed : next.closed = system.closed)
    (hpending : next.supervisor.pending = system.supervisor.pending)
    (hconnections : next.supervisor.connections = system.supervisor.connections)
    (hhand : next.supervisor.point.inHand = system.supervisor.point.inHand) :
    Placed acc done next := by
  refine ⟨?_, ?_, ?_⟩
  · rw [hspawned, hclosed, hpending, hhand]
    exact h.placed
  · rw [hpending, hhand]
    exact h.single
  · rw [hspawned, hconnections]
    exact h.joined

theorem Placed.pending_eq_none (h : Placed acc done system)
    (hhand : system.supervisor.point.inHand ≠ []) : system.supervisor.pending = none :=
  h.single.resolve_right hhand

theorem startAbortIfReady_pending (supervisor : Supervisor) :
    supervisor.startAbortIfReady.pending = supervisor.pending := by
  unfold startAbortIfReady
  split <;> rfl

theorem startAbortIfReady_connections (supervisor : Supervisor) :
    supervisor.startAbortIfReady.connections = supervisor.connections := by
  unfold startAbortIfReady
  split <;> rfl

theorem Placed.advance (h : Placed acc done system) (now : ℕ)
    (hcore : system.supervisor.point ≠ .draining) : Placed acc done (system.advance now) := by
  cases hpoint : system.supervisor.point with
  | draining => exact absurd hpoint hcore
  | top =>
    have hhand : system.supervisor.point.inHand = [] := by rw [hpoint]; rfl
    simp only [System.advance, hpoint]
    split
    · exact h.keep rfl rfl (startAbortIfReady_pending _) (startAbortIfReady_connections _) hhand.symm
    · exact h.keep rfl rfl (startAbortIfReady_pending _) (startAbortIfReady_connections _) hhand.symm
  | waiting | returned result =>
    simp only [System.advance, hpoint]
    exact h
  | committing event | publishing closing | marking closing | panicked =>
    simp only [System.advance, hpoint]
    exact h.keep rfl rfl rfl rfl (by rw [hpoint]; rfl)
  | applying =>
    simp only [System.advance, hpoint]
    rcases system.applyCommittedPhase_cases with ⟨closing, _, heq⟩ | ⟨heq, _⟩
    · rw [heq]
      exact h.keep rfl rfl rfl rfl (by rw [hpoint]; rfl)
    · rw [heq]
      exact h.keep rfl rfl rfl rfl (by rw [hpoint]; rfl)
  | arming closing =>
    simp only [System.advance, hpoint]
    cases closing <;> exact h.keep rfl rfl rfl rfl (by rw [hpoint]; rfl)
  | closingPending =>
    simp only [System.advance, hpoint, System.closePending]
    have hplaced := h.placed
    rw [hpoint] at hplaced
    refine ⟨?_, .inl rfl, h.joined⟩
    have hhand : (if system.supervisor.unwinding.isSome then draining else Point.top).inHand =
        [] := by split <;> rfl
    rw [hhand]
    simpa [inHand] using hplaced
  | parking socket =>
    have hnone := h.pending_eq_none (by rw [hpoint]; simp [inHand])
    have hplaced := h.placed
    rw [hpoint, hnone] at hplaced
    simp only [System.advance, hpoint]
    split
    · exact ⟨by simpa [inHand] using hplaced, .inr rfl, h.joined⟩
    · refine ⟨?_, .inr rfl, h.joined⟩
      simpa [System.close, System.goto, inHand, hnone] using hplaced
  | admitting socket permit =>
    have hnone := h.pending_eq_none (by rw [hpoint]; simp [inHand])
    have hplaced := h.placed
    rw [hpoint, hnone] at hplaced
    simp only [System.advance, hpoint]
    split
    · exact h.keep rfl rfl rfl rfl (by rw [hpoint]; rfl)
    · refine ⟨?_, .inr rfl, h.joined⟩
      simpa [System.close, System.goto, inHand, hnone] using hplaced
  | spawning socket permit =>
    have hnone := h.pending_eq_none (by rw [hpoint]; simp [inHand])
    have hplaced := h.placed
    rw [hpoint, hnone] at hplaced
    simp only [System.advance, hpoint]
    refine ⟨?_, .inr rfl, ?_⟩
    · rw [List.perm_iff_count] at hplaced ⊢
      intro x
      have hcount := hplaced x
      simp only [inHand, List.count_append, Option.toList_none, List.count_nil, hnone] at hcount ⊢
      omega
    · have hjoined := h.joined
      rw [List.perm_iff_count] at hjoined ⊢
      intro x
      have hcount := hjoined x
      simp only [List.map_append, List.map_cons, List.map_nil, List.count_append] at hcount ⊢
      omega

theorem Placed.select (h : Placed acc done system) (hwait : system.supervisor.point = .waiting)
    (event : SupervisorEvent)
    (haccept : ∀ result, event = .accept result → system.supervisor.pending = none)
    (hconnection : ∀ socket result, event = .connection socket result →
      socket ∈ system.supervisor.connections.map Connection.socket) :
    Placed (acc ++ event.accepts.toList) (done ++ event.joins.toList) (system.select event) := by
  have hplaced := h.placed
  rw [hwait] at hplaced
  have hhand : system.supervisor.point.inHand = [] := by rw [hwait]; rfl
  -- an event that leaves no socket in hand and moves none
  have hkeep : ∀ {next : System}, event.accepts = none → event.joins = none →
      next.spawned = system.spawned → next.closed = system.closed →
      next.supervisor.pending = system.supervisor.pending →
      next.supervisor.connections = system.supervisor.connections →
      next.supervisor.point.inHand = [] →
      Placed (acc ++ event.accepts.toList) (done ++ event.joins.toList) next := by
    intro next haccepts hjoins hspawned hclosed hpending hconnections hnext
    rw [haccepts, hjoins, Option.toList_none, List.append_nil, List.append_nil]
    exact h.keep hspawned hclosed hpending hconnections (hnext.trans hhand.symm)
  cases event with
  | scriptWake => exact hkeep rfl rfl rfl rfl rfl rfl rfl
  | deadline =>
    unfold System.select
    dsimp only
    split <;> exact hkeep rfl rfl rfl rfl rfl rfl rfl
  | control requested => exact hkeep rfl rfl rfl rfl rfl rfl rfl
  | runtime selectedAt => exact hkeep rfl rfl rfl rfl rfl rfl rfl
  | accept result =>
    have hnone := haccept result rfl
    cases result with
    | transient => exact hkeep rfl rfl rfl rfl rfl rfl rfl
    | fatal message => exact hkeep rfl rfl rfl rfl rfl rfl rfl
    | stream socket =>
      have hjoined : system.spawned.Perm
          (system.supervisor.connections.map Connection.socket ++ (done ++ [])) := by
        simpa using h.joined
      have hnew : (acc ++ [socket]).Perm (system.spawned ++ system.closed ++
          (system.supervisor.pending.toList ++ [socket])) := by
        rw [hnone] at hplaced ⊢
        simpa [inHand] using hplaced.append_right [socket]
      unfold System.select
      dsimp only
      split
      · exact ⟨hnew, .inl hnone, hjoined⟩
      · exact ⟨hnew, .inl hnone, hjoined⟩
  | permit granted =>
    have hjoined : system.spawned.Perm
        (system.supervisor.connections.map Connection.socket ++ (done ++ [])) := by
      simpa using h.joined
    have hall : (acc ++ []).Perm (system.spawned ++ system.closed ++
        system.supervisor.pending.toList) := by
      simpa [inHand] using hplaced
    cases granted with
    | true =>
      cases hpending : system.supervisor.pending with
      | none =>
        simp only [System.select, hpending]
        exact hkeep rfl rfl rfl rfl rfl rfl rfl
      | some socket =>
        rw [hpending] at hall
        simp only [System.select, hpending]
        exact ⟨hall, .inl rfl, hjoined⟩
    | false =>
      refine ⟨?_, .inl rfl, hjoined⟩
      simpa [System.select, inHand, accepts] using hall
  | connection socket result =>
    obtain ⟨connection, hmem, hsocket⟩ := List.mem_map.mp (hconnection socket result rfl)
    obtain ⟨found, before, after, _, hfound, hsplit, herase⟩ :=
      List.exists_of_eraseP (p := fun c => decide (c.socket = socket)) hmem (by simpa using hsocket)
    have hat : found.socket = socket := by simpa using hfound
    have hpoint : (system.select (.connection socket result)).supervisor.point.inHand = [] := by
      simp only [System.select]
      split <;> rfl
    refine ⟨?_, .inr hpoint, ?_⟩
    · rw [hpoint]
      simpa [accepts, System.select, inHand] using hplaced
    · have hjoined := h.joined
      rw [hsplit] at hjoined
      have hleft : (system.select (.connection socket result)).supervisor.connections =
          before ++ after := herase
      rw [hleft, List.perm_iff_count]
      intro x
      have hcount := hjoined.count_eq x
      simp only [System.select, joins, Option.toList_some, List.map_append,
        List.map_cons, List.count_append, List.count_cons, List.count_nil, hat] at hcount ⊢
      omega

def Rests (system : System) : Prop :=
  system.supervisor.applied = .running ∨
    system.supervisor.listener = false ∧ system.supervisor.pending = none

def StandsAt (system : System) : Point → Prop
  | .arming _ | .publishing _ => system.supervisor.applied ≠ .running
  | .marking _ | .closingPending =>
    system.supervisor.applied ≠ .running ∧ system.supervisor.listener = false
  | .spawning _ _ => Rests system ∧ system.supervisor.listener = true
  | .returned _ => system.supervisor.connections = [] ∧ system.supervisor.pending = none
  | .panicked | .draining => False
  | .committing event => Rests system ∧ event ≠ .settled
  | .top | .waiting | .applying | .parking _ | .admitting _ _ => Rests system

def Signalled (system : System) : Prop :=
  system.supervisor.applied ≠ .running ∨
    (∃ instant, system.supervisor.point = .committing (.graceful instant)) ∨
    system.supervisor.point = .applying ∧ system.stop.phase ≠ .running

structure Stands (inRuntime : Bool) (system : System) : Prop where
  calm : system.supervisor.unwinding = none
  unfinished : system.stop.phase = .finished → system.supervisor.point.isReturned = true
  point : StandsAt system system.supervisor.point
  signal : inRuntime = true → system.supervisor.runtimeShutdown = false → Signalled system

section Stands

variable {inRuntime : Bool}

theorem Rests.keep (h : Rests system)
    (happlied : next.supervisor.applied = system.supervisor.applied)
    (hlistener : next.supervisor.listener = system.supervisor.listener)
    (hpending : next.supervisor.pending = system.supervisor.pending ∨
      next.supervisor.pending = none) : Rests next := by
  unfold Rests
  rw [happlied, hlistener]
  rcases h with h | ⟨hl, hp⟩
  · exact .inl h
  · refine .inr ⟨hl, ?_⟩
    rcases hpending with heq | hnone
    · rw [heq, hp]
    · exact hnone

theorem Stands.commit (h : Stands inRuntime system) {event : StopEvent} (hevent : event ≠ .settled)
    (hphase : next.stop.phase = system.stop.phase.after event)
    (hsupervisor : next.supervisor = system.supervisor) : Stands inRuntime next := by
  refine ⟨by rw [hsupervisor]; exact h.calm, ?_, ?_, ?_⟩
  · rw [hphase, hsupervisor]
    intro hfinished
    apply h.unfinished
    by_contra hne
    exact StopPhase.after_ne_finished hne hevent hfinished
  · have hpoint := h.point
    unfold StandsAt Rests at hpoint ⊢
    rw [hsupervisor]
    exact hpoint
  · intro hruntime hshut
    rw [hsupervisor] at hshut
    unfold Signalled
    rw [hsupervisor, hphase]
    rcases h.signal hruntime hshut with happlied | hcommitting | ⟨hpoint, hne⟩
    · exact .inl happlied
    · exact .inr (.inl hcommitting)
    · refine .inr (.inr ⟨hpoint, fun hrunning => hne ?_⟩)
      cases hold : system.stop.phase <;> cases event <;> simp_all [StopPhase.after]

theorem Stands.other (h : Stands inRuntime system) (hphase : next.stop.phase = system.stop.phase)
    (hsupervisor : next.supervisor = system.supervisor) : Stands inRuntime next := by
  refine ⟨by rw [hsupervisor]; exact h.calm, by rw [hphase, hsupervisor]; exact h.unfinished, ?_, ?_⟩
  · have hpoint := h.point
    unfold StandsAt Rests at hpoint ⊢
    rw [hsupervisor]
    exact hpoint
  · intro hruntime hshut
    rw [hsupervisor] at hshut
    unfold Signalled
    rw [hsupervisor, hphase]
    exact h.signal hruntime hshut

theorem Stands.inLoop (h : Stands inRuntime system)
    (hphase : next.stop.phase = system.stop.phase)
    (hunwinding : next.supervisor.unwinding = system.supervisor.unwinding)
    (happlied : next.supervisor.applied = system.supervisor.applied)
    (hruntime : next.supervisor.runtimeShutdown = system.supervisor.runtimeShutdown)
    (hreturned : system.supervisor.point.isReturned = false)
    (hcommitting : ∀ event, system.supervisor.point ≠ .committing event)
    (happlying : system.supervisor.point ≠ .applying)
    (hpoint : StandsAt next next.supervisor.point) : Stands inRuntime next := by
  refine ⟨hunwinding.trans h.calm, ?_, hpoint, ?_⟩
  · intro hfinished
    rw [hphase] at hfinished
    have hold := h.unfinished hfinished
    rw [hreturned] at hold
    cases hold
  · intro hin hshut
    rw [hruntime] at hshut
    rcases h.signal hin hshut with hne | ⟨instant, hat⟩ | ⟨hat, _⟩
    · exact .inl (by rw [happlied]; exact hne)
    · exact absurd hat (hcommitting _)
    · exact absurd hat happlying

theorem Rests.standsAt (h : Rests system) {point : Point} (hloops : point.Loops) :
    StandsAt system point := by
  cases point with
  | committing event => exact ⟨h, hloops⟩
  | top | applying | parking _ | admitting _ _ => exact h
  | _ => exact hloops.elim

theorem Stands.select (h : Stands inRuntime system) (hwait : system.supervisor.point = .waiting)
    (event : SupervisorEvent) : Stands inRuntime (system.select event) := by
  have hrests : Rests system := by
    have hpoint := h.point
    rw [hwait] at hpoint
    exact hpoint
  have hsel := system.selected event
  have hstands := (hrests.keep hsel.applied hsel.listener hsel.pending).standsAt hsel.loops
  rcases hsel.runtime with hruntime | hcommitting
  · exact h.inLoop (congrArg _ hsel.stop) hsel.unwinding hsel.applied hruntime (by rw [hwait]; rfl)
      (by simp [hwait]) (by simp [hwait]) hstands
  · refine ⟨hsel.unwinding.trans h.calm, ?_, hstands, fun _ _ => .inr (.inl hcommitting)⟩
    intro hfinished
    rw [hsel.stop] at hfinished
    have hold := h.unfinished hfinished
    rw [hwait] at hold
    cases hold

theorem System.admissionIsOpen_listener (h : system.admissionIsOpen = true) :
    system.supervisor.listener = true :=
  (Bool.and_eq_true_iff.mp h).1

theorem Rests.running (h : Rests system) (hlistener : system.supervisor.listener = true) :
    system.supervisor.applied = .running := by
  rcases h with h | ⟨hreleased, _⟩
  · exact h
  · rw [hreleased] at hlistener
    cases hlistener

theorem Supervisor.applied_of_drained {supervisor : Supervisor}
    (h : (supervisor.abortDrainComplete || supervisor.gracefulDrainComplete) = true) :
    supervisor.applied ≠ .running ∧ supervisor.connections = [] := by
  unfold abortDrainComplete gracefulDrainComplete
    appliedForced at h
  cases happlied : supervisor.applied <;> simp_all [StopPhase.forced]

theorem Stands.top (h : Stands inRuntime system) (now : ℕ)
    (hpoint : system.supervisor.point = .top) : Stands inRuntime (system.advance now) := by
  have hrests : Rests system := by
    have hstand := h.point
    rw [hpoint] at hstand
    exact hstand
  have hstart : system.supervisor.startAbortIfReady.applied = system.supervisor.applied ∧
      system.supervisor.startAbortIfReady.listener = system.supervisor.listener ∧
      system.supervisor.startAbortIfReady.runtimeShutdown = system.supervisor.runtimeShutdown ∧
      system.supervisor.startAbortIfReady.unwinding = system.supervisor.unwinding := by
    unfold startAbortIfReady
    split <;> exact ⟨rfl, rfl, rfl, rfl⟩
  obtain ⟨happlied, hlistener, hruntime, hunwinding⟩ := hstart
  have hpending := startAbortIfReady_pending system.supervisor
  simp only [System.advance, hpoint]
  split
  next hdrained =>
    obtain ⟨hstopping, hempty⟩ := applied_of_drained hdrained
    have hreleased : system.supervisor.pending = none := by
      rcases hrests with hrunning | ⟨_, hnone⟩
      · exact absurd (happlied.trans hrunning) hstopping
      · exact hnone
    exact ⟨hunwinding.trans h.calm, fun _ => rfl, ⟨hempty, hpending.trans hreleased⟩,
      fun _ _ => .inl hstopping⟩
  next =>
    exact h.inLoop rfl hunwinding happlied hruntime (by rw [hpoint]; rfl) (by simp [hpoint])
      (by simp [hpoint]) (hrests.keep happlied hlistener (.inl hpending))

theorem Stands.committing (h : Stands inRuntime system) (now : ℕ) {event : StopEvent}
    (hpoint : system.supervisor.point = .committing event) :
    Stands inRuntime ({ system with stop := (system.stop.apply now event).2 }.goto .applying) := by
  have hstand := h.point
  rw [hpoint] at hstand
  refine ⟨h.calm, ?_, hstand.1.keep rfl rfl (.inl rfl), ?_⟩
  · simp only [System.goto, ServerStopState.phase_apply]
    intro hfinished
    have hunfinished : system.stop.phase ≠ .finished := by
      intro hold
      have hreturned := h.unfinished hold
      rw [hpoint] at hreturned
      cases hreturned
    exact absurd hfinished (StopPhase.after_ne_finished hunfinished hstand.2)
  · intro hin hshut
    rcases h.signal hin hshut with hstopping | ⟨instant, hat⟩ | ⟨hat, _⟩
    · exact .inl hstopping
    · refine .inr (.inr ⟨rfl, ?_⟩)
      obtain rfl : event = .graceful instant := by
        rw [hpoint] at hat
        exact Point.committing.inj hat
      simp only [System.goto, ServerStopState.phase_apply]
      cases system.stop.phase <;> simp [StopPhase.after]
    · rw [hpoint] at hat
      cases hat

theorem Stands.applyCommittedPhase (h : Stands inRuntime system)
    (hpoint : system.supervisor.point = .applying) :
    Stands inRuntime system.applyCommittedPhase := by
  have hunfinished : system.stop.phase ≠ .finished := by
    intro hold
    have hreturned := h.unfinished hold
    rw [hpoint] at hreturned
    cases hreturned
  have hrests : Rests system := by
    have hstand := h.point
    rw [hpoint] at hstand
    exact hstand
  rcases system.applyCommittedPhase_cases with ⟨closing, hlevel, heq⟩ | ⟨heq, hbehind⟩
  · have hahead : system.stop.phase ≠ .running := by
      intro hrunning
      rw [hrunning] at hlevel
      cases closing <;> cases hlevel
    rw [heq]
    exact ⟨h.calm, fun hfinished => absurd hfinished hunfinished, hahead, fun _ _ => .inl hahead⟩
  · rw [heq]
    refine ⟨h.calm, fun hfinished => absurd hfinished hunfinished, hrests.keep rfl rfl (.inl rfl), ?_⟩
    intro hin hshut
    rcases h.signal hin hshut with hstopping | ⟨instant, hat⟩ | ⟨_, hphase⟩
    · exact .inl hstopping
    · rw [hpoint] at hat
      cases hat
    · refine .inl fun hrunning => hunfinished (hbehind ?_)
      have hrunning : system.supervisor.applied = .running := hrunning
      rw [hrunning]
      cases hold : system.stop.phase <;> simp_all [StopPhase.level]

theorem Stands.advance (h : Stands inRuntime system) (now : ℕ) :
    Stands inRuntime (system.advance now) := by
  have hstand := h.point
  cases hpoint : system.supervisor.point with
  | panicked | draining =>
    rw [hpoint] at hstand
    exact hstand.elim
  | top => exact h.top now hpoint
  | waiting | returned result =>
    simp only [System.advance, hpoint]
    exact h
  | committing event =>
    simp only [System.advance, hpoint]
    exact h.committing now hpoint
  | applying =>
    simp only [System.advance, hpoint]
    exact h.applyCommittedPhase hpoint
  | arming closing =>
    rw [hpoint] at hstand
    simp only [System.advance, hpoint]
    cases closing <;>
      exact h.inLoop rfl rfl rfl rfl (by rw [hpoint]; rfl) (by simp [hpoint]) (by simp [hpoint])
        hstand
  | publishing closing =>
    rw [hpoint] at hstand
    simp only [System.advance, hpoint]
    exact h.inLoop rfl rfl rfl rfl (by rw [hpoint]; rfl) (by simp [hpoint]) (by simp [hpoint])
      ⟨hstand, rfl⟩
  | marking closing =>
    rw [hpoint] at hstand
    simp only [System.advance, hpoint]
    exact h.inLoop rfl rfl rfl rfl (by rw [hpoint]; rfl) (by simp [hpoint]) (by simp [hpoint])
      hstand
  | closingPending =>
    rw [hpoint] at hstand
    simp only [System.advance, hpoint]
    refine h.inLoop rfl rfl rfl rfl (by rw [hpoint]; rfl) (by simp [hpoint]) (by simp [hpoint]) ?_
    simp only [System.closePending, h.calm, Option.isSome_none, Bool.false_eq_true, if_false]
    exact .inr ⟨hstand.2, rfl⟩
  | parking socket =>
    rw [hpoint] at hstand
    simp only [System.advance, hpoint]
    split
    next hopen =>
      -- a socket is parked only while nothing has begun to stop
      have hrunning := Rests.running hstand (System.admissionIsOpen_listener hopen)
      exact h.inLoop rfl rfl rfl rfl (by rw [hpoint]; rfl) (by simp [hpoint]) (by simp [hpoint])
        (.inl hrunning)
    next =>
      exact h.inLoop rfl rfl rfl rfl (by rw [hpoint]; rfl) (by simp [hpoint]) (by simp [hpoint])
        (Rests.keep hstand rfl rfl (.inl rfl))
  | admitting socket permit =>
    rw [hpoint] at hstand
    simp only [System.advance, hpoint]
    split
    next hopen =>
      exact h.inLoop rfl rfl rfl rfl (by rw [hpoint]; rfl) (by simp [hpoint]) (by simp [hpoint])
        ⟨Rests.keep hstand rfl rfl (.inl rfl), System.admissionIsOpen_listener hopen⟩
    next =>
      exact h.inLoop rfl rfl rfl rfl (by rw [hpoint]; rfl) (by simp [hpoint]) (by simp [hpoint])
        (Rests.keep hstand rfl rfl (.inl rfl))
  | spawning socket permit =>
    rw [hpoint] at hstand
    simp only [System.advance, hpoint]
    exact h.inLoop rfl rfl rfl rfl (by rw [hpoint]; rfl) (by simp [hpoint]) (by simp [hpoint])
      (Rests.keep hstand.1 rfl rfl (.inl rfl))

theorem Stands.new (config : ServerConfig) (shutdown : AggregateShutdown) (inRuntime : Bool) :
    Stands inRuntime (System.new config shutdown inRuntime) where
  calm := rfl
  unfinished := by
    intro hfinished
    cases hfinished
  point := .inl rfl
  signal := by
    intro hin hshut
    rw [show (System.new config shutdown inRuntime).supervisor.runtimeShutdown = inRuntime from rfl,
      hin] at hshut
    cases hshut

theorem Stands.act (h : Stands inRuntime system) {action : Action}
    (hselect : ∀ now event, action = .select now event → system.supervisor.point = .waiting)
    (hpanic : ∀ error, action ≠ .panic error) : Stands inRuntime (system.act action) := by
  cases action with
  | call call now =>
    exact h.commit (call.event_ne_settled now) (ServerStopState.phase_apply ..) rfl
  | publish call | fire | mint instant => exact h.other rfl rfl
  | select now event => exact h.select (hselect now event rfl) event
  | advance now => exact h.advance now
  | panic error => exact absurd rfl (hpanic error)

end Stands

def Point.Quiet : Point → Prop
  | .admitting _ _ | .spawning _ _ => False
  | _ => True

/-- What a step of the loop does to the connections and the permits. -/
structure Advanced (now : ℕ) (system next : System) : Prop where
  config : next.config = system.config
  spawned : next.spawned = system.spawned ∨
    ∃ socket permit, system.supervisor.point = .spawning socket permit ∧
      next.spawned = system.spawned ++ [socket]
  spawning : ∀ socket permit, next.supervisor.point = .spawning socket permit →
    system.supervisor.point = .admitting socket permit ∧ system.admissionIsOpen = true
  permits : (Gated.handed system (.advance now)).length + next.supervisor.point.permitsInHand ≤
    system.supervisor.point.permitsInHand

theorem Advanced.quiet {now : ℕ}
    (hpoint : ∀ socket permit, system.supervisor.point ≠ .spawning socket permit)
    (hconfig : next.config = system.config) (hspawned : next.spawned = system.spawned)
    (hquiet : next.supervisor.point.Quiet) : Advanced now system next := by
  refine ⟨hconfig, .inl hspawned, fun socket permit hnext => ?_, ?_⟩
  · rw [hnext] at hquiet
    exact hquiet.elim
  · have hhanded : Gated.handed system (.advance now) = [] := by
      cases hat : system.supervisor.point <;> simp_all [Gated.handed]
    have hzero : next.supervisor.point.permitsInHand = 0 := by
      cases hnext : next.supervisor.point <;> simp_all [Quiet, permitsInHand]
    rw [hhanded, hzero]
    exact Nat.zero_le _

theorem System.advanced (system : System) (now : ℕ) :
    Advanced now system (system.advance now) := by
  cases hpoint : system.supervisor.point with
  | spawning socket permit =>
    simp only [System.advance, hpoint]
    refine ⟨rfl, .inr ⟨socket, permit, hpoint, rfl⟩, fun _ _ hnext => ?_, ?_⟩
    · cases hnext
    · cases permit <;> simp [Gated.handed, hpoint, permitsInHand]
  | admitting socket permit =>
    simp only [System.advance, hpoint]
    split
    next hopen =>
      refine ⟨rfl, .inl rfl, ?_, ?_⟩
      · rintro _ _ ⟨⟩
        exact ⟨hpoint, hopen⟩
      · cases permit <;> simp [Gated.handed, hpoint, permitsInHand, System.goto]
    next => exact .quiet (by simp [hpoint]) rfl rfl trivial
  | applying =>
    simp only [System.advance, hpoint]
    rcases system.applyCommittedPhase_cases with ⟨closing, _, heq⟩ | ⟨heq, _⟩ <;> rw [heq] <;>
      exact .quiet (by simp [hpoint]) rfl rfl trivial
  | arming closing =>
    simp only [System.advance, hpoint]
    cases closing <;> exact .quiet (by simp [hpoint]) rfl rfl trivial
  | top | parking socket =>
    simp only [System.advance, hpoint]
    split <;> exact .quiet (by simp [hpoint]) rfl rfl trivial
  | closingPending =>
    simp only [System.advance, hpoint]
    refine .quiet (by simp [hpoint]) rfl rfl ?_
    simp only [System.closePending]
    split <;> trivial
  | waiting | returned result =>
    simp only [System.advance, hpoint]
    exact .quiet (by simp [hpoint]) rfl rfl (by rw [hpoint]; trivial)
  | _ =>
    simp only [System.advance, hpoint]
    exact .quiet (by simp [hpoint]) rfl rfl trivial

theorem System.spawned_act (system : System) (action : Action) :
    (system.act action).spawned = system.spawned ∨
      ∃ socket permit, system.supervisor.point = .spawning socket permit ∧
        (system.act action).spawned = system.spawned ++ [socket] := by
  cases action with
  | call | publish | fire | mint | panic => exact .inl rfl
  | select now event => exact .inl (system.selected event).spawned
  | advance now => exact (system.advanced now).spawned

theorem System.spawning_act {action : Action} {socket : ℕ} {permit : Bool}
    (h : (system.act action).supervisor.point = .spawning socket permit) :
    system.supervisor.point = .spawning socket permit ∨
      system.supervisor.point = .admitting socket permit ∧ system.admissionIsOpen = true := by
  cases action with
  | call | publish | fire | mint => exact .inl h
  | panic => cases h
  | select now event =>
    have hloops := (system.selected event).loops
    rw [show (system.select event).supervisor.point = .spawning socket permit from h] at hloops
    exact hloops.elim
  | advance now => exact .inr ((system.advanced now).spawning socket permit h)

theorem System.config_act (system : System) (action : Action) :
    (system.act action).config = system.config := by
  cases action with
  | call | publish | fire | mint | panic => rfl
  | select now event => exact (system.selected event).config
  | advance now => exact (system.advanced now).config

namespace Gated

variable {g : Gated}

theorem permitsInHand_select (system : System) (event : SupervisorEvent) :
    (system.select event).supervisor.point.permitsInHand = 0 ∨ event = .permit true := by
  cases event with
  | permit granted =>
    cases granted with
    | true => exact .inr rfl
    | false => exact .inl rfl
  | accept result =>
    left
    cases result with
    | stream socket =>
      simp only [System.select]
      split <;> rfl
    | transient | fatal message => rfl
  | deadline | connection socket result =>
    left
    simp only [System.select]
    split <;> rfl
  | scriptWake | control requested | runtime selectedAt => exact .inl rfl

theorem inUse_act {action : GateAct} {n : ℕ} (hready : g.Ready action)
    (hlimit : n ∈ g.system.config.connectionLimit) (h : g.inUse ≤ n) : (act action g).inUse ≤ n := by
  cases action with
  | release socket =>
    refine le_trans (Nat.add_le_add_right ?_ _) h
    exact List.length_erase_le
  | server action =>
    unfold inUse at h ⊢
    simp only [act, List.length_append]
    cases action with
    | call | publish | fire | mint => exact h
    | panic => exact hready.elim
    | advance now =>
      have hadvance := (g.system.advanced now).permits
      simp only [System.act]
      omega
    | select now event =>
      rcases permitsInHand_select g.system event with hzero | rfl
      · simp only [System.act, handed, List.length_nil, hzero]
        omega
      · obtain ⟨hwait, _, m, hm, hlt⟩ := hready
        obtain rfl : n = m := Option.mem_unique hlimit hm
        have hone : ∀ point : Point, point.permitsInHand ≤ 1 := by
          intro point
          cases point with
          | admitting socket permit | spawning socket permit =>
            cases permit <;> simp [permitsInHand]
          | _ => exact Nat.zero_le _
        have hafter := hone (g.system.select (.permit true)).supervisor.point
        rw [inUse, eq_waiting hwait] at hlt
        simp only [System.act, handed, List.length_nil]
        have hzero : waiting.permitsInHand = 0 := rfl
        omega

theorem waiting_of_ready {now : ℕ} {event : SupervisorEvent}
    (h : g.Ready (.server (.select now event))) :
    g.system.supervisor.point = .waiting ∧
      (∀ result, event = .accept result → g.system.supervisor.pending = none) ∧
      ∀ socket result, event = .connection socket result →
        socket ∈ g.system.supervisor.connections.map Connection.socket := by
  by_cases hgrant : event = .permit true
  · subst hgrant
    exact ⟨eq_waiting h.1, by simp, by simp⟩
  · have hready : g.system.Ready (.select now event) := by
      unfold Ready at h
      split at h
      next heq =>
        cases heq
        exact absurd rfl hgrant
      next heq => cases heq
      next heq =>
        cases heq
        exact h
      next heq => cases heq
    refine ⟨eq_waiting hready.1, ?_, ?_⟩
    · rintro result rfl
      exact hready.2.1
    · rintro socket result rfl
      exact hready.2

end Gated

theorem acceptedSockets_snoc (trace : List GateAct) (action : GateAct) :
    acceptedSockets (trace ++ [action]) =
      acceptedSockets trace ++ (action.event.bind accepts).toList :=
  filterMap_snoc ..

theorem joinedSockets_snoc (trace : List GateAct) (action : GateAct) :
    joinedSockets (trace ++ [action]) =
      joinedSockets trace ++ (action.event.bind joins).toList :=
  filterMap_snoc ..

structure Settled (config : ServerConfig) (inRuntime : Bool) (trace : List GateAct) (g : Gated) :
    Prop where
  sockets : Placed (acceptedSockets trace) (joinedSockets trace) g.system
  stands : Stands inRuntime g.system
  config_eq : g.system.config = config
  limit : ∀ n ∈ config.connectionLimit, g.inUse ≤ n

section Settled

variable {config : ServerConfig} {shutdown : AggregateShutdown} {inRuntime : Bool}
  {trace : List GateAct} {g g' : Gated} {action : GateAct}

theorem Settled.new (config : ServerConfig) (shutdown : AggregateShutdown) (inRuntime : Bool) :
    Settled config inRuntime [] (Gated.new config shutdown inRuntime) where
  sockets := ⟨List.Perm.refl _, .inl rfl, List.Perm.refl _⟩
  stands := Stands.new config shutdown inRuntime
  config_eq := rfl
  limit _ _ := Nat.zero_le _

theorem Settled.sockets_act (h : Settled config inRuntime trace g) (hready : g.Ready action) :
    Placed (acceptedSockets (trace ++ [action])) (joinedSockets (trace ++ [action]))
      (Gated.act action g).system := by
  rw [acceptedSockets_snoc, joinedSockets_snoc]
  cases action with
  | release socket => simpa [GateAct.event, Gated.act] using h.sockets
  | server action =>
    cases action with
    | select now event =>
      obtain ⟨hwait, haccept, hconnection⟩ := Gated.waiting_of_ready hready
      exact h.sockets.select hwait event haccept hconnection
    | panic error => exact hready.elim
    | advance now =>
      have hcore : g.system.supervisor.point ≠ .draining := by
        intro hpoint
        have hstand := h.stands.point
        rw [hpoint] at hstand
        exact hstand
      simp only [GateAct.event, Option.bind_none, Option.toList_none, List.append_nil]
      exact h.sockets.advance now hcore
    | call call now | publish call | fire | mint instant =>
      simp only [GateAct.event, Option.bind_none, Option.toList_none, List.append_nil]
      exact h.sockets.keep rfl rfl rfl rfl rfl

theorem Settled.stands_act (h : Settled config inRuntime trace g) (hready : g.Ready action) :
    Stands inRuntime (Gated.act action g).system := by
  cases action with
  | release socket => exact h.stands
  | server action =>
    apply h.stands.act
    · rintro now event rfl
      exact (Gated.waiting_of_ready hready).1
    · rintro error rfl
      exact hready

theorem Settled.step (h : Settled config inRuntime trace g) (step : Gated.Steps g action g') :
    Settled config inRuntime (trace ++ [action]) g' := by
  obtain ⟨hready, rfl⟩ := step
  refine ⟨h.sockets_act hready, h.stands_act hready, ?_, ?_⟩
  · cases action with
    | release socket => exact h.config_eq
    | server action => exact (g.system.config_act action).trans h.config_eq
  · intro n hn
    apply Gated.inUse_act hready _ (h.limit n hn)
    rw [h.config_eq]
    exact hn

theorem settled_of_runs
    (run : Runs Gated.Steps (Gated.new config shutdown inRuntime) trace g) :
    Settled config inRuntime trace g := by
  refine Runs.invariant ?_ ?_ run
  · exact Settled.new config shutdown inRuntime
  · intro _ _ _ _ _ h step
    exact h.step step

theorem Stands.open_of_check {system : System} (h : Stands inRuntime system) {socket : ℕ}
    {permit : Bool} (hpoint : system.supervisor.point = .admitting socket permit)
    (hopen : system.admissionIsOpen = true) :
    system.supervisor.listener = true ∧ (inRuntime = true → system.fired = false) := by
  have hlistener := System.admissionIsOpen_listener hopen
  refine ⟨hlistener, fun hin => ?_⟩
  have hstand := h.point
  rw [hpoint] at hstand
  have hrunning := Rests.running hstand hlistener
  cases hshut : system.supervisor.runtimeShutdown with
  | true =>
    unfold System.admissionIsOpen at hopen
    simpa [hlistener, hshut] using hopen
  | false =>
    rcases h.signal hin hshut with hstopping | ⟨instant, hat⟩ | ⟨hat, _⟩
    · exact absurd hrunning hstopping
    · rw [hpoint] at hat
      cases hat
    · rw [hpoint] at hat
      cases hat

end Settled

structure Accounted (config : ServerConfig) (inRuntime : Bool) (trace : List GateAct) (g : Gated) :
    Prop where
  placed : (acceptedSockets trace).Perm (g.system.spawned ++ g.system.closed ++
    (g.system.supervisor.pending.toList ++ g.system.supervisor.point.inHand))
  single : (g.system.supervisor.pending.toList ++ g.system.supervisor.point.inHand).length ≤ 1
  once : (acceptedSockets trace).Nodup → (g.system.spawned ++ g.system.closed).Nodup
  owned : g.system.spawned.Perm
    (g.system.supervisor.connections.map Connection.socket ++ joinedSockets trace)
  spawns : ∀ action next, Gated.Steps g action next → next.system.spawned ≠ g.system.spawned →
    g.system.supervisor.listener = true ∧
      ∃ socket permit, g.system.supervisor.point = .spawning socket permit ∧
        next.system.spawned = g.system.spawned ++ [socket]
  checked : ∀ action next socket permit, Gated.Steps g action next →
    next.system.supervisor.point = .spawning socket permit →
    g.system.supervisor.point ≠ .spawning socket permit →
      g.system.supervisor.listener = true ∧ (inRuntime = true → g.system.fired = false)
  limited : ∀ n ∈ config.connectionLimit, g.permits.length ≤ n
  finished : g.system.supervisor.point.isReturned = true →
    g.system.supervisor.connections = [] ∧
      (acceptedSockets trace).Perm (g.system.spawned ++ g.system.closed)

/-- In every run without a panic of the supervisor the accepted sockets are accounted for. -/
theorem accepted_sockets_accounted {config : ServerConfig} {shutdown : AggregateShutdown}
    {inRuntime : Bool} {trace : List GateAct} {g : Gated}
    (run : Runs Gated.Steps (Gated.new config shutdown inRuntime) trace g) :
    Accounted config inRuntime trace g := by
  have h := settled_of_runs run
  have hplaced := h.sockets.placed
  have hstand := h.stands.point
  refine ⟨hplaced, ?_, ?_, h.sockets.joined, ?_, ?_, ?_, ?_⟩
  · have hhand : g.system.supervisor.point.inHand.length ≤ 1 := by
      cases g.system.supervisor.point <;> simp [inHand]
    rcases h.sockets.single with hnone | hnone
    · rw [hnone]
      simpa using hhand
    · rw [hnone, List.append_nil]
      exact Option.length_toList_le
  · intro hnodup
    exact (List.sublist_append_left _ _).nodup (hplaced.nodup_iff.mp hnodup)
  · rintro action next ⟨hready, rfl⟩ hspawned
    cases action with
    | release socket => exact absurd rfl hspawned
    | server action =>
      rcases g.system.spawned_act action with hsame | ⟨socket, permit, hpoint, heq⟩
      · exact absurd hsame hspawned
      · rw [hpoint] at hstand
        exact ⟨hstand.2, socket, permit, hpoint, heq⟩
  · rintro action next socket permit ⟨hready, rfl⟩ hnext hnot
    cases action with
    | release released => exact absurd hnext hnot
    | server action =>
      rcases System.spawning_act hnext with hsame | ⟨hpoint, hopen⟩
      · exact absurd hsame hnot
      · exact h.stands.open_of_check hpoint hopen
  · intro n hn
    exact le_trans (Nat.le_add_right _ _) (h.limit n hn)
  · intro hreturned
    cases hpoint : g.system.supervisor.point with
    | returned result =>
      rw [hpoint] at hstand hplaced
      rw [hstand.2] at hplaced
      exact ⟨hstand.1, by simpa [inHand] using hplaced⟩
    | _ =>
      rw [hpoint] at hreturned
      cases hreturned

def parkAndJoin : List GateAct :=
  [.server (.advance 0), .server (.select 0 (.accept (.stream 7))), .server (.advance 0),
    .server (.advance 0), .server (.select 0 (.permit true)), .server (.advance 0),
    .server (.advance 0), .server (.call .requestGraceful 1), .server (.publish .requestGraceful),
    .server (.advance 1), .server (.select 1 (.control .graceful)), .server (.advance 1),
    .server (.advance 1), .server (.advance 1), .server (.advance 1), .server (.advance 1),
    .server (.advance 1), .release 7, .server (.select 2 (.connection 7 .completed)),
    .server (.advance 2)]

/-- The one accepted socket is spawned and joined before the server finishes. -/
theorem accepted_sockets_accounted_parkAndJoin :
    ∃ g, Runs Gated.Steps (Gated.new ⟨30000, some 1, none⟩ ⟨30000, none⟩ true) parkAndJoin g ∧
      acceptedSockets parkAndJoin = [7] ∧ joinedSockets parkAndJoin = [7] ∧
      g.system.spawned = [7] ∧ g.system.supervisor.point = .returned (.ok ()) ∧
      Accounted ⟨30000, some 1, none⟩ true parkAndJoin g := by
  have hready : ReadyAll Gated.Ready Gated.act
      (Gated.new ⟨30000, some 1, none⟩ ⟨30000, none⟩ true) parkAndJoin := by
    decide
  have run := runs_replay hready
  exact ⟨_, run, by decide, by decide, by decide, by decide,
    accepted_sockets_accounted run⟩

def fireBeforeSpawn : List GateAct :=
  [.server (.advance 0), .server (.select 0 (.accept (.stream 7))), .server (.advance 0),
    .server .fire]

/-- The socket that was checked before the signal is spawned after it. -/
theorem spawned_after_signal :
    ∃ g next, Runs Gated.Steps (Gated.new ⟨30000, none, none⟩ ⟨30000, none⟩ true) fireBeforeSpawn g ∧
      Gated.Steps g (.server (.advance 0)) next ∧ g.system.fired = true ∧
      g.system.supervisor.runtimeShutdown = true ∧ g.system.spawned = [] ∧
      next.system.spawned = [7] := by
  have hready : ReadyAll Gated.Ready Gated.act
      (Gated.new ⟨30000, none, none⟩ ⟨30000, none⟩ true) fireBeforeSpawn := by
    decide
  have run := runs_replay hready
  exact ⟨_, _, run, ⟨by decide, rfl⟩, by decide, by decide,
    by decide, by decide +kernel⟩

end Camber.Server
