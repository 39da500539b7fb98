import Camber.Server.Stop

/-! Any owners apply any events and settle in any order, and other owners of the runtime mint the
shared expiry between them. -/

namespace Camber.Server
open CommittedStop ServerStopState

def Writes (before after : Option ℕ) : Prop :=
  after = before ∨ before = none ∧ ∃ value, after = some value

theorem Writes.keeps {before after : Option ℕ} (h : Writes before after) {value : ℕ}
    (hbefore : before = some value) : after = some value := by
  rcases h with hsame | ⟨hnone, -⟩
  · exact hsame.trans hbefore
  · rw [hnone] at hbefore
    cases hbefore

/-- The part of the stop state that decides its result. -/
structure StopFacts where
  phase : StopPhase
  fatal : Option RuntimeError
  laterFatalFacts : ℕ
  result : Option (Except RuntimeError Unit)
  outcome : StopOutcome

def CommittedStop.facts (committed : CommittedStop) : StopFacts :=
  ⟨committed.phase, committed.fatal, committed.laterFatalFacts, committed.result, committed.outcome⟩

def StopPhase.open : StopPhase → Bool
  | .running | .graceful => true
  | .cancelled | .timedOut | .finished => false

def StopPhase.verdict : StopPhase → Option RuntimeError → Except RuntimeError Unit
  | .cancelled, _ => .error .cancelled
  | .timedOut, _ => .error .timeout
  | _, some error => .error error
  | _, none => .ok ()

namespace StopFacts

def countFatal (facts : StopFacts) : StopFacts :=
  { facts with laterFatalFacts := facts.laterFatalFacts + 1 }

def afterFatal (facts : StopFacts) (error : RuntimeError) : StopFacts :=
  let phase := facts.phase.after (.fatal error)
  match facts.fatal with
  | none => if facts.phase.open then { facts with phase, fatal := some error } else facts.countFatal
  | some _ => { facts.countFatal with phase }

def afterSettled (facts : StopFacts) : StopFacts :=
  match facts.phase with
  | .running | .finished => facts
  | .graceful =>
    ⟨.finished, none, facts.laterFatalFacts, some (facts.phase.verdict facts.fatal),
      if facts.fatal.isSome then .failed else .completed⟩
  | .cancelled =>
    ⟨.finished, none, facts.laterFatalFacts + facts.fatal.toList.length,
      some (facts.phase.verdict facts.fatal), .cancelled⟩
  | .timedOut =>
    ⟨.finished, none, facts.laterFatalFacts + facts.fatal.toList.length,
      some (facts.phase.verdict facts.fatal), .timedOut⟩

def after (facts : StopFacts) : StopEvent → StopFacts
  | .fatal error => facts.afterFatal error
  | .settled => facts.afterSettled
  | event => { facts with phase := facts.phase.after event }

end StopFacts

namespace ServerStopState

variable {now : ℕ} {stop : ServerStopState}

theorem facts_commitGraceful (instant : ℕ) :
    (stop.commitGraceful instant).committed.facts =
      { stop.committed.facts with phase := stop.phase.after (.graceful instant) } := by
  unfold commitGraceful phase CommittedStop.facts
  cases h : stop.committed.phase <;> simp [h, StopPhase.after]

theorem facts_apply (event : StopEvent) :
    (stop.apply now event).2.committed.facts = stop.committed.facts.after event := by
  have hcommit : ∀ stop : ServerStopState,
      (stop.commitEvent now event).committed.facts = stop.committed.facts.after event := by
    intro stop
    cases event with
    | graceful instant => exact facts_commitGraceful instant
    | fatal error =>
      unfold commitEvent commitFatal CommittedStop.facts StopFacts.after StopFacts.afterFatal
      cases h : stop.committed.phase <;> cases hf : stop.committed.fatal <;>
        simp [h, hf, StopPhase.after, StopPhase.open, commitGraceful, StopFacts.countFatal]
    | cancel | abandon =>
      unfold commitEvent commitForced CommittedStop.facts StopFacts.after
      cases stop.committed.phase <;> simp [StopPhase.after]
    | deadlineExpiry =>
      unfold commitEvent commitTimeout CommittedStop.facts StopFacts.after
      cases h : stop.committed.phase <;> simp [h, StopPhase.after]
    | settled =>
      unfold commitEvent commitSettlement CommittedStop.facts StopFacts.after
        StopFacts.afterSettled displaceFatal
      cases h : stop.committed.phase <;> cases hf : stop.committed.fatal <;>
        simp [h, hf, StopPhase.verdict, drainedResult]
  exact hcommit _

theorem commits_commitEvent (event : StopEvent) :
    (stop.commitEvent now event).committed.commits = stop.committed.commits := by
  have hgraceful : ∀ (stop : ServerStopState) instant,
      (stop.commitGraceful instant).committed.commits = stop.committed.commits := by
    intro stop instant
    unfold commitGraceful
    cases stop.committed.phase <;> rfl
  cases event with
  | graceful instant => exact hgraceful stop instant
  | fatal error =>
    unfold commitEvent commitFatal
    cases hphase : stop.committed.phase <;> cases hfatal : stop.committed.fatal <;>
      simp [hphase, hfatal, hgraceful]
  | cancel | abandon =>
    unfold commitEvent commitForced
    cases stop.committed.phase <;> rfl
  | deadlineExpiry =>
    unfold commitEvent commitTimeout
    cases stop.committed.phase <;> rfl
  | settled =>
    unfold commitEvent commitSettlement displaceFatal
    cases stop.committed.phase <;> cases stop.committed.fatal <;> rfl

theorem commits_apply (event : StopEvent) :
    (stop.apply now event).2.committed.commits =
      stop.committed.commits + if (stop.apply now event).2.phase = stop.phase then 0 else 1 := by
  rw [apply, phase, phase]
  by_cases h : (({ stop with
      committed := { stop.committed with applied := stop.committed.applied + 1 } } :
        ServerStopState).commitEvent now event).committed.phase = stop.committed.phase
  · simp [h, commits_commitEvent]
  · simp [h, commits_commitEvent]

/-- What a commit does to the expiries: nothing, or a running server becomes graceful, the shared
expiry is written unless it stands, and the server keeps it. -/
def Mints (before after : ServerStopState) : Prop :=
  (after.shutdown = before.shutdown ∧
    after.committed.aggregateExpiry = before.committed.aggregateExpiry) ∨
  ∃ expiry, before.phase = .running ∧ after.phase = .graceful ∧
    (before.shutdown.expiry = none ∨ before.shutdown.expiry = some expiry) ∧
    after.shutdown.expiry = some expiry ∧ after.committed.aggregateExpiry = some expiry

theorem mints_commitGraceful {other : ServerStopState} (instant : ℕ)
    (hphase : other.phase = stop.phase) (hshutdown : other.shutdown = stop.shutdown)
    (hexpiry : other.committed.aggregateExpiry = stop.committed.aggregateExpiry) :
    Mints stop (other.commitGraceful instant) := by
  unfold commitGraceful
  cases hother : other.committed.phase with
  | graceful | cancelled | timedOut | finished => exact .inl ⟨hshutdown, hexpiry⟩
  | running =>
    have hrunning : stop.phase = .running := hphase.symm.trans hother
    cases hstanding : stop.shutdown.expiry with
    | none =>
      refine .inr ⟨instant + stop.shutdown.grace, hrunning, rfl, .inl hstanding, ?_, ?_⟩
      all_goals simp [AggregateShutdown.mintAt, hshutdown, hstanding]
    | some expiry =>
      refine .inr ⟨expiry, hrunning, rfl, .inr hstanding, ?_, ?_⟩
      all_goals simp [AggregateShutdown.mintAt, hshutdown, hstanding]

theorem mints_commitEvent (event : StopEvent) : Mints stop (stop.commitEvent now event) := by
  cases event with
  | graceful instant => exact mints_commitGraceful instant rfl rfl rfl
  | fatal error =>
    unfold commitEvent commitFatal
    cases hphase : stop.committed.phase with
    | running =>
      cases hfatal : stop.committed.fatal with
      | none | some held =>
        simp only [hphase, hfatal]
        exact mints_commitGraceful now hphase.symm rfl rfl
    | graceful => cases hfatal : stop.committed.fatal <;> exact .inl (by simp [hphase, hfatal])
    | cancelled | timedOut | finished => exact .inl (by simp [hphase])
  | cancel | abandon =>
    unfold commitEvent commitForced
    cases stop.committed.phase <;> exact .inl ⟨rfl, rfl⟩
  | deadlineExpiry =>
    unfold commitEvent commitTimeout
    cases stop.committed.phase <;> exact .inl ⟨rfl, rfl⟩
  | settled =>
    unfold commitEvent commitSettlement displaceFatal
    cases stop.committed.phase <;> cases stop.committed.fatal <;> exact .inl ⟨rfl, rfl⟩

theorem mints_apply (event : StopEvent) : Mints stop (stop.apply now event).2 :=
  mints_commitEvent event

theorem Mints.writes {before after : ServerStopState} (h : Mints before after) :
    Writes before.shutdown.expiry after.shutdown.expiry := by
  rcases h with ⟨hshutdown, -⟩ | ⟨expiry, -, -, hstanding, hminted, -⟩
  · exact .inl (congrArg AggregateShutdown.expiry hshutdown)
  · rcases hstanding with hnone | hsome
    · exact .inr ⟨hnone, expiry, hminted⟩
    · exact .inl (hminted.trans hsome.symm)

end ServerStopState

theorem AggregateShutdown.writes_mintAt {shutdown : AggregateShutdown} (instant : ℕ) :
    Writes shutdown.expiry (shutdown.mintAt instant).2.expiry := by
  rw [mintAt]
  cases h : shutdown.expiry with
  | none => exact .inr ⟨rfl, _, rfl⟩
  | some expiry => exact .inl h

theorem StopPhase.running_of_after {phase : StopPhase} {event : StopEvent}
    (h : phase.after event = .running) : phase = .running := by
  cases phase with
  | running => rfl
  | graceful | cancelled | timedOut | finished => cases event <;> cases h

def StopPhase.follows : StopPhase → StopPhase → Bool
  | .running, .graceful | .graceful, .cancelled | .graceful, .timedOut => true
  | .cancelled, .finished | .timedOut, .finished => true
  | .running, .cancelled | .graceful, .finished => true
  | _, _ => false

inductive StopCall where
  | apply (now : ℕ) (event : StopEvent)
  | settle (now : ℕ)
  | mint (instant : ℕ)

def StopCall.event : StopCall → Option StopEvent
  | .apply _ event => some event
  | .settle _ => some .settled
  | .mint _ => none

def StopEvent.fatal? : StopEvent → Option RuntimeError
  | .fatal error => some error
  | _ => none

def StopCall.fatal (call : StopCall) : Option RuntimeError := call.event.bind StopEvent.fatal?

namespace ServerStopState

def commit (stop : ServerStopState) : StopCall → ServerStopState
  | .apply now event => (stop.apply now event).2
  | .settle now => (stop.apply now .settled).2
  | .mint instant => { stop with shutdown := (stop.shutdown.mintAt instant).2 }

def call (stop : ServerStopState) : StopCall → Option (Except RuntimeError Unit) × ServerStopState
  | .apply now event => (none, (stop.apply now event).2)
  | .settle now => stop.settle now
  | .mint instant => (none, { stop with shutdown := (stop.shutdown.mintAt instant).2 })

end ServerStopState

/-- A stop state, and what its calls so far amount to: how often the phase moved, how many fatal
facts were applied and which came first to an open server, the phase a settlement found, the results
written into the empty cell and those handed out, and how often the shared expiry was written. -/
structure StopHistory where
  stop : ServerStopState
  changes : ℕ
  fatals : ℕ
  first : Option RuntimeError
  found : Option StopPhase
  fixed : List (Except RuntimeError Unit)
  handed : List (Except RuntimeError Unit)
  mints : ℕ

namespace StopHistory

def start (shutdown : AggregateShutdown) : StopHistory :=
  ⟨.new shutdown, 0, 0, none, none, [], [], 0⟩

def filled (before after : Option (Except RuntimeError Unit)) : List (Except RuntimeError Unit) :=
  if before.isNone then after.toList else []

def call (h : StopHistory) (call : StopCall) : StopHistory where
  stop := (h.stop.call call).2
  changes := h.changes + if (h.stop.call call).2.phase = h.stop.phase then 0 else 1
  fatals := h.fatals + call.fatal.toList.length
  first := h.first.or (if h.stop.phase.open then call.fatal else none)
  found := h.found.or
    (if h.stop.phase ≠ .finished ∧ (h.stop.call call).2.phase = .finished then some h.stop.phase
      else none)
  fixed := h.fixed ++ filled h.stop.committed.result (h.stop.commit call).committed.result
  handed := h.handed ++ (h.stop.call call).1.toList
  mints := h.mints +
    if (h.stop.call call).2.shutdown.expiry = h.stop.shutdown.expiry then 0 else 1

def of (shutdown : AggregateShutdown) (calls : List StopCall) : StopHistory :=
  calls.foldl call (start shutdown)

end StopHistory

namespace StopFacts

variable {facts : StopFacts}

theorem phase_after (event : StopEvent) : (facts.after event).phase = facts.phase.after event := by
  cases event with
  | graceful _ | cancel | abandon | deadlineExpiry => rfl
  | fatal error =>
    unfold after afterFatal
    cases facts.fatal <;> cases hphase : facts.phase <;>
      simp [hphase, StopPhase.after, StopPhase.open, countFatal]
  | settled =>
    unfold after afterSettled
    cases hphase : facts.phase <;> simp [hphase, StopPhase.after]

theorem after_finished (hphase : facts.phase = .finished) (hfatal : facts.fatal = none)
    (event : StopEvent) : (facts.after event).fatal = none ∧
      (facts.after event).result = facts.result ∧ (facts.after event).outcome = facts.outcome := by
  cases event with
  | graceful _ | cancel | abandon | deadlineExpiry => exact ⟨hfatal, rfl, rfl⟩
  | fatal error => simp [after, afterFatal, hphase, hfatal, StopPhase.open, countFatal]
  | settled => simp [after, afterSettled, hphase, hfatal]

theorem after_unsettled {event : StopEvent} (hevent : event ≠ .settled) :
    (facts.after event).fatal = facts.fatal.or (if facts.phase.open then event.fatal? else none) ∧
      (facts.after event).result = facts.result ∧ (facts.after event).outcome = facts.outcome := by
  cases event with
  | graceful _ | cancel | abandon | deadlineExpiry => simp [after, StopEvent.fatal?]
  | fatal error =>
    unfold after afterFatal
    cases hfatal : facts.fatal <;> cases hphase : facts.phase <;>
      simp [hphase, hfatal, StopPhase.open, countFatal, StopEvent.fatal?]
  | settled => exact absurd rfl hevent

theorem after_settled (hrunning : facts.phase ≠ .running) (hfinished : facts.phase ≠ .finished) :
    (facts.after .settled).phase = .finished ∧ (facts.after .settled).fatal = none ∧
      (facts.after .settled).result = some (facts.phase.verdict facts.fatal) ∧
      ((facts.after .settled).outcome = .failed ↔
        facts.phase = .graceful ∧ facts.fatal.isSome = true) := by
  unfold after afterSettled
  cases hphase : facts.phase with
  | running => exact absurd hphase hrunning
  | finished => exact absurd hphase hfinished
  | graceful => cases hfatal : facts.fatal <;> simp
  | cancelled | timedOut => simp

def weight (facts : StopFacts) : ℕ :=
  facts.laterFatalFacts + if facts.fatal.isSome ∨ facts.outcome = .failed then 1 else 0

theorem weight_after (hpending : facts.phase ≠ .finished → facts.outcome = .pending)
    (hended : facts.phase = .finished → facts.fatal = none) (event : StopEvent) :
    (facts.after event).weight = facts.weight + event.fatal?.toList.length := by
  cases event with
  | graceful _ | cancel | abandon | deadlineExpiry => rfl
  | fatal error =>
    unfold after afterFatal weight countFatal
    cases hphase : facts.phase <;> cases hfatal : facts.fatal <;>
      simp_all [StopPhase.open, StopEvent.fatal?]
    all_goals omega
  | settled =>
    unfold after afterSettled weight
    cases hphase : facts.phase <;> cases hfatal : facts.fatal <;>
      simp_all [StopEvent.fatal?]

end StopFacts

namespace StopHistory

def facts (h : StopHistory) : StopFacts := h.stop.committed.facts

/-- What is known before a settlement, and after it. -/
structure Decided (h : StopHistory) : Prop where
  undecided : h.facts.phase ≠ .finished → h.facts.fatal = h.first ∧ h.facts.result = none ∧
    h.facts.outcome = .pending ∧ h.found = none ∧ h.fixed = [] ∧ h.handed = []
  decided : h.facts.phase = .finished → h.facts.fatal = none ∧ ∃ found, h.found = some found ∧
    h.fixed = [found.verdict h.first] ∧
    ((h.facts.result = some (found.verdict h.first) ∧ h.handed = []) ∨
      (h.facts.result = none ∧ h.handed = [found.verdict h.first])) ∧
    (h.facts.outcome = .failed ↔ found = .graceful ∧ h.first.isSome = true)

variable {h : StopHistory} {now : ℕ}

theorem facts_apply (event : StopEvent) : (h.call (.apply now event)).facts = h.facts.after event :=
  ServerStopState.facts_apply event

def take (h : StopHistory) : StopHistory :=
  { h with
    stop := { h.stop with committed := { h.stop.committed with result := none } }
    handed := h.handed ++ h.stop.committed.result.toList }

theorem found_apply (event : StopEvent) :
    (h.call (.apply now event)).found = h.found.or
      (if h.facts.phase ≠ .finished ∧ (h.facts.after event).phase = .finished then some h.facts.phase
        else none) := by
  have hphase : (h.stop.call (.apply now event)).2.phase = (h.facts.after event).phase :=
    congrArg StopFacts.phase (facts_apply event)
  rw [call, hphase]
  rfl

theorem fixed_apply (event : StopEvent) :
    (h.call (.apply now event)).fixed = h.fixed ++ filled h.facts.result (h.facts.after event).result := by
  have hresult : (h.stop.commit (.apply now event)).committed.result = (h.facts.after event).result :=
    congrArg StopFacts.result (facts_apply event)
  rw [call, hresult]
  rfl

theorem handed_apply (event : StopEvent) : (h.call (.apply now event)).handed = h.handed :=
  List.append_nil _

theorem call_settle : h.call (.settle now) = (h.call (.apply now .settled)).take := by
  rw [take, handed_apply]
  rfl

theorem filled_same (result : Option (Except RuntimeError Unit)) : filled result result = [] := by
  cases result with
  | none => rfl
  | some value => rfl

theorem call_mint (instant : ℕ) :
    h.call (.mint instant) = { h with
      stop := { h.stop with shutdown := (h.stop.shutdown.mintAt instant).2 }
      mints := h.mints +
        if (h.stop.shutdown.mintAt instant).2.expiry = h.stop.shutdown.expiry then 0 else 1 } := by
  have hphase : (h.stop.call (.mint instant)).2.phase = h.stop.phase := rfl
  have hfatal : (StopCall.mint instant).fatal = none := rfl
  have hfixed : filled h.stop.committed.result (h.stop.commit (.mint instant)).committed.result = [] :=
    filled_same _
  simp only [call, hphase, hfatal, hfixed, if_true, ite_self, ne_eq, not_and_self, if_false,
    Option.or_none, List.append_nil, Option.toList_none, List.length_nil, Nat.add_zero]
  rw [show (h.stop.call (.mint instant)).1.toList = [] from rfl, List.append_nil]
  rfl

namespace Decided

theorem applyFinished (hd : Decided h) (hfinished : h.facts.phase = .finished) (event : StopEvent) :
    Decided (h.call (.apply now event)) := by
  obtain ⟨hfatal, found, hfound, hfixed, hcell, houtcome⟩ := hd.decided hfinished
  obtain ⟨hfatal', hresult', houtcome'⟩ := StopFacts.after_finished hfinished hfatal event
  have hphase' : (h.facts.after event).phase = .finished := by
    rw [StopFacts.phase_after, hfinished]
    rfl
  have hfirst : (h.call (.apply now event)).first = h.first := by
    have hclosed : h.stop.phase = .finished := hfinished
    simp [call, hclosed, StopPhase.open]
  refine ⟨fun hopen => absurd ?_ hopen, fun _ => ⟨?_, found, ?_, ?_, ?_, ?_⟩⟩
  · rw [facts_apply, hphase']
  · rw [facts_apply, hfatal']
  · rw [found_apply, hfound]
    rfl
  · rw [fixed_apply, hresult', filled_same, List.append_nil, hfixed, hfirst]
  · rw [facts_apply, hresult', handed_apply, hfirst]
    exact hcell
  · rw [facts_apply, houtcome', hfirst]
    exact houtcome

theorem applyOpen (hd : Decided h) (hopen : h.facts.phase ≠ .finished) {event : StopEvent}
    (hevent : event ≠ .settled) : Decided (h.call (.apply now event)) := by
  obtain ⟨hfatal, hresult, houtcome, hfound, hfixed, hhanded⟩ := hd.undecided hopen
  obtain ⟨hfatal', hresult', houtcome'⟩ := h.facts.after_unsettled hevent
  have hphase' : (h.facts.after event).phase ≠ .finished := by
    rw [StopFacts.phase_after]
    cases event with
    | settled => exact absurd rfl hevent
    | graceful _ | cancel | abandon | fatal _ | deadlineExpiry =>
      cases hphase : h.facts.phase with
      | finished => exact absurd hphase hopen
      | running | graceful | cancelled | timedOut => nofun
  refine ⟨fun _ => ⟨?_, ?_, ?_, ?_, ?_, ?_⟩, fun hfinished => absurd ?_ hphase'⟩
  · rw [facts_apply, hfatal', hfatal]
    rfl
  · rw [facts_apply, hresult', hresult]
  · rw [facts_apply, houtcome', houtcome]
  · rw [found_apply, hfound, if_neg fun hmoved => hphase' hmoved.2]
    rfl
  · rw [fixed_apply, hresult', filled_same, List.append_nil, hfixed]
  · rw [handed_apply, hhanded]
  · rwa [facts_apply] at hfinished

theorem applySettled (hd : Decided h) (hopen : h.facts.phase ≠ .finished) :
    Decided (h.call (.apply now .settled)) := by
  obtain ⟨hfatal, hresult, houtcome, hfound, hfixed, hhanded⟩ := hd.undecided hopen
  have hfirst : (h.call (.apply now .settled)).first = h.first := by
    simp [call, StopCall.fatal, StopCall.event, StopEvent.fatal?]
  by_cases hrunning : h.facts.phase = .running
  · have hsame : h.facts.after .settled = h.facts := by
      simp only [StopFacts.after, StopFacts.afterSettled, hrunning]
    refine ⟨fun _ => ⟨?_, ?_, ?_, ?_, ?_, ?_⟩, fun hfinished => absurd ?_ hopen⟩
    · rw [facts_apply, hsame, hfatal, hfirst]
    · rw [facts_apply, hsame, hresult]
    · rw [facts_apply, hsame, houtcome]
    · rw [found_apply, hsame, hfound, if_neg fun hmoved => hopen hmoved.2]
      rfl
    · rw [fixed_apply, hsame, filled_same, List.append_nil, hfixed]
    · rw [handed_apply, hhanded]
    · rwa [facts_apply, hsame] at hfinished
  · obtain ⟨hphase', hfatal', hresult', houtcome'⟩ := StopFacts.after_settled hrunning hopen
    refine ⟨fun hnot => absurd ?_ hnot, fun _ => ⟨?_, h.facts.phase, ?_, ?_, .inl ⟨?_, ?_⟩, ?_⟩⟩
    · rw [facts_apply, hphase']
    · rw [facts_apply, hfatal']
    · rw [found_apply, hfound, if_pos ⟨hopen, hphase'⟩]
      rfl
    · rw [fixed_apply, hresult', hresult, hfixed, hfirst, hfatal]
      rfl
    · rw [facts_apply, hresult', hfirst, hfatal]
    · rw [handed_apply, hhanded]
    · rw [facts_apply, houtcome', hfirst, hfatal]

theorem apply (hd : Decided h) (event : StopEvent) : Decided (h.call (.apply now event)) := by
  by_cases hfinished : h.facts.phase = .finished
  · exact hd.applyFinished hfinished event
  · by_cases hevent : event = .settled
    · exact hevent ▸ hd.applySettled hfinished
    · exact hd.applyOpen hfinished hevent

theorem take (hd : Decided h) : Decided h.take := by
  refine ⟨fun hopen => ?_, fun hfinished => ?_⟩
  · obtain ⟨hfatal, hresult, houtcome, hfound, hfixed, hhanded⟩ := hd.undecided hopen
    refine ⟨hfatal, rfl, houtcome, hfound, hfixed, ?_⟩
    rw [StopHistory.take, show h.stop.committed.result = none from hresult, hhanded]
    rfl
  · obtain ⟨hfatal, found, hfound, hfixed, hcell, houtcome⟩ := hd.decided hfinished
    refine ⟨hfatal, found, hfound, hfixed, .inr ⟨rfl, ?_⟩, houtcome⟩
    rcases hcell with ⟨hresult, hhanded⟩ | ⟨hresult, hhanded⟩
    · rw [StopHistory.take, show h.stop.committed.result = _ from hresult, hhanded]
      rfl
    · rw [StopHistory.take, show h.stop.committed.result = none from hresult, hhanded]
      rfl

end Decided

structure Accounted (standing : Option ℕ) (h : StopHistory) : Prop where
  decided : Decided h
  balanced : h.fatals = h.facts.weight
  counted : h.stop.committed.commits = h.changes
  minted : h.mints + standing.toList.length = h.stop.shutdown.expiry.toList.length
  own : ∀ expiry, h.stop.committed.aggregateExpiry = some expiry →
    h.stop.shutdown.expiry = some expiry
  fresh : h.stop.phase = .running → h.stop.committed.aggregateExpiry = none

variable {standing : Option ℕ}

namespace Accounted

variable (ha : Accounted standing h)

include ha

theorem writes {expiry : Option ℕ} (hwrites : Writes h.stop.shutdown.expiry expiry) :
    h.mints + (if expiry = h.stop.shutdown.expiry then 0 else 1) + standing.toList.length =
      expiry.toList.length := by
  have hminted := ha.minted
  rcases hwrites with rfl | ⟨hnone, value, rfl⟩
  · rw [if_pos rfl, Nat.add_zero, hminted]
  · rw [hnone, Option.toList_none, List.length_nil] at hminted
    rw [hnone, if_neg (Option.some_ne_none value), Option.toList_some, List.length_singleton]
    omega

theorem apply (event : StopEvent) : Accounted standing (h.call (.apply now event)) where
  decided := ha.decided.apply event
  balanced := by
    have hpending : h.facts.phase ≠ .finished → h.facts.outcome = .pending :=
      fun hopen => (ha.decided.undecided hopen).2.2.1
    have hended : h.facts.phase = .finished → h.facts.fatal = none :=
      fun hfinished => (ha.decided.decided hfinished).1
    rw [facts_apply, StopFacts.weight_after hpending hended, ← ha.balanced]
    rfl
  counted := by
    rw [StopHistory.call, ← ha.counted]
    exact ServerStopState.commits_apply event
  minted := ha.writes (ServerStopState.mints_apply event).writes
  own := by
    intro expiry hexpiry
    rcases ServerStopState.mints_apply event with ⟨hshutdown, hsame⟩ | ⟨minted, -, -, -, hshared, hown⟩
    · exact (congrArg AggregateShutdown.expiry hshutdown).trans (ha.own expiry (hsame.symm.trans hexpiry))
    · exact hshared.trans (hown.symm.trans hexpiry)
  fresh := by
    intro hrunning
    have hbefore : h.stop.phase = .running :=
      StopPhase.running_of_after ((phase_apply event).symm.trans hrunning)
    rcases ServerStopState.mints_apply event with ⟨-, hsame⟩ | ⟨minted, -, hgraceful, -⟩
    · exact hsame.trans (ha.fresh hbefore)
    · exact absurd (hgraceful.symm.trans hrunning) nofun

theorem take : Accounted standing h.take :=
  ⟨ha.decided.take, ha.balanced, ha.counted, ha.minted, ha.own, ha.fresh⟩

theorem mint (instant : ℕ) : Accounted standing (h.call (.mint instant)) := by
  rw [call_mint]
  refine ⟨⟨ha.decided.undecided, ha.decided.decided⟩, ha.balanced, ha.counted,
    ha.writes (AggregateShutdown.writes_mintAt instant), ?_, ha.fresh⟩
  intro expiry hexpiry
  exact (AggregateShutdown.writes_mintAt instant).keeps (ha.own expiry hexpiry)

theorem call (call : StopCall) : Accounted standing (h.call call) := by
  cases call with
  | apply now event => exact ha.apply event
  | settle now =>
    rw [call_settle]
    exact (ha.apply .settled).take
  | mint instant => exact ha.mint instant

theorem keeps (call : StopCall) (expiry : ℕ) :
    (h.stop.shutdown.expiry = some expiry →
      (h.call call).stop.shutdown.expiry = some expiry) ∧
    (h.stop.committed.aggregateExpiry = some expiry →
      (h.call call).stop.committed.aggregateExpiry = some expiry) := by
  have happly : ∀ now event,
      (h.stop.shutdown.expiry = some expiry →
        (h.stop.apply now event).2.shutdown.expiry = some expiry) ∧
      (h.stop.committed.aggregateExpiry = some expiry →
        (h.stop.apply now event).2.committed.aggregateExpiry = some expiry) := by
    intro now event
    refine ⟨(ServerStopState.mints_apply event).writes.keeps, fun hexpiry => ?_⟩
    rcases ServerStopState.mints_apply event with ⟨-, hsame⟩ | ⟨minted, hrunning, -⟩
    · exact hsame.trans hexpiry
    · rw [ha.fresh hrunning] at hexpiry
      cases hexpiry
  cases call with
  | apply now event => exact happly now event
  | settle now => exact happly now .settled
  | mint instant => exact ⟨(AggregateShutdown.writes_mintAt instant).keeps, id⟩

end Accounted

end StopHistory

end Camber.Server
