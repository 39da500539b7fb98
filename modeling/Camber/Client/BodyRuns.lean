import Camber.Client.BodyHandoff

/-! What holds over every interleaving of a body's two sides. -/

namespace Camber.Client.Body
open Str Inbound Transition Exchange

variable {e : Exchange} {a : Action}

inductive Exchange.Touches (e : Exchange) : Slot → List Answer → Prop
  | nothing : e.Touches e.slot e.answers
  | place (live : e.slot.phase = .live) : e.Touches { e.slot with demanded := true } e.answers
  | take {chunk : Bytes} (waits : e.slot.chunk = some chunk) :
      e.Touches { e.slot with chunk := none } (e.answers ++ [.chunk chunk])
  | learn {terminal : BodyTerminal} (empty : e.slot.chunk = none)
      (settled : e.slot.phase = .settled terminal) :
      e.Touches e.slot (e.answers ++ [.ended terminal])
  | abandon (live : e.slot.phase = .live) :
      e.Touches ⟨.committed .abandoned, false, none⟩ e.answers
  | accept (live : e.slot.phase = .live) : e.Touches { e.slot with demanded := false } e.answers
  | deliver {chunk : Bytes} (live : e.slot.phase = .live) :
      e.Touches { e.slot with chunk := some chunk } e.answers
  | commit {terminal : BodyTerminal} (live : e.slot.phase = .live) :
      e.Touches { e.slot with phase := .committed terminal } e.answers
  | settle {terminal : BodyTerminal} (committed : e.slot.phase = .committed terminal) :
      e.Touches (.settle terminal) e.answers

theorem touches_abandon (e : Exchange) : e.Touches e.slot.abandon e.answers := by
  rcases e.abandon_cases with ⟨hlive, heq⟩ | ⟨kept, -, heq⟩
  · rw [heq]
    exact .abandon hlive
  · rw [heq]
    exact .nothing

theorem touches_act (h : Handoff e) (hready : e.Ready a) :
    e.Touches (Exchange.act a e).slot (Exchange.act a e).answers := by
  cases a with
  | placeDemand =>
    rw [Exchange.act]
    rcases e.placeDemand_cases with ⟨hlive, heq⟩ | ⟨kept, -, heq⟩
    · rw [heq]
      exact .place hlive
    · rw [heq]
      exact .nothing
  | pollAnswer =>
    rw [Exchange.act]
    rcases e.pollAnswer_cases with ⟨chunk, hchunk, heq⟩ | ⟨terminal, hnone, hsettled, heq⟩ | heq
    · rw [heq]
      exact .take hchunk
    · rw [heq]
      exact .learn hnone hsettled
    · rw [heq]
      exact .nothing
  | dropDemand | close | dropHandle => exact touches_abandon e
  | pollSettled =>
    rw [Exchange.act]
    rcases e.pollSettled_cases with ⟨terminal, -, heq⟩ | heq
    · rw [heq]
      exact .nothing
    · rw [heq]
      exact .nothing
  | pollDemand =>
    rw [Exchange.act]
    rcases e.pollDemand_cases with ⟨hlive, -, heq⟩ | heq | ⟨kept, -, heq⟩
    · rw [heq]
      exact .accept hlive
    · rw [heq]
      exact .nothing
    · rw [heq]
      exact .nothing
  | pollWithdrawn =>
    rw [Exchange.act]
    rcases e.pollWithdrawn_cases with ⟨-, heq⟩ | ⟨kept, -, heq⟩
    · rw [heq]
      exact .nothing
    · rw [heq]
      exact .nothing
  | expire _ | read _ | readPending | readIdle | abort | dropSource => exact .nothing
  | count =>
    obtain ⟨chunk, hadmitting⟩ := hready
    rw [Exchange.act]
    rcases count_cases hadmitting with ⟨-, heq⟩ | heq
    · rw [heq]
      exact .nothing
    · rw [heq]
      exact .nothing
  | deliver =>
    obtain ⟨chunk, hdelivering⟩ := hready
    rw [Exchange.act]
    rcases deliver_cases hdelivering with ⟨hlive, heq⟩ | ⟨kept, -, heq⟩
    · rw [heq]
      exact .deliver hlive
    · rw [heq]
      exact .nothing
  | commit =>
    obtain ⟨terminal, hended⟩ := hready
    rw [Exchange.act]
    rcases commit_cases hended with ⟨hlive, heq⟩ | ⟨kept, -, heq⟩
    · rw [heq]
      exact .commit hlive
    · rw [heq]
      exact .nothing
  | conclude =>
    rw [Exchange.act]
    rcases e.conclude_cases with ⟨hlive, heq⟩ | ⟨kept, -, heq⟩
    · rw [heq]
      exact .commit hlive
    · rw [heq]
      exact .nothing
  | publish =>
    obtain ⟨terminal, hconcluded⟩ := hready
    rw [Exchange.act, publish_of_concluded hconcluded]
    exact .nothing
  | settle =>
    obtain ⟨terminal, hpublished⟩ := hready
    have hagrees := h.agrees
    rw [hpublished] at hagrees
    rw [Exchange.act, settle_of_published hpublished]
    exact .settle hagrees

namespace Exchange.Touches

variable {slot : Slot} {answers : List Answer} {terminal : BodyTerminal}

variable (h : e.Touches slot answers)

include h

theorem fact (hfact : e.slot.phase.fact = some terminal) : slot.phase.fact = some terminal := by
  cases h with
  | nothing | take _ | learn _ _ => exact hfact
  | place live | abandon live | accept live | deliver live | commit live =>
    rw [live] at hfact
    cases hfact
  | settle committed =>
    rw [committed] at hfact
    exact hfact

theorem settled (hsettled : e.slot.phase = .settled terminal) (hempty : e.slot.chunk = none) :
    slot = e.slot ∧ (answers = e.answers ∨ answers = e.answers ++ [.ended terminal]) := by
  cases h with
  | nothing => exact ⟨rfl, .inl rfl⟩
  | take waits =>
    rw [hempty] at waits
    cases waits
  | learn _ settled =>
    rw [hsettled] at settled
    cases settled
    exact ⟨rfl, .inr rfl⟩
  | place live | abandon live | accept live | deliver live | commit live =>
    rw [hsettled] at live
    cases live
  | settle committed =>
    rw [hsettled] at committed
    cases committed

theorem empty (hfact : e.slot.phase.fact = some terminal) (hempty : e.slot.chunk = none) :
    slot.chunk = none ∧ answers.filterMap Answer.taken = e.received := by
  cases h with
  | nothing => exact ⟨hempty, rfl⟩
  | take waits =>
    rw [hempty] at waits
    cases waits
  | learn _ _ => exact ⟨hempty, (received_append _ _).trans (List.append_nil _)⟩
  | place live | abandon live | accept live | deliver live | commit live =>
    rw [live] at hfact
    cases hfact
  | settle _ => exact ⟨rfl, rfl⟩

theorem empty_of_settled
    (hempty : ∀ terminal, e.slot.phase = .settled terminal → e.slot.chunk = none)
    (hsettled : slot.phase = .settled terminal) : slot.chunk = none := by
  cases h with
  | nothing => exact hempty terminal hsettled
  | take _ | settle _ => rfl
  | learn empty _ => exact empty
  | place live | accept live | deliver live =>
    rw [show e.slot.phase = .settled terminal from hsettled] at live
    cases live
  | abandon _ | commit _ => cases hsettled

theorem answered (hmem : Answer.ended terminal ∈ answers) :
    Answer.ended terminal ∈ e.answers ∨ e.slot.phase = .settled terminal := by
  cases h with
  | nothing | place _ | abandon _ | accept _ | deliver _ | commit _ | settle _ => exact .inl hmem
  | take _ =>
    rcases List.mem_append.mp hmem with hmem | hmem
    · exact .inl hmem
    · cases List.mem_singleton.mp hmem
  | learn _ settled =>
    rcases List.mem_append.mp hmem with hmem | hmem
    · exact .inl hmem
    · cases List.mem_singleton.mp hmem
      exact .inr settled

end Exchange.Touches

structure Seen (e : Exchange) : Prop where
  empty : ∀ terminal, e.slot.phase = .settled terminal → e.slot.chunk = none
  answered : ∀ terminal, Answer.ended terminal ∈ e.answers → e.slot.phase = .settled terminal
  closed : ∀ terminal, e.caller = .closed terminal → e.slot.phase = .settled terminal

variable {terminal : BodyTerminal} {e' : Exchange}

theorem closed_act (hready : e.Ready a) (h : (Exchange.act a e).caller = .closed terminal) :
    e.caller = .closed terminal ∨ e.slot.phase = .settled terminal := by
  cases a with
  | placeDemand | dropDemand | close | dropHandle => cases h
  | pollAnswer =>
    rw [Exchange.act] at h
    rcases e.pollAnswer_cases with ⟨chunk, -, heq⟩ | ⟨fact, -, -, heq⟩ | heq
    · rw [heq] at h
      cases h
    · rw [heq] at h
      cases h
    · exact .inl (heq ▸ h)
  | pollSettled =>
    rw [Exchange.act] at h
    rcases e.pollSettled_cases with ⟨fact, hsettled, heq⟩ | heq
    · rw [heq] at h
      cases h
      exact .inr hsettled
    · exact .inl (heq ▸ h)
  | pollDemand =>
    rw [Exchange.act] at h
    rcases e.pollDemand_cases with ⟨-, -, heq⟩ | heq | ⟨kept, -, heq⟩
    all_goals
      rw [heq] at h
      exact .inl h
  | pollWithdrawn =>
    rw [Exchange.act] at h
    rcases e.pollWithdrawn_cases with ⟨-, heq⟩ | ⟨kept, -, heq⟩
    all_goals
      rw [heq] at h
      exact .inl h
  | expire _ | read _ | readPending | readIdle | abort | dropSource | conclude => exact .inl h
  | count =>
    obtain ⟨chunk, hadmitting⟩ := hready
    rw [Exchange.act] at h
    rcases count_cases hadmitting with ⟨-, heq⟩ | heq
    all_goals
      rw [heq] at h
      exact .inl h
  | deliver =>
    obtain ⟨chunk, hdelivering⟩ := hready
    rw [Exchange.act] at h
    rcases deliver_cases hdelivering with ⟨-, heq⟩ | ⟨kept, -, heq⟩
    all_goals
      rw [heq] at h
      exact .inl h
  | commit =>
    obtain ⟨fact, hended⟩ := hready
    rw [Exchange.act] at h
    rcases commit_cases hended with ⟨-, heq⟩ | ⟨kept, -, heq⟩
    all_goals
      rw [heq] at h
      exact .inl h
  | publish =>
    obtain ⟨fact, hconcluded⟩ := hready
    rw [Exchange.act, publish_of_concluded hconcluded] at h
    exact .inl h
  | settle =>
    obtain ⟨fact, hpublished⟩ := hready
    rw [Exchange.act, settle_of_published hpublished] at h
    exact .inl h

theorem Seen.act (h : Seen e) (hhandoff : Handoff e) (hready : e.Ready a) :
    Seen (Exchange.act a e) := by
  have htouch := touches_act hhandoff hready
  have hkept : ∀ terminal, e.slot.phase = .settled terminal →
      (Exchange.act a e).slot.phase = .settled terminal := by
    intro terminal hsettled
    rw [(htouch.settled hsettled (h.empty terminal hsettled)).1, hsettled]
  refine ⟨fun terminal => htouch.empty_of_settled h.empty, fun terminal hmem => ?_,
    fun terminal hclosed => ?_⟩
  · rcases htouch.answered hmem with hmem | hsettled
    · exact hkept terminal (h.answered terminal hmem)
    · exact hkept terminal hsettled
  · rcases closed_act hready hclosed with hclosed | hsettled
    · exact hkept terminal (h.closed terminal hclosed)
    · exact hkept terminal hsettled

abbrev Steps := Acts Ready Exchange.act

/-- Everything that holds in a reached state. -/
structure Sound (limit counted : ℕ) (e : Exchange) : Prop where
  handoff : Handoff e
  flow : Flow e
  budgeted : Budgeted limit counted e
  seen : Seen e

variable {limit counted : ℕ} {carries : Bool} {trace : List Action}

theorem sound_start (limit counted : ℕ) (carries : Bool) :
    Sound limit counted (.start limit counted carries) :=
  ⟨handoff_start .., flow_start .., .start carries, ⟨fun _ _ => rfl, nofun, nofun⟩⟩

section

variable (h : Sound limit counted e)

include h

theorem Sound.act (hready : e.Ready a) : Sound limit counted (Exchange.act a e) :=
  ⟨h.handoff.act hready, h.flow.act h.handoff hready, h.budgeted.act hready,
    h.seen.act h.handoff hready⟩

theorem Sound.run (run : Runs Steps e trace e') : Sound limit counted e' := by
  induction run with
  | nil => exact h
  | snoc _ hstep ih =>
    obtain ⟨hready, rfl⟩ := hstep
    exact ih.act hready

theorem fact_run (run : Runs Steps e trace e') (hfact : e.slot.phase.fact = some terminal) :
    e'.slot.phase.fact = some terminal := by
  induction run with
  | nil => exact hfact
  | snoc before hstep ih =>
    obtain ⟨hready, rfl⟩ := hstep
    exact (touches_act (h.run before).handoff hready).fact ih

theorem answers_run (run : Runs Steps e trace e') (hsettled : e.slot.phase = .settled terminal) :
    e'.slot.phase = .settled terminal ∧
      ∃ n, e'.answers = e.answers ++ List.replicate n (.ended terminal) := by
  induction run with
  | nil => exact ⟨hsettled, 0, (List.append_nil _).symm⟩
  | snoc before hstep ih =>
    obtain ⟨hready, rfl⟩ := hstep
    obtain ⟨hphase, n, hanswers⟩ := ih
    have hbefore := h.run before
    obtain ⟨hslot, hmore⟩ := (touches_act hbefore.handoff hready).settled hphase
      (hbefore.seen.empty terminal hphase)
    refine ⟨hslot ▸ hphase, ?_⟩
    rcases hmore with hsame | hmore
    · exact ⟨n, hsame.trans hanswers⟩
    · exact ⟨n + 1, by rw [hmore, hanswers, List.append_assoc, List.replicate_succ']⟩

theorem received_run (run : Runs Steps e trace e') (hfact : e.slot.phase.fact = some terminal)
    (hempty : e.slot.chunk = none) : e'.slot.chunk = none ∧ e'.received = e.received := by
  induction run with
  | nil => exact ⟨hempty, rfl⟩
  | snoc before hstep ih =>
    obtain ⟨hready, rfl⟩ := hstep
    obtain ⟨hnone, hsame⟩ := ih
    obtain ⟨hnone', hsame'⟩ := (touches_act (h.run before).handoff hready).empty
      (fact_run h before hfact) hnone
    exact ⟨hnone', hsame'.trans hsame⟩

end

theorem ne_nil_of_mem_payloads {events : List SourceEvent} {chunk : Bytes}
    (h : chunk ∈ payloads events) : chunk ≠ [] := by
  obtain ⟨event, -, hpayload⟩ := List.mem_filterMap.mp h
  cases event with
  | ended | failed => cases hpayload
  | frame sent =>
    cases sent with
    | trailers _ => cases hpayload
    | data data =>
      rw [SourceEvent.payload, payload] at hpayload
      split_ifs at hpayload with hempty
      obtain rfl := Option.some_inj.mp hpayload
      simpa using hempty

theorem Handoff.retained (h : Handoff e) :
    e.slot.chunk.toList.length + e.owner.hand.toList.length ≤ 1 := by
  have honce := h.once
  rw [outstanding] at honce
  cases howner : e.owner with
  | admitting chunk | delivering chunk =>
    simp only [howner, OwnerStage.accepted, Bool.toNat_true] at honce
    simp only [OwnerStage.hand, Option.toList_some, List.length_singleton]
    omega
  | waiting | selecting | polling | ended _ | returned | released | concluded _ | published _ | done =>
    simp only [OwnerStage.hand, Option.toList_none, List.length_nil]
    omega

/-- Whatever the two sides do, in any order: the caller receives the first nonempty frames of the
source, each once, in order and within the limit; a call returns a clean end only after the source
ended and every chunk was received; the fact is written once, and every demand answered after it
settled gets the same answer; one chunk is retained at most; and the caller reads a fact only after
the source was dropped. -/
theorem delivers_in_order (run : Runs Steps (.start limit counted carries) trace e) :
    (e.received <+: payloads e.events ∧ (∀ chunk ∈ e.received, chunk ≠ []) ∧
      bytes e.received ≤ limit - counted) ∧
    (∀ answer ∈ e.answers, answer.result = .ok none →
      e.events.getLast? = some .ended ∧ e.received = payloads e.events) ∧
    (∀ later e' terminal, Runs Steps e later e' →
      (e.slot.phase.fact = some terminal → e'.slot.phase.fact = some terminal) ∧
      (e.slot.phase = .settled terminal →
        ∃ n, e'.answers = e.answers ++ List.replicate n (.ended terminal))) ∧
    e.slot.chunk.toList.length + e.owner.hand.toList.length ≤ 1 ∧
    (∀ terminal, Answer.ended terminal ∈ e.answers ∨ e.caller = .closed terminal →
      e.slot.phase = .settled terminal ∧ e.owner.holdsSource = false) := by
  have hsound := (sound_start limit counted carries).run run
  have hdone : ∀ terminal, e.slot.phase = .settled terminal → e.owner.holdsSource = false := by
    intro terminal hsettled
    have hagrees := hsound.handoff.agrees
    rw [hsettled] at hagrees
    rw [hagrees.of_settled]
    rfl
  refine ⟨⟨hsound.flow.received, ?_, hsound.budgeted.received_le⟩, ?_, ?_,
    hsound.handoff.retained, ?_⟩
  · intro chunk hmem
    exact ne_nil_of_mem_payloads (hsound.flow.received.subset hmem)
  · intro answer hmem hresult
    obtain rfl : answer = .ended .ended := by
      cases answer with
      | chunk chunk => cases hresult
      | ended terminal =>
        cases terminal with
        | ended => rfl
        | abandoned | stopped | failed _ => cases hresult
    have hsettled := hsound.seen.answered _ hmem
    obtain ⟨hlast, hall, -⟩ := hsound.flow.clean (.inr (by rw [hsettled]; rfl))
    exact ⟨hlast, hall⟩
  · intro later e' terminal rest
    exact ⟨fact_run hsound rest, fun hsettled => (answers_run hsound rest hsettled).2⟩
  · rintro terminal (hmem | hclosed)
    · have hsettled := hsound.seen.answered terminal hmem
      exact ⟨hsettled, hdone terminal hsettled⟩
    · have hsettled := hsound.seen.closed terminal hclosed
      exact ⟨hsettled, hdone terminal hsettled⟩

def sampleRead : List Action :=
  [.placeDemand, .pollDemand, .pollWithdrawn, .read (.frame (.data [7])), .count, .deliver,
    .pollAnswer, .placeDemand, .pollDemand, .pollWithdrawn, .read .ended, .commit, .dropSource,
    .conclude, .publish, .settle, .pollAnswer]

theorem delivers_in_order_sampleRead :
    (replay Exchange.act (.start 10 0 true) sampleRead).answers = [.chunk [7], .ended .ended] ∧
      (replay Exchange.act (.start 10 0 true) sampleRead).received =
        payloads (replay Exchange.act (.start 10 0 true) sampleRead).events := by
  have hready : ReadyAll Ready Exchange.act (.start 10 0 true) sampleRead :=
    ⟨rfl, rfl, rfl, rfl, ⟨_, rfl⟩, ⟨_, rfl⟩, rfl, rfl, rfl, rfl, rfl, ⟨_, rfl⟩, rfl, rfl, ⟨_, rfl⟩,
      ⟨_, rfl⟩, rfl, trivial⟩
  have hanswers : (replay Exchange.act (.start 10 0 true) sampleRead).answers =
      [.chunk [7], .ended .ended] := by decide
  refine ⟨hanswers, ?_⟩
  exact ((delivers_in_order (runs_replay hready)).2.1 (.ended .ended) (by rw [hanswers]; simp) rfl).2

theorem dropDemand_empty (h : e.slot.phase = .live ∨ e.slot.chunk = none) :
    ∃ terminal, e.dropDemand.slot.phase.fact = some terminal ∧ e.dropDemand.slot.chunk = none := by
  rw [dropDemand]
  rcases e.abandon_cases with ⟨-, heq⟩ | ⟨kept, hkept, heq⟩
  · exact ⟨.abandoned, by rw [heq]; rfl, by rw [heq]⟩
  · rw [heq]
    rcases h with hlive | hempty
    · rw [hlive] at hkept
      cases hkept
    · exact ⟨kept, hkept, hempty⟩

theorem received_after_drop {chunk : Bytes} {kept : BodyTerminal}
    (hkept : e.slot.phase.fact = some kept) (hchunk : e.slot.chunk = some chunk) :
    e.dropDemand.placeDemand.pollAnswer.received = e.received ++ [chunk] := by
  have hslot : e.dropDemand.placeDemand.slot = e.slot := by
    rw [placeDemand, dropDemand, Slot.abandon_of_fact hkept,
      Slot.placeDemand_of_fact hkept]
  rw [pollAnswer_of_chunk (hslot ▸ hchunk)]
  exact received_append _ _

/-- A dropped demand's chunk is received later exactly when it waited under a committed fact: the
drop then changes nothing, and a later call reads the slot before the fact. -/
theorem interrupted_iff (run : Runs Steps (.start limit counted carries) trace e)
    (hdemanding : e.caller = .demanding) :
    (∀ later e', Runs Steps e.dropDemand later e' → e'.received = e.received) ↔
      e.slot.phase = .live ∨ e.slot.chunk = none := by
  have hdropped : Sound limit counted e.dropDemand :=
    ((sound_start limit counted carries).run run).act (show e.Ready .dropDemand from hdemanding)
  constructor
  · intro hnever
    by_contra hwaits
    rw [not_or] at hwaits
    obtain ⟨kept, hkept⟩ := e.slot.live_or_fact.resolve_left hwaits.1
    obtain ⟨chunk, hchunk⟩ := Option.ne_none_iff_exists'.mp hwaits.2
    have hready : ReadyAll Ready Exchange.act e.dropDemand [.placeDemand, .pollAnswer] :=
      ⟨rfl, rfl, trivial⟩
    have hlater : e.dropDemand.placeDemand.pollAnswer.received = e.received :=
      hnever _ _ (runs_replay hready)
    rw [received_after_drop hkept hchunk] at hlater
    simp at hlater
  · intro hempties later e' rest
    obtain ⟨terminal, hfact, hempty⟩ := dropDemand_empty hempties
    exact (received_run hdropped rest hfact hempty).2

def sampleExpired : List Action :=
  [.placeDemand, .pollDemand, .pollWithdrawn, .read (.frame (.data [7])), .count, .deliver,
    .expire .operation, .commit]

/-- The demand is dropped after the expiry was committed and before it settled. -/
theorem interrupted_chunk_received :
    ReadyAll Ready Exchange.act (.start 10 0 true)
      (sampleExpired ++ [.dropDemand, .placeDemand, .pollAnswer]) ∧
    (replay Exchange.act (.start 10 0 true) (sampleExpired ++ [.dropDemand])).answers = [] ∧
    (replay Exchange.act (.start 10 0 true)
      (sampleExpired ++ [.dropDemand, .placeDemand, .pollAnswer])).answers = [.chunk [7]] :=
  ⟨⟨rfl, rfl, rfl, rfl, ⟨_, rfl⟩, ⟨_, rfl⟩, rfl, ⟨_, rfl⟩, rfl, rfl, rfl, trivial⟩, rfl, rfl⟩

def sampleDelivered : List Action :=
  [.placeDemand, .pollDemand, .pollWithdrawn, .read (.frame (.data [7])), .count, .deliver]

theorem interrupted_iff_sampleDelivered :
    (replay Exchange.act (.start 10 0 true) sampleDelivered).slot.chunk = some [7] ∧
    ∀ later e', Runs Steps (replay Exchange.act (.start 10 0 true) sampleDelivered).dropDemand later e' →
      e'.received = [] := by
  have hready : ReadyAll Ready Exchange.act (.start 10 0 true) sampleDelivered :=
    ⟨rfl, rfl, rfl, rfl, ⟨_, rfl⟩, ⟨_, rfl⟩, trivial⟩
  exact ⟨rfl, (interrupted_iff (runs_replay hready) rfl).mpr (.inl rfl)⟩

end Camber.Client.Body
