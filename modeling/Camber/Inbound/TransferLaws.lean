import Camber.Inbound.TransferRuns

/-! The frames without payload of a source change nothing a consumer can see
(`pollTransfer_carrying`). -/

namespace Camber.Inbound
open Str Transition QuietClock

def carrying (source : List (Poll SourceStep)) : List (Poll SourceStep) :=
  source.filter fun step => step ≠ .ready .empty

@[simp] theorem carrying_empty (source : List (Poll SourceStep)) :
    carrying (.ready .empty :: source) = carrying source := by
  simp [carrying]

theorem carrying_cons (step : Poll SourceStep) (hstep : step ≠ .ready .empty)
    (source : List (Poll SourceStep)) : carrying (step :: source) = step :: carrying source := by
  simp [carrying, hstep]

namespace Transfer

def carrying (t : Transfer) : Transfer := { t with source := Inbound.carrying t.source }

theorem arm_carrying (t : Transfer) (now : ℕ) : t.carrying.arm now = (t.arm now).carrying := by
  rw [arm_eq, arm_eq]
  rfl

theorem weighed_carrying (t : Transfer) (read : SourceRead) (r : Reading) :
    t.carrying.weighed read r = ((t.weighed read r).1, (t.weighed read r).2.carrying) := by
  obtain ⟨source, direction, budget, counted, total, quietSince, ended, pending, authority,
    account⟩ := t
  cases authority <;> cases read <;> rfl

theorem select_carrying (t : Transfer) (ready : InboundReady) :
    t.carrying.select ready = ((t.select ready).1, (t.select ready).2.1,
      (t.select ready).2.2.carrying) := by
  obtain ⟨source, direction, budget, counted, total, quietSince, ended, pending, authority,
    account⟩ := t
  unfold select
  cases ready.firstReady with
  | none => cases pending <;> rfl
  | some x => cases pending <;> cases x <;> rfl

theorem readSource_carrying {t : Transfer} {now : ℕ} (hread : (t.readSource now).1 ≠ .nothing) :
    t.carrying.readSource now = ((t.readSource now).1, (t.readSource now).2.1,
      (t.readSource now).2.2.carrying) := by
  obtain ⟨source, direction, budget, counted, total, quietSince, ended, pending, authority,
    account⟩ := t
  cases pending with
  | some frame => rfl
  | none =>
    rcases source with _ | ⟨_ | step, source⟩
    · rfl
    · rfl
    · cases step with
      | empty => exact absurd rfl hread
      | end_ => rfl
      | failed account => rfl
      | data frame =>
        simp only [carrying, carrying_cons (.ready (.data frame)) (by simp), readSource,
          admitted, Option.isSome_none, Bool.false_eq_true, if_false]
        cases checkedBodyFrameTotal counted frame.1.length budget.ceiling <;> rfl

theorem pollWithin_arm {t : Transfer} (hended : t.ended = none) (r : Reading) (turns : ℕ) :
    pollWithin r (turns + 1) (t.arm r.armed) = pollWithin r (turns + 1) t := by
  have harm : (t.arm r.armed).arm r.armed = t.arm r.armed := arm_arm t (t.arm r.armed).source _
  have hended' : (t.arm r.armed).ended = none := by
    rw [arm_eq]
    exact hended
  simp only [pollWithin, hended, hended', collect, harm]

theorem pollWithin_carrying (r : Reading) (turns : ℕ) (t : Transfer)
    (hturns : t.source.length < turns) (turns' : ℕ)
    (hturns' : (Inbound.carrying t.source).length < turns') :
    (pollWithin r turns' t.carrying).1 = (pollWithin r turns t).1 ∧
      (pollWithin r turns' t.carrying).2.2 = (pollWithin r turns t).2.2.carrying := by
  -- on the turns over the whole source: each payload-free step costs it one, the other none
  induction turns generalizing t with
  | zero => omega
  | succ turns ih =>
    obtain ⟨turns', rfl⟩ : ∃ n, turns' = n + 1 := ⟨turns' - 1, by omega⟩
    cases hended : t.ended with
    | some ended =>
      have hended' : t.carrying.ended = some ended := hended
      simp only [pollWithin, hended, hended', and_true]
      cases ended <;> rfl
    | none =>
      have hended' : t.carrying.ended = none := hended
      by_cases hread : ((t.arm r.armed).readSource r.admitted).1 = .nothing
      · obtain ⟨source, hsource, heq⟩ := readSource_nothing hread
        have hsource' : t.source = .ready .empty :: source := by
          rw [← hsource, arm_eq]
        have hnext := ih { t.arm r.armed with source := source }
          (by rw [hsource', List.length_cons] at hturns; exact Nat.lt_of_succ_lt_succ hturns)
          (by rw [hsource', carrying_empty] at hturns'; exact hturns')
        have hsame : ({ t.arm r.armed with source := source } : Transfer).carrying =
            t.carrying.arm r.armed := by
          rw [arm_carrying, arm_eq, carrying, carrying, hsource', carrying_empty]
        rw [hsame, pollWithin_arm hended'] at hnext
        rw [hnext.1, hnext.2]
        constructor <;> simp only [pollWithin, hended, collect, heq]
      · have hcarrying := readSource_carrying hread
        rw [← arm_carrying] at hcarrying
        simp only [pollWithin, hended, hended', collect, hcarrying]
        generalize (t.arm r.armed).readSource r.admitted = result at hread
        obtain ⟨read, events, t₁⟩ := result
        cases read with
        | nothing => exact absurd rfl hread
        | quiet | crossed | ended | failed =>
          simp only [weighed_carrying, select_carrying, and_self]

theorem pollTransfer_carrying (r : Reading) (t : Transfer) :
    (t.carrying.pollTransfer r).1 = (t.pollTransfer r).1 ∧
      (t.carrying.pollTransfer r).2.2 = (t.pollTransfer r).2.2.carrying :=
  pollWithin_carrying r _ t (Nat.lt_succ_self _) _ (Nat.lt_succ_self _)

end Transfer

def answers (trace : List PollRecord) : List (Reading × Poll TransferAnswer) :=
  trace.map fun record => (record.reading, record.answer)

theorem runs_carrying {owner : TransferOwner} {source : List (Poll SourceStep)} {start : ℕ}
    {trace : List PollRecord} {t : Transfer}
    (run : Runs Polls (owner.overSource source start) trace t) :
    ∃ trace', Runs Polls (owner.overSource (carrying source) start) trace' t.carrying ∧
      answers trace' = answers trace := by
  induction run with
  | nil => exact ⟨[], .nil, rfl⟩
  | @snoc trace t t' record run hpoll ih =>
    obtain ⟨trace', run', hanswers⟩ := ih
    obtain ⟨hanswer, hnext⟩ := t.pollTransfer_carrying record.reading
    rw [show t.pollTransfer record.reading = _ from hpoll] at hanswer hnext
    have hstep : Polls t.carrying ⟨record.reading, record.answer,
        (t.carrying.pollTransfer record.reading).2.1⟩ t'.carrying :=
      Prod.ext hanswer (Prod.ext rfl hnext)
    refine ⟨_, run'.snoc hstep, ?_⟩
    simp only [answers, List.map_append, List.map_cons, List.map_nil] at hanswers ⊢
    rw [hanswers]

theorem runs_of_ended {t t' : Transfer} {later : List PollRecord} {x : InboundTerminal}
    (hended : t.ended = some x) (run : Runs Polls t later t') :
    t' = t ∧ ∀ record ∈ later, record.answer = .ready (t.answer x) ∧ record.events = [] := by
  induction run with
  | nil => exact ⟨rfl, fun _ h => absurd h List.not_mem_nil⟩
  | @snoc trace state next record _ hpoll ih =>
    obtain ⟨rfl, hall⟩ := ih
    rw [Polls, Transfer.pollTransfer_of_ended _ hended, Prod.mk.injEq, Prod.mk.injEq] at hpoll
    obtain ⟨hanswer, hevents, rfl⟩ := hpoll
    refine ⟨rfl, fun record' hmem => ?_⟩
    rcases List.mem_append.mp hmem with hmem | hmem
    · exact hall record' hmem
    · obtain rfl := List.mem_singleton.mp hmem
      exact ⟨hanswer.symm, hevents.symm⟩

section
variable {owner : TransferOwner} {source : List (Poll SourceStep)} {start : ℕ}
  {trace : List PollRecord} {t : Transfer}

theorem Ledger.exists_terminal (h : Ledger owner source start trace t) {x : InboundTerminal}
    (hended : t.ended = some x) : ∃ record ∈ trace, .terminal x ∈ record.events := by
  have hmem : x ∈ Inbound.terminals trace := by
    rw [h.terminals, hended]
    exact List.mem_singleton_self x
  obtain ⟨event, hevent, heq⟩ := List.mem_filterMap.mp hmem
  obtain ⟨record, hrecord, hin⟩ := List.mem_flatMap.mp hevent
  obtain rfl : event = .terminal x := by
    cases event <;> simp_all [TransferEvent.terminal?]
  exact ⟨record, hrecord, hin⟩

theorem answer_eq_none {t : Transfer} {x : InboundTerminal} (h : t.answer x = .ok none) :
    x = .responseHead := by
  cases x <;> first | rfl | cases h

theorem ended_of_answer_none (run : Runs Polls (owner.overSource source start) trace t)
    {record : PollRecord} (hrecord : record ∈ trace) (hanswer : record.answer = .ready (.ok none)) :
    t.ended = some .responseHead := by
  obtain ⟨before, later, rfl⟩ := List.append_of_mem hrecord
  obtain ⟨t₁, t₂, hbefore, hpoll, hlater⟩ := run.split
  have hspec := Transfer.pollTransfer_spec record.reading (ledger_of_runs hbefore).pending
  rw [show t₁.pollTransfer record.reading = _ from hpoll, hanswer] at hspec
  dsimp only at hspec
  have hended : t₂.ended = some .responseHead := by
    generalize hready : Poll.ready (Except.ok none : TransferAnswer) = answer at hspec
    generalize record.events = events at hspec
    cases hspec with
    | later hended =>
      rw [← answer_eq_none (Poll.ready.inj hready).symm]
      exact hended
    | @runsOn read events t₃ hended took hfirst =>
      cases hpending : t₃.pending <;> simp [hpending, Transfer.handOver] at hready
    | fixes hended took hfirst => rw [answer_eq_none (Poll.ready.inj hready).symm]
  rw [(runs_of_ended hended hlater).1]
  exact hended

end

/-- The law of one run of a transfer. -/
structure Obeys (owner : TransferOwner) (source : List (Poll SourceStep)) (start : ℕ)
    (trace : List PollRecord) (t : Transfer) : Prop where
  delivered_prefix : delivered trace <+: frames source
  within : ∃ released : List Frame, released.length ≤ 1 ∧
    delivered trace ++ released <+: frames source ∧
    t.counted = bytes (delivered trace ++ released) ∧ t.counted ≤ owner.budget.ceiling ∧
    t.counted ≤ Usize.max
  crossing : ∀ record ∈ trace, .terminal .transferBytes ∈ record.events →
    ∃ frame, delivered trace ++ [frame] <+: frames source ∧
      min owner.budget.ceiling Usize.max < bytes (delivered trace) + frame.1.length
  completed : ∀ record ∈ trace, record.answer = .ready (.ok none) →
    completes source = true ∧ delivered trace = frames source
  one_terminal : terminals trace = t.ended.toList
  settled : ∀ x, t.ended = some x →
    (∃ record ∈ trace, .terminal x ∈ record.events ∧ record.answer = .ready (t.answer x)) ∧
    ∀ later t', Runs Polls t later t' →
      t' = t ∧ ∀ record ∈ later, record.answer = .ready (t.answer x) ∧ record.events = []
  idle : ∀ record ∈ trace, .terminal .transferIdle ∈ record.events →
    ∃ idle, owner.budget.idle = some idle ∧
      ∀ a ∈ start :: admissions trace, idle ≤ record.reading.weighed - a
  total : ∀ record ∈ trace, .terminal .transferTotal ∈ record.events →
    ∃ total first, owner.budget.total = some total ∧ trace.head? = some first ∧
      first.reading.armed + total ≤ record.reading.weighed
  payload_only : ∃ trace', Runs Polls (owner.overSource (carrying source) start) trace' t.carrying ∧
    answers trace' = answers trace

/-- Every run of a transfer on a clock that never runs backwards obeys the law. -/
theorem transfer_obeys (owner : TransferOwner) (source : List (Poll SourceStep)) (start : ℕ)
    (trace : List PollRecord) (t : Transfer)
    (run : Runs Polls (owner.overSource source start) trace t) (hclock : Clock start trace) :
    Obeys owner source start trace t := by
  have h := ledger_of_runs run
  obtain ⟨released, hlen, hinit, hcounted⟩ := h.counted
  have hbounded := le_min_iff.mp h.bounded
  refine ⟨(List.prefix_append _ _).trans hinit,
    ⟨released, hlen, hinit, hcounted, hbounded.1, hbounded.2⟩, ?_, ?_, h.terminals, ?_, ?_, ?_,
    runs_carrying run⟩
  · intro record hrecord hx
    exact (h.decided record hrecord _ hx).crossing rfl
  · intro record hrecord hanswer
    have hended := ended_of_answer_none run hrecord hanswer
    obtain ⟨fixing, hfixing, hx⟩ := h.exists_terminal hended
    exact (h.decided fixing hfixing _ hx).head rfl
  · intro x hended
    obtain ⟨fixing, hfixing, hx⟩ := h.exists_terminal hended
    refine ⟨⟨fixing, hfixing, hx, (h.decided fixing hfixing x hx).answer⟩, ?_⟩
    intro later t' hlater
    exact runs_of_ended hended hlater
  · intro record hrecord hx
    have helapsed := (h.decided record hrecord _ hx).idle rfl
    obtain ⟨idle, hidle, hle⟩ := InboundGuard.elapsed_iff.mp helapsed
    rw [h.quiet] at hle
    exact ⟨idle, hidle, (passed_iff hclock.admissions).mpr hle⟩
  · intro record hrecord hx
    have hreached := (h.decided record hrecord _ hx).total rfl
    obtain ⟨instant, hinstant, hle⟩ := InboundGuard.reached_iff.mp hreached
    rw [h.armed, Option.bind_eq_some_iff] at hinstant
    obtain ⟨first, hfirst, htotal⟩ := hinstant
    obtain ⟨total, hbudget, rfl⟩ := Option.map_eq_some_iff.mp htotal
    exact ⟨total, first, hbudget, hfirst, hle⟩

def sampleOwner : TransferOwner :=
  ⟨.download, ⟨some 4, some 5, some 60⟩, some ⟨none, none, none, 0⟩⟩

def sampleSource : List (Poll SourceStep) :=
  [.ready (.data sampleFrame), .ready .empty, .ready (.data sampleFrame), .ready .end_]

def sampleRun : List PollRecord × Transfer :=
  pollAll (sampleOwner.overSource sampleSource 0) [sampleReading 1, sampleReading 3, sampleReading 7]

theorem transfer_obeys_sampleRun :
    delivered sampleRun.1 = [sampleFrame, sampleFrame] ∧
      sampleRun.2.ended = some .responseHead ∧
      Obeys sampleOwner sampleSource 0 sampleRun.1 sampleRun.2 :=
  ⟨by decide, by decide,
    transfer_obeys _ _ _ _ _ (runs_pollAll _ _) (by unfold Clock; decide)⟩

def lateRecord : PollRecord :=
  ⟨sampleReading 10, .ready (.error ⟨.download, .transferIdle, sampleOwner.budget, none⟩),
    [.terminal .transferIdle]⟩

/-- The quiet interval runs from the construction of a transfer, not from its first turn: a transfer
first polled ten units later is idle at once, with no interval of five behind it. -/
theorem transferIdle_on_first_turn :
    ∃ t, Runs Polls (sampleOwner.overSource [.pending] 0) [lateRecord] t ∧ Clock 0 [lateRecord] ∧
      sampleOwner.budget.idle = some 5 ∧ .terminal .transferIdle ∈ lateRecord.events ∧
      admissions [lateRecord] = [] ∧
      ¬ 5 ≤ lateRecord.reading.weighed - lateRecord.reading.armed := by
  refine ⟨_, runs_pollAll _ [sampleReading 10], ?_, rfl, ?_, rfl, ?_⟩
  · unfold Clock
    decide
  · decide
  · decide

end Camber.Inbound
