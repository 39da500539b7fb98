import Camber.Inbound.Reader
import Camber.Inbound.TransferRuns

/-! When the quiet interval a guard reads agrees with the body that is being read. -/

namespace Camber.Inbound
open Str Transition QuietClock InboundGuard Transfer InboundReady

/-- No payload was admitted during the interval before `now`. -/
def Silent (idle now : ℕ) (admissions : List ℕ) : Prop := ∀ a ∈ admissions, idle ≤ now - a

def InboundRead.admits (read : InboundRead) (turn : ReaderTurn) : Bool :=
  match turn.wire with
  | some (.data data) => decide (data ≠ [] ∧ read.budget.Admits data.length)
  | some .end_ | some (.failed _) | some .trailers | none => false

structure TurnRecord where
  turn : ReaderTurn
  selected : Option InboundTerminal
  admits : Bool

inductive Turns (operation : OperationEnvelope) : Reader → TurnRecord → Reader → Prop
  | turn (read : InboundRead) (turn : ReaderTurn) :
      Turns operation (.reading read) ⟨turn, read.selected turn, read.admits turn⟩
        (.settle operation read turn)

def TurnRecord.admission (record : TurnRecord) : Option ℕ :=
  if record.admits then some record.turn.delivered else none

def readerAdmissions (trace : List TurnRecord) : List ℕ := trace.filterMap TurnRecord.admission

/-- The clock never runs backwards over the instants a run reads, from `start` on. -/
def ReaderClock (start : ℕ) (trace : List TurnRecord) : Prop :=
  (start :: trace.flatMap fun record => [record.turn.observed, record.turn.delivered]).Pairwise
    (· ≤ ·)

@[simp] theorem readerAdmissions_snoc (trace : List TurnRecord) (record : TurnRecord) :
    readerAdmissions (trace ++ [record]) = readerAdmissions trace ++ record.admission.toList :=
  filterMap_snoc ..

variable {start : ℕ} {trace : List TurnRecord}

theorem ReaderClock.admissions (h : ReaderClock start trace) :
    (start :: readerAdmissions trace).Pairwise (· ≤ ·) := by
  refine List.Pairwise.sublist (List.Sublist.cons_cons start ?_) h
  clear h
  induction trace with
  | nil => exact List.Sublist.slnil
  | cons record trace ih =>
    rw [readerAdmissions, List.filterMap_cons, List.flatMap_cons]
    unfold TurnRecord.admission
    split_ifs
    · exact List.Sublist.cons _ (List.Sublist.cons_cons _ ih)
    · exact (List.nil_sublist _).append ih

theorem ReaderClock.init {record : TurnRecord} (h : ReaderClock start (trace ++ [record])) :
    ReaderClock start trace := by
  rw [ReaderClock, List.flatMap_append, ← List.cons_append] at h
  exact (List.pairwise_append.mp h).1

theorem ReaderClock.last {record : TurnRecord} (h : ReaderClock start (trace ++ [record])) :
    record.turn.observed ≤ record.turn.delivered := by
  rw [ReaderClock, List.flatMap_append, ← List.cons_append] at h
  have hlast := (List.pairwise_append.mp h).2.1
  simpa using hlast

namespace InboundRead

theorem advance_guard (read : InboundRead) (turn : ReaderTurn) :
    (read.advance turn).2.guard.idle = read.guard.idle ∧
      (read.advance turn).2.guard.quietSince =
        if read.admits turn then turn.delivered else read.guard.quietSince := by
  have hidle := observed_idle read.guard turn.shared turn.observed
  have hquiet := observed_quietSince read.guard turn.shared turn.observed
  unfold advance admits
  rcases turn with ⟨_ | frame, observed, delivered, shared, cellFree⟩
  · exact ⟨hidle, hquiet⟩
  · cases frame with
    | end_ | failed | trailers => exact ⟨hidle, hquiet⟩
    | data data =>
      by_cases hadmits : read.budget.Admits data.length
      · simp only [fold, BodyBudget.admitFrame_ok hadmits, hadmits, and_true]
        cases data with
        | nil => exact ⟨hidle, hquiet⟩
        | cons b data => exact ⟨hidle, by simp [frameDelivered]⟩
      · simp only [fold, BodyBudget.admitFrame_error hadmits, hadmits, and_false, decide_false]
        exact ⟨hidle, hquiet⟩

theorem advance_bodyIdle (read : InboundRead) (turn : ReaderTurn) :
    (read.advance turn).1.1.holds .bodyIdle =
      elapsed read.guard.idle read.guard.quietSince turn.observed := by
  rw [← observed_bodyIdle read.guard turn.shared turn.observed]
  unfold advance
  rcases turn with ⟨_ | frame, observed, delivered, shared, cellFree⟩
  · rfl
  · cases frame with
    | end_ | failed | trailers => rfl
    | data data =>
      by_cases hadmits : read.budget.Admits data.length
      · simp only [fold, BodyBudget.admitFrame_ok hadmits]
        rfl
      · simp only [fold, BodyBudget.admitFrame_error hadmits]
        rfl

end InboundRead

theorem reader_quiet {operation : OperationEnvelope} {limit : ℕ} {reader : Reader}
    (run : Runs (Turns operation) (.retainWithinBudget operation limit start) trace reader)
    {read : InboundRead} (hread : reader = .reading read) :
    read.guard.idle = operation.budgets.request.bodyIdle ∧
      read.guard.quietSince = lastSince start (readerAdmissions trace) := by
  induction run generalizing read with
  | nil =>
    obtain rfl := Reader.reading.inj hread
    exact ⟨rfl, rfl⟩
  | @snoc trace reader next record run step ih =>
    cases step with
    | turn before turn =>
      obtain ⟨hidle, hquiet⟩ := ih rfl
      obtain ⟨hidle', hquiet'⟩ := before.advance_guard turn
      have hafter : (before.advance turn).2 = read := by
        unfold Reader.settle at hread
        generalize (before.advance turn) = result at hread
        obtain ⟨⟨ready, wire⟩, after⟩ := result
        simp only at hread
        split at hread
        · exact Reader.reading.inj hread
        · cases hread
        · cases hread
      rw [← hafter, hidle', hidle, hquiet', hquiet, readerAdmissions_snoc, TurnRecord.admission]
      refine ⟨rfl, ?_⟩
      cases before.admits turn <;> simp

namespace Transfer

/-- The source has a frame ready that the byte bound admits. -/
def incoming (t : Transfer) : Bool :=
  match next t.source with
  | .ready (.data frame) =>
    decide (t.counted + frame.1.length ≤ min t.budget.ceiling Usize.max)
  | .ready .empty | .ready .end_ | .ready (.failed _) | .pending => false

/-- What the source has ready decides the poll: it ends, fails or crosses the byte bound. -/
def readDecides (t : Transfer) : Bool :=
  match next t.source with
  | .ready (.data frame) =>
    !decide (t.counted + frame.1.length ≤ min t.budget.ceiling Usize.max)
  | .ready .end_ | .ready (.failed _) => true
  | .ready .empty | .pending => false

/-- An own read decides the poll: the one of the source, or that the peer has gone. -/
def ownDecides (t : Transfer) (reading : Reading) : Bool :=
  reading.shared.terminating || reading.shared.disconnected || t.readDecides

/-- The server's own stop stands before an idle body. -/
def stopped (guard : InboundGuard) (reading : Reading) : Bool :=
  let ready := (guard.observed reading.shared reading.observed).1
  ready.shutdownDeadline || ready.forcedCancellation

/-- When a poll's reading reaches the end of the interval a guard built at `built` measures, no frame
has been admitted since the guard was built, or an own read decides the poll. -/
def GuardFresh (built idle : ℕ) (t : Transfer) (reading : Reading) : Prop :=
  idle ≤ reading.observed - built →
    t.counted = 0 ∧ t.incoming = false ∨ t.ownDecides reading = true

instance (built idle : ℕ) (t : Transfer) (reading : Reading) :
    Decidable (t.GuardFresh built idle reading) :=
  inferInstanceAs (Decidable (_ → _))

variable {t t₁ : Transfer} {now : ℕ} {read : SourceRead} {events : List TransferEvent}

theorem Took.incoming (took : Took t now read events t₁) (hpending : t.pending = none) :
    t₁.pending.isSome = t.incoming := by
  unfold Transfer.incoming
  cases took with
  | takes polled frame hnext hframes hends hfits => simp [hnext, hfits]
  | crosses polled frame hnext hframes hends hcross =>
    rw [hnext]
    exact hpending ▸ (decide_eq_false (not_le.mpr hcross)).symm
  | waits polled hnext | ends polled hnext => simp [hnext, hpending]
  | fails polled account hnext => simp [hnext, hpending]

theorem Took.quiet_iff (took : Took t now read events t₁) :
    read = .quiet ↔ t.readDecides = false := by
  unfold readDecides
  cases took with
  | takes polled frame hnext hframes hends hfits => simp [hnext, hfits]
  | crosses polled frame hnext hframes hends hcross =>
    have hover := decide_eq_false (not_le.mpr hcross)
    simp only [hnext, hover, Bool.not_false, reduceCtorEq, Bool.true_eq_false]
  | waits polled hnext | ends polled hnext => simp [hnext]
  | fails polled account hnext => simp [hnext]

/-- A poll selects an idle body when the guard's interval has passed and neither an own read nor a
stop of the server decides. -/
theorem Took.bodyIdle_iff (took : Took t now read events t₁) {guard : InboundGuard}
    (hguard : t.authority = some guard) (r : Reading) :
    (t₁.weighed read r).1.firstReady = some .bodyIdle ↔
      elapsed guard.idle guard.quietSince r.observed = true ∧
        t.ownDecides r = false ∧ stopped guard r = false := by
  have hcarried : t₁.carriedReady r = (guard.observed r.shared r.observed).1 := by
    rw [carriedReady, observe, took.keeps.2.2, hguard]
  have hown : (∀ x ∈ beforeIdle, (t₁.weighed read r).1.holds x = false) ↔
      (r.shared.terminating || r.shared.disconnected) = false ∧ read = .quiet ∧
        stopped guard r = false := by
    have hguarded := observed_ownRead guard r.shared r.observed
    simp only [ownRead, List.forall_mem_cons, List.not_mem_nil, IsEmpty.forall_iff,
      implies_true, and_true] at hguarded
    simp only [beforeIdle, ownRead, List.cons_append, List.nil_append,
      List.forall_mem_cons, ← Bool.not_eq_true, weighed_holds, hcarried, hguarded]
    cases took <;> simp [stopped, holds, and_assoc]
  rw [firstReady_eq_bodyIdle, weighed_holds, hcarried, hown, took.quiet_iff,
    ← observed_bodyIdle guard r.shared]
  simp [holds, ownDecides, and_assoc]

end Transfer

inductive UploadOwner (operation : OperationEnvelope) (built : ℕ) : TransferOwner → Prop
  | upload (registration : TransferBudget) :
      UploadOwner operation built (operation.upload registration built)
  | handoffUpload (registration : TransferBudget) :
      UploadOwner operation built (operation.handoffUpload registration built)
  | deadlinesOnly {owner : TransferOwner} (h : UploadOwner operation built owner) :
      UploadOwner operation built owner.deadlinesOnly

theorem UploadOwner.guardClock {operation : OperationEnvelope} {built : ℕ} {owner : TransferOwner}
    (h : UploadOwner operation built owner) :
    (owner.authority.map fun guard => (guard.idle, guard.quietSince)) =
      some (operation.budgets.request.bodyIdle, built) := by
  induction h with
  | upload | handoffUpload => rfl
  | deadlinesOnly _ ih => exact ih

namespace Ledger

variable {owner : TransferOwner} {source : List (Poll SourceStep)} {trace : List PollRecord}
  {t t' : Transfer} {record : PollRecord}

/-- What a poll of a running transfer admits. -/
theorem admissions_poll (h : Ledger owner source start trace t) (hpoll : Polls t record t')
    (hended : t.ended = none) :
    admissions (trace ++ [record]) =
      admissions trace ++ if t.incoming then [record.reading.admitted] else [] := by
  have htook : ∃ read events t₁,
      Transfer.Took (t.arm record.reading.armed) record.reading.admitted read events t₁ ∧
      record.events.any TransferEvent.isAdmitted = events.any TransferEvent.isAdmitted := by
    have hspec := pollTransfer_spec record.reading h.pending
    rw [show t.pollTransfer record.reading = _ from hpoll] at hspec
    obtain ⟨reading, answer, events⟩ := record
    dsimp only at hspec
    cases hspec with
    | later hlater => simp [hended] at hlater
    | runsOn _ took _ => exact ⟨_, _, _, took, rfl⟩
    | fixes _ took _ =>
      refine ⟨_, _, _, took, ?_⟩
      rw [List.any_append, fixedEvents_admits, Bool.or_false]
  obtain ⟨read, events, t₁, took, hadmits⟩ := htook
  rw [h.admissions_took took hadmits]
  rw [arm_eq] at took
  rw [took.incoming h.pending]
  rfl

/-- A poll selects an idle body exactly when the transfer still runs, the guard's interval has passed
since the guard's own clock, and neither an own read nor a stop of the server decides. -/
theorem bodyIdle_iff (h : Ledger owner source start trace t) (hpoll : Polls t record t')
    {guard : InboundGuard} (hguard : t.authority = some guard) :
    .terminal .bodyIdle ∈ record.events ↔ t.ended = none ∧
      elapsed guard.idle guard.quietSince record.reading.observed = true ∧
      t.ownDecides record.reading = false ∧ Transfer.stopped guard record.reading = false := by
  have hselects : ∀ {read events t₁},
      Transfer.Took (t.arm record.reading.armed) record.reading.admitted read events t₁ →
      ((t₁.weighed read record.reading).1.firstReady = some .bodyIdle ↔
        elapsed guard.idle guard.quietSince record.reading.observed = true ∧
        t.ownDecides record.reading = false ∧ Transfer.stopped guard record.reading = false) := by
    intro read events t₁ took
    rw [arm_eq] at took
    exact took.bodyIdle_iff hguard record.reading
  have hmem : ∀ {events : List TransferEvent} {x : InboundTerminal},
      .terminal x ∈ events ↔ x ∈ events.filterMap TransferEvent.terminal? := by
    intro events x
    rw [List.mem_filterMap]
    refine ⟨fun hx => ⟨_, hx, rfl⟩, ?_⟩
    rintro ⟨event, hevent, hx⟩
    cases event <;> cases hx
    exact hevent
  have hspec := pollTransfer_spec record.reading h.pending
  rw [show t.pollTransfer record.reading = _ from hpoll] at hspec
  obtain ⟨reading, answer, events⟩ := record
  dsimp only at hspec hselects
  cases hspec with
  | later hended => simp [hended]
  | runsOn hended took hready =>
    rw [hmem, took.no_terminal, ← hselects took, hready]
    simp
  | fixes hended took hready =>
    rw [hmem, List.filterMap_append, took.no_terminal, fixedEvents_terminal,
      ← hselects took, hready]
    simp [hended, eq_comm]

end Ledger

/-- An upload's guard keeps the clock it was built with: frames restart the transfer's own clock
only. A poll selects `BodyIdle` by that clock, and no frame was admitted in the interval before as
long as the guard is fresh whenever its interval ends. The buffered reader restarts its guard's
clock, and is silent when the turn itself brings no payload. -/
theorem bodyIdle_silent_when (operation : OperationEnvelope) :
    (∀ built owner source start trace t record t', UploadOwner operation built owner →
      Runs Polls (owner.overSource source start) trace t → Polls t record t' →
      ∃ guard, t.authority = some guard ∧ guard.idle = operation.budgets.request.bodyIdle ∧
        guard.quietSince = built ∧
        (.terminal .bodyIdle ∈ record.events ↔ t.ended = none ∧
          elapsed guard.idle built record.reading.observed = true ∧
          t.ownDecides record.reading = false ∧
          Transfer.stopped guard record.reading = false) ∧
        ∀ idle ∈ guard.idle, t.GuardFresh built idle record.reading →
          .terminal .bodyIdle ∈ record.events →
          Silent idle record.reading.observed (admissions (trace ++ [record]))) ∧
    (∀ limit start trace read record next,
      Runs (Turns operation) (.retainWithinBudget operation limit start) trace (.reading read) →
      Turns operation (.reading read) record next → ReaderClock start (trace ++ [record]) →
      record.selected = some .bodyIdle →
      ∃ idle, operation.budgets.request.bodyIdle = some idle ∧
        (Silent idle record.turn.observed (readerAdmissions (trace ++ [record])) ↔
          read.admits record.turn = false ∨ idle = 0)) := by
  constructor
  · intro built owner source start trace t record t' howner run hpoll
    have h := ledger_of_runs run
    obtain ⟨guard, hguard, hclock⟩ := Option.map_eq_some_iff.mp (h.guardClock.trans howner.guardClock)
    obtain ⟨hidle, rfl⟩ := Prod.mk.inj hclock
    have hselected := h.bodyIdle_iff hpoll hguard
    refine ⟨guard, hguard, hidle, rfl, hselected, fun idle hsome hfresh hterminal => ?_⟩
    obtain ⟨hended, helapsed, hown, -⟩ := hselected.mp hterminal
    obtain ⟨length, hlength, hle⟩ := elapsed_iff.mp helapsed
    obtain rfl : length = idle := Option.some.inj (hlength.symm.trans hsome)
    obtain ⟨hcounted, hincoming⟩ := (hfresh hle).resolve_right (by simp [hown])
    rw [h.admissions_poll hpoll hended, h.fresh.mp hcounted, hincoming]
    exact fun a ha => absurd ha List.not_mem_nil
  · intro limit start trace read record next run step hclock hselected
    cases step with
    | turn _ turn =>
      obtain ⟨hidle, hquiet⟩ := reader_quiet run rfl
      have hholds := firstReady_holds hselected
      rw [InboundRead.advance_bodyIdle, hidle, hquiet] at hholds
      obtain ⟨idle, hbudget, hle⟩ := elapsed_iff.mp hholds
      refine ⟨idle, hbudget, ?_⟩
      have hearlier : Silent idle turn.observed (readerAdmissions trace) := by
        intro a ha
        exact (passed_iff hclock.init.admissions).mpr hle a (List.mem_cons_of_mem _ ha)
      have horder : turn.observed - turn.delivered = 0 := Nat.sub_eq_zero_of_le hclock.last
      rw [readerAdmissions_snoc, Silent, List.forall_mem_append, TurnRecord.admission]
      cases read.admits turn with
      | false => simpa [Silent] using hearlier
      | true =>
        simp only [if_true, Option.toList_some, List.forall_mem_singleton, horder,
          Nat.le_zero_eq, Bool.true_eq_false, false_or]
        exact ⟨fun h => h.2, fun h => ⟨hearlier, h⟩⟩

def idleOperation : OperationEnvelope :=
  .admitRequest ⟨⟨some 10, none⟩, ⟨none, none, none⟩, ⟨none, none, none⟩⟩ 0

def idleUpload (source : List (Poll SourceStep)) : Transfer :=
  (idleOperation.upload ⟨none, none, none⟩ 0).overSource source 0

def sampleTurn (wire : Option WireRead) (now : ℕ) : ReaderTurn :=
  ⟨wire, now, now, ⟨none, 0, false, false⟩, true⟩

theorem bodyIdle_silent_when_quiet :
    (∃ record t', Polls (idleUpload []) record t' ∧ .terminal .bodyIdle ∈ record.events ∧
      Silent 10 record.reading.observed (admissions ([] ++ [record]))) ∧
    (∃ record next, Turns idleOperation (.retainWithinBudget idleOperation 100 0) record next ∧
      record.selected = some .bodyIdle ∧
      Silent 10 record.turn.observed (readerAdmissions ([] ++ [record]))) := by
  constructor
  · have hpoll := polls_pollRecord (idleUpload []) (sampleReading 20)
    obtain ⟨guard, hguard, hidle, -, -, hsilent⟩ := (bodyIdle_silent_when idleOperation).1 0 _ [] 0
      [] _ _ _ (.upload ⟨none, none, none⟩) .nil hpoll
    have hterminal : .terminal .bodyIdle ∈ (pollRecord (idleUpload []) (sampleReading 20)).events := by
      decide
    exact ⟨_, _, hpoll, hterminal, hsilent 10 hidle (by decide) hterminal⟩
  · obtain ⟨idle, hidle, hiff⟩ := (bodyIdle_silent_when idleOperation).2 100 0 [] _ _ _ .nil
      (.turn _ (sampleTurn none 20)) (by unfold ReaderClock; decide) (by decide)
    obtain rfl : 10 = idle := Option.some.inj hidle
    exact ⟨_, _, .turn _ (sampleTurn none 20), by decide, hiff.mpr (by decide)⟩

/-- A body that delivers a frame at four and at eight is idle at eleven: its upload never restarts
the interval it carries. -/
theorem bodyIdle_of_active_body :
    (∃ trace t, Runs Polls (idleUpload [.ready (.data sampleFrame), .ready (.data sampleFrame)])
        trace t ∧ Clock 0 trace ∧ t.ended = some .bodyIdle ∧ admissions trace = [4, 8] ∧
      (trace.map fun record => record.reading.observed) = [4, 8, 11] ∧
      ¬ Silent 10 11 (admissions trace)) ∧
    (∃ record next, Turns idleOperation (.retainWithinBudget idleOperation 100 0) record next ∧
      ReaderClock 0 [record] ∧ record.selected = some .bodyIdle ∧
      readerAdmissions [record] = [12] ∧
      ¬ Silent 10 record.turn.observed (readerAdmissions [record])) := by
  constructor
  · refine ⟨_, _, runs_pollAll _ [sampleReading 4, sampleReading 8, sampleReading 11], ?_, ?_, ?_,
      rfl, ?_⟩
    · unfold Clock
      decide
    · decide +kernel
    · decide +kernel
    · unfold Silent
      decide
  · refine ⟨_, _, .turn _ (sampleTurn (some (.data [104, 105])) 12), ?_, ?_, ?_, ?_⟩
    · unfold ReaderClock
      decide
    · decide
    · decide
    · unfold Silent
      decide

end Camber.Inbound
