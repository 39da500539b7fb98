import Camber.Inbound.Transfer
import Camber.Lib.Transition

/-! `Ledger` relates a transfer to its polls. One poll keeps it, so every run has it. -/

namespace Camber.Inbound
open Str Transition QuietClock Transfer InboundGuard

structure PollRecord where
  reading : Reading
  answer : Poll TransferAnswer
  events : List TransferEvent

namespace TransferEvent

def isAdmitted : TransferEvent → Bool
  | admitted _ => true
  | framePolled | crossingReleased | terminal _ => false

def terminal? : TransferEvent → Option InboundTerminal
  | terminal t => some t
  | framePolled | admitted _ | crossingReleased => none

end TransferEvent

namespace PollRecord

def frame (record : PollRecord) : Option Frame :=
  match record.answer with
  | .ready (.ok frame) => frame
  | .ready (.error _) | .pending => none

def admission (record : PollRecord) : Option ℕ :=
  if record.events.any TransferEvent.isAdmitted then some record.reading.admitted else none

end PollRecord

def delivered (trace : List PollRecord) : List Frame := trace.filterMap PollRecord.frame

def admissions (trace : List PollRecord) : List ℕ := trace.filterMap PollRecord.admission

def terminals (trace : List PollRecord) : List InboundTerminal :=
  (trace.flatMap PollRecord.events).filterMap TransferEvent.terminal?

/-- The clock never runs backwards over the instants a run reads, from `start` on. -/
def Clock (start : ℕ) (trace : List PollRecord) : Prop :=
  (start :: trace.flatMap fun record => record.reading.instants).Pairwise (· ≤ ·)

def bytes (frames : List Frame) : ℕ := (frames.map fun frame => frame.1.length).sum

def Polls (t : Transfer) (record : PollRecord) (t' : Transfer) : Prop :=
  t.pollTransfer record.reading = (record.answer, record.events, t')

def pollRecord (t : Transfer) (reading : Reading) : PollRecord :=
  ⟨reading, (t.pollTransfer reading).1, (t.pollTransfer reading).2.1⟩

theorem polls_pollRecord (t : Transfer) (reading : Reading) :
    Polls t (pollRecord t reading) (t.pollTransfer reading).2.2 := rfl

def pollAll (t : Transfer) : List Reading → List PollRecord × Transfer
  | [] => ([], t)
  | reading :: readings =>
    let (trace, t') := pollAll (t.pollTransfer reading).2.2 readings
    (pollRecord t reading :: trace, t')

theorem runs_pollAll (t : Transfer) (readings : List Reading) :
    Runs Polls t (pollAll t readings).1 (pollAll t readings).2 := by
  induction readings generalizing t with
  | nil => exact .nil
  | cons reading readings ih =>
    exact (Runs.nil.snoc (polls_pollRecord t reading)).append (ih (t.pollTransfer reading).2.2)

def sampleFrame : Frame := ⟨[104, 105], by simp⟩

def sampleReading (now : ℕ) : Reading := ⟨now, now, now, now, ⟨none, 0, false, false⟩⟩

@[simp] theorem delivered_snoc (trace : List PollRecord) (record : PollRecord) :
    delivered (trace ++ [record]) = delivered trace ++ record.frame.toList :=
  filterMap_snoc ..

@[simp] theorem admissions_snoc (trace : List PollRecord) (record : PollRecord) :
    admissions (trace ++ [record]) = admissions trace ++ record.admission.toList :=
  filterMap_snoc ..

@[simp] theorem terminals_snoc (trace : List PollRecord) (record : PollRecord) :
    terminals (trace ++ [record]) =
      terminals trace ++ record.events.filterMap TransferEvent.terminal? := by
  simp [terminals]

variable {trace : List PollRecord}

theorem mem_terminals {record : PollRecord} {x : InboundTerminal} (hrecord : record ∈ trace)
    (hx : .terminal x ∈ record.events) : x ∈ terminals trace := by
  rw [terminals, List.mem_filterMap]
  exact ⟨_, List.mem_flatMap.mpr ⟨record, hrecord, hx⟩, rfl⟩

@[simp] theorem bytes_append (xs ys : List Frame) : bytes (xs ++ ys) = bytes xs + bytes ys := by
  simp [bytes]

@[simp] theorem bytes_singleton (frame : Frame) : bytes [frame] = frame.1.length := by
  simp [bytes]

theorem admissions_sublist (trace : List PollRecord) :
    (admissions trace).Sublist (trace.flatMap fun record => record.reading.instants) := by
  induction trace with
  | nil => exact List.Sublist.slnil
  | cons record trace ih =>
    rw [admissions, List.filterMap_cons, List.flatMap_cons]
    have hinstants : [record.reading.admitted].Sublist record.reading.instants := by
      rw [Reading.instants]
      exact List.singleton_sublist.mpr (by simp)
    unfold PollRecord.admission
    split_ifs with hadmits
    · exact hinstants.append ih
    · exact (List.nil_sublist _).append ih

theorem Clock.admissions {start : ℕ} (h : Clock start trace) :
    (start :: admissions trace).Pairwise (· ≤ ·) :=
  List.Pairwise.sublist ((admissions_sublist trace).cons_cons start) h

namespace Transfer

variable {t t₁ : Transfer} {now : ℕ} {read : SourceRead} {events : List TransferEvent} {r : Reading}

theorem Took.no_terminal (took : Took t now read events t₁) :
    events.filterMap TransferEvent.terminal? = [] := by
  cases took <;> simp [TransferEvent.terminal?]

theorem Took.admits (took : Took t now read events t₁) (hpending : t.pending = none) :
    events.any TransferEvent.isAdmitted = t₁.pending.isSome := by
  cases took <;> simp [TransferEvent.isAdmitted, hpending]

theorem fixedEvents_terminal (pending : Option Frame) (x : InboundTerminal) :
    (fixedEvents pending x).filterMap TransferEvent.terminal? = [x] := by
  cases pending <;> rfl

theorem fixedEvents_admits (pending : Option Frame) (x : InboundTerminal) :
    (fixedEvents pending x).any TransferEvent.isAdmitted = false := by
  cases pending <;> rfl

section

variable (took : Took t now read events t₁)

include took

theorem Took.quiet_of_runsOn (hready : (t₁.weighed read r).1.firstReady = none) :
    read = .quiet := by
  have hnone := InboundReady.firstReady_eq_none.mp hready
  have hread : ∀ x, ¬ ((t₁.weighed read r).1.holds x = true) := by
    intro x
    simp [hnone x]
  cases took with
  | waits => rfl
  | takes => rfl
  | crosses => exact absurd (weighed_holds.mpr (by simp)) (hread .transferBytes)
  | ends => exact absurd (weighed_holds.mpr (by simp)) (hread .responseHead)
  | fails => exact absurd (weighed_holds.mpr (by simp)) (hread .sourceFailure)

theorem Took.keeps : t₁.budget = t.budget ∧ t₁.total = t.total ∧ t₁.authority = t.authority := by
  cases took <;> exact ⟨rfl, rfl, rfl⟩

theorem Took.keeps_ended : t₁.ended = t.ended := by
  cases took <;> rfl

theorem Took.quietSince (hpending : t.pending = none) :
    t₁.quietSince = if t₁.pending.isSome then now else t.quietSince := by
  cases took <;> simp [hpending]

theorem Took.counted (hpending : t.pending = none) :
    t₁.counted = 0 ↔ t.counted = 0 ∧ t₁.pending = none := by
  cases took with
  | takes polled frame =>
    have hpos := frame.length_pos
    simp only [reduceCtorEq, and_false, iff_false]
    omega
  | waits | crosses | ends | fails => simp [hpending]

end

theorem answer_frame (t : Transfer) (reading : Reading) (events : List TransferEvent)
    (x : InboundTerminal) : (PollRecord.mk reading (.ready (t.answer x)) events).frame = none := by
  cases x <;> rfl

def guardClock (t : Transfer) : Option (Option ℕ × ℕ) :=
  t.authority.map fun guard => (guard.idle, guard.quietSince)

theorem guardClock_weighed (t : Transfer) (read : SourceRead) (r : Reading) :
    (t.weighed read r).2.guardClock = t.guardClock := by
  rw [weighed_snd, guardClock, guardClock, Option.map_map]
  congr 1
  funext guard
  simp

theorem carriedReady_holds {x : InboundTerminal} (h : (t.carriedReady r).holds x = true) :
    ∃ guard, t.authority = some guard ∧
      (guard.observed r.shared r.observed).1.holds x = true := by
  unfold carriedReady observe at h
  split at h
  · next guard hguard => exact ⟨guard, hguard, h⟩
  · cases x <;> cases h

theorem carriedReady_congr {t' : Transfer} (h : t.authority = t'.authority) (r : Reading) :
    t.carriedReady r = t'.carriedReady r := by
  unfold carriedReady observe
  rw [h]
  cases t'.authority <;> rfl

theorem carriedReady_arm (t : Transfer) (now : ℕ) (r : Reading) :
    (t.arm now).carriedReady r = t.carriedReady r := by
  apply carriedReady_congr
  rw [arm_eq]

theorem weighed_own {x : InboundTerminal} (h : (t.weighed read r).1.holds x = true)
    (hx : x ∉ reports) :
    (x = .transferIdle ∧ elapsed t.budget.idle t.quietSince r.weighed = true) ∨
      (x = .transferTotal ∧ reached t.total r.weighed = true) ∨
      (x = .transferBytes ∧ read = .crossed) ∨ (x = .responseHead ∧ read = .ended) ∨
      (x = .sourceFailure ∧ read = .failed) := by
  rcases weighed_holds.mp h with hcarried | hown
  · obtain ⟨guard, _, hguard⟩ := carriedReady_holds hcarried
    exact absurd (mem_reports_of_observed hguard) hx
  · exact hown

theorem Took.balance (took : Took t now read events t₁) (hpending : t.pending = none)
    (all out : List Frame) (hframes : all = out ++ frames t.source)
    (hcounted : t.counted = bytes out) (hbounded : t.counted ≤ min t.budget.ceiling Usize.max) :
    out ++ t₁.pending.toList <+: all ∧ t₁.counted = bytes (out ++ t₁.pending.toList) ∧
      t₁.counted ≤ min t.budget.ceiling Usize.max := by
  rw [hframes]
  cases took with
  | @takes source polled frame _ hnext hends hfits =>
    refine ⟨?_, ?_, hfits⟩
    · rw [hnext]
      exact ⟨frames source, by simp⟩
    · simp [hcounted]
  | waits | crosses | ends | fails =>
    refine ⟨?_, ?_, hbounded⟩
    · simp [hpending]
    · simp [hpending, hcounted]

theorem Took.rest (took : Took t now .quiet events t₁) (hpending : t.pending = none) :
    frames t.source = t₁.pending.toList ++ frames t₁.source ∧
      completes t.source = completes t₁.source := by
  cases took with
  | waits polled _ hframes hends => simp [hpending, hframes, hends]
  | takes polled frame _ hframes hends hfits => simp [hframes, hends]

end Transfer

/-- Why a poll fixed the terminal it reported. -/
structure Decided (owner : TransferOwner) (source : List (Poll SourceStep))
    (trace : List PollRecord) (t : Transfer) (record : PollRecord) (x : InboundTerminal) :
    Prop where
  ended : t.ended = some x
  answer : record.answer = .ready (t.answer x)
  idle : x = .transferIdle →
    elapsed owner.budget.idle t.quietSince record.reading.weighed = true
  total : x = .transferTotal → reached t.total record.reading.weighed = true
  head : x = .responseHead → completes source = true ∧ delivered trace = frames source
  crossing : x = .transferBytes → ∃ frame, delivered trace ++ [frame] <+: frames source ∧
    min owner.budget.ceiling Usize.max < bytes (delivered trace) + frame.1.length
  bodyIdle : x = .bodyIdle → ∃ idle since, t.guardClock = some (idle, since) ∧
    elapsed idle since record.reading.observed = true

/-- What the state of a transfer says about the run that led to it. -/
structure Ledger (owner : TransferOwner) (source : List (Poll SourceStep)) (start : ℕ)
    (trace : List PollRecord) (t : Transfer) : Prop where
  budget : t.budget = owner.budget
  pending : t.pending = none
  running : t.ended = none → frames source = delivered trace ++ frames t.source ∧
    completes source = completes t.source ∧ t.counted = bytes (delivered trace)
  counted : ∃ released : List Frame, released.length ≤ 1 ∧
    delivered trace ++ released <+: frames source ∧ t.counted = bytes (delivered trace ++ released)
  bounded : t.counted ≤ min owner.budget.ceiling Usize.max
  quiet : t.quietSince = lastSince start (admissions trace)
  fresh : t.counted = 0 ↔ admissions trace = []
  armed : t.total = trace.head?.bind fun first =>
    owner.budget.total.map (first.reading.armed + ·)
  guardClock : t.guardClock = owner.authority.map fun guard => (guard.idle, guard.quietSince)
  terminals : terminals trace = t.ended.toList
  decided : ∀ record ∈ trace, ∀ x, .terminal x ∈ record.events →
    Decided owner source trace t record x

namespace Ledger

variable {owner : TransferOwner} {source : List (Poll SourceStep)} {start : ℕ}
  {trace : List PollRecord} {t : Transfer}

theorem initial (owner : TransferOwner) (source : List (Poll SourceStep)) (start : ℕ) :
    Ledger owner source start [] (owner.overSource source start) where
  budget := rfl
  pending := rfl
  running _ := ⟨rfl, rfl, rfl⟩
  counted := ⟨[], Nat.zero_le 1, List.nil_prefix, rfl⟩
  bounded := Nat.zero_le _
  quiet := rfl
  fresh := ⟨fun _ => rfl, fun _ => rfl⟩
  armed := rfl
  guardClock := rfl
  terminals := rfl
  decided _ hrecord := absurd hrecord List.not_mem_nil

variable {record : PollRecord} {x : InboundTerminal} {read : SourceRead}
  {events : List TransferEvent} {t₁ t' : Transfer}

variable (h : Ledger owner source start trace t)

include h

theorem no_terminal (hended : t.ended = none) (hrecord : record ∈ trace) :
    .terminal x ∉ record.events := by
  intro hx
  have hmem := mem_terminals hrecord hx
  rw [h.terminals, hended] at hmem
  exact absurd hmem List.not_mem_nil

theorem armed_snoc (record : PollRecord) :
    (t.arm record.reading.armed).total = (trace ++ [record]).head?.bind fun first =>
      owner.budget.total.map (first.reading.armed + ·) := by
  rw [arm_eq, h.armed, h.budget]
  cases trace with
  | nil => rfl
  | cons first trace =>
    simp only [List.cons_append, List.head?_cons, Option.bind_some]
    cases owner.budget.total <;> rfl

theorem later {ended : InboundTerminal} (hended : t.ended = some ended)
    (hanswer : record.answer = .ready (t.answer ended)) (hevents : record.events = []) :
    Ledger owner source start (trace ++ [record]) t := by
  obtain ⟨reading, answer, events⟩ := record
  obtain rfl : answer = .ready (t.answer ended) := hanswer
  obtain rfl : events = [] := hevents
  set record : PollRecord := ⟨reading, .ready (t.answer ended), []⟩
  have hdelivered : delivered (trace ++ [record]) = delivered trace := by
    rw [delivered_snoc, Transfer.answer_frame]
    simp
  have hadmissions : admissions (trace ++ [record]) = admissions trace := by
    rw [admissions_snoc]
    simp [record, PollRecord.admission]
  have hhead : (trace ++ [record]).head? = trace.head? := by
    cases trace with
    | nil =>
      have hnone := h.terminals
      rw [hended] at hnone
      cases hnone
    | cons first trace => rfl
  refine ⟨h.budget, h.pending, fun hnone => ?_, ?_, h.bounded, ?_, ?_, ?_, h.guardClock, ?_, ?_⟩
  · rw [hended] at hnone
    cases hnone
  · rw [hdelivered]
    exact h.counted
  · rw [hadmissions]
    exact h.quiet
  · rw [hadmissions]
    exact h.fresh
  · rw [hhead]
    exact h.armed
  · rw [terminals_snoc, h.terminals]
    simp [record]
  · intro record hrecord x hx
    rw [List.mem_append, List.mem_singleton] at hrecord
    rcases hrecord with hrecord | rfl
    · have hd := h.decided record hrecord x hx
      refine ⟨hd.ended, hd.answer, hd.idle, hd.total, fun heq => ?_, fun heq => ?_, hd.bodyIdle⟩
      · rw [hdelivered]
        exact hd.head heq
      · rw [hdelivered]
        exact hd.crossing heq
    · exact absurd hx List.not_mem_nil

theorem admissions_took
    (took : Transfer.Took (t.arm record.reading.armed) record.reading.admitted read events t₁)
    (hadmits : record.events.any TransferEvent.isAdmitted = events.any TransferEvent.isAdmitted) :
    admissions (trace ++ [record]) = admissions trace ++
      (if t₁.pending.isSome then [record.reading.admitted] else []) := by
  have hpending : (t.arm record.reading.armed).pending = none := by
    rw [arm_eq]
    exact h.pending
  rw [admissions_snoc, PollRecord.admission, hadmits, took.admits hpending]
  cases t₁.pending.isSome <;> rfl

theorem quiet_snoc
    (took : Transfer.Took (t.arm record.reading.armed) record.reading.admitted read events t₁)
    (hadmits : record.events.any TransferEvent.isAdmitted = events.any TransferEvent.isAdmitted) :
    t₁.quietSince = lastSince start (admissions (trace ++ [record])) := by
  rw [h.admissions_took took hadmits]
  rw [arm_eq] at took
  rw [took.quietSince h.pending, h.quiet]
  cases t₁.pending.isSome <;> simp

theorem fresh_snoc
    (took : Transfer.Took (t.arm record.reading.armed) record.reading.admitted read events t₁)
    (hadmits : record.events.any TransferEvent.isAdmitted = events.any TransferEvent.isAdmitted) :
    t₁.counted = 0 ↔ admissions (trace ++ [record]) = [] := by
  rw [h.admissions_took took hadmits]
  rw [arm_eq] at took
  rw [took.counted h.pending, h.fresh]
  cases t₁.pending <;> simp

theorem carries
    (took : Transfer.Took (t.arm record.reading.armed) record.reading.admitted read events t₁) :
    t₁.budget = owner.budget ∧
      (t₁.total = (trace ++ [record]).head?.bind fun first =>
        owner.budget.total.map (first.reading.armed + ·)) ∧
      t₁.guardClock = owner.authority.map fun guard => (guard.idle, guard.quietSince) := by
  obtain ⟨hbudget, htotal, hauthority⟩ := took.keeps
  refine ⟨?_, ?_, ?_⟩
  · rw [hbudget, arm_eq]
    exact h.budget
  · rw [htotal]
    exact h.armed_snoc record
  · rw [Transfer.guardClock, hauthority, arm_eq]
    exact h.guardClock

theorem lifetime {armed now : ℕ} (took : Transfer.Took (t.arm armed) now read events t₁) :
    t₁.total ≠ none → t₁.budget.total ≠ none := by
  obtain ⟨hbudget, htotal, _⟩ := took.keeps
  rw [hbudget, htotal, arm_eq]
  simp only [h.armed, h.budget]
  cases owner.budget.total with
  | some total => simp
  | none => simp

theorem balance (hended : t.ended = none) {now armed : ℕ}
    (took : Transfer.Took (t.arm armed) now read events t₁) :
    delivered trace ++ t₁.pending.toList <+: frames source ∧
      t₁.counted = bytes (delivered trace ++ t₁.pending.toList) ∧
      t₁.counted ≤ min owner.budget.ceiling Usize.max := by
  obtain ⟨hframes, _, hcounted⟩ := h.running hended
  have hbounded := h.bounded
  rw [← h.budget] at hbounded ⊢
  rw [arm_eq] at took
  exact took.balance h.pending _ _ hframes hcounted hbounded

theorem runsOn (hended : t.ended = none) (took : Transfer.Took (t.arm record.reading.armed)
      record.reading.admitted read record.events t₁)
    (hready : (t₁.weighed read record.reading).1.firstReady = none)
    (hanswer : record.answer = handOver t₁.pending) :
    Ledger owner source start (trace ++ [record])
      { (t₁.weighed read record.reading).2 with pending := none } := by
  obtain rfl := took.quiet_of_runsOn hready
  have hdelivered : delivered (trace ++ [record]) = delivered trace ++ t₁.pending.toList := by
    rw [delivered_snoc, PollRecord.frame, hanswer]
    cases t₁.pending <;> rfl
  obtain ⟨hbudget, htotal, hguard⟩ := h.carries took
  obtain ⟨hinit, hcounted, hbounded⟩ := h.balance hended took
  have hquiet := h.quiet_snoc took rfl
  have hfresh := h.fresh_snoc took rfl
  have hrest : frames t.source = t₁.pending.toList ++ frames t₁.source ∧
      completes t.source = completes t₁.source := by
    rw [arm_eq] at took
    exact took.rest h.pending
  have hnone : Inbound.terminals (trace ++ [record]) = [] := by
    rw [terminals_snoc, h.terminals, hended, took.no_terminal]
    rfl
  obtain ⟨hframes, hends, _⟩ := h.running hended
  have hended₁ : t₁.ended = none := by
    rw [took.keeps_ended, arm_eq]
    exact hended
  rw [← Transfer.guardClock_weighed t₁ .quiet record.reading] at hguard
  rw [weighed_snd] at hguard ⊢
  refine ⟨hbudget, rfl, fun _ => ⟨?_, ?_, ?_⟩, ⟨[], Nat.zero_le 1, ?_, ?_⟩, hbounded, hquiet,
    hfresh, htotal, hguard, ?_, ?_⟩
  · rw [hdelivered, hframes, hrest.1, List.append_assoc]
  · rw [hends, hrest.2]
  · rw [hdelivered]
    exact hcounted
  · rw [hdelivered, List.append_nil]
    exact hinit
  · rw [hdelivered, List.append_nil]
    exact hcounted
  · rw [hnone]
    simp [hended₁]
  · intro record' hrecord x hx
    have hmem := mem_terminals hrecord hx
    rw [hnone] at hmem
    exact absurd hmem List.not_mem_nil

theorem decide_fixed (hended : t.ended = none)
    (took : Transfer.Took (t.arm record.reading.armed) record.reading.admitted read events t₁)
    (hready : (t₁.weighed read record.reading).1.firstReady = some x)
    (ht' : t' = { (t₁.weighed read record.reading).2 with ended := some x, pending := none })
    (hanswer : record.answer = .ready (t₁.answer x)) {out : List PollRecord}
    (hout : delivered out = delivered trace) : Decided owner source out t' record x := by
  have hholds := InboundReady.firstReady_holds hready
  obtain ⟨hbudget, _, _⟩ := h.carries took
  obtain ⟨hframes, hends, hcounted⟩ := h.running hended
  have hguard := Transfer.guardClock_weighed t₁ read record.reading
  rw [weighed_snd] at ht' hguard
  subst ht'
  refine ⟨rfl, ?_, ?_, ?_, ?_, ?_, ?_⟩
  · rw [hanswer]
    cases x <;> rfl
  · rintro rfl
    have hown := Transfer.weighed_own hholds (by decide)
    simpa [hbudget] using hown
  · rintro rfl
    have hown := Transfer.weighed_own hholds (by decide)
    simpa using hown
  · rintro rfl
    have hown := Transfer.weighed_own hholds (by decide)
    obtain rfl : read = .ended := by simpa using hown
    rw [arm_eq] at took
    cases took with
    | ends polled _ hnil hend =>
      rw [hout, hframes, hends]
      exact ⟨hend, by rw [show frames t.source = [] from hnil, List.append_nil]⟩
  · rintro rfl
    have hown := Transfer.weighed_own hholds (by decide)
    obtain rfl : read = .crossed := by simpa using hown
    rw [arm_eq] at took
    cases took with
    | @crosses rest polled frame _ hnext hend hcross =>
      have hnext : frames t.source = frame :: frames rest := hnext
      refine ⟨frame, ?_, ?_⟩
      · rw [hout, hframes, hnext]
        exact ⟨frames rest, by simp⟩
      · rw [hout, ← hcounted, ← h.budget]
        exact hcross
  · rintro rfl
    -- only the guard reports an idle body, and it measures its own interval
    rcases weighed_holds.mp hholds with hcarried | hown
    · obtain ⟨guard, hauthority, hobserved⟩ := Transfer.carriedReady_holds hcarried
      refine ⟨guard.idle, guard.quietSince, ?_, ?_⟩
      · exact hguard.trans (by rw [Transfer.guardClock, hauthority]; rfl)
      · rw [← observed_bodyIdle guard record.reading.shared]
        exact hobserved
    · simp at hown

theorem fixes (hended : t.ended = none)
    (took : Transfer.Took (t.arm record.reading.armed) record.reading.admitted read events t₁)
    (hready : (t₁.weighed read record.reading).1.firstReady = some x)
    (hevents : record.events = events ++ fixedEvents t₁.pending x)
    (hanswer : record.answer = .ready (t₁.answer x)) :
    Ledger owner source start (trace ++ [record])
      { (t₁.weighed read record.reading).2 with ended := some x, pending := none } := by
  have hdelivered : delivered (trace ++ [record]) = delivered trace := by
    rw [delivered_snoc, PollRecord.frame, hanswer]
    cases x <;> simp [answer]
  have hadmits : record.events.any TransferEvent.isAdmitted =
      events.any TransferEvent.isAdmitted := by
    rw [hevents, List.any_append, Transfer.fixedEvents_admits, Bool.or_false]
  have hterminals : Inbound.terminals (trace ++ [record]) = [x] := by
    rw [terminals_snoc, h.terminals, hended, hevents, List.filterMap_append, took.no_terminal,
      Transfer.fixedEvents_terminal]
    rfl
  have hdecided := h.decide_fixed hended took hready rfl hanswer hdelivered
  obtain ⟨hbudget, htotal, hguard⟩ := h.carries took
  obtain ⟨hinit, hcounted, hbounded⟩ := h.balance hended took
  have hquiet := h.quiet_snoc took hadmits
  have hfresh := h.fresh_snoc took hadmits
  rw [← Transfer.guardClock_weighed t₁ read record.reading] at hguard
  rw [weighed_snd] at hguard hdecided ⊢
  refine ⟨hbudget, rfl, (fun hnone => by cases hnone), ⟨t₁.pending.toList, ?_, ?_, ?_⟩, hbounded,
    hquiet, hfresh, htotal, hguard, hterminals, ?_⟩
  · cases t₁.pending <;> simp
  · rw [hdelivered]
    exact hinit
  · rw [hdelivered]
    exact hcounted
  · intro record' hrecord y hy
    -- no earlier poll reported a terminal, so this one did
    rcases List.mem_append.mp hrecord with hmem | hmem
    · exact absurd hy (h.no_terminal hended hmem)
    · obtain rfl := List.mem_singleton.mp hmem
      have hmem := mem_terminals hrecord hy
      rw [hterminals, List.mem_singleton] at hmem
      exact hmem ▸ hdecided

theorem step (hpoll : Polls t record t') : Ledger owner source start (trace ++ [record]) t' := by
  have hspec := pollTransfer_spec record.reading h.pending
  rw [show t.pollTransfer record.reading = _ from hpoll] at hspec
  obtain ⟨reading, answer, events⟩ := record
  dsimp only at hspec
  cases hspec with
  | later hended => exact h.later hended rfl rfl
  | runsOn hended took hready => exact h.runsOn hended took hready rfl
  | fixes hended took hready => exact h.fixes hended took hready rfl rfl

theorem running_of_answer (hpoll : Polls t record t') (hended : t.ended = none)
    (hanswer : record.answer = .pending ∨ ∃ frame, record.answer = .ready (.ok (some frame))) :
    t'.ended = none := by
  have hspec := pollTransfer_spec record.reading h.pending
  rw [show t.pollTransfer record.reading = _ from hpoll] at hspec
  obtain ⟨reading, answer, events⟩ := record
  dsimp only at hspec hanswer
  cases hspec with
  | later hlater => simp [hended] at hlater
  | runsOn _ took _ =>
    rw [weighed_snd]
    exact took.keeps_ended.trans (by rw [arm_eq]; exact hended)
  | @fixes read events t₁ x _ took _ =>
    rcases hanswer with hanswer | ⟨frame, hanswer⟩
    · cases hanswer
    · cases x <;> cases hanswer

end Ledger

theorem ledger_of_runs {owner : TransferOwner} {source : List (Poll SourceStep)} {start : ℕ}
    {t : Transfer} (run : Runs Polls (owner.overSource source start) trace t) :
    Ledger owner source start trace t :=
  run.invariant (Ledger.initial owner source start) fun _ h hstep => h.step hstep

end Camber.Inbound
