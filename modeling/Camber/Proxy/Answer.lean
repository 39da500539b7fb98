import Camber.Proxy.Upload

/-! Three producers can answer a request whose body streams to an upstream: the upstream with its
head, the upload with a refusal, and the operation's carried sources with a cause. -/

namespace Camber.Proxy
open Str Inbound Transition

inductive ResponseOrigin where
  | application
  | middleware
  | router
  | framework
  | upstream
  | staticFile
  | serverSentEvents
  | grpc
  | webSocket
  | internal
  | protocol

/-- What one operation's response commitment settled on. -/
inductive ResponseCommit where
  | head (origin : ResponseOrigin)
  | cause (terminal : InboundTerminal)

/-- One admitted operation's set-once response commitment. -/
structure OperationCommitment where
  committed : Option ResponseCommit

namespace OperationCommitment

def commit (commitment : OperationCommitment) (attempt : ResponseCommit) :
    Except ResponseCommit Unit × OperationCommitment :=
  match commitment.committed with
  | some committed => (.error committed, commitment)
  | none => (.ok (), ⟨some attempt⟩)

def recordHead (commitment : OperationCommitment) (origin : ResponseOrigin) : OperationCommitment :=
  (commitment.commit (.head origin)).2

def commitCause (commitment : OperationCommitment) (terminal : InboundTerminal) :
    Except ResponseCommit Unit × OperationCommitment :=
  commitment.commit (.cause terminal)

end OperationCommitment

structure UploadRefusal where
  terminal : InboundTerminal
  rejected : Rejected

inductive UploadFailure (F : Type) where
  | body (rejected : Rejected)
  | committed (terminal : InboundTerminal)
  | proxy (failure : F)

def committedRefusal {F : Type} (refusal : UploadRefusal) (commitment : OperationCommitment) :
    UploadFailure F × OperationCommitment :=
  match commitment.commitCause refusal.terminal with
  | (.ok (), commitment) => (.body refusal.rejected, commitment)
  | (.error (.cause committed), commitment) => (.committed committed, commitment)
  | (.error (.head _), commitment) => (.committed refusal.terminal, commitment)

/-- A commit attempt, as the commitment's observer is told of it: who made it, and whether it took
the cell. -/
inductive Attempt (H : Type) where
  | refusal (refusal : UploadRefusal)
  | head (head : H)
  | carried (terminal : InboundTerminal)

inductive Answer (F H : Type) where
  | passedOn (head : H) (upload : UploadDisposition)
  | failed (failure : UploadFailure F)
  | cause (terminal : InboundTerminal)

inductive SettleStage (F H : Type) where
  | selecting
  | recorded (head : H)
  | quiescing (head : H)
  | answered (answer : Answer F H)

inductive Turn where
  | producer
  | carried

/-- The upload, what it signals on its way, the two channels, and the coordinator. -/
structure Settling (F H : Type) where
  stream : UploadStream
  outbox : List UploadSignal
  refusal : Option UploadRefusal
  closed : Bool
  finished : Option UploadDisposition
  guard : InboundGuard
  commitment : OperationCommitment
  stage : SettleStage F H
  turn : Turn
  settled : Bool
  attempts : List (Attempt H × Bool)

variable {F H : Type}

namespace Settling

def send (s : Settling F H) : UploadSignal → Settling F H
  | .released _ => s
  | .refusal terminal rejected =>
    if s.closed then s else { s with refusal := some ⟨terminal, rejected⟩ }
  | .finished disposition => { s with finished := some disposition }

def free (s : Settling F H) : Bool := s.commitment.committed.isNone

def refuse (s : Settling F H) (refusal : UploadRefusal) : Settling F H :=
  let settled := committedRefusal (F := F) refusal s.commitment
  { s with
    commitment := settled.2
    stage := .answered (.failed settled.1)
    attempts := s.attempts ++ [(.refusal refusal, s.free)] }

end Settling

inductive SettleAct (F H : Type) where
  | upload (record : UploadRecord) (next : UploadStream)
  | arrive
  | takeRefusal (refusal : UploadRefusal)
  | takeHead (head : H)
  | takeFailure (failure : F)
  | close
  | acknowledged (disposition : UploadDisposition)
  | unacknowledged
  | pending
  /-- The carried sources are read, as `shared` answers at `now`. -/
  | carried (shared : Shared) (now : ℕ)

namespace Settling

def Ready (s : Settling F H) : SettleAct F H → Prop
  | .upload record next =>
    s.outbox = [] ∧ Streams s.stream record next ∧
      ∀ closed r answer signals, record = .polled closed r answer signals → closed = s.closed
  | .arrive => s.outbox ≠ []
  | .takeRefusal refusal => s.turn = .producer ∧ s.stage = .selecting ∧ s.refusal = some refusal
  | .takeHead _ | .takeFailure _ => s.turn = .producer ∧ s.stage = .selecting
  | .close => s.turn = .producer ∧ ∃ head, s.stage = .recorded head
  | .acknowledged disposition =>
    s.turn = .producer ∧ (∃ head, s.stage = .quiescing head) ∧ s.finished = some disposition
  | .unacknowledged => s.turn = .producer ∧ ∃ head, s.stage = .quiescing head
  | .pending => s.turn = .producer ∧ (s.stage = .selecting ∨ ∃ head, s.stage = .quiescing head)
  | .carried _ _ =>
    s.turn = .carried ∧ (s.stage = .selecting ∨ ∃ head, s.stage = .quiescing head)

def passOn (s : Settling F H) (disposition : UploadDisposition) : Settling F H :=
  match s.stage with
  | .quiescing head => { s with stage := .answered (.passedOn head disposition) }
  | _ => s

/-- The turn reads the carried sources, unless the cell was found taken before. -/
def readCarried (s : Settling F H) (shared : Shared) (now : ℕ) : Settling F H :=
  if s.settled then { s with turn := .producer }
  else
    let observed := s.guard.observed shared now
    match observed.1.firstReady with
    | none => { s with guard := observed.2, turn := .producer }
    | some terminal =>
      let attempts := s.attempts ++ [(.carried terminal, s.free)]
      match s.commitment.commitCause terminal with
      | (.ok (), commitment) =>
        { s with guard := observed.2, commitment, stage := .answered (.cause terminal), attempts }
      | (.error _, commitment) =>
        { s with guard := observed.2, commitment, settled := true, turn := .producer, attempts }

def arrive (s : Settling F H) : Settling F H :=
  match s.outbox with
  | [] => s
  | signal :: rest => { s.send signal with outbox := rest }

def resolveFailure (s : Settling F H) (failure : F) : Settling F H :=
  match s.refusal with
  | some refusal => s.refuse refusal
  | none => { s with stage := .answered (.failed (.proxy failure)) }

def close (s : Settling F H) : Settling F H :=
  match s.stage with
  | .recorded head => { s with closed := true, stage := .quiescing head }
  | _ => s

def act : SettleAct F H → Settling F H → Settling F H
  | .upload record next, s => { s with stream := next, outbox := record.signals }
  | .arrive, s => s.arrive
  | .takeRefusal refusal, s => s.refuse refusal
  | .takeHead head, s =>
    { s with
      commitment := s.commitment.recordHead .upstream
      stage := .recorded head
      attempts := s.attempts ++ [(.head head, s.free)] }
  | .takeFailure failure, s => s.resolveFailure failure
  | .close, s => s.close
  | .acknowledged disposition, s => s.passOn disposition
  | .unacknowledged, s => s.passOn .stopped
  | .pending, s => { s with turn := .carried }
  | .carried shared now, s => s.readCarried shared now

def start (incoming : Incoming) (admitted : BodyGrant) (owner : TransferOwner) (now : ℕ)
    (guard : InboundGuard) : Settling F H :=
  let split := boundedUpload incoming admitted owner now
  split.1.foldl send
    { stream := split.2, outbox := [], refusal := none, closed := false, finished := none, guard
      commitment := ⟨none⟩, stage := .selecting, turn := .producer, settled := false
      attempts := [] }

end Settling

def SettleAct.record? : SettleAct F H → Option UploadRecord
  | .upload record _ => some record
  | .arrive | .takeRefusal _ | .takeHead _ | .takeFailure _ | .close | .acknowledged _
  | .unacknowledged | .pending | .carried _ _ => none

def uploads (trace : List (SettleAct F H)) : List UploadRecord := trace.filterMap SettleAct.record?

section Commitment

variable {commitment : OperationCommitment} {attempts : List (Attempt H × Bool)}
  {attempt : Attempt H} {commit : ResponseCommit}

/-- One attempt took the cell with `commit`, and it was the first one made. -/
structure Took (commitment : OperationCommitment) (attempts : List (Attempt H × Bool))
    (attempt : Attempt H) (commit : ResponseCommit) : Prop where
  cell : commitment.committed = some commit
  record : ∃ late, attempts = (attempt, true) :: late ∧ ∀ lost ∈ late, lost.2 = false

structure Untaken (commitment : OperationCommitment) (attempts : List (Attempt H × Bool)) :
    Prop where
  cell : commitment.committed = none
  record : attempts = []

def Standing (commitment : OperationCommitment) (attempts : List (Attempt H × Bool)) :
    SettleStage F H → Prop
  | .selecting => Untaken commitment attempts
  | .recorded head | .quiescing head | .answered (.passedOn head _) =>
    Took commitment attempts (.head head) (.head .upstream)
  | .answered (.failed (.body rejected)) =>
    ∃ terminal, Took commitment attempts (.refusal ⟨terminal, rejected⟩) (.cause terminal)
  | .answered (.failed (.committed _)) => False
  | .answered (.failed (.proxy _)) => Untaken commitment attempts
  | .answered (.cause terminal) => Took commitment attempts (.carried terminal) (.cause terminal)

theorem Untaken.took (h : Untaken commitment attempts) (attempt : Attempt H)
    (commit : ResponseCommit) :
    Took (commitment.commit commit).2 (attempts ++ [(attempt, commitment.committed.isNone)])
      attempt commit where
  cell := by rw [OperationCommitment.commit, h.cell]
  record := ⟨[], by rw [h.record, h.cell]; rfl, by simp⟩

theorem Took.late (h : Took commitment attempts attempt commit) (late : Attempt H)
    (other : ResponseCommit) :
    Took (commitment.commit other).2 (attempts ++ [(late, commitment.committed.isNone)])
      attempt commit where
  cell := by
    rw [OperationCommitment.commit, h.cell]
    exact h.cell
  record := by
    obtain ⟨lost, rfl, hall⟩ := h.record
    refine ⟨lost ++ [(late, false)], by rw [h.cell]; rfl, ?_⟩
    intro other hother
    rcases List.mem_append.mp hother with hmem | hmem
    · exact hall other hmem
    · rw [List.mem_singleton.mp hmem]

theorem Took.mem (h : Took commitment attempts attempt commit) : (attempt, true) ∈ attempts := by
  obtain ⟨late, rfl, -⟩ := h.record
  exact List.mem_cons_self

theorem Took.filter_length (h : Took commitment attempts attempt commit) :
    (attempts.filter Prod.snd).length = 1 := by
  obtain ⟨late, rfl, hall⟩ := h.record
  have hlost : late.filter Prod.snd = [] := by
    rw [List.filter_eq_nil_iff]
    intro lost hlost
    rw [hall lost hlost]
    exact Bool.false_ne_true
  rw [List.filter_cons_of_pos rfl, hlost]
  rfl

theorem Standing.filter_length_le {stage : SettleStage F H}
    (h : Standing commitment attempts stage) : (attempts.filter Prod.snd).length ≤ 1 := by
  have huntaken : Untaken commitment attempts → (attempts.filter Prod.snd).length ≤ 1 := by
    intro h
    rw [h.record]
    exact Nat.zero_le 1
  cases stage with
  | selecting => exact huntaken h
  | recorded head => exact (Took.filter_length h).le
  | quiescing head => exact (Took.filter_length h).le
  | answered answer =>
    cases answer with
    | passedOn head disposition => exact (Took.filter_length h).le
    | cause terminal => exact (Took.filter_length h).le
    | failed failure =>
      cases failure with
      | body rejected =>
        obtain ⟨terminal, htook⟩ := h
        exact htook.filter_length.le
      | committed terminal => exact h.elim
      | proxy failure => exact huntaken h

end Commitment

namespace Settling

def Stands (s : Settling F H) : Prop := Standing s.commitment s.attempts s.stage

variable {s : Settling F H}

theorem stands_refuse (h : Untaken s.commitment s.attempts) (refusal : UploadRefusal) :
    (s.refuse refusal).Stands := by
  have hanswer : committedRefusal (F := F) refusal s.commitment =
      (.body refusal.rejected, (s.commitment.commit (.cause refusal.terminal)).2) := by
    rw [committedRefusal, OperationCommitment.commitCause, OperationCommitment.commit, h.cell]
  unfold Stands refuse
  rw [hanswer]
  exact ⟨refusal.terminal, h.took (.refusal refusal) (.cause refusal.terminal)⟩

theorem stands_readCarried (h : s.Stands)
    (hwaits : s.stage = .selecting ∨ ∃ head, s.stage = .quiescing head) (shared : Shared) (now : ℕ) :
    (s.readCarried shared now).Stands := by
  unfold readCarried
  by_cases hsettled : s.settled
  · rw [if_pos hsettled]
    exact h
  · rw [if_neg hsettled]
    dsimp only
    cases (s.guard.observed shared now).1.firstReady with
    | none => exact h
    | some terminal =>
      rcases hwaits with hstage | ⟨head, hstage⟩
      · have huntaken : Untaken s.commitment s.attempts := by
          rw [Stands, hstage] at h
          exact h
        have hcommit : s.commitment.commitCause terminal =
            (.ok (), (s.commitment.commit (.cause terminal)).2) := by
          rw [OperationCommitment.commitCause, OperationCommitment.commit, huntaken.cell]
        dsimp only
        rw [hcommit]
        exact huntaken.took (.carried terminal) (.cause terminal)
      · have htook : Took s.commitment s.attempts (.head head) (.head .upstream) := by
          rw [Stands, hstage] at h
          exact h
        have hcommit : s.commitment.commitCause terminal =
            (.error (.head .upstream), (s.commitment.commit (.cause terminal)).2) := by
          rw [OperationCommitment.commitCause, OperationCommitment.commit, htook.cell]
        dsimp only
        rw [hcommit, Stands, hstage]
        exact htook.late (.carried terminal) (.cause terminal)

theorem arrive_eq (s : Settling F H) :
    ∃ outbox refusal finished, s.arrive =
      { s with outbox := outbox, refusal := refusal, finished := finished } := by
  unfold arrive
  cases s.outbox with
  | nil => exact ⟨s.outbox, s.refusal, s.finished, rfl⟩
  | cons signal rest =>
    cases signal with
    | released permit => exact ⟨rest, s.refusal, s.finished, rfl⟩
    | finished disposition => exact ⟨rest, s.refusal, some disposition, rfl⟩
    | refusal terminal rejected =>
      by_cases hclosed : s.closed
      · exact ⟨rest, s.refusal, s.finished, by simp [send, hclosed]⟩
      · exact ⟨rest, some ⟨terminal, rejected⟩, s.finished, by simp [send, hclosed]⟩

theorem stands_act {label : SettleAct F H} (h : s.Stands) (hready : s.Ready label) :
    (act label s).Stands := by
  cases label with
  | upload record next => exact h
  | arrive =>
    obtain ⟨outbox, refusal, finished, heq⟩ := s.arrive_eq
    rw [act, heq]
    exact h
  | takeRefusal refusal =>
    obtain ⟨-, hstage, -⟩ := hready
    rw [Stands, hstage] at h
    exact stands_refuse h refusal
  | takeHead head =>
    obtain ⟨-, hstage⟩ := hready
    rw [Stands, hstage] at h
    exact Untaken.took h (.head head) (.head .upstream)
  | takeFailure failure =>
    obtain ⟨-, hstage⟩ := hready
    rw [Stands, hstage] at h
    show (s.resolveFailure failure).Stands
    unfold resolveFailure
    cases s.refusal with
    | none => exact h
    | some refusal => exact stands_refuse h refusal
  | close =>
    obtain ⟨-, head, hstage⟩ := hready
    simp only [act, close, hstage, Stands] at h ⊢
    exact h
  | acknowledged disposition =>
    obtain ⟨-, ⟨head, hstage⟩, -⟩ := hready
    simp only [act, passOn, hstage, Stands] at h ⊢
    exact h
  | unacknowledged =>
    obtain ⟨-, head, hstage⟩ := hready
    simp only [act, passOn, hstage, Stands] at h ⊢
    exact h
  | pending => exact h
  | carried shared now => exact stands_readCarried h hready.2 shared now

end Settling

theorem stands_start (incoming : Incoming) (admitted : BodyGrant) (owner : TransferOwner) (now : ℕ)
    (guard : InboundGuard) :
    (Settling.start incoming admitted owner now guard : Settling F H).Stands := by
  have hsend : ∀ (signals : List UploadSignal) (s : Settling F H), s.Stands →
      (signals.foldl Settling.send s).Stands := by
    intro signals
    induction signals with
    | nil => exact fun s h => h
    | cons signal rest ih =>
      intro s h
      apply ih
      cases signal with
      | released permit => exact h
      | finished disposition => exact h
      | refusal terminal rejected =>
        simp only [Settling.send]
        split_ifs <;> exact h
  exact hsend _ _ ⟨rfl, rfl⟩

section Said

variable (incoming : Incoming) (admitted : BodyGrant) (owner : TransferOwner) (now : ℕ)

def said (records : List UploadRecord) : List UploadSignal :=
  (boundedUpload incoming admitted owner now).1 ++ records.flatMap UploadRecord.signals

structure Heard (trace : List (SettleAct F H)) (s : Settling F H) : Prop where
  run : Runs Streams (boundedUpload incoming admitted owner now).2 (uploads trace) s.stream
  outbox : ∀ signal ∈ s.outbox, signal ∈ said incoming admitted owner now (uploads trace)
  finished : ∀ disposition, s.finished = some disposition →
    .finished disposition ∈ said incoming admitted owner now (uploads trace)
  answered : ∀ head, s.stage = .answered (.passedOn head .drained) →
    .finished .drained ∈ said incoming admitted owner now (uploads trace)

variable {incoming admitted owner now} {trace : List (SettleAct F H)}

theorem uploads_snoc (trace : List (SettleAct F H)) (label : SettleAct F H) :
    uploads (trace ++ [label]) = uploads trace ++ label.record?.toList :=
  filterMap_snoc ..

theorem said_append (records later : List UploadRecord) {signal : UploadSignal}
    (h : signal ∈ said incoming admitted owner now records) :
    signal ∈ said incoming admitted owner now (records ++ later) := by
  unfold said at h ⊢
  rw [List.flatMap_append, ← List.append_assoc]
  exact List.mem_append_left _ h

variable {s : Settling F H}

section

variable (h : Heard incoming admitted owner now trace s)

include h

theorem Heard.of_same {s' : Settling F H} {label : SettleAct F H} (hlabel : label.record? = none)
    (hstream : s'.stream = s.stream) (houtbox : s'.outbox = s.outbox)
    (hfinished : s'.finished = s.finished) (hstage : ∀ head, s'.stage = .answered (.passedOn head
      .drained) → s.stage = .answered (.passedOn head .drained) ∨ s.finished = some .drained) :
    Heard incoming admitted owner now (trace ++ [label]) s' := by
  have huploads : uploads (trace ++ [label]) = uploads trace := by
    rw [uploads_snoc, hlabel]
    exact List.append_nil _
  refine ⟨?_, ?_, ?_, ?_⟩
  · rw [huploads, hstream]
    exact h.run
  · rw [huploads, houtbox]
    exact h.outbox
  · rw [huploads, hfinished]
    exact h.finished
  · intro head hanswered
    rw [huploads]
    rcases hstage head hanswered with hbefore | hdrained
    · exact h.answered head hbefore
    · exact h.finished .drained hdrained

theorem Heard.upload {record : UploadRecord} {next : UploadStream}
    (hstep : Streams s.stream record next) :
    Heard incoming admitted owner now (trace ++ [.upload record next])
      { s with stream := next, outbox := record.signals } := by
  have huploads : uploads (trace ++ [.upload record next]) = uploads trace ++ [record] :=
    uploads_snoc trace _
  refine ⟨?_, ?_, ?_, ?_⟩
  · rw [huploads]
    exact h.run.snoc hstep
  · intro signal hsignal
    rw [huploads, said, List.flatMap_append, List.flatMap_singleton, ← List.append_assoc]
    exact List.mem_append_right _ hsignal
  · intro disposition hfinished
    rw [huploads]
    exact said_append _ _ (h.finished disposition hfinished)
  · intro head hanswered
    rw [huploads]
    exact said_append _ _ (h.answered head hanswered)

theorem Heard.arrive : Heard incoming admitted owner now (trace ++ [.arrive]) s.arrive := by
  have huploads : uploads (trace ++ [.arrive]) = uploads trace := uploads_snoc trace _ |>.trans
    (List.append_nil _)
  unfold Settling.arrive
  cases houtbox : s.outbox with
  | nil => exact h.of_same rfl rfl rfl rfl fun head hstage => .inl hstage
  | cons signal rest =>
    have hhead := h.outbox signal (by rw [houtbox]; exact List.mem_cons_self)
    have hrest : ∀ other ∈ rest, other ∈ said incoming admitted owner now (uploads trace) :=
      fun other hother => h.outbox other (by rw [houtbox]; exact List.mem_cons_of_mem _ hother)
    cases signal with
    | released permit =>
      refine ⟨?_, ?_, ?_, ?_⟩ <;> rw [huploads]
      exacts [h.run, hrest, h.finished, h.answered]
    | refusal terminal rejected =>
      simp only [Settling.send]
      split_ifs
      · refine ⟨?_, ?_, ?_, ?_⟩ <;> rw [huploads]
        exacts [h.run, hrest, h.finished, h.answered]
      · refine ⟨?_, ?_, ?_, ?_⟩ <;> rw [huploads]
        exacts [h.run, hrest, h.finished, h.answered]
    | finished disposition =>
      refine ⟨?_, ?_, ?_, ?_⟩ <;> rw [huploads]
      · exact h.run
      · exact hrest
      · intro other hother
        obtain rfl := Option.some.inj hother
        exact hhead
      · exact h.answered

theorem Heard.act {label : SettleAct F H} (hready : s.Ready label) :
    Heard incoming admitted owner now (trace ++ [label]) (Settling.act label s) := by
  cases label with
  | upload record next => exact h.upload hready.2.1
  | arrive => exact h.arrive
  | takeRefusal refusal => exact h.of_same rfl rfl rfl rfl fun head hstage => by cases hstage
  | takeHead head => exact h.of_same rfl rfl rfl rfl fun head hstage => by cases hstage
  | takeFailure failure =>
    show Heard incoming admitted owner now _ (s.resolveFailure failure)
    unfold Settling.resolveFailure
    cases s.refusal with
    | none => exact h.of_same rfl rfl rfl rfl fun head hstage => by cases hstage
    | some refusal => exact h.of_same rfl rfl rfl rfl fun head hstage => by cases hstage
  | close =>
    obtain ⟨-, head, hstage⟩ := hready
    simp only [Settling.act, Settling.close, hstage]
    exact h.of_same rfl rfl rfl rfl fun head hstage => by cases hstage
  | acknowledged disposition =>
    obtain ⟨-, ⟨head, hstage⟩, hfinished⟩ := hready
    simp only [Settling.act, Settling.passOn, hstage]
    refine h.of_same rfl rfl rfl rfl fun other hother => .inr ?_
    cases hother
    exact hfinished
  | unacknowledged =>
    obtain ⟨-, head, hstage⟩ := hready
    simp only [Settling.act, Settling.passOn, hstage]
    exact h.of_same rfl rfl rfl rfl fun other hother => by cases hother
  | pending => exact h.of_same rfl rfl rfl rfl fun head hstage => .inl hstage
  | carried shared instant =>
    show Heard incoming admitted owner now _ (s.readCarried shared instant)
    unfold Settling.readCarried
    split_ifs
    · exact h.of_same rfl rfl rfl rfl fun head hstage => .inl hstage
    · dsimp only
      cases (s.guard.observed shared instant).1.firstReady with
      | none => exact h.of_same rfl rfl rfl rfl fun head hstage => .inl hstage
      | some terminal =>
        obtain ⟨taken, commitment, hcommit⟩ : ∃ taken commitment,
            s.commitment.commitCause terminal = (taken, commitment) := ⟨_, _, rfl⟩
        dsimp only
        rw [hcommit]
        cases taken with
        | ok _ => exact h.of_same rfl rfl rfl rfl fun head hstage => by cases hstage
        | error _ => exact h.of_same rfl rfl rfl rfl fun head hstage => .inl hstage

end

theorem heard_start (guard : InboundGuard) :
    Heard incoming admitted owner now []
      (Settling.start incoming admitted owner now guard : Settling F H) := by
  unfold Settling.start boundedUpload
  cases hended : incoming.endStream with
  | false =>
    refine ⟨?_, by simp, by simp, by simp⟩
    simp only [boundedUpload, hended]
    exact .nil
  | true =>
    have hreleases : ∀ s : Settling F H, (releases admitted.permit).foldl Settling.send s = s := by
      intro s
      cases admitted.permit <;> rfl
    simp only [if_true, List.foldl_append, hreleases]
    refine ⟨?_, by simp [Settling.send], ?_, by simp [Settling.send]⟩
    · simp only [boundedUpload, hended]
      exact .nil
    · intro disposition hfinished
      obtain rfl := Option.some.inj hfinished
      simp [said, boundedUpload, hended]

end Said

/-- The answer and the commitment agree. However the upload, the upstream and the carried sources
interleave on a commitment no one has taken, at most one attempt takes it, and the answer is the one
that took it: a head is passed on, a refusal mapped and a cause returned only if their own attempt
took the cell and holds it, a proxy failure only if none was made. -/
theorem answer_agrees (incoming : Incoming) (admitted : BodyGrant) (owner : TransferOwner)
    (now : ℕ) (guard : InboundGuard) (trace : List (SettleAct F H)) (s : Settling F H)
    (run : Runs (Acts Settling.Ready Settling.act)
      (Settling.start incoming admitted owner now guard) trace s) :
    (s.attempts.filter Prod.snd).length ≤ 1 ∧
    (∀ head disposition, s.stage = .answered (.passedOn head disposition) →
      s.commitment.committed = some (.head .upstream) ∧ (.head head, true) ∈ s.attempts ∧
      (disposition = .drained → CompleteBody incoming.source (forwarded (uploads trace)))) ∧
    (∀ rejected, s.stage = .answered (.failed (.body rejected)) →
      ∃ terminal, s.commitment.committed = some (.cause terminal) ∧
        (.refusal ⟨terminal, rejected⟩, true) ∈ s.attempts) ∧
    (∀ terminal, s.stage = .answered (.cause terminal) →
      s.commitment.committed = some (.cause terminal) ∧ (.carried terminal, true) ∈ s.attempts) ∧
    (∀ failure, s.stage = .answered (.failed (.proxy failure)) →
      s.commitment.committed = none ∧ s.attempts = []) ∧
    ∀ terminal, s.stage ≠ .answered (.failed (.committed terminal)) := by
  have hkept : s.Stands ∧ Heard incoming admitted owner now trace s := by
    induction run with
    | nil => exact ⟨stands_start incoming admitted owner now guard, heard_start guard⟩
    | snoc _ hstep ih =>
      obtain ⟨hready, rfl⟩ := hstep
      exact ⟨Settling.stands_act ih.1 hready, ih.2.act hready⟩
  obtain ⟨hstands, hheard⟩ := hkept
  unfold Settling.Stands at hstands
  refine ⟨hstands.filter_length_le, ?_, ?_, ?_, ?_, ?_⟩
  · intro head disposition hstage
    rw [hstage] at hstands
    refine ⟨hstands.cell, hstands.mem, ?_⟩
    rintro rfl
    exact complete_of_drained hheard.run (hheard.answered head hstage)
  · intro rejected hstage
    rw [hstage] at hstands
    obtain ⟨terminal, htook⟩ := hstands
    exact ⟨terminal, htook.cell, htook.mem⟩
  · intro terminal hstage
    rw [hstage] at hstands
    exact ⟨hstands.cell, hstands.mem⟩
  · intro failure hstage
    rw [hstage] at hstands
    exact ⟨hstands.cell, hstands.record⟩
  · intro terminal hstage
    rw [hstage] at hstands
    exact hstands

def sampleSettling : Settling Unit ℕ :=
  .start ⟨[.ready .end_], true, fun _ => ⟨rfl, rfl⟩⟩ ⟨100, none⟩
    (idleOperation.upload ⟨none, none, none⟩ 0) 0 ⟨none, none, none, 0⟩

def sampleAnswered : List (SettleAct Unit ℕ) :=
  [.takeHead 200, .close, .pending, .carried ⟨some .abort, 0, false, false⟩ 1,
    .acknowledged .drained]

theorem answer_agrees_sampleAnswered :
    ∃ s, Runs (Acts Settling.Ready Settling.act) sampleSettling sampleAnswered s ∧
      s.stage = .answered (.passedOn 200 .drained) ∧
      s.attempts = [(.head 200, true), (.carried .forcedCancellation, false)] ∧
      (s.attempts.filter Prod.snd).length ≤ 1 := by
  have run : Runs (Acts Settling.Ready Settling.act) sampleSettling sampleAnswered
      (replay Settling.act sampleSettling sampleAnswered) := by
    apply runs_replay
    refine ⟨⟨rfl, rfl⟩, ⟨rfl, 200, rfl⟩, ⟨rfl, .inr ⟨200, rfl⟩⟩, ⟨rfl, .inr ⟨200, rfl⟩⟩,
      ⟨rfl, ⟨200, rfl⟩, rfl⟩, trivial⟩
  exact ⟨_, run, rfl, rfl, (answer_agrees _ _ _ _ _ _ _ run).1⟩

end Camber.Proxy
