import Camber.Inbound.Admission
import Camber.Inbound.Ready

/-! One streaming direction under its own bounds. A turn that read no payload starts again. -/

namespace Camber.Inbound
open Str InboundGuard

inductive TransferDirection where
  | upload
  | download
deriving DecidableEq

namespace TransferDirection

def bytes : TransferDirection → ByteBoundary
  | upload => .transferUpload
  | download => .transferDownload

def label : TransferDirection → Text
  | upload => "upload".toList
  | download => "download".toList

end TransferDirection

/-- The three independent bounds one streaming transfer runs under. -/
structure TransferBudget where
  maxBytes : Option ℕ
  idle : Option ℕ
  total : Option ℕ
deriving DecidableEq

def narrow : Option ℕ → Option ℕ → Option ℕ
  | some inner, some outer => some (min inner outer)
  | some only, none => some only
  | none, some only => some only
  | none, none => none

namespace TransferBudget

def narrowedBy (inner outer : TransferBudget) : TransferBudget where
  maxBytes := narrow inner.maxBytes outer.maxBytes
  idle := narrow inner.idle outer.idle
  total := narrow inner.total outer.total

def withoutMaxBytes (budget : TransferBudget) : TransferBudget := { budget with maxBytes := none }

/-- The largest total the transfer may count. -/
def ceiling (budget : TransferBudget) : ℕ := budget.maxBytes.getD Usize.max

end TransferBudget

abbrev Frame := { data : Bytes // data ≠ [] }

theorem Frame.length_pos (frame : Frame) : 0 < frame.1.length := List.length_pos_iff.mpr frame.2

/-- One step a transfer's source produced. -/
inductive SourceStep where
  | data (frame : Frame)
  | empty
  | end_
  | failed (account : Text)
deriving DecidableEq

/-- What one turn's read of the source contributed. -/
inductive SourceRead where
  | quiet
  | nothing
  | crossed
  | ended
  | failed
deriving DecidableEq

/-- What the transfer reports to the observer of its lifecycle. -/
inductive TransferEvent where
  | framePolled
  | admitted (counted : ℕ)
  | crossingReleased
  | terminal (terminal : InboundTerminal)
deriving DecidableEq

structure TransferFailure where
  direction : TransferDirection
  terminal : InboundTerminal
  budget : TransferBudget
  account : Option Text
deriving DecidableEq

def statedAbsence (direction : TransferDirection) (terminal : InboundTerminal) : Text :=
  direction.label ++ " transfer ended on ".toList ++ terminal.debug.toList

namespace TransferFailure

def diagnostic (failure : TransferFailure) : Text :=
  failure.account.getD (statedAbsence failure.direction failure.terminal)

def refusal (failure : TransferFailure) : Option Rejected :=
  match failure.terminal with
  | .transferBytes => some (.transferTooLarge failure.direction.bytes failure.budget.ceiling)
  | .transferIdle => failure.budget.idle.map (.transferTimeout .transferIdle)
  | .transferTotal => failure.budget.total.map (.transferTimeout .transferTotal)
  | .sourceFailure => some (.transferSourceFailed failure.diagnostic)
  | .shutdownDeadline | .forcedCancellation | .routeBodyLimit | .bodyIdle | .requestTotal
  | .disconnect | .responseHead => none

end TransferFailure

structure Reading where
  armed : ℕ
  admitted : ℕ
  observed : ℕ
  weighed : ℕ
  shared : Shared

/-- The instants of a poll, in the order it reads them. -/
def Reading.instants (reading : Reading) : List ℕ :=
  [reading.armed, reading.admitted, reading.observed, reading.weighed]

/-- The authority one production consumer takes from an operation. -/
structure TransferOwner where
  direction : TransferDirection
  budget : TransferBudget
  authority : Option InboundGuard

structure Transfer where
  source : List (Poll SourceStep)
  direction : TransferDirection
  budget : TransferBudget
  counted : ℕ
  total : Option ℕ
  quietSince : ℕ
  ended : Option InboundTerminal
  pending : Option Frame
  authority : Option InboundGuard
  account : Option Text
deriving DecidableEq

namespace TransferOwner

def deadlinesOnly (owner : TransferOwner) : TransferOwner :=
  { owner with budget := owner.budget.withoutMaxBytes }

def overSource (owner : TransferOwner) (source : List (Poll SourceStep)) (now : ℕ) : Transfer where
  source := source
  direction := owner.direction
  budget := owner.budget
  counted := 0
  total := none
  quietSince := now
  ended := none
  pending := none
  authority := owner.authority
  account := none

end TransferOwner

/-- What one turn produced before anything was selected. -/
inductive Turn where
  | collected (ready : InboundReady)
  | restart

abbrev TransferAnswer := Except TransferFailure (Option Frame)

namespace Transfer

/-- Arms the lifetime deadline at the first turn the consumer took. -/
def arm (transfer : Transfer) (now : ℕ) : Transfer :=
  match transfer.total, transfer.budget.total with
  | none, some total => { transfer with total := some (now + total) }
  | _, _ => transfer

def admitted (transfer : Transfer) (frame : Frame) (now : ℕ) :
    SourceRead × List TransferEvent × Transfer :=
  match checkedBodyFrameTotal transfer.counted frame.1.length transfer.budget.ceiling with
  | none => (.crossed, [.crossingReleased], transfer)
  | some total =>
    (.quiet, [.admitted total],
      { transfer with counted := total, quietSince := now, pending := some frame })

/-- Reads one step from the source, unless a frame is already in hand. -/
def readSource (transfer : Transfer) (now : ℕ) : SourceRead × List TransferEvent × Transfer :=
  if transfer.pending.isSome then (.quiet, [], transfer)
  else
    match transfer.source with
    | [] => (.quiet, [], transfer)
    | .pending :: source => (.quiet, [], { transfer with source := source })
    | .ready .empty :: source => (.nothing, [.framePolled], { transfer with source := source })
    | .ready .end_ :: source => (.ended, [], { transfer with source := source })
    | .ready (.failed account) :: source =>
      (.failed, [], { transfer with source := source, account := some account })
    | .ready (.data frame) :: source =>
      let (read, events, transfer) := ({ transfer with source := source }).admitted frame now
      (read, .framePolled :: events, transfer)

/-- Every carried source that is ready, and the guard after it was read. -/
def observe (transfer : Transfer) (reading : Reading) : InboundReady × Transfer :=
  match transfer.authority with
  | some guard =>
    let (ready, guard) := guard.observed reading.shared reading.observed
    (ready, { transfer with authority := some guard })
  | none => ({}, transfer)

/-- Collects every source this turn can decide, including the carried ones. -/
def weighed (transfer : Transfer) (read : SourceRead) (reading : Reading) :
    InboundReady × Transfer :=
  let (carried, transfer) := transfer.observe reading
  let idle := elapsed transfer.budget.idle transfer.quietSince reading.weighed
  let total := reached transfer.total reading.weighed
  let carried := if idle then carried.withTransferIdle else carried
  let carried := if total then carried.withTransferTotal else carried
  match read with
  | .crossed => (carried.withTransferBytes, transfer)
  | .ended => (carried.withResponseHead, transfer)
  | .failed => (carried.withSourceFailure, transfer)
  | .quiet | .nothing => (carried, transfer)

/-- One turn: its source read, and every carried source with it. -/
def collect (transfer : Transfer) (reading : Reading) : Turn × List TransferEvent × Transfer :=
  let transfer := transfer.arm reading.armed
  let (read, events, transfer) := transfer.readSource reading.admitted
  match read with
  | .nothing => (.restart, events, transfer)
  | read =>
    let (ready, transfer) := transfer.weighed read reading
    (.collected ready, events, transfer)

/-- Fixes the one terminal and releases the frame in hand. -/
def fix (transfer : Transfer) (terminal : InboundTerminal) : List TransferEvent × Transfer :=
  let fixed := { transfer with ended := some terminal, pending := none }
  match transfer.pending with
  | some _ => ([.crossingReleased, .terminal terminal], fixed)
  | none => ([.terminal terminal], fixed)

def answer (transfer : Transfer) : InboundTerminal → TransferAnswer
  | .responseHead => .ok none
  | terminal => .error ⟨transfer.direction, terminal, transfer.budget, transfer.account⟩

/-- Commits the first ready source of a collected turn, or hands out the frame in hand. -/
def select (transfer : Transfer) (ready : InboundReady) :
    Poll TransferAnswer × List TransferEvent × Transfer :=
  match ready.firstReady with
  | none =>
    match transfer.pending with
    | some frame => (.ready (.ok (some frame)), [], { transfer with pending := none })
    | none => (.pending, [], transfer)
  | some terminal =>
    let (events, fixed) := transfer.fix terminal
    (.ready (fixed.answer terminal), events, fixed)

/-- The turns of one poll; a turn that read a frame without payload starts again. -/
def pollWithin (reading : Reading) :
    ℕ → Transfer → Poll TransferAnswer × List TransferEvent × Transfer
  | 0, transfer => (.pending, [], transfer)
  | turns + 1, transfer =>
    match transfer.ended with
    | some ended => (.ready (transfer.answer ended), [], transfer)
    | none =>
      match transfer.collect reading with
      | (.restart, events, transfer) =>
        let (answer, later, transfer) := pollWithin reading turns transfer
        (answer, events ++ later, transfer)
      | (.collected ready, events, transfer) =>
        let (answer, later, transfer) := transfer.select ready
        (answer, events ++ later, transfer)

def pollTransfer (reading : Reading) (transfer : Transfer) :
    Poll TransferAnswer × List TransferEvent × Transfer :=
  pollWithin reading (transfer.source.length + 1) transfer

end Transfer

def frames : List (Poll SourceStep) → List Frame
  | [] => []
  | .pending :: source => frames source
  | .ready .empty :: source => frames source
  | .ready (.data frame) :: source => frame :: frames source
  | .ready .end_ :: _ => []
  | .ready (.failed _) :: _ => []

def completes : List (Poll SourceStep) → Bool
  | [] => false
  | .pending :: source => completes source
  | .ready .empty :: source => completes source
  | .ready (.data _) :: source => completes source
  | .ready .end_ :: _ => true
  | .ready (.failed _) :: _ => false

def next : List (Poll SourceStep) → Poll SourceStep
  | [] => .pending
  | .ready .empty :: source => next source
  | .pending :: _ => .pending
  | .ready (.data frame) :: _ => .ready (.data frame)
  | .ready .end_ :: _ => .ready .end_
  | .ready (.failed account) :: _ => .ready (.failed account)

namespace Transfer

/-- What the turns of one poll took off the source of a transfer with no frame in hand. -/
inductive Took (t : Transfer) (now : ℕ) : SourceRead → List TransferEvent → Transfer → Prop
  | waits {source : List (Poll SourceStep)} (polled : ℕ) (hnext : next t.source = .pending)
      (hframes : frames t.source = frames source)
      (hends : completes t.source = completes source) :
      Took t now .quiet (List.replicate polled .framePolled) { t with source := source }
  | takes {source : List (Poll SourceStep)} (polled : ℕ) (frame : Frame)
      (hnext : next t.source = .ready (.data frame))
      (hframes : frames t.source = frame :: frames source)
      (hends : completes t.source = completes source)
      (hfits : t.counted + frame.1.length ≤ min t.budget.ceiling Usize.max) :
      Took t now .quiet
        (List.replicate polled .framePolled ++ [.admitted (t.counted + frame.1.length)])
        { t with source := source, counted := t.counted + frame.1.length, quietSince := now,
                 pending := some frame }
  | crosses {source : List (Poll SourceStep)} (polled : ℕ) (frame : Frame)
      (hnext : next t.source = .ready (.data frame))
      (hframes : frames t.source = frame :: frames source)
      (hends : completes t.source = completes source)
      (hcross : min t.budget.ceiling Usize.max < t.counted + frame.1.length) :
      Took t now .crossed (List.replicate polled .framePolled ++ [.crossingReleased])
        { t with source := source }
  | ends {source : List (Poll SourceStep)} (polled : ℕ) (hnext : next t.source = .ready .end_)
      (hframes : frames t.source = [])
      (hends : completes t.source = true) :
      Took t now .ended (List.replicate polled .framePolled) { t with source := source }
  | fails {source : List (Poll SourceStep)} (polled : ℕ) (account : Text)
      (hnext : next t.source = .ready (.failed account))
      (hframes : frames t.source = []) (hends : completes t.source = false) :
      Took t now .failed (List.replicate polled .framePolled)
        { t with source := source, account := some account }

theorem arm_eq (t : Transfer) (now : ℕ) :
    t.arm now = { t with total := t.total.or (t.budget.total.map (now + ·)) } := by
  obtain ⟨source, direction, ⟨maxBytes, idle, length⟩, counted, total, _⟩ := t
  cases total <;> cases length <;> rfl

theorem arm_arm (t : Transfer) (source : List (Poll SourceStep)) (now : ℕ) :
    ({ t.arm now with source := source }).arm now = { t.arm now with source := source } := by
  simp only [arm_eq]
  cases t.total with
  | some total => rfl
  | none => cases t.budget.total <;> rfl

variable {t : Transfer} {read : SourceRead}

theorem Took.skip {t' : Transfer} {source : List (Poll SourceStep)} {now : ℕ}
    {events : List TransferEvent} (hsource : t.source = .ready .empty :: source)
    (h : Took { t with source := source } now read events t') :
    Took t now read (.framePolled :: events) t' := by
  have hn : next t.source = next source := by rw [hsource, next]
  have hf : frames t.source = frames source := by rw [hsource, frames]
  have he : completes t.source = completes source := by rw [hsource, completes]
  cases h with
  | waits polled hnext hframes hends =>
    exact .waits (polled + 1) (hn.trans hnext) (hf.trans hframes) (he.trans hends)
  | takes polled frame hnext hframes hends hfits =>
    exact .takes (polled + 1) frame (hn.trans hnext) (hf.trans hframes) (he.trans hends) hfits
  | crosses polled frame hnext hframes hends hcross =>
    exact .crosses (polled + 1) frame (hn.trans hnext) (hf.trans hframes) (he.trans hends) hcross
  | ends polled hnext hframes hends =>
    exact .ends (polled + 1) (hn.trans hnext) (hf.trans hframes) (he.trans hends)
  | fails polled account hnext hframes hends =>
    exact .fails (polled + 1) account (hn.trans hnext) (hf.trans hframes) (he.trans hends)

theorem readSource_took (hpending : t.pending = none) (now : ℕ)
    (hread : (t.readSource now).1 ≠ .nothing) :
    Took t now (t.readSource now).1 (t.readSource now).2.1 (t.readSource now).2.2 := by
  obtain ⟨source, direction, budget, counted, total, quietSince, ended, pending, authority,
    account⟩ := t
  obtain rfl : pending = none := hpending
  rcases source with _ | ⟨_ | step, source⟩
  · exact .waits 0 rfl rfl rfl
  · exact .waits 0 rfl rfl rfl
  · cases step with
    | empty => exact absurd rfl hread
    | end_ => exact .ends 0 rfl rfl rfl
    | failed account => exact .fails 0 account rfl rfl rfl
    | data frame =>
      simp only [readSource, admitted, Option.isSome_none, Bool.false_eq_true, if_false]
      cases htotal : checkedBodyFrameTotal counted frame.1.length budget.ceiling with
      | none => exact .crosses 1 frame rfl rfl rfl (checkedBodyFrameTotal_eq_none.mp htotal)
      | some total =>
        obtain ⟨rfl, hmax, hceiling⟩ := checkedBodyFrameTotal_eq_some.mp htotal
        exact .takes 1 frame rfl rfl rfl (le_min hceiling hmax)

def handOver : Option Frame → Poll TransferAnswer
  | some frame => .ready (.ok (some frame))
  | none => .pending

def fixedEvents (pending : Option Frame) (terminal : InboundTerminal) : List TransferEvent :=
  match pending with
  | some _ => [.crossingReleased, .terminal terminal]
  | none => [.terminal terminal]

/-- Everything one poll of a transfer with no frame in hand can do. -/
inductive Polled (t : Transfer) (r : Reading) :
    Poll TransferAnswer → List TransferEvent → Transfer → Prop
  | later {ended : InboundTerminal} (hended : t.ended = some ended) :
      Polled t r (.ready (t.answer ended)) [] t
  | runsOn {read : SourceRead} {events : List TransferEvent} {t₁ : Transfer}
      (hended : t.ended = none) (took : Took (t.arm r.armed) r.admitted read events t₁)
      (hready : (t₁.weighed read r).1.firstReady = none) :
      Polled t r (handOver t₁.pending) events { (t₁.weighed read r).2 with pending := none }
  | fixes {read : SourceRead} {events : List TransferEvent} {t₁ : Transfer}
      {terminal : InboundTerminal} (hended : t.ended = none)
      (took : Took (t.arm r.armed) r.admitted read events t₁)
      (hready : (t₁.weighed read r).1.firstReady = some terminal) :
      Polled t r (.ready (t₁.answer terminal)) (events ++ fixedEvents t₁.pending terminal)
        { (t₁.weighed read r).2 with ended := some terminal, pending := none }

theorem readSource_nothing {now : ℕ} (hread : (t.readSource now).1 = .nothing) :
    ∃ source, t.source = .ready .empty :: source ∧
      t.readSource now = (.nothing, [.framePolled], { t with source := source }) := by
  obtain ⟨source, direction, budget, counted, total, quietSince, ended, pending, authority,
    account⟩ := t
  cases pending with
  | some frame => cases hread
  | none =>
    rcases source with _ | ⟨_ | step, source⟩
    · cases hread
    · cases hread
    · cases step with
      | empty => exact ⟨source, rfl, rfl⟩
      | end_ => cases hread
      | failed account => cases hread
      | data frame =>
        simp only [readSource, admitted, Option.isSome_none, Bool.false_eq_true, if_false] at hread
        split at hread <;> cases hread

def carriedReady (t : Transfer) (r : Reading) : InboundReady := (t.observe r).1

theorem weighed_snd (t : Transfer) (read : SourceRead) (r : Reading) :
    (t.weighed read r).2 = { t with
      authority := t.authority.map fun guard => (guard.observed r.shared r.observed).2 } := by
  have hobserve : (t.observe r).2 = { t with
      authority := t.authority.map fun guard => (guard.observed r.shared r.observed).2 } := by
    obtain ⟨source, direction, budget, counted, total, quietSince, ended, pending, authority,
      account⟩ := t
    cases authority <;> rfl
  rw [← hobserve]
  cases read <;> rfl

theorem weighed_holds {r : Reading} {x : InboundTerminal} :
    (t.weighed read r).1.holds x = true ↔
      (t.carriedReady r).holds x = true ∨
      (x = .transferIdle ∧ elapsed t.budget.idle t.quietSince r.weighed = true) ∨
      (x = .transferTotal ∧ reached t.total r.weighed = true) ∨
      (x = .transferBytes ∧ read = .crossed) ∨ (x = .responseHead ∧ read = .ended) ∨
      (x = .sourceFailure ∧ read = .failed) := by
  have hbudget : (t.observe r).2.budget = t.budget := by
    unfold observe
    split <;> rfl
  have hquiet : (t.observe r).2.quietSince = t.quietSince := by
    unfold observe
    split <;> rfl
  have htotal : (t.observe r).2.total = t.total := by
    unfold observe
    split <;> rfl
  unfold weighed carriedReady
  simp only [hbudget, hquiet, htotal]
  generalize elapsed t.budget.idle t.quietSince r.weighed = idle
  generalize reached t.total r.weighed = total
  generalize (t.observe r).1 = ready
  cases read <;> cases idle <;> cases total <;>
    simp [InboundReady.withTransferIdle, InboundReady.withTransferTotal,
      InboundReady.withTransferBytes, InboundReady.withResponseHead,
      InboundReady.withSourceFailure] <;> tauto

theorem select_polled {t₁ : Transfer} {r : Reading} {events : List TransferEvent}
    (hended : t.ended = none) (took : Took (t.arm r.armed) r.admitted read events t₁) :
    Polled t r ((t₁.weighed read r).2.select (t₁.weighed read r).1).1
      (events ++ ((t₁.weighed read r).2.select (t₁.weighed read r).1).2.1)
      ((t₁.weighed read r).2.select (t₁.weighed read r).1).2.2 := by
  have hsnd := weighed_snd t₁ read r
  unfold select
  cases hready : (t₁.weighed read r).1.firstReady with
  | none =>
    have hruns := Polled.runsOn hended took hready
    rw [hsnd] at hruns ⊢
    cases hpending : t₁.pending with
    | some frame | none =>
      simp only [hpending, handOver] at hruns ⊢
      simpa using hruns
  | some terminal =>
    have hfixes := Polled.fixes hended took hready
    rw [hsnd] at hfixes ⊢
    unfold fix
    cases hpending : t₁.pending with
    | some frame | none =>
      simp only [hpending, fixedEvents] at hfixes ⊢
      convert hfixes using 1
      cases terminal <;> rfl

theorem pollWithin_spec (r : Reading) (turns : ℕ) (t : Transfer) (hturns : t.source.length < turns)
    (hended : t.ended = none) (hpending : t.pending = none) :
    Polled t r (pollWithin r turns t).1 (pollWithin r turns t).2.1 (pollWithin r turns t).2.2 := by
  -- on the turns that are left: a turn that starts again has shortened the source
  induction turns generalizing t with
  | zero => omega
  | succ turns ih =>
    have harm : (t.arm r.armed).source = t.source ∧ (t.arm r.armed).pending = none ∧
        (t.arm r.armed).ended = none := by
      rw [arm_eq]
      exact ⟨rfl, hpending, hended⟩
    simp only [pollWithin, hended, collect]
    by_cases hread : ((t.arm r.armed).readSource r.admitted).1 = .nothing
    · obtain ⟨source, hsource, heq⟩ := readSource_nothing hread
      have hlen : source.length < turns := by
        rw [← harm.1, hsource, List.length_cons] at hturns
        omega
      simp only [heq]
      have h := ih { t.arm r.armed with source := source } hlen harm.2.2 harm.2.1
      generalize pollWithin r turns { t.arm r.armed with source := source } = result at h
      obtain ⟨answer, events, t'⟩ := result
      simp only [List.cons_append, List.nil_append]
      cases h with
      | later hlater => simp [harm.2.2] at hlater
      | runsOn _ took hready =>
        rw [arm_arm] at took
        exact .runsOn hended (took.skip hsource) hready
      | fixes _ took hready =>
        rw [arm_arm] at took
        exact .fixes hended (took.skip hsource) hready
    · have took := readSource_took harm.2.1 r.admitted hread
      generalize (t.arm r.armed).readSource r.admitted = result at hread took
      obtain ⟨read, events, t₁⟩ := result
      have h := select_polled hended took
      cases read with
      | nothing => exact absurd rfl hread
      | quiet | crossed | ended | failed => exact h

theorem pollTransfer_of_ended {ended : InboundTerminal} (r : Reading)
    (hended : t.ended = some ended) : t.pollTransfer r = (.ready (t.answer ended), [], t) := by
  simp only [pollTransfer, pollWithin, hended]

/-- A poll does what `Polled` says, and needs no more turns than it is given. -/
theorem pollTransfer_spec (r : Reading) (hpending : t.pending = none) :
    Polled t r (pollTransfer r t).1 (pollTransfer r t).2.1 (pollTransfer r t).2.2 := by
  cases hended : t.ended with
  | some ended =>
    rw [pollTransfer_of_ended r hended]
    exact .later hended
  | none => exact pollWithin_spec r _ t (Nat.lt_succ_self _) hended hpending

end Transfer

end Camber.Inbound
