import Camber.Client.Redirect
import Camber.Inbound.Admission
import Camber.Lib.Transition

/-! One owner reads the source and one caller takes chunks. -/

namespace Camber.Client.Body
open Str Inbound Transition

/-- The fact one body ended on. -/
inductive BodyTerminal where
  | ended
  | abandoned
  | stopped
  | failed (category : ClientError)
deriving DecidableEq

inductive BodyError where
  | cancelled
  | client (category : ClientError)

/-- The outcome the operation's own record states. -/
inductive Recorded where
  | answered
  | abandoned
  | cancelled
  | failed (category : ClientError)

namespace BodyTerminal

def demanded : BodyTerminal → Except BodyError (Option Bytes)
  | ended => .ok none
  | abandoned | stopped => .error .cancelled
  | failed category => .error (.client category)

def closed : BodyTerminal → Except BodyError Unit
  | ended | abandoned => .ok ()
  | stopped => .error .cancelled
  | failed category => .error (.client category)

def recorded : BodyTerminal → Recorded
  | ended => .answered
  | abandoned => .abandoned
  | stopped => .cancelled
  | failed category => .failed category

end BodyTerminal

def ownerLost : BodyTerminal := .failed .transport

inductive Phase where
  | live
  | committed (terminal : BodyTerminal)
  | settled (terminal : BodyTerminal)
deriving DecidableEq

def Phase.fact : Phase → Option BodyTerminal
  | live => none
  | committed terminal | settled terminal => some terminal

inductive Answer where
  | chunk (chunk : Bytes)
  | ended (terminal : BodyTerminal)
deriving DecidableEq

def Answer.result : Answer → Except BodyError (Option Bytes)
  | .chunk bytes => .ok (some bytes)
  | .ended terminal => terminal.demanded

def Answer.taken : Answer → Option Bytes
  | .chunk bytes => some bytes
  | .ended _ => none

/-- Everything the lock guards. -/
structure Slot where
  phase : Phase
  demanded : Bool
  chunk : Option Bytes

namespace Slot

def new : Slot := ⟨.live, false, none⟩

def commit (slot : Slot) (terminal : BodyTerminal) : BodyTerminal × Slot :=
  match slot.phase.fact with
  | some kept => (kept, slot)
  | none => (terminal, { slot with phase := .committed terminal })

def placeDemand (slot : Slot) : Slot :=
  match slot.phase with
  | .live => { slot with demanded := true }
  | .committed _ | .settled _ => slot

def pollAnswer (slot : Slot) : Poll Answer × Slot :=
  match slot.chunk, slot.phase with
  | some chunk, _ => (.ready (.chunk chunk), { slot with chunk := none })
  | none, .settled terminal => (.ready (.ended terminal), slot)
  | none, .live | none, .committed _ => (.pending, slot)

def pollSettled (slot : Slot) : Poll BodyTerminal :=
  match slot.phase with
  | .settled terminal => .ready terminal
  | .live | .committed _ => .pending

def abandon (slot : Slot) : Slot :=
  match slot.phase with
  | .live => { slot with phase := .committed .abandoned, demanded := false, chunk := none }
  | .committed _ | .settled _ => slot

def pollDemand (slot : Slot) : Poll (Except BodyTerminal Unit) × Slot :=
  match slot.phase.fact, slot.demanded with
  | some terminal, _ => (.ready (.error terminal), slot)
  | none, true => (.ready (.ok ()), { slot with demanded := false })
  | none, false => (.pending, slot)

def pollWithdrawn (slot : Slot) : Poll BodyTerminal :=
  match slot.phase.fact with
  | some terminal => .ready terminal
  | none => .pending

def deliver (slot : Slot) (chunk : Bytes) : Except BodyTerminal Unit × Slot :=
  match slot.phase.fact with
  | some terminal => (.error terminal, slot)
  | none => (.ok (), { slot with chunk := some chunk })

def conclude (slot : Slot) : BodyTerminal × Slot := slot.commit ownerLost

def settle (terminal : BodyTerminal) : Slot := ⟨.settled terminal, false, none⟩

variable {slot : Slot}

/-! A live body takes every operation; a body with a fact keeps it and refuses the rest. -/

theorem placeDemand_of_live (h : slot.phase = .live) :
    slot.placeDemand = { slot with demanded := true } := by
  rw [placeDemand, h]

theorem abandon_of_live (h : slot.phase = .live) : slot.abandon = ⟨.committed .abandoned, false, none⟩ := by
  rw [abandon, h]

theorem deliver_of_live (h : slot.phase = .live) (chunk : Bytes) :
    slot.deliver chunk = (.ok (), { slot with chunk := some chunk }) := by
  rw [deliver, h, Phase.fact]

theorem commit_of_live (h : slot.phase = .live) (terminal : BodyTerminal) :
    slot.commit terminal = (terminal, { slot with phase := .committed terminal }) := by
  rw [commit, h, Phase.fact]

variable {kept : BodyTerminal}

theorem placeDemand_of_fact (h : slot.phase.fact = some kept) : slot.placeDemand = slot := by
  unfold placeDemand
  cases hphase : slot.phase with
  | live => simp [hphase, Phase.fact] at h
  | committed _ | settled _ => rfl

theorem abandon_of_fact (h : slot.phase.fact = some kept) : slot.abandon = slot := by
  unfold abandon
  cases hphase : slot.phase with
  | live => simp [hphase, Phase.fact] at h
  | committed _ | settled _ => rfl

theorem deliver_of_fact (h : slot.phase.fact = some kept) (chunk : Bytes) :
    slot.deliver chunk = (.error kept, slot) := by
  rw [deliver, h]

theorem commit_of_fact (h : slot.phase.fact = some kept) (terminal : BodyTerminal) :
    slot.commit terminal = (kept, slot) := by
  rw [commit, h]

theorem live_or_fact (slot : Slot) : slot.phase = .live ∨ ∃ kept, slot.phase.fact = some kept := by
  cases hphase : slot.phase with
  | live => exact .inl rfl
  | committed kept | settled kept => exact .inr ⟨kept, rfl⟩

end Slot

inductive Frame where
  | data (data : Bytes)
  | trailers (trailers : Bytes)

def payload : Frame → Option Bytes
  | .data data => if data.isEmpty then none else some data
  | .trailers _ => none

/-- What one poll of the source returned. -/
inductive SourceEvent where
  | frame (frame : Frame)
  | ended
  | failed

def SourceEvent.payload : SourceEvent → Option Bytes
  | .frame sent => Body.payload sent
  | .ended | .failed => none

def payloads (events : List SourceEvent) : List Bytes := events.filterMap SourceEvent.payload

inductive OwnerStage where
  | waiting
  | selecting
  | polling
  | admitting (chunk : Bytes)
  | delivering (chunk : Bytes)
  | ended (terminal : BodyTerminal)
  | returned
  | released
  | concluded (terminal : BodyTerminal)
  | published (terminal : BodyTerminal)
  | done

namespace OwnerStage

def accepted : OwnerStage → Bool
  | selecting | polling | admitting _ | delivering _ => true
  | _ => false

def serving : OwnerStage → Bool
  | waiting | selecting | polling | admitting _ | delivering _ => true
  | _ => false

def running : OwnerStage → Bool
  | waiting | selecting | polling | admitting _ | delivering _ | ended _ => true
  | _ => false

def expirable : OwnerStage → Bool
  | waiting | selecting | polling => true
  | _ => false

def holdsSource : OwnerStage → Bool
  | released | concluded _ | published _ | done => false
  | _ => true

def hand : OwnerStage → Option Bytes
  | admitting chunk | delivering chunk => some chunk
  | _ => none

def charged : OwnerStage → Option Bytes
  | delivering chunk => some chunk
  | _ => none

end OwnerStage

inductive CallerStage where
  | idle
  | demanding
  | closing
  | closed (terminal : BodyTerminal)
  | gone

def CallerStage.droppable : CallerStage → Bool
  | idle | closing | closed _ => true
  | demanding | gone => false

inductive Expiry where
  | operation
  | stopped
  | attempt

def Expiry.terminal : Expiry → BodyTerminal
  | operation => .failed (.timeout .operation)
  | stopped => .stopped
  | attempt => .failed (.timeout .attempt)

/-- One body: its slot, where both sides stand, the owner's budget, the operation's record, and what
the source returned and the caller's demands were answered with. -/
structure Exchange where
  slot : Slot
  owner : OwnerStage
  caller : CallerStage
  limit : ℕ
  counted : ℕ
  carriesRecord : Bool
  record : Option Recorded
  events : List SourceEvent
  answers : List Answer

inductive Action where
  | placeDemand
  | pollAnswer
  | dropDemand
  | close
  | pollSettled
  | dropHandle
  | pollDemand
  | expire (expiry : Expiry)
  | pollWithdrawn
  | read (event : SourceEvent)
  | readPending
  | readIdle
  | count
  | deliver
  | commit
  | abort
  | dropSource
  | conclude
  | publish
  | settle

namespace Exchange

def start (limit counted : ℕ) (carriesRecord : Bool) : Exchange :=
  ⟨.new, .waiting, .idle, limit, counted, carriesRecord, none, [], []⟩

def received (e : Exchange) : List Bytes := e.answers.filterMap Answer.taken

def placeDemand (e : Exchange) : Exchange :=
  { e with slot := e.slot.placeDemand, caller := .demanding }

def pollAnswer (e : Exchange) : Exchange :=
  match e.slot.pollAnswer with
  | (.pending, slot) => { e with slot }
  | (.ready answer, slot) => { e with slot, caller := .idle, answers := e.answers ++ [answer] }

def dropDemand (e : Exchange) : Exchange := { e with slot := e.slot.abandon, caller := .idle }

def close (e : Exchange) : Exchange := { e with slot := e.slot.abandon, caller := .closing }

def pollSettled (e : Exchange) : Exchange :=
  match e.slot.pollSettled with
  | .pending => e
  | .ready terminal => { e with caller := .closed terminal }

def dropHandle (e : Exchange) : Exchange := { e with slot := e.slot.abandon, caller := .gone }

def pollDemand (e : Exchange) : Exchange :=
  match e.slot.pollDemand with
  | (.pending, slot) => { e with slot }
  | (.ready (.ok ()), slot) => { e with slot, owner := .selecting }
  | (.ready (.error terminal), slot) => { e with slot, owner := .ended terminal }

def expire (expiry : Expiry) (e : Exchange) : Exchange := { e with owner := .ended expiry.terminal }

def pollWithdrawn (e : Exchange) : Exchange :=
  match e.slot.pollWithdrawn with
  | .ready terminal => { e with owner := .ended terminal }
  | .pending => { e with owner := .polling }

def afterRead : SourceEvent → OwnerStage
  | .frame sent => ((payload sent).map OwnerStage.admitting).getD .polling
  | .ended => .ended .ended
  | .failed => .ended (.failed .transport)

def read (event : SourceEvent) (e : Exchange) : Exchange :=
  { e with events := e.events ++ [event], owner := afterRead event }

def readPending (e : Exchange) : Exchange := { e with owner := .selecting }

def readIdle (e : Exchange) : Exchange :=
  { e with owner := .ended (.failed (.timeout .responseIdle)) }

def count (e : Exchange) : Exchange :=
  match e.owner with
  | .admitting chunk =>
    match checkedBodyFrameTotal e.counted chunk.length e.limit with
    | some total => { e with counted := total, owner := .delivering chunk }
    | none => { e with owner := .ended (.failed .responseTooLarge) }
  | _ => e

def deliver (e : Exchange) : Exchange :=
  match e.owner with
  | .delivering chunk =>
    match e.slot.deliver chunk with
    | (.ok (), slot) => { e with slot, owner := .waiting }
    | (.error terminal, slot) => { e with slot, owner := .ended terminal }
  | _ => e

def commit (e : Exchange) : Exchange :=
  match e.owner with
  | .ended terminal => { e with slot := (e.slot.commit terminal).2, owner := .returned }
  | _ => e

def abort (e : Exchange) : Exchange := { e with owner := .returned }

def dropSource (e : Exchange) : Exchange := { e with owner := .released }

def conclude (e : Exchange) : Exchange :=
  { e with slot := e.slot.conclude.2, owner := .concluded e.slot.conclude.1 }

def publish (e : Exchange) : Exchange :=
  match e.owner with
  | .concluded terminal =>
    { e with
      record := if e.carriesRecord then some terminal.recorded else none
      owner := .published terminal }
  | _ => e

def settle (e : Exchange) : Exchange :=
  match e.owner with
  | .published terminal => { e with slot := .settle terminal, owner := .done }
  | _ => e

def Ready (e : Exchange) : Action → Prop
  | .placeDemand | .close => e.caller = .idle
  | .pollAnswer | .dropDemand => e.caller = .demanding
  | .pollSettled => e.caller = .closing
  | .dropHandle => e.caller.droppable = true
  | .pollDemand => e.owner = .waiting
  | .expire _ => e.owner.expirable = true
  | .pollWithdrawn => e.owner = .selecting
  | .read _ | .readPending | .readIdle => e.owner = .polling
  | .count => ∃ chunk, e.owner = .admitting chunk
  | .deliver => ∃ chunk, e.owner = .delivering chunk
  | .commit => ∃ terminal, e.owner = .ended terminal
  | .abort => e.owner.running = true
  | .dropSource => e.owner = .returned
  | .conclude => e.owner = .released
  | .publish => ∃ terminal, e.owner = .concluded terminal
  | .settle => ∃ terminal, e.owner = .published terminal

def act : Action → Exchange → Exchange
  | .placeDemand => placeDemand
  | .pollAnswer => pollAnswer
  | .dropDemand => dropDemand
  | .close => close
  | .pollSettled => pollSettled
  | .dropHandle => dropHandle
  | .pollDemand => pollDemand
  | .expire expiry => expire expiry
  | .pollWithdrawn => pollWithdrawn
  | .read event => read event
  | .readPending => readPending
  | .readIdle => readIdle
  | .count => count
  | .deliver => deliver
  | .commit => commit
  | .abort => abort
  | .dropSource => dropSource
  | .conclude => conclude
  | .publish => publish
  | .settle => settle

theorem placeDemand_cases (e : Exchange) :
    (e.slot.phase = .live ∧
      e.placeDemand = { e with slot := { e.slot with demanded := true }, caller := .demanding }) ∨
    (∃ kept, e.slot.phase.fact = some kept ∧ e.placeDemand = { e with caller := .demanding }) := by
  rcases e.slot.live_or_fact with hlive | ⟨kept, hkept⟩
  · exact .inl ⟨hlive, by rw [placeDemand, Slot.placeDemand_of_live hlive]⟩
  · exact .inr ⟨kept, hkept, by rw [placeDemand, Slot.placeDemand_of_fact hkept]⟩

variable {e : Exchange} {chunk : Bytes} {terminal : BodyTerminal}

theorem pollAnswer_of_chunk (h : e.slot.chunk = some chunk) :
    e.pollAnswer = { e with
      slot := { e.slot with chunk := none }
      caller := .idle
      answers := e.answers ++ [.chunk chunk] } := by
  simp only [pollAnswer, Slot.pollAnswer, h]

theorem pollAnswer_cases (e : Exchange) :
    (∃ chunk, e.slot.chunk = some chunk ∧
      e.pollAnswer = { e with
        slot := { e.slot with chunk := none }
        caller := .idle
        answers := e.answers ++ [.chunk chunk] }) ∨
    (∃ terminal, e.slot.chunk = none ∧ e.slot.phase = .settled terminal ∧
      e.pollAnswer = { e with caller := .idle, answers := e.answers ++ [.ended terminal] }) ∨
    e.pollAnswer = e := by
  cases hchunk : e.slot.chunk with
  | some chunk => exact .inl ⟨chunk, rfl, pollAnswer_of_chunk hchunk⟩
  | none =>
    cases hphase : e.slot.phase with
    | settled terminal =>
      exact .inr (.inl ⟨terminal, rfl, rfl, by simp only [pollAnswer, Slot.pollAnswer, hchunk, hphase]⟩)
    | live | committed _ =>
      exact .inr (.inr (by simp only [pollAnswer, Slot.pollAnswer, hchunk, hphase]))

theorem pollSettled_cases (e : Exchange) :
    (∃ terminal, e.slot.phase = .settled terminal ∧
      e.pollSettled = { e with caller := .closed terminal }) ∨ e.pollSettled = e := by
  cases hphase : e.slot.phase with
  | settled terminal => exact .inl ⟨terminal, rfl, by simp only [pollSettled, Slot.pollSettled, hphase]⟩
  | live | committed _ => exact .inr (by simp only [pollSettled, Slot.pollSettled, hphase])

theorem pollDemand_cases (e : Exchange) :
    (e.slot.phase = .live ∧ e.slot.demanded = true ∧
      e.pollDemand = { e with slot := { e.slot with demanded := false }, owner := .selecting }) ∨
    e.pollDemand = e ∨
    (∃ kept, e.slot.phase.fact = some kept ∧ e.pollDemand = { e with owner := .ended kept }) := by
  rcases e.slot.live_or_fact with hlive | ⟨kept, hkept⟩
  · cases hdemanded : e.slot.demanded with
    | true =>
      exact .inl ⟨hlive, rfl, by simp only [pollDemand, Slot.pollDemand, hlive, Phase.fact, hdemanded]⟩
    | false =>
      exact .inr (.inl (by simp only [pollDemand, Slot.pollDemand, hlive, Phase.fact, hdemanded]))
  · exact .inr (.inr ⟨kept, hkept, by simp only [pollDemand, Slot.pollDemand, hkept]⟩)

theorem pollWithdrawn_cases (e : Exchange) :
    (e.slot.phase = .live ∧ e.pollWithdrawn = { e with owner := .polling }) ∨
    (∃ kept, e.slot.phase.fact = some kept ∧ e.pollWithdrawn = { e with owner := .ended kept }) := by
  rcases e.slot.live_or_fact with hlive | ⟨kept, hkept⟩
  · exact .inl ⟨hlive, by simp only [pollWithdrawn, Slot.pollWithdrawn, hlive, Phase.fact]⟩
  · exact .inr ⟨kept, hkept, by simp only [pollWithdrawn, Slot.pollWithdrawn, hkept]⟩

theorem count_cases (h : e.owner = .admitting chunk) :
    (e.counted + chunk.length ≤ e.limit ∧
      e.count = { e with counted := e.counted + chunk.length, owner := .delivering chunk }) ∨
    e.count = { e with owner := .ended (.failed .responseTooLarge) } := by
  cases htotal : checkedBodyFrameTotal e.counted chunk.length e.limit with
  | none => exact .inr (by simp only [count, h, htotal])
  | some total =>
    obtain ⟨rfl, -, hlimit⟩ := checkedBodyFrameTotal_eq_some.mp htotal
    exact .inl ⟨hlimit, by simp only [count, h, htotal]⟩

theorem deliver_cases (h : e.owner = .delivering chunk) :
    (e.slot.phase = .live ∧
      e.deliver = { e with slot := { e.slot with chunk := some chunk }, owner := .waiting }) ∨
    (∃ kept, e.slot.phase.fact = some kept ∧ e.deliver = { e with owner := .ended kept }) := by
  rcases e.slot.live_or_fact with hlive | ⟨kept, hkept⟩
  · exact .inl ⟨hlive, by simp only [deliver, h, Slot.deliver_of_live hlive]⟩
  · exact .inr ⟨kept, hkept, by simp only [deliver, h, Slot.deliver_of_fact hkept]⟩

theorem commit_cases (h : e.owner = .ended terminal) :
    (e.slot.phase = .live ∧
      e.commit = { e with slot := { e.slot with phase := .committed terminal }, owner := .returned }) ∨
    (∃ kept, e.slot.phase.fact = some kept ∧ e.commit = { e with owner := .returned }) := by
  rcases e.slot.live_or_fact with hlive | ⟨kept, hkept⟩
  · exact .inl ⟨hlive, by simp only [commit, h, Slot.commit_of_live hlive]⟩
  · exact .inr ⟨kept, hkept, by simp only [commit, h, Slot.commit_of_fact hkept]⟩

theorem conclude_cases (e : Exchange) :
    (e.slot.phase = .live ∧
      e.conclude = { e with
        slot := { e.slot with phase := .committed ownerLost }
        owner := .concluded ownerLost }) ∨
    (∃ kept, e.slot.phase.fact = some kept ∧ e.conclude = { e with owner := .concluded kept }) := by
  rcases e.slot.live_or_fact with hlive | ⟨kept, hkept⟩
  · exact .inl ⟨hlive, by simp only [conclude, Slot.conclude, Slot.commit_of_live hlive]⟩
  · exact .inr ⟨kept, hkept, by simp only [conclude, Slot.conclude, Slot.commit_of_fact hkept]⟩

theorem publish_of_concluded (h : e.owner = .concluded terminal) :
    e.publish = { e with
      record := if e.carriesRecord then some terminal.recorded else none
      owner := .published terminal } := by
  simp only [publish, h]

theorem settle_of_published (h : e.owner = .published terminal) :
    e.settle = { e with slot := .settle terminal, owner := .done } := by
  simp only [settle, h]

theorem abandon_cases (e : Exchange) :
    (e.slot.phase = .live ∧ e.slot.abandon = ⟨.committed .abandoned, false, none⟩) ∨
    (∃ kept, e.slot.phase.fact = some kept ∧ e.slot.abandon = e.slot) := by
  rcases e.slot.live_or_fact with hlive | ⟨kept, hkept⟩
  · exact .inl ⟨hlive, Slot.abandon_of_live hlive⟩
  · exact .inr ⟨kept, hkept, Slot.abandon_of_fact hkept⟩

end Exchange

end Camber.Client.Body
