import Camber.Multipart.Phases
import Camber.Multipart.Slot

/-! `Consumes` follows a consumer that is never interrupted through a body. -/

namespace Camber.Multipart
open Str IncrementalParser

def ParserEvent.reply : ParserEvent → SessionReply
  | .field metadata => .field metadata
  | .chunk bytes => .chunk bytes
  | .fieldEnd => .fieldEnd
  | .end_ => .end_

namespace SessionBody

def inField (body : SessionBody) : Bool := body.parser.inField

variable {body : SessionBody}

theorem nextEventFrom_order {ending : BodyEnd} {p : IncrementalParser} {source : Bytes}
    {frames : List Bytes} {event : ParserEvent}
    (h : nextEventFrom ending p source frames = .ok (event, body)) :
    EventOrder p.inField event body.parser.state := by
  induction frames generalizing p source with
  | nil =>
    rw [nextEventFrom] at h
    split at h
    next => cases h
    next hadvance =>
      obtain ⟨rfl, rfl⟩ := Prod.mk.inj (Except.ok.inj h)
      exact (advanceWithin_order hadvance).of_event
    next hadvance =>
      dsimp only at h
      split at h
      next => cases h
      next =>
        split at h
        next => cases h
        next hfinish =>
          obtain ⟨rfl, rfl⟩ := Prod.mk.inj (Except.ok.inj h)
          rw [(advanceWithin_order hadvance).of_waiting]
          exact finish_order hfinish
  | cons frame frames ih =>
    rw [nextEventFrom] at h
    split at h
    next => cases h
    next hadvance =>
      obtain ⟨rfl, rfl⟩ := Prod.mk.inj (Except.ok.inj h)
      exact (advanceWithin_order hadvance).of_event
    next hadvance =>
      rw [(advanceWithin_order hadvance).of_waiting]
      exact ih h

theorem pumped_order {next : SessionBody} {event : ParserEvent}
    (h : body.pumped = .ok (event, next)) : EventOrder body.inField event next.parser.state := by
  unfold pumped at h
  split at h
  next => cases h
  next hnext =>
    have horder := nextEventFrom_order hnext
    obtain ⟨rfl, rfl⟩ := Prod.mk.inj (Except.ok.inj h)
    exact horder

theorem pumped_complete (h : body.parser.state = .complete) :
    ∃ next, body.pumped = .ok (.end_, next) ∧ next.parser.state = .complete := by
  have hadvance : body.parser.advance body.source = .ok (some .end_, body.parser, body.source) := by
    simp only [advance, advanceWithin,
      step, h]
    rfl
  have hnext : nextEventFrom body.ending body.parser body.source body.frames =
      .ok (.end_, body) := by
    rw [nextEventFrom.eq_def, hadvance]
  refine ⟨{ body with parser := body.parser.releaseDelivered 0 }, ?_, h⟩
  rw [pumped, hnext]
  rfl

theorem pumped_fault_terminal {fault : Fault} (h : body.pumped = .error fault) :
    fault.terminal ≠ .clean := by
  have hfrom : ∀ (frames : List Bytes) (p : IncrementalParser) (source : Bytes),
      nextEventFrom body.ending p source frames = .error fault → fault.recorded ≠ some .clean := by
    intro frames
    induction frames with
    | nil =>
      intro p source hnext
      rw [nextEventFrom] at hnext
      split at hnext
      next =>
        obtain rfl := Except.error.inj hnext
        simp
      next => cases hnext
      next =>
        dsimp only at hnext
        split at hnext
        next hend =>
          obtain rfl := Except.error.inj hnext
          cases hending : body.ending <;> rw [hending] at hend <;> cases hend <;> simp
        next =>
          split at hnext
          next =>
            obtain rfl := Except.error.inj hnext
            simp
          next => cases hnext
    | cons frame frames ih =>
      intro p source hnext
      rw [nextEventFrom] at hnext
      split at hnext
      next =>
        obtain rfl := Except.error.inj hnext
        simp
      next => cases hnext
      next => exact ih _ _ hnext
  have hrecorded : fault.recorded ≠ some .clean := by
    unfold pumped at h
    split at h
    next hnext => exact hfrom _ _ _ (hnext.trans h)
    next => cases h
  cases hr : fault.recorded with
  | none => simp [Fault.terminal, hr]
  | some terminal =>
    rw [hr] at hrecorded
    simpa [Fault.terminal, hr] using hrecorded

end SessionBody

theorem EventOrder.reply_answers {inField : Bool} {event : ParserEvent} {next : ParserState}
    (h : EventOrder inField event next) :
    replyFor (if inField then .nextChunk else .nextField) event = some event.reply ∧
      event.reply.reading = (next == .data) := by
  cases h with
  | field metadata => exact ⟨rfl, rfl⟩
  | chunk bytes => exact ⟨rfl, rfl⟩
  | fieldEnd hne => exact ⟨rfl, by simpa [ParserEvent.reply, SessionReply.reading] using hne⟩
  | end_ => exact ⟨rfl, rfl⟩

variable {body start : SessionBody} {read : List SessionReply}

theorem uninterrupted_pumped {next : SessionBody} {event : ParserEvent}
    (h : body.pumped = .ok (event, next)) (n : ℕ) :
    uninterrupted (n + 1) body.inField body =
      event.reply :: uninterrupted n next.inField next := by
  obtain ⟨hreply, hreading⟩ := EventOrder.reply_answers (SessionBody.pumped_order h)
  simp only [uninterrupted, h, hreply, hreading]
  rfl

/-- `Consumes start read body`: a consumer that was never interrupted took the replies `read` on the
way from `start` to `body`. -/
inductive Consumes (start : SessionBody) : List SessionReply → SessionBody → Prop
  | nil : Consumes start [] start
  | snoc {read : List SessionReply} {body next : SessionBody} {event : ParserEvent}
      (h : Consumes start read body) (hnext : body.pumped = .ok (event, next)) :
      Consumes start (read ++ [event.reply]) next

theorem Consumes.uninterrupted_eq (h : Consumes start read body) (n : ℕ) :
    uninterrupted (read.length + n) start.inField start =
      read ++ uninterrupted n body.inField body := by
  induction h generalizing n with
  | nil => simp
  | snoc h hnext ih =>
    rw [List.length_append, List.length_singleton, Nat.add_assoc, Nat.add_comm 1, ih,
      uninterrupted_pumped hnext, List.append_assoc, List.singleton_append]

def Faithful (start : SessionBody) (taken : List (CommandKind × SessionReply)) : Prop :=
  ∃ n read, Skips taken read ∧ read <+: uninterrupted n start.inField start

theorem Consumes.faithful {taken : List (CommandKind × SessionReply)} (h : Consumes start read body)
    (htaken : Skips taken read) : Faithful start taken := by
  refine ⟨read.length, read, htaken, ?_⟩
  have heq := h.uninterrupted_eq 0
  rw [Nat.add_zero] at heq
  rw [heq]
  exact List.prefix_append _ _

theorem Consumes.faithful_fault {fault : Fault} (h : Consumes start read body)
    (hfault : body.pumped = .error fault) :
    read ++ [fault.reply] <+: uninterrupted (read.length + 1) start.inField start := by
  rw [h.uninterrupted_eq 1]
  simp [uninterrupted, hfault]

end Camber.Multipart
