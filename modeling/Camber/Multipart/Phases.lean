import Camber.Multipart.Parser

/-! The events of a body come in the order field, chunks, field end. -/

namespace Camber.Multipart
open Str

namespace IncrementalParser

/-- Where a step may lead, and what it answers on the way. -/
inductive StepOrder : ParserState → Step → ParserState → Prop
  | needMore (state : ParserState) : StepOrder state .needMore state
  | opened {next : ParserState} (h : next ≠ .data) : StepOrder .opening .continue_ next
  | field (metadata : FieldMetadata) : StepOrder .headers (.event (.field metadata)) .data
  | chunk (bytes : Bytes) : StepOrder .data (.event (.chunk bytes)) .data
  | fieldEnd {next : ParserState} (h : next ≠ .data) : StepOrder .data (.event .fieldEnd) next
  | end_ : StepOrder .complete (.event .end_) .complete

def SamePhase (p q : IncrementalParser) : Prop := q.limits = p.limits ∧ q.state = p.state

def Moves (p : IncrementalParser) (step : Step) (q : IncrementalParser) : Prop :=
  q.limits = p.limits ∧ StepOrder p.state step q.state

variable {p q : IncrementalParser} {source rest : Bytes} {next : ParserState} {step : Step}

theorem fill_samePhase {want : ℕ} (h : p.fill source want = .ok (q, rest)) : p.SamePhase q := by
  unfold fill at h
  dsimp only at h
  split_ifs at h
  · obtain ⟨rfl, -⟩ := Prod.mk.inj (Except.ok.inj h)
    exact ⟨rfl, rfl⟩
  · obtain ⟨filled, hretain, hok⟩ := Except.bind_ok_iff.mp h
    obtain ⟨rfl, -⟩ := Prod.mk.inj (Except.ok.inj hok)
    obtain ⟨budget, -, hok⟩ := Except.bind_ok_iff.mp hretain
    obtain rfl := Except.ok.inj hok
    exact ⟨rfl, rfl⟩

theorem readFieldMetadata_samePhase {end_ : ℕ} {metadata : FieldMetadata}
    (h : p.readFieldMetadata end_ = .ok (metadata, q)) : p.SamePhase q := by
  unfold readFieldMetadata at h
  dsimp only at h
  split_ifs at h
  obtain ⟨budget, -, hrest⟩ := Except.bind_ok_iff.mp h
  obtain ⟨headers, -, hrest⟩ := Except.bind_ok_iff.mp hrest
  obtain ⟨parsed, -, hok⟩ := Except.bind_ok_iff.mp hrest
  obtain ⟨-, rfl⟩ := Prod.mk.inj (Except.ok.inj hok)
  exact ⟨rfl, rfl⟩

theorem fillToDelimiter_samePhase {carry : ℕ} {delimiter : Option ℕ}
    (h : p.fillToDelimiter source carry = .ok (delimiter, q, rest)) : p.SamePhase q := by
  obtain ⟨filled, hretain, hok⟩ := Except.bind_ok_iff.mp h
  obtain ⟨-, hok⟩ := Prod.mk.inj (Except.ok.inj hok)
  obtain ⟨rfl, -⟩ := Prod.mk.inj hok
  obtain ⟨budget, -, hok⟩ := Except.bind_ok_iff.mp hretain
  obtain rfl := Except.ok.inj hok
  exact ⟨rfl, rfl⟩

theorem delimiterSuffix_ne_data {at_ : ℕ} (h : p.delimiterSuffix at_ = .ok next) :
    next ≠ .data := by
  obtain ⟨closes, -, hok⟩ := Except.bind_ok_iff.mp h
  cases closes <;> (obtain rfl := Except.ok.inj hok; simp)

theorem stepOpening_moves (hs : p.state = .opening) (h : p.stepOpening source = .ok (step, q, rest)) :
    p.Moves step q := by
  obtain ⟨⟨filled, left⟩, hfill, hrest⟩ := Except.bind_ok_iff.mp h
  obtain ⟨hlimits, hstate⟩ := fill_samePhase hfill
  dsimp only at hrest
  split_ifs at hrest
  · obtain ⟨rfl, rfl, -⟩ := by simpa only [Except.ok.injEq, Prod.mk.injEq] using hrest
    exact ⟨hlimits, hstate ▸ .needMore _⟩
  · obtain ⟨next, hnext, hok⟩ := Except.bind_ok_iff.mp hrest
    obtain ⟨rfl, rfl, -⟩ := by simpa only [Except.ok.injEq, Prod.mk.injEq] using hok
    exact ⟨hlimits, hs ▸ .opened (delimiterSuffix_ne_data hnext)⟩

theorem stepHeaders_moves (hs : p.state = .headers) (h : p.stepHeaders source = .ok (step, q, rest)) :
    p.Moves step q := by
  obtain ⟨⟨filled, left⟩, hfill, hrest⟩ := Except.bind_ok_iff.mp h
  obtain ⟨hlimits, hstate⟩ := fill_samePhase hfill
  dsimp only at hrest
  split at hrest
  · obtain ⟨⟨answer, waiting⟩, hwait, hok⟩ := Except.bind_ok_iff.mp hrest
    obtain ⟨rfl, rfl, -⟩ := by simpa only [Except.ok.injEq, Prod.mk.injEq] using hok
    unfold awaitHeaderTerminator at hwait
    split_ifs at hwait
    obtain ⟨rfl, rfl⟩ := by simpa only [Except.ok.injEq, Prod.mk.injEq] using hwait
    exact ⟨hlimits, hstate ▸ .needMore _⟩
  · obtain ⟨⟨metadata, read⟩, hread, hok⟩ := Except.bind_ok_iff.mp hrest
    obtain ⟨rfl, rfl, -⟩ := by simpa only [Except.ok.injEq, Prod.mk.injEq] using hok
    exact ⟨(readFieldMetadata_samePhase hread).1.trans hlimits, hs ▸ .field metadata⟩

theorem yieldChunk_moves {available : ℕ} (hs : p.state = .data)
    (h : p.yieldChunk available = .ok (step, q)) : p.Moves step q := by
  unfold yieldChunk at h
  dsimp only at h
  split at h
  · cases h
  · obtain ⟨rfl, rfl⟩ := Prod.mk.inj (Except.ok.inj h)
    refine ⟨rfl, ?_⟩
    simp only [hs]
    exact .chunk _

theorem answerDelimiter_moves {carry : ℕ} {delimiter : Option ℕ} (hs : p.state = .data)
    (h : p.answerDelimiter carry delimiter = .ok (step, q)) : p.Moves step q := by
  unfold answerDelimiter at h
  split at h
  · obtain ⟨next, hnext, hok⟩ := Except.bind_ok_iff.mp h
    obtain ⟨rfl, rfl⟩ := Prod.mk.inj (Except.ok.inj hok)
    exact ⟨rfl, hs ▸ .fieldEnd (delimiterSuffix_ne_data hnext)⟩
  · exact yieldChunk_moves hs h
  · unfold yieldBeforeCarry at h
    dsimp only at h
    split at h
    · obtain ⟨rfl, rfl⟩ := Prod.mk.inj (Except.ok.inj h)
      exact ⟨rfl, .needMore _⟩
    · have hmoves := yieldChunk_moves (p := { p with scanned := p.buffer.length }) hs h
      exact hmoves

theorem stepData_moves (hs : p.state = .data) (h : p.stepData source = .ok (step, q, rest)) :
    p.Moves step q := by
  unfold stepData at h
  dsimp only at h
  -- the delimiter is in the buffer already, or the window is filled first
  have hanswered : ∀ {delimiter : Option ℕ} {filled : IncrementalParser} {left : Bytes},
      p.SamePhase filled →
      (filled.answerDelimiter (delimiterCarryOver p.boundary.length) delimiter >>= fun answer =>
        Except.ok (answer.1, answer.2, left)) = .ok (step, q, rest) → p.Moves step q := by
    intro delimiter filled left hsame hrest
    obtain ⟨hlimits, hstate⟩ := hsame
    obtain ⟨⟨answer, answered⟩, hanswer, hok⟩ := Except.bind_ok_iff.mp hrest
    obtain ⟨rfl, rfl, -⟩ := by simpa only [Except.ok.injEq, Prod.mk.injEq] using hok
    obtain ⟨hkept, horder⟩ := answerDelimiter_moves (hstate.trans hs) hanswer
    exact ⟨hkept.trans hlimits, hstate ▸ horder⟩
  split at h
  · exact hanswered ⟨rfl, rfl⟩ h
  · obtain ⟨⟨delimiter, filled, left⟩, hfill, hrest⟩ := Except.bind_ok_iff.mp h
    exact hanswered (fillToDelimiter_samePhase hfill) hrest

theorem stepEpilogue_moves (h : p.stepEpilogue source = .ok (step, q, rest)) : p.Moves step q := by
  obtain ⟨⟨filled, left⟩, hfill, hrest⟩ := Except.bind_ok_iff.mp h
  obtain ⟨closed, -, hok⟩ := Except.bind_ok_iff.mp hrest
  obtain ⟨rfl, rfl, -⟩ := by simpa only [Except.ok.injEq, Prod.mk.injEq] using hok
  obtain ⟨hlimits, hstate⟩ := fill_samePhase hfill
  exact ⟨hlimits, hstate ▸ .needMore _⟩

theorem step_moves (h : p.step source = .ok (step, q, rest)) : p.Moves step q := by
  unfold IncrementalParser.step at h
  split at h
  next hs => exact stepOpening_moves hs h
  next hs => exact stepHeaders_moves hs h
  next hs => exact stepData_moves hs h
  next => exact stepEpilogue_moves h
  next hs =>
    obtain ⟨rfl, rfl, -⟩ := by simpa only [Except.ok.injEq, Prod.mk.injEq] using h
    exact ⟨rfl, hs ▸ .end_⟩

inductive EventOrder : Bool → ParserEvent → ParserState → Prop
  | field (metadata : FieldMetadata) : EventOrder false (.field metadata) .data
  | chunk (bytes : Bytes) : EventOrder true (.chunk bytes) .data
  | fieldEnd {next : ParserState} (h : next ≠ .data) : EventOrder true .fieldEnd next
  | end_ : EventOrder false .end_ .complete

inductive AdvanceOrder : Bool → Option ParserEvent → ParserState → Prop
  | waiting (next : ParserState) : AdvanceOrder (next == .data) none next
  | event {inField : Bool} {event : ParserEvent} {next : ParserState}
      (h : EventOrder inField event next) : AdvanceOrder inField (some event) next

theorem AdvanceOrder.of_event {inField : Bool} {event : ParserEvent}
    (h : AdvanceOrder inField (some event) next) : EventOrder inField event next := by
  cases h with
  | event horder => exact horder

theorem AdvanceOrder.of_waiting {inField : Bool} (h : AdvanceOrder inField none next) :
    inField = (next == .data) := by
  cases h
  rfl

def inField (p : IncrementalParser) : Bool := p.state == .data

theorem StepOrder.event {state : ParserState} {event : ParserEvent}
    (h : StepOrder state (.event event) next) : EventOrder (state == .data) event next := by
  cases h with
  | field metadata => exact .field metadata
  | chunk bytes => exact .chunk bytes
  | fieldEnd hne => exact .fieldEnd hne
  | end_ => exact .end_

theorem advanceWithin_order {fuel : ℕ} {event : Option ParserEvent}
    (h : advanceWithin fuel p source = .ok (event, q, rest)) :
    AdvanceOrder p.inField event q.state := by
  induction fuel generalizing p source with
  | zero =>
    obtain ⟨rfl, rfl, -⟩ := by simpa only [advanceWithin, Except.ok.injEq, Prod.mk.injEq] using h
    exact .waiting _
  | succ fuel ih =>
    obtain ⟨⟨step, moved, left⟩, hstep, hrest⟩ := Except.bind_ok_iff.mp h
    have horder := (step_moves hstep).2
    cases step with
    | event event =>
      obtain ⟨rfl, rfl, -⟩ := by simpa only [Except.ok.injEq, Prod.mk.injEq] using hrest
      exact .event horder.event
    | needMore =>
      obtain ⟨rfl, rfl, -⟩ := by simpa only [Except.ok.injEq, Prod.mk.injEq] using hrest
      generalize hfrom : p.state = before at horder
      cases horder
      rw [inField, hfrom]
      exact .waiting _
    | continue_ =>
      -- only the opening line is passed without an event, and it stands outside a field
      have hsame : moved.inField = p.inField := by
        generalize hfrom : p.state = before at horder
        cases horder with
        | opened hne =>
          have hmoved : (moved.state == ParserState.data) = false := by simpa using hne
          rw [inField, inField, hfrom, hmoved]
          rfl
      exact hsame ▸ ih hrest

theorem finish_order {event : ParserEvent} (h : p.finish = .ok (event, q)) :
    EventOrder p.inField event q.state := by
  unfold finish at h
  split at h
  next hs =>
    obtain ⟨rfl, rfl⟩ := Prod.mk.inj (Except.ok.inj h)
    rw [inField, hs]
    exact .end_
  next hs =>
    split_ifs at h
    obtain ⟨rfl, rfl⟩ := Prod.mk.inj (Except.ok.inj h)
    rw [inField, hs]
    exact .end_
  next => cases h

end IncrementalParser

end Camber.Multipart
