import Camber.Multipart.Limits

namespace Camber.Multipart
open Str

structure MultipartBufferBudget where
  limit : ℕ
  reserved : ℕ
  peak : ℕ
  /-- Whether every debug assertion of `release` held so far. -/
  asserted : Bool
  within : reserved ≤ limit

namespace MultipartBufferBudget

def bufferExhausted : String := "multipart parser buffer exhausted"

def new (limit : ℕ) : MultipartBufferBudget := ⟨limit, 0, 0, true, Nat.zero_le limit⟩

def reserve (budget : MultipartBufferBudget) (bytes : ℕ) :
    Except RuntimeError MultipartBufferBudget :=
  match h : (Usize.checkedAdd budget.reserved bytes).filter (· ≤ budget.limit) with
  | some total => .ok { budget with
      reserved := total
      peak := max budget.peak total
      within := of_decide_eq_true (Option.filter_eq_some_iff.mp h).2 }
  | none => .error (malformed bufferExhausted)

/-- A release below zero is clamped, as `saturating_sub` does. -/
def release (budget : MultipartBufferBudget) (bytes : ℕ) : MultipartBufferBudget :=
  { budget with
    reserved := budget.reserved - bytes
    asserted := budget.asserted && decide (bytes ≤ budget.reserved)
    within := (Nat.sub_le _ _).trans budget.within }

/-- The budget has `held` bytes of its maximum out, and no release was ever clamped. -/
structure Holds (budget : MultipartBufferBudget) (limit held : ℕ) : Prop where
  limit_eq : budget.limit = limit
  reserved_eq : budget.reserved = held
  asserted : budget.asserted = true

theorem holds_new (limit : ℕ) : (new limit).Holds limit 0 := ⟨rfl, rfl, rfl⟩

variable {budget : MultipartBufferBudget} {limit held bytes : ℕ}

theorem Holds.of_reserve {next : MultipartBufferBudget} (h : budget.Holds limit held)
    (hnext : budget.reserve bytes = .ok next) : next.Holds limit (held + bytes) := by
  unfold MultipartBufferBudget.reserve at hnext
  split at hnext
  next total htotal =>
    obtain ⟨-, rfl⟩ := Usize.checkedAdd_eq_some.mp (Option.filter_eq_some_iff.mp htotal).1
    obtain rfl := Except.ok.inj hnext
    exact ⟨h.limit_eq, congrArg (· + bytes) h.reserved_eq, h.asserted⟩
  next => cases hnext

theorem Holds.reserve (h : budget.Holds limit held) (hlimit : held + bytes ≤ limit)
    (husize : held + bytes ≤ Usize.max) :
    ∃ next, budget.reserve bytes = .ok next ∧ next.Holds limit (held + bytes) := by
  have hheld : ∀ next, budget.reserve bytes = .ok next → next.Holds limit (held + bytes) :=
    fun _ => h.of_reserve
  obtain ⟨rfl, rfl, -⟩ := h
  have hadd : (Usize.checkedAdd budget.reserved bytes).filter (· ≤ budget.limit) =
      some (budget.reserved + bytes) :=
    Option.filter_eq_some_iff.mpr
      ⟨Usize.checkedAdd_eq_some.mpr ⟨husize, rfl⟩, decide_eq_true hlimit⟩
  cases hnext : budget.reserve bytes with
  | ok next => exact ⟨next, rfl, hheld next hnext⟩
  | error e =>
    unfold MultipartBufferBudget.reserve at hnext
    split at hnext
    next => cases hnext
    next hnone => exact nomatch hnone.symm.trans hadd

theorem Holds.release {rest : ℕ} (h : budget.Holds limit held) (hrest : held = rest + bytes) :
    (budget.release bytes).Holds limit rest := by
  refine ⟨h.limit_eq, ?_, ?_⟩
  · show budget.reserved - bytes = rest
    rw [h.reserved_eq, hrest, Nat.add_sub_cancel]
  · show (budget.asserted && decide (bytes ≤ budget.reserved)) = true
    rw [h.asserted, h.reserved_eq, hrest]
    simp

theorem Holds.before_release (h : (budget.release bytes).Holds limit held) :
    budget.Holds limit (held + bytes) := by
  obtain ⟨hlimit, hreserved, hasserted⟩ := h
  simp only [MultipartBufferBudget.release, Bool.and_eq_true, decide_eq_true_eq] at *
  exact ⟨hlimit, by omega, hasserted.1⟩

end MultipartBufferBudget

structure FieldMetadata where
  name : Text
  filename : Option Text
  contentType : Option Text
  bytes : ℕ
deriving DecidableEq

def FieldMetadata.measure (name : Text) (filename contentType : Option Text) : ℕ :=
  byteLength name + filename.elim 0 byteLength + contentType.elim 0 byteLength

inductive ParserEvent where
  | field (metadata : FieldMetadata)
  | chunk (bytes : Bytes)
  | fieldEnd
  | end_
deriving DecidableEq

def ParserEvent.reservation : ParserEvent → ℕ
  | .field metadata => metadata.bytes
  | .chunk bytes => bytes.length
  | .fieldEnd => 0
  | .end_ => 0

inductive ParserState where
  | opening
  | headers
  | data
  | epilogue
  | complete
deriving DecidableEq

inductive Step where
  | event (event : ParserEvent)
  | continue_
  | needMore

structure IncrementalParser where
  limits : MultipartLimits
  boundary : Bytes
  buffer : Bytes
  budget : MultipartBufferBudget
  state : ParserState
  /-- How far into `buffer` a fruitless search already reached. -/
  scanned : ℕ
  fieldsSeen : ℕ
  fieldBytes : ℕ

def headerBlockTooLarge : String :=
  "multipart field header block exceeds its configured maximum"

def tooManyHeaders : String :=
  "multipart field declares more headers than the configured maximum"

def tooManyFields : String := "multipart body declares more fields than the configured maximum"

def nestedMultipart : String := "nested multipart parts are not parsed"

def truncatedBody : String := "multipart body ended before its closing delimiter"

def nestedMultipartPrefix : Bytes := encode "multipart/".toList

def declaresNestedMultipart (value : Text) : Bool :=
  match getRange (encode (trimStart value)) 0 nestedMultipartPrefix.length with
  | some candidate => Ascii.eqIgnoreCase candidate nestedMultipartPrefix
  | none => false

def intoMetadata (headers : PartHeaders) : Except RuntimeError FieldMetadata :=
  match headers.name with
  | none => .error (malformed invalidContentDisposition)
  | some name =>
    if headers.contentType.any declaresNestedMultipart then .error (malformed nestedMultipart)
    else .ok ⟨name, headers.filename, headers.contentType,
      FieldMetadata.measure name headers.filename headers.contentType⟩

def fieldTooLarge (maxFieldBytes : ℕ) : RuntimeError :=
  .requestBodyLimit
    ("multipart field exceeds its configured maximum of " ++ toString maxFieldBytes ++ " bytes")

namespace IncrementalParser

def new (boundary : Text) (limits : MultipartLimits) : IncrementalParser where
  limits := limits
  boundary := encode boundary
  buffer := []
  budget := .new limits.maxParserBufferBytes
  state := .opening
  scanned := 0
  fieldsSeen := 0
  fieldBytes := 0

def releaseDelivered (p : IncrementalParser) (bytes : ℕ) : IncrementalParser :=
  { p with budget := p.budget.release bytes }

def retain (p : IncrementalParser) (bytes : Bytes) : Except RuntimeError IncrementalParser := do
  let budget ← p.budget.reserve bytes.length
  .ok { p with budget, buffer := p.buffer ++ bytes }

def consume (p : IncrementalParser) (count : ℕ) : IncrementalParser :=
  { p with
    buffer := p.buffer.drop count
    budget := p.budget.release count
    scanned := p.scanned - count }

def fill (p : IncrementalParser) (source : Bytes) (want : ℕ) :
    Except RuntimeError (IncrementalParser × Bytes) :=
  let take := min want source.length
  if take = 0 then .ok (p, source)
  else do
    let p ← p.retain (source.take take)
    .ok (p, source.drop take)

def delimiterLineBytes (p : IncrementalParser) : ℕ :=
  delimiterPrefix.length + p.boundary.length + delimiterSuffixBytes

def delimiterSuffix (p : IncrementalParser) (at_ : ℕ) : Except RuntimeError ParserState := do
  match ← delimiterClosesAt p.buffer at_ with
  | true => .ok .epilogue
  | false => .ok .headers

def stepOpening (p : IncrementalParser) (source : Bytes) :
    Except RuntimeError (Step × IncrementalParser × Bytes) := do
  let suffixAt := bodyPrefix.length + p.boundary.length
  let line := suffixAt + delimiterSuffixBytes
  let (p, source) ← p.fill source (line - p.buffer.length)
  if p.buffer.length < line then .ok (.needMore, p, source)
  else if !opensBody p.buffer p.boundary then .error (malformed invalidDelimiterFraming)
  else
    let next ← p.delimiterSuffix suffixAt
    .ok (.continue_, { p.consume line with state := next }, source)

def readFieldMetadata (p : IncrementalParser) (end_ : ℕ) :
    Except RuntimeError (FieldMetadata × IncrementalParser) := do
  let raw := p.buffer.take end_
  if headerLineCount raw > p.limits.maxHeadersPerField then .error (malformed tooManyHeaders)
  else if p.fieldsSeen + 1 > p.limits.maxFields then .error (malformed tooManyFields)
  else
    let budget ← p.budget.reserve end_
    let headers ← parseHeaderBlock raw
    let metadata ← intoMetadata headers
    .ok (metadata, { p with
      fieldsSeen := p.fieldsSeen + 1
      budget := budget.release (end_ - min metadata.bytes end_) })

def awaitHeaderTerminator (p : IncrementalParser) (ceiling : ℕ) :
    Except RuntimeError (Step × IncrementalParser) :=
  if p.buffer.length ≥ ceiling then .error (malformed headerBlockTooLarge)
  else .ok (.needMore, { p with scanned := p.buffer.length })

def stepHeaders (p : IncrementalParser) (source : Bytes) :
    Except RuntimeError (Step × IncrementalParser × Bytes) := do
  let ceiling := p.limits.maxHeaderBytesPerField
  let (p, source) ← p.fill source (ceiling - p.buffer.length)
  match findBytes p.buffer headerTerminator (p.scanned - (headerTerminator.length - 1)) with
  | none =>
    let (step, p) ← p.awaitHeaderTerminator ceiling
    .ok (step, p, source)
  | some end_ =>
    let (metadata, p) ← p.readFieldMetadata end_
    .ok (.event (.field metadata),
      { p.consume (end_ + headerTerminator.length) with
        scanned := 0, fieldBytes := 0, state := .data },
      source)

def fillToDelimiter (p : IncrementalParser) (source : Bytes) (carry : ℕ) :
    Except RuntimeError (Option ℕ × IncrementalParser × Bytes) := do
  let retained := p.buffer.length
  let ceiling := p.limits.maxChunkBytes + carry
  let take := min (ceiling - retained) source.length
  let p ← p.retain (source.take take)
  let delimiter := findDelimiter p.buffer p.boundary (retained - carry)
  let kept := delimiter.elim take fun pos => pos + p.delimiterLineBytes - retained
  .ok (delimiter,
    { p with
      buffer := p.buffer.take (retained + kept)
      budget := p.budget.release (take - kept) },
    source.drop kept)

def closeField (p : IncrementalParser) : Except RuntimeError (Step × IncrementalParser) := do
  let next ← p.delimiterSuffix (delimiterPrefix.length + p.boundary.length)
  .ok (.event .fieldEnd, { p.consume p.delimiterLineBytes with scanned := 0, state := next })

def yieldChunk (p : IncrementalParser) (available : ℕ) :
    Except RuntimeError (Step × IncrementalParser) :=
  let take := min available p.limits.maxChunkBytes
  match (Usize.checkedAdd p.fieldBytes take).filter (· ≤ p.limits.maxFieldBytes) with
  | none => .error (fieldTooLarge p.limits.maxFieldBytes)
  | some total =>
    .ok (.event (.chunk (p.buffer.take take)),
      { p with
        fieldBytes := total
        buffer := p.buffer.drop take
        scanned := p.scanned - take })

def yieldBeforeCarry (p : IncrementalParser) (carry : ℕ) :
    Except RuntimeError (Step × IncrementalParser) :=
  let p := { p with scanned := p.buffer.length }
  match p.buffer.length - carry with
  | 0 => .ok (.needMore, p)
  | available + 1 => p.yieldChunk (available + 1)

/-- The last match of `step_data`. -/
def answerDelimiter (p : IncrementalParser) (carry : ℕ) :
    Option ℕ → Except RuntimeError (Step × IncrementalParser)
  | some 0 => p.closeField
  | some pos => p.yieldChunk pos
  | none => p.yieldBeforeCarry carry

def stepData (p : IncrementalParser) (source : Bytes) :
    Except RuntimeError (Step × IncrementalParser × Bytes) := do
  let carry := delimiterCarryOver p.boundary.length
  let (delimiter, p, source) ←
    match findDelimiter p.buffer p.boundary (p.scanned - carry) with
    | some pos => .ok (some pos, p, source)
    | none => p.fillToDelimiter source carry
  let (step, p) ← p.answerDelimiter carry delimiter
  .ok (step, p, source)

def stepEpilogue (p : IncrementalParser) (source : Bytes) :
    Except RuntimeError (Step × IncrementalParser × Bytes) := do
  let (p, source) ← p.fill source (epilogueProbeBytes - p.buffer.length)
  let _ ← epilogueCloses p.buffer
  .ok (.needMore, p, source)

def step (p : IncrementalParser) (source : Bytes) :
    Except RuntimeError (Step × IncrementalParser × Bytes) :=
  match p.state with
  | .opening => p.stepOpening source
  | .headers => p.stepHeaders source
  | .data => p.stepData source
  | .epilogue => p.stepEpilogue source
  | .complete => .ok (.event .end_, p, source)

/-- The loop of `advance`, for as many steps as `fuel` allows. -/
def advanceWithin : ℕ → IncrementalParser → Bytes →
    Except RuntimeError (Option ParserEvent × IncrementalParser × Bytes)
  | 0, p, source => .ok (none, p, source)
  | fuel + 1, p, source => do
    match ← p.step source with
    | (.event event, p, source) => .ok (some event, p, source)
    | (.continue_, p, source) => advanceWithin fuel p source
    | (.needMore, p, source) => .ok (none, p, source)

def advance (p : IncrementalParser) (source : Bytes) :
    Except RuntimeError (Option ParserEvent × IncrementalParser × Bytes) :=
  advanceWithin 2 p source

def epilogueIsClosed (p : IncrementalParser) : Bool :=
  match epilogueCloses p.buffer with
  | .ok closed => closed
  | .error _ => false

def closeSession (p : IncrementalParser) : ParserEvent × IncrementalParser :=
  (.end_, { p.consume p.buffer.length with state := .complete })

def finish (p : IncrementalParser) : Except RuntimeError (ParserEvent × IncrementalParser) :=
  match p.state with
  | .complete => .ok (.end_, p)
  | .epilogue =>
    if p.epilogueIsClosed then .ok p.closeSession else .error (malformed truncatedBody)
  | _ => .error (malformed truncatedBody)

end IncrementalParser

/-! `nextEvent` is the ingress loop of the session driver and `drive` a whole session. -/

def nextEvent (p : IncrementalParser) (source : Bytes) (frames : List Bytes) :
    Except RuntimeError (ParserEvent × IncrementalParser × Bytes × List Bytes) :=
  match frames with
  | [] => do
    match ← p.advance source with
    | (some event, p, source) => .ok (event, p, source, [])
    | (none, p, source) =>
      let (event, p) ← p.finish
      .ok (event, p, source, [])
  | frame :: frames => do
    match ← p.advance source with
    | (some event, p, source) => .ok (event, p, source, frame :: frames)
    | (none, p, _) => nextEvent p frame frames

inductive Verdict where
  | ended
  | failed (error : RuntimeError)
  | unfinished
deriving DecidableEq

structure Report where
  events : List ParserEvent
  verdict : Verdict

def drive : ℕ → IncrementalParser → Bytes → List Bytes → Report
  | 0, _, _, _ => ⟨[], .unfinished⟩
  | fuel + 1, p, source, frames =>
    match nextEvent p source frames with
    | .error e => ⟨[], .failed e⟩
    | .ok (.end_, _) => ⟨[.end_], .ended⟩
    | .ok (event, p, source, frames) =>
      let rest := drive fuel (p.releaseDelivered event.reservation) source frames
      ⟨event :: rest.events, rest.verdict⟩

def runSession (boundary : Text) (limits : MultipartLimits) (frames : List Bytes) : Report :=
  drive (frames.flatten.length + 1) (IncrementalParser.new boundary limits) [] frames

def fieldData : List ParserEvent → Bytes × Bool
  | .chunk bytes :: events => (bytes ++ (fieldData events).1, (fieldData events).2)
  | .fieldEnd :: _ => ([], true)
  | _ => ([], false)

structure FieldReport where
  metadata : FieldMetadata
  data : Bytes
  ended : Bool

def fieldReports : List ParserEvent → List FieldReport
  | [] => []
  | .field metadata :: events =>
    ⟨metadata, (fieldData events).1, (fieldData events).2⟩ :: fieldReports events
  | _ :: events => fieldReports events

def Report.fields (report : Report) : List FieldReport := fieldReports report.events

def FieldReport.description (field : FieldReport) : Text × Option Text × Option Text :=
  (field.metadata.name, field.metadata.filename, field.metadata.contentType)

inductive Verdict.SameAs : Verdict → Verdict → Prop where
  | ended : Verdict.SameAs .ended .ended
  | failed {e e' : RuntimeError} (h : e.variant = e'.variant) :
      Verdict.SameAs (.failed e) (.failed e')

end Camber.Multipart
