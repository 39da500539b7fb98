import Camber.Multipart.Accounting

/-! The subtractions and slices of the data phase, which the source leaves unchecked, never leave
their range, and a yielded chunk is neither empty nor above its bound. -/

namespace Camber.Multipart
open Str SliceSearch Transition

namespace IncrementalParser

variable {p q : IncrementalParser} {source rest bytes : Bytes}

/-- What a data step relies on: the buffer covers the delimiter line it drains or the chunk before
it, and in `fill_to_delimiter` the window is a `usize` and neither difference is negative. -/
def InBounds (p : IncrementalParser) (source : Bytes) : Prop :=
  let carry := delimiterCarryOver p.boundary.length
  let take := min (p.limits.maxChunkBytes + carry - p.buffer.length) source.length
  match findDelimiter p.buffer p.boundary (p.scanned - carry) with
  | some pos => pos + p.delimiterLineBytes ≤ p.buffer.length
  | none => p.limits.maxChunkBytes + carry ≤ Usize.max ∧
    ∀ pos, findDelimiter (p.buffer ++ source.take take) p.boundary (p.buffer.length - carry) =
        some pos →
      p.buffer.length ≤ pos + p.delimiterLineBytes ∧
        pos + p.delimiterLineBytes - p.buffer.length ≤ take

theorem inBounds (h : p.Invariant) (hs : p.state = .data) (source : Bytes) :
    p.InBounds source := by
  have hfirst := findDelimiter_buffered h hs
  have hb := h.boundary_le
  have hpeak := p.limits.sound.peak_le_usize
  have hwindow : p.limits.maxChunkBytes + (p.limits.maxBoundaryBytes + 5) ≤ p.limits.peak :=
    le_max_right _ _
  simp only [InBounds, delimiterCarryOver_eq, delimiterLineBytes_eq]
  cases hf : findDelimiter p.buffer p.boundary (p.scanned - (p.boundary.length + 5)) with
  | some pos =>
    rw [hf] at hfirst
    have hend := hfirst.holds.end_le
    show pos + (p.boundary.length + 6) ≤ p.buffer.length
    omega
  | none =>
    rw [hf] at hfirst
    refine ⟨by omega, fun pos hpos => ?_⟩
    have hfound := hpos ▸ findDelimiter_first (p.buffer ++ source.take (min
      (p.limits.maxChunkBytes + (p.boundary.length + 5) - p.buffer.length) source.length))
      p.boundary (p.buffer.length - (p.boundary.length + 5))
    have hend := hfound.holds.end_le
    rw [List.length_append, List.length_take] at hend
    -- a delimiter that the buffer did not hold ends past what the buffer held
    have hlate : p.buffer.length < pos + (p.boundary.length + 6) := by
      by_contra hle
      exact hfirst pos (Nat.zero_le pos) ((delimiterAt_append_left (by omega)).mp hfound.holds)
    omega

def IsChunk (limits : MultipartLimits) (bytes : Bytes) : Prop :=
  bytes ≠ [] ∧ bytes.length ≤ limits.maxChunkBytes

theorem yieldChunk_isChunk {available : ℕ} (hpos : 0 < available)
    (hlen : available ≤ p.buffer.length)
    (h : p.yieldChunk available = .ok (.event (.chunk bytes), q)) : IsChunk p.limits bytes := by
  have hchunk := p.limits.sound.maxChunkBytes_pos
  unfold yieldChunk at h
  dsimp only at h
  split at h
  · cases h
  · obtain ⟨hbytes, -⟩ := Prod.mk.inj (Except.ok.inj h)
    obtain rfl := ParserEvent.chunk.inj (Step.event.inj hbytes)
    constructor
    · apply List.ne_nil_of_length_pos
      rw [List.length_take]
      omega
    · rw [List.length_take]
      omega

theorem answerDelimiter_isChunk {carry : ℕ} {delimiter : Option ℕ}
    (hfirst : First (DelimiterAt p.boundary p.buffer) 0 delimiter)
    (h : p.answerDelimiter carry delimiter = .ok (.event (.chunk bytes), q)) :
    IsChunk p.limits bytes := by
  unfold answerDelimiter at h
  split at h
  · obtain ⟨next, -, hok⟩ := Except.bind_ok_iff.mp h
    cases Prod.mk.inj (Except.ok.inj hok) with
    | intro hstep _ => cases hstep
  · next pos hne =>
    have hend := hfirst.holds.end_le
    exact yieldChunk_isChunk (Nat.pos_of_ne_zero fun hz => hne (by rw [hz])) (by omega) h
  · unfold yieldBeforeCarry at h
    dsimp only at h
    split at h
    · cases Prod.mk.inj (Except.ok.inj h) with
      | intro hstep _ => cases hstep
    · next available hav =>
      have hlen : available + 1 ≤ p.buffer.length := by omega
      exact yieldChunk_isChunk (p := { p with scanned := p.buffer.length }) (Nat.succ_pos _) hlen h

theorem step_isChunk (h : p.Invariant)
    (hstep : p.step source = .ok (.event (.chunk bytes), q, rest)) : IsChunk p.limits bytes := by
  have horder := (step_moves hstep).2
  have hs : p.state = .data := by
    generalize p.state = before at horder ⊢
    generalize q.state = after at horder
    cases horder
    rfl
  have hfirst := findDelimiter_buffered h hs
  have hanswered : ∀ {delimiter : Option ℕ} {filled : IncrementalParser} {left : Bytes},
      filled.limits = p.limits → First (DelimiterAt filled.boundary filled.buffer) 0 delimiter →
      (filled.answerDelimiter (p.boundary.length + 5) delimiter >>= fun answer =>
        Except.ok (answer.1, answer.2, left)) = .ok (.event (.chunk bytes), q, rest) →
      IsChunk p.limits bytes := by
    intro delimiter filled left hlimits hfirst hrest
    obtain ⟨⟨answer, answered⟩, hanswer, hok⟩ := Except.bind_ok_iff.mp hrest
    obtain ⟨rfl, -, -⟩ := by simpa only [Except.ok.injEq, Prod.mk.injEq] using hok
    exact hlimits ▸ answerDelimiter_isChunk hfirst hanswer
  simp only [step, hs, stepData, delimiterCarryOver_eq] at hstep
  cases hf : findDelimiter p.buffer p.boundary (p.scanned - (p.boundary.length + 5)) with
  | some pos =>
    rw [hf] at hfirst hstep
    exact hanswered rfl hfirst hstep
  | none =>
    rw [hf] at hfirst hstep
    obtain ⟨delimiter, buffer, budget, left, hfill, -, -, hfirst', -⟩ :=
      fillToDelimiter_eq h hs source fun j => hfirst j (Nat.zero_le j)
    simp only [hfill] at hstep
    have hlimits : ({ p with buffer, budget } : IncrementalParser).limits = p.limits := rfl
    exact hanswered hlimits hfirst' hstep

end IncrementalParser

namespace Ingress

theorem isChunk_of_delivered {limits : MultipartLimits} {boundary : Text}
    (hboundary : byteLength boundary ≤ limits.maxBoundaryBytes) {actions : List Action}
    {ingress : Ingress} (hrun : Runs Steps (new boundary limits) actions ingress) {bytes : Bytes}
    (hturn : ingress.turn = .advancing)
    (hchunk : ingress.advance.turn = .delivered (.chunk bytes)) :
    IncrementalParser.IsChunk limits bytes := by
  obtain ⟨hsound, hlimits⟩ := sound_of_runs hboundary hrun
  rw [hturn] at hsound
  cases hsound with
  | closed hclosed =>
    rw [advance, IncrementalParser.step, hclosed.state] at hchunk
    cases hchunk
  | advancing hinv =>
    unfold advance at hchunk
    split at hchunk
    next event parser rest hstep =>
      obtain rfl := Turn.delivered.inj hchunk
      exact hlimits ▸ IncrementalParser.step_isChunk hinv hstep
    all_goals cases hchunk

/-- In every run of a session's ingress, over every framing of every body, the next step of the
parser stays in bounds, and a chunk it yields is neither empty nor above `max_chunk_bytes`. -/
theorem ingress_in_bounds (limits : MultipartLimits) (boundary : Text)
    (hboundary : byteLength boundary ≤ limits.maxBoundaryBytes) (actions : List Action)
    (ingress : Ingress) (hrun : Runs Steps (new boundary limits) actions ingress)
    (hturn : ingress.turn = .advancing) :
    (ingress.parser.state = .data → ingress.parser.InBounds ingress.source) ∧
      ∀ bytes, ingress.advance.turn = .delivered (.chunk bytes) →
        bytes ≠ [] ∧ bytes.length ≤ limits.maxChunkBytes := by
  refine ⟨fun hdata => ?_, fun bytes => isChunk_of_delivered hboundary hrun hturn⟩
  have hsound := (sound_of_runs hboundary hrun).1
  rw [hturn] at hsound
  cases hsound with
  | closed hclosed =>
    rw [hclosed.state] at hdata
    cases hdata
  | advancing hinv => exact IncrementalParser.inBounds hinv hdata _

theorem ingress_in_bounds_one_field :
    ∃ ingress, Runs Steps (new "B".toList .default) (oneFieldRun.take 5) ingress ∧
      ingress.parser.state = .data ∧ ingress.parser.InBounds ingress.source := by
  have hb : byteLength "B".toList ≤ MultipartLimits.default.maxBoundaryBytes := by decide
  have hready : ReadyAll Ready act (new "B".toList .default) (oneFieldRun.take 5) := by
    decide +kernel
  obtain ⟨ingress, hrun, hturn, hdata⟩ :
      ∃ ingress, Runs Steps (new "B".toList .default) (oneFieldRun.take 5) ingress ∧
        ingress.turn = .advancing ∧ ingress.parser.state = .data :=
    ⟨_, runs_replay hready, by decide +kernel, by decide +kernel⟩
  exact ⟨ingress, hrun, hdata, (ingress_in_bounds .default _ hb _ ingress hrun hturn).1 hdata⟩

end Ingress

end Camber.Multipart
