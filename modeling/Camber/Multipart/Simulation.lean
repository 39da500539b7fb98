import Camber.Multipart.HeaderCost
import Camber.Multipart.Reading

/-! `expected p w` is what the rest `w` of the body (the retained bytes, the unread frame and
everything still to come) says in the parser's current state. -/

namespace Camber.Multipart
open Str SliceSearch MultipartBufferBudget

namespace IncrementalParser

/-- What the rest `w` of the body says in the parser's state. -/
def expected (p : IncrementalParser) (w : Bytes) : Reading :=
  match p.state with
  | .opening => readBody p.limits p.boundary p.fieldsSeen w
  | .headers => readSections p.limits p.boundary p.fieldsSeen w
  | .data => readField p.limits p.boundary p.fieldsSeen p.fieldBytes w
  | .epilogue => readEpilogue w
  | .complete => .complete

@[simp] theorem expected_releaseDelivered (p : IncrementalParser) (n : ℕ) :
    (p.releaseDelivered n).expected = p.expected := rfl

@[simp] theorem releaseDelivered_buffer (p : IncrementalParser) (n : ℕ) :
    (p.releaseDelivered n).buffer = p.buffer := rfl

/-- What a state promises about the retained bytes and the scan position. -/
def StateInvariant (p : IncrementalParser) : Prop :=
  match p.state with
  | .opening => p.buffer.length ≤ p.boundary.length + 4 ∧ p.scanned = 0
  | .headers =>
    p.buffer.length ≤ p.limits.maxHeaderBytesPerField ∧ p.scanned ≤ p.buffer.length ∧
      ∀ j, Occurs headerTerminator p.buffer j → p.scanned < j + 4
  | .data =>
    (p.buffer.length ≤ p.limits.maxHeaderBytesPerField ∨
      p.buffer.length ≤ p.limits.maxChunkBytes + (p.boundary.length + 5) ∧
        ∀ j, DelimiterAt p.boundary p.buffer j → p.buffer.length = j + (p.boundary.length + 6)) ∧
    p.scanned ≤ p.buffer.length ∧
    (∀ j, DelimiterAt p.boundary p.buffer j → p.scanned < j + (p.boundary.length + 6)) ∧
    FitsField p.limits p.fieldBytes
  | .epilogue => True
  | .complete => False

structure Invariant (p : IncrementalParser) : Prop where
  boundary_le : p.boundary.length ≤ p.limits.maxBoundaryBytes
  account : p.budget.Holds p.limits.maxParserBufferBytes p.buffer.length
  state : p.StateInvariant

def Waiting (p : IncrementalParser) : Prop :=
  match p.state with
  | .opening => p.buffer.length < p.boundary.length + 4
  | .headers => p.buffer.length < p.limits.maxHeaderBytesPerField ∧
      ∀ j, ¬ Occurs headerTerminator p.buffer j
  | .data => p.buffer.length ≤ p.boundary.length + 5
  | .epilogue => p.buffer = [] ∨ p.buffer = [13] ∨ p.buffer = [13, 10]
  | .complete => False

def StepSound (p : IncrementalParser) (source : Bytes) :
    Except RuntimeError (Step × IncrementalParser × Bytes) → Prop
  | .error e =>
    FromGrammar e ∧ ∀ later, p.expected (p.buffer ++ source ++ later) = .refused e.variant
  | .ok (.event event, q, rest) =>
    event ≠ .end_ ∧ (q.releaseDelivered event.reservation).Invariant ∧
      q.buffer.length + rest.length < p.buffer.length + source.length ∧
      ∀ later, p.expected (p.buffer ++ source ++ later) =
        (q.expected (q.buffer ++ rest ++ later)).after event
  | .ok (.continue_, q, rest) =>
    p.state = .opening ∧ q.state ≠ .opening ∧ q.Invariant ∧
      q.buffer.length + rest.length ≤ p.buffer.length + source.length ∧
      ∀ later, p.expected (p.buffer ++ source ++ later) = q.expected (q.buffer ++ rest ++ later)
  | .ok (.needMore, q, rest) =>
    rest = [] ∧ q.Invariant ∧ q.Waiting ∧ q.buffer = p.buffer ++ source ∧
      ∀ later, p.expected (p.buffer ++ source ++ later) = q.expected (q.buffer ++ later)

theorem delimiterLineBytes_eq (p : IncrementalParser) :
    p.delimiterLineBytes = p.boundary.length + 6 := by
  have hpre : delimiterPrefix.length = 4 := rfl
  rw [delimiterLineBytes, hpre, delimiterSuffixBytes]
  omega

variable {p : IncrementalParser}

theorem Invariant.reserve (h : p.Invariant) {n : ℕ} (hfit : p.buffer.length + n ≤ p.limits.peak) :
    ∃ budget, p.budget.reserve n = .ok budget ∧
      budget.Holds p.limits.maxParserBufferBytes (p.buffer.length + n) :=
  h.account.reserve (hfit.trans p.limits.sound.peak_fits)
    (hfit.trans p.limits.sound.peak_le_usize)

theorem Invariant.fill (h : p.Invariant) (source : Bytes) (want : ℕ)
    (hfit : min want source.length = 0 ∨
      p.buffer.length + min want source.length ≤ p.limits.peak) :
    ∃ budget, p.fill source want =
        .ok ({ p with buffer := p.buffer ++ source.take (min want source.length), budget },
          source.drop (min want source.length)) ∧
      budget.Holds p.limits.maxParserBufferBytes
        (p.buffer ++ source.take (min want source.length)).length := by
  have hlen : (source.take (min want source.length)).length = min want source.length := by
    rw [List.length_take]
    omega
  by_cases h0 : min want source.length = 0
  · refine ⟨p.budget, ?_, by simpa [h0] using h.account⟩
    rw [IncrementalParser.fill, if_pos h0, h0, List.take_zero, List.append_nil, List.drop_zero]
  · obtain ⟨budget, hres, hacc⟩ := h.reserve (hfit.resolve_left h0)
    refine ⟨budget, ?_, ?_⟩
    · rw [IncrementalParser.fill, if_neg h0, retain, hlen, hres]
      rfl
    · rwa [List.length_append, hlen]

theorem append_fill (buffer source later : Bytes) (n : ℕ) :
    buffer ++ source ++ later =
      (buffer ++ source.take n) ++ (source.drop n ++ later) := by
  rw [List.append_assoc, List.append_assoc, ← List.append_assoc (source.take n),
    List.take_append_drop]

theorem stepOpening_sound (h : p.Invariant) (hs : p.state = .opening) (source : Bytes) :
    p.StepSound source (p.stepOpening source) := by
  have hst := h.state
  simp only [StateInvariant, hs] at hst
  have hpeak : p.boundary.length + 4 ≤ p.limits.peak := by
    have := h.boundary_le
    exact le_trans (by omega) (le_max_right _ _)
  obtain ⟨budget, hfill, hacc⟩ := h.fill source (p.boundary.length + 4 - p.buffer.length)
    (Or.inr (by omega))
  set taken := min (p.boundary.length + 4 - p.buffer.length) source.length with htaken
  have hline : bodyPrefix.length + p.boundary.length + delimiterSuffixBytes =
      p.boundary.length + 4 := by simp [bodyPrefix, delimiterSuffixBytes]; omega
  have hlen : (p.buffer ++ source.take taken).length = p.buffer.length + taken := by
    rw [List.length_append, List.length_take]
    omega
  simp only [stepOpening, hline, hfill, bind, Except.bind]
  split_ifs with hshort hopen
  · -- the line is not complete, so the whole frame was taken
    have hall : taken = source.length := by omega
    simp only [StepSound, hall, List.drop_length, List.take_length, true_and] at hacc ⊢
    refine ⟨⟨h.boundary_le, hacc, ?_⟩, ?_, fun later => ?_⟩
    · simp only [StateInvariant, hs, List.length_append]
      omega
    · simp only [Waiting, hs, List.length_append]
      omega
    · simp only [expected, hs]
  · refine ⟨by simp [invalidDelimiterFraming, bufferExhausted],
      fun later => ?_⟩
    have hlong : (p.buffer ++ source.take taken).length = p.boundary.length + 4 := by omega
    simp only [expected, hs, append_fill p.buffer source later taken, readBody_line hlong, hopen,
      if_true]
    rfl
  · have hlong : (p.buffer ++ source.take taken).length = p.boundary.length + 4 := by omega
    have h2 : bodyPrefix.length = 2 := rfl
    simp only [delimiterSuffix, h2, bind, Except.bind]
    -- both sides look at the same two bytes after the boundary
    cases hc : delimiterClosesAt (p.buffer ++ source.take taken) (2 + p.boundary.length) with
    | error e =>
      refine ⟨delimiterClosesAt_raises _ _ e hc, fun later => ?_⟩
      simp only [expected, hs, append_fill p.buffer source later taken, readBody_line hlong, hc]
      exact if_neg hopen
    | ok closes =>
      have hread : ∀ later, p.expected (p.buffer ++ source ++ later) =
          readAfterDelimiter p.limits p.boundary p.fieldsSeen closes
            (source.drop taken ++ later) := by
        intro later
        simp only [expected, hs, append_fill p.buffer source later taken, readBody_line hlong, hc]
        exact if_neg hopen
      have hnil : (p.buffer ++ source.take taken).drop (p.boundary.length + 4) = [] :=
        List.drop_eq_nil_of_le hlong.le
      have hline : (budget.release (p.boundary.length + 4)).Holds p.limits.maxParserBufferBytes
          ((p.buffer ++ source.take taken).drop (p.boundary.length + 4)).length :=
        hacc.release (by rw [hnil, hlong, List.length_nil, Nat.zero_add])
      cases closes with
      | true =>
        refine ⟨hs, by simp, ⟨h.boundary_le, hline, trivial⟩, ?_, fun later => ?_⟩
        · simp only [consume, hnil, List.length_drop, List.length_nil]
          omega
        · rw [hread]
          simp [expected, consume, hnil, readAfterDelimiter]
      | false =>
        refine ⟨hs, by simp, ⟨h.boundary_le, hline, ?_⟩, ?_, fun later => ?_⟩
        · simp only [StateInvariant, consume, hnil, hst.2, List.length_nil, Nat.zero_sub]
          exact ⟨Nat.zero_le _, le_rfl, fun j _ => by omega⟩
        · simp only [consume, hnil, List.length_drop, List.length_nil]
          omega
        · rw [hread]
          simp [expected, consume, hnil, readAfterDelimiter]

theorem fieldMetadata_raises (limits : MultipartLimits) (seen : ℕ) (raw : Bytes) :
    (fieldMetadata limits seen raw).Raises FromGrammar := by
  unfold fieldMetadata
  split_ifs
  · simp [tooManyHeaders, bufferExhausted]
  · simp [tooManyFields, bufferExhausted]
  · exact (parseHeaderBlock_raises raw).bind fun headers _ => intoMetadata_raises headers

theorem fieldMetadata_bytes {limits : MultipartLimits} {seen : ℕ} {raw : Bytes}
    {metadata : FieldMetadata} (h : fieldMetadata limits seen raw = .ok metadata) :
    metadata.bytes ≤ raw.length := by
  unfold fieldMetadata at h
  split_ifs at h
  obtain ⟨headers, hparse, hinto⟩ := Except.bind_ok_iff.mp h
  rw [intoMetadata_bytes hinto]
  exact parseHeaderBlock_cost hparse

theorem readFieldMetadata_eq (h : p.Invariant) (end_ : ℕ) (hend : end_ ≤ p.buffer.length)
    (hfit : p.buffer.length + end_ ≤ p.limits.peak) :
    match fieldMetadata p.limits p.fieldsSeen (p.buffer.take end_) with
    | .error e => p.readFieldMetadata end_ = .error e
    | .ok metadata => ∃ budget,
        p.readFieldMetadata end_ =
          .ok (metadata, { p with fieldsSeen := p.fieldsSeen + 1, budget }) ∧
        budget.Holds p.limits.maxParserBufferBytes (p.buffer.length + metadata.bytes) := by
  obtain ⟨budget, hres, hacc⟩ := h.reserve hfit
  have hraw : (p.buffer.take end_).length = end_ := by
    rw [List.length_take]
    omega
  have hbytes : ∀ metadata, fieldMetadata p.limits p.fieldsSeen (p.buffer.take end_) =
      .ok metadata → metadata.bytes ≤ end_ := fun _ hm => hraw ▸ fieldMetadata_bytes hm
  rw [fieldMetadata] at hbytes ⊢
  rw [readFieldMetadata]
  split_ifs at hbytes ⊢ with hlines hfields
  · rfl
  · rfl
  · simp only [hres, bind, Except.bind] at hbytes ⊢
    cases hparse : parseHeaderBlock (p.buffer.take end_) with
    | error e => rfl
    | ok headers =>
      simp only [hparse] at hbytes ⊢
      cases hinto : intoMetadata headers with
      | error e => rfl
      | ok metadata =>
        have hle := hbytes metadata hinto
        exact ⟨budget.release (end_ - min metadata.bytes end_), rfl, hacc.release (by omega)⟩

theorem stepHeaders_sound (h : p.Invariant) (hs : p.state = .headers) (source : Bytes) :
    p.StepSound source (p.stepHeaders source) := by
  have hst := h.state
  simp only [StateInvariant, hs] at hst
  obtain ⟨hbuf, hscan, hterm⟩ := hst
  have hpeak : p.limits.maxHeaderBytesPerField * 2 ≤ p.limits.peak := le_max_left _ _
  obtain ⟨budget, hfill, hacc⟩ := h.fill source
    (p.limits.maxHeaderBytesPerField - p.buffer.length) (Or.inr (by omega))
  set taken := min (p.limits.maxHeaderBytesPerField - p.buffer.length) source.length with htaken
  set block := p.buffer ++ source.take taken with hblock
  have hlen : block.length = p.buffer.length + taken := by
    rw [hblock, List.length_append, List.length_take]
    omega
  have hne : headerTerminator ≠ [] := by simp [headerTerminator]
  -- the search may skip what an earlier search covered
  have hfresh : ∀ j, Occurs headerTerminator block j → p.scanned < j + 4 := by
    intro j hj
    by_cases hin : j + 4 ≤ p.buffer.length
    · exact hterm j ((occurs_append_left hin).mp hj)
    · omega
  have hfirst : First (Occurs headerTerminator block) 0
      (findBytes block headerTerminator (p.scanned - 3)) :=
    (findBytes_first block _ hne _).skip (Nat.zero_le _) fun j _ hj hocc => by
      have := hfresh j hocc
      omega
  have hinv : ({ p with buffer := block, budget } : IncrementalParser).Invariant :=
    ⟨h.boundary_le, hacc, by
      simp only [StateInvariant, hs]
      exact ⟨by omega, by omega, hfresh⟩⟩
  have hread : ∀ later, p.expected (p.buffer ++ source ++ later) =
      readSections p.limits p.boundary p.fieldsSeen (block ++ (source.drop taken ++ later)) := by
    intro later
    simp only [expected, hs, append_fill p.buffer source later taken, hblock]
  have h3 : headerTerminator.length - 1 = 3 := rfl
  simp only [stepHeaders, hfill, h3, bind, Except.bind]
  cases hf : findBytes block headerTerminator (p.scanned - 3) with
  | none =>
    rw [hf] at hfirst
    simp only [awaitHeaderTerminator]
    split_ifs with hfull
    · refine ⟨by simp [headerBlockTooLarge, bufferExhausted],
        fun later => ?_⟩
      rw [hread, readSections_eq, readHeaders_too_large (by omega) fun j => hfirst j (Nat.zero_le j)]
      rfl
    · have hall : taken = source.length := by omega
      have hwhole : block = p.buffer ++ source := by rw [hblock, hall, List.take_length]
      refine ⟨by rw [hall, List.drop_length], ⟨h.boundary_le, hacc, ?_⟩, ?_, hwhole,
        fun later => ?_⟩
      · simp only [StateInvariant, hs]
        exact ⟨by omega, le_rfl, fun j hj => absurd hj (hfirst j (Nat.zero_le j))⟩
      · simp only [Waiting, hs]
        exact ⟨by omega, fun j => hfirst j (Nat.zero_le j)⟩
      · simp only [expected, hs, hwhole]
  | some end_ =>
    rw [hf] at hfirst
    have hle : end_ + 4 ≤ block.length := Occurs.end_le hfirst.holds hne
    have hmeta := readFieldMetadata_eq hinv end_ (by simp only; omega) (by
      simp only
      omega)
    simp only at hmeta
    have hheaders : ∀ later, readHeaders p.limits p.fieldsSeen
        (block ++ (source.drop taken ++ later)) = _ :=
      fun later => readHeaders_found (by omega) hfirst
    cases hm : fieldMetadata p.limits p.fieldsSeen (block.take end_) with
    | error e =>
      rw [hm] at hmeta
      simp only [hmeta]
      refine ⟨fieldMetadata_raises _ _ _ e hm, fun later => ?_⟩
      rw [hread, readSections_eq, hheaders, hm]
    | ok metadata =>
      rw [hm] at hmeta
      obtain ⟨budget', hmeta, hacc'⟩ := hmeta
      simp only [hmeta]
      have h4 : headerTerminator.length = 4 := rfl
      refine ⟨by simp, ⟨h.boundary_le, ?_, ?_⟩, ?_, fun later => ?_⟩
      · -- the block goes, and then what was copied out of it
        have hgone : (budget'.release (end_ + 4)).Holds p.limits.maxParserBufferBytes
            (block.length - (end_ + 4) + metadata.bytes) := hacc'.release (by omega)
        refine hgone.release ?_
        simp only [releaseDelivered, consume, ParserEvent.reservation, List.length_drop, h4]
      · simp only [StateInvariant, releaseDelivered, consume, List.length_drop, h4]
        exact ⟨Or.inl (by omega), Nat.zero_le _, fun j _ => by omega,
          Nat.zero_le _, Nat.zero_le _⟩
      · simp only [consume, List.length_drop, h4]
        omega
      · rw [hread, readSections_eq, hheaders, hm]
        simp only [expected, consume, h4, List.append_assoc]

theorem stepEpilogue_sound (h : p.Invariant) (hs : p.state = .epilogue) (source : Bytes) :
    p.StepSound source (p.stepEpilogue source) := by
  have hpeak : p.limits.maxChunkBytes + (p.limits.maxBoundaryBytes + 5) ≤ p.limits.peak :=
    le_max_right _ _
  obtain ⟨budget, hfill, hacc⟩ := h.fill source (3 - p.buffer.length) (by omega)
  set taken := min (3 - p.buffer.length) source.length with htaken
  set held := p.buffer ++ source.take taken with hheld
  have hlen : held.length = p.buffer.length + taken := by
    rw [hheld, List.length_append, List.length_take]
    omega
  have h3 : epilogueProbeBytes = 3 := rfl
  simp only [stepEpilogue, h3, hfill, bind, Except.bind]
  cases hc : epilogueCloses held with
  | ok closed =>
    have hheldIs : held = [] ∨ held = [13] ∨ held = [13, 10] := by
      rcases epilogueCloses_eq_ok.mp hc with ⟨he, -⟩ | ⟨he, -⟩ | ⟨he, -⟩ <;> simp [he]
    have hshort : held.length ≤ 2 := by rcases hheldIs with he | he | he <;> simp [he]
    have hall : taken = source.length := by omega
    have hwhole : held = p.buffer ++ source := by rw [hheld, hall, List.take_length]
    refine ⟨by rw [hall, List.drop_length], ⟨h.boundary_le, hacc, ?_⟩, ?_, hwhole,
      fun later => ?_⟩
    · simp only [StateInvariant, hs]
    · simp only [Waiting, hs]
      exact hheldIs
    · simp only [expected, hs, hwhole]
  | error e =>
    have hnot : held ≠ [] ∧ held ≠ [13] ∧ held ≠ [13, 10] := by
      refine ⟨?_, ?_, ?_⟩ <;> intro he <;> rw [he] at hc <;> exact absurd hc (by simp [epilogueCloses])
    refine ⟨epilogueCloses_raises _ e hc, fun later => ?_⟩
    simp only [expected, hs, append_fill p.buffer source later taken, ← hheld, readEpilogue]
    rw [if_neg, epilogueCloses_error hc]
    · rfl
    · -- an ending the grammar admits would leave a held prefix that it also admits
      rintro (he | he)
      · exact hnot.1 (List.append_eq_nil_iff.mp he).1
      · have hpre : held <+: [13, 10] := he ▸ List.prefix_append _ _
        rcases List.prefix_cons_iff.mp hpre with he | ⟨t, he, ht⟩
        · exact hnot.1 he
        · rcases List.prefix_cons_iff.mp ht with ht | ⟨t', ht, ht'⟩
          · exact hnot.2.1 (by rw [he, ht])
          · rw [List.prefix_nil] at ht'
            exact hnot.2.2 (by rw [he, ht, ht'])

theorem StepSound.of_moved {q : IncrementalParser} {source rest : Bytes}
    {result : Except RuntimeError (Step × IncrementalParser × Bytes)}
    (hmoved : q.buffer ++ rest = p.buffer ++ source) (hexp : q.expected = p.expected)
    (hstate : q.state = p.state) (h : q.StepSound rest result) : p.StepSound source result := by
  have hlen : q.buffer.length + rest.length = p.buffer.length + source.length := by
    rw [← List.length_append, hmoved, List.length_append]
  match result, h with
  | .error _, h => exact ⟨h.1, fun later => by rw [← hmoved, ← hexp]; exact h.2 later⟩
  | .ok (.event _, _, _), h =>
    exact ⟨h.1, h.2.1, hlen ▸ h.2.2.1, fun later => by rw [← hmoved, ← hexp]; exact h.2.2.2 later⟩
  | .ok (.continue_, _, _), h =>
    exact ⟨hstate ▸ h.1, h.2.1, h.2.2.1, hlen ▸ h.2.2.2.1,
      fun later => by rw [← hmoved, ← hexp]; exact h.2.2.2.2 later⟩
  | .ok (.needMore, _, _), h =>
    exact ⟨h.1, h.2.1, h.2.2.1, h.2.2.2.1.trans hmoved,
      fun later => by rw [← hmoved, ← hexp]; exact h.2.2.2.2 later⟩

def AnswerSound (p : IncrementalParser) (source : Bytes)
    (answer : Except RuntimeError (Step × IncrementalParser)) : Prop :=
  p.StepSound source (answer.map fun r => (r.1, r.2, source))

variable (h : p.Invariant)

include h

theorem yieldChunk_sound (hs : p.state = .data) (source : Bytes) {available : ℕ}
    (hpos : 0 < available) (hlen : available + (p.boundary.length + 5) ≤ p.buffer.length)
    (hno : ∀ j, j < available → ¬ DelimiterAt p.boundary p.buffer j) :
    p.AnswerSound source (p.yieldChunk available) := by
  have hst := h.state
  simp only [StateInvariant, hs] at hst
  obtain ⟨hsize, hscan, hdelim, hfit⟩ := hst
  have hchunk := p.limits.sound.maxChunkBytes_pos
  set take := min available p.limits.maxChunkBytes with htake
  have htakelen : (p.buffer.take take).length = take := by
    rw [List.length_take]
    omega
  have hbody : ∀ later, p.buffer ++ source ++ later =
      p.buffer.take take ++ (p.buffer.drop take ++ source ++ later) := by
    intro later
    rw [← List.append_assoc, ← List.append_assoc, List.take_append_drop]
  have hnot : ∀ later j, j < take → ¬ DelimiterAt p.boundary (p.buffer ++ source ++ later) j := by
    intro later j hj hd
    rw [List.append_assoc] at hd
    exact hno j (by omega) ((delimiterAt_append_left (by omega)).mp hd)
  by_cases hok : FitsField p.limits (p.fieldBytes + take)
  · have hadd : (Usize.checkedAdd p.fieldBytes take).filter (· ≤ p.limits.maxFieldBytes) =
        some (p.fieldBytes + take) := by
      rw [Usize.checkedAdd_eq_some.mpr ⟨hok.2, rfl⟩]
      simp [Option.filter, hok.1]
    simp only [AnswerSound, yieldChunk, ← htake, hadd, Except.map]
    refine ⟨by simp, ⟨h.boundary_le, ?_, ?_⟩, ?_, fun later => ?_⟩
    · refine h.account.release ?_
      simp only [releaseDelivered, ParserEvent.reservation, htakelen, List.length_drop]
      omega
    · simp only [StateInvariant, releaseDelivered, hs, List.length_drop, delimiterAt_drop]
      refine ⟨?_, by omega, fun j hj => ?_, hok⟩
      · refine hsize.imp (fun hle => by omega) fun hwin => ⟨by omega, fun j hj => ?_⟩
        have := hwin.2 (take + j) hj
        omega
      · have := hdelim (take + j) hj
        omega
    · simp only [List.length_drop]
      omega
    · have hpiece : readField p.limits p.boundary p.fieldsSeen p.fieldBytes
          (p.buffer.take take ++ (p.buffer.drop take ++ source ++ later)) = _ :=
        readField_chunk (fun j hj => by rw [← hbody]; exact hnot later j (htakelen ▸ hj))
          (htakelen.symm ▸ hok)
      rw [htakelen] at hpiece
      simpa only [expected, hs, hbody later] using hpiece
  · have hadd : (Usize.checkedAdd p.fieldBytes take).filter (· ≤ p.limits.maxFieldBytes) =
        none := by
      rw [Usize.checkedAdd]
      split_ifs with hu
      · simp only [Option.filter, decide_eq_true_eq]
        rw [if_neg fun hm => hok ⟨hm, hu⟩]
      · rfl
    simp only [AnswerSound, yieldChunk, ← htake, hadd, Except.map]
    refine ⟨by simp [FromGrammar, fieldTooLarge, malformed], fun later => ?_⟩
    simp only [expected, hs]
    rw [readField_too_large take (hnot later) (by
      simp only [List.length_append]
      omega) hok]
    rfl

theorem closeField_sound (hs : p.state = .data) (source : Bytes)
    (hd : DelimiterAt p.boundary p.buffer 0) : p.AnswerSound source p.closeField := by
  have hst := h.state
  simp only [StateInvariant, hs] at hst
  obtain ⟨hsize, hscan, hdelim, hfit⟩ := hst
  have hlen := hd.end_le
  have hcloses := delimiterClosesAt_delimiter hd
  rw [Nat.zero_add] at hcloses
  have hpre : delimiterPrefix.length = 4 := rfl
  have hline := p.delimiterLineBytes_eq
  have hread : ∀ later, p.expected (p.buffer ++ source ++ later) =
      (readAfterDelimiter p.limits p.boundary p.fieldsSeen
        (decide (Occurs (delimiterLine p.boundary true) p.buffer 0))
        (p.buffer.drop (p.boundary.length + 6) ++ source ++ later)).after .fieldEnd := by
    intro later
    simp only [expected, hs]
    rw [List.append_assoc, readField_delimiter (hd.append _) hfit,
      List.drop_append_of_le_length (by omega), List.append_assoc]
    simp only [occurs_append_left
      (show 0 + (delimiterLine p.boundary true).length ≤ p.buffer.length by
        rw [delimiterLine_length]; omega)]
  have hgone : ((p.budget.release p.delimiterLineBytes).release 0).Holds
      p.limits.maxParserBufferBytes (p.buffer.drop p.delimiterLineBytes).length := by
    refine (h.account.release ?_).release rfl
    rw [List.length_drop]
    omega
  simp only [AnswerSound, closeField, delimiterSuffix, hpre, hcloses, bind, Except.bind]
  cases hc : decide (Occurs (delimiterLine p.boundary true) p.buffer 0) with
  | true =>
    simp only [Except.map]
    refine ⟨by simp, ⟨h.boundary_le, hgone, trivial⟩, ?_, fun later => ?_⟩
    · simp only [consume, hline, List.length_drop]
      omega
    · rw [hread, hc]
      simp [expected, consume, hline, readAfterDelimiter]
  | false =>
    simp only [Except.map]
    refine ⟨by simp, ⟨h.boundary_le, hgone, ?_⟩, ?_, fun later => ?_⟩
    · simp only [StateInvariant, releaseDelivered, consume, hline, List.length_drop]
      refine ⟨?_, Nat.zero_le _, fun j _ => by omega⟩
      rcases hsize with hle | ⟨-, hwin⟩
      · omega
      · have := hwin 0 hd
        omega
    · simp only [consume, hline, List.length_drop]
      omega
    · rw [hread, hc]
      simp [expected, consume, hline, readAfterDelimiter]

theorem fillToDelimiter_eq (hs : p.state = .data) (source : Bytes)
    (hno : ∀ j, ¬ DelimiterAt p.boundary p.buffer j) :
    ∃ delimiter buffer budget rest,
      p.fillToDelimiter source (p.boundary.length + 5) =
        .ok (delimiter, { p with buffer, budget }, rest) ∧
      buffer ++ rest = p.buffer ++ source ∧
      ({ p with buffer, budget } : IncrementalParser).Invariant ∧
      First (DelimiterAt p.boundary buffer) 0 delimiter ∧
      (buffer.length ≤ p.boundary.length + 5 → rest = []) := by
  have hst := h.state
  simp only [StateInvariant, hs] at hst
  obtain ⟨hsize, hscan, hdelim, hfit⟩ := hst
  have hchunk := p.limits.sound.maxChunkBytes_pos
  have hb := h.boundary_le
  have hheader : p.limits.maxHeaderBytesPerField * 2 ≤ p.limits.peak := le_max_left _ _
  have hwindow : p.limits.maxChunkBytes + (p.limits.maxBoundaryBytes + 5) ≤ p.limits.peak :=
    le_max_right _ _
  set take := min (p.limits.maxChunkBytes + (p.boundary.length + 5) - p.buffer.length)
    source.length with htake
  have htakelen : (source.take take).length = take := by
    rw [List.length_take]
    omega
  obtain ⟨budget, hres, hacc⟩ := h.reserve (n := take) (by omega)
  have hlen : (p.buffer ++ source.take take).length = p.buffer.length + take := by
    rw [List.length_append, htakelen]
  -- a delimiter that the buffer did not hold ends past what the buffer held
  have hlate : ∀ kept j, DelimiterAt p.boundary (p.buffer ++ source.take kept) j →
      p.buffer.length < j + (p.boundary.length + 6) := by
    intro kept j hj
    by_contra hle
    exact hno j ((delimiterAt_append_left (by omega)).mp hj)
  have hfirst : First (DelimiterAt p.boundary (p.buffer ++ source.take take)) 0
      (findDelimiter (p.buffer ++ source.take take) p.boundary
        (p.buffer.length - (p.boundary.length + 5))) :=
    (findDelimiter_first _ _ _).skip (Nat.zero_le _) fun j _ hj hd => by
      have := hlate take j hd
      omega
  simp only [fillToDelimiter, ← htake, retain, htakelen, hres, bind, Except.bind,
    delimiterLineBytes_eq]
  cases hf : findDelimiter (p.buffer ++ source.take take) p.boundary
      (p.buffer.length - (p.boundary.length + 5)) with
  | none =>
    rw [hf] at hfirst
    have hall : ∀ j, ¬ DelimiterAt p.boundary (p.buffer ++ source.take take) j :=
      fun j => hfirst j (Nat.zero_le j)
    refine ⟨none, p.buffer ++ source.take take, budget.release 0, source.drop take, ?_, ?_,
      ⟨hb, hacc.release hlen.symm, ?_⟩, hfirst, fun hshort => ?_⟩
    · simp only [Option.elim_none, Nat.sub_self, ← hlen, List.take_length]
    · rw [List.append_assoc, List.take_append_drop]
    · simp only [StateInvariant, hs]
      refine ⟨?_, by omega, fun j hj => absurd hj (hall j), hfit⟩
      rcases hsize with hle | ⟨hle, -⟩
      · by_cases hz : take = 0
        · exact Or.inl (by omega)
        · exact Or.inr ⟨by omega, fun j hj => absurd hj (hall j)⟩
      · exact Or.inr ⟨by omega, fun j hj => absurd hj (hall j)⟩
    · rw [show take = source.length by omega, List.drop_length]
  | some pos =>
    rw [hf] at hfirst
    have hend := hfirst.holds.end_le
    have hpast := hlate take pos hfirst.holds
    set kept := pos + (p.boundary.length + 6) - p.buffer.length with hkept
    have hkeptlen : (p.buffer ++ source.take kept).length = pos + (p.boundary.length + 6) := by
      rw [List.length_append, List.length_take]
      omega
    have hcut : (p.buffer ++ source.take take).take (p.buffer.length + kept) =
        p.buffer ++ source.take kept := by
      rw [List.take_length_add_append, List.take_take, min_eq_left (by omega)]
    have hsplit : p.buffer ++ source.take take =
        (p.buffer ++ source.take kept) ++ (source.take take).drop kept := by
      rw [← hcut, ← List.drop_length_add_append, List.take_append_drop]
    have hfirst' : First (DelimiterAt p.boundary (p.buffer ++ source.take kept)) 0 (some pos) := by
      refine first_some (Nat.zero_le pos) ?_ fun j hj hlt hd => ?_
      · have hd := hfirst.holds
        rw [hsplit] at hd
        exact (delimiterAt_append_left (by omega)).mp hd
      · exact hfirst.before hj hlt (hsplit ▸ hd.append _)
    refine ⟨some pos, p.buffer ++ source.take kept, budget.release (take - kept),
      source.drop kept, ?_, ?_, ⟨hb, hacc.release ?_, ?_⟩, hfirst', fun hshort => ?_⟩
    · simp only [Option.elim_some, ← hkept, hcut]
    · rw [List.append_assoc, List.take_append_drop]
    · rw [hkeptlen]
      omega
    · simp only [StateInvariant, hs]
      refine ⟨Or.inr ⟨by omega, fun j hj => ?_⟩, by omega, fun j hj => ?_, hfit⟩
      · have hj' := hj.end_le
        have hge : pos ≤ j := Nat.not_lt.mp fun hlt => hfirst'.before (Nat.zero_le j) hlt hj
        omega
      · have := hlate kept j hj
        omega
    · omega

theorem answerDelimiter_sound (hs : p.state = .data) (source : Bytes) {delimiter : Option ℕ}
    (hfirst : First (DelimiterAt p.boundary p.buffer) 0 delimiter)
    (hspent : p.buffer.length ≤ p.boundary.length + 5 → source = []) :
    p.AnswerSound source (p.answerDelimiter (p.boundary.length + 5) delimiter) := by
  match delimiter, hfirst with
  | some 0, hfirst => exact closeField_sound h hs source hfirst.holds
  | some (pos + 1), hfirst =>
    have hend := hfirst.holds.end_le
    exact yieldChunk_sound h hs source (Nat.succ_pos pos) (by omega) fun j hj =>
      hfirst.before (Nat.zero_le j) hj
  | none, hfirst =>
    have hno : ∀ j, ¬ DelimiterAt p.boundary p.buffer j := fun j => hfirst j (Nat.zero_le j)
    have hst := h.state
    simp only [StateInvariant, hs] at hst
    have hinv : ({ p with scanned := p.buffer.length } : IncrementalParser).Invariant :=
      ⟨h.boundary_le, h.account, by
        simp only [StateInvariant, hs]
        exact ⟨hst.1, le_rfl, fun j hj => absurd hj (hno j), hst.2.2.2⟩⟩
    simp only [answerDelimiter, yieldBeforeCarry]
    cases hav : p.buffer.length - (p.boundary.length + 5) with
    | zero =>
      obtain rfl := hspent (by omega)
      refine ⟨rfl, hinv, ?_, (List.append_nil _).symm, fun later => ?_⟩
      · simp only [Waiting, hs]
        omega
      · simp only [expected, hs, List.append_nil]
    | succ available =>
      refine StepSound.of_moved (q := { p with scanned := p.buffer.length }) rfl rfl rfl ?_
      exact yieldChunk_sound hinv hs source (Nat.succ_pos _)
        (by show available + 1 + (p.boundary.length + 5) ≤ p.buffer.length; omega)
        fun j _ => hno j

theorem findDelimiter_buffered (hs : p.state = .data) :
    First (DelimiterAt p.boundary p.buffer) 0
      (findDelimiter p.buffer p.boundary (p.scanned - (p.boundary.length + 5))) := by
  have hst := h.state
  simp only [StateInvariant, hs] at hst
  obtain ⟨-, -, hdelim, -⟩ := hst
  refine (findDelimiter_first _ _ _).skip (Nat.zero_le _) fun j _ hj hd => ?_
  have := hdelim j hd
  omega

theorem stepData_sound (hs : p.state = .data) (source : Bytes) :
    p.StepSound source (p.stepData source) := by
  have hfirst := findDelimiter_buffered h hs
  simp only [stepData, delimiterCarryOver_eq]
  cases hf : findDelimiter p.buffer p.boundary (p.scanned - (p.boundary.length + 5)) with
  | some pos =>
    rw [hf] at hfirst
    have hend := hfirst.holds.end_le
    have hans := answerDelimiter_sound h hs source hfirst (by omega)
    simp only [bind, Except.bind]
    cases ha : p.answerDelimiter (p.boundary.length + 5) (some pos) <;>
      simpa only [AnswerSound, ha, Except.map] using hans
  | none =>
    rw [hf] at hfirst
    obtain ⟨delimiter, buffer, budget, rest, hfill, hmoved, hinv, hfirst', hspent⟩ :=
      fillToDelimiter_eq h hs source fun j => hfirst j (Nat.zero_le j)
    have hans := answerDelimiter_sound hinv hs rest hfirst' hspent
    simp only [hfill, bind, Except.bind]
    refine StepSound.of_moved (q := { p with buffer, budget }) hmoved rfl rfl ?_
    cases ha : ({ p with buffer, budget } : IncrementalParser).answerDelimiter
        (p.boundary.length + 5) delimiter <;>
      simpa only [AnswerSound, ha, Except.map] using hans

theorem step_sound (source : Bytes) : p.StepSound source (p.step source) := by
  rw [step]
  cases hs : p.state with
  | opening => exact stepOpening_sound h hs source
  | headers => exact stepHeaders_sound h hs source
  | data => exact stepData_sound h hs source
  | epilogue => exact stepEpilogue_sound h hs source
  | complete =>
    have hst := h.state
    simp only [StateInvariant, hs] at hst

end IncrementalParser

end Camber.Multipart
