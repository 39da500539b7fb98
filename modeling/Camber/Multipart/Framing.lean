import Camber.Multipart.Simulation

/-! A driven session observes exactly what its body says when it is read whole. -/

namespace Camber.Multipart
open Str SliceSearch

namespace IncrementalParser

def AdvanceSound (p : IncrementalParser) (source : Bytes) :
    Except RuntimeError (Option ParserEvent × IncrementalParser × Bytes) → Prop
  | .error e =>
    FromGrammar e ∧ ∀ later, p.expected (p.buffer ++ source ++ later) = .refused e.variant
  | .ok (some event, q, rest) =>
    event ≠ .end_ ∧ (q.releaseDelivered event.reservation).Invariant ∧
      q.buffer.length + rest.length < p.buffer.length + source.length ∧
      ∀ later, p.expected (p.buffer ++ source ++ later) =
        (q.expected (q.buffer ++ rest ++ later)).after event
  | .ok (none, q, rest) =>
    rest = [] ∧ q.Invariant ∧ q.Waiting ∧
      q.buffer.length ≤ p.buffer.length + source.length ∧
      ∀ later, p.expected (p.buffer ++ source ++ later) = q.expected (q.buffer ++ later)

variable {p : IncrementalParser}

theorem advanceWithin_sound (h : p.Invariant) (source : Bytes) {fuel : ℕ}
    (hnext : p.state = .opening → ∀ (q : IncrementalParser) (rest : Bytes), q.Invariant →
      q.state ≠ .opening → q.AdvanceSound rest (advanceWithin fuel q rest)) :
    p.AdvanceSound source (advanceWithin (fuel + 1) p source) := by
  have hstep := step_sound h source
  rw [advanceWithin]
  match hr : p.step source with
  | .error e =>
    rw [hr] at hstep
    exact hstep
  | .ok (.event event, q, rest) =>
    rw [hr] at hstep
    exact hstep
  | .ok (.needMore, q, rest) =>
    rw [hr] at hstep
    obtain ⟨hrest, hinv, hwait, hbuf, hexp⟩ := hstep
    exact ⟨hrest, hinv, hwait, by rw [hbuf, List.length_append], hexp⟩
  | .ok (.continue_, q, rest) =>
    rw [hr] at hstep
    obtain ⟨hp, hq, hinv, hlen, hexp⟩ := hstep
    have hrest := hnext hp q rest hinv hq
    simp only [bind, Except.bind]
    match ha : advanceWithin fuel q rest with
    | .error e =>
      rw [ha] at hrest
      exact ⟨hrest.1, fun later => (hexp later).trans (hrest.2 later)⟩
    | .ok (some event, q', rest') =>
      rw [ha] at hrest
      exact ⟨hrest.1, hrest.2.1, lt_of_lt_of_le hrest.2.2.1 hlen,
        fun later => (hexp later).trans (hrest.2.2.2 later)⟩
    | .ok (none, q', rest') =>
      rw [ha] at hrest
      exact ⟨hrest.1, hrest.2.1, hrest.2.2.1, hrest.2.2.2.1.trans hlen,
        fun later => (hexp later).trans (hrest.2.2.2.2 later)⟩

theorem advance_sound (h : p.Invariant) (source : Bytes) :
    p.AdvanceSound source (p.advance source) :=
  advanceWithin_sound h source fun _ _ rest hq hne =>
    advanceWithin_sound hq rest fun ho => absurd ho hne

theorem finish_sound (hinv : p.Invariant) (h : p.Waiting) :
    match p.finish with
    | .error e => p.expected p.buffer = .refused e.variant
    | .ok (event, _) => event = .end_ ∧ p.expected p.buffer = .complete := by
  rw [finish]
  cases hs : p.state with
  | opening =>
    simp only [Waiting, hs] at h
    simp only [expected, hs, readBody, if_pos h]
    rfl
  | headers =>
    simp only [Waiting, hs] at h
    have hmissing : findBytes (p.buffer.take p.limits.maxHeaderBytesPerField)
        headerTerminator 0 = none := by
      rw [List.take_of_length_le h.1.le]
      exact (findBytes_first _ _ (by simp [headerTerminator]) 0).unique fun j _ => h.2 j
    simp only [expected, hs]
    rw [readSections_eq, readHeaders, hmissing]
    rfl
  | data =>
    simp only [Waiting, hs] at h
    have hst := hinv.state
    simp only [StateInvariant, hs] at hst
    have hmissing : findDelimiter p.buffer p.boundary 0 = none :=
      findDelimiter_eq fun j _ hd => by
        have := hd.end_le
        omega
    simp only [expected, hs, readField, readData, hmissing, Nat.sub_eq_zero_of_le h, Nat.add_zero,
      if_pos hst.2.2.2]
    rfl
  | epilogue =>
    simp only [Waiting, hs] at h
    simp only [expected, hs, readEpilogue, epilogueIsClosed]
    rcases h with he | he | he <;> simp [he, epilogueCloses, closeSession]
    rfl
  | complete => simp only [Waiting, hs] at h

end IncrementalParser

open IncrementalParser

theorem nextEvent_sound {p : IncrementalParser} (h : p.Invariant) (source : Bytes)
    (frames : List Bytes) :
    match nextEvent p source frames with
    | .error e => p.expected (p.buffer ++ source ++ frames.flatten) = .refused e.variant
    | .ok (event, q, rest, frames') =>
      event = .end_ ∧ p.expected (p.buffer ++ source ++ frames.flatten) = .complete ∨
      event ≠ .end_ ∧ (q.releaseDelivered event.reservation).Invariant ∧
        (q.buffer ++ rest ++ frames'.flatten).length <
          (p.buffer ++ source ++ frames.flatten).length ∧
        p.expected (p.buffer ++ source ++ frames.flatten) =
          (q.expected (q.buffer ++ rest ++ frames'.flatten)).after event := by
  induction frames generalizing p source with
  | nil =>
    have hadv := advance_sound h source
    rw [nextEvent]
    match ha : p.advance source with
    | .error e =>
      rw [ha] at hadv
      exact hadv.2 _
    | .ok (some event, q, rest) =>
      rw [ha] at hadv
      obtain ⟨hne, hinv, hlen, hexp⟩ := hadv
      refine Or.inr ⟨hne, hinv, ?_, hexp _⟩
      simpa only [List.length_append, List.flatten_nil, List.length_nil, Nat.add_zero] using hlen
    | .ok (none, q, rest) =>
      rw [ha] at hadv
      obtain ⟨-, hinv, hwait, -, hexp⟩ := hadv
      have hfin := finish_sound hinv hwait
      simp only [bind, Except.bind]
      match hf : q.finish with
      | .error e =>
        rw [hf] at hfin
        exact (hexp []).trans (by rw [List.append_nil]; exact hfin)
      | .ok (event, q') =>
        rw [hf] at hfin
        exact Or.inl ⟨hfin.1, (hexp []).trans (by rw [List.append_nil]; exact hfin.2)⟩
  | cons frame frames ih =>
    have hadv := advance_sound h source
    rw [nextEvent]
    match ha : p.advance source with
    | .error e =>
      rw [ha] at hadv
      exact hadv.2 _
    | .ok (some event, q, rest) =>
      rw [ha] at hadv
      obtain ⟨hne, hinv, hlen, hexp⟩ := hadv
      refine Or.inr ⟨hne, hinv, ?_, hexp _⟩
      simp only [List.length_append]
      omega
    | .ok (none, q, rest) =>
      rw [ha] at hadv
      obtain ⟨-, hinv, -, hlen, hexp⟩ := hadv
      have hnext := ih hinv frame
      have hsame : p.expected (p.buffer ++ source ++ (frame :: frames).flatten) =
          q.expected (q.buffer ++ frame ++ frames.flatten) := by
        rw [List.flatten_cons, hexp, List.append_assoc]
      simp only [bind, Except.bind, hsame]
      match hn : nextEvent q frame frames with
      | .error e =>
        rw [hn] at hnext
        exact hnext
      | .ok (event, q', rest', frames') =>
        rw [hn] at hnext
        refine hnext.imp id fun ⟨hne, hinv', hlen', hexp'⟩ => ⟨hne, hinv', ?_, hexp'⟩
        simp only [List.length_append, List.flatten_cons] at hlen' ⊢
        omega

def Report.observed (report : Report) : Reading where
  current := if (fieldData report.events).2 then some (fieldData report.events).1 else none
  fields := report.fields.map fun field =>
    (field.metadata, if field.ended then some field.data else none)
  refusal := match report.verdict with
    | .failed e => some e.variant
    | _ => none

theorem Report.observed_cons {event : ParserEvent} (hne : event ≠ .end_)
    (events : List ParserEvent) (verdict : Verdict) :
    (Report.mk (event :: events) verdict).observed =
      (Report.mk events verdict).observed.after event := by
  cases event with
  | field metadata => rfl
  | chunk bytes =>
    simp only [observed, Reading.after, Report.fields, fieldReports, fieldData]
    by_cases hended : (fieldData events).2 = true <;> simp [hended]
  | fieldEnd => rfl
  | end_ => exact absurd rfl hne

theorem drive_sound (fuel : ℕ) {p : IncrementalParser} (h : p.Invariant) (source : Bytes)
    (frames : List Bytes) (hfuel : (p.buffer ++ source ++ frames.flatten).length < fuel) :
    (drive fuel p source frames).verdict ≠ .unfinished ∧
      (drive fuel p source frames).observed =
        p.expected (p.buffer ++ source ++ frames.flatten) := by
  induction fuel generalizing p source frames with
  | zero => exact absurd hfuel (Nat.not_lt_zero _)
  | succ fuel ih =>
    have hnext := nextEvent_sound h source frames
    rw [drive]
    match hn : nextEvent p source frames with
    | .error e =>
      rw [hn] at hnext
      exact ⟨by simp, hnext.symm⟩
    | .ok (event, q, rest, frames') =>
      rw [hn] at hnext
      rcases hnext with ⟨rfl, hexp⟩ | ⟨hne, hinv, hlen, hexp⟩
      · exact ⟨by simp, hexp.symm⟩
      · obtain ⟨hfin, hobs⟩ := ih hinv rest frames' (by
          simp only [releaseDelivered_buffer]
          omega)
        have hcons := Report.observed_cons hne
          (drive fuel (q.releaseDelivered event.reservation) rest frames').events
          (drive fuel (q.releaseDelivered event.reservation) rest frames').verdict
        cases event with
        | end_ => exact absurd rfl hne
        | _ => exact ⟨hfin, hcons.trans (by rw [hexp]; exact congrArg _ hobs)⟩

theorem invariant_new {boundary : Text} {limits : MultipartLimits}
    (h : byteLength boundary ≤ limits.maxBoundaryBytes) :
    (IncrementalParser.new boundary limits).Invariant := by
  refine ⟨h, MultipartBufferBudget.holds_new _, ?_⟩
  simp only [StateInvariant, IncrementalParser.new]
  exact ⟨Nat.zero_le _, trivial⟩

theorem runSession_reads {boundary : Text} {limits : MultipartLimits}
    (h : validateBoundaryWithin boundary limits.maxBoundaryBytes = .ok ()) (frames : List Bytes) :
    (runSession boundary limits frames).verdict ≠ .unfinished ∧
      (runSession boundary limits frames).observed =
        readBody limits (encode boundary) 0 frames.flatten :=
  have hlen := (validateBoundaryWithin_ok.mp h).1.2.trans (min_le_left _ _)
  drive_sound _ (invariant_new hlen) [] frames (Nat.lt_succ_self _)

theorem Report.sameAs_of_observed {r s : Report} (hr : r.verdict ≠ .unfinished)
    (hs : s.verdict ≠ .unfinished) (h : r.observed = s.observed) : r.verdict.SameAs s.verdict := by
  have href := congrArg Reading.refusal h
  simp only [observed] at href
  match hrv : r.verdict, hsv : s.verdict with
  | .ended, .ended => exact .ended
  | .failed e, .failed e' =>
    rw [hrv, hsv] at href
    exact .failed (Option.some.inj href)
  | .ended, .failed e' => simp [hrv, hsv] at href
  | .failed e, .ended => simp [hrv, hsv] at href
  | .unfinished, _ => exact absurd hrv hr
  | _, .unfinished => exact absurd hsv hs

/-- The frames a body arrives in do not change how its session ends, which fields it reports, or the
data of a field that ended. -/
theorem runSession_framing_invariant (limits : MultipartLimits) (boundary : Text)
    (hb : validateBoundaryWithin boundary limits.maxBoundaryBytes = .ok ())
    (body : Bytes) (frames₁ frames₂ : List Bytes)
    (h₁ : frames₁.flatten = body) (h₂ : frames₂.flatten = body) :
    (runSession boundary limits frames₁).verdict.SameAs
        (runSession boundary limits frames₂).verdict ∧
      (runSession boundary limits frames₁).fields.map FieldReport.description =
        (runSession boundary limits frames₂).fields.map FieldReport.description ∧
      ∀ (i : ℕ) (field₁ field₂ : FieldReport),
        (runSession boundary limits frames₁).fields[i]? = some field₁ →
        (runSession boundary limits frames₂).fields[i]? = some field₂ →
        field₁.ended = true → field₂.ended = true → field₁.data = field₂.data := by
  obtain ⟨hv₁, ho₁⟩ := runSession_reads hb frames₁
  obtain ⟨hv₂, ho₂⟩ := runSession_reads hb frames₂
  have hobs : (runSession boundary limits frames₁).observed =
      (runSession boundary limits frames₂).observed := by rw [ho₁, ho₂, h₁, h₂]
  have hfields := congrArg Reading.fields hobs
  simp only [Report.observed] at hfields
  refine ⟨Report.sameAs_of_observed hv₁ hv₂ hobs, ?_, fun i field₁ field₂ hi₁ hi₂ he₁ he₂ => ?_⟩
  · have hmeta := congrArg (List.map fun f => (f.1.name, f.1.filename, f.1.contentType)) hfields
    rw [List.map_map, List.map_map] at hmeta
    exact hmeta
  · have hi := congrArg (·[i]?) hfields
    simp only [List.getElem?_map, hi₁, hi₂, Option.map_some, he₁, he₂, if_true] at hi
    simpa using (Prod.mk.inj (Option.some.inj hi)).2

def oneFieldBody : Bytes :=
  encode "--B\r\nContent-Disposition: form-data; name=a\r\n\r\nx\r\n--B--".toList

theorem valid_sampleBoundary :
    validateBoundaryWithin "B".toList MultipartLimits.default.maxBoundaryBytes = .ok () :=
  validateBoundaryWithin_ok.mpr (by decide)

theorem oneFieldBody_ended : (runSession "B".toList .default [oneFieldBody]).verdict = .ended := by
  decide +kernel

theorem runSession_framing_invariant_one_field :
    validateBoundaryWithin "B".toList MultipartLimits.default.maxBoundaryBytes = .ok () ∧
    (runSession "B".toList .default [oneFieldBody.take 50, oneFieldBody.drop 50]).verdict.SameAs
      (runSession "B".toList .default [oneFieldBody]).verdict :=
  ⟨valid_sampleBoundary, (runSession_framing_invariant .default _ valid_sampleBoundary oneFieldBody
    [oneFieldBody.take 50, oneFieldBody.drop 50] [oneFieldBody] (by simp) (by simp)).1⟩

end Camber.Multipart
