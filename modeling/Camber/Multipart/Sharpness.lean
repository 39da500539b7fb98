import Camber.Multipart.Agreement
import Camber.Multipart.Bounds

/-! A session ends cleanly on exactly the bodies of the grammar that are inside every limit. -/

namespace Camber.Multipart
open Str SliceSearch Transition

variable {boundary : Bytes} {limits : MultipartLimits}

/-- The bytes after a delimiter line start with these sections. -/
inductive Leads (boundary : Bytes) : Bool → List (Section boundary) → Bytes → Prop where
  | nil (closes : Bool) (rest : Bytes) : Leads boundary closes [] rest
  | cons {s : Section boundary} {later : List (Section boundary)} {rest : Bytes}
      (h : Leads boundary s.closes later rest) : Leads boundary false (s :: later) (s.wire ++ rest)

def Begins (boundary : Bytes) (sections : List (Section boundary)) (body : Bytes) : Prop :=
  ∃ closes rest, body = openingLine boundary closes ++ rest ∧ Leads boundary closes sections rest

variable {w body data : Bytes} {closes : Bool} {metadata : FieldMetadata} {i : ℕ}

theorem section_of_fields {seen : ℕ} {first : Option Bytes}
    {later : List (FieldMetadata × Option Bytes)}
    (h : (readAfterDelimiter limits boundary seen closes w).fields = (metadata, first) :: later) :
    first = none ∧ later = [] ∨
      ∃ (s : Section boundary) (rest : Bytes), closes = false ∧ w = s.wire ++ rest ∧
        first = some s.data ∧ fieldMetadata limits seen s.headers = .ok metadata ∧
        (readAfterDelimiter limits boundary (seen + 1) s.closes rest).fields = later := by
  cases closes with
  | true =>
    simp only [readAfterDelimiter, if_true, readEpilogue] at h
    split_ifs at h <;> simp [Reading.complete, Reading.refused] at h
  | false =>
    simp only [readAfterDelimiter, Bool.false_eq_true, if_false, readSections_eq] at h
    cases hh : readHeaders limits seen w with
    | error v => simp [hh, Reading.refused] at h
    | ok r =>
      obtain ⟨opened, body⟩ := r
      simp only [hh, Reading.after, readField] at h
      cases hd : readData limits boundary 0 body with
      | error v =>
        simp only [hd, Reading.refused, List.cons.injEq, Prod.mk.injEq] at h
        exact Or.inl ⟨h.1.2.symm, h.2.symm⟩
      | ok r =>
        obtain ⟨data, closes, rest⟩ := r
        simp only [hd, List.cons.injEq, Prod.mk.injEq] at h
        obtain ⟨⟨rfl, rfl⟩, rfl⟩ := h
        obtain ⟨s, rfl, rfl, rfl, -, -, hm⟩ := section_of_reads hh hd
        exact Or.inr ⟨s, rest, rfl, rfl, rfl, hm, rfl⟩

theorem leads_of_reads {seen : ℕ}
    (h : (readAfterDelimiter limits boundary seen closes w).fields[i]? =
      some (metadata, some data)) :
    ∃ (before : List (Section boundary)) (s : Section boundary), before.length = i ∧
      Leads boundary closes (before ++ [s]) w ∧ s.data = data ∧
      fieldMetadata limits (seen + i) s.headers = .ok metadata := by
  induction i generalizing seen closes w with
  | zero =>
    cases hfields : (readAfterDelimiter limits boundary seen closes w).fields with
    | nil => simp [hfields] at h
    | cons first later =>
      rw [hfields, List.getElem?_cons_zero] at h
      obtain rfl := Option.some.inj h
      rcases section_of_fields hfields with ⟨hnone, -⟩ | ⟨s, rest, rfl, rfl, hdata, hm, -⟩
      · cases hnone
      · exact ⟨[], s, rfl, .cons (.nil _ rest), (Option.some.inj hdata).symm, hm⟩
  | succ i ih =>
    cases hfields : (readAfterDelimiter limits boundary seen closes w).fields with
    | nil => simp [hfields] at h
    | cons first later =>
      rw [hfields, List.getElem?_cons_succ] at h
      rcases section_of_fields hfields with ⟨-, rfl⟩ | ⟨s, rest, rfl, rfl, -, -, rfl⟩
      · simp at h
      · obtain ⟨before, t, rfl, hleads, hdata, hm⟩ := ih h
        refine ⟨s :: before, t, rfl, .cons hleads, hdata, ?_⟩
        rwa [← Nat.add_assoc, Nat.add_right_comm]

theorem begins_of_reads (h : (readBody limits boundary 0 body).fields[i]? = some (metadata, some data)) :
    ∃ (before : List (Section boundary)) (s : Section boundary), before.length = i ∧
      Begins boundary (before ++ [s]) body ∧ s.data = data ∧
      fieldMetadata limits i s.headers = .ok metadata := by
  rcases readBody_cases limits boundary 0 body with ⟨v, hrefused⟩ | ⟨closes, rest, rfl, hreads⟩
  · simp [hrefused, Reading.refused] at h
  · rw [hreads] at h
    obtain ⟨before, s, hlen, hleads, hdata, hm⟩ := leads_of_reads h
    exact ⟨before, s, hlen, ⟨closes, rest, rfl, hleads⟩, hdata, Nat.zero_add i ▸ hm⟩

def Section.Parses (s : Section boundary) : Prop := ∃ part, s.part = .ok part

def Section.DeclaresNested (s : Section boundary) : Prop :=
  ∃ part, s.part = .ok part ∧ part.declaresNested = true

/-- A body of the grammar whose sections parse, keep every limit and declare no nested part. -/
def Accepts (limits : MultipartLimits) (boundary : Text) (body : Bytes) : Prop :=
  ∃ sections, Wire (encode boundary) sections body ∧ (∀ s ∈ sections, s.Parses) ∧
    sections.length ≤ limits.maxFields ∧ (∀ s ∈ sections, s.Inside limits) ∧
    ∀ s ∈ sections, ¬ s.DeclaresNested

theorem ended_iff_inside {boundary : Text}
    (hb : validateBoundaryWithin boundary limits.maxBoundaryBytes = .ok ()) (frames : List Bytes) :
    (runSession boundary limits frames).verdict = .ended ↔
      Accepts limits boundary frames.flatten := by
  rw [runSession_ended_iff hb]
  constructor
  · rintro ⟨sections, fields, hw, hf⟩
    obtain ⟨hcount, hall, parts, hparts, -⟩ := parts_of_sectionFields hf
    refine ⟨sections, hw, exists_parts_iff.mp ⟨parts, hparts⟩, ?_, fun s hs => (hall s hs).1, ?_⟩
    · rcases hcount with rfl | hcount
      · exact Nat.zero_le _
      · omega
    · rintro s hs ⟨part, hpart, hnested⟩
      exact Bool.false_ne_true (((hall s hs).2 part hpart).symm.trans hnested)
  · rintro ⟨sections, hw, hparses, hcount, hin, hnested⟩
    obtain ⟨parts, hparts⟩ := exists_parts_iff.mpr hparses
    refine ⟨sections, _, hw, sectionFields_of_parts (by omega) hin ?_ hparts⟩
    intro s hs part hpart
    exact Bool.eq_false_iff.mpr fun h => hnested s hs ⟨part, hpart, h⟩

/-- The field holds what stands between the header block of the `i`-th section of the body and the
first delimiter line behind it. -/
def Holds (boundary : Text) (body : Bytes) (i : ℕ) (field : FieldReport) : Prop :=
  ∃ (before : List (Section (encode boundary))) (s : Section (encode boundary)),
    before.length = i ∧ Begins (encode boundary) (before ++ [s]) body ∧
    field.data = s.data ∧ s.part = .ok field.toPart

theorem holds_of_ended {boundary : Text}
    (hb : validateBoundaryWithin boundary limits.maxBoundaryBytes = .ok ()) {frames : List Bytes}
    {field : FieldReport} (hfield : (runSession boundary limits frames).fields[i]? = some field)
    (hended : field.ended = true) : Holds boundary frames.flatten i field := by
  have hfields := congrArg Reading.fields (runSession_reads hb frames).2
  have hread : (readBody limits (encode boundary) 0 frames.flatten).fields[i]? =
      some (field.metadata, some field.data) := by
    rw [← hfields]
    simp [Report.observed, hfield, hended]
  obtain ⟨before, s, hlen, hbegins, hdata, hm⟩ := begins_of_reads hread
  obtain ⟨-, -, part, hpart, -, hmeta, hpdata⟩ := (fieldMetadata_eq_ok s).mp hm
  refine ⟨before, s, hlen, hbegins, hdata.symm, ?_⟩
  rw [hpart, FieldReport.toPart, ← hmeta, ← hdata, ← hpdata]
  rfl

/-- A session ends on exactly the bodies of the grammar that are inside every limit and declare no
nested part. A field that ended holds its bytes exactly, and every chunk that is yielded on the way
is non-empty and within its bound. -/
theorem multipart_limits_sharp (limits : MultipartLimits) (boundary : Text)
    (hb : validateBoundaryWithin boundary limits.maxBoundaryBytes = .ok ()) :
    (∀ frames, ((runSession boundary limits frames).verdict = .ended ↔
        Accepts limits boundary frames.flatten) ∧
      ∀ i field, (runSession boundary limits frames).fields[i]? = some field →
        field.ended = true → Holds boundary frames.flatten i field) ∧
    ∀ actions ingress bytes, Runs Ingress.Steps (.new boundary limits) actions ingress →
      ingress.turn = .advancing → ingress.advance.turn = .delivered (.chunk bytes) →
      bytes ≠ [] ∧ bytes.length ≤ limits.maxChunkBytes := by
  refine ⟨fun frames => ⟨ended_iff_inside hb frames, fun i field => holds_of_ended hb⟩, ?_⟩
  intro actions ingress bytes hrun hturn hchunk
  have hlen := (validateBoundaryWithin_ok.mp hb).1.2
  exact Ingress.isChunk_of_delivered (hlen.trans (min_le_left ..)) hrun hturn hchunk

theorem multipart_limits_sharp_one_field :
    Accepts .default "B".toList oneFieldBody ∧
      ∃ field, field.data = encode "x".toList ∧ Holds "B".toList oneFieldBody 0 field := by
  obtain ⟨haccepts, hfields⟩ :=
    (multipart_limits_sharp .default _ valid_sampleBoundary).1 [oneFieldBody]
  have hfirst : ∃ field ∈ (runSession "B".toList .default [oneFieldBody]).fields[0]?,
      field.ended = true ∧ field.data = encode "x".toList := by
    decide +kernel
  obtain ⟨field, hfield, hended, hdata⟩ := hfirst
  simp only [List.flatten_singleton] at haccepts hfields
  exact ⟨haccepts.mp oneFieldBody_ended, field, hdata, hfields 0 field hfield hended⟩

def nestedBody : Bytes := encode
  "--B\r\nContent-Disposition: form-data; name=a\r\nContent-Type: multipart/mixed\r\n\r\nx\r\n--B--".toList

/-- A part that declares a multipart type follows the grammar inside every limit, and is refused. -/
theorem nested_part_refused :
    (∃ s : Section (encode "B".toList), Wire (encode "B".toList) [s] nestedBody ∧ s.Parses ∧
      s.Inside .default) ∧
    (runSession "B".toList .default [nestedBody]).verdict = .failed (malformed nestedMultipart) := by
  refine ⟨⟨⟨(nestedBody.drop 5).take 69, [120], true, ?_, ?_⟩, ?_, ?_, ?_⟩, by decide +kernel⟩
  · refine first_some (Nat.zero_le _) (by decide +kernel) fun j _ => ?_
    revert j
    decide +kernel
  · exact first_some (Nat.zero_le _) (by decide +kernel) (by decide +kernel)
  · exact ⟨false, _, by decide +kernel, .sections (.ending (.inl rfl))⟩
  · exact ⟨⟨"a".toList, none, some "multipart/mixed".toList, [120]⟩, by decide +kernel⟩
  · unfold Section.Inside
    decide +kernel

/-- The buffered parser accepts exactly the bodies of the grammar whose header blocks parse and hold
no delimiter line, and answers one part for each section, in order. -/
theorem buffered_accepts_exactly (contentType : Text) (body : Bytes) (parts : List Part) :
    parse contentType body = .ok parts ↔
      ∃ boundary, extractBoundaryWithin contentType protocolMaxBoundaryBytes = .ok boundary ∧
        ∃ sections, Wire (encode boundary) sections body ∧
          (∀ s ∈ sections, ¬ s.DelimiterInHeaders) ∧
          List.Forall₂ (fun s part => Section.part s = .ok part) sections parts := by
  constructor
  · intro h
    obtain ⟨boundary, hct, -⟩ := Except.bind_ok_iff.mp h
    exact ⟨boundary, hct, (parse_eq_ok hct).mp h⟩
  · rintro ⟨boundary, hct, hwire⟩
    exact (parse_eq_ok hct).mpr hwire

end Camber.Multipart
