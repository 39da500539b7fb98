import Camber.Multipart.Buffered

/-! The incremental parser looks for the end of the headers first and for a delimiter after it; the
buffered parser cuts at the first delimiter of all. -/

namespace Camber.Multipart
open Str SliceSearch

variable {boundary : Bytes} {limits : MultipartLimits}

def Part.metadata (part : Part) : FieldMetadata :=
  ⟨part.name, part.filename, part.contentType,
    FieldMetadata.measure part.name part.filename part.contentType⟩

def Part.declaresNested (part : Part) : Bool := part.contentType.any declaresNestedMultipart

def FieldReport.toPart (field : FieldReport) : Part :=
  ⟨field.metadata.name, field.metadata.filename, field.metadata.contentType, field.data⟩

/-- The limits one section has to keep; a header block counts its terminator. -/
def Section.Inside (limits : MultipartLimits) (s : Section boundary) : Prop :=
  headerLineCount s.headers ≤ limits.maxHeadersPerField ∧
    s.headers.length + 4 ≤ limits.maxHeaderBytesPerField ∧ FitsField limits s.data.length

def InsideLimits (limits : MultipartLimits) (boundary body : Bytes) : Prop :=
  ∀ sections, Wire boundary sections body →
    sections.length ≤ limits.maxFields ∧ ∀ s ∈ sections, s.Inside limits

def DeclaresNoNested (boundary body : Bytes) : Prop :=
  ∀ sections, Wire boundary sections body →
    ∀ s ∈ sections, ∀ part, s.part = .ok part → part.declaresNested = false

/-- Both parsers give the same verdict on every framing, and the same parts. -/
def ParsersAgree (contentType boundary : Text) (limits : MultipartLimits) (body : Bytes) : Prop :=
  ∀ frames : List Bytes, frames.flatten = body →
    ((∃ parts, parse contentType body = .ok parts) ↔
      (runSession boundary limits frames).verdict = .ended) ∧
    ∀ parts, parse contentType body = .ok parts →
      (runSession boundary limits frames).verdict = .ended →
      parts = (runSession boundary limits frames).fields.map FieldReport.toPart

/-- A delimiter line stands inside a header block. -/
def HasDelimiterInHeaders (boundary body : Bytes) : Prop :=
  ∃ sections, Wire boundary sections body ∧ (∀ s ∈ sections, ∃ part, s.part = .ok part) ∧
    ∃ s ∈ sections, s.DelimiterInHeaders

variable {seen : ℕ} {sections : List (Section boundary)}

theorem fieldMetadata_eq_ok (s : Section boundary) {metadata : FieldMetadata} :
    fieldMetadata limits seen s.headers = .ok metadata ↔
      headerLineCount s.headers ≤ limits.maxHeadersPerField ∧ seen + 1 ≤ limits.maxFields ∧
        ∃ part, s.part = .ok part ∧ part.declaresNested = false ∧ part.metadata = metadata ∧
          part.data = s.data := by
  rw [fieldMetadata]
  split_ifs with hl hf
  · simp [Nat.not_le.mpr hl]
  · simp [Nat.not_le.mpr hf]
  · simp only [Nat.not_lt.mp hl, Nat.not_lt.mp hf, true_and, Section.part, Except.bind_ok_iff]
    constructor
    · rintro ⟨headers, hh, hm⟩
      rw [intoMetadata] at hm
      cases hn : headers.name with
      | none => simp [hn] at hm
      | some name =>
        simp only [hn] at hm
        split_ifs at hm with hnest
        refine ⟨⟨name, headers.filename, headers.contentType, s.data⟩, ⟨headers, hh, ?_⟩,
          by simpa [Part.declaresNested] using hnest, Except.ok.inj hm, rfl⟩
        simp only [hn]
    · rintro ⟨part, ⟨headers, hh, hp⟩, hnest, rfl, -⟩
      refine ⟨headers, hh, ?_⟩
      cases hn : headers.name with
      | none => simp [hn] at hp
      | some name =>
        simp only [hn] at hp
        obtain rfl := Except.ok.inj hp
        rw [intoMetadata, hn]
        simp only [Part.declaresNested] at hnest
        simp [hnest, Part.metadata]

theorem sectionFields_of_parts {parts : List Part}
    (hseen : seen + sections.length ≤ limits.maxFields) (hin : ∀ s ∈ sections, s.Inside limits)
    (hnest : ∀ s ∈ sections, ∀ part, s.part = .ok part → part.declaresNested = false)
    (hparts : List.Forall₂ (fun s part => Section.part s = .ok part) sections parts) :
    sectionFields limits seen sections =
      some (parts.map fun part => (part.metadata, some part.data)) := by
  induction hparts generalizing seen with
  | nil => rfl
  | @cons s part later laterParts hpart _ ih =>
    obtain ⟨hlines, hlen, hfit⟩ := hin s (by simp)
    rw [List.length_cons] at hseen
    have hdata : part.data = s.data := by
      simp only [Section.part, Except.bind_ok_iff] at hpart
      obtain ⟨headers, -, hp⟩ := hpart
      split at hp
      · simp at hp
      · rw [← Except.ok.inj hp]
    have hmeta : fieldMetadata limits seen s.headers = .ok part.metadata :=
      (fieldMetadata_eq_ok s).mpr
        ⟨hlines, by omega, part, hpart, hnest s (by simp) part hpart, rfl, hdata⟩
    rw [sectionFields, if_pos ⟨hlen, hfit⟩, hmeta,
      ih (by omega) (fun t ht => hin t (by simp [ht])) fun t ht => hnest t (by simp [ht])]
    simp [hdata]

theorem parts_of_sectionFields {fields : List (FieldMetadata × Option Bytes)}
    (h : sectionFields limits seen sections = some fields) :
    (sections = [] ∨ seen + sections.length ≤ limits.maxFields) ∧
      (∀ s ∈ sections, s.Inside limits ∧
        ∀ part, s.part = .ok part → part.declaresNested = false) ∧
      ∃ parts, List.Forall₂ (fun s part => Section.part s = .ok part) sections parts ∧
        fields = parts.map fun part => (part.metadata, some part.data) := by
  induction sections generalizing seen fields with
  | nil =>
    obtain rfl := Option.some.inj h
    exact ⟨Or.inl rfl, by simp, [], .nil, rfl⟩
  | cons s later ih =>
    rw [sectionFields] at h
    split_ifs at h with hfits
    cases hm : fieldMetadata limits seen s.headers with
    | error e => simp [hm] at h
    | ok metadata =>
      rw [hm] at h
      obtain ⟨fields', hf, rfl⟩ := Option.map_eq_some_iff.mp h
      obtain ⟨hlines, hseen, part, hpart, hnest, rfl, hdata⟩ := (fieldMetadata_eq_ok s).mp hm
      obtain ⟨hcount, hall, parts, hparts, rfl⟩ := ih hf
      refine ⟨Or.inr ?_, ?_, part :: parts, .cons hpart hparts, by simp [hdata]⟩
      · rcases hcount with rfl | hcount
        · simpa using hseen
        · rw [List.length_cons]
          omega
      · intro t ht
        rcases List.mem_cons.mp ht with rfl | ht
        · refine ⟨⟨hlines, hfits⟩, fun part' hpart' => ?_⟩
          rwa [← Except.ok.inj (hpart.symm.trans hpart')]
        · exact hall t ht

theorem exists_parts_iff :
    (∃ parts, List.Forall₂ (fun s part => Section.part s = .ok part) sections parts) ↔
      ∀ s ∈ sections, ∃ part, s.part = .ok part := by
  induction sections with
  | nil => simp
  | cons s later ih =>
    rw [List.forall_mem_cons, ← ih]
    constructor
    · rintro ⟨_, hparts⟩
      cases hparts with
      | cons hpart hparts => exact ⟨⟨_, hpart⟩, _, hparts⟩
    · rintro ⟨⟨part, hpart⟩, parts, hparts⟩
      exact ⟨part :: parts, .cons hpart hparts⟩

theorem parts_eq_toPart {fields : List FieldReport} {parts : List Part}
    (h : fields.map (fun field => (field.metadata, if field.ended then some field.data else none)) =
      parts.map fun part => (part.metadata, some part.data)) :
    parts = fields.map FieldReport.toPart := by
  induction fields generalizing parts with
  | nil => simpa using h.symm
  | cons field fields ih =>
    cases parts with
    | nil => simp at h
    | cons part parts =>
      simp only [List.map_cons, List.cons.injEq, Prod.mk.injEq] at h
      obtain ⟨⟨hmeta, hdata⟩, h⟩ := h
      have hdata : field.data = part.data := by
        split_ifs at hdata
        exact Option.some.inj hdata
      rw [List.map_cons, ← ih h, FieldReport.toPart, hmeta, hdata]
      rfl

theorem inside_of_ended {boundary : Text}
    (hb : validateBoundaryWithin boundary limits.maxBoundaryBytes = .ok ()) {frames : List Bytes}
    (h : (runSession boundary limits frames).verdict = .ended) :
    InsideLimits limits (encode boundary) frames.flatten ∧
      DeclaresNoNested (encode boundary) frames.flatten := by
  obtain ⟨sections, fields, hw, hf⟩ := (runSession_ended_iff hb frames).mp h
  obtain ⟨hcount, hall, -⟩ := parts_of_sectionFields hf
  constructor
  · intro sections' hw'
    obtain rfl := hw.unique hw'
    refine ⟨?_, fun s hs => (hall s hs).1⟩
    rcases hcount with rfl | hcount
    · exact Nat.zero_le _
    · omega
  · intro sections' hw' s hs
    obtain rfl := hw.unique hw'
    exact (hall s hs).2

/-- On a body inside the limits and without nested parts, the two parsers agree exactly when no
delimiter line starts inside a header block of the body. -/
theorem parsersAgree_iff (contentType boundary : Text) (limits : MultipartLimits) (body : Bytes)
    (hct : extractBoundaryWithin contentType limits.maxBoundaryBytes = .ok boundary)
    (hin : InsideLimits limits (encode boundary) body)
    (hnest : DeclaresNoNested (encode boundary) body) :
    ParsersAgree contentType boundary limits body ↔
      ¬ HasDelimiterInHeaders (encode boundary) body := by
  have hb := extractBoundaryWithin_valid hct
  have hparse : ∀ parts, parse contentType body = .ok parts ↔ _ := fun parts =>
    parse_eq_ok (extractBoundaryWithin_mono limits.sound.boundary_le hct)
  have hfields : ∀ {sections parts}, Wire (encode boundary) sections body →
      List.Forall₂ (fun s part => Section.part s = .ok part) sections parts →
      sectionFields limits 0 sections =
        some (parts.map fun part => (part.metadata, some part.data)) :=
    fun hw hparts => sectionFields_of_parts (by rw [Nat.zero_add]; exact (hin _ hw).1)
      (hin _ hw).2 (hnest _ hw) hparts
  constructor
  · rintro hagree ⟨sections, hw, hall, s, hs, hdelim⟩
    obtain ⟨parts, hparts⟩ := exists_parts_iff.mpr hall
    -- the session ends cleanly, so an agreeing buffered parse would have clean headers
    have hended := (runSession_ended_iff hb [body]).mpr
      ⟨sections, _, by simpa using hw, hfields hw hparts⟩
    obtain ⟨parts', hok⟩ := (hagree [body] (by simp)).1.mpr hended
    obtain ⟨sections', hw', hclean, -⟩ := (hparse parts').mp hok
    obtain rfl := hw.unique hw'
    exact hclean s hs hdelim
  · intro hnot frames hframes
    subst hframes
    refine ⟨⟨?_, ?_⟩, ?_⟩
    · rintro ⟨parts, hok⟩
      obtain ⟨sections, hw, -, hparts⟩ := (hparse parts).mp hok
      exact (runSession_ended_iff hb frames).mpr ⟨sections, _, hw, hfields hw hparts⟩
    · intro hended
      obtain ⟨sections, fields, hw, hf⟩ := (runSession_ended_iff hb frames).mp hended
      obtain ⟨-, -, parts, hparts, -⟩ := parts_of_sectionFields hf
      refine ⟨parts, (hparse parts).mpr ⟨sections, hw, fun s hs hdelim => hnot ?_, hparts⟩⟩
      exact ⟨sections, hw, exists_parts_iff.mp ⟨parts, hparts⟩, s, hs, hdelim⟩
    · intro parts hok _
      obtain ⟨sections, hw, -, hparts⟩ := (hparse parts).mp hok
      exact parts_eq_toPart (runSession_fields hb hw (hfields hw hparts))

/-- A plain one-field body is read alike. -/
theorem parsersAgree_iff_one_field :
    ParsersAgree "multipart/form-data; boundary=B".toList "B".toList .default oneFieldBody ↔
      ¬ HasDelimiterInHeaders (encode "B".toList) oneFieldBody := by
  have hct : extractBoundaryWithin "multipart/form-data; boundary=B".toList
      MultipartLimits.default.maxBoundaryBytes = .ok "B".toList := by rfl
  have hinside := inside_of_ended (extractBoundaryWithin_valid hct) oneFieldBody_ended
  simp only [List.flatten_singleton] at hinside
  exact parsersAgree_iff _ _ .default oneFieldBody hct hinside.1 hinside.2

def boundaryLineBody : Bytes :=
  encode "--B\r\nContent-Disposition: form-data; name=a\r\n\r\n--B\r\n\r\n--B--".toList

/-- The session reads one field with the data `--B`, the buffered parse refuses the body. -/
theorem not_parsersAgree_boundary_line :
    extractBoundaryWithin "multipart/form-data; boundary=B".toList
        MultipartLimits.default.maxBoundaryBytes = .ok "B".toList ∧
      InsideLimits .default (encode "B".toList) boundaryLineBody ∧
      DeclaresNoNested (encode "B".toList) boundaryLineBody ∧
      (runSession "B".toList .default [boundaryLineBody]).verdict = .ended ∧
      parse "multipart/form-data; boundary=B".toList boundaryLineBody =
        .error (malformed "invalid multipart part framing") ∧
      ¬ ParsersAgree "multipart/form-data; boundary=B".toList "B".toList .default
        boundaryLineBody := by
  have hct : extractBoundaryWithin "multipart/form-data; boundary=B".toList
      MultipartLimits.default.maxBoundaryBytes = .ok "B".toList := by rfl
  have hended : (runSession "B".toList .default [boundaryLineBody]).verdict = .ended := by
    decide +kernel
  have hparse : parse "multipart/form-data; boundary=B".toList boundaryLineBody =
      .error (malformed "invalid multipart part framing") := by rfl
  have hinside := inside_of_ended (extractBoundaryWithin_valid hct) hended
  simp only [List.flatten_singleton] at hinside
  refine ⟨hct, hinside.1, hinside.2, hended, hparse, fun hagree => ?_⟩
  obtain ⟨parts, hok⟩ := (hagree [boundaryLineBody] (by simp)).1.mpr hended
  rw [hparse] at hok
  simp at hok

end Camber.Multipart
