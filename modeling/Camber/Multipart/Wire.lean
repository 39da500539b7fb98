import Camber.Multipart.Framing

/-! The wire grammar. The sections of a body are determined by its bytes. -/

namespace Camber.Multipart
open Str SliceSearch

variable {boundary : Bytes} {limits : MultipartLimits}

@[ext]
structure Section (boundary : Bytes) where
  headers : Bytes
  data : Bytes
  closes : Bool
  terminator_first :
    First (Occurs headerTerminator (headers ++ headerTerminator)) 0 (some headers.length)
  delimiter_first :
    First (DelimiterAt boundary (data ++ delimiterLine boundary closes)) 0 (some data.length)

/-- The bytes of a section, its delimiter line included. -/
def Section.wire (s : Section boundary) : Bytes :=
  s.headers ++ headerTerminator ++ (s.data ++ delimiterLine boundary s.closes)

/-- The bytes after a delimiter line: an ending after a closing one, a section otherwise. -/
inductive WireTail (boundary : Bytes) : Bool → List (Section boundary) → Bytes → Prop where
  | ending {epilogue : Bytes} (h : epilogue = [] ∨ epilogue = [13, 10]) :
      WireTail boundary true [] epilogue
  | sections {s : Section boundary} {later : List (Section boundary)} {rest : Bytes}
      (h : WireTail boundary s.closes later rest) :
      WireTail boundary false (s :: later) (s.wire ++ rest)

/-- A whole body with these sections. -/
def Wire (boundary : Bytes) (sections : List (Section boundary)) (body : Bytes) : Prop :=
  ∃ closes rest, body = openingLine boundary closes ++ rest ∧
    WireTail boundary closes sections rest

variable {w body : Bytes} {closes : Bool} {fields : List (FieldMetadata × Option Bytes)}

theorem occurs_delimiterLine {pos : ℕ} (h : DelimiterAt boundary w pos) :
    Occurs (delimiterLine boundary (decide (Occurs (delimiterLine boundary true) w pos))) w pos := by
  by_cases ht : Occurs (delimiterLine boundary true) w pos
  · simp [ht]
  · obtain ⟨closes, hc⟩ := h
    cases closes with
    | true => exact absurd hc ht
    | false => simpa [ht] using hc

theorem closes_of_occurs {pos : ℕ} (h : Occurs (delimiterLine boundary closes) w pos) :
    decide (Occurs (delimiterLine boundary true) w pos) = closes := by
  cases closes with
  | true => simpa using h
  | false =>
    rw [decide_eq_false_iff_not]
    intro ht
    rw [occurs_iff_take, delimiterLine_length] at h ht
    have he := ht.symm.trans h
    simp [delimiterLine] at he

namespace Section

theorem wire_append (s : Section boundary) (rest : Bytes) :
    s.wire ++ rest =
      (s.headers ++ headerTerminator) ++ (s.data ++ (delimiterLine boundary s.closes ++ rest)) := by
  simp only [wire, List.append_assoc]

theorem first_terminator (s : Section boundary) (rest : Bytes) :
    First (Occurs headerTerminator (s.wire ++ rest)) 0 (some s.headers.length) := by
  rw [wire_append]
  exact first_occurs_append (by simp [headerTerminator]) s.terminator_first _

theorem first_delimiter (s : Section boundary) (rest : Bytes) :
    First (DelimiterAt boundary (s.data ++ (delimiterLine boundary s.closes ++ rest))) 0
      (some s.data.length) := by
  rw [← List.append_assoc]
  exact first_delimiter_append s.delimiter_first rest

theorem drop_headers (s : Section boundary) (rest : Bytes) :
    (s.wire ++ rest).drop (s.headers.length + 4) =
      s.data ++ (delimiterLine boundary s.closes ++ rest) := by
  have hlen : (s.headers ++ headerTerminator).length = s.headers.length + 4 := by
    rw [List.length_append]
    rfl
  rw [wire_append, ← hlen, List.drop_left]

theorem drop_data (s : Section boundary) (rest : Bytes) :
    (s.data ++ (delimiterLine boundary s.closes ++ rest)).drop
      (s.data.length + (boundary.length + 6)) = rest := by
  rw [← List.append_assoc, List.drop_left' (by rw [List.length_append, delimiterLine_length])]

theorem closes_eq (s : Section boundary) (rest : Bytes) :
    decide (Occurs (delimiterLine boundary true)
      (s.data ++ (delimiterLine boundary s.closes ++ rest)) s.data.length) = s.closes := by
  refine closes_of_occurs ?_
  rw [Occurs, List.drop_left]
  exact List.prefix_append _ _

theorem terminator_first_of_cut {w : Bytes} {end_ : ℕ}
    (hend : First (Occurs headerTerminator w) 0 (some end_)) :
    First (Occurs headerTerminator (w.take end_ ++ headerTerminator)) 0
      (some (w.take end_).length) := by
  have hle := Occurs.end_le hend.holds (by simp [headerTerminator])
  have hlen : (w.take end_).length = end_ := by
    rw [List.length_take]
    omega
  have hsplit := Occurs.split hend.holds
  rw [hlen]
  refine first_some (Nat.zero_le _) ?_ fun j hj hlt hocc => hend.before hj hlt ?_
  · rw [Occurs, List.drop_left' hlen]
  · rw [hsplit]
    exact occurs_append_of_occurs _ hocc

theorem delimiter_first_of_cut {w : Bytes} {pos : ℕ}
    (hpos : First (DelimiterAt boundary w) 0 (some pos)) :
    First (DelimiterAt boundary (w.take pos ++ delimiterLine boundary
      (decide (Occurs (delimiterLine boundary true) w pos)))) 0 (some (w.take pos).length) := by
  have hle := hpos.holds.end_le
  have hlen : (w.take pos).length = pos := by
    rw [List.length_take]
    omega
  have hocc := occurs_delimiterLine hpos.holds
  have hsplit := Occurs.split hocc
  rw [hlen]
  refine first_some (Nat.zero_le _) ?_ fun j hj hlt hd => hpos.before hj hlt ?_
  · refine ⟨decide (Occurs (delimiterLine boundary true) w pos), ?_⟩
    rw [Occurs, List.drop_left' hlen]
  · rw [hsplit]
    exact hd.append _

def ofCut (w : Bytes) (end_ pos : ℕ)
    (hend : First (Occurs headerTerminator w) 0 (some end_))
    (hpos : First (DelimiterAt boundary (w.drop (end_ + 4))) 0 (some pos)) : Section boundary where
  headers := w.take end_
  data := (w.drop (end_ + 4)).take pos
  closes := decide (Occurs (delimiterLine boundary true) (w.drop (end_ + 4)) pos)
  terminator_first := terminator_first_of_cut hend
  delimiter_first := delimiter_first_of_cut hpos

theorem ofCut_wire (w : Bytes) (end_ pos : ℕ)
    (hend : First (Occurs headerTerminator w) 0 (some end_))
    (hpos : First (DelimiterAt boundary (w.drop (end_ + 4))) 0 (some pos)) :
    (ofCut w end_ pos hend hpos).wire ++
      (w.drop (end_ + 4)).drop (pos + (boundary.length + 6)) = w := by
  have hsplit := Occurs.split hend.holds
  have hsplit' := Occurs.split (occurs_delimiterLine hpos.holds)
  have h4 : headerTerminator.length = 4 := rfl
  rw [h4] at hsplit
  rw [delimiterLine_length] at hsplit'
  conv_rhs => rw [hsplit, hsplit']
  simp only [wire, ofCut, List.append_assoc]

end Section

/-- The sections of a body are determined by its bytes. -/
theorem WireTail.unique {s t : List (Section boundary)} (hs : WireTail boundary closes s w)
    (ht : WireTail boundary closes t w) : s = t := by
  induction hs generalizing t with
  | ending h =>
    cases ht
    rfl
  | @sections s later rest h ih =>
    generalize hw : s.wire ++ rest = w at ht
    cases ht with
    | @sections s' later' rest' h' =>
      have hlen : s.headers.length = s'.headers.length :=
        Option.some.inj ((hw ▸ s.first_terminator rest).unique (s'.first_terminator rest'))
      have hafter := s.drop_headers rest
      rw [hw, hlen, s'.drop_headers rest'] at hafter
      have hdata : s.data.length = s'.data.length :=
        Option.some.inj ((hafter ▸ s.first_delimiter rest).unique (s'.first_delimiter rest'))
      have hcloses : s.closes = s'.closes := by
        rw [← s.closes_eq rest, ← hafter, hdata, s'.closes_eq rest']
      have hheaders : s.headers = s'.headers := by
        rw [Section.wire_append, Section.wire_append, List.append_assoc, List.append_assoc] at hw
        exact List.append_inj_left hw hlen
      have hdataEq : s.data = s'.data := (List.append_inj_left hafter hdata.symm).symm
      have hrest : rest = rest' := by
        have hd := s.drop_data rest
        rw [← hafter, hdata, s'.drop_data rest'] at hd
        exact hd.symm
      obtain rfl : s = s' := Section.ext hheaders hdataEq hcloses
      subst hrest
      rw [ih h']

theorem openingLine_inj {closes' : Bool} {rest rest' : Bytes}
    (h : openingLine boundary closes ++ rest = openingLine boundary closes' ++ rest') :
    closes = closes' ∧ rest = rest' := by
  obtain ⟨hline, hrest⟩ := List.append_inj h (by simp)
  refine ⟨?_, hrest⟩
  cases closes <;> cases closes' <;> simp [openingLine] at hline <;> rfl

theorem Wire.unique {s t : List (Section boundary)} (hs : Wire boundary s body)
    (ht : Wire boundary t body) : s = t := by
  obtain ⟨closes, rest, rfl, htail⟩ := hs
  obtain ⟨closes', rest', he, htail'⟩ := ht
  obtain ⟨rfl, rfl⟩ := openingLine_inj he
  exact htail.unique htail'

def sectionFields (limits : MultipartLimits) :
    ℕ → List (Section boundary) → Option (List (FieldMetadata × Option Bytes))
  | _, [] => some []
  | seen, s :: later =>
    if s.headers.length + 4 ≤ limits.maxHeaderBytesPerField ∧
        FitsField limits s.data.length then
      match fieldMetadata limits seen s.headers with
      | .error _ => none
      | .ok metadata => (sectionFields limits (seen + 1) later).map ((metadata, some s.data) :: ·)
    else none

theorem readData_section (s : Section boundary) (rest : Bytes) (fieldBytes : ℕ)
    (hfit : FitsField limits (fieldBytes + s.data.length)) :
    readData limits boundary fieldBytes (s.data ++ (delimiterLine boundary s.closes ++ rest)) =
      .ok (s.data, s.closes, rest) := by
  rw [readData, findDelimiter_eq (s.first_delimiter rest)]
  simp only [if_pos hfit, List.take_left, s.closes_eq, s.drop_data]

theorem WireTail.reads {sections : List (Section boundary)}
    (h : WireTail boundary closes sections w) {seen : ℕ}
    (hf : sectionFields limits seen sections = some fields) :
    readAfterDelimiter limits boundary seen closes w = ⟨none, fields, none⟩ := by
  induction h generalizing seen fields with
  | ending h =>
    obtain rfl := Option.some.inj hf
    simp [readAfterDelimiter, readEpilogue, h, Reading.complete]
  | @sections s later rest h ih =>
    rw [sectionFields] at hf
    split_ifs at hf with hfits
    cases hm : fieldMetadata limits seen s.headers with
    | error e => simp [hm] at hf
    | ok metadata =>
      rw [hm] at hf
      obtain ⟨fields', hf', rfl⟩ := Option.map_eq_some_iff.mp hf
      have hblock : (s.headers ++ headerTerminator).length ≤ limits.maxHeaderBytesPerField := by
        rw [List.length_append]
        exact hfits.1
      have hdrop : (s.headers ++ headerTerminator).drop (s.headers.length + 4) = [] :=
        List.drop_eq_nil_of_le (by rw [List.length_append]; rfl)
      simp only [readAfterDelimiter, Bool.false_eq_true, if_false]
      rw [readSections_eq, s.wire_append, readHeaders_found hblock s.terminator_first,
        List.take_left, hm]
      simp only [hdrop, List.nil_append, readField,
        readData_section s rest 0 (by rw [Nat.zero_add]; exact hfits.2), ih hf', Reading.after]

theorem section_of_reads {seen : ℕ} {metadata : FieldMetadata} {data rest : Bytes}
    (hh : readHeaders limits seen w = .ok (metadata, body))
    (hd : readData limits boundary 0 body = .ok (data, closes, rest)) :
    ∃ s : Section boundary, w = s.wire ++ rest ∧ s.data = data ∧ s.closes = closes ∧
      s.headers.length + 4 ≤ limits.maxHeaderBytesPerField ∧ FitsField limits s.data.length ∧
      fieldMetadata limits seen s.headers = .ok metadata := by
  obtain ⟨end_, hend, hfits, hm, rfl⟩ := readHeaders_eq_ok limits hh
  obtain ⟨pos, hpos, hfit, rfl, rfl, rfl⟩ := readData_eq_ok limits boundary hd
  have hheaders : (w.take end_).length = end_ := by
    have := Occurs.end_le hend.holds (by simp [headerTerminator])
    rw [List.length_take]
    omega
  have hdata : ((w.drop (end_ + 4)).take pos).length = pos := by
    have := hpos.holds.end_le
    rw [List.length_take]
    omega
  refine ⟨Section.ofCut w end_ pos hend hpos, (Section.ofCut_wire w end_ pos hend hpos).symm, rfl,
    rfl, ?_, ?_, hm⟩
  · simpa only [Section.ofCut, hheaders] using hfits
  · simpa only [Section.ofCut, hdata, Nat.zero_add] using hfit

theorem wireTail_of_reads {seen : ℕ}
    (h : (readAfterDelimiter limits boundary seen closes w).refusal = none) :
    ∃ sections fields, WireTail boundary closes sections w ∧
      sectionFields limits seen sections = some fields := by
  induction hn : w.length using Nat.strong_induction_on generalizing w seen closes with
  | _ n ih =>
    subst hn
    cases closes with
    | true =>
      simp only [readAfterDelimiter, if_true, readEpilogue] at h
      by_cases he : w = [] ∨ w = [13, 10]
      · exact ⟨[], [], .ending he, rfl⟩
      · simp [he, Reading.refused] at h
    | false =>
      simp only [readAfterDelimiter, Bool.false_eq_true, if_false, readSections_eq] at h
      cases hh : readHeaders limits seen w with
      | error v => simp [hh, Reading.refused] at h
      | ok r =>
        obtain ⟨metadata, body⟩ := r
        simp only [hh, Reading.after, readField] at h
        cases hd : readData limits boundary 0 body with
        | error v => simp [hd, Reading.refused] at h
        | ok r =>
          obtain ⟨data, closes, rest⟩ := r
          simp only [hd] at h
          have hshort := readHeaders_shortens limits hh
          have hshort' := readData_shortens limits boundary hd
          obtain ⟨sections, fields, htail, hfields⟩ := ih _ (by omega) h rfl
          obtain ⟨s, rfl, rfl, rfl, hfits, hfit, hm⟩ := section_of_reads hh hd
          refine ⟨s :: sections, (metadata, some s.data) :: fields, .sections htail, ?_⟩
          rw [sectionFields, if_pos ⟨hfits, hfit⟩, hm, hfields]
          rfl

theorem readBody_openingLine (seen : ℕ) (closes : Bool) (rest : Bytes) :
    readBody limits boundary seen (openingLine boundary closes ++ rest) =
      readAfterDelimiter limits boundary seen closes rest := by
  obtain ⟨hopen, hclose⟩ := opens_iff_openingLine.mpr (List.prefix_refl (openingLine boundary closes))
  rw [readBody_line (openingLine_length boundary closes), hopen, hclose]
  rfl

theorem Wire.reads {sections : List (Section boundary)} (h : Wire boundary sections body)
    (hf : sectionFields limits 0 sections = some fields) :
    readBody limits boundary 0 body = ⟨none, fields, none⟩ := by
  obtain ⟨closes, rest, rfl, htail⟩ := h
  rw [readBody_openingLine, htail.reads hf]

theorem readBody_cases (limits : MultipartLimits) (boundary : Bytes) (seen : ℕ) (body : Bytes) :
    (∃ v, readBody limits boundary seen body = .refused v) ∨
      ∃ closes rest, body = openingLine boundary closes ++ rest ∧
        readBody limits boundary seen body = readAfterDelimiter limits boundary seen closes rest := by
  by_cases hopen : ∃ closes, openingLine boundary closes <+: body
  · obtain ⟨closes, rest, rfl⟩ := hopen
    exact Or.inr ⟨closes, rest, rfl, readBody_openingLine seen closes rest⟩
  · -- a body that does not open is refused whatever follows
    left
    rw [readBody]
    split_ifs with hlen hno
    · exact ⟨_, rfl⟩
    · exact ⟨_, rfl⟩
    · cases hc : delimiterClosesAt body (2 + boundary.length) with
      | error e => exact ⟨_, rfl⟩
      | ok closes =>
        exact absurd ⟨closes, opens_iff_openingLine.mp ⟨by simpa using hno, hc⟩⟩ hopen

theorem wire_of_reads (h : (readBody limits boundary 0 body).refusal = none) :
    ∃ sections fields, Wire boundary sections body ∧
      sectionFields limits 0 sections = some fields := by
  rcases readBody_cases limits boundary 0 body with ⟨v, hrefused⟩ | ⟨closes, rest, rfl, hreads⟩
  · simp [hrefused, Reading.refused] at h
  · rw [hreads] at h
    obtain ⟨sections, fields, htail, hf⟩ := wireTail_of_reads h
    exact ⟨sections, fields, ⟨closes, rest, rfl, htail⟩, hf⟩

theorem runSession_ended_iff {boundary : Text}
    (hb : validateBoundaryWithin boundary limits.maxBoundaryBytes = .ok ()) (frames : List Bytes) :
    (runSession boundary limits frames).verdict = .ended ↔
      ∃ sections fields, Wire (encode boundary) sections frames.flatten ∧
        sectionFields limits 0 sections = some fields := by
  obtain ⟨hfin, hobs⟩ := runSession_reads hb frames
  have href := congrArg Reading.refusal hobs
  simp only [Report.observed] at href
  constructor
  · intro hended
    rw [hended] at href
    exact wire_of_reads href.symm
  · rintro ⟨sections, fields, hw, hf⟩
    rw [hw.reads hf] at href
    cases hv : (runSession boundary limits frames).verdict with
    | ended => rfl
    | failed e => simp [hv] at href
    | unfinished => exact absurd hv hfin

/-- The fields of a session that ends cleanly are the sections of its body. -/
theorem runSession_fields {boundary : Text}
    (hb : validateBoundaryWithin boundary limits.maxBoundaryBytes = .ok ()) {frames : List Bytes}
    {sections : List (Section (encode boundary))}
    (hw : Wire (encode boundary) sections frames.flatten)
    (hf : sectionFields limits 0 sections = some fields) :
    (runSession boundary limits frames).fields.map (fun field =>
      (field.metadata, if field.ended then some field.data else none)) = fields := by
  have hfields := congrArg Reading.fields (runSession_reads hb frames).2
  rwa [hw.reads hf] at hfields

end Camber.Multipart
