import Camber.Multipart.Parser

/-! The abstract behaviour of a multipart session: what the bytes of a body say, with every byte in
hand and no buffer, frame or scan position. -/

namespace Camber.Multipart
open Str SliceSearch

/-- What is still to be learned from the rest of a body: the remaining data of the field being read,
when it ends; the later fields, each with its data when it ends; and the variant of the error that
stops the reading, if one does. -/
structure Reading where
  current : Option Bytes
  fields : List (FieldMetadata × Option Bytes)
  refusal : Option RuntimeError.Variant

namespace Reading

def complete : Reading := ⟨none, [], none⟩

def refused (variant : RuntimeError.Variant) : Reading := ⟨none, [], some variant⟩

def after : ParserEvent → Reading → Reading
  | .field metadata, rest => ⟨none, (metadata, rest.current) :: rest.fields, rest.refusal⟩
  | .chunk bytes, rest => ⟨rest.current.map (bytes ++ ·), rest.fields, rest.refusal⟩
  | .fieldEnd, rest => ⟨some [], rest.fields, rest.refusal⟩
  | .end_, rest => rest

end Reading

def fieldMetadata (limits : MultipartLimits) (seen : ℕ) (raw : Bytes) :
    Except RuntimeError FieldMetadata :=
  if headerLineCount raw > limits.maxHeadersPerField then .error (malformed tooManyHeaders)
  else if seen + 1 > limits.maxFields then .error (malformed tooManyFields)
  else do
    let headers ← parseHeaderBlock raw
    intoMetadata headers

def FitsField (limits : MultipartLimits) (total : ℕ) : Prop :=
  total ≤ limits.maxFieldBytes ∧ total ≤ Usize.max

instance (limits : MultipartLimits) (total : ℕ) : Decidable (FitsField limits total) :=
  inferInstanceAs (Decidable (_ ∧ _))

section
variable (limits : MultipartLimits) (boundary : Bytes)

def readEpilogue (w : Bytes) : Reading :=
  if w = [] ∨ w = [13, 10] then .complete else .refused .multipart

/-- The header block at the front of `w`: the field it opens and the bytes after it. -/
def readHeaders (seen : ℕ) (w : Bytes) :
    Except RuntimeError.Variant (FieldMetadata × Bytes) :=
  match findBytes (w.take limits.maxHeaderBytesPerField) headerTerminator 0 with
  | none => .error .multipart
  | some end_ =>
    match fieldMetadata limits seen (w.take end_) with
    | .error e => .error e.variant
    | .ok metadata => .ok (metadata, w.drop (end_ + 4))

/-- The field data at the front of `w`, after `fieldBytes` bytes of the same field: the data up to
the first delimiter, whether that one closes the body, and the bytes after it. -/
def readData (fieldBytes : ℕ) (w : Bytes) :
    Except RuntimeError.Variant (Bytes × Bool × Bytes) :=
  match findDelimiter w boundary 0 with
  | none =>
    if FitsField limits (fieldBytes + (w.length - (boundary.length + 5))) then .error .multipart
    else .error .requestBodyLimit
  | some pos =>
    if FitsField limits (fieldBytes + pos) then
      .ok (w.take pos, decide (Occurs (delimiterLine boundary true) w pos),
        w.drop (pos + (boundary.length + 6)))
    else .error .requestBodyLimit

variable {w rest : Bytes}

theorem readHeaders_eq_ok {seen : ℕ} {metadata : FieldMetadata}
    (h : readHeaders limits seen w = .ok (metadata, rest)) :
    ∃ end_, First (Occurs headerTerminator w) 0 (some end_) ∧
      end_ + 4 ≤ limits.maxHeaderBytesPerField ∧
      fieldMetadata limits seen (w.take end_) = .ok metadata ∧ rest = w.drop (end_ + 4) := by
  have hne : headerTerminator ≠ [] := by simp [headerTerminator]
  have hfirst := findBytes_first (w.take limits.maxHeaderBytesPerField) headerTerminator hne 0
  rw [readHeaders] at h
  cases hf : findBytes (w.take limits.maxHeaderBytesPerField) headerTerminator 0 with
  | none => simp [hf] at h
  | some end_ =>
    rw [hf] at hfirst
    have hle : end_ + 4 ≤ _ := Occurs.end_le hfirst.holds hne
    rw [List.length_take] at hle
    have hend := first_occurs_append hne hfirst (w.drop limits.maxHeaderBytesPerField)
    rw [List.take_append_drop] at hend
    cases hm : fieldMetadata limits seen (w.take end_) with
    | error e => simp [hf, hm] at h
    | ok metadata' =>
      simp only [hf, hm, Except.ok.injEq, Prod.mk.injEq] at h
      exact ⟨end_, hend, by omega, by rw [hm, h.1], h.2.symm⟩

theorem readData_eq_ok {fieldBytes : ℕ} {data : Bytes} {closes : Bool}
    (h : readData limits boundary fieldBytes w = .ok (data, closes, rest)) :
    ∃ pos, First (DelimiterAt boundary w) 0 (some pos) ∧ FitsField limits (fieldBytes + pos) ∧
      data = w.take pos ∧ closes = decide (Occurs (delimiterLine boundary true) w pos) ∧
      rest = w.drop (pos + (boundary.length + 6)) := by
  have hfirst := findDelimiter_first w boundary 0
  rw [readData] at h
  cases hf : findDelimiter w boundary 0 with
  | none =>
    rw [hf] at h
    simp only at h
    split_ifs at h
  | some pos =>
    rw [hf] at h hfirst
    simp only at h
    split_ifs at h with hfit
    simp only [Except.ok.injEq, Prod.mk.injEq] at h
    exact ⟨pos, hfirst, hfit, h.1.symm, h.2.1.symm, h.2.2.symm⟩

theorem readHeaders_shortens {seen : ℕ} {metadata : FieldMetadata}
    (h : readHeaders limits seen w = .ok (metadata, rest)) : rest.length < w.length := by
  obtain ⟨end_, hend, -, -, rfl⟩ := readHeaders_eq_ok limits h
  have hle : end_ + 4 ≤ w.length := Occurs.end_le hend.holds (by simp [headerTerminator])
  rw [List.length_drop]
  omega

theorem readData_shortens {fieldBytes : ℕ} {data : Bytes} {closes : Bool}
    (h : readData limits boundary fieldBytes w = .ok (data, closes, rest)) :
    rest.length ≤ w.length := by
  obtain ⟨pos, -, -, -, -, rfl⟩ := readData_eq_ok limits boundary h
  rw [List.length_drop]
  omega

def readSections (seen : ℕ) (w : Bytes) : Reading :=
  match _hh : readHeaders limits seen w with
  | .error variant => .refused variant
  | .ok (metadata, body) =>
    match hd : readData limits boundary 0 body with
    | .error variant => ⟨none, [(metadata, none)], some variant⟩
    | .ok (data, closes, rest) =>
      let later := if closes then readEpilogue rest else readSections (seen + 1) rest
      ⟨none, (metadata, some data) :: later.fields, later.refusal⟩
termination_by w.length
decreasing_by
  exact lt_of_le_of_lt (readData_shortens limits boundary hd) (readHeaders_shortens limits _hh)

def readAfterDelimiter (seen : ℕ) (closes : Bool) (rest : Bytes) : Reading :=
  if closes then readEpilogue rest else readSections limits boundary seen rest

/-- The rest of a field of which `fieldBytes` bytes were already read, and what follows. -/
def readField (seen fieldBytes : ℕ) (w : Bytes) : Reading :=
  match readData limits boundary fieldBytes w with
  | .error variant => .refused variant
  | .ok (data, closes, rest) =>
    let later := readAfterDelimiter limits boundary seen closes rest
    ⟨some data, later.fields, later.refusal⟩

def readBody (seen : ℕ) (w : Bytes) : Reading :=
  if w.length < boundary.length + 4 then .refused .multipart
  else if !opensBody w boundary then .refused .multipart
  else match delimiterClosesAt w (2 + boundary.length) with
    | .error e => .refused e.variant
    | .ok closes => readAfterDelimiter limits boundary seen closes (w.drop (boundary.length + 4))

theorem readSections_eq (seen : ℕ) (w : Bytes) :
    readSections limits boundary seen w =
      match readHeaders limits seen w with
      | .error variant => .refused variant
      | .ok (metadata, body) =>
        (readField limits boundary (seen + 1) 0 body).after (.field metadata) := by
  rw [readSections]
  split
  · rename_i hh
    rw [hh]
  · rename_i metadata body hh
    rw [hh]
    simp only [readField, readAfterDelimiter]
    split
    · rename_i hd
      rw [hd]
      rfl
    · rename_i data closes rest hd
      rw [hd]
      rfl

end

section
variable {limits : MultipartLimits} {boundary : Bytes}

theorem FitsField.anti {m n : ℕ} (h : FitsField limits n) (hle : m ≤ n) : FitsField limits m :=
  ⟨hle.trans h.1, hle.trans h.2⟩

variable {w rest : Bytes} {seen fieldBytes : ℕ}

theorem findDelimiter_eq {r : Option ℕ} (h : First (DelimiterAt boundary w) 0 r) :
    findDelimiter w boundary 0 = r :=
  (findDelimiter_first w boundary 0).unique h

theorem readBody_line {line : Bytes} (hlen : line.length = boundary.length + 4) :
    readBody limits boundary seen (line ++ rest) =
      if !opensBody line boundary then .refused .multipart
      else match delimiterClosesAt line (2 + boundary.length) with
        | .error e => .refused e.variant
        | .ok closes => readAfterDelimiter limits boundary seen closes rest := by
  rw [readBody, if_neg (by rw [List.length_append]; omega), opensBody_append (by omega),
    delimiterClosesAt_append (by omega), ← hlen, List.drop_left]

theorem readHeaders_found {end_ : ℕ} {block : Bytes}
    (hlen : block.length ≤ limits.maxHeaderBytesPerField)
    (hend : First (Occurs headerTerminator block) 0 (some end_)) :
    readHeaders limits seen (block ++ rest) =
      match fieldMetadata limits seen (block.take end_) with
      | .error e => .error e.variant
      | .ok metadata => .ok (metadata, block.drop (end_ + 4) ++ rest) := by
  have hne : headerTerminator ≠ [] := by simp [headerTerminator]
  have hle : end_ + 4 ≤ block.length := Occurs.end_le hend.holds hne
  have hfound : findBytes ((block ++ rest).take limits.maxHeaderBytesPerField)
      headerTerminator 0 = some end_ := by
    rw [List.take_append, List.take_of_length_le hlen]
    exact (findBytes_first _ _ hne 0).unique (first_occurs_append hne hend _)
  rw [readHeaders, hfound]
  simp only [List.take_append_of_le_length (show end_ ≤ block.length by omega),
    List.drop_append_of_le_length hle]

theorem readHeaders_too_large {block : Bytes} (hlen : block.length = limits.maxHeaderBytesPerField)
    (hno : ∀ j, ¬ Occurs headerTerminator block j) :
    readHeaders limits seen (block ++ rest) = .error .multipart := by
  have hmissing : findBytes ((block ++ rest).take limits.maxHeaderBytesPerField)
      headerTerminator 0 = none := by
    rw [← hlen, List.take_left]
    exact (findBytes_first block _ (by simp [headerTerminator]) 0).unique fun j _ => hno j
  rw [readHeaders, hmissing]

theorem readField_chunk {chunk : Bytes}
    (hno : ∀ j, j < chunk.length → ¬ DelimiterAt boundary (chunk ++ w) j)
    (hfit : FitsField limits (fieldBytes + chunk.length)) :
    readField limits boundary seen fieldBytes (chunk ++ w) =
      (readField limits boundary seen (fieldBytes + chunk.length) w).after (.chunk chunk) := by
  have hfirst := findDelimiter_first w boundary 0
  have hshift : First (DelimiterAt boundary (chunk ++ w)) 0
      ((findDelimiter w boundary 0).map (chunk.length + ·)) := by
    refine (hfirst.shift (k := chunk.length) fun j => ?_).skip (Nat.zero_le _) fun j _ hj => ?_
    · rw [← delimiterAt_drop, List.drop_left]
    · exact hno j (by simpa using hj)
  rw [readField, readField, readData, readData, findDelimiter_eq hshift]
  cases findDelimiter w boundary 0 with
  | none =>
    simp only [Option.map_none, List.length_append]
    by_cases hc : boundary.length + 5 ≤ w.length
    · have he : fieldBytes + (chunk.length + w.length - (boundary.length + 5)) =
          fieldBytes + chunk.length + (w.length - (boundary.length + 5)) := by omega
      rw [he]
      split_ifs <;> rfl
    · rw [if_pos (hfit.anti (by omega)), if_pos (hfit.anti (by omega))]
      rfl
  | some pos =>
    have hclose : Occurs (delimiterLine boundary true) (chunk ++ w) (chunk.length + pos) ↔
        Occurs (delimiterLine boundary true) w pos := by rw [← occurs_drop, List.drop_left]
    simp only [Option.map_some, Nat.add_assoc, hclose]
    split_ifs
    · simp only [List.take_length_add_append, List.drop_length_add_append]
      rfl
    · rfl

theorem readField_too_large (count : ℕ) (hno : ∀ j, j < count → ¬ DelimiterAt boundary w j)
    (hlen : count + (boundary.length + 5) ≤ w.length)
    (hfit : ¬ FitsField limits (fieldBytes + count)) :
    readField limits boundary seen fieldBytes w = .refused .requestBodyLimit := by
  have hfirst := findDelimiter_first w boundary 0
  rw [readField, readData]
  cases hf : findDelimiter w boundary 0 with
  | none => rw [if_neg fun h => hfit (h.anti (by omega))]
  | some pos =>
    rw [hf] at hfirst
    have hpos : count ≤ pos := Nat.not_lt.mp fun hlt => hno pos hlt hfirst.holds
    simp only [if_neg fun h : FitsField limits (fieldBytes + pos) => hfit (h.anti (by omega))]

theorem readField_delimiter (h : DelimiterAt boundary w 0) (hfit : FitsField limits fieldBytes) :
    readField limits boundary seen fieldBytes w =
      (readAfterDelimiter limits boundary seen
        (decide (Occurs (delimiterLine boundary true) w 0))
        (w.drop (boundary.length + 6))).after .fieldEnd := by
  have hfirst : First (DelimiterAt boundary w) 0 (some 0) :=
    first_some le_rfl h fun j _ hj => absurd hj (Nat.not_lt_zero j)
  rw [readField, readData, findDelimiter_eq hfirst]
  simp only [Nat.add_zero, hfit, if_true, List.take_zero, Nat.zero_add]
  rfl

end

end Camber.Multipart
