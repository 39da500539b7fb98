import Camber.Multipart.Delimiter

/-! Every limit set a parser runs under satisfies the peaks `build` requires. -/

namespace Camber.Multipart

structure LimitValues where
  maxFields : ℕ
  maxFieldBytes : ℕ
  maxHeadersPerField : ℕ
  maxHeaderBytesPerField : ℕ
  maxBoundaryBytes : ℕ
  maxChunkBytes : ℕ
  maxParserBufferBytes : ℕ

namespace LimitValues

def invalid (message : String) : RuntimeError := .invalidArgument message

def zeroLimit : String := "multipart limits must all be greater than zero"

def positive (value : ℕ) : Except RuntimeError Unit :=
  if value > 0 then .ok () else .error (invalid zeroLimit)

def delimiterCarryBytes (limits : LimitValues) : ℕ := delimiterCarryOver limits.maxBoundaryBytes

def headerPeak (limits : LimitValues) : Option ℕ :=
  Usize.checkedMul limits.maxHeaderBytesPerField 2

def chunkPeak (limits : LimitValues) : Option ℕ :=
  Usize.checkedAdd limits.maxChunkBytes limits.delimiterCarryBytes

def requiredParserBufferBytes (limits : LimitValues) : Except RuntimeError ℕ :=
  match limits.headerPeak with
  | none => .error (invalid "multipart max_header_bytes_per_field overflows its parser peak")
  | some header =>
    match limits.chunkPeak with
    | none => .error (invalid "multipart max_chunk_bytes overflows its parser peak")
    | some chunk => .ok (max header chunk)

/-- The checks of `MultipartLimitsBuilder::build`, in its order. -/
def check (limits : LimitValues) : Except RuntimeError Unit := do
  positive limits.maxFields
  positive limits.maxFieldBytes
  positive limits.maxHeadersPerField
  positive limits.maxHeaderBytesPerField
  positive limits.maxBoundaryBytes
  positive limits.maxChunkBytes
  positive limits.maxParserBufferBytes
  if limits.maxBoundaryBytes > protocolMaxBoundaryBytes then
    .error (invalid "multipart max_boundary_bytes cannot exceed the protocol maximum of 70")
  else
    let required ← limits.requiredParserBufferBytes
    if limits.maxParserBufferBytes ≥ required then .ok ()
    else .error (invalid
      "multipart max_parser_buffer_bytes is below the peak the other limits require")

end LimitValues

structure MultipartLimits extends LimitValues where
  accepted : toLimitValues.check = .ok ()

def LimitValues.build (limits : LimitValues) : Except RuntimeError MultipartLimits :=
  match h : limits.check with
  | .ok () => .ok ⟨limits, h⟩
  | .error e => .error e

theorem LimitValues.positive_eq_ok {value : ℕ} : positive value = .ok () ↔ 0 < value := by
  rw [positive]
  split_ifs with h
  · simpa using h
  · simpa using h

def LimitValues.peak (limits : LimitValues) : ℕ :=
  max (limits.maxHeaderBytesPerField * 2) (limits.maxChunkBytes + (limits.maxBoundaryBytes + 5))

structure LimitValues.Sound (limits : LimitValues) : Prop where
  maxFields_pos : 0 < limits.maxFields
  maxFieldBytes_pos : 0 < limits.maxFieldBytes
  maxHeadersPerField_pos : 0 < limits.maxHeadersPerField
  maxHeaderBytesPerField_pos : 0 < limits.maxHeaderBytesPerField
  maxBoundaryBytes_pos : 0 < limits.maxBoundaryBytes
  maxChunkBytes_pos : 0 < limits.maxChunkBytes
  boundary_le : limits.maxBoundaryBytes ≤ protocolMaxBoundaryBytes
  peak_fits : limits.peak ≤ limits.maxParserBufferBytes
  peak_le_usize : limits.peak ≤ Usize.max

theorem LimitValues.requiredParserBufferBytes_eq_ok {limits : LimitValues} {required : ℕ}
    (h : limits.requiredParserBufferBytes = .ok required) :
    required = limits.peak ∧ limits.peak ≤ Usize.max := by
  rw [requiredParserBufferBytes] at h
  split at h
  · simp at h
  · rename_i header hh
    split at h
    · simp at h
    · rename_i chunk hc
      obtain ⟨hhle, rfl⟩ := Usize.checkedMul_eq_some.mp hh
      obtain ⟨hcle, rfl⟩ := Usize.checkedAdd_eq_some.mp hc
      exact ⟨(Except.ok.inj h).symm, max_le hhle hcle⟩

theorem MultipartLimits.sound (limits : MultipartLimits) : limits.Sound := by
  have h := limits.accepted
  simp only [LimitValues.check, Except.bind_ok_iff] at h
  obtain ⟨_, h1, _, h2, _, h3, _, h4, _, h5, _, h6, _, _, h⟩ := h
  split_ifs at h with hb
  rw [Except.bind_ok_iff] at h
  obtain ⟨required, hr, h⟩ := h
  split_ifs at h with hp
  obtain ⟨rfl, hu⟩ := LimitValues.requiredParserBufferBytes_eq_ok hr
  exact ⟨LimitValues.positive_eq_ok.mp h1, LimitValues.positive_eq_ok.mp h2,
    LimitValues.positive_eq_ok.mp h3, LimitValues.positive_eq_ok.mp h4,
    LimitValues.positive_eq_ok.mp h5, LimitValues.positive_eq_ok.mp h6, by omega, hp, hu⟩

def LimitValues.defaults : LimitValues where
  maxFields := 128
  maxFieldBytes := 8 * 1024 * 1024
  maxHeadersPerField := 32
  maxHeaderBytesPerField := 16 * 1024
  maxBoundaryBytes := protocolMaxBoundaryBytes
  maxChunkBytes := 64 * 1024
  maxParserBufferBytes := 128 * 1024

def MultipartLimits.default : MultipartLimits := ⟨LimitValues.defaults, by decide⟩

end Camber.Multipart
