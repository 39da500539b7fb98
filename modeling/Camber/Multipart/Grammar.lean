import Camber.Lib.Primitive
import Camber.Basic

/-! Header parameters, quoted values, the boundary a `Content-Type` declares and the headers of one
part. -/

namespace Camber.Multipart
open Str

def malformed (msg : String) : RuntimeError := .multipart msg

def protocolMaxBoundaryBytes : ℕ := 70

def invalidQuotedParameter : String := "invalid multipart quoted parameter"

def invalidHeaderParameter : String := "invalid multipart header parameter"

def invalidBoundary : String := "missing or invalid multipart boundary"

def invalidContentDisposition : String := "invalid multipart content-disposition"

def invalidPartHeaders : String := "invalid multipart part headers"

def invalidDelimiterFraming : String := "invalid multipart delimiter framing"

def isToken (value : Bytes) : Bool :=
  !value.isEmpty && value.all fun byte =>
    Ascii.isAlphanumeric byte ||
      (encode "!#$%&'*+-.^_`|~".toList).contains byte

inductive ParameterValue where
  | quoted (value : Text)
  | unquoted (value : Text)
deriving DecidableEq

structure HeaderParameter where
  name : Text
  value : ParameterValue
deriving DecidableEq

/-- The parameters of a header that are still unread. -/
structure HeaderParameters where
  remaining : Option Text

def isQuotedText (ch : Char) : Bool :=
  ch == '\t' || ch == ' ' || ch == '!' || ('#' ≤ ch && ch ≤ '[') || (']' ≤ ch && ch ≤ '~') ||
    !isAscii ch

def isQuotedPairValue (ch : Char) : Bool :=
  ch == '\t' || (' ' ≤ ch && ch ≤ '~') || !isAscii ch

def validateQuotedPair : Option Char → Except RuntimeError Unit
  | some escaped =>
    if isQuotedPairValue escaped then .ok () else .error (malformed invalidQuotedParameter)
  | none => .error (malformed invalidQuotedParameter)

def validateQuotedValue : Text → Except RuntimeError Unit
  | [] => .ok ()
  | ['\\'] => validateQuotedPair none
  | '\\' :: escaped :: rest => do
    validateQuotedPair (some escaped)
    validateQuotedValue rest
  | ch :: rest =>
    if isQuotedText ch then validateQuotedValue rest
    else .error (malformed invalidQuotedParameter)

def unescape : Bool → Text → Text
  | _, [] => []
  | true, ch :: rest => ch :: unescape false rest
  | false, ch :: rest => if ch = '\\' then unescape true rest else ch :: unescape false rest

def decodeQuotedValue (value : Text) : Text :=
  if !value.contains '\\' then value else unescape false value

def ParameterValue.decode : ParameterValue → Text
  | .unquoted value => value
  | .quoted value => decodeQuotedValue value

def parseParameterValue (value : Text) : Except RuntimeError ParameterValue :=
  match stripPrefixChar '"' value with
  | some quoted =>
    match stripSuffixChar '"' quoted with
    | some inner => do
      validateQuotedValue inner
      .ok (.quoted inner)
    | none => .error (malformed invalidQuotedParameter)
  | none =>
    if isToken (encode value) then .ok (.unquoted value)
    else .error (malformed "invalid multipart unquoted parameter")

def parseParameter (segment : Text) : Except RuntimeError HeaderParameter :=
  match splitOnce '=' segment with
  | none => .error (malformed invalidHeaderParameter)
  | some (key, value) =>
    if isToken (encode (trim key)) then do
      let value ← parseParameterValue (trim value)
      .ok ⟨trim key, value⟩
    else .error (malformed "invalid multipart parameter name")

def parameterSegment (segment remaining : Text) : Except RuntimeError (Text × Option Text) :=
  if segment.isEmpty then .error (malformed invalidHeaderParameter)
  else .ok (segment, some remaining)

/-- The character loop of `split_next_parameter`: `read` holds the characters already passed, last
one first. -/
def splitNextParameterFrom (read : Text) (inQuotes escaped : Bool) :
    Text → Except RuntimeError (Text × Option Text)
  | [] =>
    if inQuotes || escaped then .error (malformed invalidQuotedParameter)
    else
      let segment := trim read.reverse
      if segment.isEmpty then .error (malformed invalidHeaderParameter) else .ok (segment, none)
  | ch :: rest =>
    match inQuotes, escaped, ch with
    | true, true, _ => splitNextParameterFrom (ch :: read) true false rest
    | true, false, '\\' => splitNextParameterFrom (ch :: read) true true rest
    | true, false, '"' => splitNextParameterFrom (ch :: read) false false rest
    | false, _, '"' => splitNextParameterFrom (ch :: read) true escaped rest
    | false, _, ';' => parameterSegment (trim read.reverse) rest
    | _, _, _ => splitNextParameterFrom (ch :: read) inQuotes escaped rest

def splitNextParameter (input : Text) : Except RuntimeError (Text × Option Text) :=
  splitNextParameterFrom [] false false input

def HeaderParameters.nextParameter (ps : HeaderParameters) :
    Option (Except RuntimeError HeaderParameter × HeaderParameters) :=
  match ps.remaining with
  | none => none
  | some remaining =>
    match splitNextParameter remaining with
    | .ok (parameter, next) => some (parseParameter parameter, ⟨next⟩)
    | .error e => some (.error e, ⟨none⟩)

/-- A `for` loop over the parameters, left at the first error. -/
def HeaderParameters.foldWithin {σ : Type} (f : σ → HeaderParameter → Except RuntimeError σ) :
    ℕ → σ → HeaderParameters → Except RuntimeError σ
  | 0, acc, _ => .ok acc
  | fuel + 1, acc, ps =>
    match ps.nextParameter with
    | none => .ok acc
    | some (parameter, rest) => do
      let parameter ← parameter
      let acc ← f acc parameter
      foldWithin f fuel acc rest

def HeaderParameters.turns (ps : HeaderParameters) : ℕ :=
  match ps.remaining with
  | none => 1
  | some remaining => remaining.length + 2

def HeaderParameters.fold {σ : Type} (f : σ → HeaderParameter → Except RuntimeError σ)
    (acc : σ) (ps : HeaderParameters) : Except RuntimeError σ :=
  ps.foldWithin f ps.turns acc

def splitHeaderParams (header : Text) : Except RuntimeError (Text × HeaderParameters) :=
  let (head, remaining) := match splitOnce ';' header with
    | some (head, parameters) => (trim head, some parameters)
    | none => (trim header, none)
  if head.isEmpty then .error (malformed "invalid multipart header")
  else .ok (head, ⟨remaining⟩)

theorem splitNextParameterFrom_shortens {input segment rest : Text} {read : Text} {q e : Bool}
    (h : splitNextParameterFrom read q e input = .ok (segment, some rest)) :
    rest.length < input.length := by
  induction input generalizing read q e with
  | nil =>
    simp only [splitNextParameterFrom] at h
    split_ifs at h; simp at h
  | cons ch input ih =>
    rw [splitNextParameterFrom.eq_def] at h
    simp only at h
    split at h
    all_goals first
      | exact Nat.lt_succ_of_lt (ih h)
      | skip
    rw [parameterSegment] at h
    split_ifs at h
    simp only [Except.ok.injEq, Prod.mk.injEq, Option.some.injEq] at h
    rw [h.2, List.length_cons]
    omega

variable {ps : HeaderParameters} {σ : Type} {boundary contentType : Text} {maxBytes m n : ℕ}

theorem HeaderParameters.nextParameter_turns {rest : HeaderParameters}
    {p : Except RuntimeError HeaderParameter} (h : ps.nextParameter = some (p, rest)) :
    rest.turns < ps.turns := by
  rw [nextParameter] at h
  cases hr : ps.remaining with
  | none => simp [hr] at h
  | some remaining =>
    rw [hr] at h
    cases hs : splitNextParameter remaining with
    | error e =>
      simp only [hs, Option.some.injEq, Prod.mk.injEq] at h
      simp [← h.2, turns, hr]
    | ok r =>
      obtain ⟨segment, next⟩ := r
      simp only [hs, Option.some.injEq, Prod.mk.injEq] at h
      cases next with
      | none => simp [← h.2, turns, hr]
      | some next =>
        have hlt := splitNextParameterFrom_shortens hs
        simp only [← h.2, turns, hr]
        omega

theorem HeaderParameters.foldWithin_turns (f : σ → HeaderParameter → Except RuntimeError σ)
    (ps : HeaderParameters) (acc : σ) (fuel : ℕ) (h : ps.turns ≤ fuel) :
    ps.foldWithin f fuel acc = ps.fold f acc := by
  rw [fold]
  induction fuel using Nat.strong_induction_on generalizing ps acc with
  | _ fuel ih =>
    have hpos : 0 < ps.turns := by
      rw [turns]
      split <;> omega
    obtain ⟨n, rfl⟩ : ∃ n, fuel = n + 1 := ⟨fuel - 1, by omega⟩
    obtain ⟨m, hm⟩ : ∃ m, ps.turns = m + 1 := ⟨ps.turns - 1, by omega⟩
    rw [hm, foldWithin, foldWithin]
    cases hn : ps.nextParameter with
    | none => rfl
    | some r =>
      obtain ⟨p, rest⟩ := r
      have hlt := nextParameter_turns hn
      cases p with
      | error e => rfl
      | ok p =>
        simp only [bind, Except.bind]
        cases f acc p with
        | error e => rfl
        | ok acc' =>
          exact (ih n (by omega) rest acc' (by omega)).trans
            (ih m (by omega) rest acc' (by omega)).symm

theorem HeaderParameters.foldWithin_mono {f g : σ → HeaderParameter → Except RuntimeError σ}
    (hfg : ∀ acc p r, f acc p = .ok r → g acc p = .ok r) {fuel : ℕ} {acc r : σ}
    (h : ps.foldWithin f fuel acc = .ok r) : ps.foldWithin g fuel acc = .ok r := by
  induction fuel generalizing acc ps with
  | zero => exact h
  | succ fuel ih =>
    rw [foldWithin] at h ⊢
    cases hn : ps.nextParameter with
    | none =>
      rw [hn] at h
      exact h
    | some next =>
      simp only [hn, Except.bind_ok_iff] at h ⊢
      obtain ⟨p, hp, acc', hacc, hrest⟩ := h
      exact ⟨p, hp, acc', hfg acc p acc' hacc, ih hrest⟩

theorem HeaderParameters.foldWithin_invariant {P : σ → Prop}
    {f : σ → HeaderParameter → Except RuntimeError σ}
    (hf : ∀ acc p r, P acc → f acc p = .ok r → P r) {fuel : ℕ} {acc r : σ} (hacc : P acc)
    (h : ps.foldWithin f fuel acc = .ok r) : P r := by
  induction fuel generalizing acc ps with
  | zero => exact Except.ok.inj h ▸ hacc
  | succ fuel ih =>
    rw [foldWithin] at h
    cases hn : ps.nextParameter with
    | none =>
      rw [hn] at h
      exact Except.ok.inj h ▸ hacc
    | some next =>
      simp only [hn, Except.bind_ok_iff] at h
      obtain ⟨p, -, acc', hacc', hrest⟩ := h
      exact ih (hf acc p acc' hacc hacc') hrest

def isBoundaryChar (byte : UInt8) : Bool :=
  Ascii.isAlphanumeric byte || (encode "'()+_,-./:=? ".toList).contains byte

def validateBoundaryWithin (boundary : Text) (maxBytes : ℕ) : Except RuntimeError Unit :=
  let validLength := 1 ≤ byteLength boundary ∧
    byteLength boundary ≤ min maxBytes protocolMaxBoundaryBytes
  let validCharacters := (encode boundary).all isBoundaryChar
  let validEnding := boundary.getLast? ≠ some ' '
  if validLength ∧ validCharacters ∧ validEnding then .ok ()
  else .error (malformed invalidBoundary)

/-- The body of the parameter loop of `extract_boundary_within`. -/
def takeBoundary (maxBytes : ℕ) (boundary : Option Text) (parameter : HeaderParameter) :
    Except RuntimeError (Option Text) :=
  if eqIgnoreAsciiCase parameter.name "boundary".toList then
    if boundary.isSome then .error (malformed invalidBoundary)
    else do
      validateBoundaryWithin parameter.value.decode maxBytes
      .ok (some parameter.value.decode)
  else .ok boundary

def extractBoundaryWithin (contentType : Text) (maxBytes : ℕ) : Except RuntimeError Text := do
  let (mediaType, params) ← splitHeaderParams contentType
  if !eqIgnoreAsciiCase mediaType "multipart/form-data".toList then
    .error (malformed invalidBoundary)
  else
    match ← params.fold (takeBoundary maxBytes) none with
    | some boundary => .ok boundary
    | none => .error (malformed invalidBoundary)

theorem validateBoundaryWithin_ok :
    validateBoundaryWithin boundary maxBytes = .ok () ↔
      (1 ≤ byteLength boundary ∧ byteLength boundary ≤ min maxBytes protocolMaxBoundaryBytes) ∧
        (encode boundary).all isBoundaryChar ∧ boundary.getLast? ≠ some ' ' := by
  rw [validateBoundaryWithin]
  split_ifs with h
  · exact ⟨fun _ => h, fun _ => rfl⟩
  · exact ⟨fun e => absurd e (by simp), fun e => absurd e h⟩

theorem validateBoundaryWithin_mono (hmn : m ≤ n) (h : validateBoundaryWithin boundary m = .ok ()) :
    validateBoundaryWithin boundary n = .ok () := by
  rw [validateBoundaryWithin_ok] at h ⊢
  exact ⟨⟨h.1.1, h.1.2.trans (min_le_min_right _ hmn)⟩, h.2⟩

theorem takeBoundary_eq_ok {acc : Option Text} {p : HeaderParameter} {r : Option Text}
    (h : takeBoundary maxBytes acc p = .ok r) :
    r = acc ∨ validateBoundaryWithin p.value.decode maxBytes = .ok () ∧
      r = some p.value.decode := by
  rw [takeBoundary] at h
  split_ifs at h
  · obtain ⟨_, hv, h⟩ := Except.bind_ok_iff.mp h
    exact Or.inr ⟨hv, (Except.ok.inj h).symm⟩
  · exact Or.inl (Except.ok.inj h).symm

theorem takeBoundary_mono (hmn : m ≤ n) {acc : Option Text} {p : HeaderParameter} {r : Option Text}
    (h : takeBoundary m acc p = .ok r) : takeBoundary n acc p = .ok r := by
  rw [takeBoundary] at h ⊢
  split_ifs at h ⊢
  · obtain ⟨_, hv, h⟩ := Except.bind_ok_iff.mp h
    exact Except.bind_ok_iff.mpr ⟨(), validateBoundaryWithin_mono hmn hv, h⟩
  · exact h

theorem extractBoundaryWithin_eq_ok :
    extractBoundaryWithin contentType maxBytes = .ok boundary ↔
      ∃ mediaType params, splitHeaderParams contentType = .ok (mediaType, params) ∧
        eqIgnoreAsciiCase mediaType "multipart/form-data".toList = true ∧
        params.fold (takeBoundary maxBytes) none = .ok (some boundary) := by
  simp only [extractBoundaryWithin, Except.bind_ok_iff]
  constructor
  · rintro ⟨⟨mediaType, params⟩, hs, h⟩
    simp only at h
    split_ifs at h with hm
    obtain ⟨r, hr, h⟩ := Except.bind_ok_iff.mp h
    cases r with
    | none => simp at h
    | some b =>
      obtain rfl := Except.ok.inj h
      exact ⟨mediaType, params, hs, by simpa using hm, hr⟩
  · rintro ⟨mediaType, params, hs, hm, hr⟩
    refine ⟨(mediaType, params), hs, ?_⟩
    simp only [hm, Bool.not_true, Bool.false_eq_true, if_false]
    exact Except.bind_ok_iff.mpr ⟨some boundary, hr, rfl⟩

theorem extractBoundaryWithin_valid (h : extractBoundaryWithin contentType maxBytes = .ok boundary) :
    validateBoundaryWithin boundary maxBytes = .ok () := by
  obtain ⟨_, params, -, -, hfold⟩ := extractBoundaryWithin_eq_ok.mp h
  refine HeaderParameters.foldWithin_invariant
    (P := fun acc => ∀ b ∈ acc, validateBoundaryWithin b maxBytes = .ok ()) ?_ (by simp) hfold
    boundary rfl
  intro acc p r hacc hr
  rcases takeBoundary_eq_ok hr with rfl | ⟨hv, rfl⟩
  · exact hacc
  · intro b hb
    rwa [← Option.some.inj hb]

theorem extractBoundaryWithin_mono (hmn : m ≤ n)
    (h : extractBoundaryWithin contentType m = .ok boundary) :
    extractBoundaryWithin contentType n = .ok boundary := by
  obtain ⟨mediaType, params, hs, hm, hfold⟩ := extractBoundaryWithin_eq_ok.mp h
  exact extractBoundaryWithin_eq_ok.mpr ⟨mediaType, params, hs, hm,
    HeaderParameters.foldWithin_mono (fun _ _ _ => takeBoundary_mono hmn) hfold⟩

structure PartHeaders where
  name : Option Text
  filename : Option Text
  contentType : Option Text

def PartHeaders.default : PartHeaders := ⟨none, none, none⟩

def setOwnedParamOnce (slot : Option Text) (value : ParameterValue) (duplicate empty : String) :
    Except RuntimeError (Option Text) :=
  if slot.isSome then .error (malformed duplicate)
  else if value.decode.isEmpty then .error (malformed empty)
  else .ok (some value.decode)

/-- The body of the parameter loop of `absorb_disposition_parameters`. -/
def PartHeaders.absorbDispositionParameter (headers : PartHeaders) (parameter : HeaderParameter) :
    Except RuntimeError PartHeaders :=
  match eqIgnoreAsciiCase parameter.name "name".toList,
    eqIgnoreAsciiCase parameter.name "filename".toList with
  | true, false => do
    let name ← setOwnedParamOnce headers.name parameter.value
      "multipart content-disposition repeats the name parameter"
      "multipart content-disposition names an empty field"
    .ok { headers with name }
  | false, true => do
    let filename ← setOwnedParamOnce headers.filename parameter.value
      "multipart content-disposition repeats the filename parameter"
      "multipart content-disposition carries an empty filename"
    .ok { headers with filename }
  | _, _ => .ok headers

def PartHeaders.absorbDispositionParameters (headers : PartHeaders)
    (parameters : HeaderParameters) : Except RuntimeError PartHeaders :=
  parameters.fold PartHeaders.absorbDispositionParameter headers

def PartHeaders.absorbDisposition (headers : PartHeaders) (headerValue : Text) :
    Except RuntimeError PartHeaders := do
  let (disposition, parameters) ← splitHeaderParams headerValue
  if !eqIgnoreAsciiCase disposition "form-data".toList then
    .error (malformed invalidContentDisposition)
  else
    let headers ← headers.absorbDispositionParameters parameters
    if headers.name.isSome then .ok headers else .error (malformed invalidContentDisposition)

def PartHeaders.absorb (headers : PartHeaders) (headerName headerValue : Text) :
    Except RuntimeError PartHeaders :=
  match eqIgnoreAsciiCase headerName "content-disposition".toList,
    eqIgnoreAsciiCase headerName "content-type".toList,
    headers.name.isSome, headers.contentType.isSome with
  | true, false, true, _ => .error (malformed invalidContentDisposition)
  | true, false, false, _ => headers.absorbDisposition headerValue
  | false, true, _, true => .error (malformed invalidPartHeaders)
  | false, true, _, false => .ok { headers with contentType := some headerValue }
  | _, _, _, _ => .ok headers

/-- The line loop of `parse_header_block`. -/
def absorbLines : PartHeaders → List Text → Except RuntimeError PartHeaders
  | headers, [] => .ok headers
  | headers, line :: lines =>
    match splitOnce ':' line with
    | none => .error (malformed invalidPartHeaders)
    | some (name, value) => do
      let headers ← headers.absorb (trim name) (trim value)
      absorbLines headers lines

def parseHeaderBlock (raw : Bytes) : Except RuntimeError PartHeaders :=
  match decode raw with
  | none => .error (malformed invalidPartHeaders)
  | some text => absorbLines .default (splitCrlf text)

end Camber.Multipart
