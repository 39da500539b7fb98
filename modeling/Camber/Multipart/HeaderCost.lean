import Camber.Lib.Utf8
import Camber.Multipart.Parser

/-! The metadata copied out of a header block never takes more bytes than the block. -/

namespace Camber.Multipart
open Str MultipartBufferBudget

theorem unescape_sublist (escaped : Bool) (value : Text) :
    (unescape escaped value).Sublist value := by
  fun_induction unescape escaped value with
  | case1 => exact List.Sublist.refl []
  | case2 ch rest ih => exact ih.cons_cons ch
  | case3 rest ih => exact ih.cons _
  | case4 ch rest _ ih => exact ih.cons_cons ch

theorem decodeQuotedValue_sublist (value : Text) : (decodeQuotedValue value).Sublist value := by
  unfold decodeQuotedValue
  split
  · exact List.Sublist.refl value
  · exact unescape_sublist false value

theorem parseParameterValue_sublist {value : Text} {parsed : ParameterValue}
    (h : parseParameterValue value = .ok parsed) : parsed.decode.Sublist value := by
  unfold parseParameterValue at h
  split at h
  next quoted hquoted =>
    split at h
    next inner hinner =>
      obtain ⟨-, -, hok⟩ := Except.bind_ok_iff.mp h
      obtain rfl := Except.ok.inj hok
      exact (decodeQuotedValue_sublist inner).trans
        ((stripSuffixChar_sublist hinner).trans (stripPrefixChar_sublist hquoted))
    next => cases h
  next =>
    split_ifs at h
    obtain rfl := Except.ok.inj h
    exact List.Sublist.refl value

variable {parameter : HeaderParameter} {parameters : HeaderParameters}
  {headers result : PartHeaders}

theorem parseParameter_sublist {segment : Text} (h : parseParameter segment = .ok parameter) :
    parameter.value.decode.Sublist segment := by
  unfold parseParameter at h
  split at h
  next => cases h
  next key value hsplit =>
    split_ifs at h
    obtain ⟨parsed, hparsed, hok⟩ := Except.bind_ok_iff.mp h
    obtain rfl := Except.ok.inj hok
    rw [splitOnce_eq_some hsplit]
    have hvalue : value.Sublist (key ++ '=' :: value) :=
      ((List.Sublist.refl value).cons '=').trans (List.sublist_append_right key _)
    exact ((parseParameterValue_sublist hparsed).trans (trim_sublist value)).trans hvalue

theorem splitNextParameterFrom_sublist {read input segment : Text} {inQuotes escaped : Bool}
    {next : Option Text}
    (h : splitNextParameterFrom read inQuotes escaped input = .ok (segment, next)) :
    (segment ++ next.getD []).Sublist (read.reverse ++ input) := by
  induction input generalizing read inQuotes escaped with
  | nil =>
    rw [splitNextParameterFrom] at h
    dsimp only at h
    split_ifs at h
    obtain ⟨rfl, rfl⟩ := Prod.mk.inj (Except.ok.inj h)
    simpa using trim_sublist read.reverse
  | cons ch rest ih =>
    -- the loop goes on with the character moved to `read`, or it meets the separator
    have hmoved : ∀ q e, splitNextParameterFrom (ch :: read) q e rest = .ok (segment, next) →
        (segment ++ next.getD []).Sublist (read.reverse ++ ch :: rest) := by
      intro q e hrest
      have := ih hrest
      rwa [List.reverse_cons, List.append_assoc, List.singleton_append] at this
    rw [splitNextParameterFrom.eq_def] at h
    simp only at h
    split at h
    case h_5 =>
      unfold parameterSegment at h
      split_ifs at h
      obtain ⟨rfl, rfl⟩ := Prod.mk.inj (Except.ok.inj h)
      exact (trim_sublist read.reverse).append ((List.Sublist.refl rest).cons ';')
    all_goals exact hmoved _ _ h

def optionBytes (text : Option Text) : ℕ := text.elim 0 byteLength

/-- The bytes of the values a header block has established so far. -/
def PartHeaders.cost (headers : PartHeaders) : ℕ :=
  optionBytes headers.name + optionBytes headers.filename + optionBytes headers.contentType

def HeaderParameters.bytes (parameters : HeaderParameters) : ℕ := optionBytes parameters.remaining

theorem HeaderParameters.nextParameter_bytes {rest : HeaderParameters}
    (h : parameters.nextParameter = some (.ok parameter, rest)) :
    byteLength parameter.value.decode + rest.bytes ≤ parameters.bytes := by
  unfold nextParameter at h
  split at h
  next => cases h
  next remaining hremaining =>
    split at h
    next segment next hsplit =>
      obtain ⟨hparse, rfl⟩ := Prod.mk.inj (Option.some.inj h)
      have hvalue := byteLength_le_of_sublist (parseParameter_sublist hparse)
      have hcut := byteLength_le_of_sublist (splitNextParameterFrom_sublist hsplit)
      have hnext : byteLength (next.getD []) = optionBytes next := by
        cases next <;> rfl
      rw [byteLength_append, hnext, List.reverse_nil, List.nil_append] at hcut
      simp only [bytes, hremaining, optionBytes, Option.elim_some] at hcut ⊢
      omega
    next => cases Prod.mk.inj (Option.some.inj h) with | intro hparse _ => cases hparse

theorem HeaderParameters.foldWithin_cost {σ : Type} {cost : σ → ℕ}
    {f : σ → HeaderParameter → Except RuntimeError σ}
    (hf : ∀ acc parameter r, f acc parameter = .ok r →
      cost r ≤ cost acc + byteLength parameter.value.decode) {fuel : ℕ} {acc r : σ}
    (h : parameters.foldWithin f fuel acc = .ok r) : cost r ≤ cost acc + parameters.bytes := by
  induction fuel generalizing acc parameters with
  | zero =>
    obtain rfl := Except.ok.inj h
    exact Nat.le_add_right _ _
  | succ fuel ih =>
    rw [foldWithin] at h
    cases hnext : parameters.nextParameter with
    | none =>
      rw [hnext] at h
      obtain rfl := Except.ok.inj h
      exact Nat.le_add_right _ _
    | some next =>
      obtain ⟨result, rest⟩ := next
      rw [hnext] at h
      obtain ⟨parameter, rfl, hstep⟩ := Except.bind_ok_iff.mp h
      obtain ⟨acc', hacc, hrest⟩ := Except.bind_ok_iff.mp hstep
      have hone := hf acc parameter acc' hacc
      have hmany := ih hrest
      have hbytes := nextParameter_bytes hnext
      omega

theorem setOwnedParamOnce_bytes {slot result : Option Text} {value : ParameterValue}
    {duplicate empty : String} (h : setOwnedParamOnce slot value duplicate empty = .ok result) :
    slot = none ∧ optionBytes result = byteLength value.decode := by
  unfold setOwnedParamOnce at h
  split_ifs at h with hslot
  obtain rfl := Except.ok.inj h
  exact ⟨by simpa using hslot, rfl⟩

theorem PartHeaders.absorbDispositionParameter_cost
    (h : headers.absorbDispositionParameter parameter = .ok result) :
    result.cost ≤ headers.cost + byteLength parameter.value.decode := by
  unfold absorbDispositionParameter at h
  split at h
  · obtain ⟨name, hname, hok⟩ := Except.bind_ok_iff.mp h
    obtain rfl := Except.ok.inj hok
    obtain ⟨-, hbytes⟩ := setOwnedParamOnce_bytes hname
    simp only [cost, hbytes]
    omega
  · obtain ⟨filename, hfilename, hok⟩ := Except.bind_ok_iff.mp h
    obtain rfl := Except.ok.inj hok
    obtain ⟨-, hbytes⟩ := setOwnedParamOnce_bytes hfilename
    simp only [cost, hbytes]
    omega
  · obtain rfl := Except.ok.inj h
    exact Nat.le_add_right _ _

theorem splitHeaderParams_bytes {header head : Text}
    (h : splitHeaderParams header = .ok (head, parameters)) :
    parameters.bytes ≤ byteLength header := by
  unfold splitHeaderParams at h
  cases hsplit : splitOnce ';' header with
  | none =>
    simp only [hsplit] at h
    split_ifs at h
    obtain ⟨-, rfl⟩ := Prod.mk.inj (Except.ok.inj h)
    exact Nat.zero_le _
  | some parts =>
    obtain ⟨before, after⟩ := parts
    simp only [hsplit] at h
    split_ifs at h
    obtain ⟨-, rfl⟩ := Prod.mk.inj (Except.ok.inj h)
    rw [splitOnce_eq_some hsplit]
    simp only [HeaderParameters.bytes, optionBytes, Option.elim_some, byteLength_append,
      byteLength_cons]
    omega

theorem PartHeaders.absorbDisposition_cost {headerValue : Text}
    (h : headers.absorbDisposition headerValue = .ok result) :
    result.cost ≤ headers.cost + byteLength headerValue := by
  obtain ⟨⟨disposition, parameters⟩, hsplit, hrest⟩ := Except.bind_ok_iff.mp h
  dsimp only at hrest
  split_ifs at hrest
  obtain ⟨absorbed, habsorbed, hok⟩ := Except.bind_ok_iff.mp hrest
  split_ifs at hok
  obtain rfl := Except.ok.inj hok
  have hfold := HeaderParameters.foldWithin_cost
    (fun _ _ _ => PartHeaders.absorbDispositionParameter_cost) habsorbed
  have := splitHeaderParams_bytes hsplit
  omega

theorem PartHeaders.absorb_cost {headerName headerValue : Text}
    (h : headers.absorb headerName headerValue = .ok result) :
    result.cost ≤ headers.cost + byteLength headerValue := by
  unfold absorb at h
  split at h
  · cases h
  · exact absorbDisposition_cost h
  · cases h
  next hnone =>
    obtain rfl := Except.ok.inj h
    have hempty : headers.contentType = none := by simpa using hnone
    simp [cost, optionBytes, hempty]
  · obtain rfl := Except.ok.inj h
    exact Nat.le_add_right _ _

theorem absorbLines_cost {lines : List Text} (h : absorbLines headers lines = .ok result) :
    result.cost ≤ headers.cost + byteLength lines.flatten := by
  induction lines generalizing headers with
  | nil =>
    obtain rfl := Except.ok.inj h
    exact Nat.le_add_right _ _
  | cons line lines ih =>
    rw [absorbLines] at h
    cases hsplit : splitOnce ':' line with
    | none => simp [hsplit] at h
    | some parts =>
      obtain ⟨name, value⟩ := parts
      rw [hsplit] at h
      obtain ⟨absorbed, habsorbed, hrest⟩ := Except.bind_ok_iff.mp h
      have hone := PartHeaders.absorb_cost habsorbed
      have hmany := ih hrest
      have hvalue := byteLength_le_of_sublist (trim_sublist value)
      rw [List.flatten_cons, byteLength_append, splitOnce_eq_some hsplit, byteLength_append,
        byteLength_cons]
      omega

theorem parseHeaderBlock_cost {raw : Bytes} (h : parseHeaderBlock raw = .ok headers) :
    headers.cost ≤ raw.length := by
  unfold parseHeaderBlock at h
  split at h
  next => cases h
  next text htext =>
    have hlines := absorbLines_cost h
    have hcut := byteLength_le_of_sublist (splitCrlf_sublist text)
    have hdecoded := byteLength_decode htext
    have hdefault : PartHeaders.default.cost = 0 := rfl
    omega

theorem intoMetadata_bytes {metadata : FieldMetadata} (h : intoMetadata headers = .ok metadata) :
    metadata.bytes = headers.cost := by
  unfold intoMetadata at h
  split at h
  next => cases h
  next name hname =>
    split_ifs at h
    obtain rfl := Except.ok.inj h
    simp only [PartHeaders.cost, hname]
    rfl

/-- An error that does not say that the parser's buffer is exhausted. -/
def FromGrammar (e : RuntimeError) : Prop := e ≠ malformed bufferExhausted

@[simp] theorem fromGrammar_malformed {msg : String} :
    FromGrammar (malformed msg) ↔ msg ≠ bufferExhausted := by
  simp [FromGrammar, malformed]

theorem validateQuotedPair_raises (escaped : Option Char) :
    (validateQuotedPair escaped).Raises FromGrammar := by
  unfold validateQuotedPair
  split
  · split_ifs <;> simp [invalidQuotedParameter, bufferExhausted]
  · simp [invalidQuotedParameter, bufferExhausted]

theorem validateQuotedValue_raises (value : Text) :
    (validateQuotedValue value).Raises FromGrammar := by
  fun_induction validateQuotedValue value with
  | case1 => exact Except.raises_ok _
  | case2 => exact validateQuotedPair_raises none
  | case3 escaped rest ih => exact (validateQuotedPair_raises _).bind fun _ _ => ih
  | case4 ch rest _ _ _ ih => exact ih
  | case5 => simp [invalidQuotedParameter, bufferExhausted]

theorem parseParameterValue_raises (value : Text) :
    (parseParameterValue value).Raises FromGrammar := by
  unfold parseParameterValue
  split
  · split
    · exact (validateQuotedValue_raises _).bind fun _ _ => Except.raises_ok _
    · simp [invalidQuotedParameter, bufferExhausted]
  · split_ifs <;> simp [bufferExhausted]

theorem parseParameter_raises (segment : Text) :
    (parseParameter segment).Raises FromGrammar := by
  unfold parseParameter
  split
  · simp [invalidHeaderParameter, bufferExhausted]
  · split_ifs
    · exact (parseParameterValue_raises _).bind fun _ _ => Except.raises_ok _
    · simp [bufferExhausted]

theorem splitNextParameterFrom_raises (read : Text) (inQuotes escaped : Bool) (input : Text) :
    (splitNextParameterFrom read inQuotes escaped input).Raises FromGrammar := by
  induction input generalizing read inQuotes escaped with
  | nil =>
    rw [splitNextParameterFrom]
    dsimp only
    split_ifs <;> simp [invalidQuotedParameter, invalidHeaderParameter,
      bufferExhausted]
  | cons ch rest ih =>
    rw [splitNextParameterFrom.eq_def]
    dsimp only
    split
    case h_5 =>
      unfold parameterSegment
      split_ifs <;> simp [invalidHeaderParameter, bufferExhausted]
    all_goals exact ih _ _ _

theorem HeaderParameters.nextParameter_raises {rest : HeaderParameters}
    {result : Except RuntimeError HeaderParameter}
    (h : parameters.nextParameter = some (result, rest)) : result.Raises FromGrammar := by
  unfold nextParameter at h
  split at h
  next => cases h
  next remaining _ =>
    have hsplit : (splitNextParameter remaining).Raises FromGrammar :=
      splitNextParameterFrom_raises [] false false remaining
    split at h
    next =>
      obtain ⟨rfl, -⟩ := Prod.mk.inj (Option.some.inj h)
      exact parseParameter_raises _
    next e he =>
      obtain ⟨rfl, -⟩ := Prod.mk.inj (Option.some.inj h)
      exact Except.raises_error.mpr (hsplit e he)

theorem HeaderParameters.foldWithin_raises {σ : Type}
    {f : σ → HeaderParameter → Except RuntimeError σ}
    (hf : ∀ acc parameter, (f acc parameter).Raises FromGrammar) (fuel : ℕ) (acc : σ)
    (parameters : HeaderParameters) : (parameters.foldWithin f fuel acc).Raises FromGrammar := by
  induction fuel generalizing acc parameters with
  | zero => exact Except.raises_ok _
  | succ fuel ih =>
    rw [foldWithin]
    cases hnext : parameters.nextParameter with
    | none => exact Except.raises_ok _
    | some next =>
      exact (nextParameter_raises hnext).bind fun parameter _ =>
        (hf acc parameter).bind fun acc' _ => ih acc' next.2

theorem setOwnedParamOnce_raises {slot : Option Text} {value : ParameterValue}
    {duplicate empty : String} (hduplicate : duplicate ≠ bufferExhausted)
    (hempty : empty ≠ bufferExhausted) :
    (setOwnedParamOnce slot value duplicate empty).Raises FromGrammar := by
  unfold setOwnedParamOnce
  split_ifs <;> simp [hduplicate, hempty]

theorem PartHeaders.absorbDispositionParameter_raises (headers : PartHeaders)
    (parameter : HeaderParameter) :
    (headers.absorbDispositionParameter parameter).Raises FromGrammar := by
  unfold absorbDispositionParameter
  split
  · exact (setOwnedParamOnce_raises (by simp [bufferExhausted])
      (by simp [bufferExhausted])).bind fun _ _ => Except.raises_ok _
  · exact (setOwnedParamOnce_raises (by simp [bufferExhausted])
      (by simp [bufferExhausted])).bind fun _ _ => Except.raises_ok _
  · exact Except.raises_ok _

theorem PartHeaders.absorbDisposition_raises (headers : PartHeaders) (headerValue : Text) :
    (headers.absorbDisposition headerValue).Raises FromGrammar := by
  refine Except.Raises.bind ?_ fun parts _ => ?_
  · unfold splitHeaderParams
    dsimp only
    split_ifs <;> simp [bufferExhausted]
  · dsimp only
    split_ifs
    · simp [invalidContentDisposition, bufferExhausted]
    · refine Except.Raises.bind
        (HeaderParameters.foldWithin_raises absorbDispositionParameter_raises _ _ _)
        fun absorbed _ => ?_
      split_ifs <;> simp [invalidContentDisposition, bufferExhausted]

theorem PartHeaders.absorb_raises (headers : PartHeaders) (headerName headerValue : Text) :
    (headers.absorb headerName headerValue).Raises FromGrammar := by
  unfold absorb
  split
  · simp [invalidContentDisposition, bufferExhausted]
  · exact absorbDisposition_raises headers headerValue
  · simp [invalidPartHeaders, bufferExhausted]
  · exact Except.raises_ok _
  · exact Except.raises_ok _

theorem absorbLines_raises (headers : PartHeaders) (lines : List Text) :
    (absorbLines headers lines).Raises FromGrammar := by
  induction lines generalizing headers with
  | nil => exact Except.raises_ok _
  | cons line lines ih =>
    rw [absorbLines]
    cases splitOnce ':' line with
    | none => simp [invalidPartHeaders, bufferExhausted]
    | some parts =>
      exact (PartHeaders.absorb_raises headers _ _).bind fun absorbed _ => ih absorbed

theorem parseHeaderBlock_raises (raw : Bytes) : (parseHeaderBlock raw).Raises FromGrammar := by
  unfold parseHeaderBlock
  split
  · simp [invalidPartHeaders, bufferExhausted]
  · exact absorbLines_raises _ _

theorem intoMetadata_raises (headers : PartHeaders) :
    (intoMetadata headers).Raises FromGrammar := by
  unfold intoMetadata
  split
  · simp [invalidContentDisposition, bufferExhausted]
  · split_ifs <;> simp [nestedMultipart, bufferExhausted]

theorem delimiterClosesAt_raises (bytes : Bytes) (at_ : ℕ) :
    (delimiterClosesAt bytes at_).Raises FromGrammar := by
  unfold delimiterClosesAt
  split
  · exact Except.raises_ok _
  · simp [invalidDelimiterFraming, bufferExhausted]

theorem epilogueCloses_raises (bytes : Bytes) : (epilogueCloses bytes).Raises FromGrammar := by
  unfold epilogueCloses
  split
  · exact Except.raises_ok _
  · exact Except.raises_ok _
  · exact Except.raises_ok _
  · simp [invalidDelimiterFraming, bufferExhausted]

end Camber.Multipart
