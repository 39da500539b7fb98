import Camber.Proxy.Target

/-! A query or a form body is split into segments at `&` and each segment at its first `=` before
anything is decoded. -/

namespace Camber.Form

open Str Proxy

inductive SegmentAdmission where
  | anyKey
  | namedKey

def SegmentAdmission.admits : SegmentAdmission → Text → Bool
  | .anyKey, _ => true
  | .namedKey, key => !key.isEmpty

/-- The bytes the loop of `percent_decode_into` pushes. -/
def decodeBytes : Bytes → Bytes
  | [] => []
  | b :: hi :: lo :: rest =>
    if b = 37 then
      match decodeHexPair hi lo with
      | some byte => byte :: decodeBytes rest
      | none => 37 :: decodeBytes (hi :: lo :: rest)
    else (if b = 43 then 32 else b) :: decodeBytes (hi :: lo :: rest)
  | b :: rest => (if b = 43 then 32 else b) :: decodeBytes rest

def percentDecodeInto (encoded : Text) (scratch : Bytes) : Text × Bytes :=
  let scratch := scratch.take 0
  let scratch := scratch ++ decodeBytes (encode encoded)
  match decode scratch with
  | some valid => (valid, scratch)
  | none => (decodeLossy scratch, scratch)

def decodeSegment (segment : Text) (admission : SegmentAdmission) (scratch : Bytes) :
    Option (Text × Text) × Bytes :=
  let (key, value) := (splitOnce '=' segment).getD (segment, [])
  if admission.admits key then
    let (decodedKey, scratch) := percentDecodeInto key scratch
    let (decodedValue, scratch) := percentDecodeInto value scratch
    (some (decodedKey, decodedValue), scratch)
  else (none, scratch)

def decodeSegments (admission : SegmentAdmission) : List Text → Bytes → List (Text × Text)
  | [], _ => []
  | segment :: segments, scratch =>
    let (pair, scratch) := decodeSegment segment admission scratch
    pair.toList ++ decodeSegments admission segments scratch

def parseUrlencoded (input : Text) (admission : SegmentAdmission) : List (Text × Text) :=
  if input.isEmpty then []
  else decodeSegments admission ((input.splitOn '&').filter fun segment => !segment.isEmpty) []

def EscapesByte (b : UInt8) (e : Text) : Prop :=
  ∃ hi lo, e = ['%', hi, lo] ∧ Hex.Spells (b >>> 4) hi ∧ Hex.Spells (b &&& 0x0F) lo

def isReserved (c : Char) : Bool := c = '%' || c = '+' || c = '&' || c = '='

/-- The ways to write a character of a component. -/
inductive EncodesChar : Char → Text → Prop
  | literal {c : Char} (h : isReserved c = false) : EncodesChar c [c]
  | plus : EncodesChar ' ' ['+']
  | escaped {c : Char} {es : List Text} (h : List.Forall₂ EscapesByte (String.utf8EncodeChar c) es) :
      EncodesChar c es.flatten

def Encodes (t e : Text) : Prop := ∃ es, List.Forall₂ EncodesChar t es ∧ e = es.flatten

def EncodesPair (admission : SegmentAdmission) (pair : Text × Text) (segment : Text) : Prop :=
  ∃ key value, Encodes pair.1 key ∧ Encodes pair.2 value ∧ segment = key ++ '=' :: value ∧
    admission.admits key = true

theorem decodeBytes_literal {b : UInt8} (hpercent : b ≠ 37) (hplus : b ≠ 43) (rest : Bytes) :
    decodeBytes (b :: rest) = b :: decodeBytes rest := by
  match rest with
  | [] => simp [decodeBytes, hplus]
  | [_] => simp [decodeBytes, hplus]
  | _ :: _ :: _ => rw [decodeBytes, if_neg hpercent, if_neg hplus]

theorem decodeBytes_plus (rest : Bytes) : decodeBytes (43 :: rest) = 32 :: decodeBytes rest := by
  match rest with
  | [] => rfl
  | [_] => rfl
  | _ :: _ :: _ => rfl

variable {e t : Text} {c : Char}

theorem decodeBytes_escape {b : UInt8} (h : EscapesByte b e) (rest : Bytes) :
    decodeBytes (encode e ++ rest) = b :: decodeBytes rest := by
  obtain ⟨hi, lo, rfl, hhi, hlo⟩ := h
  obtain ⟨hsmall, hsmall', hjoin⟩ := Hex.join_halves b
  obtain ⟨-, x, hx, hxv⟩ := Hex.value_of_spells hsmall hhi
  obtain ⟨-, y, hy, hyv⟩ := Hex.value_of_spells hsmall' hlo
  have henc : encode ['%', hi, lo] = [37, x, y] := by
    rw [encode_cons, encode_cons, encode_cons, hx, hy]
    rfl
  have hpair : decodeHexPair x y = some b := by
    rw [decodeHexPair, hexDigit, hxv, hyv, Option.bind_some, Option.map_some, hjoin]
  rw [henc]
  simp only [List.cons_append, List.nil_append]
  rw [decodeBytes, if_pos rfl, hpair]

theorem decodeBytes_escapes {bs : Bytes} {es : List Text} (h : List.Forall₂ EscapesByte bs es)
    (rest : Bytes) : decodeBytes (encode es.flatten ++ rest) = bs ++ decodeBytes rest := by
  induction h with
  | nil => rfl
  | cons hb _ ih =>
    rw [List.flatten_cons, encode_append, List.append_assoc, decodeBytes_escape hb, ih]
    rfl

theorem decodeBytes_unreserved (h : isReserved c = false) (rest : Bytes) :
    decodeBytes (String.utf8EncodeChar c ++ rest) = String.utf8EncodeChar c ++ decodeBytes rest := by
  have hbytes : ∀ b ∈ String.utf8EncodeChar c, b ≠ 37 ∧ b ≠ 43 := by
    intro b hb
    constructor
    · rintro rfl
      obtain ⟨-, rfl⟩ := utf8EncodeChar_of_ascii hb (by decide)
      exact absurd h (by decide)
    · rintro rfl
      obtain ⟨-, rfl⟩ := utf8EncodeChar_of_ascii hb (by decide)
      exact absurd h (by decide)
  generalize String.utf8EncodeChar c = bs at hbytes
  induction bs with
  | nil => rfl
  | cons b bs ih =>
    obtain ⟨hpercent, hplus⟩ := hbytes b List.mem_cons_self
    rw [List.cons_append, decodeBytes_literal hpercent hplus,
      ih fun b hb => hbytes b (List.mem_cons_of_mem _ hb), List.cons_append]

theorem decodeBytes_encodesChar (h : EncodesChar c e) (rest : Bytes) :
    decodeBytes (encode e ++ rest) = String.utf8EncodeChar c ++ decodeBytes rest := by
  cases h with
  | literal hc =>
    have henc : encode [c] = String.utf8EncodeChar c := by
      rw [encode_cons]
      exact List.append_nil _
    rw [henc, decodeBytes_unreserved hc]
  | plus => exact decodeBytes_plus rest
  | escaped hbytes => exact decodeBytes_escapes hbytes rest

theorem decodeBytes_encodes (h : Encodes t e) : decodeBytes (encode e) = encode t := by
  obtain ⟨es, hes, rfl⟩ := h
  induction hes with
  | nil => rfl
  | cons hc _ ih =>
    rw [List.flatten_cons, encode_append, decodeBytes_encodesChar hc, ih, ← encode_cons]

theorem percentDecodeInto_encodes (h : Encodes t e) (scratch : Bytes) :
    percentDecodeInto e scratch = (t, encode t) := by
  unfold percentDecodeInto
  simp only [List.take_zero, List.nil_append, decodeBytes_encodes h, decode_encode]

theorem exists_of_forall₂ {α β : Type} {R : α → β → Prop} {as : List α} {bs : List β}
    (h : List.Forall₂ R as bs) {b : β} (hb : b ∈ bs) : ∃ a, R a b := by
  induction h with
  | nil => cases hb
  | cons hR _ ih =>
    rcases List.mem_cons.mp hb with rfl | hb
    · exact ⟨_, hR⟩
    · exact ih hb

theorem notMem_flatten_of_forall₂ {α : Type} {R : α → Text → Prop} {as : List α} {es : List Text}
    (h : List.Forall₂ R as es) (hR : ∀ a e, R a e → c ∉ e) : c ∉ es.flatten := by
  intro hmem
  obtain ⟨e, he, hc⟩ := List.mem_flatten.mp hmem
  obtain ⟨a, ha⟩ := exists_of_forall₂ h he
  exact hR a e ha hc

theorem notMem_of_encodes {sep : Char} (hreserved : isReserved sep = true)
    (hdigit : Hex.isDigit sep = false) (hpercent : sep ≠ '%') (hplus : sep ≠ '+') (h : Encodes t e) :
    sep ∉ e := by
  have hescape : ∀ b e, EscapesByte b e → sep ∉ e := by
    rintro b e ⟨hi, lo, rfl, hhi, hlo⟩
    obtain ⟨hsmall, hsmall', _⟩ := Hex.join_halves b
    have hspelled : ∀ {c}, Hex.isDigit c = true → sep ≠ c := by
      rintro c hc rfl
      rw [hdigit] at hc
      cases hc
    simp [hpercent, hspelled (Hex.value_of_spells hsmall hhi).1,
      hspelled (Hex.value_of_spells hsmall' hlo).1]
  obtain ⟨es, hes, rfl⟩ := h
  refine notMem_flatten_of_forall₂ hes fun c e hc => ?_
  cases hc with
  | literal hc =>
    intro hmem
    rw [← List.mem_singleton.mp hmem, hreserved] at hc
    cases hc
  | plus => simp [hplus]
  | escaped hbytes => exact notMem_flatten_of_forall₂ hbytes hescape

theorem equals_notMem (h : Encodes t e) : '=' ∉ e :=
  notMem_of_encodes (by decide) (by decide) (by decide) (by decide) h

theorem ampersand_notMem (h : Encodes t e) : '&' ∉ e :=
  notMem_of_encodes (by decide) (by decide) (by decide) (by decide) h

theorem decodeSegment_encodesPair {admission : SegmentAdmission} {pair : Text × Text}
    {segment : Text} (h : EncodesPair admission pair segment) (scratch : Bytes) :
    ∃ scratch', decodeSegment segment admission scratch = (some pair, scratch') := by
  obtain ⟨key, value, hkey, hvalue, rfl, hadmits⟩ := h
  refine ⟨encode pair.2, ?_⟩
  unfold decodeSegment
  rw [splitOnce_append (equals_notMem hkey), Option.getD_some]
  simp only [hadmits, if_true, percentDecodeInto_encodes hkey, percentDecodeInto_encodes hvalue]

theorem decodeSegments_encodes {admission : SegmentAdmission} {pairs : List (Text × Text)}
    {segments : List Text} (h : List.Forall₂ (EncodesPair admission) pairs segments)
    (scratch : Bytes) : decodeSegments admission segments scratch = pairs := by
  induction h generalizing scratch with
  | nil => rfl
  | cons hpair _ ih =>
    obtain ⟨scratch', hsegment⟩ := decodeSegment_encodesPair hpair scratch
    rw [decodeSegments, hsegment]
    simp [ih scratch']

/-- A written form is read back: `segments` are the written pairs in order with any empty segments
between them. -/
theorem parseUrlencoded_encodes {admission : SegmentAdmission} {pairs : List (Text × Text)}
    {segments : List Text}
    (h : List.Forall₂ (EncodesPair admission) pairs
      (segments.filter fun segment => !segment.isEmpty)) :
    parseUrlencoded (['&'].intercalate segments) admission = pairs := by
  have hamp : ∀ segment ∈ segments, '&' ∉ segment := by
    intro segment hmem
    by_cases hempty : segment.isEmpty
    · simp [List.isEmpty_iff.mp hempty]
    · obtain ⟨pair, key, value, hkey, hvalue, rfl, _⟩ :=
        exists_of_forall₂ h (List.mem_filter.mpr ⟨hmem, by simpa using hempty⟩)
      simp [ampersand_notMem hkey, ampersand_notMem hvalue]
  unfold parseUrlencoded
  by_cases hsegments : segments = []
  · subst hsegments
    obtain rfl := List.forall₂_nil_right_iff.mp h
    rfl
  · have hsplit := List.splitOn_intercalate '&' hamp hsegments
    split
    next hempty =>
      rw [List.isEmpty_iff.mp hempty] at hsplit
      rw [← hsplit] at h
      exact (List.forall₂_nil_right_iff.mp h).symm
    next =>
      rw [hsplit]
      exact decodeSegments_encodes h []

def sampleSegments : List Text := [[], "a+b=%C3%a9".toList, [], "a=+".toList]

def samplePairs : List (Text × Text) := [("a b".toList, "é".toList), ("a".toList, " ".toList)]

theorem parseUrlencoded_encodes_sampleSegments :
    List.Forall₂ (EncodesPair .namedKey) samplePairs
        (sampleSegments.filter fun segment => !segment.isEmpty) ∧
      parseUrlencoded "&a+b=%C3%a9&&a=+".toList .namedKey = samplePairs := by
  have hkey : Encodes "a b".toList "a+b".toList :=
    ⟨[['a'], ['+'], ['b']],
      .cons (.literal rfl) (.cons .plus (.cons (.literal rfl) .nil)), rfl⟩
  have hbytes : List.Forall₂ EscapesByte (String.utf8EncodeChar 'é')
      ["%C3".toList, "%a9".toList] := by
    have henc : String.utf8EncodeChar 'é' = [0xC3, 0xA9] := by decide
    rw [henc]
    refine .cons ⟨'C', '3', rfl, ?_, ?_⟩ (.cons ⟨'a', '9', rfl, ?_, ?_⟩ .nil)
    · exact .inr (by decide)
    · exact .inl (by decide)
    · exact .inl (by decide)
    · exact .inl (by decide)
  have hvalue : Encodes "é".toList "%C3%a9".toList :=
    ⟨["%C3%a9".toList], .cons (.escaped hbytes) .nil, rfl⟩
  have hfilter : (sampleSegments.filter fun segment => !segment.isEmpty) =
      ["a+b".toList ++ '=' :: "%C3%a9".toList, "a".toList ++ '=' :: "+".toList] := by
    decide
  have hjoin : ['&'].intercalate sampleSegments = "&a+b=%C3%a9&&a=+".toList := by
    decide
  have h : List.Forall₂ (EncodesPair .namedKey) samplePairs
      (sampleSegments.filter fun segment => !segment.isEmpty) := by
    rw [hfilter]
    have hspace : EncodesPair .namedKey ("a".toList, " ".toList) ("a".toList ++ '=' :: "+".toList) :=
      ⟨_, _, ⟨[['a']], .cons (.literal rfl) .nil, rfl⟩, ⟨[['+']], .cons .plus .nil, rfl⟩, rfl, rfl⟩
    exact .cons ⟨_, _, hkey, hvalue, rfl, rfl⟩ (.cons hspace .nil)
  refine ⟨h, ?_⟩
  rw [← hjoin]
  exact parseUrlencoded_encodes h

end Camber.Form
