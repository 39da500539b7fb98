import Camber.Lib.Hex

/-! A trace context is written as its version, the trace id, the span id and the flags in
hexadecimal. -/

namespace Camber.Telemetry

open Str

abbrev Ident (n : ℕ) := {bytes : Bytes // bytes.length = n}

def Ident.zero (n : ℕ) : Ident n := ⟨List.replicate n 0, List.length_replicate⟩

structure TraceContext where
  traceId : Ident 16
  spanId : Ident 8
  flags : UInt8

def pushHex (buf : Text) (bytes : Bytes) : Text := buf ++ Hex.spell bytes

def formatTraceparent (context : TraceContext) : Text :=
  let buf := "00-".toList
  let buf := pushHex buf context.traceId.1
  let buf := buf ++ ['-']
  let buf := pushHex buf context.spanId.1
  let buf := buf ++ ['-']
  pushHex buf [context.flags]

inductive Panic where
  | notCharBoundary

def slice (bytes : Bytes) (first last : ℕ) : Except Panic Bytes :=
  if isCharBoundary bytes first && isCharBoundary bytes last then
    .ok ((bytes.take last).drop first)
  else .error .notCharBoundary

abbrev hexVal : UInt8 → Option UInt8 := Hex.value

/-- The pairs are read digit by digit with `hexVal`. -/
def hexDecode (n : ℕ) (hex : Bytes) : Option (Ident n) :=
  if hlen : hex.length = n * 2 then
    match hout : Hex.decodePairs hex with
    | some out => some ⟨out, by have := Hex.length_decodePairs hout; omega⟩
    | none => none
  else none

def parseTraceparent (value : Text) : Except Panic (Option TraceContext) :=
  let bytes := encode value
  if bytes.length = 55 ∧ bytes[0]? = some 48 ∧ bytes[1]? = some 48 ∧ bytes[2]? = some 45 ∧
      bytes[35]? = some 45 ∧ bytes[52]? = some 45 then do
    let hex ← slice bytes 3 35
    match hexDecode 16 hex with
    | none => pure none
    | some traceId =>
      let hex ← slice bytes 36 52
      match hexDecode 8 hex with
      | none => pure none
      | some spanId =>
        let hex ← slice bytes 53 55
        match Hex.parseU8 hex with
        | none => pure none
        | some flags =>
          if traceId = Ident.zero 16 ∨ spanId = Ident.zero 8 then pure none
          else pure (some ⟨traceId, spanId, flags⟩)
  else pure none

def joined (trace span flags : Text) : Text :=
  "00-".toList ++ (trace ++ '-' :: (span ++ '-' :: flags))

/-- A row of `n` hexadecimal digits that are not all zero. -/
structure Identifies (n : ℕ) (t : Text) : Prop where
  length : t.length = n
  digits : ∀ c ∈ t, Hex.isDigit c = true
  nonzero : ∃ c ∈ t, c ≠ '0'

def WellFormed (value : Text) : Prop :=
  ∃ trace span flags, value = joined trace span flags ∧ Identifies 32 trace ∧
    Identifies 16 span ∧ flags.length = 2 ∧ ∀ c ∈ flags, Hex.isDigit c = true

def SignedFlags (value : Text) : Prop :=
  ∃ trace span digit, value = joined trace span ['+', digit] ∧ Identifies 32 trace ∧
    Identifies 16 span ∧ Hex.isDigit digit = true

variable {n : ℕ} {t : Text} {context : TraceContext}

theorem hexDecode_eq_some {hex : Bytes} {out : Ident n} :
    hexDecode n hex = some out ↔ Hex.decodePairs hex = some out.1 := by
  unfold hexDecode
  constructor
  · intro h
    split at h
    · split at h
      next out' hout =>
        obtain rfl := Option.some.inj h
        exact hout
      next => cases h
    · cases h
  · intro h
    have hlen := Hex.length_decodePairs h
    rw [out.2] at hlen
    rw [dif_pos hlen]
    split
    next out' hout =>
      obtain rfl : out' = out.1 := Option.some.inj (hout.symm.trans h)
      rfl
    next hout =>
      rw [hout] at h
      cases h

theorem digits_of_encode (h : ∀ b ∈ encode t, ∃ v, hexVal b = some v) :
    t = (encode t).map (fun b => Char.ofNat b.toNat) ∧ ∀ c ∈ t, Hex.isDigit c = true := by
  have hmap := eq_map_of_ascii fun b hb => (Hex.digit_of_value (h b hb).choose_spec).ascii
  refine ⟨hmap, fun c hc => ?_⟩
  rw [hmap] at hc
  obtain ⟨b, hb, rfl⟩ := List.mem_map.mp hc
  exact (Hex.digit_of_value (h b hb).choose_spec).isDigit

theorem encode_of_digits (h : ∀ c ∈ t, Hex.isDigit c = true) :
    (∀ b ∈ encode t, ∃ v, hexVal b = some v) ∧ (encode t).length = t.length := by
  induction t with
  | nil => exact ⟨by simp [encode], rfl⟩
  | cons c rest ih =>
    obtain ⟨b, v, henc, hv, _⟩ := Hex.value_of_isDigit (h c List.mem_cons_self)
    obtain ⟨hdigits, hlen⟩ := ih fun c hc => h c (List.mem_cons_of_mem _ hc)
    have hsplit : encode (c :: rest) = b :: encode rest := by
      rw [encode, List.flatMap_cons, henc]
      rfl
    rw [hsplit]
    refine ⟨fun b' hb => ?_, by simp [hlen]⟩
    rcases List.mem_cons.mp hb with rfl | hb
    · exact ⟨v, hv⟩
    · exact hdigits b' hb

theorem Ident.eq_zero_iff (out : Ident n) : out = Ident.zero n ↔ ∀ b ∈ out.1, b = 0 := by
  rw [Subtype.ext_iff]
  show out.1 = List.replicate n 0 ↔ _
  rw [List.eq_replicate_iff]
  exact and_iff_right out.2

theorem exists_ident_iff :
    (∃ out : Ident n, hexDecode n (encode t) = some out ∧ out ≠ Ident.zero n) ↔
      Identifies (n * 2) t := by
  constructor
  · rintro ⟨out, hout, hne⟩
    rw [hexDecode_eq_some] at hout
    obtain ⟨hmap, hdigits⟩ := digits_of_encode (Hex.spell_of_decodePairs hout).1
    refine ⟨?_, hdigits, ?_⟩
    · have hlen := Hex.length_decodePairs hout
      rw [out.2] at hlen
      rw [hmap, List.length_map, hlen]
    · by_contra hzero
      push Not at hzero
      apply hne
      rw [Ident.eq_zero_iff, Hex.decodePairs_zero_iff hout]
      intro b hb
      apply hzero
      rw [hmap]
      exact List.mem_map_of_mem hb
  · rintro ⟨hlen, hdigits, c, hc, hne⟩
    obtain ⟨hvalues, henc⟩ := encode_of_digits hdigits
    obtain ⟨out, hout⟩ := Hex.exists_decodePairs (henc.trans hlen) hvalues
    have hsize := Hex.length_decodePairs hout
    refine ⟨⟨out, by omega⟩, hexDecode_eq_some.mpr hout, fun hzero => hne ?_⟩
    rw [Ident.eq_zero_iff, Hex.decodePairs_zero_iff hout] at hzero
    rw [(digits_of_encode hvalues).1] at hc
    obtain ⟨b, hb, rfl⟩ := List.mem_map.mp hc
    exact hzero b hb

theorem spell_of_hexDecode {out : Ident n} (h : hexDecode n (encode t) = some out) :
    Hex.spell out.1 = t.map Char.toLower := by
  rw [hexDecode_eq_some] at h
  obtain ⟨hvalues, hspell⟩ := Hex.spell_of_decodePairs h
  rw [hspell]
  conv_rhs => rw [(digits_of_encode hvalues).1, List.map_map]
  rfl

theorem exists_flags_iff (hlen : (encode t).length = 2) :
    (∃ v, Hex.parseU8 (encode t) = some v) ↔
      (t.length = 2 ∧ ∀ c ∈ t, Hex.isDigit c = true) ∨
        ∃ digit, t = ['+', digit] ∧ Hex.isDigit digit = true := by
  obtain ⟨a, b, henc⟩ := List.length_eq_two.mp hlen
  by_cases hsign : a = 43
  · subst hsign
    rw [henc, Hex.parseU8_signed]
    have hsplit : encode t = [] ++ 43 :: [b] := henc
    obtain ⟨front, rest, rfl, hfront, hrest⟩ := encode_split (by decide) hsplit
    obtain rfl : front = [] := by
      cases front with
      | nil => rfl
      | cons c front =>
        obtain ⟨first, tail, hfirst, _⟩ := exists_first_byte c
        simp [encode, hfirst] at hfront
    constructor
    · rintro ⟨v, hv⟩
      obtain ⟨hmap, hdigits⟩ := digits_of_encode (t := rest) (by
        rw [hrest]
        simpa using ⟨v, hv⟩)
      rw [hrest] at hmap
      refine .inr ⟨Char.ofNat b.toNat, ?_, hdigits _ (by rw [hmap]; simp)⟩
      rw [hmap]
      rfl
    · rintro (⟨_, hdigits⟩ | ⟨digit, heq, hdigit⟩)
      · have hplus := hdigits '+' (by simp)
        exact absurd hplus (by decide)
      · obtain ⟨-, rfl⟩ := List.cons.inj heq
        obtain ⟨b', v, henc', hv, _⟩ := Hex.value_of_isDigit hdigit
        obtain rfl : b' = b := by simpa [encode, henc'] using hrest
        exact ⟨v, hv⟩
  · rw [henc, Hex.parseU8_pair hsign, ← henc]
    constructor
    · rintro ⟨v, hv⟩
      obtain ⟨out, hout, _⟩ := Option.bind_eq_some_iff.mp hv
      obtain ⟨hmap, hdigits⟩ := digits_of_encode (Hex.spell_of_decodePairs hout).1
      refine .inl ⟨?_, hdigits⟩
      rw [hmap, List.length_map, hlen]
    · rintro (⟨_, hdigits⟩ | ⟨digit, rfl, _⟩)
      · obtain ⟨out, hout⟩ := Hex.exists_decodePairs (n := 1) hlen (encode_of_digits hdigits).1
        have hsize := Hex.length_decodePairs hout
        obtain ⟨v, rfl⟩ := List.length_eq_one_iff.mp (show out.length = 1 by omega)
        exact ⟨v, by rw [hout]; rfl⟩
      · -- the first byte of such a text is the sign
        exact absurd (List.cons.inj henc).1.symm hsign

theorem spell_of_parseU8 {v : UInt8} (hlen : (encode t).length = 2)
    (hdigits : ∀ c ∈ t, Hex.isDigit c = true) (h : Hex.parseU8 (encode t) = some v) :
    Hex.spell [v] = t.map Char.toLower := by
  obtain ⟨a, b, henc⟩ := List.length_eq_two.mp hlen
  obtain ⟨hvalues, _⟩ := encode_of_digits hdigits
  have hsign : a ≠ 43 := by
    rintro rfl
    obtain ⟨v, hv⟩ := hvalues 43 (by simp [henc])
    cases hv
  rw [henc, Hex.parseU8_pair hsign, ← henc] at h
  obtain ⟨out, hout, hhead⟩ := Option.bind_eq_some_iff.mp h
  have hsize := Hex.length_decodePairs hout
  obtain ⟨w, rfl⟩ := List.length_eq_one_iff.mp (show out.length = 1 by omega)
  obtain rfl : w = v := Option.some.inj hhead
  rw [(Hex.spell_of_decodePairs hout).2]
  conv_rhs => rw [(digits_of_encode hvalues).1, List.map_map]
  rfl

theorem slice_middle (a m z : Text) :
    slice (encode (a ++ (m ++ z))) (encode a).length ((encode a).length + (encode m).length) =
      .ok (encode m) := by
  have hfirst : isCharBoundary (encode (a ++ (m ++ z))) (encode a).length = true := by
    rw [encode_append]
    exact isCharBoundary_append a (m ++ z)
  have hlast : isCharBoundary (encode (a ++ (m ++ z))) ((encode a).length + (encode m).length) =
      true := by
    have h := isCharBoundary_append (a ++ m) z
    rwa [← encode_append, List.append_assoc, encode_append a m, List.length_append] at h
  unfold slice
  rw [hfirst, hlast, encode_append, encode_append]
  simp [List.take_append]

theorem cut_at {i : ℕ} {b : UInt8} (hb : b < 0x80) (h : (encode t)[i]? = some b) :
    ∃ a z, t = a ++ Char.ofNat b.toNat :: z ∧ (encode a).length = i := by
  obtain ⟨hlt, hget⟩ := List.getElem?_eq_some_iff.mp h
  have hsplit : encode t = (encode t).take i ++ b :: (encode t).drop (i + 1) := by
    rw [← hget, List.getElem_cons_drop, List.take_append_drop]
  obtain ⟨a, z, heq, ha, _⟩ := encode_split hb hsplit
  exact ⟨a, z, heq, by rw [ha, List.length_take]; omega⟩

def readFields (trace span flags : Bytes) : Option TraceContext :=
  (hexDecode 16 trace).bind fun traceId => (hexDecode 8 span).bind fun spanId =>
    (Hex.parseU8 flags).bind fun flags =>
      if traceId = Ident.zero 16 ∨ spanId = Ident.zero 8 then none
      else some ⟨traceId, spanId, flags⟩

theorem parse_joined {trace span flags : Text} (htrace : (encode trace).length = 32)
    (hspan : (encode span).length = 16) (hflags : (encode flags).length = 2) :
    parseTraceparent (joined trace span flags) =
      .ok (readFields (encode trace) (encode span) (encode flags)) := by
  have hdash : encode ['-'] = [45] := rfl
  have hbytes : encode (joined trace span flags) =
      [48, 48, 45] ++ (encode trace ++ 45 :: (encode span ++ 45 :: encode flags)) := by
    rw [joined, encode_append, encode_append, encode_cons, encode_append, encode_cons]
    rfl
  have hchecks : (encode (joined trace span flags)).length = 55 ∧
      (encode (joined trace span flags))[0]? = some 48 ∧
      (encode (joined trace span flags))[1]? = some 48 ∧
      (encode (joined trace span flags))[2]? = some 45 ∧
      (encode (joined trace span flags))[35]? = some 45 ∧
      (encode (joined trace span flags))[52]? = some 45 := by
    rw [hbytes]
    refine ⟨by simp [htrace, hspan, hflags], rfl, rfl, rfl, ?_, ?_⟩
    · simp [htrace]
    · simp [List.getElem?_append, htrace, hspan]
  have hfirst : slice (encode (joined trace span flags)) 3 35 = .ok (encode trace) := by
    have h := slice_middle "00-".toList trace ('-' :: (span ++ '-' :: flags))
    rw [htrace] at h
    exact h
  have hsecond : slice (encode (joined trace span flags)) 36 52 = .ok (encode span) := by
    have h := slice_middle ("00-".toList ++ (trace ++ ['-'])) span ('-' :: flags)
    have hlen : (encode ("00-".toList ++ (trace ++ ['-']))).length = 36 := by
      rw [encode_append, encode_append, hdash, List.length_append, List.length_append, htrace]
      rfl
    rw [hlen, hspan] at h
    simpa [joined] using h
  have hthird : slice (encode (joined trace span flags)) 53 55 = .ok (encode flags) := by
    have h := slice_middle ("00-".toList ++ (trace ++ '-' :: (span ++ ['-']))) flags []
    have hlen : (encode ("00-".toList ++ (trace ++ '-' :: (span ++ ['-'])))).length = 53 := by
      rw [encode_append, encode_append, encode_cons, encode_append, hdash]
      simp only [List.length_append, htrace, hspan]
      rfl
    rw [hlen, hflags] at h
    simpa [joined] using h
  unfold parseTraceparent readFields
  simp only [hchecks, hfirst, hsecond, hthird, and_self, if_true, bind, Except.bind]
  cases hexDecode 16 (encode trace) with
  | none => rfl
  | some traceId =>
    cases hexDecode 8 (encode span) with
    | none => rfl
    | some spanId =>
      cases Hex.parseU8 (encode flags) with
      | none => rfl
      | some flags =>
        simp only [Option.bind_some]
        by_cases hzero : traceId = Ident.zero 16 ∨ spanId = Ident.zero 8
        · simp only [hzero, if_true]
          rfl
        · simp only [hzero, if_false]
          rfl

theorem parse_cases (value : Text) :
    parseTraceparent value = .ok none ∨
      ∃ trace span flags, value = joined trace span flags ∧ (encode trace).length = 32 ∧
        (encode span).length = 16 ∧ (encode flags).length = 2 := by
  by_cases hchecks : (encode value).length = 55 ∧ (encode value)[0]? = some 48 ∧
      (encode value)[1]? = some 48 ∧ (encode value)[2]? = some 45 ∧
      (encode value)[35]? = some 45 ∧ (encode value)[52]? = some 45
  · right
    obtain ⟨hlen, h0, h1, h2, h35, h52⟩ := hchecks
    obtain ⟨version, rest, rfl, hversion⟩ := cut_at (by decide) h2
    -- the version is two zeros
    obtain ⟨x, y, hxy⟩ := List.length_eq_two.mp hversion
    rw [encode_append, hxy] at h0 h1
    obtain rfl : x = 48 := by simpa using h0
    obtain rfl : y = 48 := by simpa using h1
    obtain rfl : version = ['0', '0'] := by
      have hascii : ∀ b ∈ encode version, b < 0x80 := by
        rw [hxy]
        intro b hb
        simp only [List.mem_cons, List.not_mem_nil, or_false, or_self] at hb
        rw [hb]
        decide
      have hmap := eq_map_of_ascii hascii
      rw [hxy] at hmap
      exact hmap
    have hrest : encode (['0', '0'] ++ Char.ofNat (45 : UInt8).toNat :: rest) =
        [48, 48, 45] ++ encode rest := rfl
    rw [hrest] at hlen h35 h52
    rw [List.getElem?_append_right (by simp)] at h35 h52
    obtain ⟨trace, rest, rfl, htrace⟩ := cut_at (by decide) h35
    have htail : encode (trace ++ Char.ofNat (45 : UInt8).toNat :: rest) =
        (encode trace ++ [45]) ++ encode rest := by
      rw [encode_append, encode_cons, List.append_assoc]
      rfl
    have hfront : (encode trace ++ [45]).length = 33 := by simp [htrace]
    rw [htail, List.getElem?_append_right (by simp [htrace])] at h52
    rw [hfront] at h52
    obtain ⟨span, flags, rfl, hspan⟩ := cut_at (by decide) h52
    refine ⟨trace, span, flags, rfl, htrace, hspan, ?_⟩
    have hflags : encode (span ++ Char.ofNat (45 : UInt8).toNat :: flags) =
        encode span ++ 45 :: encode flags := by
      rw [encode_append, encode_cons]
      rfl
    rw [htail, hflags] at hlen
    simp only [List.length_append, List.length_cons, List.length_nil, htrace, hspan] at hlen
    omega
  · left
    unfold parseTraceparent
    dsimp only
    rw [if_neg hchecks]
    rfl

theorem readFields_eq_some {trace span flags : Bytes} :
    readFields trace span flags = some context ↔
      hexDecode 16 trace = some context.traceId ∧ hexDecode 8 span = some context.spanId ∧
        Hex.parseU8 flags = some context.flags ∧
        context.traceId ≠ Ident.zero 16 ∧ context.spanId ≠ Ident.zero 8 := by
  unfold readFields
  constructor
  · intro h
    obtain ⟨traceId, htrace, h⟩ := Option.bind_eq_some_iff.mp h
    obtain ⟨spanId, hspan, h⟩ := Option.bind_eq_some_iff.mp h
    obtain ⟨flags, hflags, h⟩ := Option.bind_eq_some_iff.mp h
    split at h
    next => cases h
    next hzero =>
      obtain rfl := Option.some.inj h
      push Not at hzero
      exact ⟨htrace, hspan, hflags, hzero.1, hzero.2⟩
  · rintro ⟨htrace, hspan, hflags, hne, hne'⟩
    rw [htrace, hspan, hflags]
    simp only [Option.bind_some]
    rw [if_neg (by simp [hne, hne'])]

/-- A value is accepted when it is well formed, or has signed flags. -/
theorem accepts_iff (value : Text) :
    (∃ context, parseTraceparent value = .ok (some context)) ↔
      WellFormed value ∨ SignedFlags value := by
  constructor
  · rintro ⟨context, hparse⟩
    rcases parse_cases value with hnone | ⟨trace, span, flags, rfl, htrace, hspan, hflags⟩
    · rw [hnone] at hparse
      cases hparse
    · rw [parse_joined htrace hspan hflags] at hparse
      obtain ⟨ht, hs, hf, hne, hne'⟩ := readFields_eq_some.mp (Except.ok.inj hparse)
      have htrace := exists_ident_iff.mp ⟨_, ht, hne⟩
      have hspan := exists_ident_iff.mp ⟨_, hs, hne'⟩
      rcases (exists_flags_iff hflags).mp ⟨_, hf⟩ with ⟨hlen, hdigits⟩ | ⟨digit, rfl, hdigit⟩
      · exact .inl ⟨trace, span, flags, rfl, htrace, hspan, hlen, hdigits⟩
      · exact .inr ⟨trace, span, digit, rfl, htrace, hspan, hdigit⟩
  · have haccept : ∀ {trace span flags : Text}, Identifies 32 trace → Identifies 16 span →
        (encode flags).length = 2 → (∃ v, Hex.parseU8 (encode flags) = some v) →
        ∃ context, parseTraceparent (joined trace span flags) = .ok (some context) := by
      rintro trace span flags htrace hspan hflags ⟨v, hv⟩
      obtain ⟨traceId, ht, hne⟩ := exists_ident_iff (n := 16) |>.mpr htrace
      obtain ⟨spanId, hs, hne'⟩ := exists_ident_iff (n := 8) |>.mpr hspan
      refine ⟨⟨traceId, spanId, v⟩, ?_⟩
      rw [parse_joined ((encode_of_digits htrace.digits).2.trans htrace.length)
        ((encode_of_digits hspan.digits).2.trans hspan.length) hflags]
      exact congrArg Except.ok (readFields_eq_some.mpr ⟨ht, hs, hv, hne, hne'⟩)
    rintro (⟨trace, span, flags, rfl, htrace, hspan, hlen, hdigits⟩ |
      ⟨trace, span, digit, rfl, htrace, hspan, hdigit⟩)
    · have hsize := (encode_of_digits hdigits).2.trans hlen
      exact haccept htrace hspan hsize ((exists_flags_iff hsize).mpr (.inl ⟨hlen, hdigits⟩))
    · obtain ⟨b, v, henc, _⟩ := Hex.value_of_isDigit hdigit
      have hsize : (encode ['+', digit]).length = 2 := by
        rw [encode_cons, encode_cons, henc]
        rfl
      exact haccept htrace hspan hsize ((exists_flags_iff hsize).mpr (.inr ⟨digit, rfl, hdigit⟩))

theorem formatTraceparent_eq (context : TraceContext) :
    formatTraceparent context =
      joined (Hex.spell context.traceId.1) (Hex.spell context.spanId.1)
        (Hex.spell [context.flags]) := by
  simp [formatTraceparent, pushHex, joined]

theorem map_toLower_joined (trace span flags : Text) :
    (joined trace span flags).map Char.toLower =
      joined (trace.map Char.toLower) (span.map Char.toLower) (flags.map Char.toLower) := by
  simp [joined]

theorem WellFormed.not_signed {value : Text} (h : WellFormed value) : ¬ SignedFlags value := by
  obtain ⟨trace, span, flags, rfl, htrace, hspan, _, hdigits⟩ := h
  rintro ⟨trace', span', digit, heq, htrace', hspan', _⟩
  have hrest := List.append_cancel_left heq
  obtain ⟨-, hrest⟩ := List.append_inj hrest (htrace.length.trans htrace'.length.symm)
  obtain ⟨-, hrest⟩ := List.append_inj (List.cons.inj hrest).2
    (hspan.length.trans hspan'.length.symm)
  have hplus := hdigits '+' (by rw [(List.cons.inj hrest).2]; simp)
  exact absurd hplus (by decide)

theorem format_of_parse {value : Text} (h : parseTraceparent value = .ok (some context))
    (hsigned : ¬ SignedFlags value) : formatTraceparent context = value.map Char.toLower := by
  rcases parse_cases value with hnone | ⟨trace, span, flags, rfl, htrace, hspan, hflags⟩
  · rw [hnone] at h
    cases h
  · rw [parse_joined htrace hspan hflags] at h
    obtain ⟨ht, hs, hf, hne, hne'⟩ := readFields_eq_some.mp (Except.ok.inj h)
    have hdigits : ∀ c ∈ flags, Hex.isDigit c = true := by
      rcases (exists_flags_iff hflags).mp ⟨_, hf⟩ with ⟨_, hdigits⟩ | ⟨digit, rfl, hdigit⟩
      · exact hdigits
      · exact absurd ⟨trace, span, digit, rfl, exists_ident_iff.mp ⟨_, ht, hne⟩,
          exists_ident_iff.mp ⟨_, hs, hne'⟩, hdigit⟩ hsigned
    rw [formatTraceparent_eq, map_toLower_joined, spell_of_hexDecode ht, spell_of_hexDecode hs,
      spell_of_parseU8 hflags hdigits hf]

/-- A written context is read back. -/
theorem parse_format (htrace : context.traceId ≠ Ident.zero 16)
    (hspan : context.spanId ≠ Ident.zero 8) :
    parseTraceparent (formatTraceparent context) = .ok (some context) := by
  have hlen : ∀ bytes : Bytes, (encode (Hex.spell bytes)).length = bytes.length * 2 :=
    fun bytes => Hex.length_decodePairs (Hex.decodePairs_spell bytes)
  have hflags : Hex.parseU8 (encode (Hex.spell [context.flags])) = some context.flags := by
    have hpairs := Hex.decodePairs_spell [context.flags]
    obtain ⟨hi, lo, henc⟩ := List.length_eq_two.mp (hlen [context.flags])
    rw [henc] at hpairs ⊢
    rw [Hex.parseU8_pair, hpairs]
    · rfl
    · rintro rfl
      cases hpairs
  rw [formatTraceparent_eq, parse_joined (by rw [hlen, context.traceId.2])
    (by rw [hlen, context.spanId.2]) (hlen _)]
  apply congrArg Except.ok
  rw [readFields_eq_some]
  exact ⟨hexDecode_eq_some.mpr (Hex.decodePairs_spell _),
    hexDecode_eq_some.mpr (Hex.decodePairs_spell _), hflags, htrace, hspan⟩

structure Exact (value : Text) : Prop where
  answers : ∃ answer, parseTraceparent value = .ok answer
  accepts : (∃ context, parseTraceparent value = .ok (some context)) ↔ WellFormed value
  lowered : ∀ context, parseTraceparent value = .ok (some context) →
    formatTraceparent context = value.map Char.toLower

/-- Parsing is exact but for signed flags, and reads back every written context. -/
theorem traceparent_exact_iff (value : Text) :
    (Exact value ↔ ¬ SignedFlags value) ∧
      ∀ context : TraceContext, context.traceId ≠ Ident.zero 16 → context.spanId ≠ Ident.zero 8 →
        parseTraceparent (formatTraceparent context) = .ok (some context) := by
  refine ⟨⟨fun h hsigned => ?_, fun hsigned => ⟨?_, ?_, ?_⟩⟩,
    fun context => parse_format⟩
  · have hwell := h.accepts.mp ((accepts_iff value).mpr (.inr hsigned))
    exact hwell.not_signed hsigned
  · rcases parse_cases value with hnone | ⟨trace, span, flags, rfl, htrace, hspan, hflags⟩
    · exact ⟨none, hnone⟩
    · exact ⟨_, parse_joined htrace hspan hflags⟩
  · rw [accepts_iff]
    exact or_iff_left hsigned
  · intro context h
    exact format_of_parse h hsigned

def sampleTrace : Text := "0af7651916cd43dd8448eb211c80319c".toList

def sampleSpan : Text := "b7ad6b7169203331".toList

def sampleContext : TraceContext where
  traceId := ⟨[0x0a, 0xf7, 0x65, 0x19, 0x16, 0xcd, 0x43, 0xdd, 0x84, 0x48, 0xeb, 0x21, 0x1c, 0x80,
    0x31, 0x9c], rfl⟩
  spanId := ⟨[0xb7, 0xad, 0x6b, 0x71, 0x69, 0x20, 0x33, 0x31], rfl⟩
  flags := 1

theorem traceparent_exact_iff_sampleContext :
    sampleContext.traceId ≠ Ident.zero 16 ∧ sampleContext.spanId ≠ Ident.zero 8 ∧
      formatTraceparent sampleContext = joined sampleTrace sampleSpan "01".toList ∧
      parseTraceparent (formatTraceparent sampleContext) = .ok (some sampleContext) := by
  have htrace : sampleContext.traceId ≠ Ident.zero 16 := by decide
  have hspan : sampleContext.spanId ≠ Ident.zero 8 := by decide
  obtain ⟨_, hread⟩ := traceparent_exact_iff (formatTraceparent sampleContext)
  exact ⟨htrace, hspan, by decide, hread sampleContext htrace hspan⟩

/-- Flags written as a plus sign and a digit are accepted, and written back as two digits. -/
theorem signed_flags_accepted :
    parseTraceparent (joined sampleTrace sampleSpan "+1".toList) = .ok (some sampleContext) ∧
      ¬ WellFormed (joined sampleTrace sampleSpan "+1".toList) ∧
      formatTraceparent sampleContext ≠
        (joined sampleTrace sampleSpan "+1".toList).map Char.toLower := by
  refine ⟨rfl, fun hwell => hwell.not_signed ⟨sampleTrace, sampleSpan, '1', rfl, ?_, ?_, rfl⟩,
    by decide⟩
  · exact ⟨rfl, List.all_eq_true.mp (by decide), 'a', by decide, by decide⟩
  · exact ⟨rfl, List.all_eq_true.mp (by decide), 'b', by decide, by decide⟩

end Camber.Telemetry
