import Camber.Lib.Utf8

/-! A byte is spelled by two lower-case digits; reading takes either case. -/

namespace Hex

open Str

/-- The value of an ASCII hexadecimal digit of either case. -/
def value (b : UInt8) : Option UInt8 :=
  if 48 ≤ b ∧ b ≤ 57 then some (b - 48)
  else if 97 ≤ b ∧ b ≤ 102 then some (b - 97 + 10)
  else if 65 ≤ b ∧ b ≤ 70 then some (b - 65 + 10)
  else none

def isDigit (c : Char) : Bool :=
  ('0' ≤ c && c ≤ '9') || ('a' ≤ c && c ≤ 'f') || ('A' ≤ c && c ≤ 'F')

/-- The lower-case digit of a value below sixteen. -/
def digit (n : UInt8) : Char := "0123456789abcdef".toList.getD n.toNat '0'

def pair (b : UInt8) : Text := [digit (b >>> 4), digit (b &&& 0x0F)]

def spell (bytes : Bytes) : Text := bytes.flatMap pair

/-- Reads two digits a byte. -/
def decodePairs : Bytes → Option Bytes
  | [] => some []
  | [_] => none
  | hi :: lo :: rest =>
    (value hi).bind fun h => (value lo).bind fun l =>
      (decodePairs rest).map ((h <<< 4 ||| l) :: ·)

structure Digit (b v : UInt8) : Prop where
  ascii : b < 0x80
  small : v < 16
  isDigit : isDigit (Char.ofNat b.toNat) = true
  spelled : digit v = (Char.ofNat b.toNat).toLower
  zero : v = 0 ↔ Char.ofNat b.toNat = '0'

theorem digit_of_value {b v : UInt8} (h : value b = some v) : Digit b v := by
  have hall : ∀ n : Fin 256, ∀ v ∈ value (UInt8.ofNat n), UInt8.ofNat n < 0x80 ∧ v < 16 ∧
      isDigit (Char.ofNat (UInt8.ofNat n).toNat) = true ∧
      digit v = (Char.ofNat (UInt8.ofNat n).toNat).toLower ∧
      (v = 0 ↔ Char.ofNat (UInt8.ofNat n).toNat = '0') := by
    decide +kernel
  have hb := hall ⟨b.toNat, b.toNat_lt⟩ v
  simp only [UInt8.ofNat_toNat] at hb
  obtain ⟨hascii, hsmall, hdigit, hspelled, hzero⟩ := hb h
  exact ⟨hascii, hsmall, hdigit, hspelled, hzero⟩

theorem value_of_isDigit {c : Char} (h : isDigit c = true) :
    ∃ b v, String.utf8EncodeChar c = [b] ∧ value b = some v ∧ Char.ofNat b.toNat = c := by
  have hlt : c.toNat < 128 := by
    have hle : ∀ {a z : Char}, (a ≤ c && c ≤ z) = true → c.toNat ≤ z.toNat := by
      intro a z hrange
      simp only [Bool.and_eq_true, decide_eq_true_eq] at hrange
      exact hrange.2
    unfold isDigit at h
    rcases Bool.or_eq_true_iff.mp h with h | h
    · rcases Bool.or_eq_true_iff.mp h with h | h
      · exact lt_of_le_of_lt (hle h) (by decide)
      · exact lt_of_le_of_lt (hle h) (by decide)
    · exact lt_of_le_of_lt (hle h) (by decide)
  have hall : ∀ n : Fin 128, isDigit (Char.ofNat n) = true →
      (value (UInt8.ofNat n)).isSome = true := by
    decide +kernel
  have hchar : Char.ofNat c.toNat = c := Char.ofNat_toNat c
  have hbyte : (UInt8.ofNat c.toNat).toNat = c.toNat := toNat_byte (by omega)
  obtain ⟨v, hv⟩ := Option.isSome_iff_exists.mp (hall ⟨c.toNat, hlt⟩ (by rw [hchar]; exact h))
  refine ⟨UInt8.ofNat c.toNat, v, ?_, hv, by rw [hbyte, hchar]⟩
  have hascii : UInt8.ofNat c.toNat < 0x80 := by
    rw [UInt8.lt_iff_toNat_lt, hbyte]
    exact hlt
  have hone := utf8EncodeChar_one hascii
  rwa [hbyte, hchar] at hone

/-- A digit that spells a value in either case. -/
def Spells (n : UInt8) (c : Char) : Prop := c = digit n ∨ c = (digit n).toUpper

theorem value_of_spells {n : UInt8} {c : Char} (hn : n < 16) (h : Spells n c) :
    isDigit c = true ∧ ∃ b, String.utf8EncodeChar c = [b] ∧ value b = some n := by
  have hall : ∀ m : Fin 16, ∀ upper : Bool,
      let c := if upper then (digit (UInt8.ofNat m)).toUpper else digit (UInt8.ofNat m)
      isDigit c = true ∧ String.utf8EncodeChar c = [UInt8.ofNat c.toNat] ∧
        value (UInt8.ofNat c.toNat) = some (UInt8.ofNat m) := by
    decide
  have hm := hall ⟨n.toNat, UInt8.lt_iff_toNat_lt.mp hn⟩
  simp only [UInt8.ofNat_toNat] at hm
  rcases h with rfl | rfl
  · obtain ⟨hdigit, henc, hvalue⟩ := hm false
    exact ⟨hdigit, _, henc, hvalue⟩
  · obtain ⟨hdigit, henc, hvalue⟩ := hm true
    exact ⟨hdigit, _, henc, hvalue⟩

theorem halves {h l : UInt8} (hh : h < 16) (hl : l < 16) :
    (h <<< 4 ||| l) >>> 4 = h ∧ (h <<< 4 ||| l) &&& 0x0F = l := by
  have hall : ∀ a b : Fin 16,
      (UInt8.ofNat a <<< 4 ||| UInt8.ofNat b) >>> 4 = UInt8.ofNat a ∧
        (UInt8.ofNat a <<< 4 ||| UInt8.ofNat b) &&& 0x0F = UInt8.ofNat b := by
    decide
  have hab := hall ⟨h.toNat, UInt8.lt_iff_toNat_lt.mp hh⟩ ⟨l.toNat, UInt8.lt_iff_toNat_lt.mp hl⟩
  simpa only [UInt8.ofNat_toNat] using hab

theorem join_halves (b : UInt8) :
    b >>> 4 < 16 ∧ b &&& 0x0F < 16 ∧ (b >>> 4) <<< 4 ||| (b &&& 0x0F) = b := by
  have hall : ∀ n : Fin 256, UInt8.ofNat n >>> 4 < 16 ∧ UInt8.ofNat n &&& 0x0F < 16 ∧
      (UInt8.ofNat n >>> 4) <<< 4 ||| (UInt8.ofNat n &&& 0x0F) = UInt8.ofNat n := by
    decide +kernel
  have hb := hall ⟨b.toNat, b.toNat_lt⟩
  simpa only [UInt8.ofNat_toNat] using hb

theorem value_pair (b : UInt8) :
    ∃ hi lo, encode (pair b) = [hi, lo] ∧ value hi = some (b >>> 4) ∧
      value lo = some (b &&& 0x0F) := by
  obtain ⟨hhi, hlo, _⟩ := join_halves b
  obtain ⟨-, hi, hhi, hhiv⟩ := value_of_spells hhi (.inl rfl)
  obtain ⟨-, lo, hlo, hlov⟩ := value_of_spells hlo (.inl rfl)
  refine ⟨hi, lo, ?_, hhiv, hlov⟩
  rw [pair, encode_cons, encode_cons, hhi, hlo]
  rfl

variable {raw out : Bytes}

theorem length_decodePairs (h : decodePairs raw = some out) : raw.length = out.length * 2 := by
  fun_induction decodePairs raw generalizing out with
  | case1 =>
    obtain rfl := Option.some.inj h
    rfl
  | case2 => cases h
  | case3 hi lo rest ih =>
    obtain ⟨h', _, hrest⟩ := Option.bind_eq_some_iff.mp h
    obtain ⟨l, _, hrest⟩ := Option.bind_eq_some_iff.mp hrest
    obtain ⟨tail, htail, rfl⟩ := Option.map_eq_some_iff.mp hrest
    have hlen := ih htail
    simp only [List.length_cons]
    omega

theorem spell_of_decodePairs (h : decodePairs raw = some out) :
    (∀ b ∈ raw, ∃ v, value b = some v) ∧
      spell out = raw.map fun b => (Char.ofNat b.toNat).toLower := by
  fun_induction decodePairs raw generalizing out with
  | case1 =>
    obtain rfl := Option.some.inj h
    exact ⟨by simp, rfl⟩
  | case2 => cases h
  | case3 hi lo rest ih =>
    obtain ⟨h', hh, hrest⟩ := Option.bind_eq_some_iff.mp h
    obtain ⟨l, hl, hrest⟩ := Option.bind_eq_some_iff.mp hrest
    obtain ⟨tail, htail, rfl⟩ := Option.map_eq_some_iff.mp hrest
    obtain ⟨hdigits, hspell⟩ := ih htail
    have hhi := digit_of_value hh
    have hlo := digit_of_value hl
    obtain ⟨hfirst, hsecond⟩ := halves hhi.small hlo.small
    constructor
    · intro b hb
      rcases List.mem_cons.mp hb with rfl | hb
      · exact ⟨h', hh⟩
      · rcases List.mem_cons.mp hb with rfl | hb
        · exact ⟨l, hl⟩
        · exact hdigits b hb
    · rw [spell, List.flatMap_cons, ← spell, hspell, pair, hfirst, hsecond, hhi.spelled, hlo.spelled]
      rfl

theorem exists_decodePairs {n : ℕ} (hlen : raw.length = n * 2)
    (hdigits : ∀ b ∈ raw, ∃ v, value b = some v) : ∃ out, decodePairs raw = some out := by
  fun_induction decodePairs raw generalizing n with
  | case1 => exact ⟨[], rfl⟩
  | case2 b =>
    simp only [List.length_cons, List.length_nil] at hlen
    omega
  | case3 hi lo rest ih =>
    obtain ⟨h, hh⟩ := hdigits hi (by simp)
    obtain ⟨l, hl⟩ := hdigits lo (by simp)
    obtain ⟨out, hout⟩ := ih (n := n - 1) (by simp only [List.length_cons] at hlen; omega)
      fun b hb => hdigits b (by simp [hb])
    exact ⟨(h <<< 4 ||| l) :: out, by rw [hh, hl, hout]; rfl⟩

/-- A spelling reads as the bytes it spells. -/
theorem decodePairs_spell (bytes : Bytes) : decodePairs (encode (spell bytes)) = some bytes := by
  induction bytes with
  | nil => rfl
  | cons b rest ih =>
    obtain ⟨hi, lo, henc, hh, hl⟩ := value_pair b
    have hsplit : encode (spell (b :: rest)) = encode (pair b) ++ encode (spell rest) := by
      simp [spell, encode]
    rw [hsplit, henc, List.cons_append, List.singleton_append, decodePairs, hh, hl, ih]
    simp [(join_halves b).2.2]

theorem decodePairs_zero_iff (h : decodePairs raw = some out) :
    (∀ b ∈ out, b = 0) ↔ ∀ b ∈ raw, Char.ofNat b.toNat = '0' := by
  fun_induction decodePairs raw generalizing out with
  | case1 =>
    obtain rfl := Option.some.inj h
    simp
  | case2 => cases h
  | case3 hi lo rest ih =>
    obtain ⟨h', hh, hrest⟩ := Option.bind_eq_some_iff.mp h
    obtain ⟨l, hl, hrest⟩ := Option.bind_eq_some_iff.mp hrest
    obtain ⟨tail, htail, rfl⟩ := Option.map_eq_some_iff.mp hrest
    have hhi := digit_of_value hh
    have hlo := digit_of_value hl
    obtain ⟨hfirst, hsecond⟩ := halves hhi.small hlo.small
    have hzero : h' <<< 4 ||| l = 0 ↔ h' = 0 ∧ l = 0 := by
      constructor
      · intro hboth
        rw [hboth] at hfirst hsecond
        exact ⟨hfirst.symm, hsecond.symm⟩
      · rintro ⟨rfl, rfl⟩
        rfl
    simp only [List.forall_mem_cons, ih htail, hzero, hhi.zero, hlo.zero, and_assoc]

def pushDigits (n : ℕ) : Bytes → Option ℕ
  | [] => some n
  | b :: rest =>
    (value b).bind fun v =>
      let next := 16 * n + v.toNat
      if next < 256 then pushDigits next rest else none

def parseU8 : Bytes → Option UInt8
  | [] => none
  | [43] => none
  | [45] => none
  | 43 :: rest => (pushDigits 0 rest).map UInt8.ofNat
  | bytes => (pushDigits 0 bytes).map UInt8.ofNat

theorem join_eq_ofNat {h l : UInt8} (hh : h < 16) (hl : l < 16) :
    h <<< 4 ||| l = UInt8.ofNat (16 * h.toNat + l.toNat) := by
  have hall : ∀ a b : Fin 16,
      UInt8.ofNat a <<< 4 ||| UInt8.ofNat b =
        UInt8.ofNat (16 * (UInt8.ofNat a).toNat + (UInt8.ofNat b).toNat) := by
    decide
  have hab := hall ⟨h.toNat, UInt8.lt_iff_toNat_lt.mp hh⟩ ⟨l.toNat, UInt8.lt_iff_toNat_lt.mp hl⟩
  simpa only [UInt8.ofNat_toNat] using hab

theorem parseU8_signed (b : UInt8) : parseU8 [43, b] = value b := by
  have hparse : parseU8 [43, b] = (pushDigits 0 [b]).map UInt8.ofNat := rfl
  rw [hparse, pushDigits]
  cases hb : value b with
  | none => rfl
  | some v =>
    have hv : v.toNat < 256 := v.toNat_lt
    simp [pushDigits, hv]

theorem parseU8_pair {a b : UInt8} (ha : a ≠ 43) :
    parseU8 [a, b] = (decodePairs [a, b]).bind List.head? := by
  have hparse : parseU8 [a, b] = (pushDigits 0 [a, b]).map UInt8.ofNat := by
    unfold parseU8
    split
    next heq => cases heq
    next heq => cases heq
    next heq => cases heq
    next heq => exact absurd (List.cons.inj heq).1 ha
    next => rfl
  rw [hparse, pushDigits, decodePairs]
  cases hh : value a with
  | none => rfl
  | some h =>
    have hsmall := (digit_of_value hh).small
    have hlt : h.toNat < 16 := UInt8.lt_iff_toNat_lt.mp hsmall
    cases hl : value b with
    | none =>
      simp only [Option.bind_some, Option.bind_none]
      rw [if_pos (by omega), pushDigits, hl]
      rfl
    | some l =>
      have hsmall' := (digit_of_value hl).small
      have hlt' : l.toNat < 16 := UInt8.lt_iff_toNat_lt.mp hsmall'
      simp only [Option.bind_some]
      rw [if_pos (by omega), pushDigits, hl, Option.bind_some]
      simp only
      rw [if_pos (by omega), join_eq_ofNat hsmall hsmall']
      simp [pushDigits, decodePairs]

end Hex
