import Mathlib.Data.List.Infix
import Mathlib.Tactic

/-! Checked arithmetic on a 64-bit word, and text as the list of its characters beside the bytes
that encode it. -/

namespace Usize

def max : ℕ := 2 ^ 64 - 1

def checkedAdd (a b : ℕ) : Option ℕ := if a + b ≤ max then some (a + b) else none

def checkedMul (a b : ℕ) : Option ℕ := if a * b ≤ max then some (a * b) else none

theorem checkedAdd_eq_some {a b c : ℕ} :
    checkedAdd a b = some c ↔ a + b ≤ max ∧ a + b = c := by
  rw [checkedAdd]
  split_ifs with h <;> simp [h]

theorem checkedMul_eq_some {a b c : ℕ} :
    checkedMul a b = some c ↔ a * b ≤ max ∧ a * b = c := by
  rw [checkedMul]
  split_ifs with h <;> simp [h]

end Usize

inductive Poll (α : Type) where
  | pending
  | ready (value : α)
deriving DecidableEq

namespace Except

theorem bind_ok_iff {ε α β : Type} {x : Except ε α} {f : α → Except ε β} {r : β} :
    (x >>= f) = .ok r ↔ ∃ a, x = .ok a ∧ f a = .ok r := by
  cases x with
  | error e => simp [bind, Except.bind]
  | ok a => simp [bind, Except.bind]

variable {ε α β : Type}

theorem mapError_eq_ok {ε' : Type} {x : Except ε α} {f : ε → ε'} {value : α} :
    x.mapError f = .ok value ↔ x = .ok value := by
  cases x with
  | error e => simp [Except.mapError]
  | ok found => simp [Except.mapError]

theorem error_of_not_ok {x : Except ε α} (h : ∀ value, x ≠ .ok value) :
    ∃ failure, x = .error failure := by
  cases x with
  | error failure => exact ⟨failure, rfl⟩
  | ok value => exact absurd rfl (h value)

def Raises (P : ε → Prop) (x : Except ε α) : Prop := ∀ e, x = .error e → P e

variable {P : ε → Prop}

@[simp] theorem raises_ok (a : α) : (Except.ok a : Except ε α).Raises P := by
  intro e h
  cases h

@[simp] theorem raises_error {e : ε} : (Except.error e : Except ε α).Raises P ↔ P e :=
  ⟨fun h => h e rfl, fun h e' he => by cases he; exact h⟩

theorem Raises.bind {x : Except ε α} {f : α → Except ε β} (hx : x.Raises P)
    (hf : ∀ a, x = .ok a → (f a).Raises P) : (x >>= f).Raises P := by
  cases x with
  | error e => exact raises_error.mpr (hx e rfl)
  | ok a => exact hf a rfl

end Except

namespace Str

abbrev Bytes := List UInt8

abbrev Text := List Char

def encode (t : Text) : Bytes := t.flatMap String.utf8EncodeChar

def byteLength (t : Text) : ℕ := (encode t).length

def isContinuation (b : UInt8) : Bool := 0x80 ≤ b && b ≤ 0xBF

def isSecondOfThree (b0 b1 : UInt8) : Bool :=
  if b0 = 0xE0 then 0xA0 ≤ b1 && b1 ≤ 0xBF
  else if b0 = 0xED then 0x80 ≤ b1 && b1 ≤ 0x9F
  else isContinuation b1

def isSecondOfFour (b0 b1 : UInt8) : Bool :=
  if b0 = 0xF0 then 0x90 ≤ b1 && b1 ≤ 0xBF
  else if b0 = 0xF4 then 0x80 ≤ b1 && b1 ≤ 0x8F
  else isContinuation b1

def low (b : UInt8) : ℕ := b.toNat % 64

def decode : Bytes → Option Text
  | [] => some []
  | b0 :: rest =>
    if b0 < 0x80 then (decode rest).map (Char.ofNat b0.toNat :: ·)
    else if 0xC2 ≤ b0 ∧ b0 ≤ 0xDF then
      match rest with
      | b1 :: rest =>
        if isContinuation b1 then
          (decode rest).map (Char.ofNat (b0.toNat % 32 * 64 + low b1) :: ·)
        else none
      | [] => none
    else if 0xE0 ≤ b0 ∧ b0 ≤ 0xEF then
      match rest with
      | b1 :: b2 :: rest =>
        if isSecondOfThree b0 b1 && isContinuation b2 then
          (decode rest).map (Char.ofNat ((b0.toNat % 16 * 64 + low b1) * 64 + low b2) :: ·)
        else none
      | _ => none
    else if 0xF0 ≤ b0 ∧ b0 ≤ 0xF4 then
      match rest with
      | b1 :: b2 :: b3 :: rest =>
        if isSecondOfFour b0 b1 && isContinuation b2 && isContinuation b3 then
          (decode rest).map
            (Char.ofNat (((b0.toNat % 8 * 64 + low b1) * 64 + low b2) * 64 + low b3) :: ·)
        else none
      | _ => none
    else none

def isWhitespace (c : Char) : Bool :=
  let n := c.toNat
  (0x9 ≤ n && n ≤ 0xD) || n == 0x20 || n == 0x85 || n == 0xA0 || n == 0x1680 ||
  (0x2000 ≤ n && n ≤ 0x200A) || n == 0x2028 || n == 0x2029 || n == 0x202F || n == 0x205F ||
  n == 0x3000

def trimStart (t : Text) : Text := t.dropWhile isWhitespace

def trimEnd (t : Text) : Text := (t.reverse.dropWhile isWhitespace).reverse

def trim (t : Text) : Text := trimEnd (trimStart t)

def isAscii (c : Char) : Bool := c.toNat < 128

def eqIgnoreAsciiCase (s t : Text) : Bool := s.map Char.toLower == t.map Char.toLower

/-- The two sides of the first `c`, or `none` when the text has none. -/
def splitOnce (c : Char) : Text → Option (Text × Text)
  | [] => none
  | x :: xs => if x = c then some ([], xs) else (splitOnce c xs).map fun p => (x :: p.1, p.2)

def stripPrefixChar (c : Char) : Text → Option Text
  | x :: xs => if x = c then some xs else none
  | [] => none

def stripSuffixChar (c : Char) (t : Text) : Option Text :=
  (stripPrefixChar c t.reverse).map List.reverse

def splitCrlf : Text → List Text
  | [] => [[]]
  | '\r' :: '\n' :: rest => [] :: splitCrlf rest
  | c :: rest =>
    match splitCrlf rest with
    | [] => [[c]]
    | piece :: pieces => (c :: piece) :: pieces

end Str

namespace Ascii

def isDigit (b : UInt8) : Bool := 48 ≤ b && b ≤ 57

def isAlpha (b : UInt8) : Bool := (65 ≤ b && b ≤ 90) || (97 ≤ b && b ≤ 122)

def isAlphanumeric (b : UInt8) : Bool := isAlpha b || isDigit b

def toLower (b : UInt8) : UInt8 := if 65 ≤ b && b ≤ 90 then b + 32 else b

def eqIgnoreCase (xs ys : List UInt8) : Bool := xs.map toLower == ys.map toLower

end Ascii

/-! An address block is given by an address and the number of leading bits it fixes. -/

namespace Block

variable {w : ℕ}

/-- Whether `a` agrees with `first` in its leading `length` bits. -/
def holds (block : BitVec w × ℕ) (a : BitVec w) : Bool :=
  w - block.2 < w && (block.1 ^^^ a) >>> (w - block.2) == 0#w

def Within (block : BitVec w × ℕ) (a : BitVec w) : Prop :=
  block.1.toNat ≤ a.toNat ∧ a.toNat < block.1.toNat + 2 ^ (w - block.2)

instance (block : BitVec w × ℕ) (a : BitVec w) : Decidable (Within block a) :=
  inferInstanceAs (Decidable (_ ∧ _))

structure Aligned (block : BitVec w × ℕ) : Prop where
  fixes : w - block.2 < w
  aligned : 2 ^ (w - block.2) ∣ block.1.toNat

instance (block : BitVec w × ℕ) : Decidable (Aligned block) :=
  decidable_of_iff (w - block.2 < w ∧ 2 ^ (w - block.2) ∣ block.1.toNat)
    ⟨fun h => ⟨h.1, h.2⟩, fun h => ⟨h.1, h.2⟩⟩

theorem xor_ushiftRight_eq_zero (a b : BitVec w) (n : ℕ) :
    (a ^^^ b) >>> n = 0#w ↔ a.toNat / 2 ^ n = b.toNat / 2 ^ n := by
  rw [BitVec.ushiftRight_xor_distrib, BitVec.xor_eq_zero_iff,
    ← BitVec.toNat_inj, BitVec.toNat_ushiftRight, BitVec.toNat_ushiftRight,
    Nat.shiftRight_eq_div_pow, Nat.shiftRight_eq_div_pow]

theorem holds_iff_within {block : BitVec w × ℕ} (h : Aligned block) (a : BitVec w) :
    holds block a = true ↔ Within block a := by
  obtain ⟨q, hq⟩ := h.aligned
  have hpos : 0 < 2 ^ (w - block.2) := Nat.two_pow_pos _
  rw [holds, Bool.and_eq_true, decide_eq_true_eq, beq_iff_eq, xor_ushiftRight_eq_zero, Within, hq,
    Nat.mul_div_cancel_left _ hpos]
  constructor
  · rintro ⟨-, rfl⟩
    exact ⟨Nat.mul_div_le _ _, Nat.lt_mul_div_succ _ hpos⟩
  · rintro ⟨hle, hlt⟩
    refine ⟨h.fixes, (Nat.div_eq_of_lt_le ?_ ?_).symm⟩
    · rwa [Nat.mul_comm]
    · rw [Nat.succ_mul, Nat.mul_comm]
      exact hlt

end Block
