import Mathlib.Data.List.TakeWhile
import Camber.Lib.Primitive

/-! What `trim`, `splitOnce` and the affix operations find in a text put together from known pieces.
-/

namespace Str

variable {t a b : Text} {c : Char}

/-- The text consists of characters that trimming removes. -/
def Blank (t : Text) : Prop := ∀ c ∈ t, isWhitespace c = true

structure Tight (t : Text) : Prop where
  head : ∀ c ∈ t.head?, isWhitespace c = false
  last : ∀ c ∈ t.getLast?, isWhitespace c = false

theorem dropWhile_blank (h : Blank a) : (a ++ t).dropWhile isWhitespace =
    t.dropWhile isWhitespace := by
  rw [List.dropWhile_append_of_pos h]

theorem dropWhile_of_head (h : ∀ c ∈ t.head?, isWhitespace c = false) :
    t.dropWhile isWhitespace = t := by
  cases t with
  | nil => rfl
  | cons c rest =>
    rw [List.dropWhile_cons, if_neg]
    simpa using h c rfl

theorem Blank.reverse (h : Blank t) : Blank t.reverse :=
  fun c hc => h c (List.mem_reverse.mp hc)

theorem trimEnd_pad (hb : Blank b) (ht : ∀ c ∈ t.getLast?, isWhitespace c = false) :
    trimEnd (t ++ b) = t := by
  rw [trimEnd, List.reverse_append, dropWhile_blank hb.reverse, dropWhile_of_head,
    List.reverse_reverse]
  rwa [List.head?_reverse]

theorem trim_pad (ha : Blank a) (ht : Tight t) (hb : Blank b) : trim (a ++ t ++ b) = t := by
  rw [trim, trimStart, List.append_assoc, dropWhile_blank ha]
  cases t with
  | nil =>
    have hnil : b.dropWhile isWhitespace = [] := List.dropWhile_eq_nil_iff.mpr hb
    rw [List.nil_append, hnil]
    rfl
  | cons c rest =>
    rw [dropWhile_of_head, trimEnd_pad hb ht.last]
    simpa using ht.head

theorem blank_takeWhile (t : Text) : Blank (t.takeWhile isWhitespace) :=
  fun _ hc => List.mem_takeWhile_imp hc

theorem exists_pad (t : Text) : ∃ a b, Blank a ∧ Blank b ∧ t = a ++ trim t ++ b := by
  refine ⟨t.takeWhile isWhitespace, ((trimStart t).reverse.takeWhile isWhitespace).reverse,
    blank_takeWhile t, (blank_takeWhile _).reverse, ?_⟩
  rw [trim, trimEnd, List.append_assoc, ← List.reverse_append, List.takeWhile_append_dropWhile,
    List.reverse_reverse, trimStart, List.takeWhile_append_dropWhile]

theorem blank_notMem (h : Blank a) (hc : isWhitespace c = false) : c ∉ a := by
  intro hmem
  rw [h c hmem] at hc
  cases hc

theorem Tight.append {s t : Text} (m : Text) (hs : Tight s) (ht : Tight t) (hsne : s ≠ [])
    (htne : t ≠ []) : Tight (s ++ m ++ t) := by
  refine ⟨fun c hc => ?_, fun c hc => ?_⟩
  · rw [List.append_assoc, List.head?_append_of_ne_nil _ hsne] at hc
    exact hs.head c hc
  · rw [List.getLast?_append_of_ne_nil _ htne] at hc
    exact ht.last c hc

theorem splitOnce_append (h : c ∉ a) : splitOnce c (a ++ c :: b) = some (a, b) := by
  induction a with
  | nil => simp [splitOnce]
  | cons x a ih =>
    have hx : x ≠ c := fun heq => h (heq ▸ List.mem_cons_self ..)
    have hrest : c ∉ a := fun hmem => h (List.mem_cons_of_mem _ hmem)
    rw [List.cons_append, splitOnce, if_neg hx, ih hrest]
    rfl

theorem splitOnce_eq_none (h : c ∉ t) : splitOnce c t = none := by
  induction t with
  | nil => rfl
  | cons x t ih =>
    have hx : x ≠ c := fun heq => h (heq ▸ List.mem_cons_self)
    rw [splitOnce, if_neg hx, ih fun hmem => h (List.mem_cons_of_mem _ hmem)]
    rfl

/-- A text is cut at the first occurrence, if there is one. -/
theorem splitOnce_cases (c : Char) (t : Text) :
    (c ∉ t ∧ splitOnce c t = none) ∨
      ∃ a b, t = a ++ c :: b ∧ c ∉ a ∧ splitOnce c t = some (a, b) := by
  by_cases hmem : c ∈ t
  · obtain ⟨a, b, rfl, ha⟩ := List.eq_append_cons_of_mem hmem
    exact .inr ⟨a, b, rfl, ha, splitOnce_append ha⟩
  · exact .inl ⟨hmem, splitOnce_eq_none hmem⟩

theorem eq_of_stripPrefixChar (h : stripPrefixChar c t = some a) : t = c :: a := by
  cases t with
  | nil => cases h
  | cons x rest =>
    rw [stripPrefixChar] at h
    split_ifs at h with hx
    rw [hx, Option.some.inj h]

theorem stripPrefixChar_ne (h : c ∉ t) : stripPrefixChar c t = none := by
  cases t with
  | nil => rfl
  | cons x rest =>
    have hx : x ≠ c := fun heq => h (heq ▸ List.mem_cons_self ..)
    rw [stripPrefixChar, if_neg hx]

theorem eq_of_stripSuffixChar (h : stripSuffixChar c t = some a) : t = a ++ [c] := by
  obtain ⟨r, hr, rfl⟩ := Option.map_eq_some_iff.mp h
  have hrev := eq_of_stripPrefixChar hr
  rw [← List.reverse_reverse t, hrev, List.reverse_cons]

theorem stripSuffixChar_append (a : Text) (c : Char) : stripSuffixChar c (a ++ [c]) = some a := by
  rw [stripSuffixChar, List.reverse_append]
  simp [stripPrefixChar]

theorem of_mem_splitOn {x : Char} {piece : Text} (h : piece ∈ t.splitOn x) :
    x ∉ piece ∧ ∀ c ∈ piece, c ∈ t := by
  induction t generalizing piece with
  | nil =>
    obtain rfl : piece = [] := by simpa [List.splitOn] using h
    simp
  | cons c rest ih =>
    rw [List.splitOn, List.splitOnP_cons_eq_if_modifyHead, ← List.splitOn] at h
    split at h
    next hc =>
      rcases List.mem_cons.mp h with rfl | h
      · simp
      · exact ⟨(ih h).1, fun d hd => List.mem_cons_of_mem _ ((ih h).2 d hd)⟩
    next hc =>
      have hne : c ≠ x := by simpa using hc
      cases hpieces : rest.splitOn x with
      | nil =>
        rw [hpieces] at h
        cases h
      | cons first others =>
        rw [hpieces, List.modifyHead_cons] at h
        rcases List.mem_cons.mp h with rfl | h
        · have hmem : first ∈ rest.splitOn x := by rw [hpieces]; exact List.mem_cons_self
          obtain ⟨hfirst, hsub⟩ := ih hmem
          refine ⟨by simp [hfirst, Ne.symm hne], fun d hd => ?_⟩
          rcases List.mem_cons.mp hd with rfl | hd
          · exact List.mem_cons_self
          · exact List.mem_cons_of_mem _ (hsub d hd)
        · have hmem : piece ∈ rest.splitOn x := by rw [hpieces]; exact List.mem_cons_of_mem _ h
          obtain ⟨hpiece, hsub⟩ := ih hmem
          exact ⟨hpiece, fun d hd => List.mem_cons_of_mem _ (hsub d hd)⟩

theorem flatMap_terminated {x : Char} {pieces : List Text} (h : pieces ≠ []) :
    pieces.flatMap (· ++ [x]) = [x].intercalate pieces ++ [x] := by
  induction pieces with
  | nil => exact absurd rfl h
  | cons first others ih =>
    cases others with
    | nil => simp
    | cons second others =>
      rw [List.flatMap_cons, ih (by simp), List.intercalate_cons_cons]
      simp

end Str

/-! Reading a number as a fixed-width machine integer: an optional sign, one or more ASCII digits,
and a value that fits the word. -/

namespace Decimal

open Str

def isDigit (c : Char) : Bool := '0' ≤ c && c ≤ '9'

def digitValue (c : Char) : ℕ := c.toNat - '0'.toNat

def pushDigits (value : ℕ) : Text → Option ℕ
  | [] => some value
  | c :: rest =>
    let next := 10 * value + digitValue c
    if isDigit c && next < 2 ^ 64 then pushDigits next rest else none

/-- The 64-bit unsigned number a text spells. -/
def parseU64 : Text → Option ℕ
  | [] => none
  | ['+'] => none
  | '+' :: rest => pushDigits 0 rest
  | text => pushDigits 0 text

/-- The number a row of digits denotes, whatever its size. -/
def valueOf (digits : Text) : ℕ := digits.foldl (fun value c => 10 * value + digitValue c) 0

theorem eq_foldl_of_pushDigits {text : Text} {value n : ℕ} (h : pushDigits value text = some n) :
    n = text.foldl (fun value c => 10 * value + digitValue c) value := by
  induction text generalizing value with
  | nil => exact (Option.some.inj h).symm
  | cons c rest ih =>
    rw [pushDigits] at h
    split at h
    · exact ih h
    · cases h

theorem valueOf_of_parseU64 {digits : Text} {n : ℕ} (hdigits : digits.all isDigit)
    (h : parseU64 digits = some n) : valueOf digits = n := by
  unfold parseU64 at h
  split at h
  · cases h
  · cases h
  · -- a sign is no digit
    simp [isDigit] at hdigits
  · exact (eq_foldl_of_pushDigits h).symm

end Decimal
