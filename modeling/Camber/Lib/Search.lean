import Mathlib.Data.List.Infix
import Mathlib.Order.Bounds.Basic
import Mathlib.Tactic

/-! The contiguous slices of one width, as `slice::windows` lists them, and where a needle occurs.
-/

namespace SliceSearch

variable {α : Type*}

/-- The contiguous slices of width `n`, from left to right. -/
def windows (n : ℕ) : List α → List (List α)
  | [] => []
  | x :: xs => if n ≤ xs.length + 1 then (x :: xs).take n :: windows n xs else []

/-- `needle` stands in `xs` at offset `i`. -/
def Occurs (needle xs : List α) (i : ℕ) : Prop := needle <+: xs.drop i

instance [DecidableEq α] (needle xs : List α) (i : ℕ) : Decidable (Occurs needle xs i) :=
  inferInstanceAs (Decidable (needle <+: xs.drop i))

variable {needle xs : List α} {i start : ℕ} {P : ℕ → Prop} {r : Option ℕ}

theorem Occurs.end_le (h : Occurs needle xs i) (hn : needle ≠ []) :
    i + needle.length ≤ xs.length := by
  have hl := List.IsPrefix.length_le h
  have hp : 0 < needle.length := List.length_pos_iff.mpr hn
  rw [List.length_drop] at hl
  omega

theorem occurs_iff_take : Occurs needle xs i ↔ (xs.drop i).take needle.length = needle := by
  rw [Occurs, List.prefix_iff_eq_take]
  exact eq_comm

theorem occurs_drop {k : ℕ} : Occurs needle (xs.drop k) i ↔ Occurs needle xs (k + i) := by
  rw [Occurs, Occurs, List.drop_drop]

theorem occurs_append_left {ys : List α} (h : i + needle.length ≤ xs.length) :
    Occurs needle (xs ++ ys) i ↔ Occurs needle xs i := by
  rw [occurs_iff_take, occurs_iff_take, List.drop_append_of_le_length (by omega),
    List.take_append_of_le_length (by rw [List.length_drop]; omega)]

theorem occurs_append_of_occurs (ys : List α) (h : Occurs needle xs i) :
    Occurs needle (xs ++ ys) i := by
  rw [Occurs] at h ⊢
  rw [List.drop_append]
  exact h.trans (List.prefix_append _ _)

theorem occurs_append_needle {a b : List α} :
    Occurs (a ++ b) xs i ↔ Occurs a xs i ∧ Occurs b xs (i + a.length) := by
  rw [occurs_iff_take, occurs_iff_take, occurs_iff_take, List.length_append, List.take_add,
    List.drop_drop]
  refine ⟨fun h => ?_, fun ⟨ha, hb⟩ => by rw [ha, hb]⟩
  have hl := congrArg List.length h
  simp only [List.length_append, List.length_take, List.length_drop] at hl
  exact List.append_inj h (by simp only [List.length_take, List.length_drop]; omega)

theorem Occurs.split (h : Occurs needle xs i) :
    xs = xs.take i ++ needle ++ xs.drop (i + needle.length) := by
  have ht := occurs_iff_take.mp h
  conv_lhs => rw [← List.take_append_drop i xs, ← List.take_append_drop needle.length (xs.drop i),
    ht, List.drop_drop]
  rw [List.append_assoc]

/-- `answer` is what a search for the first `P` at or after `start` must give. -/
def First (P : ℕ → Prop) (start : ℕ) : Option ℕ → Prop
  | some i => IsLeast {j | start ≤ j ∧ P j} i
  | none => ∀ j, start ≤ j → ¬ P j

theorem First.unique {s : Option ℕ} (hr : First P start r) (hs : First P start s) : r = s := by
  cases r with
  | none =>
    cases s with
    | none => rfl
    | some i => exact absurd hs.1.2 (hr i hs.1.1)
  | some i =>
    cases s with
    | none => exact absurd hr.1.2 (hs i hr.1.1)
    | some j => rw [IsLeast.unique hr hs]

theorem First.holds (h : First P start (some i)) : P i := h.1.2

theorem First.start_le (h : First P start (some i)) : start ≤ i :=
  h.1.1

theorem First.before {j : ℕ} (h : First P start (some i)) (hs : start ≤ j) (hj : j < i) : ¬ P j :=
  fun hp => absurd (h.2 ⟨hs, hp⟩) (Nat.not_le.mpr hj)

theorem first_some (hs : start ≤ i) (hp : P i) (hb : ∀ j, start ≤ j → j < i → ¬ P j) :
    First P start (some i) :=
  ⟨⟨hs, hp⟩, fun j hj => Nat.not_lt.mp fun hlt => hb j hj.1 hlt hj.2⟩

theorem First.skip {later : ℕ} (h : First P later r) (hle : start ≤ later)
    (hno : ∀ j, start ≤ j → j < later → ¬ P j) : First P start r := by
  cases r with
  | none =>
    intro j hj
    by_cases hl : j < later
    · exact hno j hj hl
    · exact h j (by omega)
  | some i =>
    refine first_some (hle.trans h.start_le) h.holds fun j hj hi => ?_
    by_cases hl : j < later
    · exact hno j hj hl
    · exact h.before (by omega) hi

theorem First.shift {Q : ℕ → Prop} {k : ℕ} (h : First P start r) (hPQ : ∀ j, P j ↔ Q (k + j)) :
    First Q (k + start) (r.map (k + ·)) := by
  cases r with
  | none =>
    intro j hj hq
    have hj' : j = k + (j - k) := by omega
    rw [hj', ← hPQ] at hq
    exact h (j - k) (by omega) hq
  | some i =>
    refine first_some (Nat.add_le_add_left h.start_le k) ((hPQ i).mp h.holds) fun j hj hi hq => ?_
    have hj' : j = k + (j - k) := by omega
    have hi' : j < k + i := hi
    rw [hj', ← hPQ] at hq
    exact h.before (by omega) (by omega) hq

theorem windows_findIdx?_first [DecidableEq α] (needle : List α) (hn : needle ≠ [])
    (xs : List α) :
    First (Occurs needle xs) 0 ((windows needle.length xs).findIdx? (· == needle)) := by
  induction xs with
  | nil =>
    intro j _ h
    have hl := h.end_le hn
    have hp : 0 < needle.length := List.length_pos_iff.mpr hn
    simp only [List.length_nil] at hl
    omega
  | cons x xs ih =>
    have hzero : Occurs needle (x :: xs) 0 ↔ (x :: xs).take needle.length = needle :=
      occurs_iff_take
    rw [windows]
    split_ifs with hlen
    · rw [List.findIdx?_cons]
      by_cases h0 : (x :: xs).take needle.length = needle
      · simp only [h0, beq_self_eq_true, if_true]
        exact first_some le_rfl (hzero.mpr h0) fun j _ hj => absurd hj (Nat.not_lt_zero j)
      · simp only [beq_eq_false_iff_ne.mpr h0, Bool.false_eq_true, if_false]
        -- the head does not match, so the answer is the tail's, one place further on
        have hs : First (Occurs needle (x :: xs)) 1 _ :=
          ih.shift (k := 1) fun j => by rw [← occurs_drop]; rfl
        simp only [Nat.add_comm 1] at hs
        refine hs.skip (Nat.zero_le 1) fun j _ hj => ?_
        obtain rfl : j = 0 := by omega
        exact fun h => h0 (hzero.mp h)
    · intro j _ h
      have hl := h.end_le hn
      simp only [List.length_cons] at hl
      omega

end SliceSearch
