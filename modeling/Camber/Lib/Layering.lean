import Mathlib.Algebra.BigOperators.Group.List.Basic
import Mathlib.Data.Prod.Lex
import Mathlib.Order.Bounds.Basic
import Mathlib.Order.WithBot

/-! An operation that takes the smaller rank gives the same answer for every bracketing. -/

namespace Layering

/-- One way to combine a chain two at a time, the outer part first. -/
inductive Bracketing (α : Type*) where
  | layer (a : α)
  | nest (outer inner : Bracketing α)

namespace Bracketing

variable {α β : Type*}

def layers : Bracketing α → List α
  | layer a => [a]
  | nest outer inner => outer.layers ++ inner.layers

/-- What the chain combines to, given how an inner part sits inside an outer one. -/
def combine (inside : α → α → α) : Bracketing α → α
  | layer a => a
  | nest outer inner => inside (inner.combine inside) (outer.combine inside)

def inwards (outermost : α) : List α → Bracketing α
  | [] => layer outermost
  | inner :: rest => go (nest (layer outermost) (layer inner)) rest
where
  go (outer : Bracketing α) : List α → Bracketing α
    | [] => outer
    | inner :: rest => go (nest outer (layer inner)) rest

theorem layers_go (outer : Bracketing α) (rest : List α) :
    (inwards.go outer rest).layers = outer.layers ++ rest := by
  induction rest generalizing outer with
  | nil => simp [inwards.go]
  | cons inner rest ih => simp [inwards.go, ih, layers]

theorem combine_go (inside : α → α → α) (outer : Bracketing α) (rest : List α) :
    (inwards.go outer rest).combine inside =
      rest.foldl (fun outer inner => inside inner outer) (outer.combine inside) := by
  induction rest generalizing outer with
  | nil => rfl
  | cons inner rest ih => simp [inwards.go, ih, combine]

@[simp] theorem layers_inwards (outermost : α) (rest : List α) :
    (inwards outermost rest).layers = outermost :: rest := by
  cases rest with
  | nil => rfl
  | cons inner rest => simp [inwards, layers_go, layers]

theorem combine_inwards (inside : α → α → α) (outermost : α) (rest : List α) :
    (inwards outermost rest).combine inside =
      rest.foldl (fun outer inner => inside inner outer) outermost := by
  cases rest with
  | nil => rfl
  | cons inner rest => simp [inwards, combine_go, combine]

theorem read_combine {M : Type*} [Monoid M] {inside : α → α → α} {read : α → M}
    (h : ∀ inner outer, read (inside inner outer) = read outer * read inner)
    (t : Bracketing α) : read (t.combine inside) = (t.layers.map read).prod := by
  induction t with
  | layer a => simp [combine, layers]
  | nest outer inner ihOuter ihInner => simp [combine, layers, h, ihOuter, ihInner]

theorem isLeast_combine [LinearOrder β] {inside : α → α → α} {read : α → β}
    (h : ∀ inner outer, read (inside inner outer) = min (read inner) (read outer))
    (t : Bracketing α) :
    IsLeast {b | ∃ a ∈ t.layers, read a = b} (read (t.combine inside)) := by
  induction t with
  | layer a => simp [combine, layers, isLeast_singleton]
  | nest outer inner ihOuter ihInner =>
    have hunion := ihInner.union ihOuter
    rw [combine, h]
    convert hunion using 1
    ext b
    simp only [layers, List.mem_append, Set.mem_ofPred_eq, Set.mem_union]
    constructor
    · rintro ⟨a, ha | ha, rfl⟩
      · exact .inr ⟨a, ha, rfl⟩
      · exact .inl ⟨a, ha, rfl⟩
    · rintro (⟨a, ha, rfl⟩ | ⟨a, ha, rfl⟩)
      · exact ⟨a, .inr ha, rfl⟩
      · exact ⟨a, .inl ha, rfl⟩

end Bracketing

section Rank

variable {α β : Type*} [LinearOrder β]

/-- A marked value comes before every unmarked one. -/
def rank (marked : Bool) (value : β) : Bool ×ₗ β := toLex (!marked, value)

theorem min_rank (marked marked' : Bool) (value value' : β) :
    min (rank marked value) (rank marked' value') =
      rank (marked || marked')
        (if marked = marked' then min value value' else if marked then value else value') := by
  have halike : ∀ flag : Bool, min (toLex (flag, value)) (toLex (flag, value')) =
      toLex (flag, min value value') := by
    intro flag
    have hmono : ∀ {a b : β}, a ≤ b → toLex (flag, a) ≤ toLex (flag, b) := fun hle =>
      Prod.Lex.le_iff.mpr (.inr ⟨rfl, hle⟩)
    rcases le_total value value' with hle | hle
    · rw [min_eq_left hle, min_eq_left (hmono hle)]
    · rw [min_eq_right hle, min_eq_right (hmono hle)]
  cases marked <;> cases marked'
  · exact halike true
  · exact min_eq_right (Prod.Lex.le_iff.mpr (.inl Bool.false_lt_true))
  · exact min_eq_left (Prod.Lex.le_iff.mpr (.inl Bool.false_lt_true))
  · exact halike false

/-- Whether a layer counts: it is marked, or none is. -/
def Counts (marked : α → Bool) (layers : List α) (a : α) : Prop :=
  marked a = true ∨ ∀ other ∈ layers, marked other = false

/-- The least rank names the least value among the layers that count. -/
theorem isLeast_of_rank {marked : α → Bool} {value : α → β} {layers : List α} {a : Bool} {b : β}
    (h : IsLeast {r | ∃ c ∈ layers, rank (marked c) (value c) = r} (rank a b)) :
    a = layers.any marked ∧
      IsLeast {v | ∃ c ∈ layers, Counts marked layers c ∧ value c = v} b := by
  obtain ⟨⟨c, hc, hrank⟩, hle⟩ := h
  obtain ⟨ha, hb⟩ : marked c = a ∧ value c = b := by
    simpa [rank, Prod.ext_iff] using hrank
  have hbelow : ∀ d ∈ layers, (marked d = true → a = true) ∧ (marked d = a → b ≤ value d) := by
    intro d hd
    have hd := hle ⟨d, hd, rfl⟩
    rw [rank, rank, Prod.Lex.le_iff] at hd
    revert hd
    cases marked d <;> cases a <;> simp
  have hany : a = layers.any marked := by
    rw [Bool.eq_iff_iff, List.any_eq_true]
    exact ⟨fun h => ⟨c, hc, ha.trans h⟩, fun ⟨d, hd, hm⟩ => (hbelow d hd).1 hm⟩
  refine ⟨hany, ⟨c, hc, ?_, hb⟩, ?_⟩
  · cases a with
    | true => exact .inl ha
    | false => exact .inr fun d hd => by simpa using List.any_eq_false.mp hany.symm d hd
  · rintro v ⟨d, hd, hcounts, rfl⟩
    refine (hbelow d hd).2 ?_
    rcases hcounts with hmark | hnone
    · rw [hmark, (hbelow d hd).1 hmark]
    · rw [hnone d hd, ← ha, hnone c hc]

end Rank

end Layering
