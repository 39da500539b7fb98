import Mathlib.Algebra.Group.Defs
import Camber.Inbound.Transfer
import Camber.Lib.Layering
import Camber.Policy.Dimension

/-! An explicit value on both sides resolves to the narrower one, a defaulted value yields to an
explicit one, two defaults resolve to the narrower one. -/

namespace Camber.Policy
open Str Inbound

inductive HealthRoute where
  | default
  | path (path : Text)
  | disabled
deriving DecidableEq

namespace HealthRoute

def narrowedBy : HealthRoute → HealthRoute → HealthRoute
  | disabled, _ => disabled
  | _, disabled => disabled
  | path p, _ => path p
  | default, outer => outer

instance : Monoid HealthRoute where
  mul outer inner := inner.narrowedBy outer
  one := default
  mul_assoc a b c := by cases a <;> cases b <;> cases c <;> rfl
  one_mul a := by cases a <;> rfl
  mul_one a := by cases a <;> rfl

theorem narrowedBy_eq_mul (inner outer : HealthRoute) : inner.narrowedBy outer = outer * inner :=
  rfl

end HealthRoute

/-- A configured or effective policy dimension. -/
inductive PolicyValue where
  | duration (value : Option ℕ)
  | bytes (value : Option ℕ)
  | health (route : HealthRoute)
deriving DecidableEq

def PolicyValue.bound : PolicyValue → Option ℕ
  | duration value => value
  | bytes value => value
  | health _ => none

def PolicyDimension.carry : PolicyDimension → Option ℕ → PolicyValue
  | .uploadMaxBytes | .downloadMaxBytes | .connectionLimit | .profilingResponseLimit
  | .requestBodyHardCap | .requestBodyLimit => .bytes
  | .requestBodyIdle | .requestTotal | .uploadIdle | .uploadTotal | .downloadIdle
  | .downloadTotal | .headerTimeout | .shutdownTimeout | .healthRoute => .duration

class PolicyValues (V : Type) where
  dimensions : List PolicyDimension
  explicit : V → DimensionSet
  value : V → PolicyDimension → Option PolicyValue

namespace PolicyValues

variable {V : Type} [PolicyValues V]

def supplier (inner outer : V) (d : PolicyDimension) : Supplier :=
  d.containment.supplier (decide (d ∈ explicit inner)) (decide (d ∈ explicit outer))

def bound (values : V) (d : PolicyDimension) : Option ℕ := (value values d).bind PolicyValue.bound

/-- One dimension's part of `yielded`. -/
def yieldStep (inner outer : V) (yields : DimensionSet × DimensionSet) (d : PolicyDimension) :
    DimensionSet × DimensionSet :=
  match supplier inner outer d with
  | .outer => (insert d yields.1, yields.2)
  | .inner => (yields.1, insert d yields.2)
  | .narrower => yields

/-- The dimensions each side of one edge gives up to the other: first where the inner side yields to
an explicit outer value, then where the outer side yields. -/
def yielded (inner outer : V) : DimensionSet × DimensionSet :=
  (dimensions V).foldl (yieldStep inner outer) (∅, ∅)

theorem mem_yielded (inner outer : V) (d : PolicyDimension) :
    (d ∈ (yielded inner outer).1 ↔ d ∈ dimensions V ∧ supplier inner outer d = .outer) ∧
      (d ∈ (yielded inner outer).2 ↔ d ∈ dimensions V ∧ supplier inner outer d = .inner) := by
  -- the sets the fold starts from are general
  have hfold : ∀ (listed : List PolicyDimension) (start : DimensionSet × DimensionSet),
      (d ∈ (listed.foldl (yieldStep inner outer) start).1 ↔
        d ∈ start.1 ∨ d ∈ listed ∧ supplier inner outer d = .outer) ∧
      (d ∈ (listed.foldl (yieldStep inner outer) start).2 ↔
        d ∈ start.2 ∨ d ∈ listed ∧ supplier inner outer d = .inner) := by
    intro listed
    induction listed with
    | nil => simp
    | cons e rest ih =>
      intro start
      rw [List.foldl_cons, (ih _).1, (ih _).2]
      by_cases hde : d = e
      · subst hde
        cases hd : supplier inner outer d <;> simp [yieldStep, hd]
      · cases he : supplier inner outer e <;> simp [yieldStep, he, hde]
  simpa [yielded] using hfold (dimensions V) (∅, ∅)

end PolicyValues

class ContainedValues (V : Type) extends PolicyValues V where
  containedBy : V → V → V

open PolicyValues ContainedValues

def limit : Option ℕ → WithTop ℕ
  | none => ⊤
  | some n => WithTop.some n

theorem limit_injective : Function.Injective limit := by
  intro a b h
  cases a <;> cases b <;> simp_all [limit]

theorem limit_narrow (inner outer : Option ℕ) :
    limit (narrow inner outer) = min (limit inner) (limit outer) := by
  cases inner <;> cases outer <;> simp [limit, narrow]

/-- Values that resolve every dimension but the health route by its containment rule. -/
class Lawful (V : Type) [ContainedValues V] : Prop where
  value_eq : ∀ (values : V) {d}, d ∈ dimensions V → d ≠ .healthRoute →
    value values d = some (d.carry (bound values d))
  explicit_containedBy : ∀ inner outer : V,
    explicit (containedBy inner outer) = explicit inner ∪ explicit outer
  bound_containedBy : ∀ (inner outer : V) {d}, d ∈ dimensions V → d ≠ .healthRoute →
    bound (containedBy inner outer) d =
      (supplier inner outer d).choose (bound inner d) (bound outer d) narrow

section Located

variable {V : Type} [ContainedValues V]

/-- Values and the layers that supplied each of them. -/
structure Located (V : Type) where
  values : V
  sources : DimensionSources

namespace Located

def containedBy (inner outer : Located V) : Located V :=
  let values := ContainedValues.containedBy inner.values outer.values
  { values
    sources := DimensionSources.collect (dimensions V) fun d =>
      suppliedSources (supplier inner.values outer.values d)
        (value inner.values d, inner.sources d) (value outer.values d, outer.sources d)
        (value values d) }

def withoutSource (located : Located V) (d : PolicyDimension) : Located V :=
  { located with sources := Function.update located.sources d ∅ }

end Located

end Located

def resolveInwards {V : Type} [ContainedValues V] (outermost : V) (rest : List V) : V :=
  rest.foldl (fun outer inner => containedBy inner outer) outermost

section Lawful

variable {V : Type} [ContainedValues V] [Lawful V]

def precedence (d : PolicyDimension) (values : V) : Bool ×ₗ WithTop ℕ :=
  Layering.rank (decide (d ∈ explicit values)) (limit (bound values d))

variable {d : PolicyDimension}

theorem precedence_containedBy (hd : d ∈ dimensions V) (hhealth : d ≠ .healthRoute)
    (hintent : d.containment = .intent) (inner outer : V) :
    precedence d (containedBy inner outer) = min (precedence d inner) (precedence d outer) := by
  unfold precedence
  rw [Layering.min_rank, Lawful.explicit_containedBy,
    Lawful.bound_containedBy inner outer hd hhealth, supplier, hintent, Containment.choose_intent]
  congr 1
  · simp
  · rw [apply_ite limit, apply_ite limit, limit_narrow]

theorem isLeast_resolved (hd : d ∈ dimensions V) (hhealth : d ≠ .healthRoute)
    (hintent : d.containment = .intent) (chain : Layering.Bracketing V) :
    IsLeast {v | ∃ layer ∈ chain.layers,
        Layering.Counts (fun layer => decide (d ∈ explicit layer)) chain.layers layer ∧
          limit (bound layer d) = v}
      (limit (bound (chain.combine containedBy) d)) :=
  (Layering.isLeast_of_rank (chain.isLeast_combine fun inner outer =>
    precedence_containedBy hd hhealth hintent inner outer)).2

theorem resolved_eq (hd : d ∈ dimensions V) (hhealth : d ≠ .healthRoute)
    (hintent : d.containment = .intent) {chain chain' : Layering.Bracketing V}
    (hlayers : chain.layers = chain'.layers) :
    value (chain.combine containedBy) d = value (chain'.combine containedBy) d := by
  have hleast := isLeast_resolved hd hhealth hintent chain
  rw [hlayers] at hleast
  have hlimit := hleast.unique (isLeast_resolved hd hhealth hintent chain')
  rw [Lawful.value_eq _ hd hhealth, Lawful.value_eq _ hd hhealth, limit_injective hlimit]

end Lawful

end Camber.Policy
