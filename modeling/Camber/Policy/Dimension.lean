import Mathlib.Data.Finset.Basic
import Mathlib.Data.Finset.Insert
import Camber.Lib.Primitive

/-! The bounds a policy names, and which side of a containment edge supplies each. -/

namespace Camber.Policy

/-- One bound that a policy report names. -/
inductive PolicyDimension where
  | requestBodyIdle
  | requestTotal
  | uploadMaxBytes
  | uploadIdle
  | uploadTotal
  | downloadMaxBytes
  | downloadIdle
  | downloadTotal
  | headerTimeout
  | shutdownTimeout
  | connectionLimit
  | healthRoute
  | profilingResponseLimit
  | requestBodyHardCap
  | requestBodyLimit
deriving DecidableEq

/-- How an outer bound contains an inner bound of the same dimension. -/
inductive Containment where
  | intent
  | hard
deriving DecidableEq

/-- Which side of one containment edge supplies a resolved value. -/
inductive Supplier where
  | inner
  | outer
  | narrower
deriving DecidableEq

namespace PolicyDimension

def request : List PolicyDimension := [requestBodyIdle, requestTotal]

def upload : List PolicyDimension := [uploadMaxBytes, uploadIdle, uploadTotal]

def download : List PolicyDimension := [downloadMaxBytes, downloadIdle, downloadTotal]

def route : List PolicyDimension :=
  [requestBodyIdle, requestTotal, uploadMaxBytes, uploadIdle, uploadTotal, downloadMaxBytes,
    downloadIdle, downloadTotal]

theorem forall_route {P : PolicyDimension → Prop} :
    (∀ d ∈ route, P d) ↔ P requestBodyIdle ∧ P requestTotal ∧ P uploadMaxBytes ∧ P uploadIdle ∧
      P uploadTotal ∧ P downloadMaxBytes ∧ P downloadIdle ∧ P downloadTotal := by
  simp [route]

def serverOnly : List PolicyDimension :=
  [headerTimeout, shutdownTimeout, connectionLimit, healthRoute, requestBodyHardCap]

def server : List PolicyDimension := route ++ serverOnly ++ [profilingResponseLimit]

def containment : PolicyDimension → Containment
  | shutdownTimeout => .hard
  | _ => .intent

end PolicyDimension

abbrev DimensionSet := Finset PolicyDimension

def DimensionSet.of (dimensions : List PolicyDimension) : DimensionSet := dimensions.toFinset

@[simp] theorem DimensionSet.mem_of {dimensions : List PolicyDimension} {d : PolicyDimension} :
    d ∈ DimensionSet.of dimensions ↔ d ∈ dimensions := List.mem_toFinset

namespace Supplier

def choose {α : Type} (supplier : Supplier) (inner outer : α) (narrower : α → α → α) : α :=
  match supplier with
  | .inner => inner
  | .outer => outer
  | .narrower => narrower inner outer

end Supplier

namespace Containment

def supplier : Containment → Bool → Bool → Supplier
  | _, false, true => .outer
  | .intent, true, false => .inner
  | .hard, true, false => .narrower
  | _, true, true => .narrower
  | _, false, false => .narrower

theorem choose_intent {α : Type} (innerSet outerSet : Bool) (inner outer : α)
    (narrower : α → α → α) :
    (intent.supplier innerSet outerSet).choose inner outer narrower =
      if innerSet = outerSet then narrower inner outer else if innerSet then inner else outer := by
  cases innerSet <;> cases outerSet <;> rfl

theorem choose_hard {α : Type} (innerSet outerSet : Bool) (inner outer : α)
    (narrower : α → α → α) :
    (hard.supplier innerSet outerSet).choose inner outer narrower =
      if innerSet = false ∧ outerSet = true then outer else narrower inner outer := by
  cases innerSet <;> cases outerSet <;> rfl

end Containment

/-- A layer that supplied a service policy value. -/
inductive PolicyLayer where
  | runtime
  | server
  | host
  | router
  | route
deriving DecidableEq

def PolicyLayer.all : List PolicyLayer := [runtime, server, host, router, route]

structure LayerSource where
  layer : PolicyLayer
  defaulted : Bool
deriving DecidableEq

/-- Every layer tied at a resolved value, explicit or defaulted. -/
abbrev PolicyLayers := Finset LayerSource

namespace PolicyLayers

def one (layer : PolicyLayer) (defaulted : Bool) : PolicyLayers := {⟨layer, defaulted⟩}

def contains (layers : PolicyLayers) (layer : PolicyLayer) : Bool :=
  decide (⟨layer, false⟩ ∈ layers) || decide (⟨layer, true⟩ ∈ layers)

def iter (layers : PolicyLayers) : List LayerSource :=
  PolicyLayer.all.filterMap fun layer =>
    if layers.contains layer then some ⟨layer, decide (⟨layer, true⟩ ∈ layers)⟩ else none

theorem mem_of_mem_iter {layers : PolicyLayers} {source : LayerSource} (h : source ∈ layers.iter) :
    source ∈ layers := by
  obtain ⟨layer, -, hlisted⟩ := List.mem_filterMap.mp h
  split_ifs at hlisted with hcontains
  obtain rfl := Option.some.inj hlisted
  by_cases hdefault : (⟨layer, true⟩ : LayerSource) ∈ layers
  · simp [hdefault]
  · simpa [contains, hdefault] using hcontains

theorem iter_eq_nil {layers : PolicyLayers} : layers.iter = [] ↔ layers = ∅ := by
  constructor
  · intro h
    refine Finset.eq_empty_of_forall_notMem fun source hmem => ?_
    have hall : source.layer ∈ PolicyLayer.all := by
      cases source.layer <;> simp [PolicyLayer.all]
    have hnone := List.filterMap_eq_nil_iff.mp h source.layer hall
    have hcontains : layers.contains source.layer = true := by
      obtain ⟨layer, defaulted⟩ := source
      cases defaulted <;> simp [contains, hmem]
    simp [hcontains] at hnone
  · rintro rfl
    simp [iter, contains]

end PolicyLayers

/-- A resolved policy value and the layers that supplied it. -/
structure PolicyBound (α : Type) where
  value : α
  sources : PolicyLayers

def suppliedSources {α : Type} [DecidableEq α] (supplier : Supplier)
    (inner : α × PolicyLayers) (outer : α × PolicyLayers) (effective : α) : PolicyLayers :=
  match supplier, decide (inner.1 = effective), decide (outer.1 = effective) with
  | .narrower, true, true => inner.2 ∪ outer.2
  | .inner, _, _ => inner.2
  | .narrower, true, false => inner.2
  | .outer, _, _ => outer.2
  | .narrower, false, _ => outer.2

def PolicyBound.narrowedBy (inner outer : PolicyBound ℕ) : PolicyBound ℕ where
  value := min inner.value outer.value
  sources := suppliedSources .narrower (inner.value, inner.sources) (outer.value, outer.sources)
    (min inner.value outer.value)

/-- One layer's value of one dimension, with the intent that resolution reads. -/
structure Layered (α : Type) where
  bound : PolicyBound α
  explicit : Bool

namespace Layered

def at_ {α : Type} (value : α) (layer : PolicyLayer) (explicit : Bool) : Layered α :=
  ⟨⟨value, PolicyLayers.one layer (!explicit)⟩, explicit⟩

/-- This value inside `outer`, resolved by `containment`. -/
def containedBy {α : Type} [DecidableEq α] (inner outer : Layered α) (containment : Containment)
    (narrower : α → α → α) : Layered α :=
  let supplier := containment.supplier inner.explicit outer.explicit
  let value := supplier.choose inner.bound.value outer.bound.value narrower
  { bound :=
      { value
        sources := suppliedSources supplier (inner.bound.value, inner.bound.sources)
          (outer.bound.value, outer.bound.sources) value }
    explicit := inner.explicit || outer.explicit }

end Layered

abbrev DimensionSources := PolicyDimension → PolicyLayers

def DimensionSources.collect (dimensions : List PolicyDimension)
    (source : PolicyDimension → PolicyLayers) : DimensionSources :=
  dimensions.foldl (fun sources d => Function.update sources d (source d)) fun _ => ∅

theorem DimensionSources.collect_apply (dimensions : List PolicyDimension)
    (source : PolicyDimension → PolicyLayers) (d : PolicyDimension) :
    collect dimensions source d = if d ∈ dimensions then source d else ∅ := by
  -- the table the fold starts from is general
  have hfold : ∀ (start : DimensionSources),
      dimensions.foldl (fun sources d => Function.update sources d (source d)) start d =
        if d ∈ dimensions then source d else start d := by
    induction dimensions with
    | nil => simp
    | cons e rest ih =>
      intro start
      rw [List.foldl_cons, ih]
      by_cases hrest : d ∈ rest
      · simp [hrest]
      · by_cases he : d = e
        · subst he
          simp [hrest]
        · simp [hrest, he]
  exact hfold _

end Camber.Policy
