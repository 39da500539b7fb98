import Camber.Inbound.Reader
import Camber.Policy.Resolution

/-! The request and transfer budgets of a layer, with the dimensions it set. -/

namespace Camber.Inbound

namespace RequestBudget

def unbounded : RequestBudget := ⟨none, none⟩

def withoutBodyIdle (budget : RequestBudget) : RequestBudget := { budget with bodyIdle := none }

def withoutTotal (budget : RequestBudget) : RequestBudget := { budget with total := none }

def narrowedBy (inner outer : RequestBudget) : RequestBudget where
  bodyIdle := narrow inner.bodyIdle outer.bodyIdle
  total := narrow inner.total outer.total

end RequestBudget

namespace TransferBudget

def unbounded : TransferBudget := ⟨none, none, none⟩

def withoutIdle (budget : TransferBudget) : TransferBudget := { budget with idle := none }

def withoutTotal (budget : TransferBudget) : TransferBudget := { budget with total := none }

end TransferBudget

end Camber.Inbound

namespace Camber.Policy
open Inbound PolicyValues

/-- The request and transfer budgets one layer configured, and the dimensions it set. -/
structure RouteBudgets extends Inbound.RouteBudgets where
  explicit : DimensionSet

def transferWithout (budget : TransferBudget) (dimensions : DimensionSet)
    (maxBytes idle total : PolicyDimension) : TransferBudget :=
  let budget := if maxBytes ∈ dimensions then budget.withoutMaxBytes else budget
  let budget := if idle ∈ dimensions then budget.withoutIdle else budget
  if total ∈ dimensions then budget.withoutTotal else budget

namespace RouteBudgets

def default : RouteBudgets := ⟨⟨.unbounded, .unbounded, .unbounded⟩, ∅⟩

def withRequest (budgets : RouteBudgets) (request : RequestBudget) : RouteBudgets :=
  { budgets with request, explicit := budgets.explicit ∪ DimensionSet.of PolicyDimension.request }

def withUpload (budgets : RouteBudgets) (upload : TransferBudget) : RouteBudgets :=
  { budgets with upload, explicit := budgets.explicit ∪ DimensionSet.of PolicyDimension.upload }

def withDownload (budgets : RouteBudgets) (download : TransferBudget) : RouteBudgets :=
  { budgets with download, explicit := budgets.explicit ∪ DimensionSet.of PolicyDimension.download }

def without (budgets : RouteBudgets) (dimensions : DimensionSet) : RouteBudgets :=
  let request := if .requestBodyIdle ∈ dimensions then budgets.request.withoutBodyIdle
    else budgets.request
  let request := if .requestTotal ∈ dimensions then request.withoutTotal else request
  { budgets with
    request
    upload := transferWithout budgets.upload dimensions .uploadMaxBytes .uploadIdle .uploadTotal
    download := transferWithout budgets.download dimensions .downloadMaxBytes .downloadIdle
      .downloadTotal }

def uploadDeadlinesOnly (budgets : RouteBudgets) : RouteBudgets :=
  { budgets with upload := budgets.upload.withoutMaxBytes }

instance : PolicyValues RouteBudgets where
  dimensions := PolicyDimension.route
  explicit := RouteBudgets.explicit
  value budgets
    | .requestBodyIdle => some (.duration budgets.request.bodyIdle)
    | .requestTotal => some (.duration budgets.request.total)
    | .uploadMaxBytes => some (.bytes budgets.upload.maxBytes)
    | .uploadIdle => some (.duration budgets.upload.idle)
    | .uploadTotal => some (.duration budgets.upload.total)
    | .downloadMaxBytes => some (.bytes budgets.download.maxBytes)
    | .downloadIdle => some (.duration budgets.download.idle)
    | .downloadTotal => some (.duration budgets.download.total)
    | .headerTimeout | .shutdownTimeout | .connectionLimit | .healthRoute
    | .profilingResponseLimit | .requestBodyHardCap | .requestBodyLimit => none

def located (budgets : RouteBudgets) (layer : PolicyLayer) : Located RouteBudgets where
  values := budgets
  sources := DimensionSources.collect PolicyDimension.route fun d =>
    if d ∈ budgets.explicit then PolicyLayers.one layer false else ∅

def containedBy (inner outer : RouteBudgets) : RouteBudgets :=
  let yields := yielded inner outer
  let inner := inner.without yields.1
  let outer := outer.without yields.2
  { request := inner.request.narrowedBy outer.request
    upload := inner.upload.narrowedBy outer.upload
    download := inner.download.narrowedBy outer.download
    explicit := inner.explicit ∪ outer.explicit }

instance : ContainedValues RouteBudgets where
  containedBy := containedBy

@[simp] theorem dimensions_eq : dimensions RouteBudgets = PolicyDimension.route := rfl

@[simp] theorem explicit_eq (budgets : RouteBudgets) :
    PolicyValues.explicit budgets = budgets.explicit := rfl

theorem bound_without (budgets : RouteBudgets) (dimensions : DimensionSet) {d : PolicyDimension}
    (hd : d ∈ PolicyDimension.route) :
    bound (budgets.without dimensions) d = if d ∈ dimensions then none else bound budgets d := by
  revert d
  simp only [PolicyDimension.forall_route, bound, value, without, transferWithout,
    Option.bind_some, PolicyValue.bound]
  refine ⟨?_, ?_, ?_, ?_, ?_, ?_, ?_, ?_⟩ <;> split_ifs <;> rfl

theorem bound_containedBy_eq_narrow (inner outer : RouteBudgets) {d : PolicyDimension}
    (hd : d ∈ PolicyDimension.route) :
    bound (inner.containedBy outer) d =
      narrow (bound (inner.without (yielded inner outer).1) d)
        (bound (outer.without (yielded inner outer).2) d) := by
  revert d
  rw [PolicyDimension.forall_route]
  exact ⟨rfl, rfl, rfl, rfl, rfl, rfl, rfl, rfl⟩

instance : Lawful RouteBudgets where
  value_eq budgets d hd _ := by
    revert d
    simp [PolicyDimension.forall_route, value, bound, PolicyDimension.carry, PolicyValue.bound]
  explicit_containedBy _ _ := rfl
  bound_containedBy inner outer d hd _ := by
    have hyields := mem_yielded inner outer d
    show bound (inner.containedBy outer) d = _
    rw [bound_containedBy_eq_narrow inner outer hd, bound_without _ _ hd, bound_without _ _ hd]
    cases hsupplier : supplier inner outer d with
    | inner =>
      rw [if_neg (by simp [hyields.1, hsupplier]), if_pos (hyields.2.mpr ⟨hd, hsupplier⟩)]
      cases bound inner d <;> rfl
    | outer =>
      rw [if_pos (hyields.1.mpr ⟨hd, hsupplier⟩), if_neg (by simp [hyields.2, hsupplier])]
      cases bound outer d <;> rfl
    | narrower =>
      rw [if_neg (by simp [hyields.1, hsupplier]), if_neg (by simp [hyields.2, hsupplier])]
      rfl

def Unset (budgets : RouteBudgets) : Prop :=
  ∀ d ∈ PolicyDimension.route, d ∉ budgets.explicit → bound budgets d = none

theorem unset_default : default.Unset := by
  simp [Unset, PolicyDimension.forall_route, default, bound, value, RequestBudget.unbounded,
    TransferBudget.unbounded, PolicyValue.bound]

variable {budgets : RouteBudgets}

theorem Unset.of_set {changed : RouteBudgets} {set : List PolicyDimension} (h : budgets.Unset)
    (hset : changed.explicit = budgets.explicit ∪ DimensionSet.of set)
    (hkept : ∀ d ∈ PolicyDimension.route, d ∉ set → bound changed d = bound budgets d) :
    changed.Unset := by
  intro d hd hnot
  simp only [hset, Finset.mem_union, DimensionSet.mem_of, not_or] at hnot
  rw [hkept d hd hnot.2]
  exact h d hd hnot.1

theorem unset_withRequest (h : budgets.Unset) (request : RequestBudget) :
    (budgets.withRequest request).Unset := by
  refine h.of_set rfl ?_
  simp [PolicyDimension.forall_route, PolicyDimension.request, withRequest, bound, value]

theorem unset_withUpload (h : budgets.Unset) (upload : TransferBudget) :
    (budgets.withUpload upload).Unset := by
  refine h.of_set rfl ?_
  simp [PolicyDimension.forall_route, PolicyDimension.upload, withUpload, bound, value]

theorem unset_withDownload (h : budgets.Unset) (download : TransferBudget) :
    (budgets.withDownload download).Unset := by
  refine h.of_set rfl ?_
  simp [PolicyDimension.forall_route, PolicyDimension.download, withDownload, bound, value]

end RouteBudgets

abbrev ConfiguredBudgets := { budgets : RouteBudgets // budgets.Unset }

end Camber.Policy
