import Camber.Policy.Server

/-! A server's policy resolves inside the runtime's once, at startup. -/

namespace Camber.Policy
open PolicyValues ContainedValues Inbound PolicyDimension

def Located.uploadDeadlinesOnly (located : Located RouteBudgets) : Located RouteBudgets :=
  withoutSource { located with values := located.values.uploadDeadlinesOnly } .uploadMaxBytes

/-- The server's frozen envelope and shutdown configuration. -/
structure EffectiveServerPolicy where
  policy : Located ServerPolicy
  runtimeShutdown : Option ℕ
  localShutdown : ℕ

namespace EffectiveServerPolicy

def resolve (own : ServerPolicy) (outer : Option ServerPolicy) : EffectiveServerPolicy where
  policy :=
    match outer with
    | some outer => (own.located .server).containedBy (outer.located .runtime)
    | none => own.located .server
  runtimeShutdown := outer.map ServerPolicy.shutdownTimeout
  localShutdown := own.shutdownTimeout

def routeBudgets (effective : EffectiveServerPolicy) : Located RouteBudgets where
  values := effective.policy.values.routeBudgets
  sources := DimensionSources.collect route effective.policy.sources

/-- The finite ceiling containing every configured request-body limit. -/
def requestBodyHardCap (effective : EffectiveServerPolicy) : PolicyBound ℕ :=
  ⟨effective.policy.values.requestBodyHardCap, effective.policy.sources .requestBodyHardCap⟩

end EffectiveServerPolicy

def RouteBudgets.TransferUnset (budgets : RouteBudgets) : Prop :=
  ∀ d ∈ upload ++ download, d ∉ budgets.explicit →
    bound budgets d = none

theorem mem_route_of_transfer {d : PolicyDimension}
    (hd : d ∈ upload ++ download) : d ∈ route := by
  revert hd
  cases d <;> decide

theorem ne_healthRoute_of_route {d : PolicyDimension} (hd : d ∈ route) :
    d ≠ .healthRoute := by
  rintro rfl
  revert hd
  decide

@[simp] theorem narrow_none_left (outer : Option ℕ) : narrow none outer = outer := by
  cases outer <;> rfl

@[simp] theorem narrow_none_right (inner : Option ℕ) : narrow inner none = inner := by
  cases inner <;> rfl

namespace RouteBudgets

theorem transferUnset_of_unset {budgets : RouteBudgets} (h : budgets.Unset) :
    budgets.TransferUnset :=
  fun d hd => h d (mem_route_of_transfer hd)

variable {d : PolicyDimension} {inner outer : RouteBudgets}

theorem containment_of_route (hd : d ∈ route) : d.containment = .intent := by
  revert hd
  cases d <;> decide

theorem bound_containedBy_eq (inner outer : RouteBudgets) (hd : d ∈ route) :
    bound (inner.containedBy outer) d =
      if decide (d ∈ inner.explicit) = decide (d ∈ outer.explicit) then
        narrow (bound inner d) (bound outer d)
      else if decide (d ∈ inner.explicit) then bound inner d else bound outer d := by
  have hbound := Lawful.bound_containedBy inner outer (d := d) hd (ne_healthRoute_of_route hd)
  rw [supplier, containment_of_route hd, Containment.choose_intent] at hbound
  exact hbound

theorem bound_containedBy_of_unset (hd : d ∈ route)
    (hinner : d ∉ inner.explicit → bound inner d = none)
    (houter : d ∉ outer.explicit → bound outer d = none) :
    bound (inner.containedBy outer) d = narrow (bound inner d) (bound outer d) := by
  rw [bound_containedBy_eq inner outer hd]
  split_ifs with hsame hset
  · rfl
  · rw [houter, narrow_none_right]
    intro hmem
    simp_all
  · rw [hinner, narrow_none_left]
    simpa using hset

theorem bound_containedBy_of_absent (outer : RouteBudgets) (hd : d ∈ route)
    (hset : d ∉ inner.explicit) (hnone : bound inner d = none) :
    bound (inner.containedBy outer) d = bound outer d := by
  rw [bound_containedBy_eq inner outer hd, hnone, narrow_none_left]
  simp [hset]

theorem transferUnset_containedBy (hinner : inner.TransferUnset) (houter : outer.TransferUnset) :
    (inner.containedBy outer).TransferUnset := by
  intro d hd hset
  have hset : d ∉ inner.explicit ∧ d ∉ outer.explicit := by
    rw [← not_or, ← Finset.mem_union]
    exact hset
  rw [bound_containedBy_of_unset (mem_route_of_transfer hd) (hinner d hd) (houter d hd),
    hinner d hd hset.1, hset.2 |> houter d hd]
  rfl

theorem transfer_containedBy {own : RouteBudgets} (hown : own.TransferUnset)
    (houter : outer.TransferUnset) :
    (own.containedBy outer).upload = own.upload.narrowedBy outer.upload ∧
      (own.containedBy outer).download = own.download.narrowedBy outer.download := by
  have hbound : ∀ d ∈ upload ++ download,
      bound (own.containedBy outer) d = narrow (bound own d) (bound outer d) := fun d hd =>
    bound_containedBy_of_unset (mem_route_of_transfer hd) (hown d hd) (houter d hd)
  rw [TransferBudget.mk.injEq, TransferBudget.mk.injEq]
  exact ⟨⟨hbound .uploadMaxBytes (by decide), hbound .uploadIdle (by decide),
    hbound .uploadTotal (by decide)⟩, hbound .downloadMaxBytes (by decide),
    hbound .downloadIdle (by decide), hbound .downloadTotal (by decide)⟩

end RouteBudgets

theorem EffectiveServerPolicy.transferUnset_routeBudgets {own : ServerPolicy}
    {outer : Option ServerPolicy} (hown : own.Unset) (houter : ∀ policy ∈ outer, policy.Unset) :
    (resolve own outer).routeBudgets.values.TransferUnset := by
  have hpolicy : ∀ {policy : ServerPolicy}, policy.Unset → policy.routeBudgets.TransferUnset := by
    intro policy h d hd hset
    have hroute := mem_route_of_transfer hd
    rw [bound, ← ServerPolicy.value_routeBudgets policy hroute]
    apply h.transfer d hd
    simpa [ServerPolicy.routeBudgets, hroute] using hset
  cases outer with
  | none => exact hpolicy hown
  | some outer =>
    show (own.containedBy outer).routeBudgets.TransferUnset
    rw [ServerPolicy.routeBudgets_containedBy]
    exact RouteBudgets.transferUnset_containedBy (hpolicy hown) (hpolicy (houter outer rfl))

end Camber.Policy
