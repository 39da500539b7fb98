import Camber.Policy.Effective

/-! `Traced` says which layers stand beside a value. One containment edge keeps it. -/

namespace Camber.Policy
open PolicyValues ContainedValues PolicyDimension

structure Holding (α : Type) where
  layer : PolicyLayer
  value : α
  set : Bool

def Overridden {α : Type} (containment : Containment) (outside : List (Holding α))
    (holding : Holding α) (inside : List (Holding α)) : Prop :=
  holding.set = false ∧
    match containment with
    | .intent => ∃ other ∈ outside ++ inside, other.set
    | .hard => ∃ other ∈ outside, other.set

/-- A layer named by `source` in a chain that resolved to `value`. -/
def Named {α : Type} (containment : Containment) (chain : List (Holding α)) (value : α)
    (source : LayerSource) : Prop :=
  ∃ outside holding inside, chain = outside ++ holding :: inside ∧
    holding.layer = source.layer ∧ holding.value = value ∧ source.defaulted = !holding.set ∧
      ¬ Overridden containment outside holding inside

structure Traced {α : Type} (finite : α → Bool) (containment : Containment)
    (chain : List (Holding α)) (value : α) (explicit : Bool) (sources : PolicyLayers) : Prop where
  explicit_iff : explicit = true ↔ ∃ holding ∈ chain, holding.set
  named : ∀ source ∈ sources, Named containment chain value source
  finite_named : finite value → sources.Nonempty

def Supplied {α : Type} : Supplier → α → α → α → Prop
  | .inner, inner, _, effective => effective = inner
  | .outer, _, outer, effective => effective = outer
  | .narrower, inner, outer, effective => effective = inner ∨ effective = outer

section Edge

variable {α : Type} [DecidableEq α] {supplier : Supplier} {inner outer effective : α}
  {innerSources outerSources : PolicyLayers}

theorem mem_suppliedSources (hsupplied : Supplied supplier inner outer effective)
    {source : LayerSource}
    (h : source ∈ suppliedSources supplier (inner, innerSources) (outer, outerSources) effective) :
    (supplier ≠ .outer ∧ inner = effective ∧ source ∈ innerSources) ∨
      (supplier ≠ .inner ∧ outer = effective ∧ source ∈ outerSources) := by
  cases supplier with
  | inner => exact .inl ⟨by decide, hsupplied.symm, h⟩
  | outer => exact .inr ⟨by decide, hsupplied.symm, h⟩
  | narrower =>
    by_cases hinner : inner = effective
    · by_cases houter : outer = effective
      · simp only [suppliedSources, hinner, houter, decide_true, Finset.mem_union] at h
        exact h.imp (⟨by decide, hinner, ·⟩) (⟨by decide, houter, ·⟩)
      · simp only [suppliedSources, hinner, houter, decide_true, decide_false] at h
        exact .inl ⟨by decide, hinner, h⟩
    · have houter : outer = effective := (hsupplied.resolve_left (Ne.symm hinner)).symm
      simp only [suppliedSources, hinner, decide_false] at h
      exact .inr ⟨by decide, houter, h⟩

theorem suppliedSources_nonempty (hsupplied : Supplied supplier inner outer effective)
    (hinner : inner = effective → innerSources.Nonempty)
    (houter : outer = effective → outerSources.Nonempty) :
    (suppliedSources supplier (inner, innerSources) (outer, outerSources) effective).Nonempty := by
  cases supplier with
  | inner => exact hinner hsupplied.symm
  | outer => exact houter hsupplied.symm
  | narrower =>
    by_cases hi : inner = effective
    · by_cases ho : outer = effective
      · simp only [suppliedSources, hi, ho, decide_true]
        exact (hinner hi).mono Finset.subset_union_left
      · simp only [suppliedSources, hi, ho, decide_true, decide_false]
        exact hinner hi
    · have ho : outer = effective := (hsupplied.resolve_left (Ne.symm hi)).symm
      simp only [suppliedSources, hi, decide_false]
      exact houter ho

end Edge

section Traced

variable {α : Type} {finite : α → Bool} {containment : Containment} {chain : List (Holding α)}
  {value effective : α} {explicit : Bool} {sources : PolicyLayers}

structure SelfNamed (finite : α → Bool) (holding : Holding α) (sources : PolicyLayers) :
    Prop where
  named : ∀ source ∈ sources, source = ⟨holding.layer, !holding.set⟩
  finite_named : finite holding.value → sources.Nonempty

theorem SelfNamed.traced {holding : Holding α} (h : SelfNamed finite holding sources) :
    Traced finite containment [holding] holding.value holding.set sources where
  explicit_iff := by simp
  named source hsource := by
    obtain rfl := h.named source hsource
    refine ⟨[], holding, [], rfl, rfl, rfl, rfl, ?_⟩
    rintro ⟨-, hset⟩
    cases containment <;> simp at hset
  finite_named := h.finite_named

theorem Named.append {source : LayerSource} (h : Named containment chain value source)
    (holding : Holding α)
    (hkept : holding.set = true → containment = .intent →
      ∃ other ∈ chain, other.set) : Named containment (chain ++ [holding]) value source := by
  obtain ⟨outside, named, inside, rfl, hlayer, hvalue, htag, hover⟩ := h
  refine ⟨outside, named, inside ++ [holding], by simp, hlayer, hvalue, htag, ?_⟩
  rintro ⟨hunset, hother⟩
  apply hover
  refine ⟨hunset, ?_⟩
  cases containment with
  | hard => exact hother
  | intent =>
    -- a set layer further in is not the first: the chain had one already
    obtain ⟨other, hmem, hset⟩ := hother
    simp only [List.mem_append, List.mem_singleton] at hmem
    rcases hmem with hmem | hmem | rfl
    · exact ⟨other, by simp [hmem], hset⟩
    · exact ⟨other, by simp [hmem], hset⟩
    · obtain ⟨first, hfirst, hfirstSet⟩ := hkept hset rfl
      simp only [List.mem_append, List.mem_cons] at hfirst
      rcases hfirst with hfirst | rfl | hfirst
      · exact ⟨first, by simp [hfirst], hfirstSet⟩
      · rw [hunset] at hfirstSet
        cases hfirstSet
      · exact ⟨first, by simp [hfirst], hfirstSet⟩

theorem Traced.append [DecidableEq α] (h : Traced finite containment chain value explicit sources)
    {holding : Holding α} {own : PolicyLayers} (hown : SelfNamed finite holding own)
    (hsupplied : Supplied (containment.supplier holding.set explicit) holding.value value
      effective) :
    Traced finite containment (chain ++ [holding]) effective (holding.set || explicit)
      (suppliedSources (containment.supplier holding.set explicit) (holding.value, own)
        (value, sources) effective) where
  explicit_iff := by
    simp only [Bool.or_eq_true, h.explicit_iff, List.mem_append, List.mem_singleton]
    constructor
    · rintro (hset | ⟨other, hmem, hset⟩)
      · exact ⟨holding, .inr rfl, hset⟩
      · exact ⟨other, .inl hmem, hset⟩
    · rintro ⟨other, hmem | rfl, hset⟩
      · exact .inr ⟨other, hmem, hset⟩
      · exact .inl hset
  named source hsource := by
    rcases mem_suppliedSources hsupplied hsource with ⟨hside, rfl, hmem⟩ | ⟨hside, rfl, hmem⟩
    · -- the inner layer supplies: it set the value, or no layer outside it did
      obtain rfl := hown.named source hmem
      refine ⟨chain, holding, [], rfl, rfl, rfl, rfl, ?_⟩
      rintro ⟨hunset, hother⟩
      have hexplicit : explicit = true := by
        rw [h.explicit_iff]
        cases containment with
        | hard => exact hother
        | intent => simpa using hother
      rw [hunset, hexplicit] at hside
      cases containment <;> exact hside rfl
    · -- the chain supplies: an inner value that was set narrows with one that was set
      apply (h.named source hmem).append holding
      intro hset hintent
      rw [← h.explicit_iff]
      by_contra hexplicit
      rw [Bool.not_eq_true] at hexplicit
      rw [hset, hintent, hexplicit] at hside
      exact hside rfl
  finite_named hfinite := by
    apply suppliedSources_nonempty hsupplied
    · rintro rfl
      exact hown.finite_named hfinite
    · rintro rfl
      exact h.finite_named hfinite

end Traced

def finite : Option PolicyValue → Bool
  | some (.duration value) | some (.bytes value) => value.isSome
  | some (.health _) => true
  | none => false

theorem finite_carry (d : PolicyDimension) (bound : Option ℕ) :
    finite (some (d.carry bound)) = bound.isSome := by
  cases d <;> rfl

def Holding.of {V : Type} [PolicyValues V] (layer : PolicyLayer) (values : V)
    (d : PolicyDimension) : Holding (Option PolicyValue) :=
  ⟨layer, PolicyValues.value values d, decide (d ∈ explicit values)⟩

theorem narrow_eq_or (inner outer : Option ℕ) :
    Inbound.narrow inner outer = inner ∨ Inbound.narrow inner outer = outer := by
  cases inner with
  | none => exact .inr (narrow_none_left outer)
  | some a =>
    cases outer with
    | none => exact .inl rfl
    | some b => exact (min_choice a b).imp (congrArg some) (congrArg some)

section Located

variable {V : Type} [ContainedValues V]

def TracedAt (chain : List (Holding (Option PolicyValue))) (located : Located V)
    (d : PolicyDimension) : Prop :=
  Traced finite d.containment chain (value located.values d)
    (decide (d ∈ explicit located.values)) (located.sources d)

theorem supplied_of_lawful [Lawful V] (inner outer : V) {d : PolicyDimension}
    (hd : d ∈ dimensions V) (hhealth : d ≠ .healthRoute) :
    Supplied (supplier inner outer d) (value inner d) (value outer d)
      (value (containedBy inner outer) d) := by
  rw [Lawful.value_eq inner hd hhealth, Lawful.value_eq outer hd hhealth,
    Lawful.value_eq (containedBy inner outer) hd hhealth,
    Lawful.bound_containedBy inner outer hd hhealth]
  cases supplier inner outer d with
  | inner => exact rfl
  | outer => exact rfl
  | narrower =>
    show some _ = some _ ∨ some _ = some _
    rcases narrow_eq_or (bound inner d) (bound outer d) with hnarrow | hnarrow
    · exact .inl (by rw [Supplier.choose, hnarrow])
    · exact .inr (by rw [Supplier.choose, hnarrow])

theorem TracedAt.inside [Lawful V] {chain : List (Holding (Option PolicyValue))}
    {outer : Located V} {d : PolicyDimension} {layer : PolicyLayer}
    (h : TracedAt chain outer d) (inner : Located V) (hd : d ∈ dimensions V)
    (hown : SelfNamed finite (.of layer inner.values d) (inner.sources d))
    (hsupplied : Supplied (supplier inner.values outer.values d) (value inner.values d)
      (value outer.values d) (value (containedBy inner.values outer.values) d)) :
    TracedAt (chain ++ [.of layer inner.values d]) (inner.containedBy outer) d := by
  have hstep := Traced.append h hown
    (show Supplied (d.containment.supplier (Holding.of layer inner.values d).set _) _ _
      (value (containedBy inner.values outer.values) d) from hsupplied)
  have hexplicit : decide (d ∈ explicit (ContainedValues.containedBy inner.values outer.values)) =
      (decide (d ∈ explicit inner.values) || decide (d ∈ explicit outer.values)) := by
    rw [Lawful.explicit_containedBy]
    simp
  have hsources : (inner.containedBy outer).sources d =
      suppliedSources (supplier inner.values outer.values d)
        (value inner.values d, inner.sources d) (value outer.values d, outer.sources d)
        (value (ContainedValues.containedBy inner.values outer.values) d) := by
    simp only [Located.containedBy, DimensionSources.collect_apply, if_pos hd]
  unfold TracedAt
  rw [hsources, show (inner.containedBy outer).values =
    ContainedValues.containedBy inner.values outer.values from rfl, hexplicit]
  exact hstep

end Located

variable {d : PolicyDimension}

theorem RouteBudgets.selfNamed_located {budgets : RouteBudgets} (h : budgets.Unset)
    (layer : PolicyLayer) (hd : d ∈ route) :
    SelfNamed finite (.of layer budgets d) ((budgets.located layer).sources d) := by
  have hsources : (budgets.located layer).sources d =
      if d ∈ budgets.explicit then PolicyLayers.one layer false else ∅ := by
    simp only [RouteBudgets.located, DimensionSources.collect_apply, if_pos hd]
  rw [hsources]
  by_cases hset : d ∈ budgets.explicit
  · rw [if_pos hset]
    refine ⟨fun source hsource => ?_, fun _ => Finset.singleton_nonempty _⟩
    rw [Finset.mem_singleton.mp hsource]
    simp [Holding.of, hset]
  · rw [if_neg hset]
    refine ⟨fun source hsource => absurd hsource (Finset.notMem_empty _), fun hfinite => ?_⟩
    have hnone := h d hd hset
    rw [Holding.of, Lawful.value_eq budgets hd (ne_healthRoute_of_route hd), finite_carry,
      hnone] at hfinite
    cases hfinite

theorem ServerPolicy.selfNamed_located (policy : ServerPolicy) (layer : PolicyLayer)
    (hd : d ∈ server) :
    SelfNamed finite (.of layer policy d) ((policy.located layer).sources d) := by
  have hsources : (policy.located layer).sources d =
      PolicyLayers.one layer (decide (d ∉ policy.explicit)) := by
    simp only [ServerPolicy.located, DimensionSources.collect_apply, if_pos hd]
  rw [hsources]
  refine ⟨fun source hsource => ?_, fun _ => Finset.singleton_nonempty _⟩
  rw [Finset.mem_singleton.mp hsource]
  simp [Holding.of]

theorem ServerPolicy.supplied_healthRoute {inner outer : ServerPolicy} (hinner : inner.Unset)
    (houter : outer.Unset) :
    Supplied (supplier inner outer .healthRoute) (value inner .healthRoute)
      (value outer .healthRoute) (value (inner.containedBy outer) .healthRoute) := by
  show Supplied (Containment.intent.supplier (decide (.healthRoute ∈ inner.explicit))
    (decide (.healthRoute ∈ outer.explicit))) (some (PolicyValue.health inner.healthRoute))
    (some (PolicyValue.health outer.healthRoute))
    (some (PolicyValue.health (inner.healthRoute.narrowedBy outer.healthRoute)))
  by_cases hi : .healthRoute ∈ inner.explicit
  · by_cases ho : .healthRoute ∈ outer.explicit
    · simp only [hi, ho, decide_true, Containment.supplier, Supplied]
      cases inner.healthRoute <;> cases outer.healthRoute <;> simp [HealthRoute.narrowedBy]
    · simp only [hi, ho, decide_true, decide_false, Containment.supplier, Supplied,
        houter.health ho]
      cases inner.healthRoute <;> rfl
  · by_cases ho : .healthRoute ∈ outer.explicit
    · simp only [hi, ho, decide_true, decide_false, Containment.supplier, Supplied,
        hinner.health hi]
      cases outer.healthRoute <;> rfl
    · simp only [hi, ho, decide_false, Containment.supplier, Supplied, hinner.health hi]
      exact .inr (by cases outer.healthRoute <;> rfl)

theorem ServerPolicy.supplied {inner outer : ServerPolicy} (hinner : inner.Unset)
    (houter : outer.Unset) (hd : d ∈ server) :
    Supplied (supplier inner outer d) (value inner d) (value outer d)
      (value (inner.containedBy outer) d) := by
  by_cases hhealth : d = .healthRoute
  · subst hhealth
    exact supplied_healthRoute hinner houter
  · exact supplied_of_lawful inner outer hd hhealth

theorem RouteBudgets.tracedAt_containedBy {chain : List (Holding (Option PolicyValue))}
    {outer : Located RouteBudgets} {budgets : RouteBudgets} (hbudgets : budgets.Unset)
    (layer : PolicyLayer) (hd : d ∈ route) (h : TracedAt chain outer d) :
    TracedAt (chain ++ [.of layer budgets d]) ((budgets.located layer).containedBy outer) d :=
  h.inside (budgets.located layer) hd (selfNamed_located hbudgets layer hd)
    (supplied_of_lawful budgets outer.values hd (ne_healthRoute_of_route hd))

def serverChain (own : ServerPolicy) (outer : Option ServerPolicy) (d : PolicyDimension) :
    List (Holding (Option PolicyValue)) :=
  (outer.toList.map fun policy => .of .runtime policy d) ++ [.of .server own d]

theorem EffectiveServerPolicy.tracedAt_policy {own : ServerPolicy} {outer : Option ServerPolicy}
    (hown : own.Unset) (houter : ∀ policy ∈ outer, policy.Unset) (hd : d ∈ server) :
    TracedAt (serverChain own outer d) (resolve own outer).policy d := by
  cases outer with
  | none => exact (own.selfNamed_located .server hd).traced
  | some outer =>
    have houtermost : TracedAt [.of .runtime outer d] (outer.located .runtime) d :=
      (outer.selfNamed_located .runtime hd).traced
    exact houtermost.inside (own.located .server) hd (own.selfNamed_located .server hd)
      (ServerPolicy.supplied hown (houter outer rfl) hd)

theorem mem_server_of_route (hd : d ∈ route) : d ∈ server :=
  List.mem_append_left _ (List.mem_append_left _ hd)

theorem EffectiveServerPolicy.tracedAt_routeBudgets {own : ServerPolicy}
    {outer : Option ServerPolicy} (hown : own.Unset) (houter : ∀ policy ∈ outer, policy.Unset)
    (hd : d ∈ route) :
    TracedAt (serverChain own outer d) (resolve own outer).routeBudgets d := by
  have htraced := tracedAt_policy hown houter (mem_server_of_route hd)
  unfold TracedAt at htraced ⊢
  have hexplicit : decide (d ∈ explicit (resolve own outer).routeBudgets.values) =
      decide (d ∈ explicit (resolve own outer).policy.values) := by
    simp [routeBudgets, ServerPolicy.routeBudgets, hd]
  have hsources : (resolve own outer).routeBudgets.sources d =
      (resolve own outer).policy.sources d := by
    simp only [routeBudgets, DimensionSources.collect_apply, if_pos hd]
  rw [hexplicit, hsources]
  rw [ServerPolicy.value_routeBudgets _ hd] at htraced
  exact htraced

end Camber.Policy
