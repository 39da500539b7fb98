import Camber.Dispatch.Registration

/-! Folded from the outermost layer inwards, a dimension resolves to the least bound among the
layers that count. -/

namespace Camber.Policy
open PolicyValues ContainedValues Layering

def LeastCounting {V : Type} [PolicyValues V] (layers : List V) (d : PolicyDimension)
    (resolved : V) : Prop :=
  IsLeast {v | ∃ layer ∈ layers,
      Counts (fun layer => decide (d ∈ explicit layer)) layers layer ∧
        limit (bound layer d) = v}
    (limit (bound resolved d))

section Lawful

variable {V : Type} [ContainedValues V] [Lawful V]

omit [Lawful V] in
theorem resolveInwards_eq (outermost : V) (rest : List V) :
    resolveInwards outermost rest =
      (Bracketing.inwards outermost rest).combine containedBy :=
  (Bracketing.combine_inwards containedBy outermost rest).symm

theorem leastCounting_resolveInwards {d : PolicyDimension} (hd : d ∈ dimensions V)
    (hhealth : d ≠ .healthRoute) (hintent : d.containment = .intent) (outermost : V)
    (rest : List V) : LeastCounting (outermost :: rest) d (resolveInwards outermost rest) := by
  have hleast := isLeast_resolved hd hhealth hintent (.inwards outermost rest)
  rw [Bracketing.layers_inwards, ← resolveInwards_eq] at hleast
  exact hleast

theorem value_combine {d : PolicyDimension} (hd : d ∈ dimensions V) (hhealth : d ≠ .healthRoute)
    (hintent : d.containment = .intent) {chain : Bracketing V} {outermost : V}
    {rest : List V} (hlayers : chain.layers = outermost :: rest) :
    value (chain.combine containedBy) d = value (resolveInwards outermost rest) d := by
  rw [resolveInwards_eq]
  exact resolved_eq hd hhealth hintent (by simp [hlayers])

end Lawful

theorem containment_eq_intent {d : PolicyDimension} (h : d ≠ .shutdownTimeout) :
    d.containment = .intent := by
  cases d <;> first | rfl | exact absurd rfl h

theorem healthRoute_combine (chain : Bracketing ServerPolicy) :
    (chain.combine containedBy).healthRoute = (chain.layers.map ServerPolicy.healthRoute).prod :=
  chain.read_combine fun inner outer =>
    HealthRoute.narrowedBy_eq_mul inner.healthRoute outer.healthRoute

def setsShutdown (policy : ServerPolicy) : Prop := .shutdownTimeout ∈ policy.explicit

instance (policy : ServerPolicy) : Decidable (setsShutdown policy) :=
  inferInstanceAs (Decidable (_ ∈ _))

theorem setsShutdown_resolveInwards (outermost : ServerPolicy) (rest : List ServerPolicy) :
    setsShutdown (resolveInwards outermost rest) ↔
      ∃ layer ∈ outermost :: rest, setsShutdown layer := by
  induction rest using List.reverseRecOn with
  | nil => simp [resolveInwards]
  | append_singleton rest inner ih =>
    have hstep : setsShutdown (resolveInwards outermost (rest ++ [inner])) ↔
        setsShutdown inner ∨ setsShutdown (resolveInwards outermost rest) := by
      simp only [resolveInwards, List.foldl_append, List.foldl_cons, List.foldl_nil]
      exact Finset.mem_union
    rw [hstep, ih]
    simp only [List.mem_cons, List.mem_append, List.not_mem_nil, or_false]
    grind

theorem shutdownTimeout_containedBy (inner outer : ServerPolicy) :
    (inner.containedBy outer).shutdownTimeout =
      if ¬ setsShutdown inner ∧ setsShutdown outer then outer.shutdownTimeout
      else min inner.shutdownTimeout outer.shutdownTimeout := by
  have hhard := Containment.choose_hard (decide (.shutdownTimeout ∈ inner.explicit))
    (decide (.shutdownTimeout ∈ outer.explicit)) inner.shutdownTimeout outer.shutdownTimeout min
  simp only [decide_eq_false_iff_not, decide_eq_true_eq] at hhard
  exact hhard

def CountingShutdown (layers : List ServerPolicy) (timeout : ℕ) : Prop :=
  ∃ outside layer inside, layers = outside ++ layer :: inside ∧
    (setsShutdown layer ∨ ∀ outer ∈ outside, ¬ setsShutdown outer) ∧
      layer.shutdownTimeout = timeout

theorem countingShutdown_append {layers : List ServerPolicy} {inner : ServerPolicy} {timeout : ℕ} :
    CountingShutdown (layers ++ [inner]) timeout ↔
      CountingShutdown layers timeout ∨
        (setsShutdown inner ∨ ∀ outer ∈ layers, ¬ setsShutdown outer) ∧
          inner.shutdownTimeout = timeout := by
  constructor
  · rintro ⟨outside, layer, inside, hsplit, hcounts, htimeout⟩
    rcases List.eq_nil_or_concat inside with rfl | ⟨inside, last, rfl⟩
    · obtain ⟨rfl, hlayer⟩ := List.append_inj' hsplit rfl
      obtain rfl : inner = layer := by simpa using hlayer
      exact .inr ⟨hcounts, htimeout⟩
    · have hsplit' : layers ++ [inner] = (outside ++ layer :: inside) ++ [last] := by
        simpa using hsplit
      obtain ⟨rfl, -⟩ := List.append_inj' hsplit' rfl
      exact .inl ⟨outside, layer, inside, rfl, hcounts, htimeout⟩
  · rintro (⟨outside, layer, inside, rfl, hcounts, htimeout⟩ | ⟨hcounts, htimeout⟩)
    · exact ⟨outside, layer, inside ++ [inner], by simp, hcounts, htimeout⟩
    · exact ⟨layers, inner, [], rfl, hcounts, htimeout⟩

theorem isLeast_shutdownTimeout (outermost : ServerPolicy) (rest : List ServerPolicy) :
    CountingShutdown (outermost :: rest) (resolveInwards outermost rest).shutdownTimeout ∧
      ∀ timeout, CountingShutdown (outermost :: rest) timeout →
        (resolveInwards outermost rest).shutdownTimeout ≤ timeout := by
  induction rest using List.reverseRecOn with
  | nil =>
    refine ⟨⟨[], outermost, [], rfl, .inr (by simp), rfl⟩, ?_⟩
    rintro timeout ⟨outside, layer, inside, hsplit, -, rfl⟩
    obtain ⟨rfl, rfl, rfl⟩ : outside = [] ∧ layer = outermost ∧ inside = [] := by
      cases outside <;> simp_all
    exact le_rfl
  | append_singleton rest inner ih =>
    obtain ⟨hcounted, hleast⟩ := ih
    have hfold : resolveInwards outermost (rest ++ [inner]) =
        inner.containedBy (resolveInwards outermost rest) := by
      rw [resolveInwards, List.foldl_append]
      rfl
    have houter := setsShutdown_resolveInwards outermost rest
    simp only [hfold, ← List.cons_append, countingShutdown_append, shutdownTimeout_containedBy]
    split_ifs with hyields
    · -- the inner default yields, so its deadline does not count
      refine ⟨.inl hcounted, ?_⟩
      rintro timeout (h | ⟨h | h, -⟩)
      · exact hleast timeout h
      · exact absurd h hyields.1
      · obtain ⟨layer, hlayer, hset⟩ := houter.mp hyields.2
        exact absurd hset (h layer hlayer)
    · have hcounts : setsShutdown inner ∨ ∀ outer ∈ outermost :: rest, ¬ setsShutdown outer := by
        by_cases hinner : setsShutdown inner
        · exact .inl hinner
        · exact .inr fun outer hmem hset => hyields ⟨hinner, houter.mpr ⟨outer, hmem, hset⟩⟩
      constructor
      · rcases min_choice inner.shutdownTimeout (resolveInwards outermost rest).shutdownTimeout with
          h | h
        · exact .inr ⟨hcounts, h.symm⟩
        · exact .inl (h.symm ▸ hcounted)
      · rintro timeout (h | ⟨-, rfl⟩)
        · exact (min_le_right _ _).trans (hleast timeout h)
        · exact min_le_left _ _

theorem shutdownTimeout_le_outermost (outermost : ServerPolicy) (rest : List ServerPolicy) :
    (resolveInwards outermost rest).shutdownTimeout ≤ outermost.shutdownTimeout :=
  (isLeast_shutdownTimeout outermost rest).2 _ ⟨[], outermost, rest, rfl, .inr (by simp), rfl⟩

/-- Every chain of layers resolves to a closed form. Folded inwards, a dimension of the budgets or
of the server resolves to the least bound among the layers that count, and every bracketing of the
chain resolves it alike; the health route, which has no order, combines from the outermost layer
inwards. -/
theorem resolution_closed_form :
    (∀ (outermost : RouteBudgets) (rest : List RouteBudgets), ∀ d ∈ PolicyDimension.route,
      LeastCounting (outermost :: rest) d (resolveInwards outermost rest) ∧
        ∀ chain : Bracketing RouteBudgets, chain.layers = outermost :: rest →
          value (chain.combine containedBy) d = value (resolveInwards outermost rest) d) ∧
    (∀ (outermost : ServerPolicy) (rest : List ServerPolicy),
      (∀ d ∈ PolicyDimension.server, d ≠ .shutdownTimeout →
        (d ≠ .healthRoute → LeastCounting (outermost :: rest) d (resolveInwards outermost rest)) ∧
          ∀ chain : Bracketing ServerPolicy, chain.layers = outermost :: rest →
            value (chain.combine containedBy) d = value (resolveInwards outermost rest) d) ∧
      (resolveInwards outermost rest).healthRoute =
        ((outermost :: rest).map ServerPolicy.healthRoute).prod ∧
      (CountingShutdown (outermost :: rest) (resolveInwards outermost rest).shutdownTimeout ∧
        ∀ timeout, CountingShutdown (outermost :: rest) timeout →
          (resolveInwards outermost rest).shutdownTimeout ≤ timeout) ∧
      (resolveInwards outermost rest).shutdownTimeout ≤ outermost.shutdownTimeout ∧
      ∀ (C : Type) (handler : Dispatch.Handler C) (ceiling : ConfiguredCeiling)
        (host : Option ConfiguredCeiling) (sources : PolicyLayers),
        Dispatch.registrationCeiling handler (ceiling.resolved host
            ⟨(resolveInwards outermost rest).requestBodyHardCap, sources⟩).value ≤
          (resolveInwards outermost rest).requestBodyHardCap) := by
  constructor
  · intro outermost rest d hd
    have hhealth : d ≠ .healthRoute := by
      rintro rfl
      simp [PolicyDimension.route] at hd
    have hintent : d.containment = .intent := by
      refine containment_eq_intent ?_
      rintro rfl
      simp [PolicyDimension.route] at hd
    exact ⟨leastCounting_resolveInwards hd hhealth hintent outermost rest,
      fun chain hlayers => value_combine hd hhealth hintent hlayers⟩
  · intro outermost rest
    refine ⟨?_, ?_, isLeast_shutdownTimeout outermost rest,
      shutdownTimeout_le_outermost outermost rest, ?_⟩
    · intro d hd hshutdown
      have hintent := containment_eq_intent hshutdown
      refine ⟨fun hhealth => leastCounting_resolveInwards hd hhealth hintent outermost rest, ?_⟩
      intro chain hlayers
      by_cases hhealth : d = .healthRoute
      · subst hhealth
        have hroute : (chain.combine containedBy).healthRoute =
            (resolveInwards outermost rest).healthRoute := by
          rw [resolveInwards_eq, healthRoute_combine, healthRoute_combine, hlayers,
            Bracketing.layers_inwards]
        exact congrArg (fun route => some (PolicyValue.health route)) hroute
      · exact value_combine hd hhealth hintent hlayers
    · rw [resolveInwards_eq, healthRoute_combine, Bracketing.layers_inwards]
    · intro C handler ceiling host sources
      exact (Dispatch.registrationCeiling_le handler _).trans (min_le_right _ _)

def drainingAfter (timeout : ℕ) : ServerPolicy :=
  { ServerPolicy.default with
    shutdownTimeout := ServerPolicy.seconds timeout, explicit := {.shutdownTimeout} }

def healthAt (path : Str.Text) : ServerPolicy :=
  { ServerPolicy.default with healthRoute := .path path, explicit := {.healthRoute} }

/-- Inside a layer that set the shutdown deadline, a default one does not bound what is inside it,
and another bracketing answers otherwise. -/
theorem chain_without_least :
    ServerPolicy.default.shutdownTimeout <
        (resolveInwards (drainingAfter 100) [.default, drainingAfter 200]).shutdownTimeout ∧
      ((Bracketing.nest (.layer (drainingAfter 100))
          (.nest (.layer .default) (.layer (drainingAfter 200)))).combine
            containedBy).shutdownTimeout ≠
        (resolveInwards (drainingAfter 100) [.default, drainingAfter 200]).shutdownTimeout ∧
      (resolveInwards (healthAt ['/', 'a']) [healthAt ['/', 'b']]).healthRoute ≠
        (resolveInwards (healthAt ['/', 'b']) [healthAt ['/', 'a']]).healthRoute := by
  decide

end Camber.Policy
