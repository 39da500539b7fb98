import Camber.Dispatch.Freeze
import Camber.Policy.Provenance

/-! The report names only layers that hold the reported value and were not overridden. -/

namespace Camber.Policy

def Holding.ofCeiling (layer : PolicyLayer) (ceiling : ConfiguredCeiling) : Holding ℕ :=
  ⟨layer, ceiling.configuredValue.getD defaultMaxBody, ceiling.configuredValue.isSome⟩

def ceilingChain (host : Option ConfiguredCeiling) (router : ConfiguredCeiling) :
    List (Holding ℕ) :=
  (host.toList.map (Holding.ofCeiling .host)) ++ [.ofCeiling .router router]

variable {sources : PolicyLayers}

theorem Traced.append_unset {α : Type} {finite : α → Bool} {containment : Containment}
    {chain : List (Holding α)} {value : α} {explicit : Bool}
    (h : Traced finite containment chain value explicit sources) {holding : Holding α}
    (hunset : holding.set = false) :
    Traced finite containment (chain ++ [holding]) value explicit sources where
  explicit_iff := by
    rw [h.explicit_iff]
    simp [hunset, or_and_right, exists_or]
  named source hsource := by
    apply (h.named source hsource).append holding
    intro hset
    rw [hunset] at hset
    cases hset
  finite_named := h.finite_named

namespace ConfiguredCeiling

theorem selfNamed_located (ceiling : ConfiguredCeiling) (layer : PolicyLayer) :
    SelfNamed (fun _ => true) (.ofCeiling layer ceiling) (ceiling.located layer).bound.sources where
  named _ hsource := Finset.mem_singleton.mp hsource
  finite_named _ := Finset.singleton_nonempty _

theorem traced_located (ceiling : ConfiguredCeiling) (layer : PolicyLayer) :
    Traced (fun _ => true) .intent [.ofCeiling layer ceiling] (ceiling.located layer).bound.value
      (ceiling.located layer).explicit (ceiling.located layer).bound.sources :=
  (ceiling.selfNamed_located layer).traced

theorem traced_inside (ceiling : ConfiguredCeiling) (host : Option ConfiguredCeiling) :
    Traced (fun _ => true) .intent (ceilingChain host ceiling) (ceiling.inside host).bound.value
      (ceiling.inside host).explicit (ceiling.inside host).bound.sources := by
  cases host with
  | none =>
    have hinside : ceiling.inside none = ceiling.located .router := by cases ceiling <;> rfl
    rw [hinside]
    exact ceiling.traced_located .router
  | some outer =>
    cases ceiling with
    | unset => exact (outer.traced_located .host).append_unset rfl
    | set bytes =>
      refine (outer.traced_located .host).append ((set bytes).selfNamed_located .router) ?_
      cases outer with
      | unset => exact rfl
      | set hostBytes => exact min_choice bytes hostBytes

end ConfiguredCeiling

theorem PolicyBound.mem_narrowedBy {inner outer : PolicyBound ℕ} {source : LayerSource}
    (h : source ∈ (inner.narrowedBy outer).sources) :
    (inner.value = (inner.narrowedBy outer).value ∧ source ∈ inner.sources) ∨
      (outer.value = (inner.narrowedBy outer).value ∧ source ∈ outer.sources) := by
  have hside : Supplied .narrower inner.value outer.value (inner.narrowedBy outer).value :=
    min_choice _ _
  exact (mem_suppliedSources hside h).imp And.right And.right

theorem PolicyBound.narrowedBy_nonempty {inner outer : PolicyBound ℕ}
    (hinner : inner.sources.Nonempty) (houter : outer.sources.Nonempty) :
    (inner.narrowedBy outer).sources.Nonempty :=
  suppliedSources_nonempty (min_choice _ _) (fun _ => hinner) (fun _ => houter)

/-- The layers a report lists beside a value: every listed one is `named`, and a finite value lists
some layer. -/
structure Attributed (named : LayerSource → Prop) (isFinite : Bool) (sources : PolicyLayers) :
    Prop where
  named : ∀ source ∈ sources.iter, named source
  some_named : isFinite → sources.iter ≠ []

theorem Attributed.of_mem {named : LayerSource → Prop} {isFinite : Bool}
    (hnamed : ∀ source ∈ sources, named source) (hsome : isFinite → sources.Nonempty) :
    Attributed named isFinite sources where
  named source hsource := hnamed source (PolicyLayers.mem_of_mem_iter hsource)
  some_named hfinite := by
    rw [ne_eq, PolicyLayers.iter_eq_nil]
    exact (hsome hfinite).ne_empty

theorem Traced.attributed {α : Type} {finite : α → Bool} {containment : Containment}
    {chain : List (Holding α)} {value : α} {explicit : Bool}
    (h : Traced finite containment chain value explicit sources) :
    Attributed (Named containment chain value) (finite value) sources :=
  .of_mem h.named h.finite_named

theorem Located.sources_uploadDeadlinesOnly (located : Located RouteBudgets) (d : PolicyDimension) :
    located.uploadDeadlinesOnly.sources d =
      if d = .uploadMaxBytes then ∅ else located.sources d :=
  Function.update_apply _ _ _ _

theorem Located.value_uploadDeadlinesOnly (located : Located RouteBudgets) {d : PolicyDimension}
    (hd : d ≠ .uploadMaxBytes) :
    PolicyValues.value located.uploadDeadlinesOnly.values d =
      PolicyValues.value located.values d := by
  cases d with
  | uploadMaxBytes => exact absurd rfl hd
  | _ => rfl

theorem TracedAt.attributed_uploadDeadlinesOnly {chain : List (Holding (Option PolicyValue))}
    {located : Located RouteBudgets} {d : PolicyDimension} (h : TracedAt chain located d) :
    Attributed (Named d.containment chain
        (PolicyValues.value located.uploadDeadlinesOnly.values d))
      (finite (PolicyValues.value located.uploadDeadlinesOnly.values d))
      (located.uploadDeadlinesOnly.sources d) := by
  rw [Located.sources_uploadDeadlinesOnly]
  by_cases hmax : d = .uploadMaxBytes
  · subst hmax
    rw [if_pos rfl]
    refine .of_mem (fun source hsource => absurd hsource (Finset.notMem_empty _)) fun hfinite => ?_
    cases hfinite
  · rw [if_neg hmax, Located.value_uploadDeadlinesOnly located hmax]
    exact h.attributed

end Camber.Policy

namespace Camber.Dispatch
open Str Routing Policy PolicyValues

variable {C : Type} (config : Configuration C) (place : Placement C)

namespace Configuration

def serverChain (d : PolicyDimension) : List (Holding (Option PolicyValue)) :=
  Policy.serverChain config.server.1 (config.runtime.map Subtype.val) d

def hostChain (d : PolicyDimension) : List (Holding (Option PolicyValue)) :=
  config.serverChain d ++ place.host.toList.map fun host => .of .host host.1.1 d

def routerChain (d : PolicyDimension) : List (Holding (Option PolicyValue)) :=
  config.hostChain place d ++ [.of .router place.router.budgets.1 d]

def routeChain (handler : Handler C) (d : PolicyDimension) : List (Holding (Option PolicyValue)) :=
  config.routerChain place d ++ [.of .route (registrationBudgets handler) d]

/-- A layer that bounds a router's request bodies to `value`: one that holds the hard cap, or one
that holds the ceiling. -/
def CeilingNamed (value : ℕ) (source : LayerSource) : Prop :=
  Named .intent (config.serverChain .requestBodyHardCap) (some (.bytes (some value))) source ∨
    Named .intent (ceilingChain (place.host.map Prod.snd) place.router.bodyCeiling) value source

def BodyNamed (handler : Handler C) (value : ℕ) (source : LayerSource) : Prop :=
  config.CeilingNamed place value source ∨
    registrationUploadLimit handler = some value ∧ source = ⟨.route, false⟩

end Configuration

section Traced

theorem runtime_unset : ∀ policy ∈ config.runtime.map Subtype.val, policy.Unset := by
  intro policy hpolicy
  obtain ⟨runtime, -, rfl⟩ := Option.map_eq_some_iff.mp hpolicy
  exact runtime.2

variable {d : PolicyDimension}

theorem tracedAt_server (hd : d ∈ PolicyDimension.server) :
    TracedAt (config.serverChain d) config.effective.policy d :=
  EffectiveServerPolicy.tracedAt_policy config.server.2 (runtime_unset config) hd

theorem tracedAt_envelope (hd : d ∈ PolicyDimension.route) :
    TracedAt (config.hostChain place d) (place.envelope config.effective).budgets d := by
  have hserver : TracedAt (config.serverChain d) config.effective.routeBudgets d :=
    EffectiveServerPolicy.tracedAt_routeBudgets config.server.2 (runtime_unset config) hd
  unfold Configuration.hostChain Placement.envelope
  cases place.host with
  | none =>
    rw [Option.toList_none, List.map_nil, List.append_nil]
    exact hserver
  | some host => exact RouteBudgets.tracedAt_containedBy host.1.2 .host hd hserver

theorem tracedAt_base (hd : d ∈ PolicyDimension.route) :
    TracedAt (config.routerChain place d)
      (place.router.base (place.envelope config.effective)).budgets d :=
  RouteBudgets.tracedAt_containedBy place.router.budgets.2 .router hd
    (tracedAt_envelope config place hd)

theorem attributed_reportRoute {registered : Method × FrozenHandler (Stored C)}
    (hbudgets : (registrationBudgets registered.2.handler).Unset)
    (hd : d ∈ PolicyDimension.route) :
    Attributed (Named d.containment (config.routeChain place registered.2.handler d)
        (value (reportRoute place.name (place.router.base (place.envelope config.effective))
          registered).budgets.values d))
      (finite (value (reportRoute place.name
        (place.router.base (place.envelope config.effective)) registered).budgets.values d))
      ((reportRoute place.name (place.router.base (place.envelope config.effective))
        registered).budgets.sources d) := by
  have htraced := RouteBudgets.tracedAt_containedBy hbudgets .route hd
    (tracedAt_base config place hd)
  unfold reportRoute
  dsimp only
  by_cases hcounts : admissionCountsUpload registered.2.handler
  · rw [if_pos hcounts]
    exact htraced.attributed_uploadDeadlinesOnly
  · rw [if_neg hcounts]
    exact htraced.attributed

theorem ceilingNamed_base {source : LayerSource}
    (h : source ∈ (place.router.base (place.envelope config.effective)).ceiling.sources) :
    config.CeilingNamed place (place.router.base (place.envelope config.effective)).ceiling.value
      source := by
  have hceiling := place.router.bodyCeiling.traced_inside (place.host.map Prod.snd)
  have hcap := tracedAt_server config (d := .requestBodyHardCap) (by decide)
  rcases PolicyBound.mem_narrowedBy h with ⟨hvalue, hsource⟩ | ⟨hvalue, hsource⟩
  · refine .inr ?_
    rw [show (place.router.base (place.envelope config.effective)).ceiling.value = _ from
      hvalue.symm]
    exact hceiling.named source hsource
  · refine .inl ?_
    rw [show (place.router.base (place.envelope config.effective)).ceiling.value = _ from
      hvalue.symm]
    exact hcap.named source hsource

theorem ceiling_sources_nonempty :
    (place.router.base (place.envelope config.effective)).ceiling.sources.Nonempty :=
  PolicyBound.narrowedBy_nonempty
    ((place.router.bodyCeiling.traced_inside (place.host.map Prod.snd)).finite_named rfl)
    ((tracedAt_server config (d := .requestBodyHardCap) (by decide)).finite_named rfl)

theorem attributed_bodyBound (handler : Handler C) :
    Attributed (config.BodyNamed place handler (registrationBodyBound handler
        (place.router.base (place.envelope config.effective)).ceiling).value) true
      (registrationBodyBound handler
        (place.router.base (place.envelope config.effective)).ceiling).sources := by
  have hsome := ceiling_sources_nonempty config place
  unfold registrationBodyBound
  cases hlimit : registrationUploadLimit handler with
  | none =>
    refine .of_mem (fun source hsource => ?_) fun _ => hsome
    exact .inl (ceilingNamed_base config place hsource)
  | some bytes =>
    refine .of_mem (fun source hsource => ?_) fun _ =>
      PolicyBound.narrowedBy_nonempty hsome (Finset.singleton_nonempty _)
    dsimp only at hsource ⊢
    rcases PolicyBound.mem_narrowedBy hsource with ⟨hvalue, hmem⟩ | ⟨hvalue, hmem⟩
    · rw [← hvalue]
      exact .inl (ceilingNamed_base config place hmem)
    · rw [← hvalue]
      exact .inr ⟨hlimit, Finset.mem_singleton.mp hmem⟩

end Traced

/-- Policy provenance is sound. Whatever the runtime, the server, the host router, the router and a
registration set, every layer the report lists beside a value holds that value as its own, set it
exactly if it is not tagged a default, and was not overridden; and a finite value lists a layer. -/
theorem provenance_sound :
    (∀ d ∈ PolicyDimension.server,
      Attributed (Named d.containment (config.serverChain d) (value config.effective.policy.values d))
        (finite (value config.effective.policy.values d)) (config.effective.policy.sources d)) ∧
    (∀ place ∈ config.routes.placements, ∀ d ∈ PolicyDimension.route,
      Attributed (Named d.containment (config.hostChain place d)
          (value (place.envelope config.effective).budgets.values d))
        (finite (value (place.envelope config.effective).budgets.values d))
        ((place.envelope config.effective).budgets.sources d) ∧
      Attributed (Named d.containment (config.routerChain place d)
          (value (place.router.base (place.envelope config.effective)).budgets.values d))
        (finite (value (place.router.base (place.envelope config.effective)).budgets.values d))
        ((place.router.base (place.envelope config.effective)).budgets.sources d)) ∧
    ∀ reported ∈ config.routePolicies, ∃ place ∈ config.routes.placements,
      ∃ registered ∈ visitRegistrations (place.freeze config.effective).1.root,
        reported =
          reportRoute place.name (place.router.base (place.envelope config.effective)) registered ∧
        (∀ d ∈ PolicyDimension.route,
          Attributed (Named d.containment (config.routeChain place registered.2.handler d)
              (value reported.budgets.values d))
            (finite (value reported.budgets.values d)) (reported.budgets.sources d)) ∧
        ∀ bound, reported.body = some bound →
          Attributed (config.BodyNamed place registered.2.handler bound.value) true
            bound.sources := by
  refine ⟨fun d hd => (tracedAt_server config hd).attributed, fun place _ d hd =>
    ⟨(tracedAt_envelope config place hd).attributed, (tracedAt_base config place hd).attributed⟩, ?_⟩
  intro reported hreported
  rw [routePolicies_eq] at hreported
  obtain ⟨place, hplace, hmem⟩ := List.mem_flatMap.mp hreported
  obtain ⟨registered, hregistered, rfl⟩ := List.mem_map.mp hmem
  refine ⟨place, hplace, registered, hregistered, rfl, ?_, ?_⟩
  · intro d hd
    obtain ⟨registration, hregistration, hhandler⟩ := exists_registration_of_visited hregistered
    have hconfigured := place.router.configured registration hregistration
    rw [← hhandler] at hconfigured
    exact attributed_reportRoute config place (registrationBudgets_unset hconfigured) hd
  · intro bound hbound
    have hbody : registrationBodyBound registered.2.handler
        (place.router.base (place.envelope config.effective)).ceiling = bound := by
      unfold reportRoute at hbound
      dsimp only at hbound
      split_ifs at hbound
      exact Option.some.inj hbound
    rw [← hbody]
    exact attributed_bodyBound config place registered.2.handler

end Camber.Dispatch
