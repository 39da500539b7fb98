import Camber.Dispatch.Classify
import Camber.Policy.Effective
import Camber.Routing.Visit

/-! Freezing resolves the policies of the registered routers inside the server's and leaves the
immutable routers requests are served from, with their report. -/

namespace Camber.Dispatch
open Str Routing Policy
open Inbound (TransferBudget)

variable {C : Type}

def ConfiguredHandler : Handler C → Prop
  | .proxyStream _ _ registration =>
    ∃ policy : ProxyPolicy, policy.Configured ∧ registration.upstream = policy.bounds ∧
      registration.budgets = policy.configuredBudgets
  | .async _ | .stream _ | .sse _ | .multipart _ | .webSocket _ | .proxy _ _ _ => True

theorem registrationBudgets_sse (registration : Stored C) :
    registration.budget = none ∧ registrationBudgets (.sse registration) = .default ∨
      ∃ budget, registration.budget = some budget ∧
        registrationBudgets (.sse registration) = RouteBudgets.default.withDownload budget := by
  cases hbudget : registration.budget with
  | none => exact .inl ⟨rfl, by simp only [registrationBudgets, hbudget]⟩
  | some budget => exact .inr ⟨budget, rfl, by simp only [registrationBudgets, hbudget]⟩

theorem registrationBudgets_unset {handler : Handler C} (h : ConfiguredHandler handler) :
    (registrationBudgets handler).Unset := by
  cases handler with
  | sse registration =>
    rcases registrationBudgets_sse registration with ⟨-, heq⟩ | ⟨budget, -, heq⟩
    · rw [heq]
      exact RouteBudgets.unset_default
    · rw [heq]
      exact RouteBudgets.unset_withDownload RouteBudgets.unset_default budget
  | proxyStream backend pathPrefix registration =>
    obtain ⟨policy, hpolicy, -, hbudgets⟩ := h
    rw [registrationBudgets, hbudgets]
    exact hpolicy.unset
  | async _ | stream _ | multipart _ | webSocket _ | proxy _ _ _ => exact RouteBudgets.unset_default

structure Router (C : Type) where
  registrations : List (Registration (Stored C))
  budgets : ConfiguredBudgets
  bodyCeiling : ConfiguredCeiling
  middleware : List C
  mapper : Option C
  bodyPolicy : Option C
  configured : ∀ r ∈ registrations, ConfiguredHandler r.handler

structure HostRouter (C : Type) where
  hosts : List (Text × Router C)
  default : Option (Router C)
  mapper : Option C
  bodyCeiling : ConfiguredCeiling
  budgets : ConfiguredBudgets

/-- The routes one server serves, before they are frozen. -/
inductive ServerRoutes (C : Type) where
  | single (router : Router C)
  | host (router : HostRouter C)

/-- The policy a router is frozen inside. -/
structure RouterEnvelope where
  budgets : Located RouteBudgets
  hostCeiling : Option ConfiguredCeiling
  cap : PolicyBound ℕ
  host : Option Text

structure RouteReportBase where
  budgets : Located RouteBudgets
  configured : Option ℕ
  ceiling : PolicyBound ℕ

structure EffectiveRoutePolicy where
  host : Option Text
  method : Method
  route : Text
  budgets : Located RouteBudgets
  body : Option (PolicyBound ℕ)
  configuredBody : Option ℕ

def reportRoute (host : Option Text) (base : RouteReportBase)
    (registered : Method × FrozenHandler (Stored C)) : EffectiveRoutePolicy :=
  let handler := registered.2.handler
  let budgets := ((registrationBudgets handler).located .route).containedBy base.budgets
  { host
    method := registered.1
    route := registered.2.route
    budgets := if admissionCountsUpload handler then budgets.uploadDeadlinesOnly else budgets
    body := if registrationReadsBody handler then some (registrationBodyBound handler base.ceiling)
      else none
    configuredBody := base.configured }

def FrozenRouter.reportRoutes (router : FrozenRouter C) (host : Option Text)
    (base : RouteReportBase) : List EffectiveRoutePolicy :=
  (visitRegistrations router.root).map (reportRoute host base)

namespace Router

variable (router : Router C) (envelope : RouterEnvelope)

def base : RouteReportBase where
  budgets := (router.budgets.1.located .router).containedBy envelope.budgets
  configured := router.bodyCeiling.configuredValue
  ceiling := router.bodyCeiling.resolved envelope.hostCeiling envelope.cap

def frozen : FrozenRouter C where
  root := (Routing.router router.registrations).freeze
  budgets := (router.base envelope).budgets.values
  middleware := router.middleware
  mapper := router.mapper
  bodyCeiling := (router.base envelope).ceiling.value
  bodyPolicy := router.bodyPolicy

def freeze : FrozenRouter C × List EffectiveRoutePolicy :=
  (router.frozen envelope, (router.frozen envelope).reportRoutes envelope.host (router.base envelope))

end Router

namespace HostRouter

variable (hosts : HostRouter C) (outer : Located RouteBudgets) (cap : PolicyBound ℕ)

def envelope (host : Option Text) : RouterEnvelope where
  budgets := (hosts.budgets.1.located .host).containedBy outer
  hostCeiling := some hosts.bodyCeiling
  cap
  host

def freezeHosts : List (Text × FrozenRouter C × List EffectiveRoutePolicy) :=
  (hosts.hosts.insertionSort fun a b => a.1 ≤ b.1).map fun child =>
    (child.1, child.2.freeze (hosts.envelope outer cap (some child.1)))

def freeze : FrozenHostRouter C × List EffectiveRoutePolicy :=
  let children := hosts.freezeHosts outer cap
  let fallback := hosts.default.map fun router => router.freeze (hosts.envelope outer cap none)
  ({ hosts := children.map fun child => (child.1, child.2.1)
     default := fallback.map Prod.fst
     mapper := hosts.mapper
     budgets := (hosts.envelope outer cap none).budgets.values },
    children.flatMap (fun child => child.2.2) ++ fallback.toList.flatMap Prod.snd)

end HostRouter

def ServerRoutes.freeze (routes : ServerRoutes C) (server : EffectiveServerPolicy) :
    ServerDispatch C × List EffectiveRoutePolicy :=
  match routes with
  | .single router =>
    let frozen := router.freeze ⟨server.routeBudgets, none, server.requestBodyHardCap, none⟩
    (.single frozen.1, frozen.2)
  | .host hosts =>
    let frozen := hosts.freeze server.routeBudgets server.requestBodyHardCap
    (.host frozen.1, frozen.2)

structure Configuration (C : Type) where
  runtime : Option ConfiguredServer
  server : ConfiguredServer
  routes : ServerRoutes C

namespace Configuration

variable (config : Configuration C)

def effective : EffectiveServerPolicy :=
  .resolve config.server.1 (config.runtime.map Subtype.val)

def dispatch : ServerDispatch C := (config.routes.freeze config.effective).1

def routePolicies : List EffectiveRoutePolicy := (config.routes.freeze config.effective).2

end Configuration

structure Placement (C : Type) where
  host : Option (ConfiguredBudgets × ConfiguredCeiling)
  name : Option Text
  router : Router C

namespace HostRouter

variable (hosts : HostRouter C)

def placements : List (Placement C) :=
  ((hosts.hosts.insertionSort fun a b => a.1 ≤ b.1).map fun child =>
    ⟨some (hosts.budgets, hosts.bodyCeiling), some child.1, child.2⟩) ++
  hosts.default.toList.map fun router =>
    ⟨some (hosts.budgets, hosts.bodyCeiling), none, router⟩

end HostRouter

def ServerRoutes.placements : ServerRoutes C → List (Placement C)
  | .single router => [⟨none, none, router⟩]
  | .host hosts => hosts.placements

namespace Placement

variable (place : Placement C) (server : EffectiveServerPolicy)

def envelope : RouterEnvelope where
  budgets :=
    match place.host with
    | some host => (host.1.1.located .host).containedBy server.routeBudgets
    | none => server.routeBudgets
  hostCeiling := place.host.map Prod.snd
  cap := server.requestBodyHardCap
  host := place.name

def freeze : FrozenRouter C × List EffectiveRoutePolicy :=
  place.router.freeze (place.envelope server)

end Placement

theorem routePolicies_eq (config : Configuration C) :
    config.routePolicies =
      config.routes.placements.flatMap fun place => (place.freeze config.effective).2 := by
  cases hroutes : config.routes with
  | single router =>
    simp only [Configuration.routePolicies, hroutes, ServerRoutes.freeze, ServerRoutes.placements,
      List.flatMap_singleton]
    rfl
  | host hosts =>
    simp only [Configuration.routePolicies, hroutes, ServerRoutes.freeze, ServerRoutes.placements,
      HostRouter.freeze, HostRouter.placements, HostRouter.freezeHosts, List.flatMap_append,
      List.flatMap_map]
    congr 1
    cases hosts.default with
    | none => rfl
    | some router =>
      simp only [Option.map_some, Option.toList_some, List.flatMap_singleton]
      rfl

theorem claimingRouter_mem {hosts : FrozenHostRouter C} {authority : Text}
    {router : FrozenRouter C} (h : hosts.claimingRouter authority = some router) :
    router ∈ hosts.hosts.map Prod.snd ∨ hosts.default = some router := by
  unfold FrozenHostRouter.claimingRouter at h
  rw [Option.or_eq_some_iff] at h
  rcases h with h | ⟨-, h⟩
  · obtain ⟨child, hchild, rfl⟩ := Option.map_eq_some_iff.mp h
    obtain ⟨i, -, hi⟩ := Option.bind_eq_some_iff.mp hchild
    exact .inl (List.mem_map_of_mem (List.mem_of_getElem? hi))
  · exact .inr h

theorem exists_placement {parsesAuthority : Text → Bool} {config : Configuration C}
    {head : RequestHead} {router : FrozenRouter C}
    (h : config.dispatch.resolveFromHead parsesAuthority head = .ok (some router)) :
    ∃ place ∈ config.routes.placements, router = (place.freeze config.effective).1 := by
  cases hroutes : config.routes with
  | single only =>
    simp only [Configuration.dispatch, hroutes, ServerRoutes.freeze,
      ServerDispatch.resolveFromHead, Except.ok.injEq, Option.some.injEq] at h
    exact ⟨_, List.mem_singleton_self _, h.symm⟩
  | host hosts =>
    simp only [Configuration.dispatch, hroutes, ServerRoutes.freeze,
      ServerDispatch.resolveFromHead, FrozenHostRouter.resolveHost] at h
    split_ifs at h
    rcases claimingRouter_mem (Except.ok.inj h) with hmem | hdefault
    · simp only [HostRouter.freeze, HostRouter.freezeHosts, List.map_map, List.mem_map] at hmem
      obtain ⟨child, hchild, rfl⟩ := hmem
      exact ⟨_, List.mem_append_left _ (List.mem_map_of_mem hchild), rfl⟩
    · simp only [HostRouter.freeze, Option.map_map, Option.map_eq_some_iff] at hdefault
      obtain ⟨fallback, hfallback, rfl⟩ := hdefault
      refine ⟨_, List.mem_append_right _ (List.mem_map_of_mem ?_), rfl⟩
      rw [hfallback]
      exact List.mem_singleton_self _

end Camber.Dispatch
