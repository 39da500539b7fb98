import Camber.Dispatch.Routers

/-! A head is classified before its body is read, and the request built from it is dispatched
afterwards. -/

namespace Camber.Dispatch
open Str Routing Http

variable {C : Type}

inductive RejectionProtocol where
  | ordinaryHttp
  | streamingHttp
  | serverSentEvents
  | webSocket
  | proxy

def protocolOf : Handler C → RejectionProtocol
  | .async _ | .multipart _ => .ordinaryHttp
  | .stream _ => .streamingHttp
  | .sse _ => .serverSentEvents
  | .webSocket _ => .webSocket
  | .proxy _ _ _ | .proxyStream _ _ _ => .proxy

inductive HeadUpgrade where
  | none
  | webSocket

namespace HeadUpgrade

def of (isWebSocket : Bool) : HeadUpgrade := if isWebSocket then webSocket else none

def isWebSocket : HeadUpgrade → Bool
  | webSocket => true
  | none => false

@[simp] theorem isWebSocket_of (b : Bool) : (of b).isWebSocket = b := by cases b <;> rfl

end HeadUpgrade

inductive RequestBodyMode where
  | buffered
  | streaming

/-- How a matched route's body is admitted. -/
structure ResolvedBodyPlan (C : Type) where
  route : Text
  mode : RequestBodyMode
  ceiling : ℕ
  policy : Option C

structure StreamingProxyTarget (C : Type) where
  backend : Text
  pathPrefix : Text
  upstream : ProxyPolicy
  params : Params
  method : Method
  plan : ResolvedBodyPlan C

structure StreamingMultipartTarget (C : Type) where
  registration : Stored C
  params : Params
  plan : ResolvedBodyPlan C

/-- How the wire must be read for a classified head. -/
inductive RouteClass (C : Type) where
  | buffered (method : Method) (plan : ResolvedBodyPlan C)
  | streamingProxy (target : StreamingProxyTarget C)
  | streamingMultipart (target : StreamingMultipartTarget C)
  | headOnly
  | terminal
  | refused (rejected : Rejected)

/-- The route identity a match established. -/
structure Established where
  route : Text
  protocol : RejectionProtocol

/-- The policy a refusal before the body is answered under. -/
structure PreBodyScope (C : Type) where
  mapper : Option C
  established : Option Established

structure Classified (C : Type) where
  routeClass : RouteClass C
  scope : PreBodyScope C
  router : Option (FrozenRouter C)
  budgets : Policy.RouteBudgets

namespace FrozenRouter

def bodyPlan (router : FrozenRouter C) (route : Text) (mode : RequestBodyMode) (ceiling : ℕ) :
    ResolvedBodyPlan C :=
  ⟨route, mode, ceiling, router.bodyPolicy⟩

def gateParams (router : FrozenRouter C) (selected : Selected (Stored C)) : Params :=
  if router.middleware.isEmpty then [] else selected.bindParams

def classifyMatched (flags : ℕ → Bool) (router : FrozenRouter C) (selected : Selected (Stored C))
    (method : Method) (upgrade : HeadUpgrade) : RouteClass C :=
  let ceiling := registrationCeiling selected.handler router.bodyCeiling
  let plan := fun mode => router.bodyPlan selected.route mode ceiling
  match selected.handler with
  | .proxy _ _ registration =>
    if upstreamUnhealthy flags registration.healthy then .refused .noAdmissibleBackend
    else if upgrade.isWebSocket then .headOnly
    else .buffered method (plan .buffered)
  | .proxyStream backend pathPrefix registration =>
    if upstreamUnhealthy flags registration.healthy then .refused .noAdmissibleBackend
    else if upgrade.isWebSocket then .headOnly
    else .streamingProxy
      { backend, pathPrefix, upstream := registration.upstream
        params := router.gateParams selected
        method
        plan := plan .streaming }
  | .multipart registration =>
    .streamingMultipart ⟨registration, selected.bindParams, plan .streaming⟩
  | .sse registration =>
    if registration.readsBody then .buffered method (plan .buffered) else .headOnly
  | .webSocket _ => .headOnly
  | .async _ | .stream _ => .buffered method (plan .buffered)

def selectHead (router : FrozenRouter C) (head : RequestHead) :
    Option (Method × Selected (Stored C)) :=
  match head.routableMethod, splitPathSegments head.path with
  | some method, some segments =>
    (router.root.select method head.path segments).map fun selected => (method, selected)
  | _, _ => none

def classifyRoute (flags : ℕ → Bool) (router : FrozenRouter C) (head : RequestHead)
    (upgrade : HeadUpgrade) : RouteClass C × Option Established :=
  match router.selectHead head with
  | some (method, selected) =>
    (router.classifyMatched flags selected method upgrade,
      some ⟨selected.route, protocolOf selected.handler⟩)
  | none => (.terminal, none)

end FrozenRouter

section
variable (parsesAuthority : Text → Bool)

def ServerDispatch.classifyRoute (flags : ℕ → Bool) (dispatch : ServerDispatch C)
    (head : RequestHead) (upgrade : HeadUpgrade) : Classified C :=
  match dispatch.resolveFromHead parsesAuthority head with
  | .ok (some router) =>
    let classified := router.classifyRoute flags head upgrade
    ⟨classified.1, ⟨dispatch.selectMapper (some router), classified.2⟩, some router,
      router.budgets⟩
  | .ok none =>
    ⟨.terminal, ⟨dispatch.selectMapper none, none⟩, none, dispatch.unroutedBudgets⟩
  | .error rejected =>
    ⟨.refused rejected, ⟨dispatch.selectMapper none, none⟩, none, dispatch.unroutedBudgets⟩

def classifyPreBody (flags : ℕ → Bool) (dispatch : ServerDispatch C) (req : HyperRequest) :
    Classified C :=
  dispatch.classifyRoute parsesAuthority flags (.fromHyperRequest req)
    (.of (isWsUpgradeHead req.headers))

end

inductive Terminal (C : Type) where
  | handler (handler : Stored C)
  | proxy (backend pathPrefix : Text) (upstream : ProxyPolicy)
  | rejected (rejected : Rejected)

structure AsyncDispatch (C : Type) where
  chain : List C
  terminal : Terminal C
  req : Request

def AsyncDispatch.direct (rejected : Rejected) (req : Request) : AsyncDispatch C :=
  ⟨[], .rejected rejected, req⟩

inductive DispatchResult (C : Type) where
  | async (dispatch : AsyncDispatch C)
  | stream (handler : Stored C) (req : Request)
  | sse (handler : Stored C) (req : Request)
  | webSocket (handler : Stored C) (req : Request)
  | proxyWebSocket (req : Request) (backend pathPrefix : Text) (upstream : ProxyPolicy)

structure RequestIdentity where
  method : RequestMethod
  path : Text
  route : Option Text
  protocol : Option RejectionProtocol

def RequestIdentity.fromRequest (req : Request) : RequestIdentity :=
  ⟨req.method, req.path, none, none⟩

structure RejectionScope (C : Type) where
  mapper : Option C
  identity : RequestIdentity

/-- A routed request, and the router that answered it. -/
structure Routed (C : Type) where
  result : DispatchResult C
  router : Option (FrozenRouter C)
  scope : RejectionScope C

inductive ProxyKind where
  | buffered
  | streaming

namespace FrozenRouter

variable (router : FrozenRouter C)

def misdispatched (req : Request) : DispatchResult C :=
  .async (.direct .multipartMisdispatched req)

def misdispatchedStreamingProxy (req : Request) : DispatchResult C :=
  .async (.direct .streamingProxyMisdispatched req)

def dispatchProxy (kind : ProxyKind) (req : Request) (backend pathPrefix : Text)
    (upstream : ProxyPolicy) : DispatchResult C :=
  if isWsUpgradeRequest req then .proxyWebSocket req backend pathPrefix upstream
  else
    match kind with
    | .buffered => .async ⟨router.middleware, .proxy backend pathPrefix upstream, req⟩
    | .streaming => misdispatchedStreamingProxy req

def dispatchProxyRoute (flags : ℕ → Bool) (kind : ProxyKind) (req : Request)
    (backend pathPrefix : Text) (registration : Stored C) : DispatchResult C :=
  if upstreamUnhealthy flags registration.healthy then .async (.direct .noAdmissibleBackend req)
  else router.dispatchProxy kind req backend pathPrefix registration.upstream

def dispatchMatched (flags : ℕ → Bool) (handler : Handler C) (req : Request) : DispatchResult C :=
  match handler with
  | .async handler => .async ⟨router.middleware, .handler handler, req⟩
  | .stream handler => .stream handler req
  | .multipart _ => misdispatched req
  | .sse handler => .sse handler req
  | .webSocket handler => .webSocket handler req
  | .proxy backend pathPrefix registration =>
    router.dispatchProxyRoute flags .buffered req backend pathPrefix registration
  | .proxyStream backend pathPrefix registration =>
    router.dispatchProxyRoute flags .streaming req backend pathPrefix registration

def terminal (req : Request) (mapper : Option C) (identity : RequestIdentity)
    (rejected : Rejected) : DispatchResult C × RejectionScope C :=
  (.async ⟨router.middleware, .rejected rejected, req⟩, ⟨mapper, identity⟩)

def dispatch (flags : ℕ → Bool) (req : Request) (mapper : Option C) :
    DispatchResult C × RejectionScope C :=
  let identity := RequestIdentity.fromRequest req
  match splitPathSegments req.path with
  | none => router.terminal req mapper identity (.uriTooDeep pathSegmentLimit)
  | some segments =>
    match router.root.lookup req.methodEnum req.path segments with
    | .matched selected =>
      (router.dispatchMatched flags selected.handler (req.setParams selected.bindParams),
        ⟨mapper, { identity with
          route := some selected.route, protocol := some (protocolOf selected.handler) }⟩)
    | .methodMismatch route allow =>
      router.terminal req mapper { identity with route := some route }
        (.methodNotAllowed req.method.asStr allow)
    | .unmatched => router.terminal req mapper identity .noRoute

end FrozenRouter

def ServerDispatch.dispatchResolved (flags : ℕ → Bool) (dispatch : ServerDispatch C)
    (req : Request) (router : Option (FrozenRouter C)) : Routed C :=
  match router with
  | some router =>
    let routed := router.dispatch flags req (dispatch.selectMapper (some router))
    ⟨routed.1, some router, routed.2⟩
  | none =>
    ⟨.async (.direct (.notFound "no router claims this authority".toList) req), none,
      ⟨dispatch.selectMapper none, .fromRequest req⟩⟩

inductive Answered (C ε : Type) where
  | refusedFromHead (rejected : Rejected)
  | streamingProxy (target : StreamingProxyTarget C)
  | streamingMultipart (target : StreamingMultipartTarget C)
  | refusedBody (refused : ε)
  | built (routed : Routed C)

def dispatchClassifiedRoute {ε : Type} (flags : ℕ → Bool) (dispatch : ServerDispatch C)
    (req : HyperRequest) (classified : Classified C) (body : Except ε Bytes) : Answered C ε :=
  match classified.routeClass with
  | .refused rejected => .refusedFromHead rejected
  | .streamingProxy target => .streamingProxy target
  | .streamingMultipart target => .streamingMultipart target
  | .headOnly | .terminal =>
    .built (dispatch.dispatchResolved flags ((RequestHead.fromHyperRequest req).toRequest none)
      classified.router)
  | .buffered method _ =>
    match body with
    | .error refused => .refusedBody refused
    | .ok body =>
      .built (dispatch.dispatchResolved flags (.fromHyper req body method) classified.router)

inductive DispatchedTo (router : FrozenRouter C) (flags : ℕ → Bool) (req : Request) :
    Handler C → DispatchResult C → Prop
  | async (handler : Stored C) :
    DispatchedTo router flags req (.async handler)
      (.async ⟨router.middleware, .handler handler, req⟩)
  | stream (handler : Stored C) :
    DispatchedTo router flags req (.stream handler) (.stream handler req)
  | sse (handler : Stored C) : DispatchedTo router flags req (.sse handler) (.sse handler req)
  | webSocket (handler : Stored C) :
    DispatchedTo router flags req (.webSocket handler) (.webSocket handler req)
  | forwarded (backend pathPrefix : Text) (registration : Stored C)
    (healthy : ¬ upstreamUnhealthy flags registration.healthy)
    (plain : ¬ isWsUpgradeHead req.rawHeaders) :
    DispatchedTo router flags req (.proxy backend pathPrefix registration)
      (.async ⟨router.middleware, .proxy backend pathPrefix registration.upstream, req⟩)
  | handshake {handler : Handler C} (backend pathPrefix : Text) (registration : Stored C)
    (proxied : handler = .proxy backend pathPrefix registration ∨
      handler = .proxyStream backend pathPrefix registration)
    (healthy : ¬ upstreamUnhealthy flags registration.healthy)
    (upgrade : isWsUpgradeHead req.rawHeaders) :
    DispatchedTo router flags req handler
      (.proxyWebSocket req backend pathPrefix registration.upstream)
  | unhealthy {handler : Handler C} (backend pathPrefix : Text) (registration : Stored C)
    (proxied : handler = .proxy backend pathPrefix registration ∨
      handler = .proxyStream backend pathPrefix registration)
    (unhealthy : upstreamUnhealthy flags registration.healthy) :
    DispatchedTo router flags req handler (.async (.direct .noAdmissibleBackend req))

def Misdispatched (result : DispatchResult C) : Prop :=
  ∃ req, result = FrozenRouter.misdispatched req ∨
    result = FrozenRouter.misdispatchedStreamingProxy req

inductive Unrouted (req : Request) : Rejected → Prop
  | tooDeep : Unrouted req (.uriTooDeep pathSegmentLimit)
  | method (allow : Text) : Unrouted req (.methodNotAllowed req.method.asStr allow)
  | path : Unrouted req .noRoute

variable {router : FrozenRouter C} {flags flags₁ : ℕ → Bool} {parsesAuthority : Text → Bool}
  {dispatch : ServerDispatch C} {req : HyperRequest}

theorem DispatchedTo.not_misdispatched {req : Request} {handler : Handler C}
    {result : DispatchResult C} (h : DispatchedTo router flags req handler result) :
    ¬ Misdispatched result := by
  rintro ⟨req', hmis⟩
  cases h <;> simp [FrozenRouter.misdispatched, FrozenRouter.misdispatchedStreamingProxy,
    AsyncDispatch.direct] at hmis

theorem Unrouted.not_misdispatched {req : Request} {rejected : Rejected}
    (h : Unrouted req rejected) (chain : List C) (built : Request) :
    ¬ Misdispatched (.async ⟨chain, .rejected rejected, built⟩ : DispatchResult C) := by
  rintro ⟨req', hmis⟩
  cases h <;> simp [FrozenRouter.misdispatched, FrozenRouter.misdispatchedStreamingProxy,
    AsyncDispatch.direct, Rejected.noRoute] at hmis

def RouteClass.ReachesDispatch : RouteClass C → Prop
  | .buffered _ _ | .headOnly | .terminal => True
  | .streamingProxy _ | .streamingMultipart _ | .refused _ => False

theorem dispatchProxyRoute_dispatchedTo {kind : ProxyKind} {req : Request}
    {backend pathPrefix : Text} {registration : Stored C} {handler : Handler C}
    (hbuffered : kind = .buffered → handler = .proxy backend pathPrefix registration)
    (hstreaming : kind = .streaming → handler = .proxyStream backend pathPrefix registration ∧
      isWsUpgradeHead req.rawHeaders) :
    DispatchedTo router flags req handler
      (router.dispatchProxyRoute flags kind req backend pathPrefix registration) := by
  have hproxied : handler = .proxy backend pathPrefix registration ∨
      handler = .proxyStream backend pathPrefix registration := by
    cases kind with
    | buffered => exact .inl (hbuffered rfl)
    | streaming => exact .inr (hstreaming rfl).1
  unfold FrozenRouter.dispatchProxyRoute
  by_cases hhealth : upstreamUnhealthy flags registration.healthy
  · rw [if_pos hhealth]
    exact .unhealthy backend pathPrefix registration hproxied hhealth
  · rw [if_neg hhealth]
    unfold FrozenRouter.dispatchProxy
    rw [isWsUpgradeRequest_eq]
    by_cases hupgrade : isWsUpgradeHead req.rawHeaders
    · rw [if_pos hupgrade]
      exact .handshake backend pathPrefix registration hproxied hhealth hupgrade
    · rw [if_neg hupgrade]
      cases kind with
      | buffered =>
        rw [hbuffered rfl]
        exact .forwarded backend pathPrefix registration hhealth hupgrade
      | streaming => exact absurd (hstreaming rfl).2 hupgrade

theorem dispatchMatched_dispatchedTo (flags₂ : ℕ → Bool) {selected : Selected (Stored C)}
    {method : Method} {req : Request} (h : (router.classifyMatched flags₁ selected method
      (.of (isWsUpgradeHead req.rawHeaders))).ReachesDispatch) :
    DispatchedTo router flags₂ req selected.handler
      (router.dispatchMatched flags₂ selected.handler req) := by
  unfold FrozenRouter.classifyMatched at h
  unfold FrozenRouter.dispatchMatched
  cases hhandler : selected.handler with
  | async handler => exact .async handler
  | stream handler => exact .stream handler
  | sse handler => exact .sse handler
  | webSocket handler => exact .webSocket handler
  | multipart handler =>
    rw [hhandler] at h
    exact h.elim
  | proxy backend pathPrefix registration =>
    exact dispatchProxyRoute_dispatchedTo (fun _ => rfl) (fun hkind => by cases hkind)
  | proxyStream backend pathPrefix registration =>
    apply dispatchProxyRoute_dispatchedTo (fun hkind => by cases hkind)
    intro _
    refine ⟨rfl, ?_⟩
    -- the streaming class is answered from the wire, so only an upgrade is left
    rw [hhandler] at h
    by_contra hplain
    rw [Bool.not_eq_true] at hplain
    simp only [HeadUpgrade.isWebSocket_of, hplain, Bool.false_eq_true, if_false] at h
    split_ifs at h <;> exact h

section
variable {router : FrozenRouter C} {head : RequestHead} {req : Request}

theorem selectHead_eq_some {method : Method} {selected : Selected (Stored C)}
    (h : router.selectHead head = some (method, selected)) :
    head.routableMethod = some method ∧ ∃ segments, splitPathSegments head.path = some segments ∧
      router.root.select method head.path segments = some selected := by
  unfold FrozenRouter.selectHead at h
  cases hmethod : head.routableMethod with
  | none =>
    rw [hmethod] at h
    cases h
  | some m =>
    cases hsegments : splitPathSegments head.path with
    | none =>
      rw [hmethod, hsegments] at h
      cases h
    | some segments =>
      rw [hmethod, hsegments] at h
      obtain ⟨found, hfound, heq⟩ := Option.map_eq_some_iff.mp h
      obtain ⟨rfl, rfl⟩ := Prod.mk.inj heq
      exact ⟨rfl, segments, rfl, hfound⟩

theorem dispatch_of_selected (flags : ℕ → Bool) (mapper : Option C) {method : Method}
    {selected : Selected (Stored C)} (hselect : router.selectHead head = some (method, selected))
    (hmethod : req.methodEnum = some method) (hpath : req.path = head.path) :
    router.dispatch flags req mapper =
      (router.dispatchMatched flags selected.handler (req.setParams selected.bindParams),
        ⟨mapper, { RequestIdentity.fromRequest req with
          route := some selected.route, protocol := some (protocolOf selected.handler) }⟩) := by
  obtain ⟨-, segments, hsegments, hfound⟩ := selectHead_eq_some hselect
  simp only [FrozenRouter.dispatch, hpath, hsegments, FrozenNode.lookup, hmethod, Option.bind_some,
    hfound]

theorem dispatch_of_unselected (flags : ℕ → Bool) (mapper : Option C)
    (hselect : router.selectHead head = none) (hmethod : req.methodEnum = head.routableMethod)
    (hpath : req.path = head.path) :
    ∃ rejected, Unrouted req rejected ∧
      (router.dispatch flags req mapper).1 = .async ⟨router.middleware, .rejected rejected, req⟩ := by
  unfold FrozenRouter.selectHead at hselect
  unfold FrozenRouter.dispatch
  rw [hpath]
  cases hsegments : splitPathSegments head.path with
  | none => exact ⟨_, .tooDeep, rfl⟩
  | some segments =>
    have hnone : (req.methodEnum.bind fun m => router.root.select m head.path segments) = none := by
      rw [hmethod]
      cases hm : head.routableMethod with
      | none => rfl
      | some m =>
        rw [hm, hsegments] at hselect
        exact Option.map_eq_none_iff.mp hselect
    simp only [FrozenNode.lookup, hnone, FrozenNode.refuseMethod]
    cases (router.root.resolve FrozenNode.collecting head.path segments []).2 with
    | nil => exact ⟨_, .path, rfl⟩
    | cons first rest => exact ⟨_, .method _, rfl⟩

end

theorem built_cases {ε : Type} {flags₂ : ℕ → Bool} {body : Except ε Bytes} {routed : Routed C}
    (h : dispatchClassifiedRoute flags₂ dispatch req
      (classifyPreBody parsesAuthority flags₁ dispatch req) body = .built routed) :
    ∃ built : Request, built.uri = req.uri ∧ built.rawHeaders = req.headers ∧
      routed = dispatch.dispatchResolved flags₂ built
        (classifyPreBody parsesAuthority flags₁ dispatch req).router ∧
      (classifyPreBody parsesAuthority flags₁ dispatch req).routeClass.ReachesDispatch ∧
      (built.method = .fromHyper req.method ∨
        ∃ method plan, (classifyPreBody parsesAuthority flags₁ dispatch req).routeClass =
          .buffered method plan ∧ built.method = .known method) := by
  unfold dispatchClassifiedRoute at h
  cases hclass : (classifyPreBody parsesAuthority flags₁ dispatch req).routeClass with
  | refused rejected | streamingProxy target | streamingMultipart target =>
    rw [hclass] at h
    cases h
  | headOnly | terminal =>
    rw [hclass] at h
    exact ⟨_, rfl, rfl, (Answered.built.inj h).symm, trivial, .inl rfl⟩
  | buffered method plan =>
    rw [hclass] at h
    cases body with
    | error refused => cases h
    | ok bytes =>
      exact ⟨_, rfl, rfl, (Answered.built.inj h).symm, trivial, .inr ⟨method, plan, rfl, rfl⟩⟩

theorem classifyPreBody_resolved
    (h : (classifyPreBody parsesAuthority flags dispatch req).router = some router) :
    dispatch.resolveFromHead parsesAuthority (.fromHyperRequest req) = .ok (some router) ∧
      (classifyPreBody parsesAuthority flags dispatch req).budgets = router.budgets := by
  unfold classifyPreBody ServerDispatch.classifyRoute at h ⊢
  cases hresolved : dispatch.resolveFromHead parsesAuthority (.fromHyperRequest req) with
  | error rejected =>
    rw [hresolved] at h
    cases h
  | ok found =>
    rw [hresolved] at h
    cases found with
    | none => cases h
    | some child =>
      obtain rfl := Option.some.inj h
      exact ⟨rfl, rfl⟩

theorem classifyPreBody_routeClass
    (h : (classifyPreBody parsesAuthority flags dispatch req).router = some router) :
    (classifyPreBody parsesAuthority flags dispatch req).routeClass =
      (router.classifyRoute flags (.fromHyperRequest req)
        (.of (isWsUpgradeHead req.headers))).1 := by
  unfold classifyPreBody ServerDispatch.classifyRoute
  rw [(classifyPreBody_resolved h).1]

theorem method_of_buffered {selected : Selected (Stored C)} {method m : Method}
    {upgrade : HeadUpgrade} {plan : ResolvedBodyPlan C}
    (h : router.classifyMatched flags selected method upgrade = .buffered m plan) : m = method := by
  unfold FrozenRouter.classifyMatched at h
  cases hhandler : selected.handler with
  | async handler | stream handler =>
    rw [hhandler] at h
    exact (RouteClass.buffered.inj h).1.symm
  | sse handler | proxy backend pathPrefix registration =>
    rw [hhandler] at h
    dsimp only at h
    split_ifs at h
    exact (RouteClass.buffered.inj h).1.symm
  | webSocket handler =>
    rw [hhandler] at h
    cases h
  | multipart handler =>
    rw [hhandler] at h
    cases h
  | proxyStream backend pathPrefix registration =>
    rw [hhandler] at h
    dsimp only at h
    split_ifs at h

theorem methodEnum_of_built {upgrade : HeadUpgrade} {built : Request}
    (h : built.method = .fromHyper req.method ∨ ∃ method plan,
      (router.classifyRoute flags (.fromHyperRequest req) upgrade).1 = .buffered method plan ∧
        built.method = .known method) :
    built.methodEnum = (RequestHead.fromHyperRequest req).routableMethod := by
  obtain hmethod | ⟨method, plan, hclass, hmethod⟩ := h
  · exact congrArg RequestMethod.routable hmethod
  · unfold FrozenRouter.classifyRoute at hclass
    cases hselect : router.selectHead (.fromHyperRequest req) with
    | none =>
      rw [hselect] at hclass
      cases hclass
    | some found =>
      rw [hselect] at hclass
      rw [(selectHead_eq_some hselect).1, ← method_of_buffered hclass]
      exact congrArg RequestMethod.routable hmethod

theorem dispatch_of_classified (flags₂ : ℕ → Bool) (mapper : Option C) {built : Request}
    (huri : built.uri = req.uri) (hheaders : built.rawHeaders = req.headers)
    (hreach : (router.classifyRoute flags₁ (.fromHyperRequest req)
      (.of (isWsUpgradeHead req.headers))).1.ReachesDispatch)
    (hmethod : built.methodEnum = (RequestHead.fromHyperRequest req).routableMethod) :
    (∀ method selected, router.selectHead (.fromHyperRequest req) = some (method, selected) →
      DispatchedTo router flags₂ (built.setParams selected.bindParams) selected.handler
        (router.dispatch flags₂ built mapper).1 ∧
      (router.dispatch flags₂ built mapper).2.identity =
        { RequestIdentity.fromRequest built with
          route := some selected.route, protocol := some (protocolOf selected.handler) }) ∧
    (router.selectHead (.fromHyperRequest req) = none → ∃ rejected, Unrouted built rejected ∧
      (router.dispatch flags₂ built mapper).1 =
        .async ⟨router.middleware, .rejected rejected, built⟩) := by
  have hpath : built.path = (RequestHead.fromHyperRequest req).path := congrArg Uri.path huri
  constructor
  · intro method selected hselect
    rw [(selectHead_eq_some hselect).1] at hmethod
    rw [dispatch_of_selected flags₂ mapper hselect hmethod hpath]
    refine ⟨?_, rfl⟩
    simp only [FrozenRouter.classifyRoute, hselect, ← hheaders] at hreach
    exact dispatchMatched_dispatchedTo flags₂ hreach
  · intro hselect
    exact dispatch_of_unselected flags₂ mapper hselect hmethod hpath

/-- Dispatch answers every request that reaches it with the handler classification selected for its
head, through the router classification resolved, whatever the health checks wrote in between. -/
theorem dispatch_follows_classification {ε : Type} (parsesAuthority : Text → Bool)
    (dispatch : ServerDispatch C) (req : HyperRequest) (flags₁ flags₂ : ℕ → Bool)
    (body : Except ε Bytes) (routed : Routed C)
    (h : dispatchClassifiedRoute flags₂ dispatch req
      (classifyPreBody parsesAuthority flags₁ dispatch req) body = .built routed) :
    routed.router = (classifyPreBody parsesAuthority flags₁ dispatch req).router ∧
    (∀ router method selected, routed.router = some router →
      router.selectHead (.fromHyperRequest req) = some (method, selected) →
      ∃ built : Request, built.uri = req.uri ∧ built.rawHeaders = req.headers ∧
        built.params = some selected.bindParams ∧
        DispatchedTo router flags₂ built selected.handler routed.result ∧
        routed.scope.identity.route = some selected.route ∧
        routed.scope.identity.protocol = some (protocolOf selected.handler)) ∧
    (∀ router, routed.router = some router →
      router.selectHead (.fromHyperRequest req) = none →
      ∃ built rejected, Unrouted built rejected ∧
        routed.result = .async ⟨router.middleware, .rejected rejected, built⟩) ∧
    (routed.router = none → ∃ built, routed.result =
      .async (.direct (.notFound "no router claims this authority".toList) built)) ∧
    ¬ Misdispatched routed.result ∧
    ∀ built : Request, isWsUpgradeRequest built = isWsUpgradeHead built.rawHeaders := by
  obtain ⟨built, huri, hheaders, rfl, hreach, hmethod⟩ := built_cases h
  cases hrouter : (classifyPreBody parsesAuthority flags₁ dispatch req).router with
  | none =>
    refine ⟨rfl, by rintro router method selected ⟨⟩, by rintro router ⟨⟩, fun _ => ⟨built, rfl⟩, ?_,
      isWsUpgradeRequest_eq⟩
    rintro ⟨req', hmis⟩
    simp [ServerDispatch.dispatchResolved, FrozenRouter.misdispatched, AsyncDispatch.direct,
      FrozenRouter.misdispatchedStreamingProxy] at hmis
  | some router =>
    rw [classifyPreBody_routeClass hrouter] at hreach hmethod
    obtain ⟨hselected, hunselected⟩ := dispatch_of_classified flags₂
      (dispatch.selectMapper (some router)) huri hheaders hreach (methodEnum_of_built hmethod)
    refine ⟨rfl, ?_, ?_, by rintro ⟨⟩, ?_, isWsUpgradeRequest_eq⟩
    · rintro router' method selected ⟨⟩ hselect
      obtain ⟨hto, hidentity⟩ := hselected method selected hselect
      exact ⟨built.setParams selected.bindParams, huri, hheaders, rfl, hto, congrArg RequestIdentity.route hidentity,
        congrArg RequestIdentity.protocol hidentity⟩
    · rintro router' ⟨⟩ hselect
      exact ⟨built, hunselected hselect⟩
    · cases hselect : router.selectHead (.fromHyperRequest req) with
      | none =>
        obtain ⟨rejected, hunrouted, hresult⟩ := hunselected hselect
        rw [ServerDispatch.dispatchResolved, hresult]
        exact hunrouted.not_misdispatched router.middleware built
      | some found => exact (hselected found.1 found.2 hselect).1.not_misdispatched

def sampleDispatch : ServerDispatch ℕ :=
  .single
    { root := ((TrieNode.new.insertRoute .get "/live/*rest".toList
        (.proxyStream "http://up".toList "/live".toList
          (.streamingRegistration 7 .default (some 0)))).freeze)
      budgets := .default
      middleware := []
      mapper := none
      bodyCeiling := 1024
      bodyPolicy := none }

def sampleHandshake : HyperRequest where
  method := "GET".toList
  uri := ⟨"/live/feed".toList, none, none⟩
  headers := [(⟨"upgrade".toList, by decide⟩, encode "WebSocket".toList)]

def Answered.isBuilt {ε : Type} : Answered C ε → Bool
  | .built _ => true
  | .refusedFromHead _ | .streamingProxy _ | .streamingMultipart _ | .refusedBody _ => false

theorem Answered.exists_of_isBuilt {ε : Type} {answered : Answered C ε} (h : answered.isBuilt) :
    ∃ routed, answered = .built routed := by
  cases answered with
  | built routed => exact ⟨routed, rfl⟩
  | _ => cases h

/-- The handshake reaches dispatch although its route streams, and its backend fails its health
check in between. -/
theorem dispatch_follows_classification_sampleHandshake :
    ∃ routed, dispatchClassifiedRoute (fun _ => false) sampleDispatch sampleHandshake
        (classifyPreBody (fun _ => true) (fun _ => true) sampleDispatch sampleHandshake)
        (.ok [] : Except Unit Bytes) = .built routed ∧ ¬ Misdispatched routed.result := by
  obtain ⟨routed, h⟩ := Answered.exists_of_isBuilt (show (dispatchClassifiedRoute
    (fun _ => false) sampleDispatch sampleHandshake
    (classifyPreBody (fun _ => true) (fun _ => true) sampleDispatch sampleHandshake)
    (.ok [] : Except Unit Bytes)).isBuilt = true by decide +kernel)
  have := dispatch_follows_classification _ _ _ _ _ _ routed h
  exact ⟨routed, h, this.2.2.2.2.1⟩

end Camber.Dispatch
