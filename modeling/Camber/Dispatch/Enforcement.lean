import Camber.Dispatch.Freeze

/-! A reported route is resolved once, an enforced one narrowed twice. Here is where they agree. -/

namespace Camber.Dispatch
open Str Routing Policy
open Inbound (TransferBudget TransferOwner OperationEnvelope RequestBudget)

variable {C : Type}

def RouteClass.plan : RouteClass C → Option (ResolvedBodyPlan C)
  | .buffered _ plan => some plan
  | .streamingProxy target => some target.plan
  | .streamingMultipart target => some target.plan
  | .headOnly | .terminal | .refused _ => none

def uploadOwner (operation : OperationEnvelope) (now : ℕ) : RouteClass C → Option TransferOwner
  | .streamingProxy target => some (operation.upload target.upstream.upload now).deadlinesOnly
  | .streamingMultipart _ => some (operation.upload .unbounded now).deadlinesOnly
  | .buffered _ _ | .headOnly | .terminal | .refused _ => none

/-- The download owner a streamed answer takes: that of a streaming proxy, of an event stream, and
of a stream handler's response, which brings the budget `response` of its own. -/
def downloadOwner (operation : OperationEnvelope) (now : ℕ) (response : TransferBudget)
    (handler : Handler C) : RouteClass C → Option TransferOwner
  | .streamingProxy target => some (operation.download target.upstream.download now)
  | .buffered _ _ | .headOnly =>
    match handler with
    | .sse registration => some (operation.download registration.download now)
    | .stream _ => some (operation.download response now)
    | .async _ | .multipart _ | .webSocket _ | .proxy _ _ _ | .proxyStream _ _ _ => none
  | .streamingMultipart _ | .terminal | .refused _ => none

def responseBudget (response : TransferBudget) : Handler C → TransferBudget
  | .stream _ => response
  | .async _ | .sse _ | .multipart _ | .webSocket _ | .proxy _ _ _ | .proxyStream _ _ _ => .unbounded

structure Enforces (classified : Classified C) (handler : Handler C)
    (reported : EffectiveRoutePolicy) : Prop where
  request : classified.budgets.request = reported.budgets.values.request
  body : ∀ plan, classified.routeClass.plan = some plan →
    ∃ bound, reported.body = some bound ∧ bound.value = plan.ceiling
  upload : ∀ admittedAt now owner,
    uploadOwner (.admitRequest classified.budgets.toRouteBudgets admittedAt) now
      classified.routeClass = some owner → owner.budget = reported.budgets.values.upload
  download : ∀ admittedAt now response owner,
    downloadOwner (.admitRequest classified.budgets.toRouteBudgets admittedAt) now response handler
      classified.routeClass = some owner →
    owner.budget = (responseBudget response handler).narrowedBy reported.budgets.values.download
  maximum : reported.budgets.values.upload.maxBytes =
    if admissionCountsUpload handler then none else classified.budgets.upload.maxBytes

theorem unbounded_narrowedBy (budget : TransferBudget) :
    TransferBudget.unbounded.narrowedBy budget = budget := by
  simp [TransferBudget.narrowedBy, TransferBudget.unbounded]

variable {handler : Handler C}

theorem registrationBudgets_request (h : ConfiguredHandler handler) :
    (∀ d ∈ PolicyDimension.request, d ∉ (registrationBudgets handler).explicit) ∧
      (registrationBudgets handler).request = .unbounded := by
  cases handler with
  | sse registration =>
    rcases registrationBudgets_sse registration with ⟨-, heq⟩ | ⟨budget, -, heq⟩
    · rw [heq]
      exact ⟨by simp [RouteBudgets.default], rfl⟩
    · rw [heq]
      exact ⟨by simp [RouteBudgets.withDownload, RouteBudgets.default, PolicyDimension.request,
        PolicyDimension.download], rfl⟩
  | proxyStream backend pathPrefix registration =>
    obtain ⟨policy, hpolicy, -, hbudgets⟩ := h
    rw [registrationBudgets, hbudgets]
    exact ⟨hpolicy.transfer, rfl⟩
  | async _ | stream _ | multipart _ | webSocket _ | proxy _ _ _ =>
    exact ⟨by simp [registrationBudgets, RouteBudgets.default], rfl⟩

theorem request_containedBy (h : ConfiguredHandler handler) (outer : RouteBudgets) :
    ((registrationBudgets handler).containedBy outer).request = outer.request := by
  obtain ⟨hset, hrequest⟩ := registrationBudgets_request h
  have hidle := RouteBudgets.bound_containedBy_of_absent outer (d := .requestBodyIdle) (by decide)
    (hset _ (by decide)) (congrArg RequestBudget.bodyIdle hrequest)
  have htotal := RouteBudgets.bound_containedBy_of_absent outer (d := .requestTotal) (by decide)
    (hset _ (by decide)) (congrArg RequestBudget.total hrequest)
  exact (RequestBudget.mk.injEq _ _ _ _).mpr ⟨hidle, htotal⟩

theorem reportRoute_values (h : ConfiguredHandler handler) {base : RouteReportBase}
    (hbase : base.budgets.values.TransferUnset) (host : Option Text)
    {visited : Method × FrozenHandler (Stored C)} (hhandler : visited.2.handler = handler) :
    (reportRoute host base visited).budgets.values.request = base.budgets.values.request ∧
    (reportRoute host base visited).budgets.values.download =
      (registrationBudgets handler).download.narrowedBy base.budgets.values.download ∧
    (reportRoute host base visited).budgets.values.upload =
      if admissionCountsUpload handler then
        ((registrationBudgets handler).upload.narrowedBy base.budgets.values.upload).withoutMaxBytes
      else (registrationBudgets handler).upload.narrowedBy base.budgets.values.upload := by
  subst hhandler
  obtain ⟨hupload, hdownload⟩ := RouteBudgets.transfer_containedBy
    (RouteBudgets.transferUnset_of_unset (registrationBudgets_unset h)) hbase
  have hrequest := request_containedBy h base.budgets.values
  unfold reportRoute
  dsimp only
  by_cases hcounts : admissionCountsUpload visited.2.handler
  · rw [if_pos hcounts, if_pos hcounts, ← hupload, ← hdownload]
    exact ⟨hrequest, rfl, rfl⟩
  · rw [if_neg hcounts, if_neg hcounts, ← hupload, ← hdownload]
    exact ⟨hrequest, rfl, rfl⟩

section Owners

variable {router : FrozenRouter C} {flags : ℕ → Bool} {selected : Selected (Stored C)}
  {method : Method} {upgrade : HeadUpgrade}

theorem plan_classifyMatched {plan : ResolvedBodyPlan C}
    (h : (router.classifyMatched flags selected method upgrade).plan = some plan) :
    registrationReadsBody selected.handler ∧
      plan.ceiling = registrationCeiling selected.handler router.bodyCeiling := by
  unfold FrozenRouter.classifyMatched at h
  cases hhandler : selected.handler with
  | async _ | stream _ | multipart _ =>
    rw [hhandler] at h
    obtain rfl := Option.some.inj h
    exact ⟨rfl, rfl⟩
  | webSocket _ =>
    rw [hhandler] at h
    cases h
  | sse registration =>
    rw [hhandler] at h
    dsimp only at h
    split_ifs at h with hreads
    · obtain rfl := Option.some.inj h
      exact ⟨hreads, rfl⟩
    · cases h
  | proxy _ _ _ | proxyStream _ _ _ =>
    rw [hhandler] at h
    dsimp only at h
    split_ifs at h
    · cases h
    · cases h
    · obtain rfl := Option.some.inj h
      exact ⟨rfl, rfl⟩

theorem uploadOwner_classifyMatched (hhandler : ConfiguredHandler selected.handler)
    {operation : OperationEnvelope} {now : ℕ} {owner : TransferOwner}
    (h : uploadOwner operation now (router.classifyMatched flags selected method upgrade) =
      some owner) :
    admissionCountsUpload selected.handler ∧ owner.budget =
      ((registrationBudgets selected.handler).upload.narrowedBy
        operation.budgets.upload).withoutMaxBytes := by
  unfold FrozenRouter.classifyMatched at h
  cases hkind : selected.handler with
  | async _ | stream _ | webSocket _ =>
    rw [hkind] at h
    cases h
  | multipart _ =>
    rw [hkind] at h
    obtain rfl := Option.some.inj h
    exact ⟨rfl, rfl⟩
  | sse _ | proxy _ _ _ =>
    rw [hkind] at h
    dsimp only at h
    split_ifs at h <;> cases h
  | proxyStream _ _ registration =>
    rw [hkind] at h hhandler
    dsimp only at h
    split_ifs at h
    · cases h
    · cases h
    · obtain rfl := Option.some.inj h
      obtain ⟨policy, -, hupstream, hbudgets⟩ := hhandler
      refine ⟨rfl, ?_⟩
      rw [registrationBudgets, hbudgets, hupstream]
      rfl

theorem downloadOwner_classifyMatched (hhandler : ConfiguredHandler selected.handler)
    {operation : OperationEnvelope} {now : ℕ} {response : TransferBudget} {owner : TransferOwner}
    (h : downloadOwner operation now response selected.handler
      (router.classifyMatched flags selected method upgrade) = some owner) :
    owner.budget = (responseBudget response selected.handler).narrowedBy
      ((registrationBudgets selected.handler).download.narrowedBy operation.budgets.download) := by
  unfold FrozenRouter.classifyMatched at h
  cases hkind : selected.handler with
  | async _ | webSocket _ | multipart _ =>
    rw [hkind] at h
    cases h
  | stream _ =>
    rw [hkind] at h
    obtain rfl := Option.some.inj h
    rw [registrationBudgets, RouteBudgets.default, unbounded_narrowedBy]
    rfl
  | sse registration =>
    rw [hkind] at h
    have howner : owner = operation.download registration.download now := by
      dsimp only at h
      split_ifs at h
      · exact (Option.some.inj h).symm
      · exact (Option.some.inj h).symm
    have hdownload : (registrationBudgets (.sse registration)).download = registration.download := by
      rcases registrationBudgets_sse registration with ⟨hnone, heq⟩ | ⟨budget, hsome, heq⟩
      · rw [heq, Stored.download, hnone]
        rfl
      · rw [heq, Stored.download, hsome]
        rfl
    rw [responseBudget, unbounded_narrowedBy, hdownload, howner]
    rfl
  | proxy _ _ _ =>
    rw [hkind] at h
    dsimp only at h
    split_ifs at h <;> cases h
  | proxyStream _ _ registration =>
    rw [hkind] at h hhandler
    dsimp only at h
    split_ifs at h
    · cases h
    · cases h
    · obtain rfl := Option.some.inj h
      obtain ⟨policy, -, hupstream, hbudgets⟩ := hhandler
      rw [responseBudget, unbounded_narrowedBy, registrationBudgets, hbudgets, hupstream]
      rfl

end Owners

theorem transferUnset_base (config : Configuration C) (place : Placement C) :
    (place.router.base (place.envelope config.effective)).budgets.values.TransferUnset := by
  have hserver : config.effective.routeBudgets.values.TransferUnset := by
    apply EffectiveServerPolicy.transferUnset_routeBudgets config.server.2
    intro policy hpolicy
    obtain ⟨runtime, -, rfl⟩ := Option.map_eq_some_iff.mp hpolicy
    exact runtime.2
  have henvelope : (place.envelope config.effective).budgets.values.TransferUnset := by
    unfold Placement.envelope
    cases place.host with
    | none => exact hserver
    | some host =>
      exact RouteBudgets.transferUnset_containedBy
        (RouteBudgets.transferUnset_of_unset host.1.2) hserver
  exact RouteBudgets.transferUnset_containedBy
    (RouteBudgets.transferUnset_of_unset place.router.budgets.2) henvelope

theorem admissionCountsUpload_upload (h : ¬ admissionCountsUpload handler) :
    (registrationBudgets handler).upload = .unbounded := by
  cases handler with
  | sse registration =>
    rcases registrationBudgets_sse registration with ⟨-, heq⟩ | ⟨budget, -, heq⟩
    · rw [heq]
      rfl
    · rw [heq]
      rfl
  | multipart _ | proxyStream _ _ _ => exact absurd rfl h
  | async _ | stream _ | webSocket _ | proxy _ _ _ => rfl

theorem enforces_of_selected (config : Configuration C) (place : Placement C)
    {classified : Classified C} {flags : ℕ → Bool} {selected : Selected (Stored C)}
    {method : Method} {upgrade : HeadUpgrade} {visited : Method × FrozenHandler (Stored C)}
    (hconfigured : ConfiguredHandler selected.handler)
    (hvisited : visited.2.handler = selected.handler)
    (hbudgets : classified.budgets = (place.freeze config.effective).1.budgets)
    (hclass : classified.routeClass =
      (place.freeze config.effective).1.classifyMatched flags selected method upgrade) :
    Enforces classified selected.handler
      (reportRoute place.name (place.router.base (place.envelope config.effective)) visited) := by
  obtain ⟨hrequest, hdownload, hupload⟩ := reportRoute_values hconfigured
    (transferUnset_base config place) place.name hvisited
  refine ⟨?_, ?_, ?_, ?_, ?_⟩
  · rw [hrequest, hbudgets]
    rfl
  · intro plan hplan
    rw [hclass] at hplan
    obtain ⟨hreads, hceiling⟩ := plan_classifyMatched hplan
    refine ⟨registrationBodyBound selected.handler
      (place.router.base (place.envelope config.effective)).ceiling, ?_, ?_⟩
    · unfold reportRoute
      dsimp only
      rw [hvisited, if_pos hreads]
    · rw [registrationBodyBound_value, hceiling]
      rfl
  · intro admittedAt now owner howner
    rw [hclass] at howner
    obtain ⟨hcounts, hbudget⟩ := uploadOwner_classifyMatched hconfigured howner
    rw [hbudget, hupload, if_pos hcounts, hbudgets]
    rfl
  · intro admittedAt now response owner howner
    rw [hclass] at howner
    rw [downloadOwner_classifyMatched hconfigured howner, hdownload, hbudgets]
    rfl
  · rw [hupload, hbudgets]
    by_cases hcounts : admissionCountsUpload selected.handler
    · rw [if_pos hcounts, if_pos hcounts]
      rfl
    · rw [if_neg hcounts, if_neg hcounts, admissionCountsUpload_upload hcounts,
        unbounded_narrowedBy]
      rfl

/-- The report states what is enforced. A request that selects a registration was resolved to a
router that stands at some place of the configuration; the registration is one the report visits
there, and the request runs under what the report says of it. -/
theorem report_states_enforced (parsesAuthority : Text → Bool) (flags : ℕ → Bool)
    (config : Configuration C) (req : HyperRequest) (router : FrozenRouter C) (method : Method)
    (selected : Selected (Stored C))
    (hrouter : (classifyPreBody parsesAuthority flags config.dispatch req).router = some router)
    (hselect : router.selectHead (.fromHyperRequest req) = some (method, selected)) :
    ∃ place ∈ config.routes.placements, router = (place.freeze config.effective).1 ∧
      ∃ registered ∈ visitRegistrations router.root,
        registered.2.handler = selected.handler ∧ registered.2.route = selected.route ∧
        (registered.1 = method ∨ method = .head ∧ registered.1 = .get) ∧
        reportRoute place.name (place.router.base (place.envelope config.effective)) registered ∈
          config.routePolicies ∧
        Enforces (classifyPreBody parsesAuthority flags config.dispatch req) selected.handler
          (reportRoute place.name (place.router.base (place.envelope config.effective))
            registered) := by
  obtain ⟨hresolved, hbudgets⟩ := classifyPreBody_resolved hrouter
  obtain ⟨place, hplace, rfl⟩ := exists_placement hresolved
  obtain ⟨-, segments, -, hfound⟩ := selectHead_eq_some hselect
  obtain ⟨registered, hmem, hhandler, hroute, hmethod⟩ := mem_visitRegistrations_of_select hfound
  have hconfigured : ConfiguredHandler selected.handler := by
    obtain ⟨registration, hregistration, heq⟩ := exists_registration_of_visited hmem
    rw [← hhandler, heq]
    exact place.router.configured registration hregistration
  have hclass : (classifyPreBody parsesAuthority flags config.dispatch req).routeClass =
      (place.freeze config.effective).1.classifyMatched flags selected method
        (.of (isWsUpgradeHead req.headers)) := by
    rw [classifyPreBody_routeClass hrouter, FrozenRouter.classifyRoute, hselect]
  refine ⟨place, hplace, rfl, registered, hmem, hhandler, hroute, hmethod, ?_, ?_⟩
  · rw [routePolicies_eq]
    exact List.mem_flatMap_of_mem hplace (List.mem_map_of_mem hmem)
  · exact enforces_of_selected config place hconfigured hhandler hbudgets hclass

def sampleStreaming : Configuration ℕ where
  runtime := none
  server := ⟨.default, ServerPolicy.unset_ofTimeouts _ _⟩
  routes := .single
    { registrations := [⟨.get, "/feed".toList, .stream (.plain 7)⟩]
      budgets := ⟨.default, RouteBudgets.unset_default⟩
      bodyCeiling := .unset
      middleware := []
      mapper := none
      bodyPolicy := none
      configured := by simp [ConfiguredHandler] }

def sampleFeed : HyperRequest where
  method := "GET".toList
  uri := ⟨"/feed".toList, none, none⟩
  headers := []

def sampleSelected : Option (FrozenRouter ℕ × Method × Selected (Stored ℕ)) :=
  (classifyPreBody (fun _ => true) (fun _ => true) sampleStreaming.dispatch sampleFeed).router.bind
    fun router => (router.selectHead (.fromHyperRequest sampleFeed)).map fun found => (router, found)

/-- Uploads to `/files` bounded by the server, more tightly by the router and most tightly by the
registration. -/
def sampleBounded : Configuration ℕ where
  runtime := none
  server := ⟨_, ServerPolicy.unset_set (show ServerPolicy.default.set 64 (fun _ => "")
    (.uploadBudget ⟨some 900, some 8, some 90⟩) = .ok _ from rfl) (ServerPolicy.unset_ofTimeouts _ _)⟩
  routes := .single
    { registrations := [⟨.put, "/files".toList, .proxyStream "http://up".toList "/files".toList
        (.streamingRegistration 7 (.uploadBudget .default ⟨some 100, some 5, none⟩) none)⟩]
      budgets := ⟨_, RouteBudgets.unset_withUpload RouteBudgets.unset_default ⟨some 500, none, some 60⟩⟩
      bodyCeiling := .unset
      middleware := []
      mapper := none
      bodyPolicy := none
      configured := by
        rintro r hr
        rw [List.mem_singleton.mp hr]
        exact ⟨_, ProxyPolicy.Configured.default.uploadBudget _, rfl, rfl⟩ }

def sampleUpload : HyperRequest where
  method := "PUT".toList
  uri := ⟨"/files".toList, none, none⟩
  headers := []

def sampleClassified : Classified ℕ :=
  classifyPreBody (fun _ => true) (fun _ => true) sampleBounded.dispatch sampleUpload

theorem report_states_enforced_sampleUpload :
    ∃ reported ∈ sampleBounded.routePolicies,
      reported.budgets.values.upload = ⟨none, some 5, some 60⟩ ∧
        ∃ bound, reported.body = some bound ∧ bound.value = 100 := by
  obtain ⟨found, hfound⟩ := Option.isSome_iff_exists.mp
    (show (sampleClassified.router.bind fun router =>
      (router.selectHead (.fromHyperRequest sampleUpload)).map fun found =>
        (router, found)).isSome = true by decide)
  obtain ⟨router, hrouter, hmap⟩ := Option.bind_eq_some_iff.mp hfound
  obtain ⟨selection, hselect, -⟩ := Option.map_eq_some_iff.mp hmap
  obtain ⟨place, -, -, registered, -, -, -, -, hreported, henforces⟩ :=
    report_states_enforced _ _ sampleBounded sampleUpload router selection.1 selection.2 hrouter
      hselect
  obtain ⟨plan, hplan, hceiling⟩ : ∃ plan, sampleClassified.routeClass.plan = some plan ∧
      plan.ceiling = 100 := ⟨_, rfl, by decide⟩
  obtain ⟨owner, howner, hbudget⟩ : ∃ owner,
      uploadOwner (.admitRequest sampleClassified.budgets.toRouteBudgets 0) 0
        sampleClassified.routeClass = some owner ∧ owner.budget = ⟨none, some 5, some 60⟩ :=
    ⟨_, rfl, by decide⟩
  refine ⟨_, hreported, (henforces.upload 0 0 owner howner).symm.trans hbudget, ?_⟩
  obtain ⟨bound, hbody, hvalue⟩ := henforces.body plan hplan
  exact ⟨bound, hbody, hvalue.trans hceiling⟩

/-- A stream handler answers with a response bounded to ten bytes: its download runs under ten
bytes, and the report states no maximum for its route. -/
theorem streamResponse_narrows_below_report :
    (sampleSelected.bind fun found =>
      (downloadOwner (.admitRequest (classifyPreBody (fun _ => true) (fun _ => true)
          sampleStreaming.dispatch sampleFeed).budgets.toRouteBudgets 0) 0 ⟨some 10, none, none⟩
        found.2.2.handler (classifyPreBody (fun _ => true) (fun _ => true)
          sampleStreaming.dispatch sampleFeed).routeClass).map fun owner =>
      (found.2.2.route, owner.budget.maxBytes)) = some ("/feed".toList, some 10) ∧
    (sampleStreaming.routePolicies.map fun reported =>
      (reported.route, reported.budgets.values.download.maxBytes)) = [("/feed".toList, none)] := by
  decide

end Camber.Dispatch
