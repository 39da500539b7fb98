import Camber.Basic
import Camber.Policy.Budgets

/-! Every bound a server applies to the work it admits, with the dimensions its setters chose. -/

namespace Camber.Policy
open Str Inbound PolicyValues

def maxPolicyDeadline : ℕ := 86400 * 365 * 30 * 10 ^ 9

def finiteDuration (value : ℕ) (name : String) : Except RuntimeError ℕ :=
  if value = 0 then .error (.invalidArgument s!"{name} must be greater than zero")
  else if maxPolicyDeadline < value then
    .error (.invalidArgument s!"{name} must be at most 946080000 seconds")
  else .ok value

def positiveLimit (value : ℕ) (name : String) : Except RuntimeError ℕ :=
  if value = 0 then .error (.invalidArgument s!"{name} must be at least 1") else .ok value

def limitWithin (value ceiling : ℕ) (name : String) : Except RuntimeError ℕ := do
  let limit ← positiveLimit value name
  if ceiling < limit then .error (.invalidArgument s!"{name} must be at most {ceiling}")
  else .ok limit

def metricsPath : Text := "/metrics".toList

def profilingPath : Text := "/debug/pprof/cpu".toList

def segmentDefect : Text → Option String
  | [] => some "must not have an empty segment or a trailing '/'"
  | c :: _ => if c = ':' ∨ c = '*' then some "must name only static segments" else none

def pathDefect (path : Text) : Option String :=
  match stripPrefixChar '/' path with
  | none => some "must start with '/'"
  | some rest =>
    if path.any fun c => c = '?' || c = '#' then some "must not carry a query or fragment"
    else if path = metricsPath ∨ path = profilingPath then some "is another internal route"
    else if path = ['/'] then none
    else (rest.splitOn '/').findSome? segmentDefect

def HealthRoute.validated (debug : Text → String) : HealthRoute → Except RuntimeError HealthRoute
  | .path named =>
    match pathDefect named with
    | none => .ok (.path named)
    | some defect =>
      let quoted := debug named
      .error (.invalidArgument s!"health_route path {quoted} {defect}")
  | route => .ok route

/-- Every bound one server applies to the work it admits. -/
structure ServerPolicy where
  headerTimeout : ℕ
  request : RequestBudget
  upload : TransferBudget
  download : TransferBudget
  shutdownTimeout : ℕ
  profilingResponse : Option ℕ
  connectionLimit : Option ℕ
  healthRoute : HealthRoute
  requestBodyHardCap : ℕ
  explicit : DimensionSet

namespace ServerPolicy

def seconds (n : ℕ) : ℕ := n * 10 ^ 9

def ofTimeouts (headerTimeout shutdownTimeout : ℕ) : ServerPolicy where
  headerTimeout
  request := ⟨some (seconds 30), some (seconds 30)⟩
  upload := .unbounded
  download := .unbounded
  shutdownTimeout
  profilingResponse := some (8 * 1024 * 1024)
  connectionLimit := none
  healthRoute := .default
  requestBodyHardCap := 256 * 1024 * 1024
  explicit := ∅

def default : ServerPolicy := ofTimeouts (seconds 60) (seconds 30)

/-- One call of a setter. -/
inductive Setting where
  | headerTimeout (timeout : ℕ)
  | requestBudget (budget : RequestBudget)
  | requestBodyHardCap (bytes : ℕ)
  | uploadBudget (budget : TransferBudget)
  | downloadBudget (budget : TransferBudget)
  | shutdownTimeout (timeout : ℕ)
  | connectionLimit (limit : ℕ)
  | profilingResponseLimit (maxBytes : ℕ)
  | unboundedProfilingResponse
  | healthRoute (route : HealthRoute)

def set (maxConnectionLimit : ℕ) (debug : Text → String) (policy : ServerPolicy) :
    Setting → Except RuntimeError ServerPolicy
  | .headerTimeout timeout => do
    let headerTimeout ← finiteDuration timeout "header_timeout"
    .ok { policy with headerTimeout, explicit := insert .headerTimeout policy.explicit }
  | .requestBudget request =>
    .ok { policy with
      request, explicit := policy.explicit ∪ DimensionSet.of PolicyDimension.request }
  | .requestBodyHardCap bytes => do
    let requestBodyHardCap ← positiveLimit bytes "request_body_hard_cap"
    .ok { policy with
      requestBodyHardCap, explicit := insert .requestBodyHardCap policy.explicit }
  | .uploadBudget upload =>
    .ok { policy with
      upload, explicit := policy.explicit ∪ DimensionSet.of PolicyDimension.upload }
  | .downloadBudget download =>
    .ok { policy with
      download, explicit := policy.explicit ∪ DimensionSet.of PolicyDimension.download }
  | .shutdownTimeout timeout => do
    let shutdownTimeout ← finiteDuration timeout "shutdown_timeout"
    .ok { policy with shutdownTimeout, explicit := insert .shutdownTimeout policy.explicit }
  | .connectionLimit limit => do
    let limit ← limitWithin limit maxConnectionLimit "connection_limit"
    .ok { policy with
      connectionLimit := some limit, explicit := insert .connectionLimit policy.explicit }
  | .profilingResponseLimit maxBytes => do
    let limit ← positiveLimit maxBytes "profiling_response_limit"
    .ok { policy with
      profilingResponse := some limit
      explicit := insert .profilingResponseLimit policy.explicit }
  | .unboundedProfilingResponse =>
    .ok { policy with
      profilingResponse := none
      explicit := insert .profilingResponseLimit policy.explicit }
  | .healthRoute route => do
    let healthRoute ← route.validated debug
    .ok { policy with healthRoute, explicit := insert .healthRoute policy.explicit }

def routeBudgets (policy : ServerPolicy) : RouteBudgets :=
  ⟨⟨policy.request, policy.upload, policy.download⟩,
    policy.explicit ∩ DimensionSet.of PolicyDimension.route⟩

instance : PolicyValues ServerPolicy where
  dimensions := PolicyDimension.server
  explicit := ServerPolicy.explicit
  value policy
    | .headerTimeout => some (.duration (some policy.headerTimeout))
    | .shutdownTimeout => some (.duration (some policy.shutdownTimeout))
    | .connectionLimit => some (.bytes policy.connectionLimit)
    | .healthRoute => some (.health policy.healthRoute)
    | .profilingResponseLimit => some (.bytes policy.profilingResponse)
    | .requestBodyHardCap => some (.bytes (some policy.requestBodyHardCap))
    | .requestBodyLimit => none
    | d => value policy.routeBudgets d

def located (policy : ServerPolicy) (layer : PolicyLayer) : Located ServerPolicy where
  values := policy
  sources := DimensionSources.collect PolicyDimension.server fun d =>
    PolicyLayers.one layer (decide (d ∉ policy.explicit))

def containedBy (inner outer : ServerPolicy) : ServerPolicy :=
  let budgets := inner.routeBudgets.containedBy outer.routeBudgets
  { headerTimeout := (supplier inner outer .headerTimeout).choose inner.headerTimeout
      outer.headerTimeout min
    request := budgets.request
    upload := budgets.upload
    download := budgets.download
    shutdownTimeout := (supplier inner outer .shutdownTimeout).choose inner.shutdownTimeout
      outer.shutdownTimeout min
    profilingResponse := (supplier inner outer .profilingResponseLimit).choose
      inner.profilingResponse outer.profilingResponse narrow
    connectionLimit := (supplier inner outer .connectionLimit).choose inner.connectionLimit
      outer.connectionLimit narrow
    healthRoute := inner.healthRoute.narrowedBy outer.healthRoute
    requestBodyHardCap := (supplier inner outer .requestBodyHardCap).choose
      inner.requestBodyHardCap outer.requestBodyHardCap min
    explicit := inner.explicit ∪ outer.explicit }

instance : ContainedValues ServerPolicy where
  containedBy := containedBy

@[simp] theorem dimensions_eq : dimensions ServerPolicy = PolicyDimension.server := rfl

@[simp] theorem explicit_eq (policy : ServerPolicy) :
    PolicyValues.explicit policy = policy.explicit := rfl

variable {d : PolicyDimension} {policy changed : ServerPolicy}

theorem value_routeBudgets (policy : ServerPolicy) (hd : d ∈ PolicyDimension.route) :
    value policy d = value policy.routeBudgets d := by
  revert d
  rw [PolicyDimension.forall_route]
  exact ⟨rfl, rfl, rfl, rfl, rfl, rfl, rfl, rfl⟩

theorem supplier_routeBudgets (inner outer : ServerPolicy) (hd : d ∈ PolicyDimension.route) :
    supplier inner.routeBudgets outer.routeBudgets d = supplier inner outer d := by
  simp [supplier, routeBudgets, hd]

theorem routeBudgets_containedBy (inner outer : ServerPolicy) :
    (inner.containedBy outer).routeBudgets = inner.routeBudgets.containedBy outer.routeBudgets := by
  have hexplicit : (inner.containedBy outer).routeBudgets.explicit =
      (inner.routeBudgets.containedBy outer.routeBudgets).explicit :=
    Finset.union_inter_distrib_right _ _ _
  rw [RouteBudgets.mk.injEq]
  exact ⟨rfl, hexplicit⟩

theorem choose_some (supplier : Supplier) (inner outer : ℕ) :
    some (supplier.choose inner outer min) =
      supplier.choose (some inner) (some outer) narrow := by
  cases supplier <;> rfl

theorem mem_server (hd : d ∈ PolicyDimension.server) :
    d ∈ PolicyDimension.route ∨ d = .headerTimeout ∨ d = .shutdownTimeout ∨
      d = .connectionLimit ∨ d = .healthRoute ∨ d = .requestBodyHardCap ∨
        d = .profilingResponseLimit := by
  simpa [PolicyDimension.server, PolicyDimension.serverOnly, or_assoc] using hd

instance : Lawful ServerPolicy where
  value_eq policy d hd hhealth := by
    rcases mem_server hd with hroute | rfl | rfl | rfl | rfl | rfl | rfl
    · rw [bound, value_routeBudgets policy hroute]
      exact Lawful.value_eq policy.routeBudgets hroute hhealth
    · rfl
    · rfl
    · rfl
    · exact absurd rfl hhealth
    · rfl
    · rfl
  explicit_containedBy _ _ := rfl
  bound_containedBy inner outer d hd hhealth := by
    show bound (inner.containedBy outer) d = _
    rcases mem_server hd with hroute | rfl | rfl | rfl | rfl | rfl | rfl
    · simp only [bound, value_routeBudgets _ hroute, routeBudgets_containedBy]
      rw [← supplier_routeBudgets inner outer hroute]
      exact Lawful.bound_containedBy inner.routeBudgets outer.routeBudgets hroute hhealth
    · exact choose_some _ _ _
    · exact choose_some _ _ _
    · rfl
    · exact absurd rfl hhealth
    · exact choose_some _ _ _
    · rfl

structure Unset (policy : ServerPolicy) : Prop where
  transfer : ∀ d ∈ PolicyDimension.upload ++ PolicyDimension.download, d ∉ policy.explicit →
    bound policy d = none
  health : .healthRoute ∉ policy.explicit → policy.healthRoute = .default

theorem unset_ofTimeouts (headerTimeout shutdownTimeout : ℕ) :
    (ofTimeouts headerTimeout shutdownTimeout).Unset where
  transfer := by
    simp [PolicyDimension.upload, PolicyDimension.download, ofTimeouts, bound, value,
      routeBudgets, TransferBudget.unbounded, PolicyValue.bound]
  health _ := rfl

theorem Unset.of_changed (h : policy.Unset) (hmono : policy.explicit ⊆ changed.explicit)
    (htransfer : ∀ d ∈ PolicyDimension.upload ++ PolicyDimension.download,
      d ∉ changed.explicit → bound changed d = bound policy d)
    (hhealth : .healthRoute ∉ changed.explicit → changed.healthRoute = policy.healthRoute) :
    changed.Unset where
  transfer d hd hset := by
    rw [htransfer d hd hset]
    exact h.transfer d hd fun hmem => hset (hmono hmem)
  health hset := by
    rw [hhealth hset]
    exact h.health fun hmem => hset (hmono hmem)

theorem Unset.of_same_transfer (h : policy.Unset) (hmono : policy.explicit ⊆ changed.explicit)
    (hupload : changed.upload = policy.upload) (hdownload : changed.download = policy.download)
    (hhealth : .healthRoute ∉ changed.explicit → changed.healthRoute = policy.healthRoute) :
    changed.Unset := by
  refine h.of_changed hmono ?_ hhealth
  simp [PolicyDimension.upload, PolicyDimension.download, bound, value, routeBudgets, hupload,
    hdownload]

theorem unset_set {maxConnectionLimit : ℕ} {debug : Text → String} {setting : Setting}
    (hset : policy.set maxConnectionLimit debug setting = .ok changed) (h : policy.Unset) :
    changed.Unset := by
  cases setting with
  | headerTimeout _ | requestBodyHardCap _ | shutdownTimeout _ | connectionLimit _
  | profilingResponseLimit _ | healthRoute _ =>
    obtain ⟨value, -, hok⟩ := Except.bind_ok_iff.mp hset
    obtain rfl := Except.ok.inj hok
    exact h.of_same_transfer (Finset.subset_insert _ _) rfl rfl (by simp)
  | unboundedProfilingResponse =>
    obtain rfl := Except.ok.inj hset
    exact h.of_same_transfer (Finset.subset_insert _ _) rfl rfl fun _ => rfl
  | requestBudget _ =>
    obtain rfl := Except.ok.inj hset
    exact h.of_same_transfer Finset.subset_union_left rfl rfl fun _ => rfl
  | uploadBudget _ | downloadBudget _ =>
    obtain rfl := Except.ok.inj hset
    refine h.of_changed Finset.subset_union_left ?_ fun _ => rfl
    simp [PolicyDimension.upload, PolicyDimension.download, bound, value, routeBudgets]

theorem pos_of_finiteDuration {n value : ℕ} {name : String}
    (h : finiteDuration n name = .ok value) : 0 < value ∧ value ≤ maxPolicyDeadline := by
  unfold finiteDuration at h
  split_ifs at h
  cases h
  omega

theorem pos_of_positiveLimit {n value : ℕ} {name : String} (h : positiveLimit n name = .ok value) :
    0 < value := by
  unfold positiveLimit at h
  split_ifs at h
  cases h
  omega

structure Valid (maxConnectionLimit : ℕ) (policy : ServerPolicy) : Prop extends Unset policy where
  headerTimeout : 0 < policy.headerTimeout ∧ policy.headerTimeout ≤ maxPolicyDeadline
  shutdownTimeout : 0 < policy.shutdownTimeout ∧ policy.shutdownTimeout ≤ maxPolicyDeadline
  requestBodyHardCap : 0 < policy.requestBodyHardCap
  profilingResponse : ∀ limit ∈ policy.profilingResponse, 0 < limit
  connectionLimit : ∀ limit ∈ policy.connectionLimit, 0 < limit ∧ limit ≤ maxConnectionLimit
  healthPath : ∀ path, policy.healthRoute = .path path → pathDefect path = none

theorem Valid.set {maxConnectionLimit : ℕ} {debug : Text → String} {setting : Setting}
    (h : policy.Valid maxConnectionLimit)
    (hset : policy.set maxConnectionLimit debug setting = .ok changed) :
    changed.Valid maxConnectionLimit := by
  have hunset := unset_set hset h.toUnset
  cases setting with
  | headerTimeout _ =>
    obtain ⟨value, hvalue, ⟨⟩⟩ := Except.bind_ok_iff.mp hset
    exact { hunset, h with headerTimeout := pos_of_finiteDuration hvalue }
  | shutdownTimeout _ =>
    obtain ⟨value, hvalue, ⟨⟩⟩ := Except.bind_ok_iff.mp hset
    exact { hunset, h with shutdownTimeout := pos_of_finiteDuration hvalue }
  | requestBodyHardCap _ =>
    obtain ⟨value, hvalue, ⟨⟩⟩ := Except.bind_ok_iff.mp hset
    exact { hunset, h with requestBodyHardCap := pos_of_positiveLimit hvalue }
  | profilingResponseLimit _ =>
    obtain ⟨value, hvalue, ⟨⟩⟩ := Except.bind_ok_iff.mp hset
    exact { hunset, h with profilingResponse := by simpa using pos_of_positiveLimit hvalue }
  | connectionLimit _ =>
    obtain ⟨value, hvalue, ⟨⟩⟩ := Except.bind_ok_iff.mp hset
    obtain ⟨limit, hlimit, hwithin⟩ := Except.bind_ok_iff.mp hvalue
    split_ifs at hwithin with hceiling
    cases hwithin
    have hpos := pos_of_positiveLimit hlimit
    exact { hunset, h with connectionLimit := by simpa using ⟨hpos, not_lt.mp hceiling⟩ }
  | healthRoute route =>
    obtain ⟨value, hvalue, ⟨⟩⟩ := Except.bind_ok_iff.mp hset
    refine { hunset, h with healthPath := fun path hpath => ?_ }
    obtain rfl : value = .path path := hpath
    cases route with
    | default | disabled => cases hvalue
    | path named =>
      unfold HealthRoute.validated at hvalue
      cases hdefect : pathDefect named with
      | some defect => simp [hdefect] at hvalue
      | none =>
        simp only [hdefect, Except.ok.injEq, HealthRoute.path.injEq] at hvalue
        rwa [← hvalue]
  | unboundedProfilingResponse =>
    obtain rfl := Except.ok.inj hset
    exact { hunset, h with profilingResponse := by simp }
  | requestBudget _ | uploadBudget _ | downloadBudget _ =>
    obtain rfl := Except.ok.inj hset
    exact { hunset, h with }

/-- However its setters are chained, a policy that every one of them accepted has positive bounded
timeouts and positive limits, serves its health report at an accepted path, and leaves each transfer
bound it did not set unbounded. -/
theorem configured_valid {maxConnectionLimit : ℕ} {debug : Text → String} {settings : List Setting}
    (hset : settings.foldlM (ServerPolicy.set maxConnectionLimit debug) default = .ok policy) :
    policy.Valid maxConnectionLimit := by
  have hrun : ∀ {start : ServerPolicy} {settings : List Setting}, start.Valid maxConnectionLimit →
      settings.foldlM (ServerPolicy.set maxConnectionLimit debug) start = .ok policy →
      policy.Valid maxConnectionLimit := by
    intro start settings h hset
    induction settings generalizing start with
    | nil =>
      obtain rfl := Except.ok.inj hset
      exact h
    | cons setting rest ih =>
      obtain ⟨next, hnext, hrest⟩ := Except.bind_ok_iff.mp hset
      exact ih (h.set hnext) hrest
  refine hrun { unset_ofTimeouts _ _ with
    headerTimeout := by decide, shutdownTimeout := by decide, requestBodyHardCap := by decide
    profilingResponse := by decide, connectionLimit := nofun, healthPath := nofun } hset

theorem configured_valid_two_setters :
    ∃ policy : ServerPolicy, policy.shutdownTimeout = 5 ∧ policy.connectionLimit = some 2 ∧
      policy.Valid 100 := by
  obtain ⟨policy, hset, hpolicy⟩ : ∃ policy : ServerPolicy,
      [Setting.shutdownTimeout 5, .connectionLimit 2].foldlM
        (ServerPolicy.set 100 fun _ => "") default = .ok policy ∧
      policy.shutdownTimeout = 5 ∧ policy.connectionLimit = some 2 := ⟨_, rfl, rfl, rfl⟩
  exact ⟨policy, hpolicy.1, hpolicy.2, configured_valid hset⟩

end ServerPolicy

abbrev ConfiguredServer := { policy : ServerPolicy // policy.Unset }

def defaultMaxBody : ℕ := 8 * 1024 * 1024

inductive ConfiguredCeiling where
  | unset
  | set (bytes : ℕ)

namespace ConfiguredCeiling

def configuredValue : ConfiguredCeiling → Option ℕ
  | unset => none
  | set bytes => some bytes

def located (ceiling : ConfiguredCeiling) (layer : PolicyLayer) : Layered ℕ :=
  Layered.at_ (ceiling.configuredValue.getD defaultMaxBody) layer ceiling.configuredValue.isSome

def inside (ceiling : ConfiguredCeiling) (outer : Option ConfiguredCeiling) : Layered ℕ :=
  match ceiling, outer with
  | .unset, some outer => outer.located .host
  | .set bytes, some outer =>
    ((set bytes).located .router).containedBy (outer.located .host)
      PolicyDimension.requestBodyLimit.containment min
  | ceiling, none => ceiling.located .router

def resolved (ceiling : ConfiguredCeiling) (outer : Option ConfiguredCeiling)
    (cap : PolicyBound ℕ) : PolicyBound ℕ :=
  (ceiling.inside outer).bound.narrowedBy cap

end ConfiguredCeiling

end Camber.Policy
