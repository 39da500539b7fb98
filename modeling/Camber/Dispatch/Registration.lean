import Camber.Policy.Server
import Camber.Proxy.Target

/-! Beside its closure a registration may store a policy of its own. -/

namespace Camber.Dispatch
open Str Routing Policy
open Inbound (TransferBudget)

structure ProxyPolicy where
  upload : TransferBudget
  download : TransferBudget
  explicit : DimensionSet

namespace ProxyPolicy

def default : ProxyPolicy := ⟨.unbounded, .unbounded, ∅⟩

def uploadBudget (policy : ProxyPolicy) (budget : TransferBudget) : ProxyPolicy :=
  { policy with
    upload := budget, explicit := policy.explicit ∪ DimensionSet.of PolicyDimension.upload }

def downloadBudget (policy : ProxyPolicy) (budget : TransferBudget) : ProxyPolicy :=
  { policy with
    download := budget, explicit := policy.explicit ∪ DimensionSet.of PolicyDimension.download }

def configuredBudgets (policy : ProxyPolicy) : RouteBudgets :=
  ⟨⟨.unbounded, policy.upload, policy.download⟩, policy.explicit⟩

def bounds (policy : ProxyPolicy) : ProxyPolicy := { policy with explicit := ∅ }

/-- What holds of a policy that the setters built from the default one. -/
structure Configured (policy : ProxyPolicy) : Prop where
  unset : policy.configuredBudgets.Unset
  transfer : ∀ d ∈ PolicyDimension.request, d ∉ policy.explicit

namespace Configured

variable {policy : ProxyPolicy}

theorem default : ProxyPolicy.default.Configured := ⟨RouteBudgets.unset_default, by simp [ProxyPolicy.default]⟩

theorem uploadBudget (h : policy.Configured) (budget : TransferBudget) :
    (policy.uploadBudget budget).Configured where
  unset := RouteBudgets.unset_withUpload h.unset budget
  transfer := by
    have := h.transfer
    simp_all [ProxyPolicy.uploadBudget, PolicyDimension.request, PolicyDimension.upload]

theorem downloadBudget (h : policy.Configured) (budget : TransferBudget) :
    (policy.downloadBudget budget).Configured where
  unset := RouteBudgets.unset_withDownload h.unset budget
  transfer := by
    have := h.transfer
    simp_all [ProxyPolicy.downloadBudget, PolicyDimension.request, PolicyDimension.download]

end Configured

end ProxyPolicy

structure Stored (C : Type) where
  closure : C
  readsBody : Bool
  budget : Option TransferBudget
  healthy : Option ℕ
  upstream : ProxyPolicy
  budgets : RouteBudgets

variable {C : Type}

namespace Stored

def plain (closure : C) : Stored C := ⟨closure, false, none, none, .default, .default⟩

def download (stored : Stored C) : TransferBudget := stored.budget.getD .unbounded

def streamingRegistration (closure : C) (policy : ProxyPolicy) (healthy : Option ℕ) : Stored C :=
  { plain closure with
    healthy, upstream := policy.bounds, budgets := policy.configuredBudgets }

end Stored

abbrev Handler (C : Type) := RouteHandler (Stored C)

def upstreamUnhealthy (flags : ℕ → Bool) (healthy : Option ℕ) : Bool :=
  healthy.any fun flag => !flags flag

def registrationBudgets : Handler C → RouteBudgets
  | .sse registration =>
    match registration.budget with
    | some budget => RouteBudgets.default.withDownload budget
    | none => .default
  | .proxyStream _ _ registration => registration.budgets
  | .async _ | .stream _ | .multipart _ | .webSocket _ | .proxy _ _ _ => .default

def registrationUploadLimit : Handler C → Option ℕ
  | .proxy _ _ registration | .proxyStream _ _ registration => registration.upstream.upload.maxBytes
  | .async _ | .stream _ | .sse _ | .multipart _ | .webSocket _ => none

def registrationCeiling (handler : Handler C) (ceiling : ℕ) : ℕ :=
  match registrationUploadLimit handler with
  | some bytes => min ceiling bytes
  | none => ceiling

/-- `registrationCeiling` with the layers that supplied it, for the report. -/
def registrationBodyBound (handler : Handler C) (ceiling : PolicyBound ℕ) : PolicyBound ℕ :=
  match registrationUploadLimit handler with
  | some bytes => ceiling.narrowedBy ⟨bytes, PolicyLayers.one .route false⟩
  | none => ceiling

def registrationReadsBody : Handler C → Bool
  | .sse registration => registration.readsBody
  | .webSocket _ => false
  | .async _ | .stream _ | .multipart _ | .proxy _ _ _ | .proxyStream _ _ _ => true

def admissionCountsUpload : Handler C → Bool
  | .multipart _ | .proxyStream _ _ _ => true
  | .async _ | .stream _ | .sse _ | .webSocket _ | .proxy _ _ _ => false

theorem registrationBodyBound_value (handler : Handler C) (ceiling : PolicyBound ℕ) :
    (registrationBodyBound handler ceiling).value = registrationCeiling handler ceiling.value := by
  unfold registrationBodyBound registrationCeiling
  cases registrationUploadLimit handler <;> rfl

theorem registrationCeiling_le (handler : Handler C) (ceiling : ℕ) :
    registrationCeiling handler ceiling ≤ ceiling := by
  unfold registrationCeiling
  cases registrationUploadLimit handler with
  | none => exact le_rfl
  | some bytes => exact min_le_left _ _

end Camber.Dispatch
