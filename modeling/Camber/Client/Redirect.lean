import Camber.Client.Request

/-! Which answers ask for a redirect, where a `Location` leads, and which outcomes earn another
send. -/

namespace Camber.Client

open Str

inductive ClientRedirect where
  | invalidLocation
  | originChanged
  | downgrade
  | hopLimit
  | unsafeMethod
deriving DecidableEq

inductive ClientTimeout where
  | operation
  | attempt
  | transport
  | responseIdle
deriving DecidableEq

inductive ClientError where
  | configuration
  | invalidRequest
  | encode
  | dns
  | connect
  | tls
  | transport
  | timeout (deadline : ClientTimeout)
  | redirect (refusal : ClientRedirect)
  | status
  | decode
  | responseTooLarge
  | egress
deriving DecidableEq

inductive RetryPolicy where
  | never
  | idempotent
  | replayable

def isIdempotentMethod (method : Text) : Bool :=
  ["GET".toList, "HEAD".toList, "OPTIONS".toList, "PUT".toList, "DELETE".toList].contains method

def permitsReplay (policy : RetryPolicy) (method : Text) : Bool :=
  match policy with
  | .never => false
  | .idempotent => isIdempotentMethod method
  | .replayable => true

/-- A redirect the peer asked for is not a retry, so `never` does not withhold it. -/
def clientResendable (method : Text) (policy : RetryPolicy) : Bool :=
  match policy with
  | .never | .idempotent => isIdempotentMethod method
  | .replayable => true

def isTransientStatus (status : ℕ) : Bool := status = 429 || (502 ≤ status && status ≤ 504)

def isTransientFailure : ClientError → Bool
  | .connect | .transport | .timeout .transport | .timeout .attempt => true
  | .configuration | .invalidRequest | .encode | .dns | .tls | .timeout .operation
  | .timeout .responseIdle | .redirect _ | .status | .decode | .responseTooLarge | .egress => false

def clientRetryableStatus (status : ℕ) (method : Text) (policy : RetryPolicy) : Bool :=
  permitsReplay policy method && isTransientStatus status

def clientRetryableFailure (category : ClientError) (method : Text) (policy : RetryPolicy) : Bool :=
  permitsReplay policy method && isTransientFailure category

inductive Destinations where
  | listed (origins : List Url)
  | anyHttps

def Destinations.covers : Destinations → Url → Bool
  | listed origins, resolved => origins.any fun origin => sameOrigin origin resolved
  | anyHttps, resolved => resolved.scheme = https

structure CrossOriginRedirects where
  maxHops : ℕ+
  destinations : Destinations

/-- Which redirect answers a request follows. -/
inductive RedirectPolicy where
  | none
  | sameOrigin (maxHops : ℕ+)
  | crossOrigin (allowance : CrossOriginRedirects)

def CrossOriginRedirects.admits (allowance : CrossOriginRedirects) (returns : Bool)
    (current resolved : Url) : Except ClientRedirect Unit :=
  let downgrade : Bool := current.scheme = https && resolved.scheme = http
  let permitted : Bool := returns || allowance.destinations.covers resolved
  match downgrade, permitted with
  | true, _ => .error .downgrade
  | false, true => .ok ()
  | false, false => .error .originChanged

def RedirectPolicy.admits (policy : RedirectPolicy) (initial current resolved : Url) :
    Except ClientRedirect Unit :=
  match policy, Client.sameOrigin initial resolved with
  | .crossOrigin allowance, returns => allowance.admits returns current resolved
  | .none, true | .sameOrigin _, true => .ok ()
  | .none, false | .sameOrigin _, false => .error .originChanged

inductive Carried where
  | whole
  | bodiless (method : Text)
deriving DecidableEq

/-- One admitted destination, and whether it changes origin. -/
structure Destination where
  url : Target
  newOrigin : Bool

structure Hop where
  destination : Destination
  carried : Carried
  ordinal : ℕ

def isRedirectStatus (status : ℕ) : Bool :=
  (301 ≤ status && status ≤ 303) || status = 307 || status = 308

def redirectLocation (policy : RedirectPolicy) (status : ℕ) (headers : HeaderMap) :
    Option (Except ClientRedirect Bytes) :=
  match policy, isRedirectStatus status, headers.getAll location with
  | .sameOrigin _, true, [only] | .crossOrigin _, true, [only] => some (.ok only.value)
  | .sameOrigin _, true, _ :: _ :: _ | .crossOrigin _, true, _ :: _ :: _ =>
    some (.error .invalidLocation)
  | _, _, _ => none

def redirectDestination (parse : UrlParser) (policy : RedirectPolicy) (initial current : Url)
    (location : Bytes) : Except ClientRedirect Destination :=
  match (decode location).bind fun text => parsedUrl parse text (some current) with
  | none => .error .invalidLocation
  | some resolved => do
    policy.admits initial current resolved
    let newOrigin := !sameOrigin current resolved
    match sendable resolved with
    | some url => .ok { url, newOrigin }
    | none => .error .invalidLocation

def redirectCarried (status : ℕ) (method : Text) (permission : RetryPolicy) :
    Except ClientRedirect Carried :=
  if status = 303 then
    if method = "HEAD".toList then .ok (.bodiless "HEAD".toList)
    else .ok (.bodiless "GET".toList)
  else if status = 301 ∨ status = 302 then
    if method = "GET".toList ∨ method = "HEAD".toList then .ok .whole else .error .unsafeMethod
  else if clientResendable method permission then .ok .whole
  else .error .unsafeMethod

def nextRedirect (policy : RedirectPolicy) (followed : ℕ) : Option ℕ :=
  match policy with
  | .none => none
  | .sameOrigin maxHops | .crossOrigin ⟨maxHops, _⟩ =>
    (Usize.checkedAdd followed 1).filter (· ≤ maxHops)

def clientSendTotal (retriesSent redirectsFollowed : ℕ) : Option ℕ :=
  (Usize.checkedAdd retriesSent redirectsFollowed).bind (Usize.checkedAdd · 1)

inductive RedirectPolicy.AdmitsOrigin : RedirectPolicy → Url → Prop
  | listed {url : Url} (maxHops : ℕ+) (origins : List Url) (origin : Url)
      (hmem : origin ∈ origins) (hsame : Client.sameOrigin origin url) :
      AdmitsOrigin (.crossOrigin ⟨maxHops, .listed origins⟩) url
  | anyHttps {url : Url} (maxHops : ℕ+) (hscheme : url.scheme = https) :
      AdmitsOrigin (.crossOrigin ⟨maxHops, .anyHttps⟩) url

variable {current resolved initial : Url} {policy : RedirectPolicy}

theorem CrossOriginRedirects.admits_eq_ok {allowance : CrossOriginRedirects} {returns : Bool}
    (h : allowance.admits returns current resolved = .ok ()) :
    ¬ (current.scheme = https ∧ resolved.scheme = http) ∧
      (returns ∨ allowance.destinations.covers resolved) := by
  simp only [CrossOriginRedirects.admits] at h
  split at h
  · cases h
  · rename_i hdowngrade hpermitted
    exact ⟨by simpa using hdowngrade, by simpa using hpermitted⟩
  · cases h

theorem RedirectPolicy.admits_origin (h : policy.admits initial current resolved = .ok ()) :
    Client.sameOrigin initial resolved ∨ policy.AdmitsOrigin resolved := by
  cases hsame : Client.sameOrigin initial resolved with
  | true => exact .inl rfl
  | false =>
    right
    cases policy with
    | none => simp [RedirectPolicy.admits, hsame] at h
    | sameOrigin maxHops => simp [RedirectPolicy.admits, hsame] at h
    | crossOrigin allowance =>
      obtain ⟨maxHops, destinations⟩ := allowance
      simp only [RedirectPolicy.admits, hsame] at h
      have hnamed := (CrossOriginRedirects.admits_eq_ok h).2.resolve_left (by simp)
      cases destinations with
      | listed origins =>
        obtain ⟨origin, hmem, horigin⟩ := List.any_eq_true.mp hnamed
        exact .listed maxHops origins origin hmem horigin
      | anyHttps => exact .anyHttps maxHops (by simpa [Destinations.covers] using hnamed)

theorem RedirectPolicy.admits_scheme
    (hcurrent : Client.sameOrigin initial current ∨ policy.AdmitsOrigin current)
    (h : policy.admits initial current resolved = .ok ()) (hs : current.scheme = https) :
    resolved.scheme ≠ http := by
  have hstay : (∀ allowance, policy ≠ .crossOrigin allowance) → resolved.scheme = https := by
    intro hpolicy
    have hnot : ∀ url, ¬ policy.AdmitsOrigin url := by
      rintro url ⟨⟩
      · exact hpolicy _ rfl
      · exact hpolicy _ rfl
    have hfrom := sameOrigin_iff.mp (hcurrent.resolve_right (hnot current))
    have hto := sameOrigin_iff.mp ((admits_origin h).resolve_right (hnot resolved))
    rw [← hto.2.2.1, hfrom.2.2.1, hs]
  have hne : https ≠ http := by decide
  cases policy with
  | none => exact fun hh => hne ((hstay (by simp)).symm.trans hh)
  | sameOrigin maxHops => exact fun hh => hne ((hstay (by simp)).symm.trans hh)
  | crossOrigin allowance =>
    intro hh
    exact (CrossOriginRedirects.admits_eq_ok h).1 ⟨hs, hh⟩

theorem RedirectPolicy.admits_fragment (policy : RedirectPolicy) (initial current resolved : Url) :
    policy.admits initial current { resolved with fragment := Option.none } =
      policy.admits initial current resolved := by
  have hsame : ∀ origin, Client.sameOrigin origin { resolved with fragment := Option.none } =
      Client.sameOrigin origin resolved := fun _ => rfl
  cases policy with
  | none | sameOrigin maxHops =>
    simp only [RedirectPolicy.admits, hsame]
    cases Client.sameOrigin initial resolved <;> rfl
  | crossOrigin allowance =>
    obtain ⟨maxHops, destinations⟩ := allowance
    cases destinations <;>
      simp only [RedirectPolicy.admits, CrossOriginRedirects.admits, Destinations.covers, hsame]

theorem redirectDestination_eq_ok {parse : UrlParser} {value : Bytes} {destination : Destination}
    (h : redirectDestination parse policy initial current value = .ok destination) :
    policy.admits initial current destination.url = .ok () ∧
      destination.newOrigin = !sameOrigin current destination.url := by
  rw [redirectDestination] at h
  split at h
  · cases h
  · rename_i resolved _
    obtain ⟨_, hadmits, h⟩ := Except.bind_ok_iff.mp h
    simp only at h
    split at h
    · rename_i url hurl
      cases h
      have hfragment := sendable_eq_some hurl
      refine ⟨?_, ?_⟩
      · rw [hfragment, RedirectPolicy.admits_fragment]
        exact hadmits
      · rw [hfragment]
        rfl
    · cases h

end Camber.Client
