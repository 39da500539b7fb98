import Camber.Client.Redirect
import Camber.Lib.Transition

/-! One outbound call: every turn sends the current request once and reads what came of it. -/

namespace Camber.Client

open Str

/-- The settings of an operation its decisions read. -/
structure OperationPolicy where
  retries : ℕ
  permission : RetryPolicy
  redirect : RedirectPolicy

structure ResponseHead where
  status : ℕ
  headers : HeaderMap

inductive Attempt where
  | head (response : ResponseHead)
  | failed (failure : ClientError)
  | ended (sent : Bool)

structure Turn where
  attempt : Attempt
  waits : Bool
  dials : Bool

inductive Ended where
  | final (response : ResponseHead)
  | client (error : ClientError)
  | lifetime
  | dial

structure Operation where
  initial : Url
  description : Description
  policy : OperationPolicy
  retriesSent : ℕ
  redirectsFollowed : ℕ

/-- What the operation does with one response head. -/
inductive Answered where
  | final
  | retry (ordinal : ℕ)
  | redirect (decision : Except ClientRedirect Hop)

def Description.follow (d : Description) (destination : Destination) (carried : Carried) :
    Description :=
  let d := if destination.newOrigin then d.stripCredentials else d
  let d := d.retarget destination.url
  match carried with
  | .whole => d
  | .bodiless method => d.becomeBodiless method

namespace Operation

variable (parse : UrlParser)

def retryMax : ℕ := 2 ^ 32 - 1

def new (description : Description) (policy : OperationPolicy) : Operation :=
  ⟨description.url, description, policy, 0, 0⟩

def nextRetry (op : Operation) : Option ℕ :=
  if op.retriesSent + 1 ≤ retryMax then
    (some (op.retriesSent + 1)).filter fun retry =>
      retry ≤ op.policy.retries && (clientSendTotal retry op.redirectsFollowed).isSome
  else none

def hop (op : Operation) (status : ℕ) (location : Bytes) : Except ClientRedirect Hop := do
  let destination ←
    redirectDestination parse op.policy.redirect op.initial op.description.url location
  let carried ← redirectCarried status op.description.method op.policy.permission
  match (nextRedirect op.policy.redirect op.redirectsFollowed).filter fun hop =>
      (clientSendTotal op.retriesSent hop).isSome with
  | some ordinal => .ok { destination, carried, ordinal }
  | none => .error .hopLimit

def redirect (op : Operation) (response : ResponseHead) : Option (Except ClientRedirect Hop) :=
  (redirectLocation op.policy.redirect response.status response.headers).map fun location =>
    location.bind (op.hop parse response.status)

def answered (op : Operation) (response : ResponseHead) : Answered :=
  match op.redirect parse response, op.nextRetry with
  | some decision, _ => .redirect decision
  | none, some retry =>
    if clientRetryableStatus response.status op.description.method op.policy.permission then
      .retry retry
    else .final
  | none, none => .final

def waitToRetry (op : Operation) (waits : Bool) (retry : ℕ) : Except Ended Operation :=
  if waits then .ok { op with retriesSent := retry } else .error .lifetime

def retryFailure (op : Operation) (waits : Bool) (failure : ClientError) :
    Except Ended Operation :=
  match op.nextRetry with
  | some retry =>
    if clientRetryableFailure failure op.description.method op.policy.permission then
      op.waitToRetry waits retry
    else .error (.client failure)
  | none => .error (.client failure)

def follow (op : Operation) (dials : Bool) (decision : Except ClientRedirect Hop) :
    Except Ended Operation :=
  match decision with
  | .error refusal => .error (.client (.redirect refusal))
  | .ok hop =>
    if hop.destination.newOrigin && !dials then .error .dial
    else
      .ok { op with
        description := op.description.follow hop.destination hop.carried
        redirectsFollowed := hop.ordinal }

def step (op : Operation) (turn : Turn) : Except Ended Operation :=
  match turn.attempt with
  | .ended _ => .error .lifetime
  | .failed failure => op.retryFailure turn.waits failure
  | .head response =>
    match op.answered parse response with
    | .final => .error (.final response)
    | .retry retry => op.waitToRetry turn.waits retry
    | .redirect decision => op.follow turn.dials decision

def sent (op : Operation) (turn : Turn) : List Send :=
  match turn.attempt with
  | .ended false => []
  | _ => [op.description.send]

def run (op : Operation) : List Turn → List Send × Option Ended
  | [] => ([], none)
  | turn :: rest =>
    match op.step parse turn with
    | .error ended => (op.sent turn, some ended)
    | .ok next =>
      let later := run next rest
      (op.sent turn ++ later.1, later.2)

end Operation

inductive Advance (policy : RedirectPolicy) (initial : Url) : Description → Description → Prop
  | again (d : Description) : Advance policy initial d d
  | hop (d : Description) (destination : Destination) (carried : Carried)
      (hadmits : policy.admits initial d.url destination.url = .ok ())
      (horigin : destination.newOrigin = !sameOrigin d.url destination.url) :
      Advance policy initial d (d.follow destination carried)

def RedirectPolicy.maxHops : RedirectPolicy → ℕ
  | .none => 0
  | .sameOrigin maxHops | .crossOrigin ⟨maxHops, _⟩ => maxHops

def Attempt.transient : Attempt → Bool
  | .head response => isTransientStatus response.status
  | .failed failure => isTransientFailure failure
  | .ended _ => false

inductive Spends (op : Operation) (turn : Turn) : Operation → Prop
  | retry (hleft : op.retriesSent + 1 ≤ op.policy.retries)
      (hpermits : permitsReplay op.policy.permission op.description.method = true)
      (htransient : turn.attempt.transient = true) :
      Spends op turn { op with retriesSent := op.retriesSent + 1 }
  | hop (destination : Destination) (carried : Carried)
      (hleft : op.redirectsFollowed + 1 ≤ op.policy.redirect.maxHops)
      (hadmits : op.policy.redirect.admits op.initial op.description.url destination.url = .ok ())
      (horigin : destination.newOrigin = !sameOrigin op.description.url destination.url)
      (hwhole : carried = .whole →
        clientResendable op.description.method op.policy.permission = true) :
      Spends op turn { op with
        description := op.description.follow destination carried
        redirectsFollowed := op.redirectsFollowed + 1 }

theorem nextRedirect_eq_some {policy : RedirectPolicy} {followed ordinal : ℕ}
    (h : nextRedirect policy followed = some ordinal) :
    ordinal = followed + 1 ∧ ordinal ≤ policy.maxHops := by
  cases policy with
  | none => cases h
  | sameOrigin maxHops | crossOrigin allowance =>
    obtain ⟨hsum, hle⟩ := Option.filter_eq_some_iff.mp h
    exact ⟨(Usize.checkedAdd_eq_some.mp hsum).2.symm, of_decide_eq_true hle⟩

theorem redirectCarried_whole {status : ℕ} {method : Text} {permission : RetryPolicy}
    (h : redirectCarried status method permission = .ok .whole) :
    clientResendable method permission = true := by
  unfold redirectCarried at h
  split at h
  · split at h <;> cases h
  · split at h
    · split at h
      next hsafe => rcases hsafe with rfl | rfl <;> cases permission <;> rfl
      next => cases h
    · split at h
      next hresendable => exact hresendable
      next => cases h

theorem Spends.advance {op next : Operation} {turn : Turn} (h : Spends op turn next) :
    next.initial = op.initial ∧ next.policy = op.policy ∧
      Advance op.policy.redirect op.initial op.description next.description := by
  cases h with
  | retry => exact ⟨rfl, rfl, .again _⟩
  | hop destination carried _ hadmits horigin => exact ⟨rfl, rfl, .hop _ _ _ hadmits horigin⟩

namespace Operation

variable {parse : UrlParser} {op next : Operation} {turn : Turn}

theorem nextRetry_eq_some {retry : ℕ} (h : op.nextRetry = some retry) :
    retry = op.retriesSent + 1 ∧ retry ≤ op.policy.retries := by
  unfold nextRetry at h
  split_ifs at h
  obtain ⟨hretry, htest⟩ := Option.filter_eq_some_iff.mp h
  exact ⟨(Option.some.inj hretry).symm, of_decide_eq_true (Bool.and_eq_true_iff.mp htest).1⟩

theorem waitToRetry_spends {waits : Bool} {retry : ℕ} (h : op.waitToRetry waits retry = .ok next)
    (hretry : op.nextRetry = some retry)
    (hpermits : permitsReplay op.policy.permission op.description.method = true)
    (htransient : turn.attempt.transient = true) : Spends op turn next := by
  obtain ⟨rfl, hleft⟩ := nextRetry_eq_some hretry
  unfold waitToRetry at h
  split_ifs at h
  cases h
  exact .retry hleft hpermits htransient

theorem follow_spends {dials : Bool} {decision : Except ClientRedirect Hop} {status : ℕ}
    {value : Bytes} (hhop : op.hop parse status value = decision)
    (h : op.follow dials decision = .ok next) : Spends op turn next := by
  cases decision with
  | error refusal => cases h
  | ok hop =>
    obtain ⟨destination, hdestination, hhop⟩ := Except.bind_ok_iff.mp hhop
    obtain ⟨carried, hcarried, hhop⟩ := Except.bind_ok_iff.mp hhop
    split at hhop
    next ordinal hordinal =>
      cases hhop
      obtain ⟨rfl, hleft⟩ := nextRedirect_eq_some (Option.filter_eq_some_iff.mp hordinal).1
      obtain ⟨hadmits, horigin⟩ := redirectDestination_eq_ok hdestination
      simp only [follow] at h
      split_ifs at h
      cases h
      refine .hop destination carried hleft hadmits horigin ?_
      rintro rfl
      exact redirectCarried_whole hcarried
    · cases hhop

theorem answered_spends {response : ResponseHead} (hattempt : turn.attempt = .head response)
    (h : op.step parse turn = .ok next) : Spends op turn next := by
  simp only [step, hattempt] at h
  cases hredirect : op.redirect parse response with
  | some decision =>
    simp only [answered, hredirect] at h
    obtain ⟨located, _, rfl⟩ := Option.map_eq_some_iff.mp hredirect
    cases located with
    | error refusal => cases h
    | ok value => exact follow_spends rfl h
  | none =>
    cases hretry : op.nextRetry with
    | none =>
      simp only [answered, hredirect, hretry] at h
      cases h
    | some retry =>
      simp only [answered, hredirect, hretry] at h
      by_cases hstatus : clientRetryableStatus response.status op.description.method
          op.policy.permission = true
      · simp only [hstatus, if_true] at h
        obtain ⟨hpermits, htransient⟩ := Bool.and_eq_true_iff.mp hstatus
        exact waitToRetry_spends h hretry hpermits (by rw [hattempt]; exact htransient)
      · simp only [hstatus] at h
        cases h

theorem step_spends (h : op.step parse turn = .ok next) : Spends op turn next := by
  cases hattempt : turn.attempt with
  | head response => exact answered_spends hattempt h
  | ended sent =>
    simp only [step, hattempt] at h
    cases h
  | failed failure =>
    simp only [step, hattempt, retryFailure] at h
    split at h
    next retry hretry =>
      split_ifs at h with hfailure
      obtain ⟨hpermits, htransient⟩ := Bool.and_eq_true_iff.mp hfailure
      exact waitToRetry_spends h hretry hpermits (by rw [hattempt]; exact htransient)
    · cases h

def sends (parse : UrlParser) (op : Operation) : List Turn → List (Operation × Turn)
  | [] => []
  | turn :: rest =>
    match op.step parse turn with
    | .error _ => (op.sent turn).map fun _ => (op, turn)
    | .ok next => (op, turn) :: sends parse next rest

theorem sent_of_ok (h : op.step parse turn = .ok next) : op.sent turn = [op.description.send] := by
  rw [sent]
  split
  · rename_i hended
    rw [step, hended] at h
    cases h
  · rfl

theorem sent_eq (op : Operation) (turn : Turn) :
    op.sent turn = [] ∨ op.sent turn = [op.description.send] := by
  rw [sent]
  split
  · exact .inl rfl
  · exact .inr rfl

theorem run_eq_sends (parse : UrlParser) (op : Operation) (turns : List Turn) :
    (op.run parse turns).1 = (op.sends parse turns).map fun s => s.1.description.send := by
  induction turns generalizing op with
  | nil => rfl
  | cons turn rest ih =>
    rw [run, sends]
    cases hstep : op.step parse turn with
    | error ended =>
      rcases op.sent_eq turn with hsent | hsent
      · simp [hsent]
      · simp [hsent]
    | ok next =>
      simp only [sent_of_ok hstep, ih next, List.map_cons]
      rfl

theorem sends_head {s : Operation × Turn} {turns : List Turn}
    (h : s ∈ (op.sends parse turns).head?) : s.1 = op := by
  cases turns with
  | nil => cases h
  | cons turn rest =>
    rw [sends] at h
    split at h
    · rcases op.sent_eq turn with hsent | hsent
      · simp [hsent] at h
      · simp only [hsent, List.map_cons, List.head?_cons, Option.mem_some_iff] at h
        rw [← h]
    · simp only [List.head?_cons, Option.mem_some_iff] at h
      rw [← h]

theorem sends_chain (parse : UrlParser) (op : Operation) (turns : List Turn) :
    (op.sends parse turns).IsChain fun s next => Spends s.1 s.2 next.1 := by
  induction turns generalizing op with
  | nil => exact .nil
  | cons turn rest ih =>
    rw [sends]
    cases hstep : op.step parse turn with
    | error ended =>
      rcases op.sent_eq turn with hsent | hsent
      · simp [hsent]
      · simp [hsent]
    | ok next =>
      refine List.isChain_cons.mpr ⟨fun s hs => ?_, ih next⟩
      rw [sends_head hs]
      exact step_spends hstep

theorem sends_last {turns : List Turn} {i : ℕ} (h : (op.sends parse turns)[i]? = some (next, turn))
    {ended : Ended} (hended : next.step parse turn = .error ended) :
    i + 1 = (op.sends parse turns).length := by
  induction turns generalizing op i with
  | nil => simp [sends] at h
  | cons first rest ih =>
    rw [sends] at h ⊢
    cases hstep : op.step parse first with
    | error _ =>
      rcases op.sent_eq first with hsent | hsent
      · simp [hstep, hsent] at h
      · have hlt := (List.getElem?_eq_some_iff.mp h).1
        simp only [hstep, hsent, List.map_cons, List.map_nil, List.length_singleton] at hlt ⊢
        omega
    | ok after =>
      simp only [hstep] at h ⊢
      cases i with
      | zero =>
        cases h
        rw [hstep] at hended
        cases hended
      | succ i => rw [List.length_cons, ← ih h]

structure Within (policy : OperationPolicy) (i : ℕ) (op : Operation) : Prop where
  policy_eq : op.policy = policy
  counted : op.retriesSent + op.redirectsFollowed = i
  retries : op.retriesSent ≤ policy.retries
  hops : op.redirectsFollowed ≤ policy.redirect.maxHops

theorem Within.spends {policy : OperationPolicy} {i : ℕ} (h : Within policy i op)
    (hspends : Spends op turn next) : Within policy (i + 1) next := by
  have hcounted := h.counted
  cases hspends with
  | retry hleft =>
    rw [h.policy_eq] at hleft
    exact ⟨h.policy_eq, by simp only; omega, hleft, h.hops⟩
  | hop destination carried hleft =>
    rw [h.policy_eq] at hleft
    exact ⟨h.policy_eq, by simp only; omega, h.retries, hleft⟩

theorem sends_within (parse : UrlParser) (description : Description) (policy : OperationPolicy)
    (turns : List Turn) {i : ℕ} {s : Operation × Turn}
    (h : ((new description policy).sends parse turns)[i]? = some s) : Within policy i s.1 := by
  induction i generalizing s with
  | zero =>
    have hhead : s ∈ ((new description policy).sends parse turns).head? := by
      rw [List.head?_eq_getElem?, h]
      rfl
    rw [sends_head hhead]
    exact ⟨rfl, rfl, Nat.zero_le _, Nat.zero_le _⟩
  | succ i ih =>
    have hlt := (List.getElem?_eq_some_iff.mp h).1
    have hprev := List.getElem?_eq_getElem (Nat.lt_of_succ_lt hlt)
    exact (ih hprev).spends (Trace.rel_of_getElem? (sends_chain parse _ turns) hprev h)

/-- The sends of a call are bounded by its retries and hops. Every send after the first spends one
retry or one hop, and none follows a final head. -/
theorem sends_accounted (parse : UrlParser) (description : Description) (policy : OperationPolicy)
    (turns : List Turn) :
    let sends := (new description policy).sends parse turns
    ((new description policy).run parse turns).1 =
        sends.map (fun s => s.1.description.send) ∧
      sends.length ≤ 1 + policy.retries + policy.redirect.maxHops ∧
      sends.IsChain (fun s next => Spends s.1 s.2 next.1) ∧
      (∀ i (s : Operation × Turn), sends[i]? = some s → s.1.retriesSent + s.1.redirectsFollowed = i) ∧
      ∀ i op turn response, sends[i]? = some (op, turn) → turn.attempt = .head response →
        op.answered parse response = .final → i + 1 = sends.length := by
  intro sends
  refine ⟨run_eq_sends parse _ turns, ?_, sends_chain parse _ turns, ?_, ?_⟩
  · by_contra hmany
    -- the last of too many sends would have spent more than there is
    have hlast : sends[sends.length - 1]? = some sends[sends.length - 1] :=
      List.getElem?_eq_getElem (by omega)
    have hwithin := sends_within parse description policy turns hlast
    have hcounted := hwithin.counted
    have hretries := hwithin.retries
    have hhops := hwithin.hops
    omega
  · intro i s hs
    exact (sends_within parse description policy turns hs).counted
  · intro i op turn response hs hattempt hfinal
    apply sends_last hs
    simp only [step, hattempt, hfinal]
    rfl

theorem run_sends (parse : UrlParser) (op : Operation) (turns : List Turn) :
    ∃ requests : List Description,
      (op.run parse turns).1 = requests.map Description.send ∧
      requests.IsChain (Advance op.policy.redirect op.initial) ∧
      ∀ d ∈ requests.head?, d = op.description := by
  induction turns generalizing op with
  | nil => exact ⟨[], rfl, .nil, by simp⟩
  | cons turn rest ih =>
    rw [run]
    cases hstep : op.step parse turn with
    | error ended =>
      rcases op.sent_eq turn with hsent | hsent
      · exact ⟨[], hsent, .nil, by simp⟩
      · exact ⟨[op.description], hsent, .singleton _, by simp⟩
    | ok next =>
      obtain ⟨hinitial, hpolicy, hadvance⟩ := (step_spends hstep).advance
      obtain ⟨requests, hsends, hchain, hhead⟩ := ih next
      rw [hinitial, hpolicy] at hchain
      refine ⟨op.description :: requests, ?_, ?_, by simp⟩
      · simp only [sent_of_ok hstep, hsends]
        rfl
      · refine List.isChain_cons.mpr ⟨?_, hchain⟩
        intro d hd
        rw [hhead d hd]
        exact hadvance

end Operation

end Camber.Client
