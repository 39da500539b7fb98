import Camber.Nats.Acknowledgement

/-! The map of waiting senders mirrors the registrations: while replies are routed it names exactly
the publishes that hold a registration no reply was routed to. -/

namespace Camber.Nats

open Str Integration Transition Roster

variable {settings : Settings} {reply : Message} {routes : List Route} {p transport : ℕ}
  {publish : Publish}

theorem of_tokenOf {subject : Text} {token : ℕ} (h : tokenOf settings subject = some token) :
    ∃ digits, subject = settings.inbox ++ '.' :: digits ∧ digits ≠ [] ∧
      digits.all Decimal.isDigit ∧ Decimal.valueOf digits = token := by
  unfold tokenOf at h
  obtain ⟨rest, hrest, h⟩ := Option.bind_eq_some_iff.mp h
  obtain ⟨digits, hdot, h⟩ := Option.bind_eq_some_iff.mp h
  split at h
  · next hdigits =>
    rw [Bool.and_eq_true] at hdigits
    refine ⟨digits, ?_, by simpa using hdigits.1, hdigits.2,
      Decimal.valueOf_of_parseU64 hdigits.2 h⟩
    rw [← eq_of_stripPrefixChar hdot]
    obtain ⟨front, hfront, heq⟩ := List.dropPrefix?_eq_some_iff.mp hrest
    rw [hfront, eq_of_beq heq]
  · cases h

/-- The reply is a receipt for the connection's stream. -/
structure Receipt (settings : Settings) (reply : Message) : Prop where
  status : reply.status = none ∨ reply.status = some statusOk
  bounded : reply.payload.length ≤ maxAckBytes
  decodes : ∃ receipt, settings.decode reply.payload = some (.ok receipt) ∧
    receipt.stream = settings.stream ∧ 0 < receipt.sequence

theorem receipt_of_decoded {payload : Bytes} (h : decoded settings payload = .ok ()) :
    payload.length ≤ maxAckBytes ∧ ∃ receipt, settings.decode payload = some (.ok receipt) ∧
      receipt.stream = settings.stream ∧ 0 < receipt.sequence := by
  unfold decoded at h
  split_ifs at h with hlong
  refine ⟨not_lt.mp hlong, ?_⟩
  split at h
  · next receipt hdecode =>
    split_ifs at h with hnames
    exact ⟨receipt, hdecode, hnames⟩
  · cases h
  · cases h

theorem receipt_of_acknowledgement (h : acknowledgement settings reply = .ok ()) :
    Receipt settings reply := by
  unfold acknowledgement at h
  split at h
  · next hstatus =>
    obtain ⟨hbounded, hdecodes⟩ := receipt_of_decoded h
    exact ⟨.inl hstatus, hbounded, hdecodes⟩
  · next status hstatus =>
    split_ifs at h with hok
    obtain ⟨hbounded, hdecodes⟩ := receipt_of_decoded h
    exact ⟨.inr (hok ▸ hstatus), hbounded, hdecodes⟩

def Answered (routes : List Route) (p : ℕ) : Prop :=
  ∃ (k : ℕ) (route : Route), routes[k]? = some route ∧ route.target = some p

/-- A call of `route` handed the reply to the publish while the SDK was on the connection. -/
def DeliveredOn (routes : List Route) (p transport : ℕ) (reply : Message) : Prop :=
  ∃ (k : ℕ) (route : Route), routes[k]? = some route ∧ route.target = some p ∧
    route.transport = transport ∧ route.reply = reply ∧ route.sent = true

theorem answered_join {route : Route} :
    Answered (routes ++ [route]) p ↔ Answered routes p ∨ route.target = some p := by
  constructor
  · rintro ⟨k, other, hget, htarget⟩
    rcases of_getElem?_join hget with hget | ⟨_, rfl⟩
    · exact .inl ⟨k, other, hget, htarget⟩
    · exact .inr htarget
  · rintro (⟨k, other, hget, htarget⟩ | htarget)
    · exact ⟨k, other, getElem?_join_of_some hget, htarget⟩
    · exact ⟨_, route, getElem?_join_length, htarget⟩

theorem DeliveredOn.join (h : DeliveredOn routes p transport reply) (route : Route) :
    DeliveredOn (routes ++ [route]) p transport reply := by
  obtain ⟨k, other, hget, hrest⟩ := h
  exact ⟨k, other, getElem?_join_of_some hget, hrest⟩

def sentAt (routes : List Route) (k : ℕ) : List Route :=
  routes.modify k fun route => { route with sent := true }

theorem of_sentAt {k j : ℕ} {route : Route} (h : (sentAt routes k)[j]? = some route) :
    ∃ before, routes[j]? = some before ∧ route.target = before.target ∧
      route.transport = before.transport ∧ route.reply = before.reply := by
  obtain ⟨before, hget, rfl⟩ := of_getElem?_modify h
  refine ⟨before, hget, ?_⟩
  split_ifs <;> exact ⟨rfl, rfl, rfl⟩

theorem sentAt_of_some {j : ℕ} {before : Route} (k : ℕ) (h : routes[j]? = some before) :
    ∃ route, (sentAt routes k)[j]? = some route ∧ route.target = before.target ∧
      route.transport = before.transport ∧ route.reply = before.reply ∧
      (before.sent = true → route.sent = true) := by
  by_cases hkj : k = j
  · subst hkj
    exact ⟨_, getElem?_modify_self h, rfl, rfl, rfl, fun _ => rfl⟩
  · exact ⟨before, by rw [sentAt, getElem?_modify_ne hkj, h], rfl, rfl, rfl, id⟩

theorem answered_sentAt {k : ℕ} : Answered (sentAt routes k) p ↔ Answered routes p := by
  constructor
  · rintro ⟨j, route, hget, htarget⟩
    obtain ⟨before, hbefore, hsame, _⟩ := of_sentAt hget
    exact ⟨j, before, hbefore, hsame ▸ htarget⟩
  · rintro ⟨j, before, hget, htarget⟩
    obtain ⟨route, hroute, hsame, _⟩ := sentAt_of_some k hget
    exact ⟨j, route, hroute, hsame.trans htarget⟩

theorem DeliveredOn.sentAt (h : DeliveredOn routes p transport reply) (k : ℕ) :
    DeliveredOn (sentAt routes k) p transport reply := by
  obtain ⟨j, before, hget, htarget, htransport, hreply, hsent⟩ := h
  obtain ⟨route, hroute, h₁, h₂, h₃, h₄⟩ := sentAt_of_some k hget
  exact ⟨j, route, hroute, h₁.trans htarget, h₂.trans htransport, h₃.trans hreply, h₄ hsent⟩

/-- What the stage of a publish says about it. -/
def StageHolds (settings : Settings) (routes : List Route) (p : ℕ) (publish : Publish) :
    Stage → Prop
  | .admitted => publish.token = none
  | .registered | .submitted => publish.token.isSome
  | .received reply => publish.token.isSome ∧ ∃ transport, DeliveredOn routes p transport reply
  | .checked reply => publish.token.isSome ∧ DeliveredOn routes p publish.transport reply
  | .leaving outcome => publish.token.isSome ∧ (outcome = some (.ok ()) →
      ∃ reply, DeliveredOn routes p publish.transport reply ∧ Receipt settings reply)
  | .closed outcome => outcome = some (.ok ()) →
      ∃ reply, DeliveredOn routes p publish.transport reply ∧ Receipt settings reply

/-- A publish beside the calls of `route` and the SDK's connection. -/
structure Sound (settings : Settings) (routes : List Route) (transport p : ℕ)
    (publish : Publish) : Prop where
  channel : ∀ reply, publish.reply = some reply → ∃ on, DeliveredOn routes p on reply
  stage : StageHolds settings routes p publish publish.stage
  since : publish.transport ≤ transport

theorem Sound.mono {routes' : List Route} {transport' : ℕ}
    (h : Sound settings routes transport p publish)
    (hroutes : ∀ p on reply, DeliveredOn routes p on reply → DeliveredOn routes' p on reply)
    (htransport : transport ≤ transport') : Sound settings routes' transport' p publish := by
  refine ⟨fun reply hreply => ?_, ?_, h.since.trans htransport⟩
  · obtain ⟨on, hon⟩ := h.channel reply hreply
    exact ⟨on, hroutes _ _ _ hon⟩
  · have hstage := h.stage
    cases hat : publish.stage with
    | admitted | registered | submitted => rw [hat] at hstage; exact hstage
    | received reply =>
      rw [hat] at hstage
      obtain ⟨htoken, on, hon⟩ := hstage
      exact ⟨htoken, on, hroutes _ _ _ hon⟩
    | checked reply =>
      rw [hat] at hstage
      exact ⟨hstage.1, hroutes _ _ _ hstage.2⟩
    | leaving outcome =>
      rw [hat] at hstage
      refine ⟨hstage.1, fun hok => ?_⟩
      obtain ⟨reply, hon, hreceipt⟩ := hstage.2 hok
      exact ⟨reply, hroutes _ _ _ hon, hreceipt⟩
    | closed outcome =>
      rw [hat] at hstage
      intro hok
      obtain ⟨reply, hon, hreceipt⟩ := hstage hok
      exact ⟨reply, hroutes _ _ _ hon, hreceipt⟩

def Unanswered (s : State) (token p : ℕ) : Prop :=
  ∃ publish, s.publishes[p]? = some publish ∧ publish.token = some token ∧
    publish.stage.live = true ∧ ¬ Answered s.routes p

structure Inv (settings : Settings) (s : State) : Prop where
  issued : ∀ (p : ℕ) publish token, s.publishes[p]? = some publish → publish.token = some token →
    token < s.pending.tokens.next
  distinct : ∀ (p q : ℕ) a b token, s.publishes[p]? = some a → s.publishes[q]? = some b →
    a.token = some token → b.token = some token → p = q
  waiting : s.pending.ended = false →
    ∀ token p, (token, p) ∈ s.pending.waiting ↔ Unanswered s token p
  cleared : s.pending.ended = true → s.pending.waiting = []
  target : ∀ (k : ℕ) route p, s.routes[k]? = some route → route.target = some p →
    ∃ publish token, s.publishes[p]? = some publish ∧ publish.token = some token ∧
      tokenOf settings route.reply.subject = some token ∧
      publish.transport ≤ route.transport ∧ route.transport ≤ s.transport
  once : ∀ (k k' : ℕ) route route' p, s.routes[k]? = some route → s.routes[k']? = some route' →
    route.target = some p → route'.target = some p → k = k'
  sound : ∀ (p : ℕ) publish, s.publishes[p]? = some publish →
    Sound settings s.routes s.transport p publish

inductive Follows (settings : Settings) (transport : ℕ) (publish : Publish) : Stage → Prop
  | submit (h : publish.stage = .registered) : Follows settings transport publish .submitted
  | receive (reply : Message) (h : publish.stage = .submitted) (hreply : publish.reply = some reply) :
      Follows settings transport publish (.received reply)
  | check (reply : Message) (h : publish.stage = .received reply)
      (hsame : transport = publish.transport) :
      Follows settings transport publish (.checked reply)
  | accept (reply : Message) (h : publish.stage = .checked reply) :
      Follows settings transport publish (.leaving (some (acknowledgement settings reply)))
  | fails (outcome : Outcome) (h : publish.stage.live = true) (hfails : outcome ≠ some (.ok ())) :
      Follows settings transport publish (.leaving outcome)
  | refused (outcome : Outcome) (h : publish.stage = .admitted) (hfails : outcome ≠ some (.ok ())) :
      Follows settings transport publish (.closed outcome)

theorem Follows.live {stage : Stage} (h : Follows settings transport publish stage) :
    stage.live = publish.stage.live := by
  cases h with
  | submit h | receive _ h | check _ h | accept _ h | refused _ h => rw [h]; rfl
  | fails _ h => rw [h]; rfl

/-- What one action does to the connection. -/
inductive Moves (settings : Settings) (s : State) : State → Prop
  | follows {p : ℕ} {publish : Publish} {stage : Stage} (hget : s.publishes[p]? = some publish)
      (hfollows : Follows settings s.transport publish stage) : Moves settings s (s.move p stage)
  | registers {p token : ℕ} {publish : Publish} {pending : Pending}
      (hget : s.publishes[p]? = some publish) (hadmitted : publish.stage = .admitted)
      (hregister : s.pending.register p = .ok (token, pending)) :
      Moves settings s { s with
        pending := pending
        publishes := s.publishes.modify p fun publish =>
          { publish with token := some token, stage := .registered } }
  | retires {p token : ℕ} {publish : Publish} {outcome : Outcome}
      (hget : s.publishes[p]? = some publish) (hleaving : publish.stage = .leaving outcome)
      (htoken : publish.token = some token) :
      Moves settings s { s.move p (.closed outcome) with pending := s.pending.remove token }
  | admits : Moves settings s
      { s with publishes := s.publishes ++ [⟨s.transport, none, .admitted, none⟩] }
  | routes (reply : Message) : Moves settings s (s.routing settings reply)
  | sends {k p : ℕ} {route : Route} (hroute : s.routes[k]? = some route)
      (htarget : route.target = some p) : Moves settings s (s.sending k route p)
  | ends : Moves settings s { s with pending := s.pending.end_ }
  | reconnects : Moves settings s { s with transport := s.transport + 1 }

theorem moves_of_publishing {s s' : State} {action : Action}
    (hget : s.publishes[p]? = some publish)
    (h : s.publishing settings p publish action = some s') : Moves settings s s' := by
  have follow : ∀ {stage}, Follows settings s.transport publish stage →
      some (s.move p stage) = some s' → Moves settings s s' := by
    rintro stage hfollows ⟨⟩
    exact .follows hget hfollows
  -- a failure of a publish that holds a registration
  have fails : ∀ {error}, publish.stage.live = true →
      some (s.move p (.leaving (some (.error error)))) = some s' → Moves settings s s' :=
    fun hlive => follow (.fails _ hlive (by simp))
  unfold State.publishing at h
  split at h
  · -- register
    split_ifs at h with hstage
    unfold State.registering at h
    split at h
    · exact follow (.refused _ hstage (by simp)) h
    · next token pending hregister =>
      cases h
      exact .registers hget hstage hregister
  · -- submit
    split_ifs at h with hstage
    exact follow (.submit hstage) h
  · -- refuse
    split_ifs at h with hstage
    exact fails (by rw [hstage]; rfl) h
  · -- receive
    split at h
    · next reply hstage hreply => exact follow (.receive reply hstage hreply) h
    · cases h
  · -- lose
    split_ifs at h with hstage
    exact fails (by rw [hstage.1]; rfl) h
  · -- disconnected
    split_ifs at h with hstage
    exact fails (by rw [hstage]; rfl) h
  · -- deadline
    split_ifs at h with hstage
    exact fails (by rw [hstage]; rfl) h
  · -- check
    split at h
    · next reply hstage =>
      split_ifs at h with hsame
      · exact follow (.check reply hstage hsame) h
      · exact fails (by rw [hstage]; rfl) h
    · cases h
  · -- accept
    split at h
    · next reply hstage => exact follow (.accept reply hstage) h
    · cases h
  · -- cancel
    split at h
    · next hstage => exact follow (.refused none hstage (by simp)) h
    · next hstage => exact follow (.fails none (by rw [hstage]; rfl) (by simp)) h
    · next hstage => exact follow (.fails none (by rw [hstage]; rfl) (by simp)) h
    · cases h
  · -- retire
    split at h
    · next outcome token hstage htoken =>
      cases h
      exact .retires hget hstage htoken
    · cases h
  · cases h

theorem moves_of_step {s s' : State} {action : Action} (hstep : Steps settings s action s') :
    Moves settings s s' := by
  have hnext := next_of_steps hstep
  cases action with
  | admits =>
    cases hnext
    exact .admits
  | route reply =>
    cases hnext
    exact .routes reply
  | send k =>
    simp only [next] at hnext
    split at hnext
    · next route hroute =>
      split at hnext
      · next p _ htarget =>
        cases hnext
        exact .sends hroute htarget
      · cases hnext
    · cases hnext
  | end_ =>
    cases hnext
    exact .ends
  | reconnect =>
    cases hnext
    exact .reconnects
  | _ =>
    obtain ⟨publish, hget, hown⟩ := Option.bind_eq_some_iff.mp hnext
    exact moves_of_publishing hget hown

section Steps

variable {settings : Settings} {s : State}

theorem Inv.start (settings : Settings) (transport : ℕ) : Inv settings (.start transport) where
  issued := by intro p publish token h; cases h
  distinct := by intro p q a b token h; cases h
  waiting := by
    intro _ token p
    refine iff_of_false (by simp [State.start]) ?_
    rintro ⟨publish, h, _⟩
    cases h
  cleared := by intro h; rfl
  target := by intro k route p h; cases h
  once := by intro k k' route route' p h; cases h
  sound := by intro p publish h; cases h

variable {p token : ℕ} {publish : Publish} {stage : Stage} {s' : State} {pending : Pending}

theorem Inv.stageHolds (h : Inv settings s) (hget : s.publishes[p]? = some publish)
    (hfollows : Follows settings s.transport publish stage) :
    StageHolds settings s.routes p publish stage := by
  have hsound := h.sound p publish hget
  have hstage := hsound.stage
  cases hfollows with
  | submit hat => rw [hat] at hstage; exact hstage
  | receive reply hat hreply =>
    rw [hat] at hstage
    exact ⟨hstage, hsound.channel reply hreply⟩
  | check reply hat hsame =>
    rw [hat] at hstage
    obtain ⟨htoken, on, k, route, hroute, htarget, hon, hrest⟩ := hstage
    refine ⟨htoken, k, route, hroute, htarget, ?_, hrest⟩
    -- the SDK's connections only grow, and none came between admission and this check
    obtain ⟨publish', token, hget', _, _, hsince, huntil⟩ := h.target k route p hroute htarget
    obtain rfl : publish = publish' := Option.some.inj (hget.symm.trans hget')
    omega
  | accept reply hat =>
    rw [hat] at hstage
    refine ⟨hstage.1, fun hok => ⟨reply, hstage.2, ?_⟩⟩
    exact receipt_of_acknowledgement (Option.some.inj hok)
  | fails outcome hlive hfails =>
    refine ⟨?_, fun hok => absurd hok hfails⟩
    cases hat : publish.stage with
    | admitted => rw [hat] at hlive; cases hlive
    | closed outcome => rw [hat] at hlive; cases hlive
    | registered | submitted => rw [hat] at hstage; exact hstage
    | received reply | checked reply | leaving outcome => rw [hat] at hstage; exact hstage.1
  | refused outcome hat hfails => exact fun hok => absurd hok hfails

/-- An update of a publish that the map does not notice. -/
structure Same (a b : Publish) : Prop where
  token : b.token = a.token
  transport : b.transport = a.transport
  live : b.stage.live = a.stage.live

theorem stageHolds_congr {routes : List Route} {a b : Publish} (htoken : b.token = a.token)
    (htransport : b.transport = a.transport) (h : StageHolds settings routes p a stage) :
    StageHolds settings routes p b stage := by
  cases stage <;> simpa only [StageHolds, htoken, htransport] using h

section

variable (h : Inv settings s)

include h

theorem Inv.frame (hpending : s'.pending = s.pending)
    (hsame : ∀ (q : ℕ) b, s'.publishes[q]? = some b → ∃ a, s.publishes[q]? = some a ∧ Same a b)
    (hkept : ∀ (q : ℕ) a, s.publishes[q]? = some a → ∃ b, s'.publishes[q]? = some b ∧ Same a b)
    (hroutes : ∀ (k : ℕ) route, s'.routes[k]? = some route → ∃ before, s.routes[k]? = some before ∧
      route.target = before.target ∧ route.transport = before.transport ∧ route.reply =
      before.reply) (hanswered : ∀ q, Answered s'.routes q ↔ Answered s.routes q)
    (htransport : s.transport ≤ s'.transport)
    (hsound : ∀ (q : ℕ) b, s'.publishes[q]? = some b → Sound settings s'.routes s'.transport q b) :
    Inv settings s' where
  issued := by
    intro p b token hb htoken
    obtain ⟨a, ha, hab⟩ := hsame p b hb
    rw [hpending]
    exact h.issued p a token ha (hab.token ▸ htoken)
  distinct := by
    intro p q b b' token hb hb' htoken htoken'
    obtain ⟨a, ha, hab⟩ := hsame p b hb
    obtain ⟨a', ha', hab'⟩ := hsame q b' hb'
    exact h.distinct p q a a' token ha ha' (hab.token ▸ htoken) (hab'.token ▸ htoken')
  waiting := by
    intro hended token p
    rw [hpending] at hended ⊢
    rw [h.waiting hended]
    constructor
    · rintro ⟨a, ha, htoken, hlive, hnot⟩
      obtain ⟨b, hb, hab⟩ := hkept p a ha
      exact ⟨b, hb, hab.token.trans htoken, hab.live.trans hlive, (hanswered p).not.mpr hnot⟩
    · rintro ⟨b, hb, htoken, hlive, hnot⟩
      obtain ⟨a, ha, hab⟩ := hsame p b hb
      exact ⟨a, ha, hab.token ▸ htoken, hab.live ▸ hlive, (hanswered p).not.mp hnot⟩
  cleared := by
    rw [hpending]
    exact h.cleared
  target := by
    intro k route p hroute htarget
    obtain ⟨before, hbefore, htarget', htransport', hreply'⟩ := hroutes k route hroute
    obtain ⟨a, token, ha, htoken, hnames, hsince, huntil⟩ :=
      h.target k before p hbefore (htarget' ▸ htarget)
    obtain ⟨b, hb, hab⟩ := hkept p a ha
    refine ⟨b, token, hb, hab.token.trans htoken, by rw [hreply', hnames], ?_, ?_⟩
    · rw [hab.transport, htransport']
      exact hsince
    · rw [htransport']
      exact huntil.trans htransport
  once := by
    intro k k' route route' p hroute hroute' htarget htarget'
    obtain ⟨before, hbefore, hb, _⟩ := hroutes k route hroute
    obtain ⟨before', hbefore', hb', _⟩ := hroutes k' route' hroute'
    exact h.once k k' before before' p hbefore hbefore' (hb ▸ htarget) (hb' ▸ htarget')
  sound := hsound

theorem Inv.move (hget : s.publishes[p]? = some publish)
    (hfollows : Follows settings s.transport publish stage) : Inv settings (s.move p stage) := by
  have hat : ∀ a, s.publishes[p]? = some a → Same a { a with stage := stage } := by
    intro a ha
    obtain rfl : publish = a := Option.some.inj (hget.symm.trans ha)
    exact ⟨rfl, rfl, hfollows.live⟩
  refine h.frame rfl ?_ ?_ (fun k route hroute => ⟨route, hroute, rfl, rfl, rfl⟩)
    (fun _ => Iff.rfl) le_rfl ?_
  · intro q b hb
    obtain ⟨a, ha, rfl⟩ := of_getElem?_modify hb
    refine ⟨a, ha, ?_⟩
    split_ifs with hpq
    · subst hpq
      exact hat a ha
    · exact ⟨rfl, rfl, rfl⟩
  · intro q a ha
    by_cases hpq : p = q
    · subst hpq
      exact ⟨_, getElem?_modify_self ha, hat a ha⟩
    · exact ⟨a, (getElem?_modify_ne hpq).trans ha, rfl, rfl, rfl⟩
  · intro q b hb
    obtain ⟨a, ha, rfl⟩ := of_getElem?_modify hb
    split_ifs with hpq
    · subst hpq
      obtain rfl : publish = a := Option.some.inj (hget.symm.trans ha)
      have hsound := h.sound p publish ha
      refine ⟨hsound.channel, ?_, hsound.since⟩
      exact stageHolds_congr (a := publish) rfl rfl (h.stageHolds hget hfollows)
    · exact h.sound q a ha

theorem Inv.sending {k : ℕ} {route : Route} (hroute : s.routes[k]? = some route)
    (htarget : route.target = some p) : Inv settings (s.sending k route p) := by
  have hsame : ∀ a : Publish,
      Same a (if a.stage.live then { a with reply := some route.reply } else a) := by
    intro a
    split_ifs <;> exact ⟨rfl, rfl, rfl⟩
  have hdelivered : DeliveredOn (sentAt s.routes k) p route.transport route.reply :=
    ⟨k, _, getElem?_modify_self hroute, htarget, rfl, rfl, rfl⟩
  refine h.frame rfl ?_ ?_ (fun j after hafter => of_sentAt hafter)
    (fun _ => answered_sentAt) le_rfl ?_
  · intro q b hb
    obtain ⟨a, ha, rfl⟩ := of_getElem?_modify hb
    refine ⟨a, ha, ?_⟩
    split_ifs <;> exact ⟨rfl, rfl, rfl⟩
  · intro q a ha
    by_cases hpq : p = q
    · subst hpq
      exact ⟨_, getElem?_modify_self ha, hsame a⟩
    · exact ⟨a, (getElem?_modify_ne hpq).trans ha, rfl, rfl, rfl⟩
  · intro q b hb
    obtain ⟨a, ha, rfl⟩ := of_getElem?_modify hb
    have hsound := (h.sound q a ha).mono (fun p on reply hon => hon.sentAt k) le_rfl
    split_ifs with hpq hlive
    · subst hpq
      refine ⟨fun reply hreply => ?_, stageHolds_congr (a := a) rfl rfl hsound.stage, hsound.since⟩
      exact ⟨_, Option.some.inj hreply ▸ hdelivered⟩
    · exact hsound
    · exact hsound

theorem Inv.reconnect : Inv settings { s with transport := s.transport + 1 } := by
  refine h.frame rfl (fun q b hb => ⟨b, hb, rfl, rfl, rfl⟩) (fun q a ha => ⟨a, ha, rfl, rfl, rfl⟩)
    (fun k route hroute => ⟨route, hroute, rfl, rfl, rfl⟩) (fun _ => Iff.rfl) (Nat.le_succ _) ?_
  intro q b hb
  exact (h.sound q b hb).mono (fun _ _ _ hon => hon) (Nat.le_succ _)

theorem Inv.end_ : Inv settings { s with pending := s.pending.end_ } where
  issued := h.issued
  distinct := h.distinct
  waiting := by intro hended; cases hended
  cleared := by intro _; rfl
  target := h.target
  once := h.once
  sound := h.sound

theorem Inv.admits :
    Inv settings
      { s with publishes := s.publishes ++ [⟨s.transport, none, .admitted, none⟩] } where
  issued := by
    intro p publish token hget htoken
    rcases of_getElem?_join hget with hget | ⟨_, rfl⟩
    · exact h.issued p publish token hget htoken
    · cases htoken
  distinct := by
    intro p q a b token ha hb htoken htoken'
    rcases of_getElem?_join ha with ha | ⟨_, rfl⟩
    · rcases of_getElem?_join hb with hb | ⟨_, rfl⟩
      · exact h.distinct p q a b token ha hb htoken htoken'
      · cases htoken'
    · cases htoken
  waiting := by
    intro hended token p
    rw [h.waiting hended]
    constructor
    · rintro ⟨publish, hget, hrest⟩
      exact ⟨publish, getElem?_join_of_some hget, hrest⟩
    · rintro ⟨publish, hget, htoken, hrest⟩
      rcases of_getElem?_join hget with hget | ⟨_, rfl⟩
      · exact ⟨publish, hget, htoken, hrest⟩
      · cases htoken
  cleared := h.cleared
  target := by
    intro k route p hroute htarget
    obtain ⟨publish, token, hget, hrest⟩ := h.target k route p hroute htarget
    exact ⟨publish, token, getElem?_join_of_some hget, hrest⟩
  once := h.once
  sound := by
    intro p publish hget
    rcases of_getElem?_join hget with hget | ⟨_, rfl⟩
    · exact h.sound p publish hget
    · exact ⟨fun _ hreply => (by cases hreply), rfl, le_rfl⟩

end

theorem of_register {pending' : Pending} (h : pending.register p = .ok (token, pending')) :
    pending.ended = false ∧ token = pending.tokens.next ∧
      pending' = { pending with tokens := ⟨pending.tokens.next + 1⟩ }.insert token p := by
  unfold Pending.register at h
  split_ifs at h with hended
  unfold ReplyTokens.issue at h
  split_ifs at h
  obtain ⟨rfl, rfl⟩ := Prod.mk.inj (Except.ok.inj h)
  exact ⟨by simpa using hended, rfl, rfl⟩

theorem Inv.not_answered (h : Inv settings s) (hget : s.publishes[p]? = some publish)
    (htoken : publish.token = none) : ¬ Answered s.routes p := by
  rintro ⟨k, route, hroute, htarget⟩
  obtain ⟨publish', token, hget', htoken', _⟩ := h.target k route p hroute htarget
  obtain rfl : publish = publish' := Option.some.inj (hget.symm.trans hget')
  rw [htoken] at htoken'
  cases htoken'

theorem Inv.registering (h : Inv settings s) (hget : s.publishes[p]? = some publish)
    (hadmitted : publish.stage = .admitted)
    (hregister : s.pending.register p = .ok (token, pending)) :
    Inv settings { s with
      pending := pending
      publishes := s.publishes.modify p fun publish =>
        { publish with token := some token, stage := .registered } } := by
  obtain ⟨hended, rfl, rfl⟩ := of_register hregister
  have hnone : publish.token = none := by
    have hstage := (h.sound p publish hget).stage
    rwa [hadmitted] at hstage
  have hunanswered := h.not_answered hget hnone
  have hself : (s.publishes.modify p fun publish =>
      { publish with token := some s.pending.tokens.next, stage := .registered })[p]? =
      some { publish with token := some s.pending.tokens.next, stage := .registered } :=
    getElem?_modify_self hget
  refine ⟨?_, ?_, ?_, ?_, ?_, h.once, ?_⟩
  · intro q b token hb htoken
    rcases modify_cases hget hb with ⟨_, rfl⟩ | ⟨_, hb⟩
    · obtain rfl := Option.some.inj htoken
      exact Nat.lt_succ_self _
    · exact (h.issued q b token hb htoken).trans (Nat.lt_succ_self _)
  · intro q r a b token ha hb htoken htoken'
    rcases modify_cases hget ha with ⟨rfl, rfl⟩ | ⟨_, hbefore⟩
    · obtain rfl := Option.some.inj htoken
      rcases modify_cases hget hb with ⟨rfl, _⟩ | ⟨_, hbefore⟩
      · rfl
      · exact absurd (h.issued r b _ hbefore htoken') (lt_irrefl _)
    · rcases modify_cases hget hb with ⟨rfl, rfl⟩ | ⟨_, hbefore'⟩
      · obtain rfl := Option.some.inj htoken'
        exact absurd (h.issued q a _ hbefore htoken) (lt_irrefl _)
      · exact h.distinct q r a b token hbefore hbefore' htoken htoken'
  · intro _ token q
    have hmem : (token, q) ∈ ({ s.pending with tokens := ⟨s.pending.tokens.next + 1⟩ }.insert
          s.pending.tokens.next p).waiting ↔
        (token = s.pending.tokens.next ∧ q = p) ∨
          (token, q) ∈ s.pending.waiting ∧ token ≠ s.pending.tokens.next := by
      simp [Pending.insert, Pending.remove]
    rw [hmem, h.waiting hended]
    constructor
    · rintro (⟨rfl, rfl⟩ | ⟨⟨b, hb, htoken, hlive, hnot⟩, _⟩)
      · exact ⟨_, hself, rfl, rfl, hunanswered⟩
      · have hqp : p ≠ q := by
          rintro rfl
          rw [hget] at hb
          rw [← Option.some.inj hb, hnone] at htoken
          cases htoken
        exact ⟨b, (getElem?_modify_ne hqp).trans hb, htoken, hlive, hnot⟩
    · rintro ⟨b, hb, htoken, hlive, hnot⟩
      rcases modify_cases hget hb with ⟨rfl, rfl⟩ | ⟨_, hbefore⟩
      · exact .inl ⟨(Option.some.inj htoken).symm, rfl⟩
      · have hissued := h.issued q b token hbefore htoken
        exact .inr ⟨⟨b, hbefore, htoken, hlive, hnot⟩, hissued.ne⟩
  · intro hended'
    exact absurd (hended.symm.trans hended') (by decide)
  · intro k route q hroute htarget
    obtain ⟨b, token, hb, hrest⟩ := h.target k route q hroute htarget
    have hqp : p ≠ q := by
      rintro rfl
      exact hunanswered ⟨k, route, hroute, htarget⟩
    exact ⟨b, token, (getElem?_modify_ne hqp).trans hb, hrest⟩
  · intro q b hb
    rcases modify_cases hget hb with ⟨rfl, rfl⟩ | ⟨_, hb⟩
    · have hsound := h.sound q publish hget
      exact ⟨hsound.channel, rfl, hsound.since⟩
    · exact h.sound q b hb

theorem Inv.retiring (h : Inv settings s) {outcome : Outcome}
    (hget : s.publishes[p]? = some publish) (hleaving : publish.stage = .leaving outcome)
    (htoken : publish.token = some token) :
    Inv settings { s.move p (.closed outcome) with pending := s.pending.remove token } := by
  have hself : (s.move p (.closed outcome)).publishes[p]? =
      some { publish with stage := .closed outcome } := getElem?_modify_self hget
  -- a publish keeps its token when its registration is dropped
  have hbefore : ∀ (q : ℕ) b, (s.move p (.closed outcome)).publishes[q]? = some b →
      ∃ a, s.publishes[q]? = some a ∧ b.token = a.token := by
    intro q b hb
    rcases modify_cases hget hb with ⟨rfl, rfl⟩ | ⟨_, hb⟩
    · exact ⟨publish, hget, rfl⟩
    · exact ⟨b, hb, rfl⟩
  refine ⟨?_, ?_, ?_, ?_, ?_, h.once, ?_⟩
  · intro q b token' hb htoken'
    obtain ⟨a, ha, hsame⟩ := hbefore q b hb
    exact h.issued q a token' ha (hsame ▸ htoken')
  · intro q r b b' token' hb hb' ht ht'
    obtain ⟨a, ha, hsame⟩ := hbefore q b hb
    obtain ⟨a', ha', hsame'⟩ := hbefore r b' hb'
    exact h.distinct q r a a' token' ha ha' (hsame ▸ ht) (hsame' ▸ ht')
  · intro hended token' q
    have hmem : (token', q) ∈ (s.pending.remove token).waiting ↔
        (token', q) ∈ s.pending.waiting ∧ token' ≠ token := by
      simp [Pending.remove]
    rw [hmem, h.waiting hended]
    constructor
    · rintro ⟨⟨b, hb, htoken', hlive, hnot⟩, hne⟩
      have hqp : p ≠ q := by
        rintro rfl
        obtain rfl : publish = b := Option.some.inj (hget.symm.trans hb)
        exact hne (Option.some.inj (htoken'.symm.trans htoken))
      exact ⟨b, (getElem?_modify_ne hqp).trans hb, htoken', hlive, hnot⟩
    · rintro ⟨b, hb, htoken', hlive, hnot⟩
      rcases modify_cases hget hb with ⟨_, rfl⟩ | ⟨hqp, hsame⟩
      · cases hlive
      · refine ⟨⟨b, hsame, htoken', hlive, hnot⟩, ?_⟩
        rintro rfl
        exact hqp (h.distinct q p b publish _ hsame hget htoken' htoken)
  · intro hended
    have hempty := h.cleared hended
    simp [Pending.remove, hempty]
  · intro k route q hroute htarget
    obtain ⟨a, token', ha, hrest⟩ := h.target k route q hroute htarget
    by_cases hpq : p = q
    · subst hpq
      obtain rfl : publish = a := Option.some.inj (hget.symm.trans ha)
      exact ⟨_, token', hself, hrest⟩
    · exact ⟨a, token', (getElem?_modify_ne hpq).trans ha, hrest⟩
  · intro q b hb
    rcases modify_cases hget hb with ⟨rfl, rfl⟩ | ⟨_, hb⟩
    · have hsound := h.sound q publish hget
      have hstage := hsound.stage
      rw [hleaving] at hstage
      exact ⟨hsound.channel, hstage.2, hsound.since⟩
    · exact h.sound q b hb

theorem Inv.discarding (h : Inv settings s) {route : Route} (htarget : route.target = none) :
    Inv settings { s with routes := s.routes ++ [route] } := by
  have hanswered : ∀ q, Answered (s.routes ++ [route]) q ↔ Answered s.routes q := by
    intro q
    rw [answered_join, htarget]
    simp
  refine ⟨h.issued, h.distinct, ?_, h.cleared, ?_, ?_, ?_⟩
  · intro hended token q
    rw [h.waiting hended]
    simp only [Unanswered, hanswered]
  · intro k other q hother hq
    rcases of_getElem?_join hother with hother | ⟨_, rfl⟩
    · exact h.target k other q hother hq
    · rw [htarget] at hq
      cases hq
  · intro k k' other other' q hother hother' hq hq'
    rcases of_getElem?_join hother with hother | ⟨_, rfl⟩
    · rcases of_getElem?_join hother' with hother' | ⟨_, rfl⟩
      · exact h.once k k' other other' q hother hother' hq hq'
      · rw [htarget] at hq'
        cases hq'
    · rw [htarget] at hq
      cases hq
  · intro q b hb
    exact (h.sound q b hb).mono (fun _ _ _ hon => hon.join route) le_rfl

theorem remove_of_lookup_eq_none (h : pending.waiting.lookup token = none) :
    pending.remove token = pending := by
  have hkept : (pending.waiting.filter fun entry => entry.1 ≠ token) = pending.waiting := by
    rw [List.filter_eq_self]
    intro entry hentry
    have hne : token ≠ entry.1 := by simpa using List.lookup_eq_none_iff.mp h entry hentry
    exact decide_eq_true (Ne.symm hne)
  rw [Pending.remove, hkept]

theorem Inv.taking (h : Inv settings s) {reply : Message}
    (hnames : tokenOf settings reply.subject = some token) (hmem : (token, p) ∈ s.pending.waiting) :
    Inv settings { s with
      pending := s.pending.remove token
      routes := s.routes ++ [⟨reply, s.transport, some p, false⟩] } := by
  -- routing has not ended: the map is not empty
  have hended : s.pending.ended = false := by
    cases hended : s.pending.ended with
    | false => rfl
    | true => rw [h.cleared hended] at hmem; cases hmem
  obtain ⟨publish, hget, htoken, hlive, hnot⟩ := (h.waiting hended token p).mp hmem
  have hjoin : ∀ q, Answered (s.routes ++ [⟨reply, s.transport, some p, false⟩]) q ↔
      Answered s.routes q ∨ p = q := by
    intro q
    rw [answered_join]
    simp
  have hnew : ∀ (k : ℕ) route q, s.routes[k]? = some route → route.target = some q → q ≠ p := by
    rintro k route _ hroute htarget rfl
    exact hnot ⟨k, route, hroute, htarget⟩
  refine ⟨h.issued, h.distinct, ?_, ?_, ?_, ?_, ?_⟩
  · intro _ token' q
    have hremove : (token', q) ∈ (s.pending.remove token).waiting ↔
        (token', q) ∈ s.pending.waiting ∧ token' ≠ token := by
      simp [Pending.remove]
    rw [hremove, h.waiting hended]
    simp only [Unanswered, hjoin, not_or]
    constructor
    · rintro ⟨⟨b, hb, htoken', hlive', hnot'⟩, hne⟩
      refine ⟨b, hb, htoken', hlive', hnot', ?_⟩
      rintro rfl
      obtain rfl : publish = b := Option.some.inj (hget.symm.trans hb)
      exact hne (Option.some.inj (htoken'.symm.trans htoken))
    · rintro ⟨b, hb, htoken', hlive', hnot', hpq⟩
      refine ⟨⟨b, hb, htoken', hlive', hnot'⟩, ?_⟩
      rintro rfl
      exact hpq (h.distinct p q publish b _ hget hb htoken htoken')
  · intro hended'
    exact absurd (hended.symm.trans hended') (by decide)
  · intro k route q hroute htarget
    rcases of_getElem?_join hroute with hroute | ⟨_, rfl⟩
    · exact h.target k route q hroute htarget
    · obtain rfl : p = q := Option.some.inj htarget
      exact ⟨publish, token, hget, htoken, hnames, (h.sound p publish hget).since, le_rfl⟩
  · intro k k' route route' q hroute hroute' htarget htarget'
    rcases of_getElem?_join hroute with hroute | ⟨hk, rfl⟩
    · rcases of_getElem?_join hroute' with hroute' | ⟨_, rfl⟩
      · exact h.once k k' route route' q hroute hroute' htarget htarget'
      · exact absurd (Option.some.inj htarget').symm (hnew k route q hroute htarget)
    · rcases of_getElem?_join hroute' with hroute' | ⟨hk', rfl⟩
      · exact absurd (Option.some.inj htarget).symm (hnew k' route' q hroute' htarget')
      · rw [hk, hk']
  · intro q b hb
    exact (h.sound q b hb).mono (fun _ _ _ hon => hon.join _) le_rfl

theorem Inv.routing (h : Inv settings s) (reply : Message) :
    Inv settings (s.routing settings reply) := by
  unfold State.routing
  split
  · exact h.discarding rfl
  · next token hnames =>
    cases hlookup : s.pending.waiting.lookup token with
    | none =>
      rw [remove_of_lookup_eq_none hlookup]
      exact h.discarding rfl
    | some p =>
      obtain ⟨before, after, hsplit, _⟩ := List.lookup_eq_some_iff.mp hlookup
      have hmem : (token, p) ∈ s.pending.waiting := by
        rw [hsplit]
        simp
      exact h.taking hnames hmem

/-- Every step keeps the invariant. -/
theorem Inv.step (h : Inv settings s) {action : Action} (hstep : Steps settings s action s') :
    Inv settings s' := by
  cases moves_of_step hstep with
  | follows hget hfollows => exact h.move hget hfollows
  | registers hget hadmitted hregister => exact h.registering hget hadmitted hregister
  | retires hget hleaving htoken => exact h.retiring hget hleaving htoken
  | admits => exact h.admits
  | routes reply => exact h.routing reply
  | sends hroute htarget => exact h.sending hroute htarget
  | ends => exact h.end_
  | reconnects => exact h.reconnect

theorem inv_of_runs {transport : ℕ} {trace : List Action}
    (run : Runs (Steps settings) (.start transport) trace s) : Inv settings s := by
  induction run with
  | nil => exact .start settings transport
  | snoc _ step ih => exact ih.step step

structure Later (s s' : State) : Prop where
  ended : s'.pending.ended = true
  tokens : ∀ (p : ℕ) publish token, s'.publishes[p]? = some publish → publish.token = some token →
    ∃ before, s.publishes[p]? = some before ∧ before.token = some token

theorem Later.modify {f : Publish → Publish} {transport : ℕ} {routes : List Route}
    (hended : pending.ended = true) (hf : ∀ a, (f a).token = a.token) :
    Later s ⟨pending, transport, s.publishes.modify p f, routes⟩ := by
  refine ⟨hended, fun q b token hb htoken => ?_⟩
  obtain ⟨a, ha, rfl⟩ := of_getElem?_modify hb
  refine ⟨a, ha, ?_⟩
  split_ifs at htoken
  · exact (hf a).symm.trans htoken
  · exact htoken

theorem Later.keep (hended : s'.pending.ended = true) (hpublishes : s'.publishes = s.publishes) :
    Later s s' :=
  ⟨hended, fun _ b _ hb htoken => ⟨b, hpublishes ▸ hb, htoken⟩⟩

theorem later_of_step {action : Action} (hended : s.pending.ended = true)
    (hstep : Steps settings s action s') : Later s s' := by
  cases moves_of_step hstep with
  | follows => exact .modify hended fun _ => rfl
  | registers _ _ hregister =>
    rw [(of_register hregister).1] at hended
    cases hended
  | retires => exact .modify hended fun _ => rfl
  | admits =>
    refine ⟨hended, fun p publish token hget htoken => ?_⟩
    rcases of_getElem?_join hget with hget | ⟨_, rfl⟩
    · exact ⟨publish, hget, htoken⟩
    · cases htoken
  | routes reply =>
    unfold State.routing
    split <;> exact .keep hended rfl
  | sends =>
    refine .modify hended fun a => ?_
    split_ifs <;> rfl
  | ends => exact .keep rfl rfl
  | reconnects => exact .keep hended rfl

theorem later_of_runs {trace : List Action} (hended : s.pending.ended = true)
    (run : Runs (Steps settings) s trace s') : Later s s' := by
  induction run with
  | nil => exact .keep hended rfl
  | snoc _ step ih =>
    have hstep := later_of_step ih.ended step
    refine ⟨hstep.ended, fun p publish token hget htoken => ?_⟩
    obtain ⟨between, hbetween, htoken⟩ := hstep.tokens p publish token hget htoken
    exact ih.tokens p between token hbetween htoken

end Steps

/-- In every run of a connection: no two publishes are given one token; until routing ends the map
holds exactly the live registrations that were not answered, and nothing afterwards; a reply is
handed to at most one publish, the one whose token its digits denote, and a publish receives at most
one; no publish registers after the end; and a publish returns `Ok` only on a receipt for the
connection's stream that was routed to it on the transport it was admitted on. -/
theorem replies_correlated {settings : Settings} {transport : ℕ} {trace : List Action} {s : State}
    (run : Runs (Steps settings) (.start transport) trace s) :
    (∀ (p q : ℕ) a b token, s.publishes[p]? = some a → s.publishes[q]? = some b →
      a.token = some token → b.token = some token → p = q) ∧
    (s.pending.ended = false →
      ∀ token p, (token, p) ∈ s.pending.waiting ↔ Unanswered s token p) ∧
    (s.pending.ended = true → s.pending.waiting = []) ∧
    (∀ (k : ℕ) route p, s.routes[k]? = some route → route.target = some p →
      ∃ publish digits, s.publishes[p]? = some publish ∧
        route.reply.subject = settings.inbox ++ '.' :: digits ∧ digits ≠ [] ∧
        digits.all Decimal.isDigit ∧ publish.token = some (Decimal.valueOf digits)) ∧
    (∀ (k k' : ℕ) route route' p, s.routes[k]? = some route → s.routes[k']? = some route' →
      route.target = some p → route'.target = some p → k = k') ∧
    (∀ later s', s.pending.ended = true → Runs (Steps settings) s later s' →
      ∀ (p : ℕ) publish token, s'.publishes[p]? = some publish → publish.token = some token →
        ∃ before, s.publishes[p]? = some before ∧ before.token = some token) ∧
    (∀ (p : ℕ) publish, s.publishes[p]? = some publish →
      publish.stage = .closed (some (.ok ())) →
      ∃ (k : ℕ) (route : Route), s.routes[k]? = some route ∧ route.target = some p ∧
        route.sent = true ∧ route.transport = publish.transport ∧
        Receipt settings route.reply) := by
  have h := inv_of_runs run
  refine ⟨h.distinct, h.waiting, h.cleared, ?_, h.once, ?_, ?_⟩
  · intro k route p hroute htarget
    obtain ⟨publish, token, hget, htoken, hnames, _⟩ := h.target k route p hroute htarget
    obtain ⟨digits, hsubject, hne, hdigits, rfl⟩ := of_tokenOf hnames
    exact ⟨publish, digits, hget, hsubject, hne, hdigits, htoken⟩
  · intro later s' hended hrun
    exact (later_of_runs hended hrun).tokens
  · intro p publish hget hclosed
    have hstage := (h.sound p publish hget).stage
    rw [hclosed] at hstage
    obtain ⟨reply, ⟨k, route, hroute, htarget, hon, rfl, hsent⟩, hreceipt⟩ := hstage rfl
    exact ⟨k, route, hroute, htarget, hsent, hon, hreceipt⟩

def sampleReceipt : Bytes := encode "\x7b\"stream\":\"orders\",\"seq\":7\x7d".toList

def sampleSettings : Settings where
  inbox := "_INBOX.r".toList
  stream := "orders".toList
  decode payload := if payload = sampleReceipt then some (.ok ⟨"orders".toList, 7⟩) else none

def sampleReply : Message := ⟨"_INBOX.r.0".toList, none, sampleReceipt⟩

def sampleTrace : List Action :=
  [.admits, .register 0, .submit 0, .route sampleReply, .route sampleReply, .send 0, .receive 0,
    .check 0, .accept 0, .retire 0]

theorem replies_correlated_sampleTrace :
    ∃ s, Runs (Steps sampleSettings) (.start 1) sampleTrace s ∧
      (s.publishes.map Publish.stage = [.closed (some (.ok ()))]) ∧
      s.routes.map Route.target = [some 0, none] ∧
      ∃ (k : ℕ) (route : Route), s.routes[k]? = some route ∧ route.target = some 0 ∧
        route.sent = true ∧ route.transport = 1 ∧ Receipt sampleSettings route.reply := by
  have hready : ReadyAll (Ready sampleSettings) (act sampleSettings) (.start 1) sampleTrace := by
    decide
  have run := runs_replay hready
  have hpublish : (replay (act sampleSettings) (.start 1) sampleTrace).publishes[0]? =
      some ⟨1, some 0, .closed (some (.ok ())), some sampleReply⟩ := by decide
  obtain ⟨_, _, _, _, _, _, hok⟩ := replies_correlated run
  exact ⟨_, run, by decide, by decide, hok 0 _ hpublish rfl⟩

/-- Once routing has ended, a publish may hold a registration that no reply was routed to, and the
map does not name it. -/
theorem end_forgets_registration :
    ∃ trace s, Runs (Steps sampleSettings) (.start 1) trace s ∧ Unanswered s 0 0 ∧
      s.pending.waiting = [] := by
  have hready : ReadyAll (Ready sampleSettings) (act sampleSettings) (.start 1)
      [.admits, .register 0, .end_] := by decide
  have run := runs_replay hready
  refine ⟨_, _, run, ⟨⟨1, some 0, .registered, none⟩, rfl, rfl, rfl, ?_⟩, rfl⟩
  rintro ⟨k, route, hroute, _⟩
  cases hroute

end Camber.Nats
