import Camber.Client.Egress

/-! A restricted call resolves once. One refused address refuses the answer; the rest are pinned. -/

namespace Camber.Client
open Str EgressPolicy

def visitBound : ℕ := 64

structure SocketAddr where
  ip : IpAddr
  port : ℕ
deriving DecidableEq

structure DialCandidates where
  addresses : List SocketAddr
  distinct : addresses.Nodup
  canonical : ∀ dial ∈ addresses, dial.ip.toCanonical = dial.ip

structure PinnedDestination where
  host : Text
  candidates : DialCandidates

inductive PinFailure where
  | dns
  | egress (refusal : ClientEgress)

inductive Lookup where
  | edge (answer : Option (List IpAddr))
  | system (found : Option (List IpAddr))

def Lookup.answer : Lookup → Option (List IpAddr)
  | .edge answer => answer
  | .system found => found.map fun found => found.take (visitBound + 1)

def frozen (visited : List IpAddr) (port : ℕ) : DialCandidates where
  addresses := (visited.map fun address => SocketAddr.mk address.toCanonical port).distinct
  distinct := List.nodup_distinct _
  canonical := by
    intro dial hdial
    obtain ⟨address, -, rfl⟩ := List.mem_map.mp (List.mem_distinct.mp hdial)
    exact address.toCanonical_toCanonical

section Resolve

variable (texts : HostText) (policy : EgressPolicy) (target : Url)

def approved (port : ℕ) (candidates : List IpAddr) : Except PinFailure DialCandidates := do
  if candidates.length = 0 then .error .dns
  else if candidates.length ≤ visitBound then
    (policy.decideEach texts target candidates).mapError .egress
    .ok (frozen candidates port)
  else .error (.egress .resolutionLimit)

def answerFor (lookup : Lookup) : Option (List IpAddr) :=
  match texts.literalAddress target with
  | some literal => some [literal]
  | none => lookup.answer

def dialable {α : Type} : Option α → Except PinFailure α
  | some part => .ok part
  | none => .error (.egress .scheme)

def resolve (lookup : Lookup) : Except PinFailure PinnedDestination := do
  let host ← dialable target.host
  let port ← dialable target.portOrKnownDefault
  match answerFor texts target lookup with
  | none => .error .dns
  | some candidates =>
    let addresses ← approved texts policy target port candidates
    .ok ⟨texts.render host, addresses⟩

variable {texts policy target}

theorem dialable_eq_ok {α : Type} {part : Option α} {value : α} :
    dialable part = .ok value ↔ part = some value := by
  cases part with
  | none => simp [dialable]
  | some found => simp [dialable]

theorem approved_eq_ok {port : ℕ} {candidates : List IpAddr} {addresses : DialCandidates} :
    approved texts policy target port candidates = .ok addresses ↔
      candidates ≠ [] ∧ candidates.length ≤ visitBound ∧
        policy.decideEach texts target candidates = .ok () ∧ frozen candidates port = addresses := by
  rw [approved, Ne, ← List.length_eq_zero_iff]
  split_ifs with hempty hlong
  · simp [hempty]
  · simp only [hempty, hlong, Except.bind_ok_iff, Except.mapError_eq_ok, Except.ok.injEq, not_false_eq_true,
      true_and]
    exact ⟨fun ⟨_, hdecided, hfrozen⟩ => ⟨hdecided, hfrozen⟩,
      fun ⟨hdecided, hfrozen⟩ => ⟨(), hdecided, hfrozen⟩⟩
  · simp [hlong]

/-- What was read when a destination is pinned. -/
structure Pins (texts : HostText) (policy : EgressPolicy) (target : Url) (lookup : Lookup)
    (pinned : PinnedDestination) (candidates : List IpAddr) (origin : Origin) : Prop where
  answer : answerFor texts target lookup = some candidates
  nonempty : candidates ≠ []
  bounded : candidates.length ≤ visitBound
  read : texts.originOf target = some origin
  scheme : policy.sendsTo origin.secure = true
  admitted : ∀ address ∈ candidates, policy.admitted origin address.toCanonical = true
  kept : pinned.candidates = frozen candidates origin.port

theorem resolve_eq_ok {lookup : Lookup} {pinned : PinnedDestination}
    (h : resolve texts policy target lookup = .ok pinned) :
    ∃ candidates origin, Pins texts policy target lookup pinned candidates origin := by
  obtain ⟨host, -, h⟩ := Except.bind_ok_iff.mp h
  obtain ⟨port, hport, h⟩ := Except.bind_ok_iff.mp h
  rw [dialable_eq_ok] at hport
  cases hanswer : answerFor texts target lookup with
  | none =>
    rw [hanswer] at h
    cases h
  | some candidates =>
    rw [hanswer] at h
    obtain ⟨addresses, haddresses, hpinned⟩ := Except.bind_ok_iff.mp h
    obtain ⟨hnonempty, hbounded, hdecided, hfrozen⟩ := approved_eq_ok.mp haddresses
    obtain ⟨origin, hadmitted, heach⟩ := decideEach_eq_ok.mp hdecided
    obtain ⟨horigin, hsends⟩ := admittedOrigin_eq_ok.mp hadmitted
    obtain ⟨-, -, hread⟩ := HostText.originOf_eq_some.mp horigin
    obtain rfl : port = origin.port := Option.some_inj.mp (hport.symm.trans hread)
    obtain rfl := Except.ok.inj hpinned
    exact ⟨candidates, origin, hanswer, hnonempty, hbounded, horigin, hsends,
      fun address hmem => decideAt_eq_ok.mp (heach address hmem), hfrozen.symm⟩

theorem mem_frozen {visited : List IpAddr} {port : ℕ} {dial : SocketAddr} :
    dial ∈ (frozen visited port).addresses ↔
      ∃ address ∈ visited, address.toCanonical = dial.ip ∧ port = dial.port := by
  rw [frozen, List.mem_distinct, List.mem_map]
  refine exists_congr fun address => and_congr_right fun _ => ?_
  exact ⟨fun h => h ▸ ⟨rfl, rfl⟩, fun ⟨hip, hport⟩ => by rw [hip, hport]⟩

end Resolve

section Dialed

variable (parse : UrlParser) (texts : HostText) (calls : List EgressCall) (target : Url)

structure SameOrigin (a b : Url) : Prop where
  scheme : a.scheme = b.scheme
  host : a.host.map (fun host => texts.originHost (texts.render host)) =
    b.host.map (fun host => texts.originHost (texts.render host))
  port : a.portOrKnownDefault = b.portOrKnownDefault

def ExceptedFor (address : IpAddr) : Prop :=
  ∃ text named url, EgressCall.allowDestination text named ∈ calls ∧ named.toCanonical = address ∧
    bareOrigin parse text = some url ∧ SameOrigin texts url target

structure Dialed (lookup : Lookup) (addresses : List SocketAddr) : Prop where
  nonempty : addresses ≠ []
  distinct : addresses.Nodup
  canonical : ∀ dial ∈ addresses, dial.ip.toCanonical = dial.ip
  answered : ∀ dial ∈ addresses, ∃ answer, answerFor texts target lookup = some answer ∧
    ∃ address ∈ answer, address.toCanonical = dial.ip
  approved : ∀ dial ∈ addresses, Ordinary dial.ip ∨ ExceptedFor parse texts calls target dial.ip
  single : ∀ dial ∈ addresses, dial.ip.isUnspecified = false ∧ dial.ip.isMulticast = false ∧
    dial.ip.isBroadcast = false
  port : ∀ dial ∈ addresses, target.portOrKnownDefault = some dial.port
  literal : ∀ address, target.host.bind Host.address = some address →
    ∀ dial ∈ addresses, dial.ip = address.toCanonical

variable {parse texts calls target}

theorem secureScheme_inj {a b : Url} {secure : Bool} (ha : secureScheme a = some secure)
    (hb : secureScheme b = some secure) : a.scheme = b.scheme := by
  unfold secureScheme at ha hb
  split_ifs at ha hb <;> simp_all

variable {origin : Origin}

theorem exceptedFor_of_excepts {exception : Exception} (h : Excepts parse texts calls exception)
    (horigin : exception.origin = origin) (htarget : texts.originOf target = some origin) :
    ExceptedFor parse texts calls target exception.address := by
  obtain ⟨text, named, hcall, hexception⟩ := h
  obtain ⟨read, hread, hkept⟩ := Option.bind_eq_some_iff.mp hexception
  obtain ⟨url, hurl, hread⟩ := Option.bind_eq_some_iff.mp hread
  split_ifs at hkept with hmay
  obtain rfl := Option.some_inj.mp hkept
  obtain rfl : read = origin := horigin
  obtain ⟨hsecure, hhost, hport⟩ := HostText.originOf_eq_some.mp hread
  obtain ⟨hsecure', hhost', hport'⟩ := HostText.originOf_eq_some.mp htarget
  exact ⟨text, named, url, hcall, rfl, hurl, secureScheme_inj hsecure hsecure',
    hhost.trans hhost'.symm, hport.trans hport'.symm⟩

variable {policy : EgressPolicy} {exceptions : List Exception}

theorem approved_of_admitted (hbuilt : Built parse texts calls policy exceptions)
    {address : IpAddr} (htarget : texts.originOf target = some origin)
    (h : policy.admitted origin address = true) :
    (Ordinary address ∨ ExceptedFor parse texts calls target address) ∧
      isUnexceptable address = false := by
  rcases hbuilt.admitted_iff.mp h with ⟨-, hordinary⟩ | ⟨exception, hexcepts, rfl, horigin⟩
  · exact ⟨.inl hordinary, hordinary.exceptable⟩
  · exact ⟨.inr (exceptedFor_of_excepts hexcepts horigin htarget), exception.single⟩

theorem isUnexceptable_eq_false {address : IpAddr} :
    isUnexceptable address = false ↔ address.isUnspecified = false ∧ address.isMulticast = false ∧
      address.isBroadcast = false := by
  rw [isUnexceptable, Bool.or_eq_false_iff, Bool.or_eq_false_iff, and_assoc]

theorem Pins.dialed {lookup : Lookup} {pinned : PinnedDestination} {candidates : List IpAddr}
    (h : Pins texts policy target lookup pinned candidates origin)
    (hbuilt : Built parse texts calls policy exceptions) :
    Dialed parse texts calls target lookup pinned.candidates.addresses := by
  have happroved : ∀ dial ∈ pinned.candidates.addresses,
      (Ordinary dial.ip ∨ ExceptedFor parse texts calls target dial.ip) ∧
        isUnexceptable dial.ip = false := by
    intro dial hdial
    obtain ⟨address, hmem, hip, -⟩ := mem_frozen.mp (h.kept ▸ hdial)
    exact hip ▸ approved_of_admitted hbuilt h.read (h.admitted address hmem)
  refine
    { nonempty := ?_
      distinct := pinned.candidates.distinct
      canonical := pinned.candidates.canonical
      answered := ?_
      approved := fun dial hdial => (happroved dial hdial).1
      single := fun dial hdial => isUnexceptable_eq_false.mp (happroved dial hdial).2
      port := ?_
      literal := ?_ }
  · obtain ⟨address, rest, hcandidates⟩ := List.exists_cons_of_ne_nil h.nonempty
    have hmem : address ∈ candidates := hcandidates ▸ List.mem_cons_self
    have hdial : ⟨address.toCanonical, origin.port⟩ ∈ (frozen candidates origin.port).addresses :=
      mem_frozen.mpr ⟨address, hmem, rfl, rfl⟩
    rw [h.kept]
    exact List.ne_nil_of_mem hdial
  · intro dial hdial
    obtain ⟨address, hmem, hip, -⟩ := mem_frozen.mp (h.kept ▸ hdial)
    exact ⟨candidates, h.answer, address, hmem, hip⟩
  · intro dial hdial
    obtain ⟨-, -, -, hport⟩ := mem_frozen.mp (h.kept ▸ hdial)
    exact hport ▸ (HostText.originOf_eq_some.mp h.read).2.2
  · intro literal hliteral dial hdial
    obtain ⟨address, hmem, hip, -⟩ := mem_frozen.mp (h.kept ▸ hdial)
    have hanswer := h.answer
    rw [answerFor, HostText.literalAddress_of_address hliteral, Option.some_inj] at hanswer
    obtain rfl : address = literal.toCanonical := List.mem_singleton.mp (hanswer ▸ hmem)
    rw [← hip, literal.toCanonical_toCanonical]

theorem resolve_congr {calls' : List EgressCall} {policy' : EgressPolicy}
    {exceptions' : List Exception} (h : Built parse texts calls policy exceptions)
    (h' : Built parse texts calls' policy' exceptions')
    (hsame : ∀ call, call ∈ calls' ↔ call ∈ calls) (target : Url) (lookup : Lookup) :
    resolve texts policy' target lookup = resolve texts policy target lookup := by
  simp only [resolve, approved, h.decideEach_congr h' hsame]

/-- A restricted policy, however its calls built it, pins only addresses it approved: it fails, or
it yields distinct canonical addresses of the answer that are ordinary or excepted for exactly this
target. -/
theorem resolve_dialed (hconfigure : configure parse texts calls = .ok policy)
    (target : Url) (lookup : Lookup) :
    (∀ pinned, resolve texts policy target lookup = .ok pinned →
      Dialed parse texts calls target lookup pinned.candidates.addresses) ∧
    (∀ answer address, answerFor texts target lookup = some answer → address ∈ answer →
      ¬ (Ordinary address.toCanonical ∨
        ExceptedFor parse texts calls target address.toCanonical) →
      ∃ failure, resolve texts policy target lookup = .error failure) ∧
    (∀ answer, answerFor texts target lookup = some answer → visitBound < answer.length →
      ∃ failure, resolve texts policy target lookup = .error failure) ∧
    (EgressCall.httpsOnly ∈ calls → target.scheme = http →
      ∃ failure, resolve texts policy target lookup = .error failure) ∧
    (∀ calls', (∀ call, call ∈ calls' ↔ call ∈ calls) →
      ∃ policy', configure parse texts calls' = .ok policy' ∧
        resolve texts policy' target lookup = resolve texts policy target lookup) := by
  obtain ⟨exceptions, hbuilt⟩ := built_of_configure hconfigure
  refine ⟨?_, ?_, ?_, ?_, ?_⟩
  · intro pinned hresolved
    obtain ⟨candidates, origin, hpins⟩ := resolve_eq_ok hresolved
    exact hpins.dialed hbuilt
  · intro answer address hanswer hmem hrefused
    refine Except.error_of_not_ok fun pinned hresolved => hrefused ?_
    obtain ⟨candidates, origin, hpins⟩ := resolve_eq_ok hresolved
    obtain rfl : answer = candidates := Option.some_inj.mp (hanswer.symm.trans hpins.answer)
    exact (approved_of_admitted hbuilt hpins.read (hpins.admitted address hmem)).1
  · intro answer hanswer hlong
    refine Except.error_of_not_ok fun pinned hresolved => hlong.not_ge ?_
    obtain ⟨candidates, origin, hpins⟩ := resolve_eq_ok hresolved
    obtain rfl : answer = candidates := Option.some_inj.mp (hanswer.symm.trans hpins.answer)
    exact hpins.bounded
  · intro hsecured hhttp
    refine Except.error_of_not_ok fun pinned hresolved => ?_
    obtain ⟨candidates, origin, hpins⟩ := resolve_eq_ok hresolved
    have hinsecure : secureScheme target = some false := by
      rw [secureScheme, hhttp]
      decide
    obtain ⟨hsecure, -, -⟩ := HostText.originOf_eq_some.mp hpins.read
    have hsends := hpins.scheme
    rw [← Option.some_inj.mp (hinsecure.symm.trans hsecure), sendsTo,
      hbuilt.secured.mpr hsecured] at hsends
    cases hsends
  · intro calls' hsame
    obtain ⟨policy', hpolicy'⟩ : ∃ policy', configure parse texts calls' = .ok policy' := by
      rw [configure_isOk]
      intro text address hmem
      exact configure_isOk.mp ⟨policy, hconfigure⟩ text address ((hsame _).mp hmem)
    obtain ⟨exceptions', hbuilt'⟩ := built_of_configure hpolicy'
    exact ⟨policy', hpolicy', resolve_congr hbuilt hbuilt' hsame target lookup⟩

end Dialed

def unaryTexts : HostText where
  render
    | .domain name => name
    | .ipv4 a => '4' :: List.replicate a '0'
    | .ipv6 a => '6' :: List.replicate a '0'
  parse
    | '4' :: digits => some (.v4 (BitVec.ofNat 32 digits.length))
    | '6' :: digits => some (.v6 (BitVec.ofNat 128 digits.length))
    | _ => none
  parse_render := by
    intro host address h
    cases host with
    | domain name => cases h
    | ipv4 a | ipv6 a =>
      obtain rfl := Option.some_inj.mp h
      simp [unbracketed, stripPrefixChar]

def sampleBilling : Url :=
  ⟨https, [], none, some (.domain "billing".toList), some 8443, "/".toList, none, none⟩

def sampleCalls : List EgressCall :=
  [.allowDestination "https://billing:8443".toList (.v4 (ipv4 10 20 30 40)), .httpsOnly]

def samplePolicy : EgressPolicy where
  addresses := .publicInternet
    [⟨⟨true, .name "billing".toList, 8443⟩, .v4 (ipv4 10 20 30 40), by decide, by decide, by decide⟩]
  httpsOnly := true

theorem resolve_dialed_sampleBilling :
    (resolve unaryTexts samplePolicy sampleBilling
        (.system (some [.v4 (ipv4 10 20 30 40), .v4 (ipv4 8 8 8 8)]))).toOption.map
          (fun pinned => pinned.candidates.addresses) =
      some [⟨.v4 (ipv4 10 20 30 40), 8443⟩, ⟨.v4 (ipv4 8 8 8 8), 8443⟩] ∧
    ∃ failure, resolve unaryTexts samplePolicy sampleBilling
      (.system (some [.v4 (ipv4 8 8 8 8), .v4 (ipv4 10 20 30 41)])) = .error failure := by
  refine ⟨by decide, ?_⟩
  have hconfigure : configure (fun _ _ => some sampleBilling) unaryTexts sampleCalls =
      .ok samplePolicy := rfl
  refine (resolve_dialed hconfigure sampleBilling _).2.1 _ (.v4 (ipv4 10 20 30 41)) rfl (by decide) ?_
  rintro (hordinary | ⟨text, named, url, hcall, hnamed, -⟩)
  · exact hordinary (ipv4 10 0 0 0, 8) (by decide) (by decide)
  · rcases List.mem_cons.mp hcall with hcall | hcall
    · cases hcall
      exact absurd hnamed (by decide)
    · cases List.mem_singleton.mp hcall

end Camber.Client
