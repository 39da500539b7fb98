import Camber.Client.Redirect
import Camber.Lib.Primitive
import Camber.Lib.Roster

/-! A policy decides whether one target may be dialed at one address: it reads the scheme, then the
address, then the exact exceptions. -/

namespace Camber.Client
open Str Block

inductive IpAddr where
  | v4 (address : BitVec 32)
  | v6 (address : BitVec 128)
deriving DecidableEq

def ipv4 (a b c d : ℕ) : BitVec 32 := BitVec.ofNat 32 (((a * 256 + b) * 256 + c) * 256 + d)

def ipv6 (a b : ℕ) : BitVec 128 := BitVec.ofNat 128 ((a * 65536 + b) * 2 ^ 96)

namespace IpAddr

def toCanonical : IpAddr → IpAddr
  | v4 a => v4 a
  | v6 a => if a >>> 32 = 0xffff then v4 (a.setWidth 32) else v6 a

theorem toCanonical_toCanonical (a : IpAddr) : a.toCanonical.toCanonical = a.toCanonical := by
  cases a with
  | v4 a => rfl
  | v6 a =>
    by_cases h : a >>> 32 = 0xffff
    · simp only [toCanonical, h, if_true]
    · simp only [toCanonical, h, if_false]

def isUnspecified : IpAddr → Bool
  | v4 a => a = 0
  | v6 a => a = 0

def isMulticast : IpAddr → Bool
  | v4 a => 224 ≤ a >>> 24 && a >>> 24 ≤ 239
  | v6 a => a >>> 120 = 0xff

def isBroadcast : IpAddr → Bool
  | v4 a => a = 0xffffffff
  | v6 _ => false

end IpAddr

def v4Refused : List (BitVec 32 × ℕ) :=
  [(ipv4 0 0 0 0, 8), (ipv4 10 0 0 0, 8), (ipv4 100 64 0 0, 10), (ipv4 127 0 0 0, 8),
    (ipv4 169 254 0 0, 16), (ipv4 172 16 0 0, 12), (ipv4 192 0 0 0, 24), (ipv4 192 0 2 0, 24),
    (ipv4 192 88 99 0, 24), (ipv4 192 168 0 0, 16), (ipv4 198 18 0 0, 15), (ipv4 198 51 100 0, 24),
    (ipv4 203 0 113 0, 24), (ipv4 224 0 0 0, 4), (ipv4 240 0 0 0, 4)]

def v6Public : BitVec 128 × ℕ := (ipv6 0x2000 0, 3)

def v6Refused : List (BitVec 128 × ℕ) :=
  [(ipv6 0x2001 0, 23), (ipv6 0x2001 0x0db8, 32), (ipv6 0x2002 0, 16), (ipv6 0x3fff 0, 20)]

def isRefusedByDefault : IpAddr → Bool
  | .v4 a => v4Refused.any fun network => holds network a
  | .v6 a => !holds v6Public a || v6Refused.any fun network => holds network a

def isUnexceptable (a : IpAddr) : Bool := a.isUnspecified || a.isMulticast || a.isBroadcast

def Ordinary : IpAddr → Prop
  | .v4 a => ∀ network ∈ v4Refused, ¬ Within network a
  | .v6 a => Within v6Public a ∧ ∀ network ∈ v6Refused, ¬ Within network a

theorem isRefusedByDefault_eq_false {a : IpAddr} : isRefusedByDefault a = false ↔ Ordinary a := by
  have hv4 : ∀ network ∈ v4Refused, Aligned network := by decide
  have hpublic : Aligned v6Public := by decide
  have hv6 : ∀ network ∈ v6Refused, Aligned network := by decide
  cases a with
  | v4 a =>
    rw [isRefusedByDefault, List.any_eq_false, Ordinary]
    refine forall₂_congr fun network hnetwork => ?_
    rw [holds_iff_within (hv4 network hnetwork)]
  | v6 a =>
    rw [isRefusedByDefault, Bool.or_eq_false_iff, Bool.not_eq_false', List.any_eq_false, Ordinary,
      holds_iff_within hpublic]
    refine and_congr_right fun _ => forall₂_congr fun network hnetwork => ?_
    rw [holds_iff_within (hv6 network hnetwork)]

theorem Ordinary.exceptable {a : IpAddr} (h : Ordinary a) : isUnexceptable a = false := by
  rw [Bool.eq_false_iff]
  intro hany
  rw [isUnexceptable, Bool.or_eq_true, Bool.or_eq_true] at hany
  cases a with
  | v4 a =>
    have hzero := h (ipv4 0 0 0 0, 8) (by decide)
    have hmulti := h (ipv4 224 0 0 0, 4) (by decide)
    have hlast := h (ipv4 240 0 0 0, 4) (by decide)
    simp only [Within, ipv4, BitVec.toNat_ofNat] at hzero hmulti hlast
    rcases hany with (hany | hany) | hany
    · obtain rfl : a = 0 := of_decide_eq_true hany
      exact hzero (by decide)
    · simp only [IpAddr.isMulticast, Bool.and_eq_true, decide_eq_true_eq, BitVec.le_def,
        BitVec.toNat_ushiftRight, Nat.shiftRight_eq_div_pow] at hany
      have hleast : 224 ≤ a.toNat / 2 ^ 24 := hany.1
      have hmost : a.toNat / 2 ^ 24 ≤ 239 := hany.2
      omega
    · obtain rfl : a = 0xffffffff := of_decide_eq_true hany
      exact hlast (by decide)
  | v6 a =>
    have hpublic := h.1
    simp only [Within, v6Public, ipv6, BitVec.toNat_ofNat] at hpublic
    rcases hany with (hany | hany) | hany
    · obtain rfl : a = 0 := of_decide_eq_true hany
      exact absurd hpublic (by decide)
    · have hbits := congrArg BitVec.toNat (of_decide_eq_true hany)
      rw [BitVec.toNat_ushiftRight, Nat.shiftRight_eq_div_pow] at hbits
      have hfirst : a.toNat / 2 ^ 120 = 255 := hbits
      omega
    · cases hany

def unbracketed (text : Text) : Text :=
  ((stripPrefixChar '[' text).bind (stripSuffixChar ']')).getD text

def Host.address : Host → Option IpAddr
  | .domain _ => none
  | .ipv4 a => some (.v4 (BitVec.ofNat 32 a))
  | .ipv6 a => some (.v6 (BitVec.ofNat 128 a))

structure HostText where
  render : Host → Text
  parse : Text → Option IpAddr
  parse_render : ∀ host address, host.address = some address →
    parse (unbracketed (render host)) = some address

inductive OriginHost where
  | name (name : Text)
  | literal (address : IpAddr)
deriving DecidableEq

structure Origin where
  secure : Bool
  host : OriginHost
  port : ℕ
deriving DecidableEq

def Origin.reaches (origin : Origin) (address : IpAddr) : Bool :=
  match origin.host with
  | .name _ => true
  | .literal literal => literal = address

def secureScheme (url : Url) : Option Bool :=
  if url.scheme = https then some true else if url.scheme = http then some false else none

namespace HostText

variable (texts : HostText)

def literal (text : Text) : Option IpAddr := (texts.parse (unbracketed text)).map IpAddr.toCanonical

def originHost (text : Text) : OriginHost :=
  match texts.literal text with
  | some address => .literal address
  | none => .name ((stripSuffixChar '.' text).getD text)

def literalAddress (target : Url) : Option IpAddr :=
  target.host.bind fun host => texts.literal (texts.render host)

def originOf (url : Url) : Option Origin :=
  (secureScheme url).bind fun secure => url.host.bind fun host =>
    url.portOrKnownDefault.map fun port => ⟨secure, texts.originHost (texts.render host), port⟩

variable {texts}

theorem literalAddress_of_address {target : Url} {address : IpAddr}
    (h : target.host.bind Host.address = some address) :
    texts.literalAddress target = some address.toCanonical := by
  obtain ⟨host, hhost, haddress⟩ := Option.bind_eq_some_iff.mp h
  rw [literalAddress, hhost, Option.bind_some, literal, texts.parse_render host address haddress,
    Option.map_some]

theorem originOf_eq_some {url : Url} {origin : Origin} :
    texts.originOf url = some origin ↔
      secureScheme url = some origin.secure ∧
        url.host.map (fun host => texts.originHost (texts.render host)) = some origin.host ∧
          url.portOrKnownDefault = some origin.port := by
  simp only [originOf, Option.bind_eq_some_iff, Option.map_eq_some_iff]
  constructor
  · rintro ⟨secure, hsecure, host, hhost, port, hport, rfl⟩
    exact ⟨hsecure, ⟨host, hhost, rfl⟩, hport⟩
  · rintro ⟨hsecure, ⟨host, hhost, hname⟩, hport⟩
    refine ⟨origin.secure, hsecure, host, hhost, origin.port, hport, ?_⟩
    rw [hname]

end HostText

def bareOrigin (parse : UrlParser) (text : Text) : Option Url :=
  (parsedUrl parse text none).bind fun url =>
    if url.username.isEmpty && url.password.isNone && url.query.isNone && url.fragment.isNone &&
        url.path = "/".toList then
      (sendable url).map Subtype.val
    else none

structure Exception where
  origin : Origin
  address : IpAddr
  canonical : address.toCanonical = address
  single : isUnexceptable address = false
  reached : origin.reaches address = true
deriving DecidableEq

inductive Addresses where
  | unrestricted
  | publicInternet (exceptions : List Exception)

/-- The destinations one outbound client may send to. -/
structure EgressPolicy where
  addresses : Addresses
  httpsOnly : Bool

inductive ClientEgress where
  | scheme
  | address
  | resolutionLimit

inductive EgressCall where
  | httpsOnly
  | allowDestination (origin : Text) (address : IpAddr)

section Decisions

variable (parse : UrlParser) (texts : HostText)

def exceptionOf (origin : Text) (address : IpAddr) : Option Exception :=
  ((bareOrigin parse origin).bind texts.originOf).bind fun named =>
    if h : isUnexceptable address.toCanonical = false ∧ named.reaches address.toCanonical = true then
      some ⟨named, address.toCanonical, address.toCanonical_toCanonical, h.1, h.2⟩
    else none

namespace EgressPolicy

def publicInternet : EgressPolicy := ⟨.publicInternet [], false⟩

def onlyHttps (policy : EgressPolicy) : EgressPolicy := { policy with httpsOnly := true }

def allowDestination (policy : EgressPolicy) (origin : Text) (address : IpAddr) :
    Except ClientError EgressPolicy :=
  match policy.addresses with
  | .unrestricted => .error .invalidRequest
  | .publicInternet exceptions =>
    match exceptionOf parse texts origin address with
    | none => .error .invalidRequest
    | some exception =>
      .ok { policy with addresses := .publicInternet (exceptions.pushNew exception) }

def call (policy : EgressPolicy) : EgressCall → Except ClientError EgressPolicy
  | .httpsOnly => .ok policy.onlyHttps
  | .allowDestination origin address => policy.allowDestination parse texts origin address

def sendsTo (policy : EgressPolicy) (secure : Bool) : Bool := secure || !policy.httpsOnly

def admittedOrigin (policy : EgressPolicy) (target : Url) : Except ClientEgress Origin :=
  match (texts.originOf target).filter fun origin => policy.sendsTo origin.secure with
  | some origin => .ok origin
  | none => .error .scheme

def admitted (policy : EgressPolicy) (origin : Origin) (address : IpAddr) : Bool :=
  match policy.addresses with
  | .unrestricted => true
  | .publicInternet exceptions =>
    (origin.reaches address && !isRefusedByDefault address) ||
      exceptions.any fun kept => kept.address = address && kept.origin = origin

def decideAt (policy : EgressPolicy) (origin : Origin) (address : IpAddr) :
    Except ClientEgress Unit :=
  if policy.admitted origin address.toCanonical then .ok () else .error .address

def decideEach (policy : EgressPolicy) (target : Url) (addresses : List IpAddr) :
    Except ClientEgress Unit := do
  let origin ← policy.admittedOrigin texts target
  addresses.forM (policy.decideAt origin)

end EgressPolicy

end Decisions

section Built

variable (parse : UrlParser) (texts : HostText)

def EgressPolicy.configure (calls : List EgressCall) : Except ClientError EgressPolicy :=
  calls.foldlM (EgressPolicy.call parse texts) .publicInternet

def Excepts (calls : List EgressCall) (exception : Exception) : Prop :=
  ∃ origin address, EgressCall.allowDestination origin address ∈ calls ∧
    exceptionOf parse texts origin address = some exception

structure EgressPolicy.Built (calls : List EgressCall) (policy : EgressPolicy)
    (exceptions : List Exception) : Prop where
  addresses : policy.addresses = .publicInternet exceptions
  kept : ∀ exception, exception ∈ exceptions ↔ Excepts parse texts calls exception
  secured : policy.httpsOnly = true ↔ EgressCall.httpsOnly ∈ calls

variable {parse texts}

variable {exception : Exception}

theorem excepts_append {calls more : List EgressCall} :
    Excepts parse texts (calls ++ more) exception ↔
      Excepts parse texts calls exception ∨ Excepts parse texts more exception := by
  simp only [Excepts, List.mem_append, or_and_right, exists_or]

theorem excepts_httpsOnly : ¬ Excepts parse texts [.httpsOnly] exception := by
  rintro ⟨origin, address, hmem, -⟩
  cases List.mem_singleton.mp hmem

theorem excepts_allowDestination {origin : Text} {address : IpAddr} :
    Excepts parse texts [.allowDestination origin address] exception ↔
      exceptionOf parse texts origin address = some exception := by
  constructor
  · rintro ⟨origin', address', hmem, hexception⟩
    cases List.mem_singleton.mp hmem
    exact hexception
  · intro hexception
    exact ⟨origin, address, List.mem_singleton_self _, hexception⟩

namespace EgressPolicy

variable {policy changed : EgressPolicy} {calls : List EgressCall} {exceptions : List Exception}

theorem Built.call (h : Built parse texts calls policy exceptions) {call : EgressCall}
    (hcall : policy.call parse texts call = .ok changed) :
    ∃ exceptions, Built parse texts (calls ++ [call]) changed exceptions := by
  cases call with
  | httpsOnly =>
    obtain rfl : policy.onlyHttps = changed := Except.ok.inj hcall
    refine ⟨exceptions, h.addresses, fun exception => ?_, ?_⟩
    · rw [h.kept, excepts_append, or_iff_left excepts_httpsOnly]
    · simp [onlyHttps]
  | allowDestination origin address =>
    simp only [EgressPolicy.call, allowDestination, h.addresses] at hcall
    cases hnamed : exceptionOf parse texts origin address with
    | none =>
      rw [hnamed] at hcall
      cases hcall
    | some named =>
      rw [hnamed] at hcall
      obtain rfl := Except.ok.inj hcall
      refine ⟨exceptions.pushNew named, rfl, fun exception => ?_, ?_⟩
      · rw [List.mem_pushNew, h.kept, excepts_append, excepts_allowDestination, hnamed,
          Option.some_inj, eq_comm (a := named)]
      · simp [h.secured]

theorem configure_append_singleton (calls : List EgressCall) (call : EgressCall) :
    configure parse texts (calls ++ [call]) =
      configure parse texts calls >>= fun policy => policy.call parse texts call := by
  simp [configure, List.foldlM_append]

theorem built_of_configure (h : configure parse texts calls = .ok policy) :
    ∃ exceptions, Built parse texts calls policy exceptions := by
  induction calls using List.reverseRecOn generalizing policy with
  | nil =>
    obtain rfl : publicInternet = policy := Except.ok.inj h
    refine ⟨[], rfl, fun exception => ?_, ?_⟩
    · simp [Excepts]
    · simp [publicInternet]
  | append_singleton calls call ih =>
    rw [configure_append_singleton] at h
    obtain ⟨before, hbefore, hcall⟩ := Except.bind_ok_iff.mp h
    obtain ⟨exceptions, hbuilt⟩ := ih hbefore
    exact hbuilt.call hcall

theorem Built.call_isOk (h : Built parse texts calls policy exceptions) {call : EgressCall} :
    (∃ changed, policy.call parse texts call = .ok changed) ↔
      ∀ origin address, call = .allowDestination origin address →
        (exceptionOf parse texts origin address).isSome := by
  cases call with
  | httpsOnly => simp [EgressPolicy.call]
  | allowDestination origin address =>
    simp only [EgressPolicy.call, allowDestination, h.addresses, EgressCall.allowDestination.injEq]
    cases hnamed : exceptionOf parse texts origin address with
    | none => simp [hnamed]
    | some named => simp [hnamed]

theorem configure_isOk :
    (∃ policy, configure parse texts calls = .ok policy) ↔
      ∀ origin address, EgressCall.allowDestination origin address ∈ calls →
        (exceptionOf parse texts origin address).isSome := by
  induction calls using List.reverseRecOn with
  | nil => exact ⟨fun _ _ _ hmem => absurd hmem List.not_mem_nil, fun _ => ⟨publicInternet, rfl⟩⟩
  | append_singleton calls call ih =>
    simp only [configure_append_singleton, Except.bind_ok_iff, List.mem_append, List.mem_singleton]
    constructor
    · rintro ⟨changed, policy, hpolicy, hcall⟩ origin address (hmem | rfl)
      · exact ih.mp ⟨policy, hpolicy⟩ origin address hmem
      · obtain ⟨exceptions, hbuilt⟩ := built_of_configure hpolicy
        exact hbuilt.call_isOk.mp ⟨changed, hcall⟩ origin address rfl
    · intro hnames
      obtain ⟨policy, hpolicy⟩ := ih.mpr fun origin address hmem => hnames origin address (.inl hmem)
      obtain ⟨exceptions, hbuilt⟩ := built_of_configure hpolicy
      obtain ⟨changed, hcall⟩ := hbuilt.call_isOk.mpr fun origin address hmade =>
        hnames origin address (.inr hmade.symm)
      exact ⟨changed, policy, hpolicy, hcall⟩

variable {origin : Origin}

theorem decideAt_eq_ok {address : IpAddr} :
    policy.decideAt origin address = .ok () ↔
      policy.admitted origin address.toCanonical = true := by
  rw [decideAt]
  split_ifs with h <;> simp [h]

theorem Built.admitted_iff (h : Built parse texts calls policy exceptions) {address : IpAddr} :
    policy.admitted origin address = true ↔
      (origin.reaches address = true ∧ Ordinary address) ∨
        ∃ exception, Excepts parse texts calls exception ∧
          exception.address = address ∧ exception.origin = origin := by
  simp [admitted, h.addresses, isRefusedByDefault_eq_false, h.kept]

variable {calls' : List EgressCall} {policy' : EgressPolicy} {exceptions' : List Exception}

theorem excepts_congr (hsame : ∀ call, call ∈ calls' ↔ call ∈ calls) (exception : Exception) :
    Excepts parse texts calls' exception ↔ Excepts parse texts calls exception := by
  simp only [Excepts, hsame]

section

variable (h : Built parse texts calls policy exceptions)

include h

theorem Built.admitted_congr (h' : Built parse texts calls' policy' exceptions')
    (hsame : ∀ call, call ∈ calls' ↔ call ∈ calls) (origin : Origin) (address : IpAddr) :
    policy'.admitted origin address = policy.admitted origin address := by
  rw [Bool.eq_iff_iff, h'.admitted_iff, h.admitted_iff]
  simp only [excepts_congr hsame]

theorem Built.httpsOnly_congr (h' : Built parse texts calls' policy' exceptions')
    (hsame : ∀ call, call ∈ calls' ↔ call ∈ calls) : policy'.httpsOnly = policy.httpsOnly := by
  rw [Bool.eq_iff_iff, h'.secured, h.secured, hsame]

theorem Built.decideEach_congr (h' : Built parse texts calls' policy' exceptions')
    (hsame : ∀ call, call ∈ calls' ↔ call ∈ calls) (target : Url) (addresses : List IpAddr) :
    policy'.decideEach texts target addresses = policy.decideEach texts target addresses := by
  have horigin : policy'.admittedOrigin texts target = policy.admittedOrigin texts target := by
    simp only [admittedOrigin, sendsTo, h.httpsOnly_congr h' hsame]
  have hdecide : ∀ origin, policy'.decideAt origin = policy.decideAt origin := by
    intro origin
    funext address
    rw [decideAt, decideAt, h.admitted_congr h' hsame]
  simp only [decideEach, horigin, hdecide]

end

theorem decideEach_eq_ok {target : Url} {addresses : List IpAddr} :
    policy.decideEach texts target addresses = .ok () ↔
      ∃ origin, policy.admittedOrigin texts target = .ok origin ∧
        ∀ address ∈ addresses, policy.decideAt origin address = .ok () := by
  rw [decideEach, Except.bind_ok_iff]
  refine exists_congr fun origin => and_congr_right fun _ => ?_
  induction addresses with
  | nil => simp [pure, Except.pure]
  | cons address addresses ih =>
    rw [List.forM, Except.bind_ok_iff, List.forall_mem_cons, ← ih]
    exact ⟨fun ⟨_, hfirst, hrest⟩ => ⟨hfirst, hrest⟩, fun ⟨hfirst, hrest⟩ => ⟨(), hfirst, hrest⟩⟩

theorem admittedOrigin_eq_ok {target : Url} :
    policy.admittedOrigin texts target = .ok origin ↔
      texts.originOf target = some origin ∧ policy.sendsTo origin.secure = true := by
  rw [admittedOrigin]
  cases horigin : (texts.originOf target).filter fun origin => policy.sendsTo origin.secure with
  | none =>
    simp only [Option.filter_eq_none_iff] at horigin
    constructor
    · intro h
      cases h
    · rintro ⟨hread, hsends⟩
      exact absurd hsends (horigin origin hread)
  | some read =>
    obtain ⟨hread, hsends⟩ := Option.filter_eq_some_iff.mp horigin
    constructor
    · intro h
      obtain rfl := Except.ok.inj h
      exact ⟨hread, hsends⟩
    · rintro ⟨hsame, -⟩
      rw [hread, Option.some_inj] at hsame
      rw [hsame]

end EgressPolicy

end Built

end Camber.Client
