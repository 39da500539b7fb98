import Camber.Lib.Primitive

/-! What one call sends: a method, a target, headers with their sensitivity and a body. -/

namespace Camber.Client

open Str

inductive Host where
  | domain (name : Text)
  | ipv4 (address : ℕ)
  | ipv6 (address : ℕ)
deriving DecidableEq

structure Url where
  scheme : Text
  username : Text
  password : Option Text
  host : Option Host
  port : Option ℕ
  path : Text
  query : Option Text
  fragment : Option Text

abbrev UrlParser := Text → Option Url → Option Url

def http : Text := "http".toList

def https : Text := "https".toList

def knownDefaultPort (scheme : Text) : Option ℕ :=
  if scheme = http ∨ scheme = "ws".toList then some 80
  else if scheme = https ∨ scheme = "wss".toList then some 443
  else if scheme = "ftp".toList then some 21
  else none

def Url.portOrKnownDefault (url : Url) : Option ℕ := url.port.or (knownDefaultPort url.scheme)

def isSendable (target : Url) : Bool :=
  (target.scheme = http || target.scheme = https) && target.host.isSome &&
    target.username.isEmpty && target.password.isNone

abbrev Target := { url : Url // isSendable url = true }

def isAsciiControl (c : Char) : Bool := c.toNat < 32 || c.toNat == 127

def parsedUrl (parse : UrlParser) (text : Text) (base : Option Url) : Option Url :=
  if text.any isAsciiControl then none else parse text base

def sameOrigin (a b : Url) : Bool :=
  match a.host, a.portOrKnownDefault with
  | some host, some port =>
    a.scheme = b.scheme && b.host = some host && b.portOrKnownDefault = some port
  | _, _ => false

def sendable (target : Url) : Option Target :=
  if h : isSendable target then some ⟨{ target with fragment := none }, h⟩ else none

structure Header where
  name : Text
  value : Bytes
  sensitive : Bool

abbrev HeaderMap := List Header

namespace HeaderMap

def getAll (headers : HeaderMap) (name : Text) : HeaderMap := headers.filter (·.name = name)

def remove (headers : HeaderMap) (name : Text) : HeaderMap := headers.filter (·.name ≠ name)

end HeaderMap

def authorization : Text := "authorization".toList

def cookie : Text := "cookie".toList

def contentType : Text := "content-type".toList

def location : Text := "location".toList

def alwaysSensitive : List Text := [authorization, cookie]

/-- One request as every attempt of it is sent. -/
structure Description where
  method : Text
  url : Target
  headers : HeaderMap
  body : Bytes
  responseLimit : Option ℕ

namespace Description

def sensitiveNames (headers : HeaderMap) : List Text :=
  (headers.filter fun header => alwaysSensitive.contains header.name || header.sensitive).map
    Header.name

def retarget (d : Description) (url : Target) : Description := { d with url }

def stripCredentials (d : Description) : Description :=
  { d with headers := (sensitiveNames d.headers).foldl HeaderMap.remove d.headers }

def becomeBodiless (d : Description) (method : Text) : Description :=
  { d with method, body := [], headers := d.headers.remove contentType }

end Description

/-- One request as the transport is given it. -/
structure Send where
  method : Text
  url : Url
  headers : HeaderMap
  body : Bytes

def Description.send (d : Description) : Send := ⟨d.method, d.url, d.headers, d.body⟩

def Send.carries (send : Send) (name : Text) : Bool :=
  send.headers.any (·.name = name) ||
    (name = authorization && !(send.url.username.isEmpty && send.url.password.isNone))

theorem sameOrigin_iff {a b : Url} :
    sameOrigin a b ↔ a.host.isSome ∧ a.portOrKnownDefault.isSome ∧ a.scheme = b.scheme ∧
      a.host = b.host ∧ a.portOrKnownDefault = b.portOrKnownDefault := by
  rw [sameOrigin]
  cases ha : a.host with
  | none => simp
  | some host =>
    cases hp : a.portOrKnownDefault with
    | none => simp
    | some port =>
      simp only [Bool.and_eq_true, decide_eq_true_eq, Option.isSome_some, true_and]
      constructor
      · rintro ⟨⟨hs, hh⟩, hq⟩
        exact ⟨hs, hh.symm, hq.symm⟩
      · rintro ⟨hs, hh, hq⟩
        exact ⟨⟨hs, hh.symm⟩, hq.symm⟩

variable {url : Url}

theorem isSendable_scheme (h : isSendable url) : url.scheme = http ∨ url.scheme = https := by
  simp only [isSendable, Bool.and_eq_true, Bool.or_eq_true, decide_eq_true_eq] at h
  exact h.1.1.1

theorem isSendable_credentials (h : isSendable url) :
    url.username.isEmpty ∧ url.password.isNone := by
  simp only [isSendable, Bool.and_eq_true] at h
  exact ⟨h.1.2, h.2⟩

theorem sameOrigin_self (target : Target) : sameOrigin target target := by
  obtain ⟨url, h⟩ := target
  have hport : url.portOrKnownDefault.isSome := by
    rcases isSendable_scheme h with hs | hs
    · cases hp : url.port <;> simp [Url.portOrKnownDefault, hp, hs, knownDefaultPort]
    · cases hp : url.port <;> simp [Url.portOrKnownDefault, hp, hs, knownDefaultPort, http, https]
  simp only [isSendable, Bool.and_eq_true] at h
  exact sameOrigin_iff.mpr ⟨h.1.1.2, hport, rfl, rfl, rfl⟩

theorem sendable_eq_some {target : Target} (h : sendable url = some target) :
    (target : Url) = { url with fragment := none } := by
  rw [sendable] at h
  split_ifs at h
  rw [← Option.some.inj h]

namespace HeaderMap

theorem getAll_remove (headers : HeaderMap) (removed name : Text) :
    (headers.remove removed).getAll name = if name = removed then [] else headers.getAll name := by
  rw [remove, getAll, List.filter_filter, getAll]
  split_ifs with h
  · subst h
    simp
  · refine List.filter_congr fun header _ => ?_
    by_cases hn : header.name = name
    · simp [hn, h]
    · simp [hn]

theorem getAll_foldl_remove (names : List Text) (headers : HeaderMap) (name : Text) :
    (names.foldl remove headers).getAll name =
      if name ∈ names then [] else headers.getAll name := by
  induction names generalizing headers with
  | nil => simp
  | cons removed names ih =>
    rw [List.foldl_cons, ih, getAll_remove]
    by_cases hn : name = removed
    · simp [hn]
    · simp [hn]

theorem getAll_eq_nil_iff {headers : HeaderMap} {name : Text} :
    headers.getAll name = [] ↔ ∀ header ∈ headers, header.name ≠ name := by
  simp [getAll, List.filter_eq_nil_iff]

end HeaderMap

namespace Description

def Credential (d : Description) (name : Text) : Prop :=
  name ∈ alwaysSensitive ∨ ∃ header ∈ d.headers.getAll name, header.sensitive

theorem getAll_stripCredentials (d : Description) (name : Text) :
    d.stripCredentials.headers.getAll name =
      if name ∈ sensitiveNames d.headers then [] else d.headers.getAll name :=
  HeaderMap.getAll_foldl_remove _ _ _

variable {name : Text}

theorem mem_sensitiveNames {headers : HeaderMap} :
    name ∈ sensitiveNames headers ↔
      ∃ header ∈ headers.getAll name, name ∈ alwaysSensitive ∨ header.sensitive := by
  simp only [sensitiveNames, HeaderMap.getAll, List.mem_map, List.mem_filter, Bool.or_eq_true,
    List.contains_iff_mem, decide_eq_true_eq]
  constructor
  · rintro ⟨header, ⟨hmem, hs⟩, rfl⟩
    exact ⟨header, ⟨hmem, rfl⟩, hs⟩
  · rintro ⟨header, ⟨hmem, rfl⟩, hs⟩
    exact ⟨header, ⟨hmem, hs⟩, rfl⟩

theorem credential_of_mem_sensitiveNames {d : Description} (h : name ∈ sensitiveNames d.headers) :
    d.Credential name := by
  obtain ⟨header, hheader, halways | hs⟩ := mem_sensitiveNames.mp h
  · exact .inl halways
  · exact .inr ⟨header, hheader, hs⟩

theorem mem_sensitiveNames_of_credential {d : Description} (h : d.Credential name)
    (hne : d.headers.getAll name ≠ []) : name ∈ sensitiveNames d.headers := by
  obtain ⟨header, hheader⟩ := List.exists_mem_of_ne_nil _ hne
  rcases h with halways | ⟨marked, hmarked, hs⟩
  · exact mem_sensitiveNames.mpr ⟨header, hheader, .inl halways⟩
  · exact mem_sensitiveNames.mpr ⟨marked, hmarked, .inr hs⟩

end Description

end Camber.Client
