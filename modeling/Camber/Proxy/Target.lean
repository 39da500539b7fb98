import Camber.Lib.Hex
import Camber.Lib.Text
import Camber.Routing.Selection

/-! A proxy is mounted under a path prefix by two patterns, the prefix itself and everything beneath
it, for every method. -/

namespace Camber.Proxy

open Str Routing

abbrev hexDigit : UInt8 → Option UInt8 := Hex.value

def decodeHexPair (hi lo : UInt8) : Option UInt8 :=
  (hexDigit hi).bind fun h => (hexDigit lo).map fun l => h <<< 4 ||| l

def decodePairs : Bytes → Text
  | b :: hi :: lo :: rest =>
    match if b = 37 then decodeHexPair hi lo else none with
    | some c => Char.ofNat c.toNat :: decodePairs rest
    | none => Char.ofNat b.toNat :: decodePairs (hi :: lo :: rest)
  | b :: rest => Char.ofNat b.toNat :: decodePairs rest
  | [] => []

def percentDecodeOnce (input : Text) : Text :=
  if input.contains '%' then decodePairs (encode input) else input

def percentDecodeSegment (input : Text) : Text :=
  if input.contains '%' then percentDecodeOnce (percentDecodeOnce input) else input

def isDotDot (segment : Text) : Bool := percentDecodeSegment segment = "..".toList

def remainder (pathPrefix path : Text) : Text :=
  match path.dropPrefix? pathPrefix with
  | some [] => "/".toList
  | some rest => rest
  | none => path

def queryText : Option Text → Text
  | none => []
  | some query => '?' :: query

def splitQuery (pathAndQuery : Text) : Text × Option Text :=
  match splitOnce '?' pathAndQuery with
  | some (path, query) => (path, some query)
  | none => (pathAndQuery, none)

def stripPrefix (pathAndQuery pathPrefix : Text) : Option Text :=
  let (path, query) := splitQuery pathAndQuery
  let remainder := remainder pathPrefix path
  if (splitSlices 0 remainder).any fun piece => isDotDot piece.text then none
  else some (remainder ++ queryText query)

inductive ProxyFailure where
  | unbuildableTarget (detail : Text)
deriving DecidableEq

def traversalSegment : Text := "the request path contains a traversal segment".toList

def targetUrl (backend pathPrefix pathAndQuery : Text) : Except ProxyFailure Text :=
  match stripPrefix pathAndQuery pathPrefix with
  | some rest => .ok (backend ++ rest)
  | none => .error (.unbuildableTarget traversalSegment)

structure PrefixPatterns where
  wildcard : Text
  exact : Text

def PrefixPatterns.under (pathPrefix capture : Text) : PrefixPatterns where
  wildcard := pathPrefix ++ "/*".toList ++ capture
  exact := if pathPrefix.isEmpty then "/".toList else pathPrefix

/-- One call of proxy registration, buffered or streaming. -/
structure Mount (H : Type) where
  streaming : Bool
  pathPrefix : Text
  backend : Text
  upstream : H

namespace Mount

variable {H : Type}

def routeHandler (mount : Mount H) : RouteHandler H :=
  if mount.streaming then .proxyStream mount.backend mount.pathPrefix mount.upstream
  else .proxy mount.backend mount.pathPrefix mount.upstream

def patterns (mount : Mount H) : PrefixPatterns :=
  .under mount.pathPrefix "proxy_path".toList

def insertProxyRoutes (mount : Mount H) : List (Registration H) :=
  canonicalMethods.flatMap fun method =>
    [⟨method, mount.patterns.wildcard, mount.routeHandler⟩,
      ⟨method, mount.patterns.exact, mount.routeHandler⟩]

end Mount

theorem splitQuery_queryText {path : Text} (h : '?' ∉ path) (query : Option Text) :
    splitQuery (path ++ queryText query) = (path, query) := by
  cases query with
  | none =>
    rw [splitQuery, queryText, List.append_nil, splitOnce_eq_none h]
  | some query =>
    rw [splitQuery, queryText, splitOnce_append h]

theorem targetUrl_eq_ok {backend pathPrefix path : Text} {query : Option Text} {url : Text}
    (hpath : '?' ∉ path) (h : targetUrl backend pathPrefix (path ++ queryText query) = .ok url) :
    url = backend ++ remainder pathPrefix path ++ queryText query := by
  rw [targetUrl, stripPrefix, splitQuery_queryText hpath] at h
  simp only at h
  split_ifs at h
  rw [← Except.ok.inj h, List.append_assoc]

theorem remainder_append (pathPrefix rest : Text) :
    remainder pathPrefix (pathPrefix ++ rest) = if rest = [] then ['/'] else rest := by
  have h : (pathPrefix ++ rest).dropPrefix? pathPrefix = some rest :=
    List.dropPrefix?_eq_some_iff.mpr ⟨pathPrefix, rfl, by simp⟩
  rw [remainder, h]
  cases rest <;> rfl

theorem remainder_of_not_isPrefix {pathPrefix path : Text} (h : ¬ pathPrefix <+: path) :
    remainder pathPrefix path = path := by
  have hnone : path.dropPrefix? pathPrefix = none := by
    by_contra hne
    obtain ⟨rest, hrest⟩ := Option.ne_none_iff_exists'.mp hne
    obtain ⟨start, rfl, hstart⟩ := List.dropPrefix?_eq_some_iff.mp hrest
    exact h ⟨rest, by rw [beq_iff_eq.mp hstart]⟩
  rw [remainder, hnone]

end Camber.Proxy
