import Mathlib.Data.Char
import Camber.Lib.SortedMap
import Camber.Routing.Path

/-! Registration walks a mutable trie whose nodes merge every pattern that matches alike. -/

namespace Camber.Routing

open Str

inductive Method where
  | get
  | post
  | put
  | delete
  | patch
  | head
  | options
deriving DecidableEq

namespace Method

def asStr : Method → Text
  | get => "GET".toList
  | post => "POST".toList
  | put => "PUT".toList
  | delete => "DELETE".toList
  | patch => "PATCH".toList
  | head => "HEAD".toList
  | options => "OPTIONS".toList

def ordinal : Method → ℕ
  | get => 0
  | post => 1
  | put => 2
  | delete => 3
  | patch => 4
  | head => 5
  | options => 6

end Method

def canonicalMethods : List Method :=
  [.get, .head, .post, .put, .patch, .delete, .options]

inductive RouteHandler (H : Type) where
  | async (handler : H)
  | stream (handler : H)
  | sse (handler : H)
  | multipart (handler : H)
  | webSocket (handler : H)
  | proxy (backend pathPrefix : Text) (upstream : H)
  | proxyStream (backend pathPrefix : Text) (upstream : H)
deriving DecidableEq

def RouteHandler.answersHead {H : Type} : RouteHandler H → Bool
  | async _ | stream _ | sse _ | proxy _ _ _ | proxyStream _ _ _ => true
  | webSocket _ => true
  | multipart _ => false

inductive Segment where
  | static (name : Text)
  | param (name : Text)
  | wildcard (name : Text)
deriving DecidableEq

def Segment.render : Segment → Text
  | static name => name
  | param name => ':' :: name
  | wildcard name => '*' :: name

def parseSegment (text : Text) : Segment :=
  match stripPrefixChar '*' text, stripPrefixChar ':' text with
  | some name, _ => .wildcard name
  | none, some name => .param name
  | none, none => .static text

def parseSegments (path : Text) : List Segment := (pathTexts path).map parseSegment

def normalizeRoute (segments : List Segment) : Text :=
  if segments.isEmpty then "/".toList
  else segments.foldl (fun pattern segment => pattern ++ '/' :: segment.render) []

def Segment.captureName : Segment → Option Text
  | static _ => none
  | param name | wildcard name => some name

structure RegisteredHandler (H : Type) where
  method : Method
  handler : RouteHandler H
  captureNames : List Text
  route : Text

/-- Mutable trie node used during route registration. -/
structure TrieNode (H : Type) where
  staticChildren : List (Text × TrieNode H)
  paramChild : Option (TrieNode H)
  wildcard : Option (List (RegisteredHandler H))
  handlers : List (RegisteredHandler H)

namespace TrieNode

variable {H : Type}

def new : TrieNode H := ⟨[], none, none, []⟩

def insertSegments (registered : RegisteredHandler H) : List Segment → TrieNode H → TrieNode H
  | [], node => { node with handlers := node.handlers ++ [registered] }
  | .static name :: rest, node =>
    { node with
      staticChildren :=
        SortedMap.entry name new (insertSegments registered rest) node.staticChildren }
  | .param _ :: rest, node =>
    { node with paramChild := some (insertSegments registered rest (node.paramChild.getD new)) }
  | .wildcard _ :: _, node =>
    { node with wildcard := some (node.wildcard.getD [] ++ [registered]) }

def insertRoute (node : TrieNode H) (method : Method) (path : Text) (handler : RouteHandler H) :
    TrieNode H :=
  let segments := parseSegments path
  insertSegments
    { method, handler,
      captureNames := segments.filterMap Segment.captureName,
      route := normalizeRoute segments }
    segments node

end TrieNode

structure FrozenHandler (H : Type) where
  handler : RouteHandler H
  captureNames : List Text
  route : Text

abbrev MethodSlots (H : Type) := Method → Option (FrozenHandler H)

structure Claimed where
  route : Text
  allow : Text
  served : UInt8

structure FrozenMethodHandlers (H : Type) where
  byMethod : MethodSlots H
  claimed : Option Claimed

section Slots

variable {H : Type}

def headFromGet (byMethod : MethodSlots H) : Option (FrozenHandler H) :=
  (byMethod .get).bind fun registered =>
    if registered.handler.answersHead then some registered else none

def selectSlot (byMethod : MethodSlots H) (method : Method) : Option (FrozenHandler H) :=
  (byMethod method).or
    (match method with
    | .head => headFromGet byMethod
    | _ => none)

def slotServes (byMethod : MethodSlots H) (method : Method) : Bool :=
  (selectSlot byMethod method).isSome

def methodBit (method : Method) : UInt8 := 1 <<< UInt8.ofNat method.ordinal

def servedMask (byMethod : MethodSlots H) : UInt8 :=
  (canonicalMethods.filter (slotServes byMethod)).foldl (fun mask method => mask ||| methodBit method) 0

def renderAllow (served : UInt8) : Text :=
  (canonicalMethods.filter fun method => served &&& methodBit method ≠ 0).foldl
    (fun rendered method =>
      rendered ++ (if rendered.isEmpty then [] else ", ".toList) ++ method.asStr) []

def freezeClaim (byMethod : MethodSlots H) : Option Claimed :=
  (canonicalMethods.findSome? byMethod).map fun handler =>
    let served := servedMask byMethod
    { route := handler.route, allow := renderAllow served, served }

def RegisteredHandler.freeze (entry : RegisteredHandler H) : FrozenHandler H :=
  ⟨entry.handler, entry.captureNames, entry.route⟩

def freezeSlots (registered : List (RegisteredHandler H)) : MethodSlots H :=
  registered.foldl (fun slots entry => Function.update slots entry.method (some entry.freeze))
    fun _ => none

def freezeHandlers (registered : List (RegisteredHandler H)) : FrozenMethodHandlers H :=
  let byMethod := freezeSlots registered
  { byMethod, claimed := freezeClaim byMethod }

end Slots

/-- Immutable trie node for request dispatch. -/
structure FrozenNode (H : Type) where
  staticChildren : List (Text × FrozenNode H)
  paramChild : Option (FrozenNode H)
  wildcard : Option (FrozenMethodHandlers H)
  handlers : FrozenMethodHandlers H

mutual

def TrieNode.freeze {H : Type} : TrieNode H → FrozenNode H
  | ⟨staticChildren, paramChild, wildcard, handlers⟩ =>
    { staticChildren := freezeChildren staticChildren
      paramChild := freezeChild paramChild
      wildcard := wildcard.map freezeHandlers
      handlers := freezeHandlers handlers }

def freezeChildren {H : Type} : List (Text × TrieNode H) → List (Text × FrozenNode H)
  | [] => []
  | (name, node) :: rest => (name, node.freeze) :: freezeChildren rest

def freezeChild {H : Type} : Option (TrieNode H) → Option (FrozenNode H)
  | none => none
  | some node => some node.freeze

end

abbrev PathMatch (H : Type) := FrozenMethodHandlers H × List Text

namespace FrozenNode

variable {H σ : Type}

abbrev Accepts (H σ : Type) := FrozenMethodHandlers H → σ → Bool × σ

abbrev Walk (H σ : Type) := FrozenNode H → σ → Option (PathMatch H) × σ

def resolveStatic (next : Walk H σ) (segment : Text) : Walk H σ := fun node s =>
  match (SortedMap.binarySearch node.staticChildren segment).bind (node.staticChildren[·]?) with
  | none => (none, s)
  | some (_, child) => next child s

def resolveParam (next : Walk H σ) (segment : Text) : Walk H σ := fun node s =>
  match node.paramChild with
  | none => (none, s)
  | some child =>
    match next child s with
    | (none, s) => (none, s)
    | (some (handlers, captures), s) => (some (handlers, captures ++ [segment]), s)

def resolveWildcard (accepts : Accepts H σ) (path : Text) (segments : List Slice) : Walk H σ :=
  fun node s =>
  match node.wildcard with
  | none => (none, s)
  | some handlers =>
    match accepts handlers s with
    | (true, s) => (some (handlers, [wildcardSpan path segments]), s)
    | (false, s) => (none, s)

def orWalk (first second : Walk H σ) : Walk H σ := fun node s =>
  match first node s with
  | (some found, s) => (some found, s)
  | (none, s) => second node s

def resolve (accepts : Accepts H σ) (path : Text) : List Slice → Walk H σ
  | [] => fun node s =>
    match accepts node.handlers s with
    | (true, s) => (some (node.handlers, []), s)
    | (false, s) => (none, s)
  | segment :: rest =>
    orWalk (resolveStatic (resolve accepts path rest) segment.text)
      (orWalk (resolveParam (resolve accepts path rest) segment.text)
        (resolveWildcard accepts path (segment :: rest)))

end FrozenNode

/-- What a method-selection pass found. -/
structure Selected (H : Type) where
  route : Text
  handler : RouteHandler H
  captureNames : List Text
  captures : List Text
deriving DecidableEq

def Selected.bindParams {H : Type} (selected : Selected H) : List (Text × Text) :=
  selected.captureNames.zip selected.captures

/-- What one path-and-method lookup established. -/
inductive RouteLookup (H : Type) where
  | matched (selected : Selected H)
  | methodMismatch (route allow : Text)
  | unmatched
deriving DecidableEq

def mergeAllow (first : Claimed) (rest : List Claimed) : Text :=
  let served := rest.foldl (fun mask claim => mask ||| claim.served) first.served
  if served = first.served then first.allow else renderAllow served

namespace FrozenNode

variable {H : Type}

def serving (method : Method) : Accepts H Unit :=
  fun handlers s => (slotServes handlers.byMethod method, s)

def select (node : FrozenNode H) (method : Method) (path : Text) (segments : List Slice) :
    Option (Selected H) :=
  (resolve (serving method) path segments node ()).1.bind fun found =>
    (selectSlot found.1.byMethod method).map fun selected =>
      { route := selected.route
        handler := selected.handler
        captureNames := selected.captureNames
        captures := found.2.reverse }

def collecting : Accepts H (List Claimed) :=
  fun handlers claims => (false, claims ++ handlers.claimed.toList)

def refuseMethod (node : FrozenNode H) (path : Text) (segments : List Slice) : RouteLookup H :=
  match (resolve collecting path segments node []).2 with
  | first :: rest => .methodMismatch first.route (mergeAllow first rest)
  | [] => .unmatched

def lookup (node : FrozenNode H) (method : Option Method) (path : Text)
    (segments : List Slice) : RouteLookup H :=
  match method.bind fun method => node.select method path segments with
  | some selected => .matched selected
  | none => node.refuseMethod path segments

end FrozenNode

end Camber.Routing
