import Camber.Lib.Headers
import Camber.Routing.Trie

/-! Routing reads a received head twice: once borrowed, before a body is collected, and once as the
owned request that dispatch is given. -/

namespace Camber.Dispatch
open Str Routing Http

def parseMethod (s : Text) : Option Method :=
  if s = "GET".toList then some .get
  else if s = "POST".toList then some .post
  else if s = "PUT".toList then some .put
  else if s = "DELETE".toList then some .delete
  else if s = "PATCH".toList then some .patch
  else if s = "HEAD".toList then some .head
  else if s = "OPTIONS".toList then some .options
  else none

inductive RequestMethod where
  | known (method : Method)
  | unnameable (text : Text)

namespace RequestMethod

def fromHyper (method : Text) : RequestMethod :=
  match parseMethod method with
  | some method => known method
  | none => unnameable method

def routable : RequestMethod → Option Method
  | known method => some method
  | unnameable _ => none

def asStr : RequestMethod → Text
  | known method => method.asStr
  | unnameable text => text

end RequestMethod

structure Uri where
  path : Text
  query : Option Text
  authority : Option Text

structure HyperRequest where
  method : Text
  uri : Uri
  headers : HeaderMap

abbrev Params := List (Text × Text)

structure Request where
  method : RequestMethod
  uri : Uri
  rawHeaders : HeaderMap
  body : Bytes
  params : Option Params

def headerStr (headers : HeaderMap) (name : Text) : Option Text :=
  (getAll headers name).head?.bind decode

/-- The authority a request names: HTTP/1 states it in `Host`, HTTP/2 in the target. -/
def authorityOf (headers : HeaderMap) (uri : Uri) : Text :=
  ((headerStr headers "host".toList).or uri.authority).getD []

/-- The borrowed view of a head that classification reads. -/
structure RequestHead where
  method : RequestMethod
  uri : Uri
  headers : HeaderMap

namespace RequestHead

def fromHyperRequest (req : HyperRequest) : RequestHead :=
  ⟨.fromHyper req.method, req.uri, req.headers⟩

def routableMethod (head : RequestHead) : Option Method := head.method.routable

def path (head : RequestHead) : Text := head.uri.path

def authority (head : RequestHead) : Text := authorityOf head.headers head.uri

def toRequest (head : RequestHead) (params : Option Params) : Request :=
  ⟨head.method, head.uri, head.headers, [], params⟩

end RequestHead

namespace Request

def fromHyper (parts : HyperRequest) (body : Bytes) (method : Method) : Request :=
  ⟨.known method, parts.uri, parts.headers, body, none⟩

def methodEnum (req : Request) : Option Method := req.method.routable

def path (req : Request) : Text := req.uri.path

def setParams (req : Request) (params : Params) : Request := { req with params := some params }

def headers (req : Request) : List (Text × Text) := texts req.rawHeaders

end Request

def singleValueEquals (values : List Text) (expected : Text) : Bool :=
  match values with
  | [value] => eqIgnoreAsciiCase value expected
  | _ => false

def singleHeaderEquals (headers : HeaderMap) (name expected : Text) : Bool :=
  singleValueEquals ((getAll headers name).map fun value => (toStr value).getD []) expected

def isWsUpgradeHead (headers : HeaderMap) : Bool :=
  singleHeaderEquals headers "upgrade".toList "websocket".toList

def namedRequestHeaders (req : Request) (name : Text) : List Text :=
  req.headers.filterMap fun field =>
    if eqIgnoreAsciiCase field.1 name then some field.2 else none

def isWsUpgradeRequest (req : Request) : Bool :=
  singleValueEquals (namedRequestHeaders req "upgrade".toList) "websocket".toList

theorem isWsUpgradeRequest_eq (req : Request) :
    isWsUpgradeRequest req = isWsUpgradeHead req.rawHeaders := by
  rw [isWsUpgradeRequest, namedRequestHeaders, Request.headers,
    filterMap_texts req.rawHeaders (by decide), isWsUpgradeHead, singleHeaderEquals]
  cases getAll req.rawHeaders "upgrade".toList with
  | nil => rfl
  | cons value rest =>
    cases rest with
    | nil =>
      have hlower : "websocket".toList.map Char.toLower = "websocket".toList := by decide
      have hword : ∀ c ∈ "websocket".toList, Printable c := by simp [Printable]
      exact (eqIgnoreAsciiCase_toStr value (by simp) hlower hword).symm
    | cons second rest => rfl

end Camber.Dispatch
