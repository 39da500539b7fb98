import Camber.Dispatch.Head
import Camber.Dispatch.Registration

/-! A server routes through one frozen router, or through a host router that picks the child whose
host name a request's authority spells. -/

namespace Camber.Dispatch
open Str Routing Http

inductive Rejected where
  | notFound (detail : Text)
  | invalidHost (received : Text)
  | uriTooDeep (limit : ℕ)
  | methodNotAllowed (received allow : Text)
  | noAdmissibleBackend
  | multipartMisdispatched
  | streamingProxyMisdispatched

def Rejected.noRoute : Rejected := .notFound "no route claims this path".toList

structure FrozenRouter (C : Type) where
  root : FrozenNode (Stored C)
  budgets : Policy.RouteBudgets
  middleware : List C
  mapper : Option C
  bodyCeiling : ℕ
  bodyPolicy : Option C

structure FrozenHostRouter (C : Type) where
  hosts : List (Text × FrozenRouter C)
  default : Option (FrozenRouter C)
  mapper : Option C
  budgets : Policy.RouteBudgets

def parsesU16 (text : Text) : Bool :=
  let digits := (stripPrefixChar '+' text).getD text
  !digits.isEmpty && digits.all Char.isDigit &&
    digits.foldl (fun n c => 10 * n + (c.toNat - '0'.toNat)) 0 < 65536

def hasValidBracketedPort (bracketed : Text) : Bool :=
  match splitOnce ']' bracketed with
  | some (_, suffix) =>
    suffix.isEmpty || (stripPrefixChar ':' suffix).any parsesU16
  | none => false

def hasValidNamedPort (host : Text) : Bool :=
  match splitOnce ':' host with
  | some (hostname, port) => !hostname.isEmpty && !port.contains ':' && parsesU16 port
  | none => true

def hasValidAuthorityPort (host : Text) : Bool :=
  match stripPrefixChar '[' host with
  | some bracketed => hasValidBracketedPort bracketed
  | none => hasValidNamedPort host

def beforeLast (c : Char) (text : Text) : Text :=
  match splitOnce c text.reverse with
  | some (_, before) => before.reverse
  | none => text

def stripHostPort (host : Text) : Text :=
  match stripPrefixChar '[' host, splitOnce ']' host with
  | some _, some (inside, _) => inside ++ [']']
  | some _, none => host
  | none, _ => beforeLast ':' host

def lowercaseHostname (host : Text) : Text := host.map Char.toLower

section
variable (parsesAuthority : Text → Bool)

def isValidHost (host : Text) : Bool :=
  !host.isEmpty && !host.contains '@' && parsesAuthority host && hasValidAuthorityPort host

variable {C : Type}

def FrozenHostRouter.claimingRouter (router : FrozenHostRouter C) (authority : Text) :
    Option (FrozenRouter C) :=
  let lookup := lowercaseHostname (stripHostPort authority)
  ((SortedMap.binarySearch router.hosts lookup).bind (router.hosts[·]?)).map Prod.snd
    |>.or router.default

def FrozenHostRouter.resolveHost (router : FrozenHostRouter C) (authority : Text) :
    Except Rejected (Option (FrozenRouter C)) :=
  if isValidHost parsesAuthority authority then .ok (router.claimingRouter authority)
  else .error (.invalidHost authority)

/-- What a server routes requests through. -/
inductive ServerDispatch (C : Type) where
  | single (router : FrozenRouter C)
  | host (router : FrozenHostRouter C)

namespace ServerDispatch

def resolveFromHead (dispatch : ServerDispatch C) (head : RequestHead) :
    Except Rejected (Option (FrozenRouter C)) :=
  match dispatch with
  | single router => .ok (some router)
  | host router => router.resolveHost parsesAuthority head.authority

def unroutedBudgets : ServerDispatch C → Policy.RouteBudgets
  | single router => router.budgets
  | host router => router.budgets

def selectMapper (dispatch : ServerDispatch C) (router : Option (FrozenRouter C)) : Option C :=
  let child := router.bind FrozenRouter.mapper
  match dispatch with
  | single _ => child
  | host hosts => child.or hosts.mapper

end ServerDispatch

end

end Camber.Dispatch
