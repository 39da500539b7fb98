import Camber.Integration.EntryRuns
import Camber.Lib.SortedMap

/-! The registry holds the live entries under one lock and the report accounts beside it. -/

namespace Camber.Integration

open Transition

def liveLimit : ℕ := 64

inductive AdmitError where
  | scopeClosed
  | integration (error : IntegrationError)

structure AdmitCall where
  kind : IntegrationKind
  admission : IntegrationOperation
  operationLimit : ℕ

inductive SweepKind where
  | stop
  | settleInto
deriving DecidableEq

/-- One call of `stop` or of `settle_into`. -/
structure Sweep where
  kind : SweepKind
  remaining : List ℕ
  reached : List ℕ
  naming : Option ℕ
  finished : Bool
deriving DecidableEq

/-- The registry, the entries it ever admitted in the order it did, and who works on them. -/
structure Registry where
  scopeOpen : Bool
  stopping : Bool
  live : List (ℕ × ℕ)
  admitting : Option AdmitCall
  entries : List Entry
  books : Books
  sweeps : List Sweep

namespace Registry

def new : Registry where
  scopeOpen := true
  stopping := false
  live := []
  admitting := none
  entries := []
  books := .new
  sweeps := []

def admitCheck (registry : Registry) : Except AdmitError Unit :=
  if registry.stopping || !registry.scopeOpen then .error .scopeClosed else .ok ()

def admitInsert (call : AdmitCall) (registry : Registry) : Except AdmitError Registry :=
  if liveLimit ≤ registry.live.length then
    .error (.integration (busy call.kind call.admission))
  else
    match registry.books.ledger.reserveInstance call.kind call.admission with
    | .error error => .error (.integration error)
    | .ok (id, _) =>
      .ok { registry with
        live := SortedMap.entry id registry.entries.length (fun _ => registry.entries.length)
          registry.live
        entries := registry.entries ++
          [.new id registry.books.slots.length call.kind call.operationLimit]
        books := registry.books.admission call.kind call.admission }

def accountActions (entry : Entry) : Entry.Action → List Action
  | .beginOperation operation room =>
    match entry.beginOperation operation room, entry.phase.account with
    | .ok _, some account => [.reserve account operation]
    | _, _ => []
  | .proceed index =>
    match entry.settlers[index]? with
    | some settler =>
      if settler.stage = .taken then
        match settler.settlement.failure entry.id with
        | some error => [.closeFailed settler.account error]
        | none => [.close settler.account]
      else []
    | none => []
  | _ => []

def retires (entry : Entry) : Entry.Action → Bool
  | .proceed index => entry.settlers[index]?.any fun settler => settler.stage = .fixed
  | _ => false

def isOwn : Entry.Action → Bool
  | .stop _ | .nameOutstanding | .runtimeEnds => false
  | _ => true

def entryStep (index : ℕ) (action : Entry.Action) (registry : Registry) : Registry :=
  match registry.entries[index]? with
  | some entry =>
    { registry with
      entries := registry.entries.modify index (Entry.act action)
      books := replay Books.act registry.books (accountActions entry action)
      live := if retires entry action then SortedMap.remove entry.id registry.live
        else registry.live }
  | none => registry

def startSweep (kind : SweepKind) (registry : Registry) : Registry :=
  { registry with
    stopping := true
    sweeps := registry.sweeps ++ [⟨kind, registry.live.map Prod.snd, [], none, false⟩] }

def sweepAction (admitsChildren : Option Bool) : SweepKind → Entry.Action
  | .stop => .stop admitsChildren
  | .settleInto => .nameOutstanding

def namingOf (kind : SweepKind) (i : ℕ) (registry : Registry) : Option ℕ :=
  if kind = .settleInto ∧ registry.entries[i]?.any (·.phase.account.isSome) = true then some i
  else none

def sweepNext (index : ℕ) (admitsChildren : Option Bool) (registry : Registry) : Registry :=
  match registry.sweeps[index]? with
  | some sweep =>
    match sweep.remaining with
    | [] => registry
    | i :: rest =>
      { registry with
        entries := registry.entries.modify i (Entry.act (sweepAction admitsChildren sweep.kind))
        sweeps := registry.sweeps.modify index
          ({ · with
            remaining := rest
            reached := sweep.reached ++ [i]
            naming := registry.namingOf sweep.kind i }) }
  | none => registry

def namedDone (sweep : Sweep) (registry : Registry) : Bool :=
  match sweep.naming with
  | some i => registry.entries[i]?.any fun entry => entry.settlers.all (·.stage = .done)
  | none => true

def transfer (index : ℕ) (registry : Registry) : Registry :=
  { registry with
    books := registry.books.transfer
    sweeps := registry.sweeps.modify index ({ · with finished := true }) }

inductive Action where
  | admitCheck (call : AdmitCall)
  | admitInsert
  | closeScope
  | startSweep (kind : SweepKind)
  | sweepNext (index : ℕ) (admitsChildren : Option Bool)
  | transfer (index : ℕ)
  | entry (index : ℕ) (action : Entry.Action)
  | account (action : Integration.Action)
  | seed (id : ℕ)

def isHolders : Integration.Action → Bool
  | .cleanup _ _ | .succeed _ | .fail _ _ | .receive _ | .abandon _ => true
  | _ => false

def act : Action → Registry → Registry
  | .admitCheck call, registry =>
    match registry.admitCheck with
    | .ok () => { registry with admitting := some call }
    | .error _ => registry
  | .admitInsert, registry =>
    match registry.admitting with
    | some call =>
      match registry.admitInsert call with
      | .ok next => { next with admitting := none }
      | .error _ => { registry with admitting := none }
    | none => registry
  | .closeScope, registry => { registry with scopeOpen := false }
  | .startSweep kind, registry => registry.startSweep kind
  | .sweepNext index admitsChildren, registry => registry.sweepNext index admitsChildren
  | .transfer index, registry => registry.transfer index
  | .entry index action, registry => registry.entryStep index action
  | .account action, registry => { registry with books := registry.books.act action }
  | .seed id, registry => { registry with books := registry.books.act (.seed id) }

def roomOf (registry : Registry) : Entry.Action → Bool
  | .beginOperation _ room => room = registry.books.ledger.hasRoom
  | _ => true

def Ready (registry : Registry) : Action → Prop
  | .admitCheck _ | .startSweep _ => registry.admitting = none
  | .admitInsert => registry.admitting.isSome = true
  | .closeScope | .seed _ => True
  | .sweepNext index _ =>
    registry.sweeps[index]?.any (fun sweep => registry.namedDone sweep && !sweep.remaining.isEmpty)
      = true
  | .transfer index =>
    registry.sweeps[index]?.any (fun sweep =>
      sweep.kind = .settleInto && sweep.remaining.isEmpty && registry.namedDone sweep &&
        !sweep.finished) = true
  | .entry index action =>
    (isOwn action = true ∧ registry.roomOf action = true) ∧
      registry.entries[index]?.any (fun entry =>
        decide (entry.Ready action) && (!retires entry action || registry.admitting.isNone)) = true
  | .account action => isHolders action = true ∧ registry.books.Ready action

instance (registry : Registry) : DecidablePred registry.Ready := fun action => by
  unfold Ready
  split <;> infer_instance

def Steps : Registry → Action → Registry → Prop := Acts Ready act

end Registry

end Camber.Integration
