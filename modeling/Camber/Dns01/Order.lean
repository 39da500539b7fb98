import Camber.Integration.Cleanup
import Camber.Lib.Transition

/-! An order prepares the zone, opens an ACME order, raises one challenge record per pending
authorization, finalizes, deletes what it raised, and publishes only when its cleanup register owes
nothing. -/

namespace Camber.Dns01

open Integration Transition

inductive ProviderError where
  /-- `RuntimeError::Integration` -/
  | typed (error : IntegrationError)
  | untyped

inductive CallbackOutcome (α : Type) where
  | answered (answer : α)
  | failed (error : ProviderError)
  | panicked

def failure (operation : IntegrationOperation) (failure : IntegrationFailure)
    (retryability : Retryability) : IntegrationError :=
  .new .dns01 operation failure retryability

def outcomeUnknown (operation : IntegrationOperation) : IntegrationError :=
  failure operation .outcomeUnknown .outcomeUnknown

def rejected (operation : IntegrationOperation) : IntegrationError :=
  failure operation .rejected .never

def providerFailure (operation : IntegrationOperation) : ProviderError → IntegrationError
  | .typed error => error
  | .untyped => rejected operation

def createdNothing : ProviderError → Bool
  | .typed error =>
    error.retryability ≠ .outcomeUnknown && error.failure ≠ .outcomeUnknown
  | .untyped => false

def callbackAnswer {α : Type} (operation : IntegrationOperation) :
    CallbackOutcome α → Except IntegrationError α
  | .answered answer => .ok answer
  | .failed error => .error (providerFailure operation error)
  | .panicked => .error (outcomeUnknown operation)

structure Certificate where
  certPem : String
  keyPem : String
deriving DecidableEq

/-- What `publish_issued` comes to. -/
inductive Publication where
  | invalid (error : IntegrationError)
  | unwritten (error : IntegrationError)
  | written

inductive Stage where
  | preparing
  | opening
  | challenging
  | creating (slot : ℕ)
  | finalizing
  | cleaning (issued : Except IntegrationError Certificate) (todo : List (ℕ × String))
  | deleting (issued : Except IntegrationError Certificate) (slot : ℕ)
      (todo : List (ℕ × String))
  | settling (issued : Except IntegrationError Certificate)
  | publishing (certificate : Certificate)
  | returned (result : Except IntegrationError Certificate)
  | dropped
deriving DecidableEq

/-- What is known of a record whose create was submitted. -/
structure ZoneRecord where
  domain : String
  id : Option String
  refused : Bool
  deleted : Bool
deriving DecidableEq

def ZoneRecord.mayExist (record : ZoneRecord) : Bool := !record.refused && !record.deleted

/-- An order with its register, and what it did to the zone. -/
structure Order where
  stage : Stage
  register : CleanupRegister
  zone : List ZoneRecord
  deletes : List String
  published : Bool

namespace Order

def new (operation : IntegrationOperation) : Order :=
  ⟨.preparing, .new .dns01 operation, [], [], false⟩

def cleanUp (issued : Except IntegrationError Certificate) (order : Order) : Order :=
  { order with stage := .cleaning issued order.register.created }

def createRecord (domain : String) (order : Order) : Order :=
  match order.register.intend domain with
  | some (slot, register) =>
    { order with
      stage := .creating slot
      register := register
      zone := order.zone ++ [⟨domain, none, false, false⟩] }
  | none => order.cleanUp (.error (failure .createTxt .limitExceeded .never))

def createAnswer : CallbackOutcome String → ZoneRecord → ZoneRecord
  | .answered id, record => { record with id := some id }
  | .failed (.typed error), record =>
    { record with
      refused := decide (error.failure ≠ .outcomeUnknown ∧ error.retryability ≠ .outcomeUnknown) }
  | .failed .untyped, record | .panicked, record => record

def isRefusal : CallbackOutcome String → Bool
  | .failed error => createdNothing error
  | .answered _ | .panicked => false

def created (slot : ℕ) (outcome : CallbackOutcome String) (order : Order) : Order :=
  let answered := { order with zone := order.zone.modify slot (createAnswer outcome) }
  match callbackAnswer .createTxt outcome, isRefusal outcome with
  | .ok id, _ =>
    { answered with stage := .challenging, register := order.register.acknowledge slot id }
  | .error error, true =>
    { answered with register := order.register.resolve slot }.cleanUp (.error error)
  | .error error, false => answered.cleanUp (.error error)

def deleteNext (issued : Except IntegrationError Certificate) (order : Order) :
    List (ℕ × String) → Order
  | [] => { order with stage := .settling issued }
  | (slot, id) :: todo =>
    { order with
      stage := .deleting issued slot todo
      register := order.register.deleting slot
      deletes := order.deletes ++ [id] }

def deleted (issued : Except IntegrationError Certificate) (slot : ℕ) (todo : List (ℕ × String))
    (outcome : CallbackOutcome Unit) (order : Order) : Order :=
  match callbackAnswer .deleteTxt outcome with
  | .ok () =>
    { order with
      stage := .cleaning issued todo
      register := order.register.resolve slot
      zone := order.zone.modify slot ({ · with deleted := true }) }
  | .error error =>
    { order with
      stage := .cleaning issued todo
      register := order.register.failed slot error.failure }

def expired (issued : Except IntegrationError Certificate) (order : Order) : Order :=
  { order with stage := .settling issued, register := order.register.expire }

def settle (issued : Except IntegrationError Certificate) (register : CleanupRegister) :
    Except IntegrationError Certificate :=
  match register.incomplete with
  | none => issued
  | some incomplete => .error incomplete

def settled (issued : Except IntegrationError Certificate) (order : Order) : Order :=
  match settle issued order.register with
  | .ok certificate => { order with stage := .publishing certificate }
  | .error error => { order with stage := .returned (.error error) }

def publish (certificate : Certificate) (order : Order) : Publication → Order
  | .invalid error => { order with stage := .returned (.error error) }
  | .unwritten error => { order with stage := .returned (.error error), published := true }
  | .written => { order with stage := .returned (.ok certificate), published := true }

inductive Action where
  | prepared (result : Except IntegrationError Unit)
  | opened (result : Except IntegrationError Unit)
  | authorized (domain : Option String)
  | exchangeFailed (error : IntegrationError)
  | created (outcome : CallbackOutcome String)
  | finalized (result : Except IntegrationError Certificate)
  | deleteNext
  | deleted (outcome : CallbackOutcome Unit)
  | expired
  | settled
  | publish (publication : Publication)
  | dropped

def next (order : Order) : Action → Option Order
  | .prepared result =>
    match order.stage, result with
    | .preparing, .ok () => some { order with stage := .opening }
    | .preparing, .error error => some { order with stage := .returned (.error error) }
    | _, _ => none
  | .opened result =>
    match order.stage, result with
    | .opening, .ok () => some { order with stage := .challenging }
    | .opening, .error error => some { order with stage := .returned (.error error) }
    | _, _ => none
  | .authorized domain =>
    match order.stage, domain with
    | .challenging, some domain => some (order.createRecord domain)
    | .challenging, none => some { order with stage := .finalizing }
    | _, _ => none
  | .exchangeFailed error =>
    match order.stage with
    | .challenging | .creating _ => some (order.cleanUp (.error error))
    | _ => none
  | .created outcome =>
    match order.stage with
    | .creating slot => some (order.created slot outcome)
    | _ => none
  | .finalized result =>
    match order.stage with
    | .finalizing => some (order.cleanUp result)
    | _ => none
  | .deleteNext =>
    match order.stage with
    | .cleaning issued todo => some (order.deleteNext issued todo)
    | _ => none
  | .deleted outcome =>
    match order.stage with
    | .deleting issued slot todo => some (order.deleted issued slot todo outcome)
    | _ => none
  | .expired =>
    match order.stage with
    | .cleaning issued _ | .deleting issued _ _ => some (order.expired issued)
    | _ => none
  | .settled =>
    match order.stage with
    | .settling issued => some (order.settled issued)
    | _ => none
  | .publish publication =>
    match order.stage with
    | .publishing certificate => some (order.publish certificate publication)
    | _ => none
  | .dropped =>
    match order.stage with
    | .returned _ | .dropped => none
    | _ => some { order with stage := .dropped }

def Ready (order : Order) (action : Action) : Prop := (order.next action).isSome = true

instance (order : Order) : DecidablePred order.Ready := fun _ =>
  inferInstanceAs (Decidable (_ = true))

def act (action : Action) (order : Order) : Order := (order.next action).getD order

def Steps : Order → Action → Order → Prop := Acts Ready act

theorem next_of_ready {order : Order} {action : Action} (h : order.Ready action) :
    order.next action = some (order.act action) := by
  obtain ⟨after, hafter⟩ := Option.isSome_iff_exists.mp h
  rw [act, hafter]
  rfl

end Order

end Camber.Dns01
