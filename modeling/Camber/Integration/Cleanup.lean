import Camber.Basic
import Camber.Lib.Roster

/-! The closed vocabulary integration failures are described in, and one operation's account of the
remote records it still has to clean up. -/

namespace Camber.Integration

inductive IntegrationKind where
  | nats
  | sqs
  | dns01
deriving DecidableEq

inductive IntegrationOperation where
  | connect
  | ready
  | publish
  | subscribe
  | receive
  | delete
  | close
  | zoneLookup
  | createTxt
  | deleteTxt
  | provision
  | cacheRead
  | cacheWrite
  | renew
deriving DecidableEq

inductive IntegrationFailure where
  | invalidConfig
  | unavailable
  | permissionDenied
  | rejected
  | busy
  | limitExceeded
  | timeout
  | cancelled
  | closed
  | outcomeUnknown
  | cleanupIncomplete
  | invalidCertificate
deriving DecidableEq

inductive Retryability where
  | never
  | safe
  | outcomeUnknown
deriving DecidableEq

structure CleanupItem where
  domain : String
  recordId : Option String
  failure : IntegrationFailure
deriving DecidableEq

structure IntegrationError where
  kind : IntegrationKind
  operation : IntegrationOperation
  failure : IntegrationFailure
  retryability : Retryability
  instanceId : Option ℕ
  cleanup : List CleanupItem
deriving DecidableEq

def maxCleanupItems : ℕ := 100

namespace IntegrationError

def new (kind : IntegrationKind) (operation : IntegrationOperation)
    (failure : IntegrationFailure) (retryability : Retryability) : IntegrationError :=
  ⟨kind, operation, failure, retryability, none, []⟩

def incompleteClose (kind : IntegrationKind) : IntegrationError :=
  new kind .close .timeout .never

def withInstance (id : ℕ) (error : IntegrationError) : IntegrationError :=
  { error with instanceId := some id }

def withCleanup (items : List CleanupItem) (error : IntegrationError) : IntegrationError :=
  { error with cleanup := items.take maxCleanupItems }

end IntegrationError

/-- What a NATS connection charges itself with when a subscription falls behind. -/
def slowConsumer : IntegrationError := .new .nats .receive .limitExceeded .never

/-- Where one challenge record stands. -/
inductive RecordState where
  | intended
  | created (id : String)
  | deleting (id : String)
  | failed (id : String) (failure : IntegrationFailure)
  | resolved
deriving DecidableEq

structure Record where
  domain : String
  state : RecordState

namespace Record

def isOwed (record : Record) : Bool := record.state ≠ .resolved

def unresolved (record : Record) : Option CleanupItem :=
  match record.state with
  | .intended => some ⟨record.domain, none, .outcomeUnknown⟩
  | .created id => some ⟨record.domain, some id, .cancelled⟩
  | .deleting id => some ⟨record.domain, some id, .outcomeUnknown⟩
  | .failed id failure => some ⟨record.domain, some id, failure⟩
  | .resolved => none

theorem unresolved_isSome (record : Record) : record.unresolved.isSome = record.isOwed := by
  rcases record with ⟨_, _ | _ | _ | _ | _⟩ <;> rfl

end Record

/-- The records one operation's cleanup still owes. -/
structure CleanupRegister where
  kind : IntegrationKind
  operation : IntegrationOperation
  records : List Record

namespace CleanupRegister

def new (kind : IntegrationKind) (operation : IntegrationOperation) : CleanupRegister :=
  ⟨kind, operation, []⟩

def intend (domain : String) (register : CleanupRegister) : Option (ℕ × CleanupRegister) :=
  if register.records.length < maxCleanupItems then
    some (register.records.length,
      { register with records := register.records ++ [⟨domain, .intended⟩] })
  else none

def update (slot : ℕ) (change : RecordState → RecordState) (register : CleanupRegister) :
    CleanupRegister :=
  { register with records :=
      register.records.modify slot fun record => { record with state := change record.state } }

def acknowledge (slot : ℕ) (id : String) (register : CleanupRegister) : CleanupRegister :=
  register.update slot fun _ => .created id

def startDelete : RecordState → RecordState
  | .created id => .deleting id
  | other => other

def deleting (slot : ℕ) (register : CleanupRegister) : CleanupRegister :=
  register.update slot startDelete

def failDelete (failure : IntegrationFailure) : RecordState → RecordState
  | .deleting id => .failed id failure
  | other => other

def failed (slot : ℕ) (failure : IntegrationFailure) (register : CleanupRegister) :
    CleanupRegister :=
  register.update slot (failDelete failure)

def resolve (slot : ℕ) (register : CleanupRegister) : CleanupRegister :=
  register.update slot fun _ => .resolved

def created (register : CleanupRegister) : List (ℕ × String) :=
  register.records.zipIdx.filterMap fun (record, index) =>
    match record.state with
    | .created id => some (index, id)
    | _ => none

def expireState : RecordState → RecordState
  | .created id | .deleting id => .failed id .timeout
  | other => other

def expire (register : CleanupRegister) : CleanupRegister :=
  { register with records :=
      register.records.map fun record => { record with state := expireState record.state } }

def owes (register : CleanupRegister) : Bool := register.records.any Record.isOwed

def incomplete (register : CleanupRegister) : Option IntegrationError :=
  match register.records.filterMap Record.unresolved with
  | [] => none
  | unresolved =>
    some ((IntegrationError.new register.kind register.operation .cleanupIncomplete
      .never).withCleanup unresolved)

variable {register : CleanupRegister}

theorem incomplete_eq_some {error : IntegrationError} (h : register.incomplete = some error) :
    error.failure = .cleanupIncomplete ∧
      error.cleanup = (register.records.filterMap Record.unresolved).take maxCleanupItems := by
  unfold incomplete at h
  split at h
  · cases h
  · cases h
    exact ⟨rfl, rfl⟩

theorem incomplete_isSome (register : CleanupRegister) :
    register.incomplete.isSome = register.owes := by
  have howes : register.owes = (register.records.filterMap Record.unresolved != []) := by
    rw [owes]
    induction register.records with
    | nil => rfl
    | cons record rest ih =>
      rw [List.any_cons, ih, ← record.unresolved_isSome, List.filterMap_cons]
      cases record.unresolved <;> simp
  rw [howes]
  unfold incomplete
  split
  next hnil => simp [hnil]
  next hne => simpa using hne

end CleanupRegister

end Camber.Integration
