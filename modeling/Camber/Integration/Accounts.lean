import Camber.Integration.Cleanup
import Camber.Lib.Transition

/-! One slot holds one operation's terminal failure, or reserves room for it; an admitted instance
holds one for its close. -/

namespace Camber.Integration

open Transition Roster

def reportBudget : ℕ := 256

def firstInstanceId : ℕ := 1

def checkedSucc (id : ℕ) : Option ℕ := if id + 1 < 2 ^ 64 then some (id + 1) else none

def busy (kind : IntegrationKind) (operation : IntegrationOperation) : IntegrationError :=
  .new kind operation .busy .safe

def outlivesReceipt (error : IntegrationError) : Bool :=
  error.failure = .cleanupIncomplete || !error.cleanup.isEmpty

structure Ledger where
  reserved : ℕ
  retained : List (ℕ × IntegrationError)
  nextInstance : Option ℕ

namespace Ledger

def new : Ledger := ⟨0, [], some firstInstanceId⟩

def charged (ledger : Ledger) : ℕ := ledger.reserved + ledger.retained.length

def hasRoom (ledger : Ledger) : Bool := decide (ledger.charged < reportBudget)

/-- Take the next identity and one slot together, or neither. -/
def reserveInstance (kind : IntegrationKind) (admission : IntegrationOperation)
    (ledger : Ledger) : Except IntegrationError (ℕ × Ledger) :=
  match ledger.hasRoom, ledger.nextInstance with
  | false, _ => .error (busy kind admission)
  | true, none => .error (.new kind admission .limitExceeded .never)
  | true, some id =>
    .ok (id, { ledger with nextInstance := checkedSucc id, reserved := ledger.reserved + 1 })

def reserveSlot (kind : IntegrationKind) (operation : IntegrationOperation) (ledger : Ledger) :
    Except IntegrationError Ledger :=
  match ledger.hasRoom with
  | true => .ok { ledger with reserved := ledger.reserved + 1 }
  | false => .error (busy kind operation)

def release (ledger : Ledger) : Ledger := { ledger with reserved := ledger.reserved - 1 }

def retain (id : ℕ) (error : IntegrationError) (ledger : Ledger) : Ledger :=
  { ledger with
    reserved := ledger.reserved - 1
    retained := ledger.retained ++ [(id, error.withInstance id)] }

def transfer (ledger : Ledger) : List (ℕ × IntegrationError) × Ledger :=
  (ledger.retained, { ledger with retained := [] })

def seedNextInstance (id : ℕ) (ledger : Ledger) : Ledger :=
  match ledger.nextInstance with
  | some next => if next ≤ id then { ledger with nextInstance := some id } else ledger
  | none => ledger

end Ledger

inductive Settled where
  | succeeded (owed : Option IntegrationError)
  | cleanup (error : IntegrationError)
  | received (error : IntegrationError) (owed : Option IntegrationError)
  | abandoned (error : IntegrationError)
  | closed (owed : Option IntegrationError)
  | closeFailed (error : IntegrationError)

def Settled.retained : Settled → Option IntegrationError
  | .succeeded owed | .received _ owed | .closed owed => owed
  | .cleanup error | .abandoned error | .closeFailed error => some error

inductive Holder where
  /-- The close slot of an `InstanceAccount`. -/
  | instanceAccount (kind : IntegrationKind)
  | operationAccount
  /-- A `PublishedFailure` that is not read yet. -/
  | published (error : IntegrationError)
  | settled (how : Settled)

structure Slot where
  charged : Bool
  instanceId : ℕ
  cleanup : Option CleanupRegister
  holder : Holder
  settlements : List (Option IntegrationError)

namespace Slot

def held (instanceId : ℕ) (holder : Holder) : Slot := ⟨true, instanceId, none, holder, []⟩

def unresolved (slot : Slot) : Option IntegrationError := slot.cleanup.bind (·.incomplete)

def history (slot : Slot) : List (ℕ × IntegrationError) :=
  (slot.settlements.filterMap id).map fun error => (slot.instanceId, error.withInstance slot.instanceId)

end Slot

structure Books where
  ledger : Ledger
  slots : List Slot
  issued : List ℕ
  transferred : List (ℕ × IntegrationError)
  clamped : ℕ

namespace Books

def new : Books := ⟨.new, [], [], [], 0⟩

def update (slot : ℕ) (change : Slot → Slot) (books : Books) : Books :=
  { books with slots := books.slots.modify slot change }

def clamp (books : Books) : ℕ := if books.ledger.reserved = 0 then 1 else 0

def release (slot : ℕ) (books : Books) : Books :=
  { books with ledger := books.ledger.release, clamped := books.clamped + books.clamp }.update
    slot fun s => { s with settlements := s.settlements ++ [none] }

def retain (slot id : ℕ) (error : IntegrationError) (books : Books) : Books :=
  { books with ledger := books.ledger.retain id error, clamped := books.clamped + books.clamp }.update
    slot fun s => { s with settlements := s.settlements ++ [some error] }

def dropSlot (slot : ℕ) (books : Books) : Books :=
  match books.slots[slot]? with
  | some s =>
    if s.charged then
      let taken := books.update slot ({ · with charged := false })
      match s.unresolved with
      | some incomplete => taken.retain slot s.instanceId incomplete
      | none => taken.release slot
    else books
  | none => books

def retainSlot (slot : ℕ) (error : IntegrationError) (books : Books) : Books :=
  match books.slots[slot]? with
  | some s =>
    if s.charged then
      ((books.update slot ({ · with charged := false })).retain slot s.instanceId error).dropSlot slot
    else books.dropSlot slot
  | none => books

def letGo (slot : ℕ) (how : Option IntegrationError → Settled) (books : Books) : Books :=
  match books.slots[slot]? with
  | some s => (books.dropSlot slot).update slot ({ · with holder := .settled (how s.unresolved) })
  | none => books

def keep (slot : ℕ) (how : IntegrationError → Settled) (error : IntegrationError) (books : Books) :
    Books :=
  (books.retainSlot slot error).update slot ({ · with holder := .settled (how error) })

def admission (kind : IntegrationKind) (operation : IntegrationOperation) (books : Books) : Books :=
  match books.ledger.reserveInstance kind operation with
  | .ok (id, ledger) =>
    { books with
      ledger := ledger
      slots := books.slots ++ [.held id (.instanceAccount kind)]
      issued := books.issued ++ [id] }
  | .error _ => books

def reserve (owner : ℕ) (operation : IntegrationOperation) (books : Books) : Books :=
  match books.slots[owner]? with
  | some account =>
    match account.holder with
    | .instanceAccount kind =>
      match books.ledger.reserveSlot kind operation with
      | .ok ledger =>
        { books with
          ledger := ledger
          slots := books.slots ++ [.held account.instanceId .operationAccount] }
      | .error _ => books
    | _ => books
  | none => books

def fail (slot : ℕ) (error : IntegrationError) (books : Books) : Books :=
  match books.slots[slot]? with
  | some s =>
    let error := error.withInstance s.instanceId
    if outlivesReceipt error then books.keep slot .cleanup error
    else books.update slot ({ · with holder := .published error })
  | none => books

def receive (slot : ℕ) (books : Books) : Books :=
  match books.slots[slot]?.map Slot.holder with
  | some (.published error) => books.letGo slot (.received error)
  | _ => books

/-- The destructor of an unread `PublishedFailure`, which `abandon` runs. -/
def abandon (slot : ℕ) (books : Books) : Books :=
  match books.slots[slot]?.map Slot.holder with
  | some (.published error) => books.keep slot .abandoned error
  | _ => books

def transfer (books : Books) : Books :=
  { books with
    ledger := books.ledger.transfer.2
    transferred := books.transferred ++ books.ledger.transfer.1 }

end Books
inductive Action where
  | admission (kind : IntegrationKind) (operation : IntegrationOperation)
  | reserve (owner : ℕ) (operation : IntegrationOperation)
  | cleanup (slot : ℕ) (register : CleanupRegister)
  | succeed (slot : ℕ)
  | fail (slot : ℕ) (error : IntegrationError)
  | receive (slot : ℕ)
  | abandon (slot : ℕ)
  | close (slot : ℕ)
  | closeFailed (slot : ℕ) (error : IntegrationError)
  | transfer
  | seed (id : ℕ)

namespace Holder

def isInstance : Holder → Bool
  | .instanceAccount _ => true
  | _ => false

def isOperation : Holder → Bool
  | .operationAccount => true
  | _ => false

def isPublished : Holder → Bool
  | .published _ => true
  | _ => false

def isSettled : Holder → Bool
  | .settled _ => true
  | _ => false

def isRunning (holder : Holder) : Bool := holder.isOperation || holder.isPublished

variable {holder : Holder}

theorem published_of_isPublished (h : holder.isPublished = true) :
    ∃ error, holder = .published error := by
  cases holder with
  | published error => exact ⟨error, rfl⟩
  | _ => cases h

theorem not_settled_of_instance (h : holder.isInstance = true) : holder.isSettled = false := by
  cases holder with
  | instanceAccount => rfl
  | _ => cases h

theorem not_settled_of_operation (h : holder.isOperation = true) : holder.isSettled = false := by
  cases holder with
  | operationAccount => rfl
  | _ => cases h

end Holder

namespace Books

def act : Action → Books → Books
  | .admission kind operation, books => books.admission kind operation
  | .reserve owner operation, books => books.reserve owner operation
  | .cleanup slot register, books => books.update slot ({ · with cleanup := some register })
  | .succeed slot, books => books.letGo slot .succeeded
  | .fail slot error, books => books.fail slot error
  | .receive slot, books => books.receive slot
  | .abandon slot, books => books.abandon slot
  | .close slot, books => books.letGo slot .closed
  | .closeFailed slot error, books => books.keep slot .closeFailed error
  | .transfer, books => books.transfer
  | .seed id, books => { books with ledger := books.ledger.seedNextInstance id }

def heldBy (books : Books) (slot : ℕ) (test : Holder → Bool) : Bool :=
  books.slots[slot]?.any fun s => test s.holder

def Ready (books : Books) : Action → Prop
  | .admission _ _ | .transfer | .seed _ => True
  | .reserve owner _ => books.heldBy owner Holder.isInstance
  | .cleanup slot _ => books.heldBy slot Holder.isRunning
  | .succeed slot | .fail slot _ => books.heldBy slot Holder.isOperation
  | .receive slot | .abandon slot => books.heldBy slot Holder.isPublished
  | .close slot | .closeFailed slot _ => books.heldBy slot Holder.isInstance

instance (books : Books) : DecidablePred books.Ready := fun action => by
  unfold Ready
  split <;> infer_instance

theorem heldBy_iff {books : Books} {slot : ℕ} {test : Holder → Bool} :
    books.heldBy slot test = true ↔ ∃ s, books.slots[slot]? = some s ∧ test s.holder = true := by
  rw [heldBy, Option.any_eq_true]

end Books

def Steps : Books → Action → Books → Prop := Acts Books.Ready Books.act

def Ledger.settle (id : ℕ) (kept : Option IntegrationError) (ledger : Ledger) : Ledger :=
  match kept with
  | some error => ledger.retain id error
  | none => ledger.release

def Slot.settle (how : Settled) (slot : Slot) : Slot :=
  { slot with
    charged := false
    holder := .settled how
    settlements := slot.settlements ++ [how.retained] }

def Books.settle (slot id : ℕ) (how : Settled) (books : Books) : Books :=
  { books with
    ledger := books.ledger.settle id how.retained
    slots := books.slots.modify slot (Slot.settle how)
    clamped := books.clamped + books.clamp }

namespace Books

variable {books : Books} {slot : ℕ} {s : Slot}

theorem dropSlot_settled (hslot : books.slots[slot]? = some s) (hcharged : s.charged = false) :
    books.dropSlot slot = books := by
  rw [dropSlot, hslot]
  simp [hcharged]

theorem dropSlot_charged (hslot : books.slots[slot]? = some s) (hcharged : s.charged = true) :
    books.dropSlot slot =
      { books with
        ledger := books.ledger.settle s.instanceId s.unresolved
        clamped := books.clamped + books.clamp
        slots := books.slots.modify slot fun s' =>
          { s' with charged := false, settlements := s'.settlements ++ [s.unresolved] } } := by
  rw [dropSlot, hslot]
  simp only [hcharged, if_true]
  cases s.unresolved with
  | none =>
    simp only [release, update, Ledger.settle, clamp, List.modify_modify_eq]
    rfl
  | some incomplete =>
    simp only [retain, update, Ledger.settle, clamp, List.modify_modify_eq]
    rfl

theorem retainSlot_charged (hslot : books.slots[slot]? = some s) (hcharged : s.charged = true)
    (error : IntegrationError) :
    books.retainSlot slot error =
      { books with
        ledger := books.ledger.settle s.instanceId (some error)
        clamped := books.clamped + books.clamp
        slots := books.slots.modify slot fun s' =>
          { s' with charged := false, settlements := s'.settlements ++ [some error] } } := by
  have hretain : (books.update slot ({ · with charged := false })).retain slot s.instanceId error =
      { books with
        ledger := books.ledger.settle s.instanceId (some error)
        clamped := books.clamped + books.clamp
        slots := books.slots.modify slot fun s' =>
          { s' with charged := false, settlements := s'.settlements ++ [some error] } } := by
    simp only [retain, update, Ledger.settle, clamp, List.modify_modify_eq]
    rfl
  rw [retainSlot, hslot]
  simp only [hcharged, if_true]
  rw [hretain]
  -- the destructor behind it finds nothing left to settle
  exact dropSlot_settled (getElem?_modify_self hslot) rfl

theorem letGo_eq (hslot : books.slots[slot]? = some s) (hcharged : s.charged = true)
    {how : Option IntegrationError → Settled}
    (hretained : (how s.unresolved).retained = s.unresolved) :
    books.letGo slot how = books.settle slot s.instanceId (how s.unresolved) := by
  have hsettle : Slot.settle (how s.unresolved) = fun s' =>
      { s' with
        charged := false
        holder := .settled (how s.unresolved)
        settlements := s'.settlements ++ [s.unresolved] } := by
    funext s'
    rw [Slot.settle, hretained]
  rw [letGo, hslot]
  simp only [dropSlot_charged hslot hcharged, update, List.modify_modify_eq, settle, hsettle,
    hretained]
  rfl

theorem keep_eq (hslot : books.slots[slot]? = some s) (hcharged : s.charged = true)
    {how : IntegrationError → Settled} {error : IntegrationError}
    (hretained : (how error).retained = some error) :
    books.keep slot how error = books.settle slot s.instanceId (how error) := by
  have hsettle : Slot.settle (how error) = fun s' =>
      { s' with
        charged := false
        holder := .settled (how error)
        settlements := s'.settlements ++ [some error] } := by
    funext s'
    rw [Slot.settle, hretained]
  rw [keep, retainSlot_charged hslot hcharged]
  simp only [update, List.modify_modify_eq, settle, hsettle, hretained]
  rfl

end Books

/-- What a settlement can have kept. -/
def Settled.Fits : Settled → Prop
  | .succeeded owed => ∀ kept ∈ owed, kept.failure = .cleanupIncomplete
  | .cleanup error => outlivesReceipt error = true
  | .received error owed =>
    outlivesReceipt error = false ∧ ∀ kept ∈ owed, kept.failure = .cleanupIncomplete
  | .abandoned error => outlivesReceipt error = false
  | .closed owed => owed = none
  | .closeFailed _ => True

/-- A slot is charged until its one settlement. -/
structure Slot.Sound (slot : Slot) : Prop where
  pending : slot.holder.isSettled = false → slot.charged = true ∧ slot.settlements = []
  settled : ∀ {how}, slot.holder = .settled how →
    slot.charged = false ∧ slot.settlements = [how.retained] ∧ how.Fits
  published : ∀ {error}, slot.holder = .published error → outlivesReceipt error = false
  instanceAccount : slot.holder.isInstance = true → slot.cleanup = none

theorem Slot.Sound.held (id : ℕ) {holder : Holder} (hpending : holder.isSettled = false)
    (hpublished : holder.isPublished = false) : (Slot.held id holder).Sound where
  pending _ := ⟨rfl, rfl⟩
  settled h := by
    rw [show holder = _ from h] at hpending
    cases hpending
  published h := by
    rw [show holder = _ from h] at hpublished
    cases hpublished
  instanceAccount _ := rfl

theorem Slot.Sound.settle {slot : Slot} (h : slot.Sound) (hpending : slot.holder.isSettled = false)
    {how : Settled} (hfits : how.Fits) : (slot.settle how).Sound where
  pending hnot := by cases hnot
  settled hhow := by
    cases hhow
    refine ⟨rfl, ?_, hfits⟩
    show slot.settlements ++ [how.retained] = [how.retained]
    rw [(h.pending hpending).2]
    rfl
  published hpublished := by cases hpublished
  instanceAccount hinstance := by cases hinstance

theorem Slot.unresolved_incomplete (slot : Slot) :
    ∀ kept ∈ slot.unresolved, kept.failure = .cleanupIncomplete := by
  intro kept hkept
  obtain ⟨register, -, hincomplete⟩ := Option.bind_eq_some_iff.mp hkept
  exact (CleanupRegister.incomplete_eq_some hincomplete).1

structure Balanced (books : Books) : Prop where
  reserved : books.ledger.reserved = books.slots.countP Slot.charged
  budget : books.ledger.charged ≤ reportBudget
  clamped : books.clamped = 0
  sound : ∀ {i : ℕ} {s : Slot}, books.slots[i]? = some s → s.Sound
  history : (books.transferred ++ books.ledger.retained).Perm (books.slots.flatMap Slot.history)
  increasing : books.issued.Pairwise (· < ·)
  unused : ∀ {next}, books.ledger.nextInstance = some next → ∀ id ∈ books.issued, id < next

namespace Balanced

variable {books next : Books} {slot : ℕ} {s : Slot}

theorem new : Balanced .new where
  reserved := rfl
  budget := by decide
  clamped := rfl
  sound := by simp [Books.new]
  history := .refl _
  increasing := List.Pairwise.nil
  unused := by simp [Books.new]

variable (h : Balanced books)

include h

theorem update {change : Slot → Slot} (hcharged : ∀ s, (change s).charged = s.charged)
    (hhistory : ∀ s, (change s).history = s.history)
    (hsound : ∀ s, books.slots[slot]? = some s → s.Sound → (change s).Sound) :
    Balanced (books.update slot change) where
  reserved := by
    show books.ledger.reserved = (books.slots.modify slot change).countP Slot.charged
    rw [countP_modify_same fun s _ => hcharged s]
    exact h.reserved
  budget := h.budget
  clamped := h.clamped
  sound hs := by
    obtain ⟨old, hold, hnew⟩ := of_getElem?_modify hs
    rw [hnew]
    split
    next hi =>
      subst hi
      exact hsound old hold (h.sound hold)
    next => exact h.sound hold
  history := by
    show (books.transferred ++ books.ledger.retained).Perm
      ((books.slots.modify slot change).flatMap Slot.history)
    rw [flatMap_modify_same fun s _ => hhistory s]
    exact h.history
  increasing := h.increasing
  unused := h.unused

theorem settle (hslot : books.slots[slot]? = some s) (hpending : s.holder.isSettled = false)
    {how : Settled} (hfits : how.Fits) : Balanced (books.settle slot s.instanceId how) := by
  have hsound := h.sound hslot
  obtain ⟨hcharged, hnone⟩ := hsound.pending hpending
  have hpos : 0 < books.ledger.reserved := by
    rw [h.reserved]
    exact countP_pos_of_getElem? hslot hcharged
  have hleave := countP_modify_leave (f := Slot.settle how) hslot hcharged rfl
  have hreserved : (books.ledger.settle s.instanceId how.retained).reserved =
      books.ledger.reserved - 1 := by
    cases how.retained <;> rfl
  have hretained : (books.ledger.settle s.instanceId how.retained).retained =
      books.ledger.retained ++ (s.settle how).history := by
    have hhistory : (s.settle how).history =
        (how.retained.toList).map fun error => (s.instanceId, error.withInstance s.instanceId) := by
      show ((s.settlements ++ [how.retained]).filterMap id).map _ = _
      rw [hnone]
      cases how.retained <;> rfl
    rw [hhistory]
    cases how.retained
    · exact (List.append_nil _).symm
    · rfl
  have hempty : s.history = [] := by simp [Slot.history, hnone]
  refine ⟨?_, ?_, ?_, ?_, ?_, h.increasing, ?_⟩
  · show (books.ledger.settle s.instanceId how.retained).reserved = _
    rw [hreserved, h.reserved]
    show _ = (books.slots.modify slot (Slot.settle how)).countP Slot.charged
    omega
  · show (books.ledger.settle s.instanceId how.retained).reserved +
      (books.ledger.settle s.instanceId how.retained).retained.length ≤ reportBudget
    have hbudget : books.ledger.reserved + books.ledger.retained.length ≤ reportBudget := h.budget
    have hone : (s.settle how).history.length ≤ 1 := by
      show (((s.settlements ++ [how.retained]).filterMap id).map _).length ≤ 1
      rw [hnone]
      cases how.retained <;> simp
    rw [hreserved, hretained, List.length_append]
    omega
  · show books.clamped + books.clamp = 0
    rw [h.clamped, Books.clamp, if_neg (by omega)]
  · intro i s' hs'
    obtain ⟨old, hold, hnew⟩ := of_getElem?_modify hs'
    rw [hnew]
    split
    next hi =>
      subst hi
      rw [hslot] at hold
      cases hold
      exact hsound.settle hpending hfits
    next => exact h.sound hold
  · show (books.transferred ++ (books.ledger.settle s.instanceId how.retained).retained).Perm
      ((books.slots.modify slot (Slot.settle how)).flatMap Slot.history)
    rw [hretained, ← List.append_assoc]
    have hcollect := flatMap_modify (f := Slot.settle how) (g := Slot.history) hslot
    rw [hempty, List.append_nil] at hcollect
    exact (h.history.append_right _).trans hcollect.symm
  · intro next hnext
    refine h.unused ?_
    rw [← hnext]
    show _ = (books.ledger.settle s.instanceId how.retained).nextInstance
    cases how.retained <;> rfl

theorem join (hroom : books.ledger.hasRoom = true) {new : Slot} (hcharged : new.charged = true)
    (hhistory : new.history = []) (hsound : new.Sound) (hslots : next.slots = books.slots ++ [new])
    (hreserved : next.ledger.reserved = books.ledger.reserved + 1)
    (hretained : next.ledger.retained = books.ledger.retained)
    (htransferred : next.transferred = books.transferred) (hclamped : next.clamped = books.clamped)
    (hincreasing : next.issued.Pairwise (· < ·))
    (hunused : ∀ {id}, next.ledger.nextInstance = some id → ∀ used ∈ next.issued, used < id) :
    Balanced next where
  reserved := by
    rw [hreserved, hslots, countP_join, hcharged, h.reserved]
    rfl
  budget := by
    have hcharge : books.ledger.reserved + books.ledger.retained.length < reportBudget :=
      of_decide_eq_true hroom
    rw [Ledger.charged, hreserved, hretained]
    omega
  clamped := hclamped.trans h.clamped
  sound hs := by
    rw [hslots] at hs
    rcases of_getElem?_join hs with hold | ⟨-, rfl⟩
    · exact h.sound hold
    · exact hsound
  history := by
    rw [htransferred, hretained, hslots, List.flatMap_append]
    simpa [hhistory] using h.history
  increasing := hincreasing
  unused := hunused

theorem admission (kind : IntegrationKind) (operation : IntegrationOperation) :
    Balanced (books.admission kind operation) := by
  unfold Books.admission Ledger.reserveInstance
  cases hroom : books.ledger.hasRoom with
  | false => exact h
  | true =>
    cases hnext : books.ledger.nextInstance with
    | none => exact h
    | some id =>
      refine h.join hroom rfl rfl (.held id rfl rfl) rfl rfl rfl rfl rfl ?_ ?_
      · refine List.pairwise_append.mpr ⟨h.increasing, List.pairwise_singleton _ _, ?_⟩
        intro used hused new hnew
        rw [List.mem_singleton.mp hnew]
        exact h.unused hnext used hused
      · intro later hlater used hused
        -- the next identity is one past the one handed out now
        have hsucc : later = id + 1 := by
          have hchecked : checkedSucc id = some later := hlater
          unfold checkedSucc at hchecked
          split at hchecked
          · exact (Option.some.inj hchecked).symm
          · cases hchecked
        rcases List.mem_append.mp hused with hold | hnew
        · have := h.unused hnext used hold
          omega
        · rw [List.mem_singleton.mp hnew]
          omega

theorem reserve (owner : ℕ) (operation : IntegrationOperation) :
    Balanced (books.reserve owner operation) := by
  unfold Books.reserve
  split
  next account _ =>
    split
    next kind _ =>
      unfold Ledger.reserveSlot
      cases hroom : books.ledger.hasRoom with
      | false => exact h
      | true =>
        exact h.join hroom rfl rfl (.held account.instanceId rfl rfl) rfl rfl rfl rfl rfl
          h.increasing h.unused
    next => exact h
  next => exact h

theorem cleanup (hslot : books.slots[slot]? = some s) (hrunning : s.holder.isRunning = true)
    (register : CleanupRegister) :
    Balanced (books.update slot ({ · with cleanup := some register })) := by
  refine h.update (fun _ => rfl) (fun _ => rfl) fun old hold hsound => ?_
  refine ⟨hsound.pending, hsound.settled, hsound.published, fun hinstance => ?_⟩
  rw [hslot] at hold
  cases hold
  cases hholder : s.holder <;>
    simp_all [Holder.isRunning, Holder.isInstance, Holder.isOperation, Holder.isPublished]

theorem letGo (hslot : books.slots[slot]? = some s) (hpending : s.holder.isSettled = false)
    {how : Option IntegrationError → Settled}
    (hretained : (how s.unresolved).retained = s.unresolved) (hfits : (how s.unresolved).Fits) :
    Balanced (books.letGo slot how) := by
  rw [Books.letGo_eq hslot ((h.sound hslot).pending hpending).1 hretained]
  exact h.settle hslot hpending hfits

theorem keep (hslot : books.slots[slot]? = some s) (hpending : s.holder.isSettled = false)
    {how : IntegrationError → Settled} {error : IntegrationError}
    (hretained : (how error).retained = some error) (hfits : (how error).Fits) :
    Balanced (books.keep slot how error) := by
  rw [Books.keep_eq hslot ((h.sound hslot).pending hpending).1 hretained]
  exact h.settle hslot hpending hfits

theorem fail (hslot : books.slots[slot]? = some s) (hholder : s.holder.isOperation = true)
    (error : IntegrationError) : Balanced (books.fail slot error) := by
  have hpending := Holder.not_settled_of_operation hholder
  rw [Books.fail, hslot]
  dsimp only
  split
  next houtlives => exact h.keep hslot hpending rfl houtlives
  next houtlives =>
    refine h.update (fun _ => rfl) (fun _ => rfl) fun old hold hsound => ?_
    rw [hslot] at hold
    cases hold
    refine ⟨fun _ => hsound.pending hpending, (fun hsettled => by cases hsettled), ?_,
      (fun hinstance => by cases hinstance)⟩
    intro published hpublished
    cases hpublished
    simpa using houtlives

theorem receive (hslot : books.slots[slot]? = some s) : Balanced (books.receive slot) := by
  unfold Books.receive
  rw [hslot, Option.map_some]
  split
  next error herror =>
    have hpublished : s.holder = .published error := by simpa using herror
    have hpending : s.holder.isSettled = false := by rw [hpublished]; rfl
    exact h.letGo hslot hpending rfl
      ⟨(h.sound hslot).published hpublished, s.unresolved_incomplete⟩
  next => exact h

theorem abandon (hslot : books.slots[slot]? = some s) : Balanced (books.abandon slot) := by
  unfold Books.abandon
  rw [hslot, Option.map_some]
  split
  next error herror =>
    have hpublished : s.holder = .published error := by simpa using herror
    have hpending : s.holder.isSettled = false := by rw [hpublished]; rfl
    exact h.keep hslot hpending rfl ((h.sound hslot).published hpublished)
  next => exact h

theorem transfer : Balanced books.transfer where
  reserved := h.reserved
  budget := by
    have hbudget : books.ledger.reserved + books.ledger.retained.length ≤ reportBudget := h.budget
    show books.ledger.reserved + 0 ≤ reportBudget
    omega
  clamped := h.clamped
  sound := h.sound
  history := by
    show (books.transferred ++ books.ledger.retained ++ []).Perm _
    rw [List.append_nil]
    exact h.history
  increasing := h.increasing
  unused := h.unused

theorem seed (id : ℕ) : Balanced { books with ledger := books.ledger.seedNextInstance id } := by
  unfold Ledger.seedNextInstance
  split
  next next hnext =>
    split
    next hle =>
      refine ⟨h.reserved, h.budget, h.clamped, h.sound, h.history, h.increasing, ?_⟩
      intro later hlater used hused
      cases hlater
      exact (h.unused hnext used hused).trans_le hle
    next => exact h
  next => exact h

theorem act {action : Action} (hready : books.Ready action) : Balanced (books.act action) := by
  cases action with
  | admission kind operation => exact h.admission kind operation
  | reserve owner operation => exact h.reserve owner operation
  | cleanup slot register =>
    obtain ⟨s, hslot, hholder⟩ := Books.heldBy_iff.mp hready
    exact h.cleanup hslot hholder register
  | succeed slot =>
    obtain ⟨s, hslot, hholder⟩ := Books.heldBy_iff.mp hready
    exact h.letGo hslot (Holder.not_settled_of_operation hholder) rfl s.unresolved_incomplete
  | fail slot error =>
    obtain ⟨s, hslot, hholder⟩ := Books.heldBy_iff.mp hready
    exact h.fail hslot hholder error
  | receive slot =>
    obtain ⟨s, hslot, -⟩ := Books.heldBy_iff.mp hready
    exact h.receive hslot
  | abandon slot =>
    obtain ⟨s, hslot, -⟩ := Books.heldBy_iff.mp hready
    exact h.abandon hslot
  | close slot =>
    obtain ⟨s, hslot, hholder⟩ := Books.heldBy_iff.mp hready
    have hnone : s.unresolved = none := by
      rw [Slot.unresolved, (h.sound hslot).instanceAccount hholder]
      rfl
    exact h.letGo hslot (Holder.not_settled_of_instance hholder) rfl hnone
  | closeFailed slot error =>
    obtain ⟨s, hslot, hholder⟩ := Books.heldBy_iff.mp hready
    exact h.keep hslot (Holder.not_settled_of_instance hholder) rfl trivial
  | transfer => exact h.transfer
  | seed id => exact h.seed id

end Balanced

theorem balanced_of_runs {trace : List Action} {books : Books}
    (run : Runs Steps .new trace books) : Balanced books := by
  induction run with
  | nil => exact Balanced.new
  | snoc _ step ih =>
    obtain ⟨hready, rfl⟩ := step
    exact ih.act hready

end Camber.Integration
