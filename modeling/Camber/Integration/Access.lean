import Camber.Integration.Accounts

/-! The course of an admitted operation settles its slot once, whatever the course. -/

namespace Camber.Integration

open Transition Books

def cutShort (kind : IntegrationKind) (operation : IntegrationOperation) : IntegrationError :=
  .new kind operation .cancelled .outcomeUnknown

def answersCancellation (error : IntegrationError) : Bool :=
  error.failure = .cancelled && (error.retryability = .safe || error.retryability = .never)

inductive Finished where
  | value
  | failed (error : IntegrationError)
  | panicked

namespace Finished

/-- `settled` and `deliver`, and what becomes of the published failure: its waiter reads it, or it
is dropped with the delivery. -/
def actions (slot : ℕ) (read : Bool) : Finished → List Action
  | .value | .panicked => [.succeed slot]
  | .failed error =>
    if outlivesReceipt error then [.fail slot error]
    else if read then [.fail slot error, .receive slot]
    else [.fail slot error, .abandon slot]

def settlement (id : ℕ) (owed : Option IntegrationError) (read : Bool) : Finished → Settled
  | .value | .panicked => .succeeded owed
  | .failed error =>
    if outlivesReceipt error then .cleanup (error.withInstance id)
    else if read then .received (error.withInstance id) owed
    else .abandoned (error.withInstance id)

end Finished

/-- The course of one admitted operation. -/
inductive Course where
  /-- `operate`: the work ended before the waiter left. -/
  | operated (finished : Finished) (read : Bool)
  /-- `operate`: the waiter left first, with what the work's mark says if it sets one. -/
  | abandoned (mark : Option Bool)
  /-- `operate_retained`: the work ended, with the request to stop fired or not. -/
  | retained (finished : Finished) (waiterGone read : Bool)
  /-- `run_here`: the calling task reads the result it ran. -/
  | here (finished : Finished)
  | dropped

namespace Course

def answers (waiterGone : Bool) : Finished → Bool
  | .failed error => waiterGone && answersCancellation error
  | .value | .panicked => false

def actions (kind : IntegrationKind) (operation : IntegrationOperation) (slot : ℕ) :
    Course → List Action
  | .operated finished read => finished.actions slot read
  | .abandoned mark =>
    if mark = some true then [.fail slot (cutShort kind operation), .abandon slot]
    else [.succeed slot]
  | .retained finished waiterGone read =>
    if answers waiterGone finished then [.succeed slot] else finished.actions slot read
  | .here finished => finished.actions slot true
  | .dropped => [.succeed slot]

def settlement (kind : IntegrationKind) (operation : IntegrationOperation) (id : ℕ)
    (owed : Option IntegrationError) : Course → Settled
  | .operated finished read => finished.settlement id owed read
  | .abandoned mark =>
    if mark = some true then .abandoned ((cutShort kind operation).withInstance id)
    else .succeeded owed
  | .retained finished waiterGone read =>
    if answers waiterGone finished then .succeeded owed else finished.settlement id owed read
  | .here finished => finished.settlement id owed true
  | .dropped => .succeeded owed

end Course

section Settles

variable {books : Books} {slot : ℕ} {s : Slot}

def Settles (books : Books) (slot : ℕ) (s : Slot) (actions : List Action) (how : Settled) : Prop :=
  ReadyAll Ready act books actions ∧
    (replay act books actions).slots[slot]? = some (s.settle how)

theorem Settles.one {action : Action} {how : Settled} (hslot : books.slots[slot]? = some s)
    (hready : books.Ready action) (hact : books.act action = books.settle slot s.instanceId how) :
    Settles books slot s [action] how := by
  refine ⟨⟨hready, trivial⟩, ?_⟩
  show (books.act action).slots[slot]? = _
  rw [hact]
  exact Roster.getElem?_modify_self hslot

theorem settles_close (hslot : books.slots[slot]? = some s) (hcharged : s.charged = true)
    (hholder : s.holder.isInstance = true) :
    Settles books slot s [.close slot] (.closed s.unresolved) ∧
      ∀ error, Settles books slot s [.closeFailed slot error] (.closeFailed error) := by
  have hheld := heldBy_iff.mpr ⟨s, hslot, hholder⟩
  exact ⟨.one hslot hheld (letGo_eq hslot hcharged rfl),
    fun error => .one hslot hheld (keep_eq hslot hcharged rfl)⟩

variable {error : IntegrationError}

/-- An ordinary failure is published, and settles with what its reader does. -/
theorem settles_published (hslot : books.slots[slot]? = some s)
    (hholder : s.holder = .operationAccount) (hordinary : outlivesReceipt error = false)
    {answer : Action} {how : Settled}
    (hanswer : ∀ published : Books, published.slots[slot]? =
        some { s with holder := .published (error.withInstance s.instanceId) } →
      published.Ready answer ∧
        published.act answer = published.settle slot s.instanceId how) :
    Settles books slot s [.fail slot error, answer] how := by
  have hpublished : (books.fail slot error).slots[slot]? =
      some { s with holder := .published (error.withInstance s.instanceId) } := by
    rw [fail, hslot]
    dsimp only
    rw [show outlivesReceipt (error.withInstance s.instanceId) = false from hordinary,
      if_neg Bool.false_ne_true]
    exact Roster.getElem?_modify_self hslot
  obtain ⟨hready, hact⟩ := hanswer _ hpublished
  obtain ⟨⟨-, -⟩, hsettled⟩ := Settles.one hpublished hready hact
  exact ⟨⟨heldBy_iff.mpr ⟨s, hslot, by rw [hholder]; rfl⟩, hready, trivial⟩, hsettled⟩

variable (hslot : books.slots[slot]? = some s) (hcharged : s.charged = true)
  (hholder : s.holder = .operationAccount)

include hslot hcharged hholder

theorem settles_succeed :
    Settles books slot s [.succeed slot] (.succeeded s.unresolved) :=
  .one hslot (heldBy_iff.mpr ⟨s, hslot, by rw [hholder]; rfl⟩)
    (letGo_eq hslot hcharged rfl)

theorem settles_cleanup (houtlives : outlivesReceipt error = true) :
    Settles books slot s [.fail slot error] (.cleanup (error.withInstance s.instanceId)) := by
  refine .one hslot (heldBy_iff.mpr ⟨s, hslot, by rw [hholder]; rfl⟩) ?_
  show books.fail slot error = _
  rw [fail, hslot]
  dsimp only
  rw [if_pos (show outlivesReceipt (error.withInstance s.instanceId) = true from houtlives),
    keep_eq hslot hcharged rfl]

theorem settles_read (hordinary : outlivesReceipt error = false) :
    Settles books slot s [.fail slot error, .receive slot]
      (.received (error.withInstance s.instanceId) s.unresolved) := by
  refine settles_published hslot hholder hordinary fun published h => ?_
  refine ⟨heldBy_iff.mpr ⟨_, h, rfl⟩, ?_⟩
  show published.receive slot = _
  rw [receive, h]
  exact letGo_eq h hcharged rfl

theorem settles_unread (hordinary : outlivesReceipt error = false) :
    Settles books slot s [.fail slot error, .abandon slot]
      (.abandoned (error.withInstance s.instanceId)) := by
  refine settles_published hslot hholder hordinary fun published h => ?_
  refine ⟨heldBy_iff.mpr ⟨_, h, rfl⟩, ?_⟩
  show published.abandon slot = _
  rw [abandon, h]
  exact keep_eq h hcharged rfl

theorem Finished.settles (finished : Finished) (read : Bool) :
    Settles books slot s (finished.actions slot read)
      (finished.settlement s.instanceId s.unresolved read) := by
  cases finished with
  | value => exact settles_succeed hslot hcharged hholder
  | panicked => exact settles_succeed hslot hcharged hholder
  | failed error =>
    simp only [actions, settlement]
    by_cases houtlives : outlivesReceipt error = true
    · rw [if_pos houtlives, if_pos houtlives]
      exact settles_cleanup hslot hcharged hholder houtlives
    · rw [if_neg houtlives, if_neg houtlives]
      have hordinary : outlivesReceipt error = false := Bool.eq_false_iff.mpr houtlives
      cases read with
      | true => exact settles_read hslot hcharged hholder hordinary
      | false => exact settles_unread hslot hcharged hholder hordinary

theorem Course.settles (kind : IntegrationKind) (operation : IntegrationOperation)
    (course : Course) :
    Settles books slot s (course.actions kind operation slot)
      (course.settlement kind operation s.instanceId s.unresolved) := by
  cases course with
  | operated finished read => exact finished.settles hslot hcharged hholder read
  | here finished => exact finished.settles hslot hcharged hholder true
  | dropped => exact settles_succeed hslot hcharged hholder
  | abandoned mark =>
    simp only [actions, settlement]
    by_cases hsubmitted : mark = some true
    · rw [if_pos hsubmitted, if_pos hsubmitted]
      exact settles_unread hslot hcharged hholder rfl
    · rw [if_neg hsubmitted, if_neg hsubmitted]
      exact settles_succeed hslot hcharged hholder
  | retained finished waiterGone read =>
    simp only [actions, settlement]
    by_cases hanswers : answers waiterGone finished = true
    · rw [if_pos hanswers, if_pos hanswers]
      exact settles_succeed hslot hcharged hholder
    · rw [if_neg hanswers, if_neg hanswers]
      exact finished.settles hslot hcharged hholder read

end Settles

theorem Slot.Sound.history_eq {slot : Slot} (h : slot.Sound) {how : Settled}
    (hholder : slot.holder = .settled how) :
    slot.history = how.retained.toList.map fun error =>
      (slot.instanceId, error.withInstance slot.instanceId) := by
  rw [Slot.history, (h.settled hholder).2.1]
  cases how.retained <;> rfl

/-- In every interleaving the reserved count is the number of slots not settled, and it never
exceeds the budget together with the history; every slot settles once, with a reservation to take
back; an abandoned failure, a failed cleanup and a failed close are in the history once and leave it
with the transfer; of an ordinary failure its caller received nothing stays, but what the
operation's own register still owed; identities increase; and the course of an operation, whichever
it is, a close and a failed close each settle their slot. -/
theorem report_accounts_balance {trace : List Action} {books : Books}
    (run : Runs Steps .new trace books) :
    books.ledger.reserved = books.slots.countP (fun s => !s.holder.isSettled) ∧
    books.ledger.reserved + books.ledger.retained.length ≤ reportBudget ∧
    books.clamped = 0 ∧
    (∀ s ∈ books.slots, s.settlements.length = if s.holder.isSettled then 1 else 0) ∧
    (books.transferred ++ books.ledger.retained).Perm (books.slots.flatMap Slot.history) ∧
    (books.transfer.transferred.Perm (books.slots.flatMap Slot.history) ∧
      books.transfer.ledger.retained = []) ∧
    (∀ s ∈ books.slots, ∀ error, s.holder = .settled (.abandoned error) ∨
      s.holder = .settled (.cleanup error) ∨ s.holder = .settled (.closeFailed error) →
        s.history = [(s.instanceId, error.withInstance s.instanceId)]) ∧
    (∀ s ∈ books.slots, ∀ error owed, s.holder = .settled (.received error owed) →
      outlivesReceipt error = false ∧ ∀ entry ∈ s.history, entry.2.failure = .cleanupIncomplete) ∧
    books.issued.Pairwise (· < ·) ∧
    (∀ slot s kind operation course, books.slots[slot]? = some s → s.holder = .operationAccount →
      Settles books slot s (Course.actions kind operation slot course)
        (Course.settlement kind operation s.instanceId s.unresolved course)) ∧
    (∀ slot s, books.slots[slot]? = some s → s.holder.isInstance = true →
      Settles books slot s [.close slot] (.closed s.unresolved) ∧
        ∀ error, Settles books slot s [.closeFailed slot error] (.closeFailed error)) := by
  have h := balanced_of_runs run
  have hsound : ∀ s ∈ books.slots, s.Sound := by
    intro s hs
    obtain ⟨i, hi⟩ := List.getElem?_of_mem hs
    exact h.sound hi
  refine ⟨?_, h.budget, h.clamped, ?_, h.history, ⟨h.history, rfl⟩, ?_, ?_, h.increasing, ?_, ?_⟩
  · rw [h.reserved]
    refine List.countP_congr fun s hs => ?_
    cases hholder : s.holder with
    | settled how => simp [((hsound s hs).settled hholder).1, Holder.isSettled]
    | _ => simp [((hsound s hs).pending (by rw [hholder]; rfl)).1, Holder.isSettled]
  · intro s hs
    cases hholder : s.holder with
    | settled how =>
      rw [((hsound s hs).settled hholder).2.1]
      rfl
    | _ =>
      rw [((hsound s hs).pending (by rw [hholder]; rfl)).2]
      rfl
  · intro s hs error hholder
    rcases hholder with hholder | hholder | hholder
    · exact (hsound s hs).history_eq hholder
    · exact (hsound s hs).history_eq hholder
    · exact (hsound s hs).history_eq hholder
  · intro s hs error owed hholder
    obtain ⟨-, -, hordinary, howed⟩ := (hsound s hs).settled hholder
    refine ⟨hordinary, fun entry hentry => ?_⟩
    rw [(hsound s hs).history_eq hholder] at hentry
    obtain ⟨kept, hkept, rfl⟩ := List.mem_map.mp hentry
    exact howed kept (Option.mem_toList.mp hkept)
  · intro slot s kind operation course hslot hholder
    have hcharged := ((h.sound hslot).pending (by rw [hholder]; rfl)).1
    exact course.settles hslot hcharged hholder kind operation
  · intro slot s hslot hinstance
    exact settles_close hslot
      ((h.sound hslot).pending (Holder.not_settled_of_instance hinstance)).1 hinstance

def sampleAccounts : List Action :=
  [.admission .nats .connect, .reserve 0 .publish, .admission .sqs .ready, .reserve 0 .publish,
    .fail 1 (cutShort .nats .publish), .abandon 1,
    .fail 3 (.new .nats .publish .timeout .safe), .receive 3,
    .close 0, .closeFailed 2 (.new .sqs .close .timeout .safe), .transfer]

theorem report_accounts_balance_sampleAccounts :
    ∃ books, Runs Steps .new sampleAccounts books ∧
      books.ledger.reserved = books.slots.countP (fun s => !s.holder.isSettled) ∧
      books.clamped = 0 ∧ books.issued = [1, 2] ∧
      books.transferred.map Prod.fst = [1, 2] := by
  have hready : ReadyAll Ready act .new sampleAccounts := by decide
  have run := runs_replay hready
  obtain ⟨hreserved, -, hclamped, -⟩ := report_accounts_balance run
  exact ⟨_, run, hreserved, hclamped, by decide, by decide⟩

end Camber.Integration
