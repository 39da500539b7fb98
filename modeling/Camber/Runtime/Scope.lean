import Camber.Lib.Roster
import Camber.Lib.SortedMap
import Camber.Lib.Transition

/-! Every child of a runtime is admitted to its root scope, which counts it, keeps the handle an
async child was spawned with, and refuses children once it is closed. -/

namespace Camber.Runtime

open Transition

inductive Admission where
  | open_
  | closing
  | closed
deriving DecidableEq

namespace Admission

def onClose : Admission → ℕ → Admission
  | .open_, 0 => .closed
  | .open_, _ => .closing
  | already, _ => already

def onDrained : Admission → Admission
  | .closing | .closed => .closed
  | .open_ => .open_

def rank : Admission → ℕ
  | .open_ => 0
  | .closing => 1
  | .closed => 2

theorem rank_le_onClose (admission : Admission) (count : ℕ) :
    admission.rank ≤ (admission.onClose count).rank := by
  cases admission <;> cases count <;> simp [onClose, rank]

theorem rank_le_onDrained (admission : Admission) : admission.rank ≤ admission.onDrained.rank := by
  cases admission <;> simp [onDrained, rank]

end Admission

/-- A `u64`, minted with a wrapping increment. -/
abbrev TaskId := ℕ

def taskIds : ℕ := 2 ^ 64

inductive ChildKind where
  | async
  | blocking
deriving DecidableEq

inductive Stage where
  | counted
  | spawned
  | registered
  | refused
  /-- The caller has aborted the child and reported `ScopeClosed`. -/
  | rejected
  | gateOpen
deriving DecidableEq

namespace Stage

def registers : Stage → Bool
  | .registered | .gateOpen => true
  | .counted | .spawned | .refused | .rejected => false

def pending : Stage → Bool
  | .counted | .spawned => true
  | .registered | .refused | .rejected | .gateOpen => false

end Stage

/-- One child ever admitted. -/
structure Child where
  id : TaskId
  kind : ChildKind
  stage : Stage
  slot : Bool
  started : Bool
  aborted : Bool
deriving DecidableEq

def Child.new (id : TaskId) (kind : ChildKind) : Child := ⟨id, kind, .counted, true, false, false⟩

def Child.isAsync (child : Child) : Bool := child.kind = .async

abbrev Handle := ℕ

/-- `ScopeState` with the flag of the sweep, and the children the scope has admitted. -/
structure Scope where
  admission : Admission
  count : ℕ
  nextId : TaskId
  asyncChildren : List (TaskId × Option Handle)
  blockingChildren : List (TaskId × Unit)
  stopped : Bool
  closeRequested : Bool
  children : List Child
  sweeping : List Handle
  unadmitted : ℕ
deriving DecidableEq

namespace Scope

def new : Scope where
  admission := .open_
  count := 0
  nextId := 0
  asyncChildren := []
  blockingChildren := []
  stopped := false
  closeRequested := false
  children := []
  sweeping := []
  unadmitted := 0

/-- `count_child`: the identity, the count and the registry entry together. -/
def countChild (kind : ChildKind) (scope : Scope) : Scope :=
  let id := scope.nextId
  { scope with
    nextId := (id + 1) % taskIds
    count := scope.count + 1
    asyncChildren :=
      if kind = .async then SortedMap.entry id none (fun _ => none) scope.asyncChildren
      else scope.asyncChildren
    blockingChildren :=
      if kind = .blocking then SortedMap.entry id () (fun _ => ()) scope.blockingChildren
      else scope.blockingChildren
    children := scope.children ++ [.new id kind] }

def admitChild (kind : ChildKind) (scope : Scope) : Scope :=
  match scope.admission with
  | .open_ => scope.countChild kind
  | .closing | .closed => scope

def removeChild (id : TaskId) (kind : ChildKind) (scope : Scope) : Scope :=
  match kind with
  | .async => { scope with asyncChildren := SortedMap.remove id scope.asyncChildren }
  | .blocking => { scope with blockingChildren := SortedMap.remove id scope.blockingChildren }

def finish (id : TaskId) (kind : ChildKind) (scope : Scope) : Scope :=
  let scope := scope.removeChild id kind
  match scope.count with
  | 0 => { scope with unadmitted := scope.unadmitted + 1 }
  | 1 => { scope with count := 0, admission := scope.admission.onDrained }
  | current => { scope with count := current - 1 }

def update (handle : Handle) (change : Child → Child) (scope : Scope) : Scope :=
  { scope with children := scope.children.modify handle change }

def fillEntry (id : TaskId) (handle : Handle) (scope : Scope) : Scope :=
  { scope with
    asyncChildren := SortedMap.entry id none (fun _ => some handle) scope.asyncChildren }

/-- `fill_async_handle`: whether there was an entry to fill, and the registry then. -/
def fillAsyncHandle (id : TaskId) (handle : Handle) (scope : Scope) : Option Scope :=
  match scope.asyncChildren.lookup id with
  | some _ => some (scope.fillEntry id handle)
  | none => none

/-- `register_async`: a handle the scope does not keep goes back to the caller. -/
def registerAsync (id : TaskId) (handle : Handle) (scope : Scope) : Scope :=
  match scope.stopped with
  | true => scope.update handle ({ · with stage := .refused })
  | false =>
    match scope.fillAsyncHandle id handle with
    | some filled => filled.update handle ({ · with stage := .registered })
    | none => scope.update handle ({ · with stage := .refused })

/-- `take_async_children` -/
def takeAsyncChildren (scope : Scope) : Scope :=
  { scope with
    stopped := true
    asyncChildren := []
    sweeping := scope.sweeping ++ scope.asyncChildren.filterMap Prod.snd }

def close (scope : Scope) : Scope :=
  { scope with admission := scope.admission.onClose scope.count, closeRequested := true }

end Scope

inductive Action where
  | admission (kind : ChildKind)
  | spawn (handle : Handle)
  | register (handle : Handle)
  /-- The caller aborts a child whose handle came back, and reports `ScopeClosed`. -/
  | reject (handle : Handle)
  | openGate (handle : Handle)
  | startBody (handle : Handle)
  | dropSlot (handle : Handle)
  | close
  | sweep
  | abortSwept
deriving DecidableEq

namespace Scope

def childIs (scope : Scope) (handle : Handle) (test : Child → Bool) : Bool :=
  scope.children[handle]?.any test

/-- What the callers, the executor and the forced stop can do next. -/
def Ready (scope : Scope) : Action → Prop
  | .admission _ | .close | .sweep => True
  | .spawn handle =>
    scope.childIs handle fun child => child.isAsync && child.slot && child.stage == .counted
  | .register handle => scope.childIs handle fun child => child.isAsync && child.stage == .spawned
  | .reject handle => scope.childIs handle fun child => child.stage == .refused
  | .openGate handle => scope.childIs handle fun child => child.stage == .registered
  | .startBody handle => scope.childIs handle fun child =>
      child.stage == .gateOpen && child.slot && !child.aborted
  | .dropSlot handle => scope.childIs handle Child.slot
  | .abortSwept => scope.sweeping ≠ []

instance (scope : Scope) : DecidablePred scope.Ready := fun action => by
  unfold Ready
  split <;> infer_instance

def dropSlot (handle : Handle) (scope : Scope) : Scope :=
  match scope.children[handle]? with
  | some child => (scope.update handle ({ · with slot := false })).finish child.id child.kind
  | none => scope

def registerChild (handle : Handle) (scope : Scope) : Scope :=
  match scope.children[handle]? with
  | some child => scope.registerAsync child.id handle
  | none => scope

def abortSwept (scope : Scope) : Scope :=
  match scope.sweeping with
  | handle :: rest => { scope with sweeping := rest }.update handle ({ · with aborted := true })
  | [] => scope

def act : Action → Scope → Scope
  | .admission kind, scope => scope.admitChild kind
  | .spawn handle, scope => scope.update handle ({ · with stage := .spawned })
  | .register handle, scope => scope.registerChild handle
  | .reject handle, scope =>
    scope.update handle ({ · with stage := .rejected, aborted := true })
  | .openGate handle, scope => scope.update handle ({ · with stage := .gateOpen })
  | .startBody handle, scope => scope.update handle ({ · with started := true })
  | .dropSlot handle, scope => scope.dropSlot handle
  | .close, scope => scope.close
  | .sweep, scope => scope.takeAsyncChildren
  | .abortSwept, scope => scope.abortSwept

end Scope

def Steps : Scope → Action → Scope → Prop := Acts Scope.Ready Scope.act

namespace Scope

variable {scope : Scope}

theorem childIs_iff {handle : Handle} {test : Child → Bool} :
    scope.childIs handle test = true ↔
      ∃ child, scope.children[handle]? = some child ∧ test child = true := by
  rw [childIs, Option.any_eq_true]

theorem admitChild_cases (scope : Scope) (kind : ChildKind) :
    (scope.admission = .open_ ∧ scope.admitChild kind = scope.countChild kind) ∨
      (scope.admission ≠ .open_ ∧ scope.admitChild kind = scope) := by
  unfold admitChild
  cases hadmission : scope.admission with
  | open_ => exact .inl ⟨rfl, rfl⟩
  | closing => exact .inr ⟨by simp, rfl⟩
  | closed => exact .inr ⟨by simp, rfl⟩

theorem finish_keeps (scope : Scope) (id : TaskId) (kind : ChildKind) :
    (scope.finish id kind).children = scope.children ∧
      (scope.finish id kind).nextId = scope.nextId := by
  have hkept : (scope.removeChild id kind).children = scope.children ∧
      (scope.removeChild id kind).nextId = scope.nextId := by cases kind <;> exact ⟨rfl, rfl⟩
  unfold finish
  dsimp only
  split
  · exact hkept
  · exact hkept
  · exact hkept

theorem registerChild_cases {handle : Handle} {child : Child}
    (hchild : scope.children[handle]? = some child) :
    (scope.stopped = false ∧ (∃ entry, scope.asyncChildren.lookup child.id = some entry) ∧
      scope.registerChild handle =
        (scope.fillEntry child.id handle).update handle ({ · with stage := .registered })) ∨
    ((scope.stopped = true ∨ scope.asyncChildren.lookup child.id = none) ∧
      scope.registerChild handle = scope.update handle ({ · with stage := .refused })) := by
  have hregister : scope.registerChild handle = scope.registerAsync child.id handle := by
    rw [registerChild, hchild]
  rw [hregister]
  unfold registerAsync fillAsyncHandle
  cases hstopped : scope.stopped with
  | true => exact .inr ⟨.inl rfl, rfl⟩
  | false =>
    cases hentry : scope.asyncChildren.lookup child.id with
    | none => exact .inr ⟨.inr rfl, rfl⟩
    | some entry => exact .inl ⟨rfl, ⟨entry, rfl⟩, rfl⟩

theorem finish_counted {id : TaskId} {kind : ChildKind} (hcount : 0 < scope.count) :
    scope.finish id kind =
      { scope.removeChild id kind with
        count := scope.count - 1
        admission :=
          if scope.count = 1 then scope.admission.onDrained else scope.admission } := by
  have hkept : (scope.removeChild id kind).count = scope.count ∧
      (scope.removeChild id kind).admission = scope.admission := by
    cases kind <;> exact ⟨rfl, rfl⟩
  unfold finish
  dsimp only
  split
  next hzero =>
    rw [hkept.1] at hzero
    omega
  next hone =>
    rw [hkept.1] at hone
    simp [hone, hkept.2]
  next hzero hone =>
    rw [hkept.1] at hone ⊢
    rw [if_neg (by simpa using hone), ← hkept.2]

end Scope

structure Counted (scope : Scope) : Prop where
  slots : scope.count = scope.children.countP Child.slot
  admitted : scope.unadmitted = 0
  requested : scope.closeRequested = true ↔ scope.admission ≠ .open_
  closed : scope.admission = .closed ↔ scope.closeRequested = true ∧ scope.count = 0

namespace Counted

variable {scope : Scope}

theorem new : Counted .new := ⟨rfl, rfl, by simp [Scope.new], by simp [Scope.new]⟩

variable (h : Counted scope)

include h

theorem frame {next : Scope} (hcount : next.count = scope.count)
    (hslots : next.children.countP Child.slot = scope.children.countP Child.slot)
    (hadmitted : next.unadmitted = scope.unadmitted)
    (hrequested : next.closeRequested = scope.closeRequested)
    (hadmission : next.admission = scope.admission) : Counted next where
  slots := by rw [hcount, hslots]; exact h.slots
  admitted := hadmitted.trans h.admitted
  requested := by rw [hrequested, hadmission]; exact h.requested
  closed := by rw [hrequested, hadmission, hcount]; exact h.closed

theorem update (handle : Handle) {change : Child → Child}
    (hslot : ∀ child, (change child).slot = child.slot) : Counted (scope.update handle change) :=
  h.frame rfl (Roster.countP_modify_same fun child _ => hslot child) rfl rfl rfl

theorem countChild (hopen : scope.admission = .open_) (kind : ChildKind) :
    Counted (scope.countChild kind) where
  slots := by
    show scope.count + 1 = (scope.children ++ [Child.new scope.nextId kind]).countP Child.slot
    rw [Roster.countP_join, ← h.slots]
    rfl
  admitted := h.admitted
  requested := h.requested
  closed := by
    show scope.admission = .closed ↔ scope.closeRequested = true ∧ scope.count + 1 = 0
    simp [hopen]

theorem dropSlot {handle : Handle} {child : Child} (hchild : scope.children[handle]? = some child)
    (hslot : child.slot = true) : Counted (scope.dropSlot handle) := by
  have hpos : 0 < scope.count := by
    rw [h.slots]
    exact Roster.countP_pos_of_getElem? hchild hslot
  have hleave := Roster.countP_modify_leave (f := fun child => { child with slot := false })
    hchild hslot rfl
  have hdrop : scope.dropSlot handle =
      { (scope.update handle ({ · with slot := false })).removeChild child.id child.kind with
        count := scope.count - 1
        admission :=
          if scope.count = 1 then scope.admission.onDrained else scope.admission } := by
    rw [Scope.dropSlot, hchild]
    exact Scope.finish_counted hpos
  have hchildren : (scope.dropSlot handle).children =
      scope.children.modify handle ({ · with slot := false }) := by
    rw [hdrop]
    cases child.kind <;> rfl
  have hrest : (scope.dropSlot handle).unadmitted = scope.unadmitted ∧
      (scope.dropSlot handle).closeRequested = scope.closeRequested := by
    rw [hdrop]
    cases child.kind <;> exact ⟨rfl, rfl⟩
  have hadmission : (scope.dropSlot handle).admission =
      if scope.count = 1 then scope.admission.onDrained else scope.admission := by rw [hdrop]
  have hcount : (scope.dropSlot handle).count = scope.count - 1 := by rw [hdrop]
  refine ⟨?_, hrest.1.trans h.admitted, ?_, ?_⟩
  · rw [hcount, hchildren, h.slots]
    omega
  · rw [hrest.2, hadmission, h.requested]
    split
    · cases scope.admission <;> simp [Admission.onDrained]
    · exact Iff.rfl
  · rw [hrest.2, hadmission, hcount]
    have hrequested := h.requested
    have hclosed := h.closed
    by_cases hlast : scope.count = 1
    · -- the last slot drains the scope: a scope that was asked to close is closed now
      rw [if_pos hlast]
      cases hold : scope.admission <;> simp_all [Admission.onDrained]
    · rw [if_neg hlast, hclosed]
      refine and_congr_right fun _ => ?_
      omega

theorem close : Counted scope.close where
  slots := h.slots
  admitted := h.admitted
  requested := by
    show true = true ↔ scope.admission.onClose scope.count ≠ .open_
    cases scope.admission <;> cases scope.count <;> simp [Admission.onClose]
  closed := by
    show scope.admission.onClose scope.count = .closed ↔ true = true ∧ scope.count = 0
    have hclosed := h.closed
    have hrequested := h.requested
    cases hold : scope.admission <;> cases hcount : scope.count <;>
      simp_all [Admission.onClose]

theorem register {handle : Handle} {child : Child} (hchild : scope.children[handle]? = some child) :
    Counted (scope.registerChild handle) := by
  rcases Scope.registerChild_cases hchild with ⟨-, -, hnext⟩ | ⟨-, hnext⟩
  · rw [hnext]
    have hfill : Counted (scope.fillEntry child.id handle) := h.frame rfl rfl rfl rfl rfl
    exact hfill.update handle fun _ => rfl
  · rw [hnext]
    exact h.update handle fun _ => rfl

theorem abortSwept : Counted scope.abortSwept := by
  unfold Scope.abortSwept
  split
  next handle rest _ =>
    have hrest : Counted { scope with sweeping := rest } := h.frame rfl rfl rfl rfl rfl
    exact hrest.update handle fun _ => rfl
  next => exact h

theorem act {action : Action} (hready : scope.Ready action) : Counted (scope.act action) := by
  cases action with
  | admission kind =>
    rcases scope.admitChild_cases kind with ⟨hopen, hgranted⟩ | ⟨-, hgranted⟩
    · show Counted (scope.admitChild kind)
      rw [hgranted]
      exact h.countChild hopen kind
    · show Counted (scope.admitChild kind)
      rw [hgranted]
      exact h
  | spawn handle | reject handle | openGate handle | startBody handle =>
    exact h.update handle fun _ => rfl
  | register handle =>
    obtain ⟨child, hchild, -⟩ := Scope.childIs_iff.mp hready
    exact h.register hchild
  | dropSlot handle =>
    obtain ⟨child, hchild, hslot⟩ := Scope.childIs_iff.mp hready
    exact h.dropSlot hchild hslot
  | close => exact h.close
  | sweep => exact h.frame rfl rfl rfl rfl rfl
  | abortSwept => exact h.abortSwept

end Counted

theorem counted_of_runs {trace : List Action} {scope : Scope}
    (run : Runs Steps .new trace scope) : Counted scope := by
  induction run with
  | nil => exact Counted.new
  | snoc _ step ih =>
    obtain ⟨hready, rfl⟩ := step
    exact ih.act hready

end Camber.Runtime
