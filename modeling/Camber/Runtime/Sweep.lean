import Camber.Runtime.Registry

/-! The account of slots over whole runs, and what a sweep leaves of the async children. -/

namespace Camber.Runtime

open Transition Scope Roster

namespace Scope

variable {scope : Scope}

theorem children_act {action : Action} (hready : scope.Ready action) :
    (∃ kind, action = .admission kind ∧ scope.admission = .open_ ∧
      (scope.act action).children = scope.children ++ [.new scope.nextId kind] ∧
      (scope.act action).nextId = (scope.nextId + 1) % taskIds) ∨
    ((∀ handle, action ≠ .dropSlot handle) ∧ (scope.act action).nextId = scope.nextId ∧
      ∃ handle change, (scope.act action).children = scope.children.modify handle change ∧
        ∀ child : Child, (change child).slot = child.slot ∧ (change child).id = child.id) ∨
    (∃ handle child, action = .dropSlot handle ∧ scope.children[handle]? = some child ∧
      child.slot = true ∧ (scope.act action).nextId = scope.nextId ∧
      (scope.act action).children = scope.children.modify handle ({ · with slot := false })) := by
  -- a step that leaves the children alone changes one of them into itself
  have hsame : ∀ {next : Scope}, next.children = scope.children →
      ∃ handle change, next.children = scope.children.modify handle change ∧
        ∀ child : Child, (change child).slot = child.slot ∧ (change child).id = child.id := by
    intro next hnext
    refine ⟨scope.children.length, id, ?_, fun _ => ⟨rfl, rfl⟩⟩
    rw [hnext, List.modify_eq_self le_rfl]
  cases action with
  | admission kind =>
    rcases scope.admitChild_cases kind with ⟨hopen, hgranted⟩ | ⟨-, hgranted⟩
    · exact .inl ⟨kind, rfl, hopen, by rw [act, hgranted]; rfl, by rw [act, hgranted]; rfl⟩
    · exact .inr (.inl ⟨by simp, by rw [act, hgranted], hsame (by rw [act, hgranted])⟩)
  | spawn handle | reject handle | openGate handle | startBody handle =>
    exact .inr (.inl ⟨by simp, rfl, handle, _, rfl, fun _ => ⟨rfl, rfl⟩⟩)
  | register handle =>
    obtain ⟨child, hchild, -⟩ := childIs_iff.mp hready
    have hact : scope.act (.register handle) = scope.registerChild handle := rfl
    rw [hact]
    rcases registerChild_cases hchild with ⟨-, -, hnext⟩ | ⟨-, hnext⟩
    · rw [hnext]
      exact .inr (.inl ⟨by simp, rfl, handle, _, rfl, fun _ => ⟨rfl, rfl⟩⟩)
    · rw [hnext]
      exact .inr (.inl ⟨by simp, rfl, handle, _, rfl, fun _ => ⟨rfl, rfl⟩⟩)
  | dropSlot handle =>
    obtain ⟨child, hchild, hslot⟩ := childIs_iff.mp hready
    have hdrop : scope.act (.dropSlot handle) =
        (scope.update handle ({ · with slot := false })).finish child.id child.kind := by
      rw [act, dropSlot, hchild]
    obtain ⟨hchildren, hnext⟩ :=
      (scope.update handle ({ · with slot := false })).finish_keeps child.id child.kind
    rw [hdrop]
    exact .inr (.inr ⟨handle, child, rfl, hchild, hslot, hnext, hchildren⟩)
  | close => exact .inr (.inl ⟨by simp, rfl, hsame rfl⟩)
  | sweep => exact .inr (.inl ⟨by simp, rfl, hsame rfl⟩)
  | abortSwept =>
    have hact : scope.act .abortSwept = scope.abortSwept := rfl
    rw [hact, abortSwept]
    split
    next handle rest _ => exact .inr (.inl ⟨by simp, rfl, handle, _, rfl, fun _ => ⟨rfl, rfl⟩⟩)
    next => exact .inr (.inl ⟨by simp, rfl, hsame rfl⟩)

theorem rank_le_finish (scope : Scope) (id : TaskId) (kind : ChildKind) :
    scope.admission.rank ≤ (scope.finish id kind).admission.rank := by
  have hkept : (scope.removeChild id kind).admission = scope.admission := by cases kind <;> rfl
  unfold finish
  dsimp only
  split
  · exact le_of_eq (by rw [hkept])
  · rw [hkept]
    exact scope.admission.rank_le_onDrained
  · exact le_of_eq (by rw [hkept])

theorem rank_act {action : Action} (hready : scope.Ready action) :
    scope.admission.rank ≤ (scope.act action).admission.rank := by
  cases action with
  | admission kind =>
    rcases scope.admitChild_cases kind with ⟨-, hgranted⟩ | ⟨-, hgranted⟩
    · rw [act, hgranted]
      exact le_rfl
    · rw [act, hgranted]
  | spawn | reject | openGate | startBody | sweep => exact le_rfl
  | register handle =>
    obtain ⟨child, hchild, -⟩ := childIs_iff.mp hready
    rcases registerChild_cases hchild with ⟨-, -, hnext⟩ | ⟨-, hnext⟩
    · rw [act, hnext]
      exact le_rfl
    · rw [act, hnext]
      exact le_rfl
  | dropSlot handle =>
    obtain ⟨child, hchild, -⟩ := childIs_iff.mp hready
    rw [act, dropSlot, hchild]
    exact rank_le_finish (scope.update handle ({ · with slot := false })) child.id child.kind
  | close => exact scope.admission.rank_le_onClose scope.count
  | abortSwept =>
    rw [act, abortSwept]
    split
    · exact le_rfl
    · exact le_rfl

end Scope

variable {scope : Scope} {trace : List Action}

theorem closes_of_runs {before : Scope} (h : Counted before) (run : Runs Steps before trace scope) :
    Counted scope ∧ before.admission.rank ≤ scope.admission.rank ∧
      (before.closeRequested = true → scope.closeRequested = true ∧
        scope.children.length = before.children.length) := by
  induction run with
  | nil => exact ⟨h, le_rfl, fun hrequested => ⟨hrequested, rfl⟩⟩
  | @snoc _ state _ action _ step ih =>
    obtain ⟨hready, rfl⟩ := step
    obtain ⟨hcounted, hrank, hclosed⟩ := ih
    have hnext := hcounted.act hready
    have hstep := Scope.rank_act hready
    refine ⟨hnext, hrank.trans hstep, fun hrequested => ?_⟩
    obtain ⟨hstate, hlength⟩ := hclosed hrequested
    have hshut : state.admission ≠ .open_ := hcounted.requested.mp hstate
    constructor
    · -- admission cannot open again
      rw [hnext.requested]
      intro hopen
      rw [hopen] at hstep
      cases hadmission : state.admission <;> simp_all [Admission.rank]
    · rw [← hlength]
      rcases Scope.children_act hready with ⟨_, -, hopen, -⟩ | ⟨-, -, _, _, hchildren, -⟩ |
        ⟨_, _, -, -, -, -, hchildren⟩
      · exact absurd hopen hshut
      · rw [hchildren, List.length_modify]
      · rw [hchildren, List.length_modify]

structure Released (trace : List Action) (scope : Scope) : Prop where
  once : ∀ {handle : Handle} {child : Child}, scope.children[handle]? = some child →
    trace.count (.dropSlot handle) = if child.slot then 0 else 1
  unborn : ∀ {handle : Handle}, scope.children.length ≤ handle →
    trace.count (.dropSlot handle) = 0

namespace Released

variable {trace : List Action} {scope : Scope}

theorem count_other {action : Action} {handle : Handle} (hne : action ≠ .dropSlot handle) :
    (trace ++ [action]).count (.dropSlot handle) = trace.count (.dropSlot handle) := by
  rw [List.count_append, List.count_singleton]
  simp [hne]

theorem act (h : Released trace scope) {action : Action} (hready : scope.Ready action) :
    Released (trace ++ [action]) (scope.act action) := by
  rcases Scope.children_act hready with ⟨kind, rfl, -, hchildren, -⟩ |
    ⟨hother, -, handle, change, hchildren, hslot⟩ |
    ⟨handle, child, rfl, hchild, hslot, -, hchildren⟩
  · refine ⟨?_, ?_⟩
    · intro i new hnew
      rw [count_other (by simp)]
      rw [hchildren] at hnew
      rcases of_getElem?_join hnew with hold | ⟨rfl, rfl⟩
      · exact h.once hold
      · exact h.unborn le_rfl
    · intro i hi
      rw [count_other (by simp)]
      apply h.unborn
      rw [hchildren, List.length_append] at hi
      omega
  · refine ⟨?_, ?_⟩
    · intro i new hnew
      rw [count_other (hother i)]
      rw [hchildren] at hnew
      obtain ⟨child, hchild, hnew⟩ := of_getElem?_modify hnew
      have hsame : new.slot = child.slot := by
        rw [hnew]
        split
        · exact (hslot child).1
        · rfl
      rw [hsame]
      exact h.once hchild
    · intro i hi
      rw [count_other (hother i)]
      apply h.unborn
      rwa [hchildren, List.length_modify] at hi
  · refine ⟨?_, ?_⟩
    · intro i new hnew
      rw [hchildren] at hnew
      obtain ⟨old, hold, hnew⟩ := of_getElem?_modify hnew
      by_cases hi : handle = i
      · subst hi
        rw [hchild] at hold
        cases hold
        rw [if_pos rfl] at hnew
        rw [hnew, List.count_append, h.once hchild, hslot]
        simp
      · rw [if_neg hi] at hnew
        rw [count_other (by simpa using hi), hnew]
        exact h.once hold
    · intro i hi
      rw [hchildren, List.length_modify] at hi
      have hlt : handle < scope.children.length := (List.getElem?_eq_some_iff.mp hchild).1
      have hne : handle ≠ i := (Nat.lt_of_lt_of_le hlt hi).ne
      rw [count_other (by simpa using hne)]
      exact h.unborn hi

end Released

theorem released_of_runs (run : Runs Steps .new trace scope) : Released trace scope := by
  induction run with
  | nil => exact ⟨by simp [Scope.new], by simp⟩
  | snoc _ step ih =>
    obtain ⟨hready, rfl⟩ := step
    exact ih.act hready

/-- Identities are handed out in order, and come round after `taskIds` of them. -/
structure Numbered (scope : Scope) : Prop where
  nextId : scope.nextId = scope.children.length % taskIds
  ids : ∀ {handle : Handle} {child : Child}, scope.children[handle]? = some child →
    child.id = handle % taskIds

theorem Numbered.mintsFresh (h : Numbered scope) {action : Action}
    (hfew : scope.admission = .open_ → scope.children.length < taskIds) :
    MintsFresh scope action := by
  cases action with
  | admission kind =>
    cases kind with
    | async =>
      intro hopen child hmem _
      obtain ⟨handle, hchild⟩ := List.getElem?_of_mem hmem
      have hlt : handle < scope.children.length := (List.getElem?_eq_some_iff.mp hchild).1
      have hbound := hfew hopen
      rw [h.ids hchild, h.nextId, Nat.mod_eq_of_lt hbound, Nat.mod_eq_of_lt (hlt.trans hbound)]
      exact hlt.ne
    | blocking => trivial
  | _ => trivial

theorem Numbered.act (h : Numbered scope) {action : Action} (hready : scope.Ready action) :
    Numbered (scope.act action) := by
  have hmodify : ∀ {handle : Handle} {change : Child → Child},
      (∀ child, (change child).id = child.id) →
      (scope.act action).nextId = scope.nextId →
      (scope.act action).children = scope.children.modify handle change →
      Numbered (scope.act action) := by
    intro handle change hid hnext hchildren
    refine ⟨by rw [hnext, hchildren, List.length_modify]; exact h.nextId, ?_⟩
    intro i new hnew
    rw [hchildren] at hnew
    obtain ⟨child, hchild, hnew⟩ := of_getElem?_modify hnew
    have hsame : new.id = child.id := by
      rw [hnew]
      split
      · exact hid child
      · rfl
    rw [hsame]
    exact h.ids hchild
  rcases Scope.children_act hready with ⟨kind, -, -, hchildren, hnext⟩ |
    ⟨-, hnext, handle, change, hchildren, hkeeps⟩ | ⟨handle, _, -, -, -, hnext, hchildren⟩
  · constructor
    · rw [hnext, hchildren, List.length_append, h.nextId, Nat.mod_add_mod]
      rfl
    · intro i new hnew
      rw [hchildren] at hnew
      rcases of_getElem?_join hnew with hold | ⟨rfl, rfl⟩
      · exact h.ids hold
      · exact h.nextId
  · exact hmodify (fun child => (hkeeps child).2) hnext hchildren
  · refine hmodify ?_ hnext hchildren
    exact fun _ => rfl

theorem guarded_of_few (run : Runs Steps .new trace scope) (hfew : scope.children.length ≤ taskIds) :
    Numbered scope ∧ Runs (Guarded Steps MintsFresh) .new trace scope := by
  induction run with
  | nil => exact ⟨⟨rfl, by simp [Scope.new]⟩, .nil⟩
  | @snoc _ state _ action _ step ih =>
    obtain ⟨hready, rfl⟩ := step
    have hgrows : state.children.length ≤ (state.act action).children.length := by
      rcases Scope.children_act hready with ⟨_, -, -, hchildren, -⟩ | ⟨-, -, _, _, hchildren, -⟩ |
        ⟨_, _, -, -, -, -, hchildren⟩
      · rw [hchildren, List.length_append]
        exact Nat.le_add_right _ _
      · rw [hchildren, List.length_modify]
      · rw [hchildren, List.length_modify]
    obtain ⟨hnumbered, guarded⟩ := ih (hgrows.trans hfew)
    refine ⟨hnumbered.act hready, guarded.snoc ⟨⟨hready, rfl⟩, ?_⟩⟩
    -- only an admission that mints has to be looked at, and it adds a child
    cases action with
    | admission kind =>
      refine hnumbered.mintsFresh fun hopen => ?_
      have hgranted : (state.act (.admission kind)).children.length =
          state.children.length + 1 := by
        rw [Scope.act, admitChild, hopen]
        exact List.length_append
      omega
    | _ => trivial

/-- What the sweep leaves of the async children: each one that is alive was aborted by the sweep or
by its own registration, or has not registered and not run. -/
def Scope.AllStopped (scope : Scope) : Prop :=
  ∀ child ∈ scope.children, child.live = true →
    child.aborted = true ∨ (child.stage.registers = false ∧ child.started = false)

instance (scope : Scope) : Decidable scope.AllStopped :=
  inferInstanceAs (Decidable (∀ child ∈ scope.children, _))

theorem Tracked.allStopped (h : Tracked scope) (hstopped : scope.stopped = true)
    (hswept : scope.sweeping = []) : scope.AllStopped := by
  intro child hmem hlive
  obtain ⟨handle, hchild⟩ := List.getElem?_of_mem hmem
  by_cases hregisters : child.stage.registers = true
  · rcases h.swept hstopped hchild hlive hregisters with haborted | hpending
    · exact .inl haborted
    · rw [hswept] at hpending
      cases hpending
  · right
    refine ⟨by simpa using hregisters, ?_⟩
    rw [Bool.eq_false_iff]
    intro hstarted
    rw [h.started hchild hstarted] at hregisters
    exact hregisters rfl

/-- In every interleaving the count is the number of slots not dropped, each slot is released once,
admission only moves on and is closed exactly when it was asked to be and no slot is left, and
nobody joins a scope after its close. -/
theorem root_scope_accounts {early late : List Action} {before scope : Scope}
    (hearly : Runs Steps .new early before) (hlate : Runs Steps before late scope) :
    scope.count = scope.children.countP Child.slot ∧ scope.unadmitted = 0 ∧
    (∀ handle child, scope.children[handle]? = some child →
      (early ++ late).count (.dropSlot handle) = if child.slot then 0 else 1) ∧
    (before.closeRequested = true → scope.children.length = before.children.length) ∧
    before.admission.rank ≤ scope.admission.rank ∧
    (scope.admission = .closed ↔ scope.closeRequested = true ∧ scope.count = 0) ∧
    (Runs (Guarded Steps MintsFresh) .new (early ++ late) scope →
      (∀ id handle, scope.asyncChildren.lookup id = some (some handle) →
        ∃ child, scope.children[handle]? = some child ∧ child.live = true ∧ child.id = id) ∧
      (scope.stopped = true → scope.sweeping = [] → scope.AllStopped)) := by
  obtain ⟨hcounted, hrank, hclosed⟩ := closes_of_runs (counted_of_runs hearly) hlate
  have hreleased := released_of_runs (hearly.append hlate)
  refine ⟨hcounted.slots, hcounted.admitted, fun _ _ hchild => hreleased.once hchild,
    fun hrequested => (hclosed hrequested).2, hrank, hcounted.closed, fun guarded => ?_⟩
  have htracked := tracked_of_runs guarded
  refine ⟨fun id handle hentry => ?_, htracked.allStopped⟩
  obtain ⟨owner, child, hchild, hlive, hid, howner⟩ := htracked.owned hentry
  rw [Child.entry] at howner
  split at howner
  · cases howner
    exact ⟨child, hchild, hlive, hid⟩
  · cases howner

/-- One child runs, a second is spawned and a third only counted when the scope closes and is swept:
the first is aborted by the sweep, the second by its registration. -/
def sampleEarly : List Action :=
  [.admission .async, .spawn 0, .register 0, .openGate 0, .startBody 0, .admission .async,
    .spawn 1, .admission .async, .close]

def sampleLate : List Action :=
  [.admission .blocking, .sweep, .register 1, .reject 1, .abortSwept, .dropSlot 1]

theorem root_scope_accounts_sample :
    ∃ before scope, Runs Steps .new sampleEarly before ∧ Runs Steps before sampleLate scope ∧
      before.closeRequested = true ∧ scope.children.length = before.children.length ∧
      scope.count = 2 ∧ scope.count = scope.children.countP Child.slot ∧
      scope.stopped = true ∧ scope.sweeping = [] ∧ scope.AllStopped := by
  have hearly : ReadyAll Ready Scope.act .new sampleEarly := by decide
  have hlate : ReadyAll Ready Scope.act (replay Scope.act .new sampleEarly) sampleLate := by
    decide +kernel
  obtain ⟨hcount, -, -, hclosed, -, -, hswept⟩ :=
    root_scope_accounts (runs_replay hearly) (runs_replay hlate)
  have guarded := (guarded_of_few ((runs_replay hearly).append (runs_replay hlate))
    (by decide +kernel)).2
  refine ⟨_, _, runs_replay hearly, runs_replay hlate, by decide +kernel,
    hclosed (by decide +kernel), by decide +kernel, hcount, by decide +kernel, by decide +kernel,
    (hswept guarded).2 (by decide +kernel) (by decide +kernel)⟩

structure Rounded (scope next : Scope) (minted : ℕ) : Prop where
  admission : next.admission = .open_
  nextId : next.nextId = (scope.nextId + minted) % taskIds
  registry : next.asyncChildren = scope.asyncChildren
  stopped : next.stopped = scope.stopped
  sweeping : next.sweeping = scope.sweeping
  children : ∀ {handle : Handle} {child : Child}, scope.children[handle]? = some child →
    next.children[handle]? = some child

theorem round (hopen : scope.admission = .open_) :
    ∃ next, Runs Steps scope [.admission .blocking, .dropSlot scope.children.length] next ∧
      Rounded scope next 1 := by
  have hgranted : scope.act (.admission .blocking) = scope.countChild .blocking := by
    rw [Scope.act, admitChild, hopen]
  have hchild : (scope.countChild .blocking).children[scope.children.length]? =
      some (.new scope.nextId .blocking) := getElem?_join_length
  have hready : ReadyAll Ready Scope.act scope
      [.admission .blocking, .dropSlot scope.children.length] := by
    refine ⟨trivial, ?_, trivial⟩
    rw [hgranted]
    exact childIs_iff.mpr ⟨_, hchild, rfl⟩
  have hdrop : replay Scope.act scope [.admission .blocking, .dropSlot scope.children.length] =
      ((scope.countChild .blocking).update scope.children.length
        ({ · with slot := false })).finish scope.nextId .blocking := by
    show dropSlot _ (scope.act (.admission .blocking)) = _
    rw [hgranted, dropSlot, hchild]
    rfl
  refine ⟨_, runs_replay hready, ?_⟩
  rw [hdrop, finish_counted (Nat.succ_pos _)]
  refine ⟨?_, rfl, rfl, rfl, rfl, ?_⟩
  · show (if scope.count + 1 = 1 then scope.admission.onDrained else scope.admission) = .open_
    rw [hopen]
    split
    · rfl
    · rfl
  · intro handle child hold
    have hne : scope.children.length ≠ handle :=
      (List.getElem?_eq_some_iff.mp hold).1.ne'
    exact (getElem?_modify_ne hne).trans (getElem?_join_of_some hold)

theorem rounds (hopen : scope.admission = .open_) (hid : scope.nextId < taskIds) (minted : ℕ) :
    ∃ trace next, Runs Steps scope trace next ∧ Rounded scope next minted := by
  induction minted with
  | zero => exact ⟨[], scope, .nil, hopen, (Nat.mod_eq_of_lt hid).symm, rfl, rfl, rfl, fun h => h⟩
  | succ minted ih =>
    obtain ⟨trace, mid, run, hmid⟩ := ih
    obtain ⟨next, hlast, hnext⟩ := round hmid.admission
    refine ⟨_, next, run.append hlast, hnext.admission, ?_, hnext.registry.trans hmid.registry,
      hnext.stopped.trans hmid.stopped, hnext.sweeping.trans hmid.sweeping,
      fun hchild => hnext.children (hmid.children hchild)⟩
    rw [hnext.nextId, hmid.nextId, Nat.mod_add_mod, Nat.add_assoc]

def runningChild : List Action :=
  [.admission .async, .spawn 0, .register 0, .openGate 0, .startBody 0]

/-- The identities come round to that of a child that still runs: the next admission resets its
entry, and the sweep does not find it. -/
theorem reused_identity_escapes_sweep :
    ∃ trace scope, Runs Steps .new trace scope ∧ scope.stopped = true ∧ scope.sweeping = [] ∧
      ∃ child ∈ scope.children, child.live = true ∧ child.started = true ∧
        child.stage.registers = true ∧ child.aborted = false := by
  have hready : ReadyAll Ready Scope.act .new runningChild := by decide +kernel
  obtain ⟨trace, mid, run, hmid⟩ := @rounds (replay Scope.act .new runningChild)
    (by decide +kernel) (by decide) (taskIds - 1)
  have hid : mid.nextId = 0 := by
    rw [hmid.nextId]
    decide
  have hregistry : (mid.countChild .async).asyncChildren = [(0, none)] := by
    show SortedMap.entry mid.nextId none _ mid.asyncChildren = _
    rw [hid, hmid.registry]
    decide
  have hlast : ReadyAll Ready Scope.act mid [.admission .async, .sweep] :=
    ⟨trivial, trivial, trivial⟩
  have hnext : replay Scope.act mid [.admission .async, .sweep] =
      (mid.countChild .async).takeAsyncChildren := by
    show (mid.admitChild .async).takeAsyncChildren = _
    rw [admitChild, hmid.admission]
  refine ⟨_, _, ((runs_replay hready).append run).append (runs_replay hlast), ?_, ?_, ?_⟩
  · rw [hnext]
    rfl
  · rw [hnext]
    show mid.sweeping ++ (mid.countChild .async).asyncChildren.filterMap Prod.snd = []
    rw [hregistry, hmid.sweeping]
    decide
  · rw [hnext]
    refine ⟨⟨0, .async, .gateOpen, true, true, false⟩, ?_, rfl, rfl, rfl, rfl⟩
    have hchild : mid.children[0]? = some ⟨0, .async, .gateOpen, true, true, false⟩ :=
      hmid.children (by decide)
    exact List.mem_of_getElem? (getElem?_join_of_some hchild)

end Camber.Runtime
