import Camber.Runtime.Scope

/-! The registry holds one entry for each live async child until the sweep takes it. -/

namespace Camber.Runtime

open Transition SortedMap Scope Roster

namespace Child

def live (child : Child) : Bool := child.isAsync && child.slot

def usesId (child : Child) : Bool := child.isAsync && (child.slot || child.stage.pending)

/-- What the registry holds for a child under its identity. -/
def entry (child : Child) (handle : Handle) : Option Handle :=
  if child.stage.registers then some handle else none

theorem usesId_of_live {child : Child} (h : child.live = true) : child.usesId = true := by
  obtain ⟨hasync, hslot⟩ := Bool.and_eq_true_iff.mp h
  simp [usesId, hasync, hslot]

structure Advanced (child next : Child) : Prop where
  id : next.id = child.id
  kind : next.kind = child.kind
  slot : child.isAsync = true → next.slot = child.slot
  registers : next.stage.registers = child.stage.registers
  pending : next.stage.pending = true → child.stage.pending = true
  aborted : child.aborted = true → next.aborted = true
  started : next.started = true → next.stage = .gateOpen

namespace Advanced

variable {child next : Child}

theorem refl (hstarted : child.started = true → child.stage = .gateOpen) : Advanced child child :=
  ⟨rfl, rfl, fun _ => rfl, rfl, fun h => h, fun h => h, hstarted⟩

theorem ofStage {stage stage' : Stage} (hstage : child.stage = stage)
    (hregisters : stage'.registers = stage.registers)
    (hpending : stage'.pending = true → stage.pending = true)
    (hstarted : child.started = true → stage' = .gateOpen) :
    Advanced child { child with stage := stage' } := by
  subst hstage
  exact ⟨rfl, rfl, fun _ => rfl, hregisters, hpending, fun h => h, hstarted⟩

theorem isAsync_eq (h : Advanced child next) : next.isAsync = child.isAsync := by
  rw [isAsync, h.kind]
  rfl

theorem live_eq (h : Advanced child next) : next.live = child.live := by
  rw [live, live, h.isAsync_eq]
  cases hasync : child.isAsync with
  | true => rw [h.slot hasync]
  | false => rfl

theorem entry_eq (h : Advanced child next) (handle : Handle) :
    next.entry handle = child.entry handle := by
  rw [entry, h.registers]
  rfl

theorem usesId (h : Advanced child next) (huses : next.usesId = true) : child.usesId = true := by
  simp only [Child.usesId, h.isAsync_eq, Bool.and_eq_true, Bool.or_eq_true] at huses ⊢
  rw [h.slot huses.1] at huses
  exact ⟨huses.1, huses.2.imp_right h.pending⟩

end Advanced

end Child

/-- An async child is not given an identity an earlier one still uses. -/
def MintsFresh (scope : Scope) : Action → Prop
  | .admission .async => scope.admission = .open_ →
      ∀ child ∈ scope.children, child.usesId = true → child.id ≠ scope.nextId
  | _ => True

structure Tracked (scope : Scope) : Prop where
  strict : StrictKeys scope.asyncChildren
  unique : ∀ {i j : Handle} {child other : Child}, scope.children[i]? = some child →
    scope.children[j]? = some other → child.usesId = true → other.usesId = true →
    child.id = other.id → i = j
  owned : ∀ {id : TaskId} {entry : Option Handle}, scope.asyncChildren.lookup id = some entry →
    ∃ (handle : Handle) (child : Child), scope.children[handle]? = some child ∧
      child.live = true ∧ child.id = id ∧ entry = child.entry handle
  present : scope.stopped = false → ∀ {handle : Handle} {child : Child},
    scope.children[handle]? = some child → child.live = true →
      scope.asyncChildren.lookup child.id = some (child.entry handle)
  swept : scope.stopped = true → ∀ {handle : Handle} {child : Child},
    scope.children[handle]? = some child → child.live = true → child.stage.registers = true →
      child.aborted = true ∨ handle ∈ scope.sweeping
  started : ∀ {handle : Handle} {child : Child}, scope.children[handle]? = some child →
    child.started = true → child.stage = .gateOpen

namespace Tracked

variable {scope next : Scope}

theorem new : Tracked .new where
  strict := List.Pairwise.nil
  unique := by simp [Scope.new]
  owned := by simp [Scope.new]
  present := by simp [Scope.new]
  swept := by simp [Scope.new]
  started := by simp [Scope.new]

variable {handle : Handle} {change : Child → Child} {child : Child}

variable (h : Tracked scope)

include h

theorem advance (hchildren : next.children = scope.children.modify handle change)
    (hregistry : next.asyncChildren = scope.asyncChildren) (hstopped : next.stopped = scope.stopped)
    (hsweeping : ∀ other ∈ scope.sweeping, other ∈ next.sweeping ∨ (other = handle ∧ ∀ child,
      (change child).aborted = true))
    (hadvanced : ∀ child, scope.children[handle]? = some child → child.Advanced (change child)) :
    Tracked next := by
  -- each child of the next state stems from one that has the same identity, slot and entry
  have hstem : ∀ {i : Handle} {new : Child}, next.children[i]? = some new →
      ∃ child, scope.children[i]? = some child ∧ child.Advanced new ∧
        (handle = i → new = change child) := by
    intro i new hnew
    rw [hchildren] at hnew
    obtain ⟨child, hchild, hnew⟩ := of_getElem?_modify hnew
    refine ⟨child, hchild, ?_, fun hi => by rw [hnew, if_pos hi]⟩
    by_cases hi : handle = i
    · subst hi
      rw [if_pos rfl] at hnew
      exact hnew ▸ hadvanced child hchild
    · rw [if_neg hi] at hnew
      rw [hnew]
      exact .refl (h.started hchild)
  have hstem' : ∀ {i : Handle} {child : Child}, scope.children[i]? = some child →
      ∃ new, next.children[i]? = some new ∧ child.Advanced new := by
    intro i child hchild
    rw [hchildren]
    by_cases hi : handle = i
    · subst hi
      exact ⟨_, getElem?_modify_self hchild, hadvanced child hchild⟩
    · exact ⟨child, by rw [getElem?_modify_ne hi]; exact hchild, .refl (h.started hchild)⟩
  refine ⟨?_, ?_, ?_, ?_, ?_, ?_⟩
  · rw [hregistry]
    exact h.strict
  · intro i j new new' hi hj huses huses' hid
    obtain ⟨child, hchild, hadv, -⟩ := hstem hi
    obtain ⟨child', hchild', hadv', -⟩ := hstem hj
    refine h.unique hchild hchild' (hadv.usesId huses) (hadv'.usesId huses') ?_
    rw [← hadv.id, ← hadv'.id]
    exact hid
  · intro id entry hentry
    rw [hregistry] at hentry
    obtain ⟨i, child, hchild, hlive, hid, rfl⟩ := h.owned hentry
    obtain ⟨new, hnew, hadv⟩ := hstem' hchild
    exact ⟨i, new, hnew, hadv.live_eq.trans hlive, hadv.id.trans hid, (hadv.entry_eq i).symm⟩
  · intro hopen i new hnew hlive
    obtain ⟨child, hchild, hadv, -⟩ := hstem hnew
    rw [hregistry, hadv.id, hadv.entry_eq]
    exact h.present (hstopped ▸ hopen) hchild (hadv.live_eq ▸ hlive)
  · intro hclosed i new hnew hlive hregisters
    obtain ⟨child, hchild, hadv, hself⟩ := hstem hnew
    rcases h.swept (hstopped ▸ hclosed) hchild (hadv.live_eq ▸ hlive)
      (hadv.registers ▸ hregisters) with haborted | hmem
    · exact .inl (hadv.aborted haborted)
    · rcases hsweeping i hmem with hmem | ⟨rfl, haborts⟩
      · exact .inr hmem
      · left
        rw [hself rfl]
        exact haborts child
  · intro i new hnew hstarted
    obtain ⟨child, -, hadv, -⟩ := hstem hnew
    exact hadv.started hstarted

theorem moveOn (hchild : scope.children[handle]? = some child)
    (hadvanced : child.Advanced (change child)) : Tracked (scope.update handle change) := by
  refine h.advance rfl rfl rfl (fun _ hmem => .inl hmem) fun other hother => ?_
  rw [hchild] at hother
  cases hother
  exact hadvanced

theorem notStarted (hchild : scope.children[handle]? = some child) (hgate : child.stage ≠ .gateOpen)
    (stage : Stage) (hstarted : child.started = true) : stage = .gateOpen :=
  absurd (h.started hchild hstarted) hgate

theorem frame (hchildren : next.children = scope.children)
    (hregistry : next.asyncChildren = scope.asyncChildren) (hstopped : next.stopped = scope.stopped)
    (hsweeping : next.sweeping = scope.sweeping) : Tracked next := by
  obtain ⟨h₁, h₂, h₃, h₄, h₅, h₆⟩ := h
  refine ⟨?_, ?_, ?_, ?_, ?_, ?_⟩
  · rwa [hregistry]
  · rwa [hchildren]
  · rwa [hregistry, hchildren]
  · rwa [hregistry, hchildren, hstopped]
  · rwa [hchildren, hstopped, hsweeping]
  · rwa [hchildren]

theorem countAsync
    (hfresh : ∀ child ∈ scope.children, child.usesId = true → child.id ≠ scope.nextId) :
    Tracked (scope.countChild .async) := by
  have hregistry : (scope.countChild .async).asyncChildren =
      SortedMap.entry scope.nextId none (fun _ => none) scope.asyncChildren := rfl
  have hlookup : ∀ probe, (scope.countChild .async).asyncChildren.lookup probe =
      if probe = scope.nextId then some none else scope.asyncChildren.lookup probe :=
    fun probe => lookup_entry h.strict _ _ _ probe
  have hjoin : ∀ {i : Handle} {child : Child},
      (scope.countChild .async).children[i]? = some child →
      scope.children[i]? = some child ∨
        (i = scope.children.length ∧ child = Child.new scope.nextId .async) :=
    of_getElem?_join
  have hnew : ∀ {i : Handle} {child : Child}, scope.children[i]? = some child →
      child.usesId = true → child.id ≠ scope.nextId :=
    fun hchild => hfresh _ (List.mem_of_getElem? hchild)
  refine ⟨?_, ?_, ?_, ?_, ?_, ?_⟩
  · rw [hregistry]
    exact strictKeys_entry h.strict _ _ _
  · intro i j child other hi hj huses huses' hid
    rcases hjoin hi with hold | ⟨rfl, rfl⟩
    · rcases hjoin hj with hold' | ⟨rfl, rfl⟩
      · exact h.unique hold hold' huses huses' hid
      · exact absurd hid (hnew hold huses)
    · rcases hjoin hj with hold' | ⟨rfl, rfl⟩
      · exact absurd hid.symm (hnew hold' huses')
      · rfl
  · intro id entry hentry
    rw [hlookup] at hentry
    split at hentry
    next hid =>
      cases hentry
      exact ⟨_, _, getElem?_join_length, rfl, hid.symm, rfl⟩
    next hid =>
      obtain ⟨handle, child, hchild, hlive⟩ := h.owned hentry
      exact ⟨handle, child, getElem?_join_of_some hchild, hlive⟩
  · intro hopen i child hchild hlive
    rw [hlookup]
    rcases hjoin hchild with hold | ⟨rfl, rfl⟩
    · rw [if_neg (hnew hold (Child.usesId_of_live hlive))]
      exact h.present hopen hold hlive
    · exact if_pos rfl
  · intro hclosed i child hchild hlive hregisters
    rcases hjoin hchild with hold | ⟨rfl, rfl⟩
    · exact h.swept hclosed hold hlive hregisters
    · cases hregisters
  · intro i child hchild hstarted
    rcases hjoin hchild with hold | ⟨rfl, rfl⟩
    · exact h.started hold hstarted
    · cases hstarted

theorem countBlocking : Tracked (scope.countChild .blocking) := by
  have hjoin : ∀ {i : Handle} {child : Child},
      (scope.countChild .blocking).children[i]? = some child →
      scope.children[i]? = some child ∨
        (i = scope.children.length ∧ child = Child.new scope.nextId .blocking) :=
    of_getElem?_join
  refine ⟨h.strict, ?_, ?_, ?_, ?_, ?_⟩
  · intro i j child other hi hj huses huses' hid
    rcases hjoin hi with hold | ⟨rfl, rfl⟩
    · rcases hjoin hj with hold' | ⟨rfl, rfl⟩
      · exact h.unique hold hold' huses huses' hid
      · cases huses'
    · cases huses
  · intro id entry hentry
    obtain ⟨handle, child, hchild, hlive⟩ := h.owned hentry
    exact ⟨handle, child, getElem?_join_of_some hchild, hlive⟩
  · intro hopen i child hchild hlive
    rcases hjoin hchild with hold | ⟨rfl, rfl⟩
    · exact h.present hopen hold hlive
    · cases hlive
  · intro hclosed i child hchild hlive hregisters
    rcases hjoin hchild with hold | ⟨rfl, rfl⟩
    · exact h.swept hclosed hold hlive hregisters
    · cases hlive
  · intro i child hchild hstarted
    rcases hjoin hchild with hold | ⟨rfl, rfl⟩
    · exact h.started hold hstarted
    · cases hstarted

theorem rekey (hchild : scope.children[handle]? = some child) (huses : child.usesId = true)
    (hchildren : next.children = scope.children.modify handle change)
    (hid : (change child).id = child.id) (hstrict : StrictKeys next.asyncChildren)
    (hlookup : ∀ probe, next.asyncChildren.lookup probe = if probe = child.id then if (change
      child).live then some ((change child).entry handle) else none else scope.asyncChildren.lookup
      probe) (hstopped : next.stopped = scope.stopped) (hsweeping : next.sweeping = scope.sweeping)
    (hswept : scope.stopped = true → (change child).live = false)
    (hstarted : (change child).started = true → (change child).stage = .gateOpen) :
    Tracked next := by
  have hself : next.children[handle]? = some (change child) := by
    rw [hchildren]
    exact getElem?_modify_self hchild
  have hothers : ∀ {i : Handle}, i ≠ handle → next.children[i]? = scope.children[i]? := by
    intro i hi
    rw [hchildren]
    exact getElem?_modify_ne (Ne.symm hi)
  have halone : ∀ {i : Handle} {other : Child}, next.children[i]? = some other → i ≠ handle →
      other.usesId = true → other.id ≠ child.id := by
    intro i other hi hne hused hsame
    rw [hothers hne] at hi
    exact hne (h.unique hi hchild hused huses hsame)
  refine ⟨hstrict, ?_, ?_, ?_, ?_, ?_⟩
  · intro i j new new' hi hj hused hused' hsame
    by_cases hne : i = handle
    · by_cases hne' : j = handle
      · rw [hne, hne']
      · subst hne
        rw [hself] at hi
        cases hi
        exact absurd (hsame.symm.trans hid) (halone hj hne' hused')
    · by_cases hne' : j = handle
      · subst hne'
        rw [hself] at hj
        cases hj
        exact absurd (hsame.trans hid) (halone hi hne hused)
      · rw [hothers hne] at hi
        rw [hothers hne'] at hj
        exact h.unique hi hj hused hused' hsame
  · intro id entry hentry
    rw [hlookup] at hentry
    split at hentry
    next hkey =>
      split at hentry
      next hlive =>
        cases hentry
        exact ⟨handle, _, hself, hlive, hid.trans hkey.symm, rfl⟩
      next => cases hentry
    next hkey =>
      obtain ⟨owner, other, howner, hother⟩ := h.owned hentry
      have hne : owner ≠ handle := by
        rintro rfl
        rw [hchild] at howner
        cases howner
        exact hkey hother.2.1.symm
      exact ⟨owner, other, (hothers hne).trans howner, hother⟩
  · intro hopen i new hnew hlive
    rw [hlookup]
    by_cases hne : i = handle
    · subst hne
      rw [hself] at hnew
      cases hnew
      rw [if_pos hid, if_pos hlive]
    · rw [if_neg (halone hnew hne (Child.usesId_of_live hlive))]
      rw [hothers hne] at hnew
      exact h.present (hstopped ▸ hopen) hnew hlive
  · intro hclosed i new hnew hlive hregisters
    rw [hsweeping]
    by_cases hne : i = handle
    · subst hne
      rw [hself] at hnew
      cases hnew
      rw [hswept (hstopped ▸ hclosed)] at hlive
      cases hlive
    · rw [hothers hne] at hnew
      exact h.swept (hstopped ▸ hclosed) hnew hlive hregisters
  · intro i new hnew hnewStarted
    by_cases hne : i = handle
    · subst hne
      rw [hself] at hnew
      cases hnew
      exact hstarted hnewStarted
    · rw [hothers hne] at hnew
      exact h.started hnew hnewStarted

theorem fill (hchild : scope.children[handle]? = some child) (hasync : child.isAsync = true)
    (hstage : child.stage = .spawned) (hstopped : scope.stopped = false) {entry : Option Handle}
    (hentry : scope.asyncChildren.lookup child.id = some entry) :
    Tracked ((scope.fillEntry child.id handle).update handle
      ({ · with stage := .registered })) := by
  have huses : child.usesId = true := by simp [Child.usesId, hasync, hstage, Stage.pending]
  have hlive : child.live = true := by
    obtain ⟨owner, other, hother, hlive, hid, -⟩ := h.owned hentry
    obtain rfl := h.unique hother hchild (Child.usesId_of_live hlive) huses hid
    rw [hchild] at hother
    cases hother
    exact hlive
  refine h.rekey hchild huses rfl rfl (strictKeys_entry h.strict _ _ _) ?_ rfl rfl ?_ ?_
  · intro probe
    rw [if_pos (show Child.live { child with stage := .registered } = true from hlive)]
    exact lookup_entry h.strict _ _ _ probe
  · intro hclosed
    rw [hstopped] at hclosed
    cases hclosed
  · intro hstarted
    have hgate := h.started hchild hstarted
    rw [hstage] at hgate
    cases hgate

theorem dropSlot (hchild : scope.children[handle]? = some child) (hslot : child.slot = true)
    (hcount : 0 < scope.count) : Tracked (scope.dropSlot handle) := by
  have hdrop : scope.dropSlot handle =
      { (scope.update handle ({ · with slot := false })).removeChild child.id child.kind with
        count := scope.count - 1
        admission :=
          if scope.count = 1 then scope.admission.onDrained else scope.admission } := by
    rw [Scope.dropSlot, hchild]
    exact finish_counted hcount
  rw [hdrop]
  cases hkind : child.kind with
  | async =>
    have hasync : child.isAsync = true := by simp [Child.isAsync, hkind]
    have hdead : Child.live { child with slot := false } = false := by simp [Child.live]
    have hbegun : child.started = true → child.stage = .gateOpen := h.started hchild
    refine h.rekey hchild (by simp [Child.usesId, hasync, hslot]) rfl rfl
      (strictKeys_remove h.strict _) ?_ rfl rfl (fun _ => hdead) hbegun
    intro probe
    rw [hdead]
    exact lookup_remove _ _ _
  | blocking =>
    have hasync : child.isAsync = false := by simp [Child.isAsync, hkind]
    have hbegun : child.started = true → child.stage = .gateOpen := h.started hchild
    refine h.advance rfl rfl rfl (fun _ hmem => .inl hmem) fun other hother => ?_
    rw [hchild] at hother
    cases hother
    exact ⟨rfl, rfl, (fun h => by simp [hasync] at h), rfl, fun h => h, fun h => h, hbegun⟩

theorem sweep : Tracked scope.takeAsyncChildren where
  strict := List.Pairwise.nil
  unique := h.unique
  owned hentry := by cases hentry
  present hopen := by cases hopen
  swept _ := by
    intro handle child hchild hlive hregisters
    show child.aborted = true ∨
      handle ∈ scope.sweeping ++ scope.asyncChildren.filterMap Prod.snd
    cases hstopped : scope.stopped with
    | true =>
      refine (h.swept hstopped hchild hlive hregisters).imp_right fun hmem => ?_
      exact List.mem_append_left _ hmem
    | false =>
      -- the child's own entry is among those taken, and it holds the handle
      right
      apply List.mem_append_right
      have hentry := h.present hstopped hchild hlive
      rw [Child.entry, if_pos hregisters] at hentry
      obtain ⟨i, hi⟩ := getElem?_of_lookup hentry
      exact List.mem_filterMap.mpr ⟨_, List.mem_of_getElem? hi, rfl⟩
  started := h.started

theorem abortSwept : Tracked scope.abortSwept := by
  unfold Scope.abortSwept
  split
  next handle rest hsweeping =>
    refine h.advance rfl rfl rfl ?_ fun child hchild => ?_
    · intro other hmem
      rw [hsweeping] at hmem
      rcases List.mem_cons.mp hmem with rfl | hmem
      · exact .inr ⟨rfl, fun _ => rfl⟩
      · exact .inl hmem
    · have hbegun : child.started = true → child.stage = .gateOpen := h.started hchild
      exact ⟨rfl, rfl, fun _ => rfl, rfl, fun h => h, fun _ => rfl, hbegun⟩
  next => exact h

theorem act (hcounted : Counted scope) {action : Action} (hready : scope.Ready action)
    (hfresh : MintsFresh scope action) : Tracked (scope.act action) := by
  cases action with
  | admission kind =>
    show Tracked (scope.admitChild kind)
    rcases scope.admitChild_cases kind with ⟨hopen, hgranted⟩ | ⟨-, hgranted⟩
    · rw [hgranted]
      cases kind with
      | async => exact h.countAsync (hfresh hopen)
      | blocking => exact h.countBlocking
    · rw [hgranted]
      exact h
  | spawn handle =>
    obtain ⟨child, hchild, htest⟩ := childIs_iff.mp hready
    have hstage : child.stage = .counted := by
      simp only [Bool.and_eq_true, beq_iff_eq] at htest
      exact htest.2
    exact h.moveOn hchild (.ofStage hstage rfl (fun _ => rfl)
      (h.notStarted hchild (by simp [hstage]) _))
  | register handle =>
    obtain ⟨child, hchild, htest⟩ := childIs_iff.mp hready
    simp only [Bool.and_eq_true, beq_iff_eq] at htest
    show Tracked (scope.registerChild handle)
    rcases registerChild_cases hchild with ⟨hstopped, ⟨entry, hentry⟩, hnext⟩ | ⟨-, hnext⟩
    · rw [hnext]
      exact h.fill hchild htest.1 htest.2 hstopped hentry
    · rw [hnext]
      exact h.moveOn hchild (.ofStage htest.2 rfl (fun h => by cases h)
        (h.notStarted hchild (by simp [htest.2]) _))
  | reject handle =>
    obtain ⟨child, hchild, htest⟩ := childIs_iff.mp hready
    have hstage : child.stage = .refused := by simpa using htest
    have hidle := h.notStarted hchild (by simp [hstage]) Stage.rejected
    exact h.moveOn hchild ⟨rfl, rfl, fun _ => rfl, by rw [hstage]; rfl, (fun h => by cases h),
      fun _ => rfl, hidle⟩
  | openGate handle =>
    obtain ⟨child, hchild, htest⟩ := childIs_iff.mp hready
    have hstage : child.stage = .registered := by simpa using htest
    exact h.moveOn hchild (.ofStage hstage rfl (fun h => by cases h) fun _ => rfl)
  | startBody handle =>
    obtain ⟨child, hchild, htest⟩ := childIs_iff.mp hready
    simp only [Bool.and_eq_true, beq_iff_eq] at htest
    exact h.moveOn hchild ⟨rfl, rfl, fun _ => rfl, rfl, fun h => h, fun h => h,
      fun _ => htest.1.1⟩
  | dropSlot handle =>
    obtain ⟨child, hchild, hslot⟩ := childIs_iff.mp hready
    refine h.dropSlot hchild hslot ?_
    rw [hcounted.slots]
    exact countP_pos_of_getElem? hchild hslot
  | close => exact h.frame rfl rfl rfl rfl
  | sweep => exact h.sweep
  | abortSwept => exact h.abortSwept

end Tracked

theorem tracked_of_runs {trace : List Action} {scope : Scope}
    (run : Runs (Guarded Steps MintsFresh) .new trace scope) : Tracked scope := by
  induction run with
  | nil => exact Tracked.new
  | snoc before step ih =>
    obtain ⟨⟨hready, rfl⟩, hfresh⟩ := step
    exact ih.act (counted_of_runs before.unguard) hready hfresh

end Camber.Runtime
