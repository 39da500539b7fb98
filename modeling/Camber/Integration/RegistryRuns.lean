import Camber.Integration.Registry

/-! The live map lists the entries whose slot is not retired, each close account that is not
answered is held by one entry, and the books balance. -/

namespace Camber.Integration

open Transition Roster Registry SortedMap

namespace Entry

def pendingSlot (e : Entry) : Option ℕ :=
  match e.phase.account with
  | some account => some account
  | none => (e.settlers.find? fun settler => settler.stage = .taken).map Settler.account

variable {late : Prop} {e : Entry}

theorem pendingSlot_of_account {account : ℕ} (h : e.phase.account = some account) :
    e.pendingSlot = some account := by
  rw [pendingSlot, h]

theorem Settling.pendingSlot {settler : Settler} (h : Settling e settler)
    (hnone : e.phase.account = none) :
    e.pendingSlot = if settler.stage = .taken then some settler.account else none := by
  rw [Entry.pendingSlot, hnone, h.settlers]
  by_cases htaken : settler.stage = .taken
  · rw [if_pos htaken, List.find?_cons_of_pos (by simpa using htaken)]
    rfl
  · rw [if_neg htaken, List.find?_cons_of_neg (by simpa using htaken)]
    rfl

/-- What a critical section leaves as it is. -/
structure SectionKeeps (e e' : Entry) : Prop where
  id : e'.id = e.id
  listed : e'.listed = e.listed
  runtime : e'.runtime = e.runtime
  pendingSlot : e'.pendingSlot = e.pendingSlot

theorem SectionKeeps.move {e' : Entry} (hprogress : Progress e) (move : Moves late False e e') :
    SectionKeeps e e' := by
  cases move with
  | @taken account _ _ _ haccount =>
    refine ⟨rfl, rfl, rfl, ?_⟩
    rw [pendingSlot_of_account haccount]
    show ((e.settlers ++ [(⟨account, e.phase.settlement, false, .taken⟩ : Settler)]).find?
      _).map _ = _
    rw [(hprogress.unsettled haccount).settlers]
    rfl
  | @named account _ haccount =>
    refine ⟨rfl, rfl, rfl, ?_⟩
    rw [pendingSlot_of_account haccount]
    show ((e.settlers ++
      [(⟨account, .failed (.incompleteClose e.kind) .named, true, .taken⟩ : Settler)]).find?
      _).map _ = _
    rw [(hprogress.unsettled haccount).settlers]
    rfl
  | proceeded _ _ houtside => exact houtside.elim
  | runtimeEnds houtside => exact houtside.elim
  | commit | flags | begun | released | ended | charged | attached | woken | detached | cleared =>
    exact ⟨rfl, rfl, rfl, rfl⟩

theorem SectionKeeps.act (hprogress : Progress e) {action : Action} (hready : e.Ready action)
    (hsection : action.isOutside = false) : SectionKeeps e (act action e) := by
  have hchanges := act_changes True False hready (.inr trivial) fun houtside => by
    rw [hsection] at houtside
    cases houtside
  refine (hchanges.keeps (fun e' => Progress e' ∧ SectionKeeps e e') (fun {mid e'} move h => ?_)
    ⟨hprogress, rfl, rfl, rfl, rfl⟩).2
  have hmove := SectionKeeps.move h.1 move
  exact ⟨h.1.move move, hmove.id.trans h.2.id, hmove.listed.trans h.2.listed,
    hmove.runtime.trans h.2.runtime, hmove.pendingSlot.trans h.2.pendingSlot⟩

theorem Progress.settler_of_ready (h : Progress e) {k : ℕ} (hready : e.Ready (.proceed k)) :
    ∃ settler, Settling e settler ∧ e.phase.account = none ∧ settler.stage ≠ .done ∧ k = 0 ∧
      e.settlers[k]? = some settler := by
  obtain ⟨settler, hsettler, hgoes⟩ := (Option.any_eq_true _ _).mp hready
  have hnone : e.phase.account = none := by
    by_contra hsome
    obtain ⟨account, haccount⟩ := Option.ne_none_iff_exists'.mp hsome
    rw [(h.unsettled haccount).settlers] at hsettler
    cases hsettler
  obtain ⟨one, hsettling⟩ := h.settling hnone
  have hone := hsettler
  rw [hsettling.settlers] at hone
  obtain ⟨rfl, rfl⟩ : k = 0 ∧ one = settler := by
    cases k with
    | zero => exact ⟨rfl, by simpa using hone⟩
    | succ k => simp at hone
  exact ⟨one, hsettling, hnone, by simpa using hgoes, rfl, hsettler⟩

theorem proceed_effect (hprogress : Progress e) {k : ℕ} (hready : e.Ready (.proceed k))
    {settler : Settler} (hsettler : e.settlers[k]? = some settler) :
    (act (.proceed k) e).id = e.id ∧ (act (.proceed k) e).runtime = e.runtime ∧
      (act (.proceed k) e).listed =
        (if settler.stage = .fixed ∧ e.runtime = true then false else e.listed) ∧
      (act (.proceed k) e).pendingSlot = none := by
  obtain ⟨one, hsettling, hnone, -, rfl, hone⟩ := hprogress.settler_of_ready hready
  obtain rfl : one = settler := Option.some.inj (hone.symm.trans hsettler)
  have heq : act (.proceed 0) e = { e.settleStep one with
      settlers := e.settlers.modify 0 ({ · with stage := one.stage.next }) } := by
    show e.proceed 0 = _
    rw [proceed, hsettler]
  rw [heq]
  refine ⟨e.settleStep_id one, e.settleStep_runtime one, e.settleStep_listed one, ?_⟩
  have hlist : e.settlers.modify 0 ({ · with stage := one.stage.next }) =
      [{ one with stage := one.stage.next }] := by
    rw [hsettling.settlers]
    rfl
  unfold pendingSlot
  rw [show (_ : Entry).phase.account = none from (e.settleStep_account one).trans hnone]
  show ((e.settlers.modify 0 ({ · with stage := one.stage.next })).find? _).map _ = none
  rw [hlist]
  cases one.stage <;> rfl

end Entry

namespace Books

def instanceAt (books : Books) (a : ℕ) : Option ℕ :=
  books.slots[a]?.bind fun s => if s.holder.isInstance then some s.instanceId else none

variable {books next : Books} {a b : ℕ} {s : Slot}

theorem instanceAt_eq_some {id : ℕ} : books.instanceAt a = some id ↔
    ∃ s, books.slots[a]? = some s ∧ s.holder.isInstance = true ∧ s.instanceId = id := by
  unfold instanceAt
  rw [Option.bind_eq_some_iff]
  refine exists_congr fun s => and_congr_right fun _ => ?_
  cases s.holder.isInstance <;> simp

structure Same (books next : Books) : Prop where
  balanced : Balanced next
  instanceAt : ∀ a, next.instanceAt a = books.instanceAt a
  issued : next.issued = books.issued

theorem instanceAt_modify {change : Slot → Slot} (hslots : next.slots = books.slots.modify a change)
    (hslot : books.slots[a]? = some s) (hbefore : s.holder.isInstance = false)
    (hafter : (change s).holder.isInstance = false) (b : ℕ) :
    next.instanceAt b = books.instanceAt b := by
  unfold instanceAt
  by_cases hab : a = b
  · subst hab
    rw [hslots, getElem?_modify_self hslot, hslot]
    simp [hbefore, hafter]
  · rw [hslots, getElem?_modify_ne hab]

theorem instanceAt_join {new : Slot} (hslots : next.slots = books.slots ++ [new])
    (hnew : new.holder.isInstance = false) (b : ℕ) : next.instanceAt b = books.instanceAt b := by
  unfold instanceAt
  rw [hslots]
  rcases Nat.lt_trichotomy b books.slots.length with hlt | rfl | hgt
  · rw [List.getElem?_append_left hlt]
  · rw [getElem?_join_length, List.getElem?_eq_none_iff.mpr le_rfl]
    simp [hnew]
  · rw [List.getElem?_eq_none_iff.mpr (by simp; omega), List.getElem?_eq_none_iff.mpr hgt.le]

theorem same_reserve (h : Balanced books) (owner : ℕ) (operation : IntegrationOperation) :
    Same books (books.reserve owner operation) := by
  refine ⟨h.reserve owner operation, fun b => ?_, ?_⟩
  · unfold reserve
    split
    next account _ =>
      split
      next kind _ =>
        split
        next => exact instanceAt_join rfl rfl b
        next => rfl
      next => rfl
    next => rfl
  · unfold reserve
    split
    next =>
      split
      next =>
        split
        next => rfl
        next => rfl
      next => rfl
    next => rfl

theorem same_settle {how : Settled} (h : Balanced (books.settle a s.instanceId how))
    (hslot : books.slots[a]? = some s) (hholder : s.holder.isInstance = false) :
    Same books (books.settle a s.instanceId how) :=
  ⟨h, fun b => instanceAt_modify rfl hslot hholder rfl b, rfl⟩

theorem not_isInstance_of_isRunning {holder : Holder} (h : holder.isRunning = true) :
    holder.isInstance = false := by
  cases holder with
  | instanceAccount => cases h
  | operationAccount => rfl
  | published => rfl
  | settled => rfl

section

variable (h : Balanced books)

include h

theorem same_letGo (hslot : books.slots[a]? = some s) (hrunning : s.holder.isRunning = true)
    (hpending : s.holder.isSettled = false) {how : Option IntegrationError → Settled}
    (hretained : (how s.unresolved).retained = s.unresolved) (hfits : (how s.unresolved).Fits) :
    Same books (books.letGo a how) := by
  have hbalanced := h.letGo hslot hpending hretained hfits
  rw [letGo_eq hslot ((h.sound hslot).pending hpending).1 hretained] at hbalanced ⊢
  exact same_settle hbalanced hslot (not_isInstance_of_isRunning hrunning)

theorem same_keep (hslot : books.slots[a]? = some s) (hrunning : s.holder.isRunning = true)
    (hpending : s.holder.isSettled = false) {how : IntegrationError → Settled}
    {error : IntegrationError} (hretained : (how error).retained = some error)
    (hfits : (how error).Fits) : Same books (books.keep a how error) := by
  have hbalanced := h.keep hslot hpending hretained hfits
  rw [keep_eq hslot ((h.sound hslot).pending hpending).1 hretained] at hbalanced ⊢
  exact same_settle hbalanced hslot (not_isInstance_of_isRunning hrunning)

theorem same_fail (hslot : books.slots[a]? = some s) (hholder : s.holder.isOperation = true)
    (error : IntegrationError) : Same books (books.fail a error) := by
  have hbalanced := h.fail hslot hholder error
  have hrunning : s.holder.isRunning = true := by rw [Holder.isRunning, hholder, Bool.true_or]
  rw [fail, hslot] at hbalanced ⊢
  dsimp only at hbalanced ⊢
  split
  next houtlives =>
    exact same_keep h hslot hrunning (Holder.not_settled_of_operation hholder) rfl houtlives
  next houtlives =>
    rw [if_neg houtlives] at hbalanced
    refine ⟨hbalanced, fun b => ?_, rfl⟩
    exact instanceAt_modify rfl hslot (not_isInstance_of_isRunning hrunning) rfl b

theorem same_holders {action : Action} (hholders : isHolders action = true)
    (hready : books.Ready action) : Same books (books.act action) := by
  cases action with
  | cleanup slot register =>
    obtain ⟨s, hslot, hholder⟩ := heldBy_iff.mp hready
    refine ⟨h.cleanup hslot hholder register, fun b => ?_, rfl⟩
    exact instanceAt_modify rfl hslot (not_isInstance_of_isRunning hholder)
      (not_isInstance_of_isRunning hholder) b
  | succeed slot =>
    obtain ⟨s, hslot, hholder⟩ := heldBy_iff.mp hready
    have hrunning : s.holder.isRunning = true := by rw [Holder.isRunning, hholder, Bool.true_or]
    exact same_letGo h hslot hrunning (Holder.not_settled_of_operation hholder) rfl
      s.unresolved_incomplete
  | fail slot error =>
    obtain ⟨s, hslot, hholder⟩ := heldBy_iff.mp hready
    exact same_fail h hslot hholder error
  | receive slot =>
    obtain ⟨s, hslot, hholder⟩ := heldBy_iff.mp hready
    obtain ⟨error, herror⟩ := Holder.published_of_isPublished hholder
    show Same books (books.receive slot)
    rw [receive, hslot, Option.map_some, herror]
    exact same_letGo h hslot (by rw [herror]; rfl) (by rw [herror]; rfl) rfl
      ⟨(h.sound hslot).published herror, s.unresolved_incomplete⟩
  | abandon slot =>
    obtain ⟨s, hslot, hholder⟩ := heldBy_iff.mp hready
    obtain ⟨error, herror⟩ := Holder.published_of_isPublished hholder
    show Same books (books.abandon slot)
    rw [abandon, hslot, Option.map_some, herror]
    exact same_keep h hslot (by rw [herror]; rfl) (by rw [herror]; rfl) rfl
      ((h.sound hslot).published herror)
  | admission | reserve | close | closeFailed | transfer | seed => cases hholders

theorem Same.refl : Same books books := ⟨h, fun _ => rfl, rfl⟩

theorem same_transfer : Same books books.transfer :=
  ⟨h.transfer, fun _ => rfl, rfl⟩

theorem same_seed (id : ℕ) : Same books (books.act (.seed id)) :=
  ⟨h.seed id, fun _ => rfl, rfl⟩

end

theorem instanceAt_settle {how : Settled} (hslot : books.slots[a]? = some s) (b : ℕ) :
    (books.settle a s.instanceId how).instanceAt b =
      if a = b then none else books.instanceAt b := by
  unfold instanceAt
  by_cases hab : a = b
  · subst hab
    rw [if_pos rfl]
    show ((books.slots.modify a (Slot.settle how))[a]?).bind _ = none
    rw [getElem?_modify_self hslot]
    rfl
  · rw [if_neg hab]
    show ((books.slots.modify a (Slot.settle how))[b]?).bind _ = _
    rw [getElem?_modify_ne hab]

theorem answered (h : Balanced books) {id : ℕ} (ha : books.instanceAt a = some id)
    {action : Action} (haction : action = .close a ∨ ∃ error, action = .closeFailed a error) :
    Balanced (books.act action) ∧ (books.act action).issued = books.issued ∧
      ∀ b, (books.act action).instanceAt b = if a = b then none else books.instanceAt b := by
  obtain ⟨s, hslot, hholder, -⟩ := instanceAt_eq_some.mp ha
  have hheld : books.heldBy a Holder.isInstance = true := heldBy_iff.mpr ⟨s, hslot, hholder⟩
  have hcharged := ((h.sound hslot).pending (Holder.not_settled_of_instance hholder)).1
  rcases haction with rfl | ⟨error, rfl⟩
  · refine ⟨h.act hheld, ?_⟩
    show (books.letGo a .closed).issued = _ ∧ ∀ b, (books.letGo a .closed).instanceAt b = _
    rw [letGo_eq hslot hcharged rfl]
    exact ⟨rfl, instanceAt_settle hslot⟩
  · refine ⟨h.act hheld, ?_⟩
    show (books.keep a .closeFailed error).issued = _ ∧
      ∀ b, (books.keep a .closeFailed error).instanceAt b = _
    rw [keep_eq hslot hcharged rfl]
    exact ⟨rfl, instanceAt_settle hslot⟩

end Books

def Sound (entries : List Entry) : Prop :=
  ∀ (i : ℕ) (e : Entry), entries[i]? = some e → e.Counted ∧ e.Progress ∧ e.runtime = true

section Entries

variable {entries : List Entry} {live : List (ℕ × ℕ)} {books next : Books} {i : ℕ} {e : Entry}
  {change : Entry → Entry}

theorem Sound.modify (h : Sound entries) (he : entries[i]? = some e)
    (hchange : (change e).Counted ∧ (change e).Progress ∧ (change e).runtime = true) :
    Sound (entries.modify i change) := by
  intro j e' hj
  obtain ⟨old, hold, rfl⟩ := of_getElem?_modify hj
  by_cases hij : i = j
  · subst hij
    rw [he] at hold
    cases hold
    rw [if_pos rfl]
    exact hchange
  · rw [if_neg hij]
    exact h j old hold

theorem Sound.join (h : Sound entries) (id account : ℕ) (kind : IntegrationKind) (limit : ℕ) :
    Sound (entries ++ [.new id account kind limit]) := by
  intro j e' hj
  rcases of_getElem?_join hj with hold | ⟨-, rfl⟩
  · exact h j e' hold
  · exact ⟨.new id account kind limit, .new id account kind limit, rfl⟩

structure Listing (entries : List Entry) (live : List (ℕ × ℕ)) : Prop where
  increasing : (entries.map Entry.id).Pairwise (· < ·)
  strict : StrictKeys live
  mem : ∀ {p : ℕ × ℕ}, p ∈ live ↔
    ∃ e, entries[p.2]? = some e ∧ e.id = p.1 ∧ e.listed = true
  size : live.length ≤ liveLimit
  count : live.length = entries.countP Entry.listed

namespace Listing

theorem index_unique (h : Listing entries live) {j : ℕ} {e' : Entry} (he : entries[i]? = some e)
    (he' : entries[j]? = some e') (hid : e.id = e'.id) : i = j := by
  have hnodup : (entries.map Entry.id).Nodup := h.increasing.imp fun hlt => hlt.ne
  have hi : (entries.map Entry.id)[i]? = some e.id := by simp [he]
  have hj : (entries.map Entry.id)[j]? = some e.id := by simp [he', hid]
  have hlt : i < (entries.map Entry.id).length := (List.getElem?_eq_some_iff.mp hi).1
  exact (List.getElem?_inj hlt hnodup).mp (hi.trans hj.symm)

theorem map_id_modify (hid : ∀ old, entries[i]? = some old → (change old).id = old.id) :
    (entries.modify i change).map Entry.id = entries.map Entry.id := by
  refine List.ext_getElem? fun j => ?_
  rw [List.getElem?_map, List.getElem?_map, List.getElem?_modify]
  cases hj : entries[j]? with
  | none => rfl
  | some old =>
    by_cases hij : i = j
    · subst hij
      simp [hid old hj]
    · simp [hij]

theorem modify (h : Listing entries live) (he : entries[i]? = some e)
    (hid : (change e).id = e.id) (hlisted : (change e).listed = e.listed) :
    Listing (entries.modify i change) live where
  increasing := by
    rw [map_id_modify]
    · exact h.increasing
    · intro old hold
      rw [he] at hold
      cases hold
      exact hid
  strict := h.strict
  mem := by
    intro p
    rw [h.mem]
    constructor
    · rintro ⟨old, hold, hkey, hlive⟩
      by_cases hip : i = p.2
      · rw [← hip, he] at hold
        cases hold
        exact ⟨change e, by rw [← hip]; exact getElem?_modify_self he, hid.trans hkey,
          hlisted.trans hlive⟩
      · exact ⟨old, by rw [getElem?_modify_ne hip]; exact hold, hkey, hlive⟩
    · rintro ⟨new, hnew, hkey, hlive⟩
      obtain ⟨old, hold, rfl⟩ := of_getElem?_modify hnew
      refine ⟨old, hold, ?_⟩
      by_cases hip : i = p.2
      · rw [← hip, he] at hold
        cases hold
        rw [if_pos hip] at hkey hlive
        exact ⟨hid.symm.trans hkey, hlisted.symm.trans hlive⟩
      · rw [if_neg hip] at hkey hlive
        exact ⟨hkey, hlive⟩
  size := h.size
  count := by
    rw [countP_modify_same]
    · exact h.count
    · intro old hold
      rw [he] at hold
      cases hold
      exact hlisted

theorem retire (h : Listing entries live) (he : entries[i]? = some e) (hlive : e.listed = true)
    (hid : (change e).id = e.id) (hgone : (change e).listed = false) :
    Listing (entries.modify i change) (remove e.id live) where
  increasing := by
    rw [map_id_modify]
    · exact h.increasing
    · intro old hold
      rw [he] at hold
      cases hold
      exact hid
  strict := strictKeys_remove h.strict e.id
  mem := by
    intro p
    rw [mem_remove, h.mem]
    constructor
    · rintro ⟨⟨old, hold, hkey, hlisted⟩, hne⟩
      have hip : i ≠ p.2 := by
        rintro rfl
        rw [he] at hold
        cases hold
        exact hne hkey.symm
      exact ⟨old, by rw [getElem?_modify_ne hip]; exact hold, hkey, hlisted⟩
    · rintro ⟨new, hnew, hkey, hlisted⟩
      obtain ⟨old, hold, rfl⟩ := of_getElem?_modify hnew
      by_cases hip : i = p.2
      · rw [← hip, he] at hold
        cases hold
        rw [if_pos hip, hgone] at hlisted
        cases hlisted
      · rw [if_neg hip] at hkey hlisted
        refine ⟨⟨old, hold, hkey, hlisted⟩, fun hsame => hip ?_⟩
        exact h.index_unique he hold (hsame.symm.trans hkey.symm)
  size := (List.length_filter_le ..).trans h.size
  count := by
    have hmem : (e.id, i) ∈ live := h.mem.mpr ⟨e, he, rfl, hlive⟩
    have hlength := length_remove h.strict hmem
    have hleave := countP_modify_leave (p := Entry.listed) (f := change) he hlive hgone
    have hcount := h.count
    omega

theorem join (h : Listing entries live) {new : Entry} (hnew : ∀ id ∈ entries.map Entry.id, id < new.id)
    (hlisted : new.listed = true) (hroom : live.length < liveLimit) :
    Listing (entries ++ [new])
      (entry new.id entries.length (fun _ => entries.length) live) := by
  have hlast : entry new.id entries.length (fun _ => entries.length) live =
      live ++ [(new.id, entries.length)] := by
    refine entry_of_gt (fun p hp => ?_) _ _
    obtain ⟨old, hold, hkey, -⟩ := h.mem.mp hp
    rw [← hkey]
    exact hnew old.id (List.mem_map_of_mem (List.mem_of_getElem? hold))
  rw [hlast]
  refine ⟨?_, ?_, ?_, ?_, ?_⟩
  · rw [List.map_append]
    refine List.pairwise_append.mpr ⟨h.increasing, List.pairwise_singleton .., fun old hold id hid => ?_⟩
    rw [List.mem_singleton.mp hid]
    exact hnew old hold
  · refine List.pairwise_append.mpr ⟨h.strict, List.pairwise_singleton .., fun p hp q hq => ?_⟩
    rw [List.mem_singleton.mp hq]
    obtain ⟨old, hold, hkey, -⟩ := h.mem.mp hp
    rw [← hkey]
    exact hnew old.id (List.mem_map_of_mem (List.mem_of_getElem? hold))
  · intro p
    rw [List.mem_append, h.mem, List.mem_singleton]
    constructor
    · rintro (⟨old, hold, hkey, hlive⟩ | rfl)
      · exact ⟨old, getElem?_join_of_some hold, hkey, hlive⟩
      · exact ⟨new, getElem?_join_length, rfl, hlisted⟩
    · rintro ⟨old, hold, hkey, hlive⟩
      rcases of_getElem?_join hold with hold | ⟨hp, rfl⟩
      · exact .inl ⟨old, hold, hkey, hlive⟩
      · exact .inr (Prod.ext hkey.symm hp)
  · rw [List.length_append]
    exact hroom
  · rw [List.length_append, countP_join, hlisted, h.count]
    rfl

end Listing

structure Linked (entries : List Entry) (books : Books) : Prop where
  issued : entries.map Entry.id = books.issued
  pending : ∀ {i : ℕ} {e : Entry} {a : ℕ}, entries[i]? = some e → e.pendingSlot = some a →
    books.instanceAt a = some e.id
  owned : ∀ {a id : ℕ}, books.instanceAt a = some id →
    ∃ (i : ℕ) (e : Entry), entries[i]? = some e ∧ e.pendingSlot = some a

namespace Linked

variable (h : Linked entries books)

include h

theorem of_same (hsame : Books.Same books next) : Linked entries next where
  issued := h.issued.trans hsame.issued.symm
  pending he ha := by
    rw [hsame.instanceAt]
    exact h.pending he ha
  owned ha := by
    rw [hsame.instanceAt] at ha
    exact h.owned ha

theorem modify (he : entries[i]? = some e) (hid : (change e).id = e.id)
    (hslot : (change e).pendingSlot = e.pendingSlot) : Linked (entries.modify i change) books where
  issued := by
    rw [Listing.map_id_modify]
    · exact h.issued
    · intro old hold
      rw [he] at hold
      cases hold
      exact hid
  pending := by
    intro j new a hnew ha
    obtain ⟨old, hold, rfl⟩ := of_getElem?_modify hnew
    by_cases hij : i = j
    · subst hij
      rw [he] at hold
      cases hold
      rw [if_pos rfl] at ha ⊢
      rw [hid]
      exact h.pending he (hslot ▸ ha)
    · rw [if_neg hij] at ha ⊢
      exact h.pending hold ha
  owned := by
    intro a id ha
    obtain ⟨j, old, hold, hpending⟩ := h.owned ha
    by_cases hij : i = j
    · subst hij
      rw [he] at hold
      cases hold
      exact ⟨i, change e, getElem?_modify_self he, hslot.trans hpending⟩
    · exact ⟨j, old, by rw [getElem?_modify_ne hij]; exact hold, hpending⟩

theorem answer (hlisting : Listing entries live) (he : entries[i]? = some e) {a : ℕ}
    (ha : e.pendingSlot = some a) (hid : (change e).id = e.id)
    (hnone : (change e).pendingSlot = none) (hissued : next.issued = books.issued)
    (hat : ∀ b, next.instanceAt b = if a = b then none else books.instanceAt b) :
    Linked (entries.modify i change) next where
  issued := by
    rw [Listing.map_id_modify, hissued]
    · exact h.issued
    · intro old hold
      rw [he] at hold
      cases hold
      exact hid
  pending := by
    intro j new b hnew hb
    obtain ⟨old, hold, rfl⟩ := of_getElem?_modify hnew
    by_cases hij : i = j
    · subst hij
      rw [he] at hold
      cases hold
      rw [if_pos rfl, hnone] at hb
      cases hb
    · rw [if_neg hij] at hb ⊢
      have hother := h.pending hold hb
      -- another entry's slot is another slot
      have hab : a ≠ b := by
        rintro rfl
        have hmine := h.pending he ha
        rw [hother] at hmine
        exact hij (hlisting.index_unique he hold (Option.some.inj hmine).symm)
      rw [hat, if_neg hab]
      exact hother
  owned := by
    intro b id hb
    rw [hat] at hb
    by_cases hab : a = b
    · rw [if_pos hab] at hb
      cases hb
    · rw [if_neg hab] at hb
      obtain ⟨j, old, hold, hpending⟩ := h.owned hb
      have hij : i ≠ j := by
        rintro rfl
        rw [he] at hold
        cases hold
        rw [ha] at hpending
        exact hab (Option.some.inj hpending)
      exact ⟨j, old, by rw [getElem?_modify_ne hij]; exact hold, hpending⟩

theorem join {new : Entry} {a : ℕ} (hfresh : books.instanceAt a = none)
    (ha : new.pendingSlot = some a) (hissued : next.issued = books.issued ++ [new.id])
    (hat : ∀ b, next.instanceAt b = if a = b then some new.id else books.instanceAt b) :
    Linked (entries ++ [new]) next where
  issued := by
    rw [List.map_append, h.issued, hissued]
    rfl
  pending := by
    intro j old b hold hb
    rcases of_getElem?_join hold with hold | ⟨-, rfl⟩
    · have hbefore := h.pending hold hb
      have hab : a ≠ b := by
        rintro rfl
        rw [hfresh] at hbefore
        cases hbefore
      rw [hat, if_neg hab]
      exact hbefore
    · rw [ha] at hb
      rw [hat, if_pos (Option.some.inj hb)]
  owned := by
    intro b id hb
    rw [hat] at hb
    by_cases hab : a = b
    · exact ⟨entries.length, new, getElem?_join_length, hab ▸ ha⟩
    · rw [if_neg hab] at hb
      obtain ⟨j, old, hold, hpending⟩ := h.owned hb
      exact ⟨j, old, getElem?_join_of_some hold, hpending⟩

end Linked

end Entries

/-- The entries, the live map and the books fit together. -/
structure Core (entries : List Entry) (live : List (ℕ × ℕ)) (books : Books) : Prop where
  sound : Sound entries
  balanced : Balanced books
  listing : Listing entries live
  linked : Linked entries books

namespace Core

variable {entries : List Entry} {live : List (ℕ × ℕ)} {books next : Books} {i : ℕ} {e : Entry}

theorem new : Core [] [] .new where
  sound i e h := by simp at h
  balanced := .new
  listing := ⟨List.Pairwise.nil, List.Pairwise.nil, by simp, Nat.zero_le _, rfl⟩
  linked := ⟨rfl, by simp, by simp [Books.instanceAt, Books.new]⟩

variable (h : Core entries live books)

include h

theorem of_same (hsame : Books.Same books next) : Core entries live next :=
  ⟨h.sound, hsame.balanced, h.listing, h.linked.of_same hsame⟩

theorem sound_act (he : entries[i]? = some e) {action : Entry.Action} (hready : e.Ready action) :
    (e.act action).Counted ∧ (e.act action).Progress := by
  obtain ⟨hcounted, hprogress, -⟩ := h.sound i e he
  have hchanges := Entry.act_changes True True hready (.inr trivial) fun _ => trivial
  exact ⟨hchanges.keeps _ (fun move h => h.move move) hcounted,
    hchanges.keeps _ (fun move h => h.move move) hprogress⟩

theorem act_section (he : entries[i]? = some e) {action : Entry.Action} (hready : e.Ready action)
    (hsection : action.isOutside = false) (hsame : Books.Same books next) :
    Core (entries.modify i (Entry.act action)) live next := by
  obtain ⟨hcounted, hprogress, hruntime⟩ := h.sound i e he
  have hkeeps := Entry.SectionKeeps.act hprogress hready hsection
  obtain ⟨hcounted', hprogress'⟩ := h.sound_act he hready
  exact ⟨h.sound.modify he ⟨hcounted', hprogress', hkeeps.runtime.trans hruntime⟩, hsame.balanced,
    h.listing.modify he hkeeps.id hkeeps.listed,
    (h.linked.of_same hsame).modify he hkeeps.id hkeeps.pendingSlot⟩

theorem act_proceed (he : entries[i]? = some e) {k : ℕ} (hready : e.Ready (.proceed k)) :
    Core (entries.modify i (Entry.act (.proceed k)))
      (if retires e (.proceed k) then remove e.id live else live)
      (replay Books.act books (accountActions e (.proceed k))) := by
  obtain ⟨-, hprogress, hruntime⟩ := h.sound i e he
  obtain ⟨hcounted', hprogress'⟩ := h.sound_act he hready
  obtain ⟨settler, hsettling, hnone, hgoes, -, hsettler⟩ := hprogress.settler_of_ready hready
  obtain ⟨hid, hruntime', hlisted, hslot⟩ := Entry.proceed_effect hprogress hready hsettler
  have hsound : Sound (entries.modify i (Entry.act (.proceed k))) :=
    h.sound.modify he ⟨hcounted', hprogress', hruntime'.trans hruntime⟩
  have hpending := hsettling.pendingSlot hnone
  by_cases htaken : settler.stage = .taken
  · -- the close slot is answered
    rw [if_pos htaken] at hpending
    have hlive : retires e (.proceed k) = false := by
      rw [retires, hsettler, Option.any_some, htaken]
      rfl
    have hsame : (Entry.act (.proceed k) e).listed = e.listed := by
      rw [hlisted, htaken]
      rfl
    obtain ⟨action, haction, hactions⟩ : ∃ action,
        (action = Action.close settler.account ∨
          ∃ error, action = .closeFailed settler.account error) ∧
        accountActions e (.proceed k) = [action] := by
      simp only [accountActions, hsettler, htaken, if_true]
      cases settler.settlement.failure e.id with
      | some error => exact ⟨_, .inr ⟨error, rfl⟩, rfl⟩
      | none => exact ⟨_, .inl rfl, rfl⟩
    obtain ⟨hbalanced, hissued, hat⟩ :=
      Books.answered h.balanced (h.linked.pending he hpending) haction
    rw [hlive, hactions]
    exact ⟨hsound, hbalanced, h.listing.modify he hid hsame,
      h.linked.answer h.listing he hpending hid hslot hissued hat⟩
  · rw [if_neg htaken] at hpending
    have hactions : accountActions e (.proceed k) = [] := by
      simp only [accountActions, hsettler, if_neg htaken]
    have hlinked : Linked (entries.modify i (Entry.act (.proceed k))) books :=
      h.linked.modify he hid (hslot.trans hpending.symm)
    rw [hactions]
    by_cases hfixed : settler.stage = .fixed
    · have hlive : retires e (.proceed k) = true := by
        rw [retires, hsettler, Option.any_some, hfixed]
        rfl
      have hbefore : e.listed = true := by
        rw [hsettling.listed, hruntime, hfixed]
        rfl
      have hafter : (Entry.act (.proceed k) e).listed = false := by
        rw [hlisted, hfixed, hruntime]
        rfl
      rw [hlive]
      exact ⟨hsound, h.balanced, h.listing.retire he hbefore hid hafter, hlinked⟩
    · have hlive : retires e (.proceed k) = false := by
        rw [retires, hsettler, Option.any_some]
        exact decide_eq_false hfixed
      have hsame : (Entry.act (.proceed k) e).listed = e.listed := by
        rw [hlisted, if_neg fun hboth => hfixed hboth.1]
      rw [hlive]
      exact ⟨hsound, h.balanced, h.listing.modify he hid hsame, hlinked⟩

theorem admitted {call : AdmitCall} {id : ℕ} {ledger : Ledger} (hroom : live.length < liveLimit)
    (hreserve : books.ledger.reserveInstance call.kind call.admission = .ok (id, ledger)) :
    Core (entries ++ [.new id books.slots.length call.kind call.operationLimit])
      (entry id entries.length (fun _ => entries.length) live)
      (books.admission call.kind call.admission) := by
  have hnext : books.ledger.nextInstance = some id := by
    unfold Ledger.reserveInstance at hreserve
    split at hreserve
    · cases hreserve
    · cases hreserve
    · next hnext =>
        cases hreserve
        exact hnext
  have hbooks : books.admission call.kind call.admission =
      { books with
        ledger := ledger
        slots := books.slots ++ [.held id (.instanceAccount call.kind)]
        issued := books.issued ++ [id] } := by
    rw [Books.admission, hreserve]
  have hfresh : books.instanceAt books.slots.length = none := by
    rw [Books.instanceAt, List.getElem?_eq_none_iff.mpr le_rfl]
    rfl
  have hat : ∀ b, (books.admission call.kind call.admission).instanceAt b =
      if books.slots.length = b then some id else books.instanceAt b := by
    intro b
    rw [hbooks]
    unfold Books.instanceAt
    by_cases hb : books.slots.length = b
    · subst hb
      rw [if_pos rfl, getElem?_join_length]
      rfl
    · rw [if_neg hb]
      rcases Nat.lt_or_gt_of_ne hb with hlt | hgt
      · rw [List.getElem?_eq_none_iff.mpr (by simp; omega), List.getElem?_eq_none_iff.mpr hlt.le]
      · rw [List.getElem?_append_left hgt]
  refine ⟨h.sound.join _ _ _ _, h.balanced.admission _ _, ?_, ?_⟩
  · refine h.listing.join (fun used hused => ?_) rfl hroom
    rw [h.linked.issued] at hused
    exact h.balanced.unused hnext used hused
  · refine h.linked.join hfresh rfl ?_ hat
    rw [hbooks]
    rfl

theorem act_section_any (action : Entry.Action) (hready : ∀ e : Entry, e.Ready action)
    (hsection : action.isOutside = false) (i : ℕ) :
    Core (entries.modify i (Entry.act action)) live books := by
  cases he : entries[i]? with
  | some e => exact h.act_section he (hready e) hsection (.refl h.balanced)
  | none =>
    rw [List.modify_eq_self (List.getElem?_eq_none_iff.mp he)]
    exact h

end Core

namespace Registry

variable {r : Registry}

structure Lawful (r : Registry) : Prop where
  core : Core r.entries r.live r.books
  locked : r.stopping = true → r.admitting = none
  swept : r.sweeps ≠ [] → r.stopping = true

theorem Lawful.new : Lawful .new := ⟨.new, fun _ => rfl, fun h => absurd rfl h⟩

variable {action : Entry.Action} {i : ℕ}

theorem accountActions_section {e : Entry} {books : Books} (h : Balanced books)
    (hsection : action.isOutside = false) :
    Books.Same books (replay Books.act books (accountActions e action)) := by
  cases action with
  | beginOperation operation room =>
    simp only [accountActions]
    split
    · exact Books.same_reserve h _ _
    · exact .refl h
  | proceed => cases hsection
  | ready | connected | reportsClose | releaseLimit | endOperation | requestClose | stop | charge
  | attachCloseOwner | endCloseOwner | nameOutstanding | runtimeEnds => exact .refl h

theorem ready_entry (hready : r.Ready (.entry i action)) :
    isOwn action = true ∧ r.roomOf action = true ∧
      ∃ e, r.entries[i]? = some e ∧ e.Ready action := by
  obtain ⟨⟨hown, hroom⟩, hany⟩ := hready
  obtain ⟨e, he, hboth⟩ := (Option.any_eq_true _ _).mp hany
  exact ⟨hown, hroom, e, he, of_decide_eq_true (Bool.and_eq_true_iff.mp hboth).1⟩

theorem entryStep_eq {e : Entry} (he : r.entries[i]? = some e) :
    r.entryStep i action =
      { r with
        entries := r.entries.modify i (Entry.act action)
        books := replay Books.act r.books (accountActions e action)
        live := if retires e action then remove e.id r.live else r.live } := by
  rw [entryStep, he]

theorem Lawful.entryStep (h : Lawful r) (hready : r.Ready (.entry i action)) :
    Lawful (r.entryStep i action) := by
  obtain ⟨hown, -, e, he, hentry⟩ := ready_entry hready
  rw [entryStep_eq he]
  refine ⟨?_, h.locked, h.swept⟩
  cases hsection : action.isOutside with
  | false =>
    have hlive : retires e action = false := by
      cases action <;> first | rfl | cases hsection
    show Core (r.entries.modify i (Entry.act action)) (if retires e action then _ else r.live) _
    rw [hlive]
    exact h.core.act_section he hentry hsection (accountActions_section h.core.balanced hsection)
  | true =>
    cases action with
    | proceed k => exact h.core.act_proceed he hentry
    | runtimeEnds => cases hown
    | _ => cases hsection

theorem ready_sweepNext {index : ℕ} {admitsChildren : Option Bool}
    (hready : r.Ready (.sweepNext index admitsChildren)) :
    ∃ sweep i rest, r.sweeps[index]? = some sweep ∧ sweep.remaining = i :: rest ∧
      r.namedDone sweep = true ∧
      r.sweepNext index admitsChildren =
        { r with
          entries := r.entries.modify i (Entry.act (sweepAction admitsChildren sweep.kind))
          sweeps := r.sweeps.modify index
            ({ · with
              remaining := rest
              reached := sweep.reached ++ [i]
              naming := r.namingOf sweep.kind i }) } := by
  obtain ⟨sweep, hsweep, hboth⟩ := (Option.any_eq_true _ _).mp hready
  obtain ⟨hdone, hmore⟩ := Bool.and_eq_true_iff.mp hboth
  cases hremaining : sweep.remaining with
  | nil => simp [hremaining] at hmore
  | cons i rest =>
    refine ⟨sweep, i, rest, hsweep, hremaining, hdone, ?_⟩
    rw [sweepNext, hsweep]
    simp only [hremaining]

theorem sweepAction_ready (admitsChildren : Option Bool) (kind : SweepKind) (e : Entry) :
    e.Ready (sweepAction admitsChildren kind) := by
  cases kind <;> trivial

theorem sweepAction_section (admitsChildren : Option Bool) (kind : SweepKind) :
    (sweepAction admitsChildren kind).isOutside = false := by
  cases kind <;> rfl

theorem Lawful.sweepNext (h : Lawful r) {index : ℕ} {admitsChildren : Option Bool}
    (hready : r.Ready (.sweepNext index admitsChildren)) :
    Lawful (r.sweepNext index admitsChildren) := by
  obtain ⟨sweep, i, rest, hsweep, -, -, heq⟩ := ready_sweepNext hready
  have hstopping : r.stopping = true := by
    refine h.swept fun hnil => ?_
    rw [hnil] at hsweep
    cases hsweep
  rw [heq]
  exact ⟨h.core.act_section_any _ (sweepAction_ready admitsChildren sweep.kind)
    (sweepAction_section admitsChildren sweep.kind) i, h.locked, fun _ => hstopping⟩

theorem Lawful.admitInsert (h : Lawful r) : Lawful (r.act .admitInsert) := by
  simp only [act]
  split
  next call hcall =>
    have hopen : r.stopping = false := by
      by_contra hstopping
      rw [h.locked (Bool.not_eq_false _ ▸ hstopping)] at hcall
      cases hcall
    unfold Registry.admitInsert
    by_cases hroom : liveLimit ≤ r.live.length
    · rw [if_pos hroom]
      exact ⟨h.core, fun _ => rfl, h.swept⟩
    · rw [if_neg hroom]
      cases hreserve : r.books.ledger.reserveInstance call.kind call.admission with
      | error error => exact ⟨h.core, fun _ => rfl, h.swept⟩
      | ok admitted =>
        exact ⟨h.core.admitted (Nat.lt_of_not_le hroom) hreserve, fun _ => rfl, h.swept⟩
  next => exact h

theorem Lawful.act (h : Lawful r) {action : Action} (hready : r.Ready action) :
    Lawful (r.act action) := by
  cases action with
  | admitCheck call =>
    simp only [Registry.act]
    split
    next hopen =>
      refine ⟨h.core, fun hstopping => ?_, h.swept⟩
      rw [admitCheck, show r.stopping = true from hstopping] at hopen
      cases hopen
    next => exact h
  | admitInsert => exact h.admitInsert
  | closeScope => exact ⟨h.core, h.locked, h.swept⟩
  | startSweep kind => exact ⟨h.core, fun _ => hready, fun _ => rfl⟩
  | sweepNext index admitsChildren => exact h.sweepNext hready
  | transfer index =>
    refine ⟨h.core.of_same (Books.same_transfer h.core.balanced), h.locked, fun hne => ?_⟩
    refine h.swept fun hnil => hne ?_
    show r.sweeps.modify index _ = []
    rw [hnil, List.modify_nil]
  | entry i action => exact h.entryStep hready
  | account action =>
    exact ⟨h.core.of_same (Books.same_holders h.core.balanced hready.1 hready.2), h.locked, h.swept⟩
  | seed id => exact ⟨h.core.of_same (Books.same_seed h.core.balanced id), h.locked, h.swept⟩

theorem lawful_of_runs {trace : List Action} (run : Runs Steps .new trace r) : Lawful r := by
  induction run with
  | nil => exact .new
  | snoc _ step ih =>
    obtain ⟨hready, rfl⟩ := step
    exact ih.act hready

end Registry

end Camber.Integration
