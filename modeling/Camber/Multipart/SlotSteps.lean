import Camber.Multipart.Slot

/-! The lock sections of the slot, each with everything it can answer. -/

namespace Camber.Multipart
open Transition

namespace SlotInner

variable {inner : SlotInner}

@[simp] theorem abandon_isOpen : inner.abandon.isOpen = false := by simp [abandon, isOpen]

@[simp] theorem revoke_isOpen : inner.revoke.isOpen = false := by simp [revoke, isOpen]

@[simp] theorem detach_isOpen : inner.detach.isOpen = false := by simp [detach, isOpen]

variable {kind : CommandKind}

theorem issue_eq_ok {next : SlotInner} (h : inner.issue kind = .ok next) :
    inner.isOpen = true ∧ inner.phase = .idle ∧ next = { inner with phase := .issued kind } := by
  unfold issue at h
  split_ifs at h with hready
  obtain rfl := Except.ok.inj h
  simp only [Bool.and_eq_true, beq_iff_eq] at hready
  exact ⟨hready.1.1, hready.2, rfl⟩

theorem acknowledge_cases (inner : SlotInner) :
    (∃ reply, inner.phase = .published reply ∧ inner.isOpen = true ∧
      inner.acknowledge = (.ok (some reply), { inner with phase := .idle })) ∨
    (inner.acknowledge = (.error closed, inner.takePublished.2) ∧
      (inner.isOpen = true → inner.takePublished.2 = inner ∧
        (inner.phase = .lost ∨ inner.terminated = true))) ∨
    (inner.acknowledge = (.ok none, inner) ∧ inner.isOpen = true) := by
  obtain ⟨admitting, attached, terminated, abandoned, phase⟩ := inner
  cases hopen : (admitting && attached && !abandoned) with
  | false =>
    refine Or.inr (Or.inl ?_)
    cases phase <;> simp [acknowledge, takePublished, isOpen, hopen]
  | true =>
    cases phase with
    | published reply =>
      exact Or.inl ⟨reply, rfl, hopen, by simp [acknowledge, takePublished, isOpen, hopen]⟩
    | lost => exact Or.inr (Or.inl (by simp [acknowledge, takePublished, isOpen, hopen]))
    | _ => cases terminated <;> simp [acknowledge, takePublished, isOpen, hopen]

@[simp] theorem takePublished_isOpen : inner.takePublished.2.isOpen = inner.isOpen := by
  unfold takePublished
  split <;> rfl

theorem takePublished_issued (h : inner.takePublished.2.phase = .issued kind) :
    inner.phase = .issued kind := by
  unfold takePublished at h
  split at h
  · cases h
  · exact h

theorem tryAccept_cases (inner : SlotInner) :
    (∃ kind, inner.phase = .issued kind ∧ inner.isOpen = true ∧
      inner.tryAccept = (.accepted kind, { inner with phase := .accepted })) ∨
    (inner.tryAccept = (.closed, inner) ∧ (inner.isOpen = true → inner.phase = .lost)) ∨
    inner.tryAccept = (.pending, inner) := by
  unfold tryAccept
  cases hphase : inner.phase <;> cases hopen : inner.isOpen <;> simp

theorem publish_cases (inner : SlotInner) (reply : SessionReply) :
    inner.phase = .accepted ∧ inner.publish reply = (true, { inner with phase := .published reply }) ∨
      inner.phase ≠ .accepted ∧ inner.publish reply = (false, inner) := by
  unfold publish
  cases hphase : inner.phase <;> simp

/-- `y` is `x` with another phase and, at most, with its admission closed. -/
def Narrows (x y : SlotInner) : Prop :=
  (y.isOpen = true → x.isOpen = true) ∧ y.terminated = x.terminated

theorem Narrows.refl (x : SlotInner) : Narrows x x := ⟨id, rfl⟩

theorem narrows_issue {next : SlotInner} (h : inner.issue kind = .ok next) :
    Narrows inner next := by
  obtain ⟨-, -, rfl⟩ := issue_eq_ok h
  exact ⟨id, rfl⟩

theorem narrows_dropGuard (terminal : Bool) : Narrows inner (inner.dropGuard terminal) := by
  unfold dropGuard
  split
  · exact ⟨id, rfl⟩
  · exact ⟨id, rfl⟩
  · exact ⟨fun h => by simp [isOpen] at h, rfl⟩

theorem narrows_abandon : Narrows inner inner.abandon := ⟨fun h => by simp at h, rfl⟩

theorem narrows_acknowledge : Narrows inner inner.acknowledge.2 := by
  rcases inner.acknowledge_cases with ⟨reply, -, -, hack⟩ | ⟨hack, -⟩ | ⟨hack, -⟩
  · rw [hack]
    exact ⟨id, rfl⟩
  · rw [hack]
    unfold takePublished
    split <;> exact ⟨id, rfl⟩
  · rw [hack]
    exact .refl inner

theorem narrows_tryAccept : Narrows inner inner.tryAccept.2 := by
  rcases inner.tryAccept_cases with ⟨kind, -, -, hlook⟩ | ⟨hlook, -⟩ | hlook <;> rw [hlook]
  · exact ⟨id, rfl⟩
  · exact .refl inner
  · exact .refl inner

theorem narrows_publish (reply : SessionReply) : Narrows inner (inner.publish reply).2 := by
  rcases inner.publish_cases reply with ⟨-, hlook⟩ | ⟨-, hlook⟩ <;> rw [hlook]
  · exact ⟨id, rfl⟩
  · exact .refl inner

theorem dropGuard_open {terminal : Bool} (h : (inner.dropGuard terminal).isOpen = true) :
    terminal = false ∧ (inner.phase = .idle ∨ ∃ kind, inner.phase = .issued kind) ∧
      inner.dropGuard terminal = { inner with phase := .idle } := by
  unfold dropGuard at h ⊢
  split at h
  next kind hphase => exact ⟨rfl, Or.inr ⟨kind, hphase⟩, by simp⟩
  next hphase => exact ⟨rfl, Or.inl hphase, by simp⟩
  next => simp [isOpen] at h

end SlotInner

def Caller.command : Caller → Option CommandKind
  | .waiting kind | .failing kind => some kind
  | _ => none

namespace SlotSession

theorem received_slot (s : SlotSession) (kind : CommandKind) (reply : SessionReply) :
    (s.received kind reply).slot = s.slot := by
  cases kind <;> cases reply <;> rfl

variable {a : Action} {s : SlotSession}

theorem act_narrows (ha : a ≠ .terminate) (s : SlotSession) :
    SlotInner.Narrows s.slot (act a s).slot := by
  cases a with
  | issue kind =>
    simp only [act, issue]
    split_ifs
    · split
      next hissue => exact SlotInner.narrows_issue hissue
      next => exact .refl _
    · exact .refl _
  | takeReply =>
    have hnarrows := s.slot.narrows_acknowledge
    simp only [act, takeReply]
    split
    · split <;> rename_i hack <;> rw [hack] at hnarrows
      · rw [received_slot]
        exact hnarrows
      · exact hnarrows
      · exact hnarrows
    · exact .refl _
  | dropOperation =>
    simp only [act, dropOperation]
    split
    · exact SlotInner.narrows_dropGuard _
    · exact SlotInner.narrows_dropGuard _
    · exact .refl _
  | dropField =>
    simp only [act, dropField]
    split
    · split_ifs
      · exact .refl _
      · exact SlotInner.narrows_abandon
    · split_ifs
      · exact .refl _
      · exact SlotInner.narrows_abandon
    · exact .refl _
  | dropStream =>
    simp only [act, dropStream]
    split_ifs
    · exact ⟨fun h => by simp at h, rfl⟩
    · exact .refl _
  | accept =>
    have hnarrows := s.slot.narrows_tryAccept
    simp only [act, accept]
    split
    · split <;> rename_i hlook <;> rw [hlook] at hnarrows <;> exact hnarrows
    · exact .refl _
  | publish =>
    simp only [act, publish]
    split
    next reply _ =>
      have hnarrows := s.slot.narrows_publish reply
      split <;> rename_i hlook <;> rw [hlook] at hnarrows <;> exact hnarrows
    · exact .refl _
  | seeRevoked | pump | awaitAcknowledgment =>
    simp only [act, seeRevoked, pump, awaitAcknowledgment]
    repeat' split
    all_goals exact .refl _
  | abandon =>
    simp only [act, abandon]
    split
    · exact SlotInner.narrows_abandon
    · exact .refl _
  | terminate => exact absurd rfl ha
  | revoke => exact ⟨fun h => by simp [act, revoke] at h, rfl⟩

theorem act_isOpen (a : Action) (s : SlotSession) (h : (act a s).slot.isOpen = true) :
    s.slot.isOpen = true := by
  by_cases ha : a = .terminate
  · subst ha
    simp only [act, terminate] at h
    split at h <;> exact h
  · exact (act_narrows ha s).1 h

def Action.byDriver : Action → Bool
  | .accept | .seeRevoked | .pump | .publish | .awaitAcknowledgment | .abandon | .terminate
  | .revoke => true
  | _ => false

structure SameCaller (s t : SlotSession) : Prop where
  caller : t.caller = s.caller
  field : t.field = s.field
  acknowledged : t.acknowledged = s.acknowledged
  stream : t.stream = s.stream

theorem act_sameCaller (h : a.byDriver = true) (s : SlotSession) : SameCaller s (act a s) := by
  cases a with
  | accept =>
    simp only [act, accept]
    split
    · split <;> exact ⟨rfl, rfl, rfl, rfl⟩
    · exact ⟨rfl, rfl, rfl, rfl⟩
  | seeRevoked =>
    simp only [act, seeRevoked]
    split
    · split_ifs <;> exact ⟨rfl, rfl, rfl, rfl⟩
    · exact ⟨rfl, rfl, rfl, rfl⟩
  | pump =>
    simp only [act, pump]
    repeat' split
    all_goals exact ⟨rfl, rfl, rfl, rfl⟩
  | publish =>
    simp only [act, publish]
    split
    · split <;> exact ⟨rfl, rfl, rfl, rfl⟩
    · exact ⟨rfl, rfl, rfl, rfl⟩
  | awaitAcknowledgment =>
    simp only [act, awaitAcknowledgment]
    repeat' split
    all_goals exact ⟨rfl, rfl, rfl, rfl⟩
  | abandon => simp only [act, abandon]; split <;> exact ⟨rfl, rfl, rfl, rfl⟩
  | terminate => simp only [act, terminate]; split <;> exact ⟨rfl, rfl, rfl, rfl⟩
  | revoke => exact ⟨rfl, rfl, rfl, rfl⟩
  | _ => cases h

theorem act_acknowledged (ha : a ≠ .takeReply) (s : SlotSession) :
    (act a s).acknowledged = s.acknowledged ∧
      ((act a s).field = some true → s.field = some true) := by
  by_cases hdriver : a.byDriver = true
  · have hsame := act_sameCaller hdriver s
    exact ⟨hsame.acknowledged, fun hfield => hsame.field ▸ hfield⟩
  cases a with
  | takeReply => exact absurd rfl ha
  | dropField =>
    simp only [act, dropField]
    split <;> simp
  | issue kind =>
    simp only [act, issue]
    split_ifs
    · split <;> exact ⟨rfl, id⟩
    · exact ⟨rfl, id⟩
  | dropOperation =>
    simp only [act, dropOperation]
    split <;> exact ⟨rfl, id⟩
  | dropStream =>
    simp only [act, dropStream]
    split_ifs <;> exact ⟨rfl, id⟩
  | _ => exact absurd rfl hdriver

theorem act_closed (a : Action) (h : s.slot.isOpen = false) :
    (act a s).acknowledged = s.acknowledged ∧
      ((act a s).field = some true → s.field = some true) := by
  by_cases ha : a = .takeReply
  · subst ha
    simp only [act, takeReply]
    split
    · rcases s.slot.acknowledge_cases with ⟨reply, -, hopen, -⟩ | ⟨hack, -⟩ | ⟨-, hopen⟩
      · rw [h] at hopen
        cases hopen
      · rw [hack]
        exact ⟨rfl, id⟩
      · rw [h] at hopen
        cases hopen
    · exact ⟨rfl, id⟩
  · exact act_acknowledged ha s

theorem replay_closed (h : s.slot.isOpen = false) (later : List Action) :
    (replay act s later).slot.isOpen = false ∧
      (replay act s later).acknowledged = s.acknowledged ∧
      ((replay act s later).field = some true → s.field = some true) := by
  induction later generalizing s with
  | nil => exact ⟨h, rfl, id⟩
  | cons a later ih =>
    have hclosed : (act a s).slot.isOpen = false := by
      rw [← Bool.not_eq_true] at h ⊢
      exact fun hopen => h (act_isOpen a s hopen)
    obtain ⟨hacknowledged, hfield⟩ := act_closed a h
    obtain ⟨hstays, hsame, hended⟩ := ih hclosed
    exact ⟨hstays, hsame.trans hacknowledged, hfield ∘ hended⟩

structure Operated (s : SlotSession) : Prop where
  nextField : s.caller.command = some .nextField → s.field = none
  ofField : ∀ kind, s.caller.command = some kind → kind ≠ .nextField → s.field = some false
  leaving : s.caller = .leaving → s.field = some false
  resting : s.caller.command = none → s.accepted = false
  issued : ∀ kind, s.slot.phase = .issued kind → s.caller.command = some kind
  taken : s.accepted = true → s.slot.isOpen = true →
    s.slot.phase ≠ .idle ∧ ∀ kind, s.slot.phase ≠ .issued kind

theorem operated_new (body : SessionBody) : Operated (new body) := by
  constructor <;> simp [new, SlotInner.new, Caller.command]

section

variable (h : Operated s)

include h

theorem Operated.of_driver {t : SlotSession} (hsame : SameCaller s t)
    (haccepted : t.accepted = s.accepted)
    (hissued : ∀ kind, t.slot.phase = .issued kind → s.slot.phase = .issued kind)
    (hidle : t.slot.phase = .idle → s.slot.phase = .idle)
    (hopen : t.slot.isOpen = true → s.slot.isOpen = true) : Operated t where
  nextField := by rw [hsame.caller, hsame.field]; exact h.nextField
  ofField := by rw [hsame.caller, hsame.field]; exact h.ofField
  leaving := by rw [hsame.caller, hsame.field]; exact h.leaving
  resting := by rw [hsame.caller, haccepted]; exact h.resting
  issued kind hkind := by rw [hsame.caller]; exact h.issued kind (hissued kind hkind)
  taken htaken hstill := by
    obtain ⟨hnotidle, hnotissued⟩ := h.taken (haccepted ▸ htaken) (hopen hstill)
    exact ⟨fun hphase => hnotidle (hidle hphase),
      fun kind hphase => hnotissued kind (hissued kind hphase)⟩

theorem operated_accept : Operated s.accept := by
  unfold accept
  split
  · rcases s.slot.tryAccept_cases with ⟨kind, hphase, -, hlook⟩ | ⟨hlook, -⟩ | hlook
    · rw [hlook]
      have hcaller := h.issued kind hphase
      refine ⟨h.nextField, h.ofField, h.leaving, fun hrest => ?_, by simp, by simp⟩
      exact nomatch hcaller.symm.trans hrest
    · rw [hlook]
      exact h.of_driver ⟨rfl, rfl, rfl, rfl⟩ rfl (fun _ => id) id id
    · rw [hlook]
      exact h.of_driver ⟨rfl, rfl, rfl, rfl⟩ rfl (fun _ => id) id id
  · exact h

theorem operated_publish : Operated s.publish := by
  unfold publish
  split
  next reply _ =>
    rcases s.slot.publish_cases reply with ⟨-, hlook⟩ | ⟨-, hlook⟩
    · rw [hlook]
      exact h.of_driver ⟨rfl, rfl, rfl, rfl⟩ rfl (by simp) (by simp) id
    · rw [hlook]
      exact h.of_driver ⟨rfl, rfl, rfl, rfl⟩ rfl (fun _ => id) id id
  · exact h

theorem operated_issue (kind : CommandKind) : Operated (s.issue kind) := by
  unfold issue
  split_ifs with hready
  · obtain ⟨hfree, hmay⟩ := hready
    have haccepted := h.resting (by rw [hfree]; rfl)
    have hfield : (kind = .nextField → s.field = none) ∧
        (kind ≠ .nextField → s.field = some false) := by
      cases kind <;> simp_all [mayIssue]
    split
    next slot hissue =>
      obtain ⟨-, -, rfl⟩ := SlotInner.issue_eq_ok hissue
      refine ⟨fun hcall => ?_, fun other hcall hne => ?_, by simp, nofun,
        fun other hphase => ?_, by simp [haccepted]⟩
      · exact hfield.1 (Option.some.inj hcall)
      · obtain rfl : kind = other := Option.some.inj hcall
        exact hfield.2 hne
      · obtain rfl : kind = other := by simpa using hphase
        rfl
    next =>
      refine ⟨fun hcall => ?_, fun other hcall hne => ?_, by simp, nofun,
        fun other hphase => ?_, by simp [haccepted]⟩
      · exact hfield.1 (Option.some.inj hcall)
      · obtain rfl : kind = other := Option.some.inj hcall
        exact hfield.2 hne
      · have hcall := h.issued other hphase
        rw [hfree] at hcall
        cases hcall
  · exact h

theorem operated_takeReply : Operated s.takeReply := by
  unfold takeReply
  split
  next kind hcaller =>
    have hcommand : s.caller.command = some kind := by rw [hcaller]; rfl
    rcases s.slot.acknowledge_cases with ⟨reply, hphase, hopen, hack⟩ | ⟨hack, hclosed⟩ | ⟨hack, -⟩
    · -- the operation is over and its command left the slot
      rw [hack]
      have hleaving := h.ofField kind hcommand
      cases kind <;> cases reply <;>
        constructor <;> simp_all [received, Caller.command]
    · rw [hack]
      refine ⟨fun hcall => h.nextField (hcommand.trans hcall),
        fun other hcall => h.ofField other (hcommand.trans hcall), by simp, nofun,
        fun other hphase => ?_, fun htaken hopen => ?_⟩
      · exact hcommand.symm.trans (h.issued other (SlotInner.takePublished_issued hphase))
      · have hstill : s.slot.isOpen = true := SlotInner.takePublished_isOpen.symm.trans hopen
        dsimp only
        rw [(hclosed hstill).1]
        exact h.taken htaken hstill
    · rw [hack]
      exact h
  · exact h

theorem operated_dropOperation : Operated s.dropOperation := by
  have hend : ∀ kind, s.caller.command = some kind → Operated { s with
      slot := s.slot.dropGuard (kind == .discard)
      accepted := false
      caller := if kind = .discard then .leaving else .free } := by
    intro kind hcommand
    have hphase : ∀ other, (s.slot.dropGuard (kind == .discard)).phase ≠ .issued other := by
      intro other
      unfold SlotInner.dropGuard
      split <;> simp
    have hfield := h.ofField kind hcommand
    by_cases hdiscard : kind = .discard
    · constructor <;> simp_all [Caller.command]
    · constructor <;> simp_all [Caller.command]
  unfold dropOperation
  split
  next kind hcaller => exact hend kind (by rw [hcaller]; rfl)
  next kind hcaller => exact hend kind (by rw [hcaller]; rfl)
  · exact h

theorem operated_dropField : Operated s.dropField := by
  have hend : ∀ complete : Bool, s.caller.command = none → Operated { s with
      field := none
      caller := .free
      slot := if complete then s.slot else s.slot.abandon } := by
    intro complete hnone
    have haccepted := h.resting hnone
    have hissued : ∀ kind, s.slot.phase ≠ .issued kind := by
      intro kind hphase
      exact nomatch hnone.symm.trans (h.issued kind hphase)
    cases complete <;>
      constructor <;> simp_all [Caller.command, SlotInner.abandon]
  unfold dropField
  split
  next complete hcaller _ => exact hend complete (by rw [hcaller]; rfl)
  next complete hcaller _ => exact hend complete (by rw [hcaller]; rfl)
  · exact h

theorem operated_dropStream : Operated s.dropStream := by
  unfold dropStream
  split_ifs
  · exact ⟨h.nextField, h.ofField, h.leaving, h.resting, h.issued, fun _ hopen => by simp at hopen⟩
  · exact h

end

theorem act_operated (a : Action) (h : Operated s) : Operated (act a s) := by
  have hdriver : a.byDriver = true → (act a s).accepted = s.accepted →
      (act a s).slot.phase = s.slot.phase → Operated (act a s) := fun hby haccepted hphase =>
    h.of_driver (act_sameCaller hby s) haccepted (fun _ => hphase ▸ id) (hphase ▸ id)
      (act_isOpen a s)
  cases a with
  | issue kind => exact operated_issue h kind
  | takeReply => exact operated_takeReply h
  | dropOperation => exact operated_dropOperation h
  | dropField => exact operated_dropField h
  | dropStream => exact operated_dropStream h
  | accept => exact operated_accept h
  | publish => exact operated_publish h
  | seeRevoked =>
    apply hdriver rfl <;> simp only [act, seeRevoked] <;> repeat' split
    all_goals rfl
  | pump =>
    apply hdriver rfl <;> simp only [act, pump] <;> repeat' split
    all_goals rfl
  | awaitAcknowledgment =>
    apply hdriver rfl <;> simp only [act, awaitAcknowledgment] <;> repeat' split
    all_goals rfl
  | abandon =>
    apply hdriver rfl <;> simp only [act, abandon] <;> repeat' split
    all_goals rfl
  | terminate =>
    apply hdriver rfl <;> simp only [act, terminate] <;> repeat' split
    all_goals rfl
  | revoke => exact hdriver rfl rfl rfl

end SlotSession

end Camber.Multipart
