import Camber.Multipart.Framing
import Camber.Multipart.SlotSync

/-! In every interleaving the replies an application takes are those of a consumer that is never
interrupted. -/

namespace Camber.Multipart
open Str Transition SlotInner

namespace SlotSession

variable {start : SessionBody} {s : SlotSession}

def Action.elsewhere (a : Action) : Bool := a.byDriver || a == .takeReply

def holding (s : SlotSession) (kind : CommandKind) (caller : Caller) : SlotSession :=
  { s with slot := { s.slot with phase := .issued kind }, caller }

variable {kind : CommandKind} {between : List Action}

theorem act_not_issued {a : Action} (ha : a.elsewhere = true) {s : SlotSession}
    (h : (act a s).slot.phase = .issued kind) : s.slot.phase = .issued kind := by
  cases a with
  | takeReply =>
    rcases s.takeReply_cases with ⟨other, reply, -, -, -, htook⟩ | ⟨-, -⟩
    · simp [act, htook] at h
    · simp only [act, takeReply] at h
      split at h
      · rcases s.slot.acknowledge_cases with ⟨reply, -, -, hack⟩ | ⟨hack, -⟩ | ⟨hack, -⟩
        · rw [hack] at h
          simp [received_slot] at h
        · rw [hack] at h
          exact takePublished_issued h
        · rw [hack] at h
          exact h
      · exact h
  | accept =>
    simp only [act, accept] at h
    split at h
    · rcases s.slot.tryAccept_cases with ⟨other, -, -, hlook⟩ | ⟨hlook, -⟩ | hlook <;>
        rw [hlook] at h
      · simp at h
      · exact h
      · exact h
    · exact h
  | publish =>
    simp only [act, publish] at h
    split at h
    next reply _ =>
      rcases s.slot.publish_cases reply with ⟨-, hlook⟩ | ⟨-, hlook⟩ <;> rw [hlook] at h
      · simp at h
      · exact h
    · exact h
  | seeRevoked | pump | awaitAcknowledgment | abandon | terminate =>
    simp only [act, seeRevoked, pump, awaitAcknowledgment, abandon, terminate] at h
    repeat' split at h
    all_goals exact h
  | revoke => exact h
  | _ => cases ha

theorem act_holding {a : Action} (ha : a.elsewhere = true) {s : SlotSession}
    (hidle : s.slot.phase = .idle) (hfree : s.caller = .free) {caller : Caller}
    (hcaller : caller.command = some kind) :
    (∃ other, other.command = some kind ∧
      act a (s.holding kind caller) = (act a s).holding kind other ∧
      (act a s).slot.phase = .idle ∧ (act a s).caller = .free) ∨
    (act a (s.holding kind caller)).slot.phase ≠ .issued kind := by
  obtain ⟨slot, point, body, terminal, stream, field, caller', accepted, acknowledged⟩ := s
  obtain ⟨admitting, attached, terminated, abandoned, phase⟩ := slot
  obtain rfl : phase = .idle := hidle
  obtain rfl : caller' = .free := hfree
  cases a with
  | takeReply =>
    cases caller with
    | waiting other =>
      obtain rfl : other = kind := Option.some.inj hcaller
      left
      cases hopen : (admitting && attached && !abandoned) with
      | false =>
        refine ⟨.failing other, rfl, ?_, rfl, rfl⟩
        simp [act, takeReply, holding, acknowledge, takePublished,
          isOpen, hopen]
      | true =>
        cases terminated with
        | false =>
          refine ⟨.waiting other, rfl, ?_, rfl, rfl⟩
          simp [act, takeReply, holding, acknowledge, takePublished,
            isOpen, hopen]
        | true =>
          refine ⟨.failing other, rfl, ?_, rfl, rfl⟩
          simp [act, takeReply, holding, acknowledge, takePublished,
            isOpen, hopen]
    | failing other => exact Or.inl ⟨.failing other, hcaller, rfl, rfl, rfl⟩
    | _ => cases hcaller
  | accept =>
    cases point with
    | accepting =>
      cases hopen : (admitting && attached && !abandoned) with
      | false =>
        refine Or.inl ⟨caller, hcaller, ?_, ?_, ?_⟩ <;>
          simp [act, accept, holding, tryAccept, isOpen, hopen]
      | true =>
        right
        simp [act, accept, holding, tryAccept, isOpen, hopen]
    | _ => exact Or.inl ⟨caller, hcaller, rfl, rfl, rfl⟩
  | publish =>
    cases point with
    | publishing reply => exact Or.inl ⟨caller, hcaller, rfl, rfl, rfl⟩
    | _ => exact Or.inl ⟨caller, hcaller, rfl, rfl, rfl⟩
  | seeRevoked =>
    cases point with
    | servicing other => cases admitting <;> exact Or.inl ⟨caller, hcaller, rfl, rfl, rfl⟩
    | _ => exact Or.inl ⟨caller, hcaller, rfl, rfl, rfl⟩
  | pump =>
    left
    refine ⟨caller, hcaller, ?_⟩
    simp only [act, pump, holding]
    repeat' split
    all_goals exact ⟨rfl, rfl, rfl⟩
  | awaitAcknowledgment =>
    cases point with
    | awaiting failed => exact Or.inl ⟨caller, hcaller, rfl, rfl, rfl⟩
    | _ => exact Or.inl ⟨caller, hcaller, rfl, rfl, rfl⟩
  | abandon => cases point <;> exact Or.inl ⟨caller, hcaller, rfl, rfl, rfl⟩
  | terminate => cases point <;> exact Or.inl ⟨caller, hcaller, rfl, rfl, rfl⟩
  | revoke => exact Or.inl ⟨caller, hcaller, rfl, rfl, rfl⟩
  | _ => cases ha

theorem replay_not_issued (hbetween : ∀ a ∈ between, a.elsewhere = true) {s : SlotSession}
    (h : (replay act s between).slot.phase = .issued kind) : s.slot.phase = .issued kind := by
  induction between generalizing s with
  | nil => exact h
  | cons a between ih =>
    rw [List.forall_mem_cons] at hbetween
    exact act_not_issued hbetween.1 (ih hbetween.2 h)

theorem replay_holding (hbetween : ∀ a ∈ between, a.elsewhere = true) {s : SlotSession}
    (hidle : s.slot.phase = .idle) (hfree : s.caller = .free) {caller : Caller}
    (hcaller : caller.command = some kind)
    (hissued : (replay act (s.holding kind caller) between).slot.phase = .issued kind) :
    ∃ other, other.command = some kind ∧
      replay act (s.holding kind caller) between = (replay act s between).holding kind other ∧
      (replay act s between).slot.phase = .idle ∧ (replay act s between).caller = .free := by
  induction between generalizing s caller with
  | nil => exact ⟨caller, hcaller, rfl, hidle, hfree⟩
  | cons a between ih =>
    rw [List.forall_mem_cons] at hbetween
    rcases act_holding hbetween.1 hidle hfree hcaller with
      ⟨other, hother, hstep, hidle', hfree'⟩ | htaken
    · have hissued' : (replay act ((act a s).holding kind other) between).slot.phase =
          .issued kind := by
        rw [← hstep]
        exact hissued
      obtain ⟨last, hlast, hrest⟩ := ih hbetween.2 hidle' hfree' hother hissued'
      refine ⟨last, hlast, ?_⟩
      show replay act (act a (s.holding kind caller)) between = _ ∧ _
      rw [hstep]
      exact hrest
    · exact absurd (replay_not_issued hbetween.2 hissued) htaken

theorem retracted (hop : ∀ between, Operated (replay act s between)) (hkind : kind ≠ .discard)
    (hfree : s.caller = .free) (hbetween : ∀ a ∈ between, a.elsewhere = true)
    (hissued : (replay act (act (.issue kind) s) between).slot.phase = .issued kind) :
    act .dropOperation (replay act (act (.issue kind) s) between) = replay act s between := by
  have hphase : (act (.issue kind) s).slot.phase = .issued kind :=
    replay_not_issued hbetween hissued
  have hnotissued : s.slot.phase ≠ .issued kind := by
    intro hs
    have hcommand := (hop []).issued kind hs
    change s.caller.command = some kind at hcommand
    rw [hfree] at hcommand
    cases hcommand
  -- so the command was issued, into an idle slot
  have hheld : s.slot.phase = .idle ∧ act (.issue kind) s = s.holding kind (.waiting kind) := by
    simp only [act, issue] at hphase ⊢
    split_ifs at hphase ⊢ with hready
    · split at hphase
      next hissue =>
        obtain ⟨-, hidle, rfl⟩ := issue_eq_ok hissue
        exact ⟨hidle, rfl⟩
      next => exact absurd hphase hnotissued
    · exact absurd hphase hnotissued
  obtain ⟨hidle, hheld⟩ := hheld
  rw [hheld] at hissued ⊢
  obtain ⟨caller, hcaller, hrun, hidle', hfree'⟩ :=
    replay_holding hbetween hidle hfree rfl hissued
  have haccepted := (hop between).resting (by rw [hfree']; rfl)
  rw [hrun]
  generalize replay act s between = t at *
  obtain ⟨slot, point, body, terminal, stream, field, caller', accepted, acknowledged⟩ := t
  obtain ⟨admitting, attached, terminated, abandoned, phase⟩ := slot
  obtain rfl : phase = .idle := hidle'
  obtain rfl : caller' = .free := hfree'
  obtain rfl : accepted = false := haccepted
  cases caller with
  | waiting other | failing other =>
    obtain rfl : other = kind := Option.some.inj hcaller
    have hkeeps : (other == CommandKind.discard) = false := by simpa using hkind
    simp [act, dropOperation, holding, dropGuard, hkind, hkeeps]
  | _ => cases hcaller

def CleanlyClosed (s : SlotSession) : Prop :=
  s.terminal = some .clean ∨ s.point = .settled .clean → s.body.parser.state = .complete

theorem CleanlyClosed.of_same {t : SlotSession} (h : CleanlyClosed s)
    (hterminal : t.terminal = s.terminal) (hbody : t.body = s.body)
    (hpoint : ∀ terminal, t.point = .settled terminal → s.point = .settled terminal) :
    CleanlyClosed t := by
  rintro (hclean | hsettled)
  · rw [hbody]
    exact h (Or.inl (hterminal ▸ hclean))
  · rw [hbody]
    exact h (Or.inr (hpoint _ hsettled))

theorem cleanlyClosed_pump (h : CleanlyClosed s) : CleanlyClosed s.pump := by
  unfold pump
  split
  next kind hpoint =>
    split
    next fault hfault =>
      rintro (hclean | hsettled)
      · -- an earlier clean terminal outlives the fault, a later one is never clean
        cases hterminal : s.terminal with
        | none =>
          simp only [hterminal, Option.getD_none, Option.some.injEq] at hclean
          exact absurd hclean (SessionBody.pumped_fault_terminal hfault)
        | some terminal =>
          simp only [hterminal, Option.getD_some, Option.some.injEq] at hclean
          exact h (Or.inl (hterminal.trans (congrArg some hclean)))
      · cases hsettled
    next event body hnext =>
      have hkeeps : s.body.parser.state = .complete → body.parser.state = .complete := by
        intro hcomplete
        obtain ⟨next, hpumped, hstate⟩ := SessionBody.pumped_complete hcomplete
        obtain ⟨-, rfl⟩ := Prod.mk.inj (Except.ok.inj (hpumped.symm.trans hnext))
        exact hstate
      split
      next reply hreply =>
        rintro (hclean | hsettled)
        · by_cases hend : reply = .end_
          · have hevent : event = .end_ := by
              subst hend
              cases kind <;> cases event <;> simp_all [replyFor]
            subst hevent
            have horder := SessionBody.pumped_order hnext
            generalize s.body.inField = before at horder
            show body.parser.state = .complete
            generalize body.parser.state = state at horder ⊢
            cases horder
            rfl
          · simp only [hend, if_false] at hclean
            exact hkeeps (h (Or.inl hclean))
        · cases hsettled
      next =>
        rintro (hclean | hsettled)
        · exact hkeeps (h (Or.inl hclean))
        · exact hkeeps (h (Or.inr hsettled))
  · exact h

theorem act_cleanlyClosed (a : Action) (h : CleanlyClosed s) : CleanlyClosed (act a s) := by
  cases a with
  | pump => exact cleanlyClosed_pump h
  | terminate =>
    simp only [act, terminate]
    split
    · rintro (hclean | hsettled)
      · exact h (Or.inl hclean)
      · cases hterminal : s.terminal with
        | none => simp [hterminal] at hsettled
        | some terminal =>
          simp only [hterminal, Option.getD_some, DriverPoint.settled.injEq] at hsettled
          exact h (Or.inl (hterminal.trans (congrArg some hsettled)))
    · exact h
  | takeReply =>
    have hreceived : ∀ (t : SlotSession) kind reply, CleanlyClosed t →
        CleanlyClosed (t.received kind reply) := by
      intro t kind reply ht
      cases kind <;> cases reply <;> exact ht
    simp only [act, takeReply]
    repeat' split
    · exact hreceived _ _ _ h
    all_goals exact h
  | issue kind =>
    simp only [act, issue]
    repeat' split
    all_goals exact h.of_same rfl rfl fun _ => id
  | dropOperation | dropField | dropStream | revoke =>
    simp only [act, dropOperation, dropField, dropStream, revoke]
    repeat' split
    all_goals exact h.of_same rfl rfl fun _ => id
  | accept | seeRevoked | publish | awaitAcknowledgment | abandon =>
    simp only [act, accept, seeRevoked, publish, awaitAcknowledgment, abandon]
    repeat' split
    all_goals refine h.of_same rfl rfl fun _ hp => ?_
    all_goals first
      | exact hp
      | (simp only [DriverPoint.next] at hp; split_ifs at hp)
      | cases hp

/-- What the slot keeps, for a session that reads `start`. -/
structure Kept (start : SessionBody) (s : SlotSession) : Prop where
  replies : ∃ n read, Skips s.acknowledged read ∧ read <+: uninterrupted n false start
  /-- An operation other than `discard` that ends before its command was taken leaves the session
  as if it had never been issued. -/
  retracted : ∀ kind between, kind ≠ .discard → s.caller = .free →
    (∀ a ∈ between, a.elsewhere = true) →
    (replay act (act (.issue kind) s) between).slot.phase = .issued kind →
    act .dropOperation (replay act (act (.issue kind) s) between) = replay act s between
  lost : s.accepted = true → ∀ later,
    (replay act (act .dropOperation s) later).acknowledged = s.acknowledged ∧
      (replay act (act .dropOperation s) later).field ≠ some true
  closed : s.slot.isOpen = false → ∀ later, (replay act s later).slot.isOpen = false
  clean : s.point = .settled .clean → s.body.parser.state = .complete

theorem InStep.replay (h : InStep start s) (actions : List Action) :
    InStep start (replay act s actions) := by
  induction actions generalizing s with
  | nil => exact h
  | cons a actions ih => exact ih (act_inStep a h)

theorem CleanlyClosed.replay (h : CleanlyClosed s) (actions : List Action) :
    CleanlyClosed (replay act s actions) := by
  induction actions generalizing s with
  | nil => exact h
  | cons a actions ih => exact ih (act_cleanlyClosed a h)

theorem dropOperation_taken (hop : Operated s) (htaken : s.accepted = true) :
    (act .dropOperation s).slot.isOpen = false ∧ (act .dropOperation s).field ≠ some true := by
  obtain ⟨kind, hcommand⟩ : ∃ kind, s.caller.command = some kind := by
    cases hcommand : s.caller.command with
    | none =>
      rw [hop.resting hcommand] at htaken
      cases htaken
    | some kind => exact ⟨kind, rfl⟩
  have hdrop : (act .dropOperation s).slot = s.slot.dropGuard (kind == .discard) ∧
      (act .dropOperation s).field = s.field := by
    cases hcaller : s.caller with
    | waiting other | failing other =>
      rw [hcaller] at hcommand
      obtain rfl : other = kind := Option.some.inj hcommand
      simp [act, dropOperation, hcaller]
    | free | leaving =>
      rw [hcaller] at hcommand
      cases hcommand
  constructor
  · rw [← Bool.not_eq_true]
    intro hopen
    obtain ⟨hidle, hissued⟩ := hop.taken htaken (act_isOpen _ s hopen)
    rw [hdrop.1] at hopen
    rcases (dropGuard_open hopen).2.1 with hphase | ⟨other, hphase⟩
    · exact hidle hphase
    · exact hissued other hphase
  · rw [hdrop.2]
    by_cases hkind : kind = .nextField
    · rw [hop.nextField (hkind ▸ hcommand)]
      simp
    · rw [hop.ofField kind hcommand hkind]
      simp

/-- In every interleaving of the application, the driver and the coordinator. -/
theorem command_slot_kept (boundary : Text) (limits : MultipartLimits) (frames : List Bytes)
    (ending : BodyEnd) (actions : List Action) :
    Kept (.new boundary limits frames ending)
      (Transition.replay act (new (.new boundary limits frames ending)) actions) := by
  have hstart : (SessionBody.new boundary limits frames ending).inField = false := rfl
  have hstep := (inStep_new _ hstart).replay actions
  have hclean : CleanlyClosed (new (.new boundary limits frames ending)) := by
    rintro (hnone | hsettled)
    · cases hnone
    · cases hsettled
  refine ⟨hstep.faithful, ?_, ?_, ?_, ?_⟩
  · intro kind between hkind hfree hbetween hissued
    exact retracted (fun between => (hstep.replay between).operated) hkind hfree hbetween hissued
  · intro htaken later
    obtain ⟨hclosed, hfield⟩ := dropOperation_taken hstep.operated htaken
    obtain ⟨-, hsame, hended⟩ := replay_closed hclosed later
    refine ⟨hsame.trans (act_acknowledged (by simp) _).1, fun htrue => hfield (hended htrue)⟩
  · exact fun hclosed later => (replay_closed hclosed later).1
  · exact fun hsettled => (hclean.replay actions) (Or.inr hsettled)

end SlotSession

end Camber.Multipart
