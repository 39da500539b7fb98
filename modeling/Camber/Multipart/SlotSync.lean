import Camber.Multipart.Replies
import Camber.Multipart.SlotSteps

/-! While a session is open, the driver has read what the application took, and at most the one
reply on its way and the chunks a `discard` skips. -/

namespace Camber.Multipart
open Str SessionReply

namespace SlotSession

/-- Which reply answers a command. -/
inductive Answers : CommandKind → SessionReply → Prop
  | field (metadata : FieldMetadata) : Answers .nextField (.field metadata)
  | end_ : Answers .nextField .end_
  | chunk (bytes : Bytes) : Answers .nextChunk (.chunk bytes)
  | fieldEnd : Answers .nextChunk .fieldEnd
  | discarded : Answers .discard .fieldEnd

inductive Synced (start : SessionBody) (s : SlotSession) : Prop
  | resting {read : List SessionReply}
      (hpoint : s.point = .accepting ∨ s.point = .awaiting false)
      (hbody : Consumes start read s.body) (htaken : Skips s.acknowledged read)
      (hfield : s.field = some false ↔ s.body.inField = true)
      (hphase : s.slot.phase = .idle ∨ ∃ kind, s.slot.phase = .issued kind)
  | serving {kind : CommandKind} {read : List SessionReply} {skipped : List Bytes}
      (hpoint : s.point = .servicing kind) (hphase : s.slot.phase = .accepted)
      (hbody : Consumes start (read ++ skipped.map .chunk) s.body)
      (htaken : Skips s.acknowledged read) (hcaller : s.caller.command = some kind)
      (hskip : kind ≠ .discard → skipped = [])
      (hfield : kind ≠ .nextField ↔ s.body.inField = true)
  | answering {kind : CommandKind} {reply : SessionReply} {read : List SessionReply}
      {skipped : List Bytes}
      (hpoint : s.point = .publishing reply ∧ s.slot.phase = .accepted ∨
        s.point = .awaiting false ∧ s.slot.phase = .published reply)
      (hbody : Consumes start (read ++ skipped.map .chunk ++ [reply]) s.body)
      (htaken : Skips s.acknowledged read) (hcaller : s.caller.command = some kind)
      (hskip : kind ≠ .discard → skipped = [])
      (hanswers : Answers kind reply) (hfield : s.body.inField = reply.reading)
  | failing {kind : CommandKind} {error : RuntimeError} {read : List SessionReply}
      {skipped : List Bytes} {n : ℕ}
      (hpoint : s.point = .publishing (.failed error) ∧ s.slot.phase = .accepted ∨
        s.point = .awaiting true ∧ s.slot.phase = .published (.failed error))
      (hread : read ++ skipped.map .chunk ++ [.failed error] <+:
        uninterrupted n start.inField start)
      (htaken : Skips s.acknowledged read) (hcaller : s.caller.command = some kind)
      (hskip : kind ≠ .discard → skipped = [])
  | finished (hpoint : s.point = .awaiting true ∨ s.point = .abandoning true)
      (hphase : s.slot.phase = .idle ∨ ∃ kind, s.slot.phase = .issued kind)

variable {start : SessionBody} {s : SlotSession}

theorem Synced.not_lost (h : Synced start s) : s.slot.phase ≠ .lost := by
  cases h with
  | resting _ _ _ _ hphase | finished _ hphase =>
    rcases hphase with hphase | ⟨kind, hphase⟩ <;> simp [hphase]
  | serving _ hphase => simp [hphase]
  | answering hpoint | failing hpoint =>
    rcases hpoint with ⟨-, hphase⟩ | ⟨-, hphase⟩ <;> simp [hphase]

theorem Synced.quiet (h : Synced start s)
    (hphase : s.slot.phase = .idle ∨ ∃ kind, s.slot.phase = .issued kind)
    {slot : SlotInner} {caller : Caller} {accepted stream : Bool} {field : Option Bool}
    (hslot : slot.phase = .idle ∨ ∃ kind, slot.phase = .issued kind)
    (hsame : field = some false ↔ s.field = some false) :
    Synced start { s with slot, caller, accepted, stream, field } := by
  cases h with
  | resting hpoint hbody htaken hfield _ =>
    exact .resting hpoint hbody htaken (hsame.trans hfield) hslot
  | finished hpoint _ => exact .finished hpoint hslot
  | serving _ haccepted => rcases hphase with hphase | ⟨kind, hphase⟩ <;> simp [hphase] at haccepted
  | answering hpoint | failing hpoint =>
    rcases hphase with hphase | ⟨kind, hphase⟩ <;> simp [hphase] at hpoint

theorem synced_issue (hop : Operated s) (h : Synced start s) (hopen : s.slot.isOpen = true)
    (hrunning : s.slot.terminated = false) (kind : CommandKind) :
    Synced start (s.issue kind) := by
  unfold issue
  split_ifs with hready
  · split
    next slot hissue =>
      obtain ⟨-, hphase, rfl⟩ := SlotInner.issue_eq_ok hissue
      exact h.quiet (Or.inl hphase) (Or.inr ⟨kind, rfl⟩) Iff.rfl
    next error hissue =>
      -- an open session refuses a command only while it holds one, and then the caller waits
      have hcommand : s.caller.command = none := by rw [hready.1]; rfl
      have hidle : s.slot.phase ≠ .idle := by
        intro hphase
        simp [SlotInner.issue, hopen, hrunning, hphase] at hissue
      cases h with
      | resting _ _ _ _ hphase | finished _ hphase =>
        obtain ⟨other, hphase⟩ := hphase.resolve_left hidle
        exact nomatch hcommand.symm.trans (hop.issued other hphase)
      | serving _ _ _ _ hcaller | answering _ _ _ hcaller | failing _ _ _ hcaller =>
        exact nomatch hcommand.symm.trans hcaller
  · exact h

theorem synced_dropOperation (h : Synced start s) (hopen : s.dropOperation.slot.isOpen = true) :
    Synced start s.dropOperation := by
  unfold dropOperation at hopen ⊢
  split at hopen
  all_goals try exact h
  all_goals
    obtain ⟨-, hphase, hslot⟩ := SlotInner.dropGuard_open hopen
    rw [hslot]
    exact h.quiet hphase (Or.inl rfl) Iff.rfl

theorem synced_dropField (h : Synced start s) (hopen : s.dropField.slot.isOpen = true) :
    Synced start s.dropField := by
  have hend : ∀ complete : Bool, s.caller.command = none → s.field = some complete →
      (if complete then s.slot else s.slot.abandon).isOpen = true →
      Synced start { s with
        field := none
        caller := .free
        slot := if complete then s.slot else s.slot.abandon } := by
    intro complete hnone hfield hstill
    cases complete with
    | false => simp at hstill
    | true =>
      have hphase : s.slot.phase = .idle ∨ ∃ kind, s.slot.phase = .issued kind := by
        cases h with
        | resting _ _ _ _ hphase | finished _ hphase => exact hphase
        | serving _ _ _ _ hcaller | answering _ _ _ hcaller | failing _ _ _ hcaller =>
          exact nomatch hnone.symm.trans hcaller
      exact h.quiet hphase hphase (by simp [hfield])
  unfold dropField at hopen ⊢
  split at hopen
  next complete hcaller hfield => exact hend complete (by rw [hcaller]; rfl) hfield hopen
  next complete hcaller hfield => exact hend complete (by rw [hcaller]; rfl) hfield hopen
  · exact h

theorem synced_dropStream (h : Synced start s) (hopen : s.dropStream.slot.isOpen = true) :
    Synced start s.dropStream := by
  unfold dropStream at hopen ⊢
  split_ifs at hopen ⊢
  · simp at hopen
  · exact h

variable {kind : CommandKind}

theorem skips_snoc {taken : List (CommandKind × SessionReply)} {read : List SessionReply}
    {skipped : List Bytes} {reply : SessionReply} (h : Skips taken read)
    (hskip : kind ≠ .discard → skipped = [])
    (hreply : Answers kind reply ∨ ∃ error, reply = .failed error) :
    Skips (taken ++ [(kind, reply)]) (read ++ skipped.map .chunk ++ [reply]) := by
  by_cases hkind : kind = .discard
  · subst hkind
    refine h.discard skipped (hreply.imp_left fun hanswers => ?_)
    cases hanswers
    rfl
  · rw [hskip hkind, List.map_nil, List.append_nil]
    exact h.next hkind

def took (s : SlotSession) (kind : CommandKind) (reply : SessionReply) : SlotSession :=
  ({ s with
    slot := { s.slot with phase := .idle }
    accepted := false
    acknowledged := s.acknowledged ++ [(kind, reply)] } : SlotSession).received kind reply

theorem takeReply_cases (s : SlotSession) :
    (∃ kind reply, s.caller = .waiting kind ∧ s.slot.phase = .published reply ∧
      s.slot.isOpen = true ∧ s.takeReply = s.took kind reply) ∨
    (s.takeReply.acknowledged = s.acknowledged ∧ (s.slot.isOpen = true →
      s.takeReply = s ∨ s.slot.phase = .lost ∨ s.slot.terminated = true)) := by
  unfold takeReply
  split
  next kind hcaller =>
    rcases s.slot.acknowledge_cases with ⟨reply, hphase, hopen, hack⟩ | ⟨hack, hclosed⟩ | ⟨hack, -⟩
    · rw [hack]
      exact Or.inl ⟨kind, reply, hcaller, hphase, hopen, rfl⟩
    · rw [hack]
      exact Or.inr ⟨rfl, fun hopen => Or.inr (hclosed hopen).2⟩
    · rw [hack]
      exact Or.inr ⟨rfl, fun _ => Or.inl rfl⟩
  · exact Or.inr ⟨rfl, fun _ => Or.inl rfl⟩

@[simp] theorem took_point (kind : CommandKind) (reply : SessionReply) :
    (s.took kind reply).point = s.point := by
  cases kind <;> cases reply <;> rfl

@[simp] theorem took_body (kind : CommandKind) (reply : SessionReply) :
    (s.took kind reply).body = s.body := by
  cases kind <;> cases reply <;> rfl

@[simp] theorem took_slot (kind : CommandKind) (reply : SessionReply) :
    (s.took kind reply).slot = { s.slot with phase := .idle } := by
  cases kind <;> cases reply <;> rfl

@[simp] theorem took_acknowledged (kind : CommandKind) (reply : SessionReply) :
    (s.took kind reply).acknowledged = s.acknowledged ++ [(kind, reply)] := by
  cases kind <;> cases reply <;> rfl

theorem took_field (hop : Operated s) {reply : SessionReply}
    (hcaller : s.caller.command = some kind) (hanswers : Answers kind reply) :
    (s.took kind reply).field = some false ↔ reply.reading = true := by
  cases hanswers with
  | field metadata => simp [took, received, reading]
  | end_ => simp [took, received, reading, hop.nextField hcaller]
  | chunk bytes =>
    simp [took, received, reading, hop.ofField _ hcaller (by simp)]
  | fieldEnd => simp [took, received, reading]
  | discarded => simp [took, received, reading]

theorem synced_took (hop : Operated s) (h : Synced start s) {reply : SessionReply}
    (hcaller : s.caller = .waiting kind) (hphase : s.slot.phase = .published reply) :
    Faithful start (s.took kind reply).acknowledged ∧ Synced start (s.took kind reply) := by
  have hcommand : s.caller.command = some kind := by rw [hcaller]; rfl
  rw [took_acknowledged]
  cases h with
  | resting _ _ _ _ hquiet | finished _ hquiet => simp [hphase] at hquiet
  | serving _ haccepted => simp [hphase] at haccepted
  | @answering other reply' read skipped hpoint hbody htaken hcaller' hskip hanswers hfield =>
    obtain rfl : other = kind := Option.some.inj (hcaller'.symm.trans hcommand)
    simp only [hphase, reduceCtorEq, and_false, false_or, SlotPhase.published.injEq] at hpoint
    obtain ⟨hpoint, rfl⟩ := hpoint
    have hskips := skips_snoc htaken hskip (.inl hanswers)
    have hbody' : Consumes start (read ++ skipped.map .chunk ++ [reply])
        (s.took other reply).body := by
      rw [took_body]
      exact hbody
    refine ⟨hbody.faithful hskips, .resting (Or.inr ?_) hbody' ?_ ?_ (Or.inl ?_)⟩
    · rw [took_point, hpoint]
    · rw [took_acknowledged]
      exact hskips
    · rw [took_field hop hcommand hanswers, took_body, hfield]
    · rw [took_slot]
  | @failing other error read skipped n hpoint hread htaken hcaller' hskip =>
    obtain rfl : other = kind := Option.some.inj (hcaller'.symm.trans hcommand)
    simp only [hphase, reduceCtorEq, and_false, false_or, SlotPhase.published.injEq] at hpoint
    obtain ⟨hpoint, rfl⟩ := hpoint
    refine ⟨⟨n, _, skips_snoc htaken hskip (.inr ⟨_, rfl⟩), hread⟩, .finished (Or.inl ?_) (Or.inl ?_)⟩
    · rw [took_point, hpoint]
    · rw [took_slot]

theorem synced_accept (hop : Operated s) (h : Synced start s) (hopen : s.slot.isOpen = true) :
    Synced start s.accept := by
  unfold accept
  split
  next hpoint =>
    rcases s.slot.tryAccept_cases with ⟨kind, hphase, -, hlook⟩ | ⟨-, hclosed⟩ | hlook
    · rw [hlook]
      have hcommand := hop.issued kind hphase
      cases h with
      | @resting read _ hbody htaken hfield _ =>
        have hbody' : Consumes start (read ++ ([] : List Bytes).map .chunk) s.body := by
          simpa using hbody
        refine .serving rfl rfl hbody' htaken hcommand (fun _ => rfl) ?_
        refine Iff.trans ⟨hop.ofField kind hcommand, fun hdata => ?_⟩ hfield
        rintro rfl
        rw [hop.nextField hcommand] at hdata
        cases hdata
      | finished hpoint' => simp [hpoint] at hpoint'
      | serving hpoint' => simp [hpoint] at hpoint'
      | answering hpoint' | failing hpoint' => simp [hpoint] at hpoint'
    · exact absurd (hclosed hopen) h.not_lost
    · rw [hlook]
      exact h
  · exact h

theorem synced_seeRevoked (h : Synced start s) (hopen : s.slot.isOpen = true) :
    Synced start s.seeRevoked := by
  have hadmitting : s.slot.admitting = true := by
    simp only [SlotInner.isOpen, Bool.and_eq_true] at hopen
    exact hopen.1.1
  unfold seeRevoked
  split
  · rw [if_pos hadmitting]
    exact h
  · exact h

theorem replyFor_order {inField : Bool} {event : ParserEvent} {next : ParserState}
    (hkind : kind ≠ .nextField ↔ inField = true)
    (h : IncrementalParser.EventOrder inField event next) :
    (replyFor kind event = some event.reply ∧ Answers kind event.reply ∧
      (next == .data) = event.reply.reading) ∨
    (kind = .discard ∧ ∃ bytes, event = .chunk bytes ∧ next = .data) := by
  cases h with
  | field metadata =>
    obtain rfl : kind = .nextField := by simpa using hkind
    exact Or.inl ⟨rfl, .field metadata, rfl⟩
  | end_ =>
    obtain rfl : kind = .nextField := by simpa using hkind
    exact Or.inl ⟨rfl, .end_, rfl⟩
  | chunk bytes =>
    cases kind with
    | nextField => simp at hkind
    | nextChunk => exact Or.inl ⟨rfl, .chunk bytes, rfl⟩
    | discard => exact Or.inr ⟨rfl, bytes, rfl, rfl⟩
  | fieldEnd hne =>
    have houtside : (next == ParserState.data) = false := by simpa using hne
    cases kind with
    | nextField => simp at hkind
    | nextChunk => exact Or.inl ⟨rfl, .fieldEnd, houtside⟩
    | discard => exact Or.inl ⟨rfl, .discarded, houtside⟩

theorem synced_pump (h : Synced start s) : Synced start s.pump := by
  unfold pump
  split
  next kind hpoint =>
    cases h with
    | resting hpoint' | finished hpoint' => simp [hpoint] at hpoint'
    | answering hpoint' | failing hpoint' => simp [hpoint] at hpoint'
    | @serving other read skipped hpoint' hphase hbody htaken hcaller hskip hfield =>
      obtain rfl : kind = other := by simpa using hpoint.symm.trans hpoint'
      split
      next fault hfault =>
        exact .failing (Or.inl ⟨rfl, hphase⟩) (hbody.faithful_fault hfault) htaken hcaller hskip
      next event body hnext =>
        have hconsumed := hbody.snoc hnext
        rcases replyFor_order hfield (SessionBody.pumped_order hnext) with
          ⟨hreply, hanswers, hreading⟩ | ⟨rfl, bytes, rfl, hdata⟩
        · simp only [hreply]
          exact .answering (Or.inl ⟨rfl, hphase⟩) hconsumed htaken hcaller hskip hanswers hreading
        · have hmore : Consumes start (read ++ (skipped ++ [bytes]).map .chunk) body := by
            rw [List.map_append, ← List.append_assoc]
            exact hconsumed
          refine .serving hpoint hphase hmore htaken hcaller (fun hne => absurd rfl hne) ?_
          simp [SessionBody.inField, IncrementalParser.inField, replyFor, hdata]
  · exact h

theorem synced_publish (h : Synced start s) : Synced start s.publish := by
  unfold publish
  split
  next reply hpoint =>
    cases h with
    | resting hpoint' | finished hpoint' => simp [hpoint] at hpoint'
    | serving hpoint' => simp [hpoint] at hpoint'
    | answering hpoint' hbody htaken hcaller hskip hanswers hfield =>
      simp only [hpoint, reduceCtorEq, false_and, or_false, DriverPoint.publishing.injEq] at hpoint'
      obtain ⟨rfl, hphase⟩ := hpoint'
      have hok : reply.isFailed = false := by cases hanswers <;> rfl
      simp only [SlotInner.publish, hphase, hok]
      exact .answering (Or.inr ⟨rfl, rfl⟩) hbody htaken hcaller hskip hanswers hfield
    | failing hpoint' hread htaken hcaller hskip =>
      simp only [hpoint, reduceCtorEq, false_and, or_false, DriverPoint.publishing.injEq] at hpoint'
      obtain ⟨rfl, hphase⟩ := hpoint'
      simp only [SlotInner.publish, hphase, isFailed]
      exact .failing (Or.inr ⟨rfl, rfl⟩) hread htaken hcaller hskip
  · exact h

theorem synced_awaitAcknowledgment (h : Synced start s) (hopen : s.slot.isOpen = true) :
    Synced start s.awaitAcknowledgment := by
  have hquiet : s.slot.phase = .idle ∨ (∃ kind, s.slot.phase = .issued kind) →
      s.slot.acknowledged = some true := by
    rintro (hphase | ⟨kind, hphase⟩) <;> simp [SlotInner.acknowledged, hphase]
  unfold awaitAcknowledgment
  split
  next failed hpoint =>
    cases h with
    | resting hpoint' hbody htaken hfield hphase =>
      simp only [hpoint, reduceCtorEq, false_or, DriverPoint.awaiting.injEq] at hpoint'
      subst hpoint'
      rw [hquiet hphase]
      exact .resting (Or.inl rfl) hbody htaken hfield hphase
    | finished hpoint' hphase =>
      simp only [hpoint, reduceCtorEq, or_false, DriverPoint.awaiting.injEq] at hpoint'
      subst hpoint'
      rw [hquiet hphase]
      exact .finished (Or.inr rfl) hphase
    | serving hpoint' => simp [hpoint] at hpoint'
    | answering hpoint' hbody htaken hcaller hskip hanswers hfield =>
      have hphase := hpoint'.resolve_left (by simp [hpoint])
      have hnone : s.slot.acknowledged = none := by
        simp [SlotInner.acknowledged, hphase.2, hopen]
      rw [hnone]
      exact .answering hpoint' hbody htaken hcaller hskip hanswers hfield
    | failing hpoint' hread htaken hcaller hskip =>
      have hphase := hpoint'.resolve_left (by simp [hpoint])
      have hnone : s.slot.acknowledged = none := by
        simp [SlotInner.acknowledged, hphase.2, hopen]
      rw [hnone]
      exact .failing hpoint' hread htaken hcaller hskip
  · exact h

/-- What holds in every interleaving. -/
structure InStep (start : SessionBody) (s : SlotSession) : Prop where
  operated : Operated s
  faithful : Faithful start s.acknowledged
  alive : s.slot.isOpen = true → s.slot.terminated = false ∧ Synced start s

theorem inStep_new (start : SessionBody) (hstart : start.inField = false) :
    InStep start (new start) := by
  refine ⟨operated_new start, Consumes.nil.faithful .nil, fun _ => ⟨rfl, ?_⟩⟩
  refine .resting (Or.inl rfl) .nil .nil ?_ (Or.inl rfl)
  simp [new, hstart]

theorem synced_terminate (h : Synced start s) : s.terminate = s := by
  unfold terminate
  split
  next hpoint =>
    cases h with
    | resting hpoint' | finished hpoint' => simp [hpoint] at hpoint'
    | serving hpoint' => simp [hpoint] at hpoint'
    | answering hpoint' | failing hpoint' => simp [hpoint] at hpoint'
  · rfl

theorem synced_takeReply (hop : Operated s) (h : Synced start s) (hopen : s.slot.isOpen = true)
    (hrunning : s.slot.terminated = false) : Synced start s.takeReply := by
  rcases s.takeReply_cases with ⟨kind, reply, hcaller, hphase, -, htook⟩ | ⟨-, hstay⟩
  · rw [htook]
    exact (synced_took hop h hcaller hphase).2
  · rcases hstay hopen with hsame | hlost | hterminated
    · rw [hsame]
      exact h
    · exact absurd hlost h.not_lost
    · rw [hrunning] at hterminated
      cases hterminated

theorem act_synced (a : Action) (hop : Operated s) (h : Synced start s)
    (hrunning : s.slot.terminated = false) (hopen : s.slot.isOpen = true)
    (hstill : (act a s).slot.isOpen = true) : Synced start (act a s) := by
  cases a with
  | issue kind => exact synced_issue hop h hopen hrunning kind
  | takeReply => exact synced_takeReply hop h hopen hrunning
  | dropOperation => exact synced_dropOperation h hstill
  | dropField => exact synced_dropField h hstill
  | dropStream => exact synced_dropStream h hstill
  | accept => exact synced_accept hop h hopen
  | seeRevoked => exact synced_seeRevoked h hopen
  | pump => exact synced_pump h
  | publish => exact synced_publish h
  | awaitAcknowledgment => exact synced_awaitAcknowledgment h hopen
  | abandon =>
    simp only [act, abandon] at hstill ⊢
    split at hstill
    · simp at hstill
    · exact h
  | terminate =>
    simp only [act, synced_terminate h]
    exact h
  | revoke => simp [act, revoke] at hstill

theorem act_faithful (a : Action) (h : InStep start s) :
    Faithful start (act a s).acknowledged := by
  by_cases ha : a = .takeReply
  · subst ha
    rcases s.takeReply_cases with ⟨kind, reply, hcaller, hphase, hopen, htook⟩ | ⟨hsame, -⟩
    · simp only [act, htook]
      exact (synced_took h.operated (h.alive hopen).2 hcaller hphase).1
    · simp only [act, hsame]
      exact h.faithful
  · rw [(act_acknowledged ha s).1]
    exact h.faithful

theorem act_inStep (a : Action) (h : InStep start s) : InStep start (act a s) := by
  refine ⟨act_operated a h.operated, act_faithful a h, fun hstill => ?_⟩
  have hopen := act_isOpen a s hstill
  obtain ⟨hrunning, hsync⟩ := h.alive hopen
  refine ⟨?_, act_synced a h.operated hsync hrunning hopen hstill⟩
  by_cases ha : a = .terminate
  · subst ha
    simp only [act, synced_terminate hsync]
    exact hrunning
  · rw [(act_narrows ha s).2]
    exact hrunning

end SlotSession

end Camber.Multipart
