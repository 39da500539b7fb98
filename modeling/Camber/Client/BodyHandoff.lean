import Camber.Client.Body

/-! The caller's one demand is in one place; what it received is what the source sent first. -/

namespace Camber.Client.Body
open Str Inbound Transition Exchange OwnerStage

variable {e : Exchange} {a : Action}

/-- The phases that go with a stage of the owner. -/
def OwnerStage.Agrees : OwnerStage → Phase → Prop
  | waiting, phase | selecting, phase | polling, phase | admitting _, phase | delivering _, phase
  | ended _, phase => phase = .live ∨ phase = .committed .abandoned
  | returned, phase | released, phase => phase = .live ∨ ∃ terminal, phase = .committed terminal
  | concluded terminal, phase | published terminal, phase => phase = .committed terminal
  | done, phase => ∃ terminal, phase = .settled terminal

/-- In how many places the caller's one demand is: placed, accepted, or answered. -/
def Exchange.outstanding (e : Exchange) : ℕ :=
  e.slot.demanded.toNat + e.owner.accepted.toNat + e.slot.chunk.toList.length

structure Handoff (e : Exchange) : Prop where
  agrees : e.owner.Agrees e.slot.phase
  once : e.outstanding ≤ 1
  held : e.slot.phase = .live → (e.caller = .idle ∧ e.outstanding = 0) ∨ e.caller = .demanding

theorem handoff_start (limit counted : ℕ) (carries : Bool) :
    Handoff (.start limit counted carries) :=
  ⟨.inl rfl, Nat.zero_le 1, fun _ => .inl ⟨rfl, rfl⟩⟩

variable {owner : OwnerStage}

theorem OwnerStage.Agrees.of_running {phase : Phase} (h : owner.Agrees phase)
    (hrunning : owner.running = true) : phase = .live ∨ phase = .committed .abandoned := by
  cases owner with
  | waiting | selecting | polling | admitting _ | delivering _ | ended _ => exact h
  | returned | released | concluded _ | published _ | done => cases hrunning

theorem OwnerStage.Agrees.of_settled {terminal : BodyTerminal}
    (h : owner.Agrees (.settled terminal)) : owner = .done := by
  cases owner with
  | done => rfl
  | waiting | selecting | polling | admitting _ | delivering _ | ended _ => simp [Agrees] at h
  | returned | released | concluded _ | published _ => simp [Agrees] at h

theorem running_of_expirable (h : owner.expirable = true) : owner.running = true := by
  cases owner with
  | waiting | selecting | polling | admitting _ | delivering _ | ended _ => rfl
  | returned | released | concluded _ | published _ | done => cases h

namespace Handoff

variable (h : Handoff e)

include h

theorem move {e' : Exchange} (hslot : e'.slot = e.slot) (hcaller : e'.caller = e.caller)
    (hagrees : e'.owner.Agrees e.slot.phase)
    (haccepted : e'.owner.accepted = true → e.owner.accepted = true) : Handoff e' := by
  have hle : e'.outstanding ≤ e.outstanding := by
    have : e'.owner.accepted.toNat ≤ e.owner.accepted.toNat := Bool.toNat_le_toNat haccepted
    simp only [outstanding, hslot]
    omega
  refine ⟨hslot ▸ hagrees, hle.trans h.once, fun hlive => ?_⟩
  rw [hcaller]
  rcases h.held (hslot ▸ hlive) with ⟨hidle, hnone⟩ | hdemanding
  · exact .inl ⟨hidle, Nat.le_zero.mp (hle.trans hnone.le)⟩
  · exact .inr hdemanding

theorem demanding (hlive : e.slot.phase = .live) (hsome : e.outstanding ≠ 0) :
    e.caller = .demanding := by
  rcases h.held hlive with ⟨-, hnone⟩ | hdemanding
  · exact absurd hnone hsome
  · exact hdemanding

theorem none_of_idle (hlive : e.slot.phase = .live) (hidle : e.caller = .idle) :
    e.outstanding = 0 := by
  by_contra hsome
  have hdemanding := h.demanding hlive hsome
  rw [hidle] at hdemanding
  cases hdemanding

theorem placeDemand (hidle : e.caller = .idle) : Handoff e.placeDemand := by
  rcases e.placeDemand_cases with ⟨hlive, heq⟩ | ⟨kept, hkept, heq⟩
  · have hnone := h.none_of_idle hlive hidle
    simp only [outstanding] at hnone
    rw [heq]
    refine ⟨h.agrees, ?_, fun _ => .inr rfl⟩
    simp only [outstanding, Bool.toNat_true]
    omega
  · rw [heq]
    exact ⟨h.agrees, h.once, fun _ => .inr rfl⟩

theorem abandon {caller : CallerStage} : Handoff { e with slot := e.slot.abandon, caller } := by
  rcases e.abandon_cases with ⟨hlive, heq⟩ | ⟨kept, hkept, heq⟩
  · have hagrees : e.owner.Agrees (.committed .abandoned) := by
      have hagrees := h.agrees
      rw [hlive] at hagrees
      cases howner : e.owner with
      | waiting | selecting | polling | admitting _ | delivering _ | ended _ => exact .inr rfl
      | returned | released => exact .inr ⟨_, rfl⟩
      | concluded _ | published _ | done => simp [howner, Agrees] at hagrees
    rw [heq]
    refine ⟨hagrees, ?_, nofun⟩
    simpa [outstanding] using Bool.toNat_le e.owner.accepted
  · rw [heq]
    refine ⟨h.agrees, h.once, fun hlive => ?_⟩
    rw [show e.slot.phase = .live from hlive] at hkept
    cases hkept

theorem pollAnswer : Handoff e.pollAnswer := by
  rcases e.pollAnswer_cases with ⟨chunk, hchunk, heq⟩ | ⟨terminal, -, hsettled, heq⟩ | heq
  · have honce := h.once
    simp only [outstanding, hchunk, Option.toList_some, List.length_singleton] at honce
    rw [heq]
    refine ⟨h.agrees, ?_, fun _ => .inl ⟨rfl, ?_⟩⟩
    all_goals
      simp only [outstanding, Option.toList_none, List.length_nil]
      omega
  · rw [heq]
    exact ⟨h.agrees, h.once, fun hlive => absurd (hsettled.symm.trans hlive) nofun⟩
  · rwa [heq]

theorem pollSettled : Handoff e.pollSettled := by
  rcases e.pollSettled_cases with ⟨terminal, hsettled, heq⟩ | heq
  · rw [heq]
    exact ⟨h.agrees, h.once, fun hlive => absurd (hsettled.symm.trans hlive) nofun⟩
  · rwa [heq]

theorem pollDemand (hwaiting : e.owner = .waiting) : Handoff e.pollDemand := by
  have hagrees := h.agrees
  rw [hwaiting] at hagrees
  rcases e.pollDemand_cases with ⟨hlive, hdemanded, heq⟩ | heq | ⟨kept, hkept, heq⟩
  · have hcaller : e.caller = .demanding :=
      h.demanding hlive (by simp [outstanding, hdemanded])
    have honce := h.once
    simp only [outstanding, hdemanded, Bool.toNat_true] at honce
    rw [heq]
    refine ⟨hagrees, ?_, fun _ => .inr hcaller⟩
    simp only [outstanding, accepted, Bool.toNat_true, Bool.toNat_false]
    omega
  · rwa [heq]
  · rw [heq]
    exact h.move rfl rfl hagrees nofun

theorem pollWithdrawn (hselecting : e.owner = .selecting) : Handoff e.pollWithdrawn := by
  have hagrees := h.agrees
  rw [hselecting] at hagrees
  rcases e.pollWithdrawn_cases with ⟨hlive, heq⟩ | ⟨kept, hkept, heq⟩
  · rw [heq]
    exact h.move rfl rfl hagrees fun _ => by rw [hselecting]; rfl
  · rw [heq]
    exact h.move rfl rfl hagrees nofun

theorem read (hpolling : e.owner = .polling) (event : SourceEvent) : Handoff (e.read event) := by
  have hagrees := h.agrees
  rw [hpolling] at hagrees
  have haccepted : e.owner.accepted = true := by rw [hpolling]; rfl
  refine h.move rfl rfl ?_ fun _ => haccepted
  show (afterRead event).Agrees _
  cases event with
  | ended | failed => exact hagrees
  | frame sent =>
    rw [afterRead]
    cases payload sent with
    | none => exact hagrees
    | some chunk => exact hagrees

theorem count {chunk : Bytes} (hadmitting : e.owner = .admitting chunk) : Handoff e.count := by
  have hagrees := h.agrees
  rw [hadmitting] at hagrees
  rcases count_cases hadmitting with ⟨-, heq⟩ | heq
  · rw [heq]
    exact h.move rfl rfl hagrees fun _ => by rw [hadmitting]; rfl
  · rw [heq]
    exact h.move rfl rfl hagrees nofun

theorem deliver {chunk : Bytes} (hdelivering : e.owner = .delivering chunk) :
    Handoff e.deliver := by
  have hagrees := h.agrees
  rw [hdelivering] at hagrees
  rcases deliver_cases hdelivering with ⟨hlive, heq⟩ | ⟨kept, hkept, heq⟩
  · have honce := h.once
    simp only [outstanding, hdelivering, accepted, Bool.toNat_true] at honce
    have hcaller : e.caller = .demanding :=
      h.demanding hlive (by simp [outstanding, hdelivering, accepted])
    rw [heq]
    refine ⟨hagrees, ?_, fun _ => .inr hcaller⟩
    simp only [outstanding, accepted, Bool.toNat_false, Option.toList_some,
      List.length_singleton]
    omega
  · rw [heq]
    exact h.move rfl rfl hagrees nofun

theorem commit {terminal : BodyTerminal} (hended : e.owner = .ended terminal) :
    Handoff e.commit := by
  have hagrees := h.agrees
  rw [hended] at hagrees
  rcases commit_cases hended with ⟨-, heq⟩ | ⟨kept, hkept, heq⟩
  · rw [heq]
    refine ⟨.inr ⟨_, rfl⟩, ?_, nofun⟩
    simpa only [outstanding, hended, accepted] using h.once
  · rw [heq]
    exact h.move rfl rfl (hagrees.imp id fun habandoned => ⟨_, habandoned⟩) nofun

theorem conclude (hreleased : e.owner = .released) : Handoff e.conclude := by
  have hagrees := h.agrees
  rw [hreleased] at hagrees
  rcases e.conclude_cases with ⟨-, heq⟩ | ⟨kept, hkept, heq⟩
  · rw [heq]
    refine ⟨rfl, ?_, nofun⟩
    simpa only [outstanding, hreleased, accepted] using h.once
  · rw [heq]
    refine h.move rfl rfl ?_ nofun
    rcases hagrees with hlive | ⟨terminal, hcommitted⟩
    · rw [hlive] at hkept
      cases hkept
    · rw [hcommitted] at hkept ⊢
      cases hkept
      rfl

theorem chunk_eq_none (haccepted : e.owner.accepted = true) : e.slot.chunk = none := by
  have honce := h.once
  rw [outstanding, haccepted, Bool.toNat_true] at honce
  cases hchunk : e.slot.chunk with
  | none => rfl
  | some chunk =>
    rw [hchunk, Option.toList_some, List.length_singleton] at honce
    omega

theorem not_ended (hrunning : e.owner.running = true) : e.slot.phase.fact ≠ some .ended := by
  rcases h.agrees.of_running hrunning with hlive | habandoned
  · rw [hlive]
    nofun
  · rw [habandoned]
    nofun

theorem act (hready : e.Ready a) : Handoff (Exchange.act a e) := by
  have hagrees := h.agrees
  cases a with
  | placeDemand => exact h.placeDemand hready
  | pollAnswer => exact h.pollAnswer
  | dropDemand | close | dropHandle => exact h.abandon
  | pollSettled => exact h.pollSettled
  | pollDemand => exact h.pollDemand hready
  | expire expiry => exact h.move rfl rfl (hagrees.of_running (running_of_expirable hready)) nofun
  | pollWithdrawn => exact h.pollWithdrawn hready
  | read event => exact h.read hready event
  | readPending =>
    have hpolling : e.owner = .polling := hready
    rw [hpolling] at hagrees
    exact h.move rfl rfl hagrees fun _ => by rw [hpolling]; rfl
  | readIdle =>
    have hpolling : e.owner = .polling := hready
    rw [hpolling] at hagrees
    exact h.move rfl rfl hagrees nofun
  | count =>
    obtain ⟨chunk, hadmitting⟩ := hready
    exact h.count hadmitting
  | deliver =>
    obtain ⟨chunk, hdelivering⟩ := hready
    exact h.deliver hdelivering
  | commit =>
    obtain ⟨terminal, hended⟩ := hready
    exact h.commit hended
  | abort =>
    refine h.move rfl rfl ?_ nofun
    exact (hagrees.of_running hready).imp id fun habandoned => ⟨_, habandoned⟩
  | dropSource =>
    rw [show e.owner = .returned from hready] at hagrees
    exact h.move rfl rfl hagrees nofun
  | conclude => exact h.conclude hready
  | publish =>
    obtain ⟨terminal, hconcluded⟩ := hready
    rw [hconcluded] at hagrees
    rw [Exchange.act, publish_of_concluded hconcluded]
    exact h.move rfl rfl hagrees nofun
  | settle =>
    obtain ⟨terminal, hpublished⟩ := hready
    rw [Exchange.act, settle_of_published hpublished]
    exact ⟨⟨terminal, rfl⟩, Nat.zero_le 1, nofun⟩

end Handoff

/-- The body ends cleanly: its owner read the end of a live body, or the fact says so. -/
def Exchange.EndsClean (e : Exchange) : Prop :=
  (e.slot.phase = .live ∧ e.owner = .ended .ended) ∨ e.slot.phase.fact = some .ended

/-- The chunks received and retained are the first the source sent. -/
structure Flow (e : Exchange) : Prop where
  begun : e.received ++ e.slot.chunk.toList <+: payloads e.events
  even : e.slot.phase = .live → e.owner.serving = true →
    e.received ++ e.slot.chunk.toList ++ e.owner.hand.toList = payloads e.events
  clean : e.EndsClean →
    e.events.getLast? = some .ended ∧ e.received = payloads e.events ∧ e.slot.chunk = none

theorem flow_start (limit counted : ℕ) (carries : Bool) : Flow (.start limit counted carries) := by
  refine ⟨List.nil_prefix, fun _ _ => rfl, ?_⟩
  rintro (⟨-, howner⟩ | hfact)
  · cases howner
  · cases hfact

theorem payloads_append (events : List SourceEvent) (event : SourceEvent) :
    payloads (events ++ [event]) = payloads events ++ event.payload.toList :=
  filterMap_snoc ..

theorem received_append (answers : List Answer) (answer : Answer) :
    (answers ++ [answer]).filterMap Answer.taken =
      answers.filterMap Answer.taken ++ answer.taken.toList :=
  filterMap_snoc ..

theorem Flow.received (h : Flow e) : e.received <+: payloads e.events :=
  (List.prefix_append _ _).trans h.begun

namespace Flow

variable (h : Flow e)

include h

theorem move {e' : Exchange} (hphase : e'.slot.phase = e.slot.phase)
    (hchunk : e'.slot.chunk = e.slot.chunk) (hanswers : e'.answers = e.answers)
    (hevents : e'.events = e.events) (hserving : e.slot.phase = .live → e'.owner.serving = true →
      e.owner.serving = true ∧ e'.owner.hand = e.owner.hand)
    (hended : e.slot.phase = .live → e'.owner = .ended .ended → e.owner = .ended .ended) :
    Flow e' := by
  have hreceived : e'.received = e.received := by rw [Exchange.received, hanswers, Exchange.received]
  refine ⟨?_, fun hlive howner => ?_, fun hclean => ?_⟩
  · rw [hreceived, hchunk, hevents]
    exact h.begun
  · rw [hphase] at hlive
    obtain ⟨hbefore, hhand⟩ := hserving hlive howner
    rw [hreceived, hchunk, hevents, hhand]
    exact h.even hlive hbefore
  · rw [hreceived, hchunk, hevents]
    refine h.clean ?_
    rw [EndsClean, hphase] at hclean
    exact hclean.imp (fun ⟨hlive, howner⟩ => ⟨hlive, hended hlive howner⟩) id

theorem pollAnswer : Flow e.pollAnswer := by
  rcases e.pollAnswer_cases with ⟨chunk, hchunk, heq⟩ | ⟨terminal, hchunk, hsettled, heq⟩ | heq
  · have hreceived : e.pollAnswer.received = e.received ++ [chunk] := by
      rw [heq]
      exact received_append _ _
    have hsame : e.pollAnswer.received ++ e.pollAnswer.slot.chunk.toList =
        e.received ++ e.slot.chunk.toList := by
      rw [hreceived, hchunk, heq]
      exact List.append_nil _
    refine ⟨?_, fun hlive howner => ?_, fun hclean => ?_⟩
    · rw [hsame, heq]
      exact h.begun
    · rw [heq] at hlive howner
      rw [hsame, heq]
      exact h.even hlive howner
    · rw [heq] at hclean
      have hnone := (h.clean hclean).2.2
      rw [hchunk] at hnone
      cases hnone
  · have hreceived : e.pollAnswer.received = e.received := by
      rw [heq]
      exact (received_append _ _).trans (List.append_nil _)
    rw [heq] at hreceived ⊢
    refine ⟨hreceived ▸ h.begun, fun hlive => ?_, fun hclean => hreceived ▸ h.clean hclean⟩
    rw [show e.slot.phase = .live from hlive] at hsettled
    cases hsettled
  · rwa [heq]

theorem abandon {caller : CallerStage} : Flow { e with slot := e.slot.abandon, caller } := by
  rcases e.abandon_cases with ⟨-, heq⟩ | ⟨kept, hkept, heq⟩
  · rw [heq]
    refine ⟨?_, nofun, ?_⟩
    · show e.received ++ [] <+: payloads e.events
      rw [List.append_nil]
      exact h.received
    · rintro (⟨hlive, -⟩ | hfact)
      · cases hlive
      · cases hfact
  · rw [heq]
    exact h.move rfl rfl rfl rfl (fun _ hserving => ⟨hserving, rfl⟩) fun _ hended => hended

theorem read (hhandoff : Handoff e) (hpolling : e.owner = .polling) (event : SourceEvent) :
    Flow (e.read event) := by
  have hchunk : e.slot.chunk = none := hhandoff.chunk_eq_none (by rw [hpolling]; rfl)
  have hagrees := hhandoff.agrees
  rw [hpolling] at hagrees
  have heven : e.slot.phase = .live → e.received = payloads e.events := by
    intro hlive
    have heven := h.even hlive (by rw [hpolling]; rfl)
    simpa [hchunk, hpolling, hand] using heven
  refine ⟨?_, fun hlive hserving => ?_, ?_⟩
  · show e.received ++ e.slot.chunk.toList <+: payloads (e.events ++ [event])
    rw [payloads_append]
    exact h.begun.trans (List.prefix_append _ _)
  · show e.received ++ e.slot.chunk.toList ++ (afterRead event).hand.toList =
      payloads (e.events ++ [event])
    rw [payloads_append, hchunk, heven hlive, Option.toList_none, List.append_nil]
    cases event with
    | ended | failed => cases hserving
    | frame sent =>
      rw [afterRead, SourceEvent.payload]
      cases payload sent with
      | none => rfl
      | some chunk => rfl
  · rintro (⟨hlive, howner⟩ | hfact)
    · have hended : event = .ended := by
        cases event with
        | ended => rfl
        | failed => cases howner
        | frame sent =>
          rw [Exchange.read, afterRead] at howner
          cases hpayload : payload sent with
          | none => simp [hpayload] at howner
          | some chunk => simp [hpayload] at howner
      subst hended
      refine ⟨List.getLast?_concat, ?_, hchunk⟩
      show e.received = payloads (e.events ++ [.ended])
      rw [payloads_append, heven hlive]
      exact (List.append_nil _).symm
    · exact absurd hfact (hhandoff.not_ended (by rw [hpolling]; rfl))

theorem deliver (hhandoff : Handoff e) {chunk : Bytes} (hdelivering : e.owner = .delivering chunk) :
    Flow e.deliver := by
  rcases deliver_cases hdelivering with ⟨hlive, heq⟩ | ⟨kept, hkept, heq⟩
  · have hchunk : e.slot.chunk = none := hhandoff.chunk_eq_none (by rw [hdelivering]; rfl)
    have heven : e.received ++ [chunk] = payloads e.events := by
      have heven := h.even hlive (by rw [hdelivering]; rfl)
      simpa [hchunk, hdelivering, hand] using heven
    rw [heq]
    refine ⟨heven ▸ List.prefix_refl _, fun _ _ => ?_, ?_⟩
    · show e.received ++ [chunk] ++ [] = payloads e.events
      rw [List.append_nil, heven]
    · rintro (⟨-, howner⟩ | hfact)
      · cases howner
      · exact absurd hfact (hhandoff.not_ended (by rw [hdelivering]; rfl))
  · rw [heq]
    exact h.move rfl rfl rfl rfl (fun hlive => absurd hkept (by simp [hlive, Phase.fact]))
      fun hlive => absurd hkept (by simp [hlive, Phase.fact])

theorem commit {terminal : BodyTerminal} (hended : e.owner = .ended terminal) : Flow e.commit := by
  rcases commit_cases hended with ⟨hlive, heq⟩ | ⟨kept, hkept, heq⟩
  · rw [heq]
    refine ⟨h.begun, nofun, ?_⟩
    rintro (⟨hlive, -⟩ | hfact)
    · cases hlive
    · obtain rfl : terminal = .ended := Option.some_inj.mp hfact
      exact h.clean (.inl ⟨hlive, hended⟩)
  · rw [heq]
    exact h.move rfl rfl rfl rfl (fun _ => nofun) fun _ => nofun

theorem conclude : Flow e.conclude := by
  rcases e.conclude_cases with ⟨hlive, heq⟩ | ⟨kept, hkept, heq⟩
  · rw [heq]
    refine ⟨h.begun, nofun, ?_⟩
    rintro (⟨hlive, -⟩ | hfact)
    · cases hlive
    · cases hfact
  · rw [heq]
    exact h.move rfl rfl rfl rfl (fun _ => nofun) fun _ => nofun

theorem settle (hhandoff : Handoff e) {terminal : BodyTerminal}
    (hpublished : e.owner = .published terminal) : Flow e.settle := by
  have hagrees := hhandoff.agrees
  rw [hpublished] at hagrees
  rw [settle_of_published hpublished]
  refine ⟨?_, nofun, ?_⟩
  · show e.received ++ [] <+: payloads e.events
    rw [List.append_nil]
    exact h.received
  · rintro (⟨hlive, -⟩ | hfact)
    · cases hlive
    · obtain rfl : terminal = .ended := Option.some_inj.mp hfact
      obtain ⟨hlast, hall, -⟩ := h.clean (.inr (by rw [hagrees]; rfl))
      exact ⟨hlast, hall, rfl⟩

theorem act (hhandoff : Handoff e) (hready : e.Ready a) : Flow (Exchange.act a e) := by
  cases a with
  | placeDemand =>
    rcases e.placeDemand_cases with ⟨-, heq⟩ | ⟨kept, -, heq⟩
    all_goals
      rw [Exchange.act, heq]
      exact h.move rfl rfl rfl rfl (fun _ hserving => ⟨hserving, rfl⟩) fun _ hended => hended
  | pollAnswer => exact h.pollAnswer
  | dropDemand | close | dropHandle => exact h.abandon
  | pollSettled =>
    rcases e.pollSettled_cases with ⟨terminal, -, heq⟩ | heq
    all_goals
      rw [Exchange.act, heq]
      exact h.move rfl rfl rfl rfl (fun _ hserving => ⟨hserving, rfl⟩) fun _ hended => hended
  | pollDemand =>
    have hwaiting : e.owner = .waiting := hready
    rw [Exchange.act]
    rcases e.pollDemand_cases with ⟨hlive, -, heq⟩ | heq | ⟨kept, hkept, heq⟩
    · rw [heq]
      exact h.move rfl rfl rfl rfl (fun _ _ => by rw [hwaiting]; exact ⟨rfl, rfl⟩)
        fun _ hended => by cases hended
    · rwa [heq]
    · rw [heq]
      exact h.move rfl rfl rfl rfl (fun _ hserving => by cases hserving)
        fun hlive => absurd hkept (by simp [hlive, Phase.fact])
  | expire expiry =>
    refine h.move rfl rfl rfl rfl (fun _ hserving => by cases hserving) fun _ hended => ?_
    cases expiry with
    | operation | stopped | attempt => cases hended
  | pollWithdrawn =>
    have hselecting : e.owner = .selecting := hready
    rw [Exchange.act]
    rcases e.pollWithdrawn_cases with ⟨hlive, heq⟩ | ⟨kept, hkept, heq⟩
    · rw [heq]
      exact h.move rfl rfl rfl rfl (fun _ _ => by rw [hselecting]; exact ⟨rfl, rfl⟩)
        fun _ hended => by cases hended
    · rw [heq]
      exact h.move rfl rfl rfl rfl (fun _ hserving => by cases hserving)
        fun hlive => absurd hkept (by simp [hlive, Phase.fact])
  | read event => exact h.read hhandoff hready event
  | readPending =>
    have hpolling : e.owner = .polling := hready
    exact h.move rfl rfl rfl rfl (fun _ _ => by rw [hpolling]; exact ⟨rfl, rfl⟩)
      fun _ hended => by cases hended
  | readIdle | abort | dropSource =>
    exact h.move rfl rfl rfl rfl (fun _ hserving => by cases hserving)
      fun _ hended => by cases hended
  | count =>
    obtain ⟨chunk, hadmitting⟩ := hready
    rw [Exchange.act]
    rcases count_cases hadmitting with ⟨-, heq⟩ | heq
    · rw [heq]
      exact h.move rfl rfl rfl rfl (fun _ _ => by rw [hadmitting]; exact ⟨rfl, rfl⟩)
        fun _ hended => by cases hended
    · rw [heq]
      exact h.move rfl rfl rfl rfl (fun _ hserving => by cases hserving)
        fun _ hended => by cases hended
  | deliver =>
    obtain ⟨chunk, hdelivering⟩ := hready
    exact h.deliver hhandoff hdelivering
  | commit =>
    obtain ⟨terminal, hended⟩ := hready
    exact h.commit hended
  | conclude => exact h.conclude
  | publish =>
    obtain ⟨terminal, hconcluded⟩ := hready
    rw [Exchange.act, publish_of_concluded hconcluded]
    exact h.move rfl rfl rfl rfl (fun _ hserving => by cases hserving)
      fun _ hended => by cases hended
  | settle =>
    obtain ⟨terminal, hpublished⟩ := hready
    exact h.settle hhandoff hpublished

end Flow

def bytes (chunks : List Bytes) : ℕ := (chunks.map List.length).sum

@[simp] theorem bytes_append (chunks more : List Bytes) :
    bytes (chunks ++ more) = bytes chunks + bytes more := by
  rw [bytes, List.map_append, List.sum_append, bytes, bytes]

/-- The chunks the budget has counted and that are not lost. -/
def Exchange.held (e : Exchange) : List Bytes :=
  e.received ++ e.slot.chunk.toList ++ e.owner.charged.toList

/-- The count covers what is held, and passes the limit only by what it began with. -/
structure Budgeted (limit counted : ℕ) (e : Exchange) : Prop where
  fixed : e.limit = limit
  covers : counted + bytes e.held ≤ e.counted
  bounded : e.counted = counted ∨ e.counted ≤ limit

namespace Budgeted

variable {limit counted : ℕ}

theorem start (carries : Bool) : Budgeted limit counted (.start limit counted carries) :=
  ⟨rfl, le_refl counted, .inl rfl⟩

variable (h : Budgeted limit counted e)

include h

theorem move {e' : Exchange} (hlimit : e'.limit = e.limit) (hcounted : e'.counted = e.counted)
    (hheld : bytes e'.held ≤ bytes e.held) : Budgeted limit counted e' := by
  refine ⟨hlimit.trans h.fixed, ?_, ?_⟩
  · rw [hcounted]
    exact (Nat.add_le_add_left hheld _).trans h.covers
  · rw [hcounted]
    exact h.bounded

theorem moveOwner {e' : Exchange} (hlimit : e'.limit = e.limit) (hcounted : e'.counted = e.counted)
    (hanswers : e'.answers = e.answers) (hchunk : e'.slot.chunk = e.slot.chunk)
    (hcharged : e'.owner.charged = none ∨ e'.owner.charged = e.owner.charged) :
    Budgeted limit counted e' := by
  refine h.move hlimit hcounted ?_
  simp only [held, Exchange.received, hanswers, hchunk, bytes_append]
  rcases hcharged with hnone | hsame
  · rw [hnone]
    exact Nat.le_add_right _ _
  · rw [hsame]

theorem act (hready : e.Ready a) : Budgeted limit counted (Exchange.act a e) := by
  cases a with
  | placeDemand =>
    rw [Exchange.act]
    rcases e.placeDemand_cases with ⟨-, heq⟩ | ⟨kept, -, heq⟩
    all_goals
      rw [heq]
      exact h.moveOwner rfl rfl rfl rfl (.inr rfl)
  | pollAnswer =>
    rw [Exchange.act]
    rcases e.pollAnswer_cases with ⟨chunk, hchunk, heq⟩ | ⟨terminal, -, -, heq⟩ | heq
    · rw [heq]
      refine h.move rfl rfl (le_of_eq (congrArg bytes ?_))
      simp only [held, Exchange.received, received_append, hchunk]
      simp [Answer.taken]
    · rw [heq]
      refine h.move rfl rfl (le_of_eq (congrArg bytes ?_))
      simp only [held, Exchange.received, received_append]
      simp [Answer.taken]
    · rwa [heq]
  | dropDemand | close | dropHandle =>
    refine h.move rfl rfl ?_
    show bytes (e.received ++ e.slot.abandon.chunk.toList ++ e.owner.charged.toList) ≤ _
    rcases e.abandon_cases with ⟨-, heq⟩ | ⟨kept, -, heq⟩
    · rw [heq]
      simp only [held, bytes_append]
      exact Nat.add_le_add_right (Nat.le_add_right _ _) _
    · rw [heq]
      exact le_rfl
  | pollSettled =>
    rw [Exchange.act]
    rcases e.pollSettled_cases with ⟨terminal, -, heq⟩ | heq
    all_goals
      rw [heq]
      exact h.moveOwner rfl rfl rfl rfl (.inr rfl)
  | pollDemand =>
    rw [Exchange.act]
    rcases e.pollDemand_cases with ⟨-, -, heq⟩ | heq | ⟨kept, -, heq⟩
    · rw [heq]
      exact h.moveOwner rfl rfl rfl rfl (.inl rfl)
    · rwa [heq]
    · rw [heq]
      exact h.moveOwner rfl rfl rfl rfl (.inl rfl)
  | pollWithdrawn =>
    rw [Exchange.act]
    rcases e.pollWithdrawn_cases with ⟨-, heq⟩ | ⟨kept, -, heq⟩
    all_goals
      rw [heq]
      exact h.moveOwner rfl rfl rfl rfl (.inl rfl)
  | expire _ | readPending | readIdle | abort | dropSource =>
    exact h.moveOwner rfl rfl rfl rfl (.inl rfl)
  | read event =>
    refine h.moveOwner rfl rfl rfl rfl (.inl ?_)
    show (afterRead event).charged = none
    cases event with
    | ended | failed => rfl
    | frame sent =>
      rw [afterRead]
      cases payload sent with
      | none => rfl
      | some chunk => rfl
  | count =>
    obtain ⟨chunk, hadmitting⟩ := hready
    rw [Exchange.act]
    rcases count_cases hadmitting with ⟨hlimit, heq⟩ | heq
    · have hcovers := h.covers
      simp only [held, hadmitting, bytes_append] at hcovers
      rw [heq]
      refine ⟨h.fixed, ?_, .inr (h.fixed ▸ hlimit)⟩
      simp only [held, Exchange.received, charged, bytes_append]
      simp only [Exchange.received, charged] at hcovers
      have hone : bytes (some chunk).toList = chunk.length := by simp [bytes]
      omega
    · rw [heq]
      exact h.moveOwner rfl rfl rfl rfl (.inl rfl)
  | deliver =>
    obtain ⟨chunk, hdelivering⟩ := hready
    rw [Exchange.act]
    rcases deliver_cases hdelivering with ⟨hlive, heq⟩ | ⟨kept, -, heq⟩
    · rw [heq]
      refine h.move rfl rfl ?_
      simp only [held, Exchange.received, hdelivering, charged, bytes_append]
      simp [bytes]
    · rw [heq]
      exact h.moveOwner rfl rfl rfl rfl (.inl rfl)
  | commit =>
    obtain ⟨terminal, hended⟩ := hready
    rw [Exchange.act]
    rcases commit_cases hended with ⟨-, heq⟩ | ⟨kept, -, heq⟩
    all_goals
      rw [heq]
      exact h.moveOwner rfl rfl rfl rfl (.inl rfl)
  | conclude =>
    rw [Exchange.act]
    rcases e.conclude_cases with ⟨-, heq⟩ | ⟨kept, -, heq⟩
    all_goals
      rw [heq]
      exact h.moveOwner rfl rfl rfl rfl (.inl rfl)
  | publish =>
    obtain ⟨terminal, hconcluded⟩ := hready
    rw [Exchange.act, publish_of_concluded hconcluded]
    exact h.moveOwner rfl rfl rfl rfl (.inl rfl)
  | settle =>
    obtain ⟨terminal, hpublished⟩ := hready
    rw [Exchange.act, settle_of_published hpublished]
    refine h.move rfl rfl ?_
    simp only [held, Exchange.received, bytes_append]
    simp [Slot.settle, charged, bytes]
    omega

theorem received_le : bytes e.received ≤ limit - counted := by
  have hcovers := h.covers
  simp only [held, bytes_append] at hcovers
  rcases h.bounded with hsame | hbounded
  · omega
  · omega

end Budgeted

end Camber.Client.Body
