import Camber.Integration.EntryRuns

/-! The first failure charged to a close account waits in the phase until the entry drains. -/

namespace Camber.Integration.Entry

open Transition Relation

variable {outside : Prop} {e : Entry} {first : IntegrationError}

inductive Bound (first : IntegrationError) (e : Entry) : Prop
  | waiting {account : ℕ} {disposition : ParticipantDisposition}
      (haccount : e.phase.account = some account)
      (hfailure : e.phase.closeFailure = some (first, disposition)) : Bound first e
  | settling {settler : Settler} {disposition : ParticipantDisposition}
      (hsettlers : e.settlers = [settler])
      (hsettlement : settler.settlement = .failed first disposition) : Bound first e

namespace Bound

theorem frame {e' : Entry} (h : Bound first e) (haccount : e'.phase.account = e.phase.account)
    (hfailure : e'.phase.closeFailure = e.phase.closeFailure)
    (hsettlers : e'.settlers = e.settlers) : Bound first e' := by
  cases h with
  | waiting hsome hfirst => exact .waiting (haccount.trans hsome) (hfailure.trans hfirst)
  | settling hone hsettlement => exact .settling (hsettlers.trans hone) hsettlement

theorem settlement_of_failure {disposition : ParticipantDisposition}
    (h : e.phase.closeFailure = some (first, disposition)) :
    e.phase.settlement = .failed first disposition := by
  unfold Phase.settlement
  rw [h]

theorem move {e' : Entry} (h : Bound first e) (hprogress : Progress e)
    (move : Moves False outside e e') : Bound first e' := by
  cases move with
  | charged error disposition hnone =>
    cases h with
    | waiting _ hfirst =>
      rw [hnone] at hfirst
      cases hfirst
    | settling hone hsettlement => exact .settling hone hsettlement
  | cleared htaken =>
    cases h with
    | waiting hsome _ =>
      rw [htaken] at hsome
      cases hsome
    | settling hone hsettlement => exact .settling hone hsettlement
  | @taken account _ _ _ haccount =>
    have hnone := (hprogress.unsettled haccount).settlers
    cases h with
    | waiting _ hfirst =>
      have hone : e.settlers ++ [⟨account, e.phase.settlement, false, .taken⟩] =
          [⟨account, e.phase.settlement, false, .taken⟩] := by
        rw [hnone]
        rfl
      exact .settling hone (settlement_of_failure hfirst)
    | settling hone _ =>
      rw [hnone] at hone
      cases hone
  | named _ haccount hearly =>
    cases h with
    | waiting _ hfirst =>
      rw [hearly.resolve_right not_false] at hfirst
      cases hfirst
    | settling hone _ =>
      rw [(hprogress.unsettled haccount).settlers] at hone
      cases hone
  | @proceeded i settler hsettler =>
    cases h with
    | waiting hsome _ =>
      rw [(hprogress.unsettled hsome).settlers] at hsettler
      cases hsettler
    | @settling one disposition hone hsettlement =>
      rw [hone] at hsettler
      cases i with
      | succ i => simp at hsettler
      | zero =>
        have hnext : e.settlers.modify 0 ({ · with stage := settler.stage.next }) =
            [{ one with stage := settler.stage.next }] := by
          rw [hone]
          rfl
        exact .settling hnext hsettlement
  | commit | flags | begun | released | ended | attached | woken | detached | runtimeEnds =>
    exact h.frame rfl rfl rfl

end Bound

def Kept (e : Entry) : Prop :=
  e.phase.state ≠ .settled → ∀ first ∈ e.charges.head?, Bound first e

theorem Kept.move {e' : Entry} (h : Kept e) (hprogress : Progress e) (move : Moves False outside e e') :
    Kept e' := by
  intro hopen first hfirst
  have hbefore : e.phase.state ≠ .settled := by
    intro hsettled
    have hrank := (Forward.of_move move).rank
    rw [hsettled] at hrank
    cases hstate : e'.phase.state <;> simp_all [EntryState.rank]
  -- the charge itself is the one move that can make a failure the first
  have hframe : e'.charges = e.charges → Bound first e' := by
    intro hcharges
    rw [hcharges] at hfirst
    exact (h hbefore first hfirst).move hprogress move
  cases move with
  | charged error disposition hnone hearly =>
    obtain ⟨account, haccount⟩ : ∃ account, e.phase.account = some account := by
      rcases hearly with hsome | hsettled | hfalse
      · exact Option.isSome_iff_exists.mp hsome
      · exact absurd hsettled hbefore
      · exact hfalse.elim
    cases hcharges : e.charges with
    | nil =>
      have herror : first = error := by
        have hsingle : (e.charges ++ [error]).head? = some first := hfirst
        rw [hcharges] at hsingle
        exact (Option.some.inj hsingle).symm
      rw [herror]
      exact .waiting haccount rfl
    | cons earlier rest =>
      have hbound := h hbefore earlier (by rw [hcharges]; rfl)
      cases hbound with
      | waiting _ hfailure =>
        rw [hnone] at hfailure
        cases hfailure
      | settling hone _ =>
        rw [(hprogress.unsettled haccount).settlers] at hone
        cases hone
  | @proceeded i settler => exact hframe (e.settleStep_charges settler)
  | commit | flags | begun | released | ended | attached | woken | detached | cleared | taken
  | named | runtimeEnds => exact hframe rfl

section Runs

variable {id account : ℕ} {kind : IntegrationKind} {operationLimit : ℕ} {trace : List Action}

theorem kept_of_runs
    (run : Runs (Guarded Steps InTime) (.new id account kind operationLimit) trace e) :
    Kept e := by
  induction run with
  | nil =>
    intro _ first hfirst
    cases hfirst
  | snoc run step ih =>
    obtain ⟨⟨hready, rfl⟩, hearly⟩ := step
    have hboth := (act_changes False True hready (.inl hearly) fun _ => trivial).keeps
      (fun e => Progress e ∧ Kept e)
      (fun move h => ⟨h.1.move move, h.2.move h.1 move⟩)
    exact (hboth ⟨progress_of_runs run.unguard, ih⟩).2

theorem bound_of_runs {later : List Action} {e' : Entry}
    (run : Runs (Guarded Steps InTime) e later e') (hprogress : Progress e)
    (hbound : Bound first e) : Progress e' ∧ Bound first e' := by
  induction run with
  | nil => exact ⟨hprogress, hbound⟩
  | snoc _ step ih =>
    obtain ⟨⟨hready, rfl⟩, hearly⟩ := step
    exact (act_changes False True hready (.inl hearly) fun _ => trivial).keeps
      (fun e => Progress e ∧ Bound first e)
      (fun move h => ⟨h.1.move move, h.2.move h.1 move⟩) ih

/-- In every run whose steps charge in time, the first failure charged before the entry settled is
the result every closer reads and the one failure the close account is settled with. -/
theorem first_charge_kept {later : List Action} {before after : Entry} {first : IntegrationError}
    (run : Runs (Guarded Steps InTime) (.new id account kind operationLimit) trace before)
    (rest : Runs (Guarded Steps InTime) before later after)
    (hopen : before.published ≠ .settled) (hcharged : before.charges.head? = some first) :
    (∀ result, after.closed = some result → result = .error (first.withInstance id)) ∧
    (∀ answer ∈ after.answers, answer = some (first.withInstance id)) ∧
    (after.published = .settled → after.closed = some (.error (first.withInstance id)) ∧
      after.answers = [some (first.withInstance id)]) := by
  rw [(counted_of_runs run.unguard).published] at hopen
  have hbound := kept_of_runs run hopen first hcharged
  obtain ⟨hprogress, hbound⟩ := bound_of_runs rest (progress_of_runs run.unguard) hbound
  have hwhole := run.unguard.append rest.unguard
  have hid : after.id = id := (Forward.of_runs hwhole).id
  rw [(counted_of_runs hwhole).published]
  cases hbound with
  | waiting haccount _ =>
    obtain ⟨hunsettled, -, hclosed, hanswers, -⟩ := hprogress.unsettled haccount
    rw [hclosed, hanswers]
    refine ⟨fun result h => ?_, fun answer h => ?_, fun hsettled => absurd hsettled hunsettled⟩
    · cases h
    · cases h
  | @settling settler disposition hone hsettlement =>
    have htaken : after.phase.account = none := by
      by_contra hsome
      obtain ⟨account, haccount⟩ := Option.ne_none_iff_exists'.mp hsome
      rw [(hprogress.unsettled haccount).settlers] at hone
      cases hone
    obtain ⟨one, hsettling⟩ := hprogress.settling htaken
    obtain rfl : one = settler := by
      have hsame := hsettling.settlers.symm.trans hone
      exact List.singleton_inj.mp hsame
    have hresult : one.settlement.closed after.id = .error (first.withInstance id) := by
      rw [hsettlement, hid]
      rfl
    have hfailure : one.settlement.failure after.id = some (first.withInstance id) := by
      rw [hsettlement, hid]
      rfl
    obtain ⟨-, hstate, -, hanswers, hclosed, -⟩ := hsettling
    rw [hresult] at hclosed
    rw [hfailure] at hanswers
    refine ⟨fun result h => ?_, fun answer h => ?_, fun hsettled => ?_⟩
    · rw [hclosed] at h
      split at h
      · exact (Option.some.inj h).symm
      · cases h
    · rw [hanswers] at h
      split at h
      · cases h
      · exact List.mem_singleton.mp h
    · have hdone : one.stage = .done := by
        by_contra hnot
        rw [hstate, if_neg hnot] at hsettled
        cases hsettled
      rw [hclosed, hanswers, hdone]
      exact ⟨rfl, rfl⟩

end Runs

def sampleCharge : List Action :=
  [.ready, .beginOperation .publish true, .charge slowConsumer, .requestClose (some true)]

def sampleDrain : List Action :=
  [.endOperation 0 .finished false, .proceed 0, .proceed 0, .proceed 0, .proceed 0, .proceed 0]

theorem first_charge_kept_sampleCharge :
    ∃ before after,
      Runs (Guarded Steps InTime) (.new 7 0 .nats 2) sampleCharge before ∧
      Runs (Guarded Steps InTime) before sampleDrain after ∧ after.published = .settled ∧
      after.closed = some (.error (slowConsumer.withInstance 7)) ∧
      after.answers = [some (slowConsumer.withInstance 7)] := by
  have hcharge : ReadyAll (fun e a => Ready e a ∧ InTime e a) act (.new 7 0 .nats 2)
      sampleCharge := by decide
  have hdrain : ReadyAll (fun e a => Ready e a ∧ InTime e a) act
      (replay act (.new 7 0 .nats 2) sampleCharge) sampleDrain := by
    decide
  have run := (runs_replay hcharge).mono fun _ _ _ => guarded_acts.mpr
  have rest := (runs_replay hdrain).mono fun _ _ _ => guarded_acts.mpr
  have hsettled : (replay act (replay act (.new 7 0 .nats 2) sampleCharge) sampleDrain).published =
      .settled := by decide
  have hcharged : (replay act (.new 7 0 .nats 2) sampleCharge).charges.head? =
      some slowConsumer := by decide
  have hkept := first_charge_kept run rest (by decide) hcharged
  exact ⟨_, _, run, rest, hsettled, hkept.2.2 hsettled⟩

/-- Teardown names the entry while the operation is still in flight: the charged failure is neither
the result nor retained. -/
theorem charged_failure_lost :
    ∃ before after,
      Runs Steps (.new 7 0 .nats 2) sampleCharge before ∧
      Runs Steps before
        [.nameOutstanding, .proceed 0, .proceed 0, .proceed 0, .proceed 0, .proceed 0] after ∧
      before.published = .closing ∧ before.charges = [slowConsumer] ∧
      after.published = .settled ∧
      after.closed = some (.error ((IntegrationError.incompleteClose .nats).withInstance 7)) ∧
      after.answers = [some ((IntegrationError.incompleteClose .nats).withInstance 7)] ∧
      (IntegrationError.incompleteClose .nats).withInstance 7 ≠ slowConsumer.withInstance 7 := by
  have hcharge : ReadyAll Ready act (.new 7 0 .nats 2) sampleCharge := by decide
  have hname : ReadyAll Ready act (replay act (.new 7 0 .nats 2) sampleCharge)
      [.nameOutstanding, .proceed 0, .proceed 0, .proceed 0, .proceed 0, .proceed 0] := by
    decide
  refine ⟨_, _, runs_replay hcharge, runs_replay hname, ?_⟩
  decide

end Camber.Integration.Entry
