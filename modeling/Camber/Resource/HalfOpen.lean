import Camber.Resource.CircuitBreaker

/-! Whoever loads `HALF_OPEN` probes. With no other call, one probe decides the circuit. -/

namespace Camber.CircuitBreaker

open Transition Breaker

def Action.isProbe : Action → Bool
  | .start _ | .answer _ _ => true
  | _ => false

def starts (trace : List Action) : List ℕ :=
  trace.filterMap fun
    | .start caller => some caller
    | _ => none

def answers (trace : List Action) : List (ℕ × Except String Unit) :=
  trace.filterMap fun
    | .answer caller result => some (caller, result)
    | _ => none

theorem starts_filter (trace : List Action) :
    starts (trace.filter Action.isProbe) = starts trace := by
  rw [starts, List.filterMap_filter]
  refine List.filterMap_congr fun action _ => ?_
  cases action <;> rfl

theorem answers_filter (trace : List Action) :
    answers (trace.filter Action.isProbe) = answers trace := by
  rw [answers, List.filterMap_filter]
  refine List.filterMap_congr fun action _ => ?_
  cases action <;> rfl

/-- No call loads the state while it is `HALF_OPEN`, and the circuit moves to `HALF_OPEN` only when
every other call has not loaded the state yet, loaded it as `OPEN`, or is over. -/
def Alone (breaker : Breaker) : Action → Prop
  | .step caller =>
    (breaker.calls[caller]? = some .entering → breaker.shared.state ≠ .halfOpen) ∧
      (breaker.calls[caller]? = some .cooled → breaker.shared.state = .open →
        ∀ other < breaker.calls.length, other ≠ caller →
          breaker.calls[other]?.all Call.standsBy = true)
  | _ => True

instance (breaker : Breaker) : DecidablePred (Alone breaker) := fun action => by
  cases action <;> unfold Alone <;> infer_instance

def decided : Except String Unit → Circuit
  | .ok () => .closed
  | .error _ => .open

def Stage (prober : ℕ) (probes : List Action) : Call → Prop
  | .starting .halfOpen => probes = []
  | .inner .halfOpen => probes = [.start prober]
  | .resetting .halfOpen | .closing => probes = [.start prober, .answer prober (.ok ())]
  | .stamping error | .storing error _ | .opening error =>
    probes = [.start prober, .answer prober (.error error)]
  | _ => False

structure Probing (prober : ℕ) (probes : List Action) (breaker : Breaker) : Prop where
  halfOpen : breaker.shared.state = .halfOpen
  stage : ∃ call, breaker.calls[prober]? = some call ∧ Stage prober probes call
  others : ∀ other call, other ≠ prober → breaker.calls[other]? = some call →
    call.standsBy = true

namespace Probing

variable {config : Config} {prober : ℕ} {probes : List Action} {breaker : Breaker}

variable {call : Call} {shared : Shared}

section

variable (h : Probing prober probes breaker)

include h

theorem put_other {caller : ℕ} (hne : caller ≠ prober) (hcall : call.standsBy = true) :
    Probing prober probes (breaker.put caller call) := by
  refine ⟨h.halfOpen, ?_, fun other found hother hfound => ?_⟩
  · obtain ⟨now, hnow, hstage⟩ := h.stage
    exact ⟨now, by rwa [put, Roster.getElem?_modify_ne hne], hstage⟩
  · obtain ⟨before, hbefore, rfl⟩ := Roster.of_getElem?_modify hfound
    by_cases hsame : caller = other
    · rw [if_pos hsame]
      exact hcall
    · rw [if_neg hsame]
      exact h.others other before hother hbefore

theorem put_prober (call : Call) {probes' : List Action} (hstage : Stage prober probes' call) :
    Probing prober probes' (breaker.put prober call) := by
  refine ⟨h.halfOpen, ?_, fun other found hother hfound => ?_⟩
  · obtain ⟨now, hnow, _⟩ := h.stage
    exact ⟨call, Roster.getElem?_modify_self hnow, hstage⟩
  · rw [put, Roster.getElem?_modify_ne hother.symm] at hfound
    exact h.others other found hother hfound

theorem frame (hstate : shared.state = breaker.shared.state) :
    Probing prober probes { breaker with shared := shared } :=
  ⟨hstate.trans h.halfOpen, h.stage, h.others⟩

theorem step_other {caller : ℕ} {after : Call} (hne : caller ≠ prober)
    (hcall : breaker.calls[caller]? = some call)
    (hstep : call.step config breaker.shared = some (shared, after))
    (halone : Alone breaker (.step caller)) :
    Probing prober probes { breaker.put caller after with shared := shared } := by
  have hstands := h.others caller call hne hcall
  cases call with
  | entering => exact absurd h.halfOpen (halone.1 hcall)
  | readingStamp =>
    cases hstep
    exact h.put_other hne rfl
  | cooling openedAt =>
    simp only [Call.step] at hstep
    split at hstep <;> cases hstep <;> exact h.put_other hne rfl
  | cooled =>
    -- the compare-exchange finds the circuit half-open
    simp only [Call.step, h.halfOpen, reduceCtorEq, if_false] at hstep
    cases hstep
    exact h.put_other hne rfl
  | returned result => cases hstep
  | starting mode | inner mode | resetting mode | closing | recording error | counting error prev
  | stamping error | storing error nanos | opening error => cases hstands

theorem step_prober {after : Call} (hcall : breaker.calls[prober]? = some call)
    (hstep : call.step config breaker.shared = some (shared, after)) :
    Probing prober probes { breaker.put prober after with shared := shared } ∨
      ∃ result, probes = [.start prober, .answer prober result] ∧
        shared.state = decided result := by
  obtain ⟨found, hfound, hstage⟩ := h.stage
  obtain rfl : call = found := Option.some.inj (hcall.symm.trans hfound)
  cases call with
  | resetting mode =>
    cases mode with
    | closed => exact hstage.elim
    | halfOpen =>
      cases hstep
      exact .inl ((h.put_prober .closing hstage).frame rfl)
  | closing =>
    cases hstep
    exact .inr ⟨.ok (), hstage, rfl⟩
  | stamping error =>
    cases hstep
    exact .inl (h.put_prober (.storing error _) hstage)
  | storing error nanos =>
    cases hstep
    exact .inl ((h.put_prober (.opening error) hstage).frame rfl)
  | opening error =>
    cases hstep
    exact .inr ⟨.error error, hstage, rfl⟩
  | starting mode | inner mode => cases hstep
  | entering | readingStamp | cooling openedAt | cooled | recording error | counting error prev
  | returned result => exact hstage.elim

theorem step {action : Action} {after : Breaker} (hdoes : Does config breaker action after)
    (halone : Alone breaker action) :
    Probing prober (probes ++ [action].filter Action.isProbe) after ∨
      action = .step prober ∧ ∃ result, probes = [.start prober, .answer prober result] ∧
        after.shared.state = decided result := by
  cases hdoes with
  | tick nanos =>
    rw [show [Action.tick nanos].filter Action.isProbe = [] from rfl, List.append_nil]
    exact .inl (h.frame rfl)
  | call =>
    rw [show [Action.call].filter Action.isProbe = [] from rfl, List.append_nil]
    refine .inl ⟨h.halfOpen, ?_, fun other found hother hfound => ?_⟩
    · obtain ⟨now, hnow, hstage⟩ := h.stage
      exact ⟨now, Roster.getElem?_join_of_some hnow, hstage⟩
    · rcases Roster.of_getElem?_join hfound with hfound | ⟨_, rfl⟩
      · exact h.others other found hother hfound
      · rfl
  | @step caller call _ _ hcall hstep =>
    rw [show [Action.step caller].filter Action.isProbe = [] from rfl, List.append_nil]
    by_cases hcaller : caller = prober
    · subst hcaller
      rcases h.step_prober hcall hstep with hprobing | hdecided
      · exact .inl hprobing
      · exact .inr ⟨rfl, hdecided⟩
    · exact .inl (h.step_other hcaller hcall hstep halone)
  | @start caller mode hcall =>
    left
    -- a call that stands by starts nothing
    obtain rfl : caller = prober := by
      by_contra hne
      cases h.others caller _ hne hcall
    obtain ⟨found, hfound, hstage⟩ := h.stage
    obtain rfl : Call.starting mode = found := Option.some.inj (hcall.symm.trans hfound)
    cases mode with
    | closed => exact hstage.elim
    | halfOpen =>
      obtain rfl : probes = [] := hstage
      exact h.put_prober (.inner .halfOpen) rfl
  | @answer caller mode result hcall =>
    left
    obtain rfl : caller = prober := by
      by_contra hne
      cases h.others caller _ hne hcall
    obtain ⟨found, hfound, hstage⟩ := h.stage
    obtain rfl : Call.inner mode = found := Option.some.inj (hcall.symm.trans hfound)
    cases mode with
    | closed => exact hstage.elim
    | halfOpen =>
      obtain rfl : probes = [.start caller] := hstage
      cases result with
      | ok _ => exact h.put_prober (.resetting .halfOpen) rfl
      | error error => exact h.put_prober (.stamping error) rfl

end

theorem of_enter {action : Action} {after : Breaker} (hdoes : Does config breaker action after)
    (halone : Alone breaker action) (hopen : breaker.shared.state = .open)
    (hhalf : after.shared.state = .halfOpen) :
    ∃ caller, action = .step caller ∧ Probing caller [] after := by
  have hkept : ∀ {shared : Shared}, shared.state = .halfOpen → shared.state = breaker.shared.state →
      False := by
    intro shared hhalf hsame
    rw [hsame, hopen] at hhalf
    cases hhalf
  cases hdoes with
  | tick nanos => exact (hkept hhalf rfl).elim
  | call => exact (hkept hhalf rfl).elim
  | start hcall => exact (hkept hhalf rfl).elim
  | answer result hcall => exact (hkept hhalf rfl).elim
  | @step caller call left shared hcall hstep =>
    refine ⟨caller, rfl, ?_⟩
    cases call with
    | cooled =>
      simp only [Call.step, hopen, if_true] at hstep
      cases hstep
      refine ⟨rfl, ⟨_, Roster.getElem?_modify_self hcall, rfl⟩, ?_⟩
      intro other found hother hfound
      have hbefore : breaker.calls[other]? = some found := by
        rwa [put, Roster.getElem?_modify_ne hother.symm] at hfound
      have hstands := halone.2 hcall hopen other (List.getElem?_eq_some_iff.mp hbefore).1 hother
      rw [hbefore] at hstands
      exact hstands
    | entering | readingStamp | stamping error | storing error nanos =>
      cases hstep
      exact (hkept hhalf rfl).elim
    | closing | opening error => cases hstep; cases hhalf
    | resetting mode => cases mode <;> cases hstep <;> exact (hkept hhalf rfl).elim
    | cooling openedAt | recording error | counting error prev =>
      simp only [Call.step] at hstep
      split at hstep <;> cases hstep <;> exact (hkept hhalf rfl).elim
    | starting mode | inner mode | returned result => cases hstep

end Probing

section

variable (config : Config)

def WhileHalfOpen : Breaker → Action → Breaker → Prop :=
  Guarded (Guarded (Steps config) Alone) fun breaker _ => breaker.shared.state = .halfOpen

variable {config}

theorem probing_of_runs {prober : ℕ} {entered breaker : Breaker} {trace : List Action}
    (hentered : Probing prober [] entered)
    (during : Runs (WhileHalfOpen config) entered trace breaker)
    (hstill : breaker.shared.state = .halfOpen) :
    Probing prober (trace.filter Action.isProbe) breaker := by
  induction during with
  | nil => exact hentered
  | snoc _ step ih =>
    obtain ⟨⟨hstep, halone⟩, hhalf⟩ := step
    rw [List.filter_append]
    rcases (ih hhalf).step (does_of_steps hstep) halone with hprobing | ⟨_, result, _, hdecided⟩
    · exact hprobing
    · -- the circuit would have left the half-open state
      rw [hstill] at hdecided
      cases result <;> cases hdecided

theorem Stage.starts_le {prober : ℕ} {probes : List Action} {call : Call}
    (h : Stage prober probes call) : starts probes <+: [prober] := by
  cases call with
  | starting mode | inner mode | resetting mode =>
    cases mode with
    | closed => exact h.elim
    | halfOpen =>
      obtain rfl := h
      simp [starts]
  | closing | stamping error | storing error nanos | opening error =>
    obtain rfl := h
    simp [starts]
  | entering | readingStamp | cooling openedAt | cooled | recording error | counting error prev
  | returned result => exact h.elim

/-- Where calls keep out of each other's way: once a call moved the circuit from `OPEN` to
`HALF_OPEN`, no inner check but one of that call is started before the next change of state; that
change is made by the same call after its one inner check was answered, and the answer, the only one
given meanwhile, decides the state. -/
theorem half_open_single_probe {before entered breaker : Breaker} {enter : Action}
    {trace : List Action} (hopen : before.shared.state = .open)
    (henter : Guarded (Steps config) Alone before enter entered)
    (hhalf : entered.shared.state = .halfOpen)
    (during : Runs (WhileHalfOpen config) entered trace breaker)
    (hstill : breaker.shared.state = .halfOpen) :
    ∃ prober, enter = .step prober ∧ starts trace <+: [prober] ∧
      ∀ last after, Guarded (Steps config) Alone breaker last after →
        after.shared.state ≠ .halfOpen →
        last = .step prober ∧ starts trace = [prober] ∧
          ∃ result, answers trace = [(prober, result)] ∧
            after.shared.state = decided result := by
  obtain ⟨prober, rfl, hentered⟩ := Probing.of_enter (does_of_steps henter.1) henter.2 hopen hhalf
  have hprobing := probing_of_runs hentered during hstill
  refine ⟨prober, rfl, ?_, fun last after hlast hleft => ?_⟩
  · obtain ⟨call, _, hstage⟩ := hprobing.stage
    rw [← starts_filter]
    exact hstage.starts_le
  · rcases hprobing.step (does_of_steps hlast.1) hlast.2 with hkept | ⟨rfl, result, hprobes, hstate⟩
    · exact absurd hkept.halfOpen hleft
    · rw [← starts_filter, ← answers_filter, hprobes]
      exact ⟨rfl, rfl, result, rfl, hstate⟩

end

def sampleConfig : Config := (wrap "pool").setFailureThreshold 1

def sampleOpened : List Action :=
  [.call, .step 0, .start 0, .answer 0 (.error "down"), .step 0, .step 0, .step 0, .step 0, .step 0,
    .tick (30 * 10 ^ 9), .call, .step 1, .step 1, .step 1]

def sampleBefore : Breaker := replay (act sampleConfig) new sampleOpened

def sampleEntered : Breaker := act sampleConfig (.step 1) sampleBefore

/-- The second call probes alone, and its check succeeds. -/
theorem half_open_single_probe_sample :
    let trace := [Action.start 1, .answer 1 (.ok ()), .step 1]
    let breaker := replay (act sampleConfig) sampleEntered trace
    Runs (Guarded (Steps sampleConfig) Alone) new sampleOpened sampleBefore ∧
    (Guarded (Steps sampleConfig) Alone breaker (.step 1) (act sampleConfig (.step 1) breaker) ∧
      (act sampleConfig (.step 1) breaker).shared.state = .closed) ∧
    ∃ prober, Action.step 1 = .step prober ∧ starts trace <+: [prober] ∧
      ∀ last after, Guarded (Steps sampleConfig) Alone breaker last after →
        after.shared.state ≠ .halfOpen →
        last = .step prober ∧ starts trace = [prober] ∧
          ∃ result, answers trace = [(prober, result)] ∧
            after.shared.state = decided result := by
  intro trace breaker
  have hopened : ReadyAll (fun breaker action => Ready sampleConfig breaker action ∧
      Alone breaker action) (act sampleConfig) new sampleOpened := by decide
  have hduring : ReadyAll (fun breaker action => (Ready sampleConfig breaker action ∧
      Alone breaker action) ∧ breaker.shared.state = .halfOpen) (act sampleConfig) sampleEntered
      trace := by decide +kernel
  have during : Runs (WhileHalfOpen sampleConfig) sampleEntered trace breaker :=
    (runs_replay hduring).mono fun state label next step =>
      ⟨⟨⟨step.1.1.1, step.2⟩, step.1.1.2⟩, step.1.2⟩
  have henter : Guarded (Steps sampleConfig) Alone sampleBefore (.step 1) sampleEntered :=
    ⟨⟨by decide +kernel, rfl⟩, by decide +kernel⟩
  have hlast : Guarded (Steps sampleConfig) Alone breaker (.step 1)
      (act sampleConfig (.step 1) breaker) := ⟨⟨by decide, rfl⟩, by decide⟩
  refine ⟨(runs_replay hopened).mono fun _ _ _ => guarded_acts.mpr, ⟨hlast, by decide +kernel⟩, ?_⟩
  exact half_open_single_probe (by decide +kernel) henter (by decide +kernel) during
    (by decide)

/-- Two calls probe the half-open circuit: the one that made the transition and one that loaded
`HALF_OPEN`. -/
theorem second_probe_decides :
    let trace := [Action.call, .step 2, .start 1, .start 2, .answer 2 (.ok ()), .step 2]
    let breaker := replay (act sampleConfig) sampleEntered trace
    Runs (Steps sampleConfig) new (sampleOpened ++ .step 1 :: trace) breaker ∧
    sampleBefore.shared.state = .open ∧ sampleEntered.shared.state = .halfOpen ∧
    breaker.shared.state = .halfOpen ∧ starts trace = [1, 2] ∧ answers trace = [(2, .ok ())] ∧
    Steps sampleConfig breaker (.step 2) (act sampleConfig (.step 2) breaker) ∧
    (act sampleConfig (.step 2) breaker).shared.state = .closed := by
  intro trace breaker
  have hopened : ReadyAll (Ready sampleConfig) (act sampleConfig) new sampleOpened := by
    decide
  have hduring : ReadyAll (Ready sampleConfig) (act sampleConfig) sampleEntered trace := by
    decide
  have henter : Steps sampleConfig sampleBefore (.step 1) sampleEntered :=
    ⟨by decide, rfl⟩
  have run : Runs (Steps sampleConfig) new (sampleOpened ++ [.step 1] ++ trace) breaker :=
    ((runs_replay hopened).snoc henter).append (runs_replay hduring)
  rw [List.append_assoc] at run
  exact ⟨run, by decide, by decide, by decide, rfl, rfl,
    ⟨by decide, rfl⟩, by decide⟩

end Camber.CircuitBreaker
