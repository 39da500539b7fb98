import Camber.RateLimit.TokenBucket

/-! Every refill claims a window of whole intervals that begins where the previous one ended, so the
windows never overlap and never reach past the clock. -/

namespace Camber.RateLimit

open Transition Bucket

def Apart (limits : Limits) (a b : Window) : Prop :=
  a.stop limits ≤ b.start ∨ b.stop limits ≤ a.start

def totalIntervals (windows : List Window) : ℕ := (windows.map Window.intervals).sum

structure Claims (limits : Limits) (start last : ℕ) (windows : List Window) : Prop where
  total : start + totalIntervals windows * limits.intervalNs = last
  within : ∀ window ∈ windows, start ≤ window.start ∧ window.stop limits ≤ last
  apart : windows.Pairwise (Apart limits)

namespace Claims

variable {limits : Limits} {start last : ℕ} {windows : List Window}

theorem perm {others : List Window} (h : Claims limits start last windows)
    (hperm : others.Perm windows) : Claims limits start last others := by
  refine ⟨?_, fun window hmem => h.within window (hperm.mem_iff.mp hmem), ?_⟩
  · rw [totalIntervals, (hperm.map Window.intervals).sum_eq]
    exact h.total
  · refine (hperm.pairwise_iff ?_).mpr h.apart
    intro a b hab
    exact hab.symm

theorem extend (h : Claims limits start last windows) (intervals : ℕ) :
    Claims limits start (last + intervals * limits.intervalNs)
      (windows ++ [⟨last, intervals⟩]) := by
  have htotal := h.total
  refine ⟨?_, fun window hmem => ?_, ?_⟩
  · simp only [totalIntervals, List.map_append, List.map_singleton, List.sum_append,
      List.sum_singleton] at htotal ⊢
    rw [Nat.add_mul]
    omega
  · rcases List.mem_append.mp hmem with hmem | hmem
    · exact ⟨(h.within window hmem).1, le_add_right (h.within window hmem).2⟩
    · obtain rfl := List.mem_singleton.mp hmem
      exact ⟨by dsimp only; omega, le_refl _⟩
  · refine List.pairwise_append.mpr ⟨h.apart, List.pairwise_singleton _ _, ?_⟩
    intro window hmem new hnew
    obtain rfl := List.mem_singleton.mp hnew
    exact .inl (h.within window hmem).2

theorem left {more : List Window} (h : Claims limits start last (windows ++ more)) :
    windows.Pairwise (Apart limits) ∧
      totalIntervals windows * limits.intervalNs ≤ last - start := by
  refine ⟨(List.pairwise_append.mp h.apart).1, ?_⟩
  have htotal := h.total
  rw [totalIntervals, List.map_append, List.sum_append, Nat.add_mul] at htotal
  rw [totalIntervals]
  omega

end Claims

def Bucket.windows (bucket : Bucket) : List Window :=
  bucket.credited ++ bucket.calls.flatMap Call.window

structure Sound (limits : Limits) (start : ℕ) (bucket : Bucket) : Prop where
  tokens : bucket.tokens ≤ limits.burst
  clock : start ≤ bucket.clock
  last : bucket.lastRefillNs ≤ nowNs bucket.clock
  valid : ∀ (caller : ℕ) (call : Call), bucket.calls[caller]? = some call →
    call.Valid (nowNs bucket.clock)
  claims : Claims limits (nowNs start) bucket.lastRefillNs bucket.windows
  granted : bucket.tokens + bucket.grants ≤
    limits.burst + limits.rate * totalIntervals bucket.credited

theorem nowNs_mono {clock later : ℕ} (h : clock ≤ later) : nowNs clock ≤ nowNs later :=
  min_le_min_right _ h

namespace Sound

variable {limits : Limits} {start : ℕ} {bucket : Bucket}

theorem new (limits : Limits) (start : ℕ) : Sound limits start (Bucket.new limits start) where
  tokens := le_refl _
  clock := le_refl _
  last := le_refl _
  valid := fun caller call hcall => by simp [Bucket.new] at hcall
  claims := ⟨by simp [Bucket.new, windows, totalIntervals], fun window hmem => by
    simp [Bucket.new, windows] at hmem, .nil⟩
  granted := by simp [Bucket.new, totalIntervals]

theorem tick (h : Sound limits start bucket) (nanos : ℕ) :
    Sound limits start { bucket with clock := bucket.clock + nanos } :=
  have hmono : nowNs bucket.clock ≤ nowNs (bucket.clock + nanos) :=
    nowNs_mono (Nat.le_add_right _ _)
  { h with
    clock := le_add_right h.clock
    last := le_trans h.last hmono
    valid := fun caller call hcall => (h.valid caller call hcall).mono hmono }

theorem call (h : Sound limits start bucket) :
    Sound limits start { bucket with calls := bucket.calls ++ [.entering] } := by
  have hwindows : windows { bucket with calls := bucket.calls ++ [.entering] } =
      bucket.windows := by simp [windows, Call.window]
  refine { h with valid := fun caller call hcall => ?_, claims := hwindows ▸ h.claims }
  rcases Roster.of_getElem?_join hcall with hcall | ⟨_, rfl⟩
  · exact h.valid caller call hcall
  · exact trivial

variable {caller : ℕ} {call : Call}

theorem valid_put (h : Sound limits start bucket) (hvalid : call.Valid (nowNs bucket.clock)) :
    ∀ (other : ℕ) (found : Call), (bucket.put caller call).calls[other]? = some found →
      found.Valid (nowNs bucket.clock) := by
  intro other found hfound
  obtain ⟨before, hbefore, rfl⟩ := Roster.of_getElem?_modify hfound
  by_cases hsame : caller = other
  · rw [if_pos hsame]
    exact hvalid
  · rw [if_neg hsame]
    exact h.valid other before hbefore

theorem held_put (hcall : bucket.calls[caller]? = some call) (left : Call) :
    ((bucket.put caller left).calls.flatMap Call.window ++ call.window).Perm
      (bucket.calls.flatMap Call.window ++ left.window) :=
  Roster.flatMap_modify hcall

theorem windows_put {left : Call} (hcall : bucket.calls[caller]? = some call)
    (hwindow : left.window = call.window) :
    (bucket.put caller left).windows.Perm bucket.windows := by
  have hheld := held_put hcall left
  rw [hwindow, List.perm_append_right_iff] at hheld
  exact hheld.append_left bucket.credited

theorem move (h : Sound limits start bucket) {after : Bucket}
    (hcall : bucket.calls[caller]? = some call) (hmoves : Moves limits bucket caller call after) :
    Sound limits start after := by
  cases hmoves with
  | @stay _ left hwindow hvalid =>
    exact { h with
      valid := h.valid_put (hvalid (h.valid caller call hcall))
      claims := h.claims.perm (windows_put hcall hwindow) }
  | @claim now =>
    have hnow : now ≤ nowNs bucket.clock := h.valid caller _ hcall
    have hlast := h.last
    have hmax : nowNs bucket.clock ≤ u64Max := min_le_right _ _
    -- whole intervals that have passed: nothing saturates
    have hpassed : intervalsSince limits now bucket.lastRefillNs * limits.intervalNs ≤
        now - bucket.lastRefillNs := Nat.div_mul_le_self _ _
    have hadvance : saturatingAdd bucket.lastRefillNs
        (saturatingMul (intervalsSince limits now bucket.lastRefillNs) limits.intervalNs) =
        bucket.lastRefillNs +
          intervalsSince limits now bucket.lastRefillNs * limits.intervalNs := by
      rw [saturatingAdd, saturatingMul, min_eq_left (by omega), min_eq_left (by omega)]
    refine
      { tokens := h.tokens
        clock := h.clock
        last := ?_
        valid := h.valid_put trivial
        claims := ?_
        granted := h.granted }
    · dsimp only
      rw [hadvance]
      show _ ≤ nowNs bucket.clock
      omega
    · dsimp only
      rw [hadvance]
      refine (h.claims.extend _).perm ?_
      rw [windows, windows, List.append_assoc]
      refine List.Perm.append_left _ ?_
      have hheld := held_put hcall
        (.adding ⟨bucket.lastRefillNs, intervalsSince limits now bucket.lastRefillNs⟩)
      simp only [Call.window, List.append_nil] at hheld
      exact hheld
  | @credit window =>
    refine
      { tokens := min_le_right _ _
        clock := h.clock
        last := h.last
        valid := h.valid_put trivial
        claims := h.claims.perm ?_
        granted := ?_ }
    · rw [windows, windows, List.append_assoc]
      refine List.Perm.append_left _ ?_
      have hheld := held_put hcall .acquiring
      simp only [Call.window, List.append_nil] at hheld
      exact List.perm_append_comm.trans hheld
    · have hadd : refilled limits window bucket.tokens ≤
          bucket.tokens + window.intervals * limits.rate :=
        (min_le_left _ _).trans ((min_le_left _ _).trans
          (Nat.add_le_add_left (min_le_left _ _) _))
      have hgranted := h.granted
      simp only [totalIntervals, List.map_append, List.map_singleton, List.sum_append,
        List.sum_singleton, Nat.mul_add] at hgranted ⊢
      rw [Nat.mul_comm limits.rate window.intervals]
      show _ + bucket.grants ≤ _
      omega
  | grant =>
    have hpos : 0 < bucket.tokens := h.valid caller _ hcall
    refine
      { tokens := (Nat.sub_le _ _).trans h.tokens
        clock := h.clock
        last := h.last
        valid := h.valid_put trivial
        claims := h.claims.perm (windows_put hcall rfl)
        granted := ?_ }
    calc bucket.tokens - 1 + (bucket.grants + 1) = bucket.tokens + bucket.grants := by omega
      _ ≤ _ := h.granted

theorem of_runs {trace : List Action}
    (run : Runs (Steps limits) (Bucket.new limits start) trace bucket) :
    Sound limits start bucket := by
  induction run with
  | nil => exact new limits start
  | snoc _ step ih =>
    rcases steps_cases step with ⟨nanos, rfl, rfl⟩ | ⟨rfl, rfl⟩ |
      ⟨caller, call, rfl, hcall, hstep⟩ | ⟨caller, call, again, rfl, hcall, hretry, rfl⟩
    · exact ih.tick nanos
    · exact ih.call
    · exact ih.move hcall (moves_of_step hstep)
    · exact ih.move hcall (moves_of_retry hretry)

theorem grants_le (h : Sound limits start bucket) :
    bucket.grants ≤
      limits.burst + limits.rate * ((bucket.clock - start) / limits.intervalNs) := by
  have hcredited : totalIntervals bucket.credited * limits.intervalNs ≤ bucket.clock - start := by
    refine h.claims.left.2.trans ?_
    have hlast := h.last
    unfold nowNs at hlast ⊢
    omega
  have hworth : limits.rate * totalIntervals bucket.credited ≤
      limits.rate * ((bucket.clock - start) / limits.intervalNs) :=
    Nat.mul_le_mul_left _ ((Nat.le_div_iff_mul_le limits.interval_pos).mpr hcredited)
  have hgranted := h.granted
  omega

end Sound

def Action.By (caller : ℕ) : Action → Prop
  | .tick _ => True
  | .call => False
  | .step stepping | .spurious stepping => stepping = caller

instance (caller : ℕ) : DecidablePred (Action.By caller) := fun action => by
  cases action <;> unfold Action.By <;> infer_instance

def Due (limits : Limits) (bucket : Bucket) : Call → Prop
  | .entering => bucket.lastRefillNs + limits.intervalNs ≤ nowNs bucket.clock
  | .refilling now => bucket.lastRefillNs + limits.intervalNs ≤ now
  | .claiming now last =>
    bucket.lastRefillNs = last ∧ bucket.lastRefillNs + limits.intervalNs ≤ now
  | .adding window => 0 < window.intervals
  | .crediting window current => bucket.tokens = current ∧ 0 < window.intervals
  | .acquiring => 0 < bucket.tokens
  | .taking current => bucket.tokens = current ∧ 0 < bucket.tokens
  | .returned granted => granted = true

def Call.left : Call → ℕ
  | .entering => 7
  | .refilling _ => 6
  | .claiming _ _ => 5
  | .adding _ => 4
  | .crediting _ _ => 3
  | .acquiring => 2
  | .taking _ => 1
  | .returned _ => 0

def stepCount (trace : List Action) : ℕ := trace.countP fun action => action matches .step _

def spuriousCount (trace : List Action) : ℕ := trace.countP fun action => action matches .spurious _

structure Advancing (limits : Limits) (caller : ℕ) (trace : List Action) (bucket : Bucket)
    (call : Call) : Prop where
  found : bucket.calls[caller]? = some call
  due : Due limits bucket call
  count : stepCount trace + call.left = 7 + spuriousCount trace

section

variable {limits : Limits} {bucket : Bucket} {caller : ℕ} {call : Call}

theorem intervalsSince_pos {now : ℕ} (h : bucket.lastRefillNs + limits.intervalNs ≤ now) :
    0 < intervalsSince limits now bucket.lastRefillNs :=
  Nat.div_pos (by omega) limits.interval_pos

theorem refilled_pos {window : Window} (h : 0 < window.intervals) (current : ℕ) :
    0 < refilled limits window current := by
  have hrate := limits.rate_pos
  have hburst := limits.rate_le_burst
  have hworth : 0 < window.intervals * limits.rate := Nat.mul_pos h hrate
  unfold refilled saturatingAdd saturatingMul u64Max
  omega

theorem Due.step {after : Bucket} (hcall : bucket.calls[caller]? = some call)
    (hdue : Due limits bucket call) (hstep : bucket.step limits caller call = some after) :
    ∃ next, after.calls[caller]? = some next ∧ Due limits after next ∧
      next.left + 1 = call.left := by
  have hput : ∀ next, (bucket.put caller next).calls[caller]? = some next := fun next =>
    Roster.getElem?_modify_self hcall
  cases call with
  | entering =>
    cases hstep
    exact ⟨_, hput _, hdue, rfl⟩
  | refilling now =>
    simp only [Bucket.step, (intervalsSince_pos hdue).ne', if_false] at hstep
    cases hstep
    exact ⟨_, hput _, ⟨rfl, hdue⟩, rfl⟩
  | claiming now last =>
    obtain ⟨rfl, hpassed⟩ := hdue
    simp only [Bucket.step, if_true] at hstep
    cases hstep
    exact ⟨_, hput _, intervalsSince_pos hpassed, rfl⟩
  | adding window =>
    cases hstep
    exact ⟨_, hput _, ⟨rfl, hdue⟩, rfl⟩
  | crediting window current =>
    obtain ⟨rfl, hpos⟩ := hdue
    simp only [Bucket.step, if_true] at hstep
    cases hstep
    exact ⟨_, hput _, refilled_pos hpos _, rfl⟩
  | acquiring =>
    simp only [Bucket.step, (Nat.pos_iff_ne_zero.mp hdue), if_false] at hstep
    cases hstep
    exact ⟨_, hput _, ⟨rfl, hdue⟩, rfl⟩
  | taking current =>
    obtain ⟨rfl, hpos⟩ := hdue
    simp only [Bucket.step, if_true] at hstep
    cases hstep
    exact ⟨_, hput _, rfl, rfl⟩
  | returned granted => cases hstep

theorem Due.retry {again : Call} (hdue : Due limits bucket call) (h : call.retry = some again)
    (caller : ℕ) :
    Due limits (bucket.put caller again) again ∧ again.left = call.left + 1 := by
  cases call with
  | claiming now last | crediting window current | taking current =>
    cases h
    exact ⟨hdue.2, rfl⟩
  | entering | refilling now | adding window | acquiring | returned granted => cases h

theorem Due.tick (hdue : Due limits bucket call) (nanos : ℕ) :
    Due limits { bucket with clock := bucket.clock + nanos } call := by
  cases call with
  | entering => exact le_trans hdue (nowNs_mono (Nat.le_add_right _ _))
  | refilling now | claiming now last | adding window | crediting window current | acquiring
  | taking current | returned granted => exact hdue

theorem ready_step (hcall : bucket.calls[caller]? = some call) (hleft : 0 < call.left) :
    Ready limits bucket (.step caller) := by
  rw [Ready, next, hcall, Option.bind_some]
  cases call with
  | entering | adding window => rfl
  | refilling now | claiming now last | crediting window current | acquiring | taking current =>
    simp only [Bucket.step]
    split <;> rfl
  | returned granted => cases hleft

theorem advancing_of_runs {waiting : Bucket} {trace : List Action}
    (hcall : waiting.calls[caller]? = some .entering)
    (hdue : waiting.lastRefillNs + limits.intervalNs ≤ nowNs waiting.clock)
    (run : Runs (Guarded (Steps limits) fun _ action => action.By caller) waiting trace bucket) :
    ∃ call, Advancing limits caller trace bucket call := by
  induction run with
  | nil => exact ⟨.entering, hcall, hdue, rfl⟩
  | snoc _ step ih =>
    obtain ⟨call, hfound, hcalldue, hcount⟩ := ih
    rcases steps_cases step.1 with ⟨nanos, rfl, rfl⟩ | ⟨rfl, rfl⟩ |
      ⟨stepping, found, rfl, hstepping, hstep⟩ |
      ⟨stepping, found, again, rfl, hstepping, hretry, rfl⟩
    · refine ⟨call, hfound, hcalldue.tick nanos, ?_⟩
      simpa [stepCount, spuriousCount] using hcount
    · exact step.2.elim
    · obtain rfl : stepping = caller := step.2
      obtain rfl : call = found := Option.some.inj (hfound.symm.trans hstepping)
      obtain ⟨next, hnext, hnextdue, hleft⟩ := hcalldue.step hfound hstep
      refine ⟨next, hnext, hnextdue, ?_⟩
      simp only [stepCount, spuriousCount, List.countP_append, List.countP_singleton] at hcount ⊢
      simp only [if_true, Bool.false_eq_true, if_false]
      omega
    · obtain rfl : stepping = caller := step.2
      obtain rfl : call = found := Option.some.inj (hfound.symm.trans hstepping)
      obtain ⟨hagaindue, hleft⟩ := hcalldue.retry hretry stepping
      refine ⟨again, Roster.getElem?_modify_self hfound, hagaindue, ?_⟩
      simp only [stepCount, spuriousCount, List.countP_append, List.countP_singleton] at hcount ⊢
      simp only [if_true, Bool.false_eq_true, if_false]
      omega

theorem refill_due_after_wait {start wait : ℕ} (h : Sound limits start bucket)
    (hrange : bucket.lastRefillNs + limits.intervalNs ≤ u64Max)
    (hwait : bucket.retryAfterSecs limits * 10 ^ 9 ≤ wait) :
    bucket.lastRefillNs + limits.intervalNs ≤ nowNs (bucket.clock + wait) := by
  have hlast := h.last
  have hclock : nowNs bucket.clock ≤ bucket.clock := min_le_left _ _
  have hremaining : limits.intervalNs -
      (nowNs bucket.clock - bucket.lastRefillNs) % limits.intervalNs ≤ wait := by
    refine le_trans ?_ hwait
    simp only [retryAfterSecs]
    omega
  have hmod := Nat.mod_le (nowNs bucket.clock - bucket.lastRefillNs) limits.intervalNs
  refine le_min ?_ hrange
  omega

end

/-- In every run of concurrent calls: the tokens never exceed the burst; the grants are bounded by
the burst and the rate for each interval passed since the start; the intervals credited lie between
the start and the present, each credited once; and a caller that waits as long as it is told to and
then calls without competition is not refused, needs at most seven steps besides one for each
spurious failure, and ends with a grant, as long as the next refill lies within the range of the
nanosecond clock. -/
theorem token_bucket_bound (limits : Limits) {start : ℕ} {trace : List Action} {bucket : Bucket}
    (run : Runs (Steps limits) (Bucket.new limits start) trace bucket) :
    bucket.tokens ≤ limits.burst ∧
    bucket.grants ≤ limits.burst + limits.rate * ((bucket.clock - start) / limits.intervalNs) ∧
    (bucket.credited.Pairwise (Apart limits) ∧ ∀ window ∈ bucket.credited,
      nowNs start ≤ window.start ∧ window.stop limits ≤ bucket.clock) ∧
    ∀ (wait : ℕ) (later : List Action) (after : Bucket),
      bucket.lastRefillNs + limits.intervalNs ≤ u64Max →
      bucket.retryAfterSecs limits * 10 ^ 9 ≤ wait →
      Runs (Guarded (Steps limits) fun _ action => action.By bucket.calls.length)
        (act limits .call (act limits (.tick wait) bucket)) later after →
      after.calls[bucket.calls.length]? ≠ some (.returned false) ∧
      stepCount later ≤ 7 + spuriousCount later ∧
      (¬Ready limits after (.step bucket.calls.length) →
        after.calls[bucket.calls.length]? = some (.returned true)) := by
  have hsound := Sound.of_runs run
  refine ⟨hsound.tokens, hsound.grants_le, ⟨hsound.claims.left.1, fun window hmem => ?_⟩, ?_⟩
  · obtain ⟨hstart, hstop⟩ := hsound.claims.within window (List.mem_append_left _ hmem)
    have hlast : bucket.lastRefillNs ≤ bucket.clock := hsound.last.trans (min_le_left _ _)
    exact ⟨hstart, hstop.trans hlast⟩
  · intro wait later after hrange hwait run'
    obtain ⟨call, hfound, hdue, hcount⟩ := advancing_of_runs Roster.getElem?_join_length
      (refill_due_after_wait hsound hrange hwait) run'
    refine ⟨?_, by omega, fun hended => ?_⟩
    · rw [hfound]
      rintro ⟨rfl⟩
      cases hdue
    · have hleft : call.left = 0 := by
        by_contra hne
        exact hended (ready_step hfound (Nat.pos_of_ne_zero hne))
      cases call with
      | returned granted =>
        obtain rfl : granted = true := hdue
        exact hfound
      | entering | refilling now | claiming now last | adding window | crediting window current
      | acquiring | taking current => cases hleft

def sampleLimits : Limits := ⟨1, 10 ^ 9, 1, by decide, by decide, by decide⟩

def sampleTrace : List Action :=
  [.call, .step 0, .step 0, .step 0, .step 0, .tick 5, .call, .step 1, .step 1, .step 1]

/-- The refused caller waits the second it was told to, and calls again alone. -/
theorem token_bucket_bound_sampleTrace :
    let bucket := replay (act sampleLimits) (Bucket.new sampleLimits 7) sampleTrace
    let again := act sampleLimits .call (act sampleLimits (.tick (10 ^ 9)) bucket)
    (RateLimitBuilder.build ⟨1, 10 ^ 9, none⟩ = .ok sampleLimits ∧
      bucket.calls = [.returned true, .returned false]) ∧
    bucket.grants ≤ sampleLimits.burst +
      sampleLimits.rate * ((bucket.clock - 7) / sampleLimits.intervalNs) ∧
    (replay (act sampleLimits) again (List.replicate 7 (.step 2))).calls[2]? =
      some (.returned true) := by
  intro bucket again
  have hready : ReadyAll (Ready sampleLimits) (act sampleLimits) (Bucket.new sampleLimits 7)
      sampleTrace := by decide
  have hlater : ReadyAll (fun state action => Ready sampleLimits state action ∧ action.By 2)
      (act sampleLimits) again (List.replicate 7 (.step 2)) := by decide
  obtain ⟨-, hgrants, -, hretry⟩ := token_bucket_bound sampleLimits (runs_replay hready)
  have hagain := (runs_replay hlater).mono fun _ _ _ step => guarded_acts.mpr step
  refine ⟨⟨rfl, by decide⟩, hgrants, ?_⟩
  obtain ⟨-, -, hgranted⟩ := hretry (10 ^ 9) _ _ (by decide) (by decide) hagain
  exact hgranted (by decide)

def centuries : Limits := ⟨1, u64Max, 1, by decide, by decide, by decide⟩

/-- A bucket created one nanosecond after the epoch with that interval grants one token; a second
caller is refused, waits as long as it is told to, and is refused again, because the clock's reading
stops at its maximum one nanosecond short of the refill. -/
theorem saturated_clock_refuses :
    let refused := replay (act centuries) (Bucket.new centuries 1)
      [.call, .step 0, .step 0, .step 0, .step 0, .call, .step 1, .step 1, .step 1]
    let trace := [Action.call, .step 0, .step 0, .step 0, .step 0, .call, .step 1, .step 1,
      .step 1, .tick (refused.retryAfterSecs centuries * 10 ^ 9), .call, .step 2, .step 2, .step 2]
    RateLimitBuilder.build ⟨1, u64Max, none⟩ = .ok centuries ∧
    Runs (Steps centuries) (Bucket.new centuries 1) trace
      (replay (act centuries) (Bucket.new centuries 1) trace) ∧
    refused.calls = [.returned true, .returned false] ∧
    (replay (act centuries) (Bucket.new centuries 1) trace).calls =
      [.returned true, .returned false, .returned false] := by
  intro refused trace
  have hready : ReadyAll (Ready centuries) (act centuries) (Bucket.new centuries 1) trace := by
    decide
  exact ⟨rfl, runs_replay hready, by decide, by decide⟩

end Camber.RateLimit
