import Mathlib.Algebra.Order.Sub.Defs
import Mathlib.Data.List.Chain
import Mathlib.Data.List.Infix
import Mathlib.Tactic

namespace Transition

variable {σ ε : Type*}

/-- The labels of a run from `start`, and the state it reaches. -/
inductive Runs (Step : σ → ε → σ → Prop) (start : σ) : List ε → σ → Prop
  | nil : Runs Step start [] start
  | snoc {trace : List ε} {state next : σ} {label : ε} (run : Runs Step start trace state)
      (step : Step state label next) : Runs Step start (trace ++ [label]) next

theorem filterMap_snoc {α β : Type*} (f : α → Option β) (trace : List α) (a : α) :
    (trace ++ [a]).filterMap f = trace.filterMap f ++ (f a).toList := by
  rw [List.filterMap_append]
  cases h : f a <;> simp [h]

def Guarded (Step : σ → ε → σ → Prop) (Meets : σ → ε → Prop) (state : σ) (label : ε)
    (next : σ) : Prop :=
  Step state label next ∧ Meets state label

namespace Runs

variable {Step Step' : σ → ε → σ → Prop} {start state : σ} {trace : List ε}

theorem invariant {Inv : List ε → σ → Prop} (hstart : Inv [] start)
    (hstep : ∀ {trace state label next}, Runs Step start trace state → Inv trace state →
      Step state label next → Inv (trace ++ [label]) next)
    (run : Runs Step start trace state) : Inv trace state := by
  induction run with
  | nil => exact hstart
  | snoc run step ih => exact hstep run ih step

theorem mono (hstep : ∀ state label next, Step state label next → Step' state label next)
    (run : Runs Step start trace state) : Runs Step' start trace state := by
  induction run with
  | nil => exact nil
  | snoc _ step ih => exact ih.snoc (hstep _ _ _ step)

theorem unguard {Meets : σ → ε → Prop} (run : Runs (Guarded Step Meets) start trace state) :
    Runs Step start trace state :=
  run.mono fun _ _ _ step => step.1

theorem append {later : List ε} {final : σ} (run : Runs Step start trace state)
    (rest : Runs Step state later final) : Runs Step start (trace ++ later) final := by
  induction rest with
  | nil => simpa using run
  | snoc _ step ih =>
    rw [← List.append_assoc]
    exact ih.snoc step

theorem split {before later : List ε} {label : ε}
    (run : Runs Step start (before ++ label :: later) state) :
    ∃ state₁ state₂, Runs Step start before state₁ ∧ Step state₁ label state₂ ∧
      Runs Step state₂ later state := by
  generalize htrace : before ++ label :: later = trace at run
  induction run generalizing later with
  | nil => simp at htrace
  | @snoc trace state next last run step ih =>
    -- the last label is the one asked for, or it belongs to the rest
    rcases List.eq_nil_or_concat later with rfl | ⟨later, last', rfl⟩
    · obtain ⟨rfl, hlast⟩ := List.append_inj' htrace rfl
      obtain rfl : label = last := by simpa using hlast
      exact ⟨_, _, run, step, nil⟩
    · rw [List.concat_eq_append, ← List.cons_append, ← List.append_assoc] at htrace
      obtain ⟨hinit, hlast⟩ := List.append_inj' htrace rfl
      obtain rfl : last' = last := by simpa using hlast
      obtain ⟨state₁, state₂, hbefore, hlabel, hrest⟩ := ih hinit
      refine ⟨state₁, state₂, hbefore, hlabel, ?_⟩
      rw [List.concat_eq_append]
      exact hrest.snoc step

theorem eq_of_nil (run : Runs Step start [] state) : state = start := by
  generalize htrace : [] = trace at run
  cases run with
  | nil => rfl
  | snoc => simp at htrace

theorem pair_iff {first second : ε} :
    Runs Step start [first, second] state ↔
      ∃ between, Step start first between ∧ Step between second state := by
  refine ⟨fun run => ?_, fun ⟨between, hfirst, hsecond⟩ => (nil.snoc hfirst).snoc hsecond⟩
  have hboth : Runs Step start ([] ++ first :: [second]) state := run
  obtain ⟨state₁, between, hnil, hfirst, hrest⟩ := hboth.split
  have hone : Runs Step between ([] ++ second :: []) state := hrest
  obtain ⟨state₂, state₃, hnil', hsecond, hlast⟩ := hone.split
  rw [eq_of_nil hnil] at hfirst
  rw [eq_of_nil hnil', ← eq_of_nil hlast] at hsecond
  exact ⟨between, hfirst, hsecond⟩

end Runs

def Acts (Ready : σ → ε → Prop) (act : ε → σ → σ) (state : σ) (label : ε) (next : σ) : Prop :=
  Ready state label ∧ next = act label state

def ReadyAll (Ready : σ → ε → Prop) (act : ε → σ → σ) : σ → List ε → Prop
  | _, [] => True
  | state, label :: labels => Ready state label ∧ ReadyAll Ready act (act label state) labels

instance decidableReadyAll (Ready : σ → ε → Prop) (act : ε → σ → σ)
    [∀ state label, Decidable (Ready state label)] :
    ∀ state labels, Decidable (ReadyAll Ready act state labels)
  | _, [] => inferInstanceAs (Decidable True)
  | state, label :: labels =>
    have := decidableReadyAll Ready act (act label state) labels
    inferInstanceAs (Decidable (_ ∧ _))

def replay (act : ε → σ → σ) (state : σ) (labels : List ε) : σ :=
  labels.foldl (fun state label => act label state) state

theorem runs_replay {Ready : σ → ε → Prop} {act : ε → σ → σ} {state : σ} {labels : List ε}
    (h : ReadyAll Ready act state labels) :
    Runs (Acts Ready act) state labels (replay act state labels) := by
  induction labels generalizing state with
  | nil => exact .nil
  | cons label labels ih =>
    have hfirst : Runs (Acts Ready act) state [label] (act label state) :=
      show Runs _ _ ([] ++ [label]) _ from Runs.nil.snoc ⟨h.1, rfl⟩
    exact hfirst.append (ih h.2)

theorem runs_foldlM {next : σ → ε → Option σ} {start state : σ} {labels : List ε}
    (h : labels.foldlM next start = some state) :
    Runs (fun state label after => next state label = some after) start labels state := by
  induction labels generalizing start with
  | nil =>
    cases h
    exact .nil
  | cons label labels ih =>
    obtain ⟨between, hfirst, hrest⟩ := Option.bind_eq_some_iff.mp h
    exact (Runs.nil.snoc hfirst).append (ih hrest)

theorem guarded_acts {Ready Meets : σ → ε → Prop} {act : ε → σ → σ} {state next : σ}
    {label : ε} :
    Guarded (Acts Ready act) Meets state label next ↔
      Acts (fun state label => Ready state label ∧ Meets state label) act state label next := by
  unfold Guarded Acts
  tauto

end Transition

namespace Trace

variable {α : Type*} {R : α → α → Prop} {P : α → Prop} {l : List α}

theorem rel_of_getElem? (hl : l.IsChain R) {i : ℕ} {a b : α} (ha : l[i]? = some a)
    (hb : l[i + 1]? = some b) : R a b := by
  obtain ⟨_, rfl⟩ := List.getElem?_eq_some_iff.mp ha
  obtain ⟨hlen, rfl⟩ := List.getElem?_eq_some_iff.mp hb
  exact List.isChain_iff_getElem.mp hl i hlen

theorem persists (hl : l.IsChain R) (hstep : ∀ a b, R a b → P a → P b) {i j : ℕ} (hij : i ≤ j)
    {a b : α} (ha : l[i]? = some a) (hPa : P a) (hb : l[j]? = some b) : P b := by
  induction j, hij using Nat.le_induction generalizing b with
  | base =>
    rw [ha] at hb
    exact Option.some.inj hb ▸ hPa
  | succ j hij ih =>
    have hlen := (List.getElem?_eq_some_iff.mp hb).1
    have hc : l[j]? = some l[j] := List.getElem?_eq_getElem (by omega)
    exact hstep _ _ (rel_of_getElem? hl hc hb) (ih hc)

theorem forall_mem (hl : l.IsChain R) (hhead : ∀ a ∈ l.head?, P a)
    (hstep : ∀ a b, R a b → P a → P b) {b : α} (hb : b ∈ l) : P b := by
  obtain ⟨j, hj⟩ := List.mem_iff_getElem?.mp hb
  have hlen := (List.getElem?_eq_some_iff.mp hj).1
  have ha : l[0]? = some l[0] := List.getElem?_eq_getElem (by omega)
  refine persists hl hstep (Nat.zero_le j) ha (hhead _ ?_) hj
  rw [List.head?_eq_getElem?, ha]
  rfl

end Trace

/-! A quiet clock starts at `start` and restarts at each of a non-decreasing list of instants, so
all it has to remember is the last of them. -/

namespace QuietClock

variable {α : Type*}

def lastSince (start : α) (restarts : List α) : α := restarts.getLast?.getD start

@[simp] theorem lastSince_nil (start : α) : lastSince start [] = start := rfl

@[simp] theorem lastSince_snoc (start a : α) (restarts : List α) :
    lastSince start (restarts ++ [a]) = a := by
  simp [lastSince]

theorem lastSince_mem (start : α) (restarts : List α) :
    lastSince start restarts ∈ start :: restarts := by
  rcases List.eq_nil_or_concat restarts with rfl | ⟨before, last, rfl⟩
  · simp
  · rw [List.concat_eq_append, lastSince_snoc]
    simp

variable {restarts : List α}

theorem le_lastSince [Preorder α] {start : α} (hclock : (start :: restarts).Pairwise (· ≤ ·))
    {a : α} (ha : a ∈ start :: restarts) : a ≤ lastSince start restarts := by
  rcases List.eq_nil_or_concat restarts with rfl | ⟨before, last, rfl⟩
  · simp_all
  · rw [List.concat_eq_append] at *
    rw [lastSince_snoc]
    rw [← List.cons_append, List.mem_append, List.mem_singleton] at ha
    rw [← List.cons_append, List.pairwise_append] at hclock
    rcases ha with ha | rfl
    · exact hclock.2.2 a ha last (List.mem_singleton_self _)
    · exact le_rfl

variable [AddCommSemigroup α] [PartialOrder α] [AddLeftMono α] [Sub α] [OrderedSub α]

theorem passed_iff {start : α} (hclock : (start :: restarts).Pairwise (· ≤ ·)) {interval now : α} :
    (∀ a ∈ start :: restarts, interval ≤ now - a) ↔ interval ≤ now - lastSince start restarts := by
  constructor
  · intro h
    exact h _ (lastSince_mem start restarts)
  · intro h a ha
    exact le_trans h (tsub_le_tsub_left (le_lastSince hclock ha) now)

end QuietClock

/-! A watch channel keeps only its latest value and counts the times it was changed. -/

namespace Watch

variable {α : Type*}

structure Channel (α : Type*) where
  value : α
  version : ℕ

/-- Change the value where `modify` answers one, and count the change. -/
def Channel.sendIfModified (modify : α → Option α) (channel : Channel α) : Channel α :=
  match modify channel.value with
  | some value => ⟨value, channel.version + 1⟩
  | none => channel

/-- Whether a receiver that last looked at `seen` has a change left to see. -/
def Channel.Changed (channel : Channel α) (seen : ℕ) : Prop := channel.version ≠ seen

instance (channel : Channel α) (seen : ℕ) : Decidable (channel.Changed seen) :=
  inferInstanceAs (Decidable (_ ≠ _))

end Watch
