import Camber.Integration.RegistryRuns

/-! A stop reaches every entry it found live, and every other entry has fixed its result by then. -/

namespace Camber.Integration

open Transition Relation

namespace Entry

variable {late outside : Prop} {e e' : Entry}

theorem Changes.account_none (hchanges : Changes late outside e e') (h : e.phase.account = none) :
    e'.phase.account = none := by
  refine hchanges.keeps (fun e => e.phase.account = none) (fun {e e'} move hnone => ?_) h
  cases move with
  | taken => rfl
  | named => rfl
  | @proceeded i settler => exact (e.settleStep_account settler).trans hnone
  | commit | flags | begun | released | ended | charged | attached | woken | detached | cleared
  | runtimeEnds => exact hnone

theorem not_accepts_commitClosing (cause : CloseCause) :
    (e.commitClosing cause).phase.state.accepts = false := rfl

theorem stop_not_accepts (admitsChildren : Option Bool) :
    (act (.stop admitsChildren) e).phase.state.accepts = false := by
  show (e.closeBy _).phase.state.accepts = false
  unfold closeBy
  cases hstate : e.phase.state with
  | admitted | ready =>
    exact (Forward.of_changes (@drain_changes True True _)).not_accepts
      (not_accepts_commitClosing _)
  | closing => rw [hstate]; rfl
  | settled => rw [hstate]; rfl

theorem takeOutstanding_state : e.takeOutstanding.phase.state = e.phase.state := by
  unfold takeOutstanding
  split <;> rfl

theorem nameOutstanding_not_accepts : (act .nameOutstanding e).phase.state.accepts = false := by
  show (takeOutstanding _).phase.state.accepts = false
  rw [takeOutstanding_state]
  by_cases haccepts : e.phase.state.accepts = true
  · rw [if_pos haccepts]
    rfl
  · rw [if_neg haccepts]
    exact Bool.eq_false_iff.mpr haccepts

theorem nameOutstanding_account : (act .nameOutstanding e).phase.account = none := by
  show (takeOutstanding _).phase.account = none
  unfold takeOutstanding
  split
  · rfl
  next haccount => exact haccount

theorem Forward.settled (h : Forward e e') (hsettled : e.phase.state = .settled) :
    e'.phase.state = .settled := by
  have hrank := h.rank
  rw [hsettled] at hrank
  cases hstate : e'.phase.state <;> simp_all [EntryState.rank]

end Entry

namespace Registry

variable {r : Registry} {action : Action}

variable {e e' : Entry} {i s : ℕ} {sweep : Sweep} {trace : List Action}

theorem act_changes_of_ready {a : Entry.Action} (hready : e.Ready a) :
    Entry.Changes True True e (e.act a) :=
  Entry.act_changes True True hready (.inr trivial) fun _ => trivial

theorem evolve_modify {entries : List Entry} {j : ℕ} {a : Entry.Action}
    (hready : ∀ e, entries[j]? = some e → e.Ready a) (he : entries[i]? = some e) :
    ∃ e', (entries.modify j (Entry.act a))[i]? = some e' ∧ Entry.Changes True True e e' := by
  by_cases hij : j = i
  · subst hij
    exact ⟨_, Roster.getElem?_modify_self he, act_changes_of_ready (hready e he)⟩
  · exact ⟨e, by rw [Roster.getElem?_modify_ne hij]; exact he, .refl⟩

theorem entries_evolve (hready : r.Ready action) (he : r.entries[i]? = some e) :
    ∃ e', (r.act action).entries[i]? = some e' ∧ Entry.Changes True True e e' := by
  cases action with
  | admitCheck call =>
    simp only [act]
    split
    · exact ⟨e, he, .refl⟩
    · exact ⟨e, he, .refl⟩
  | admitInsert =>
    simp only [act]
    split
    next call _ =>
      unfold admitInsert
      split
      next next hnext =>
        split at hnext
        · cases hnext
        · split at hnext
          · cases hnext
          · cases hnext
            exact ⟨e, Roster.getElem?_join_of_some he, .refl⟩
      next => exact ⟨e, he, .refl⟩
    next => exact ⟨e, he, .refl⟩
  | sweepNext index admitsChildren =>
    obtain ⟨sweep, k, rest, -, -, -, heq⟩ := ready_sweepNext hready
    show ∃ e', (r.sweepNext index admitsChildren).entries[i]? = some e' ∧ _
    rw [heq]
    exact evolve_modify (fun e _ => sweepAction_ready admitsChildren sweep.kind e) he
  | entry j a =>
    obtain ⟨-, -, old, hold, hentry⟩ := ready_entry hready
    show ∃ e', (r.entryStep j a).entries[i]? = some e' ∧ _
    rw [entryStep_eq hold]
    refine evolve_modify (fun e hej => ?_) he
    rw [hold] at hej
    cases hej
    exact hentry
  | closeScope | startSweep | transfer | account | seed => exact ⟨e, he, .refl⟩

theorem entries_length (h : Lawful r) (hready : r.Ready action) (hstopping : r.stopping = true) :
    (r.act action).entries.length = r.entries.length ∧ (r.act action).stopping = true := by
  cases action with
  | admitCheck call =>
    simp only [act]
    split
    · exact ⟨rfl, hstopping⟩
    · exact ⟨rfl, hstopping⟩
  | admitInsert =>
    have hsome : r.admitting.isSome = true := hready
    rw [h.locked hstopping] at hsome
    cases hsome
  | sweepNext index admitsChildren =>
    obtain ⟨sweep, k, rest, -, -, -, heq⟩ := ready_sweepNext hready
    show (r.sweepNext index admitsChildren).entries.length = _ ∧
      (r.sweepNext index admitsChildren).stopping = true
    rw [heq]
    exact ⟨List.length_modify .., hstopping⟩
  | entry j a =>
    obtain ⟨-, -, old, hold, -⟩ := ready_entry hready
    show (r.entryStep j a).entries.length = _ ∧ (r.entryStep j a).stopping = true
    rw [entryStep_eq hold]
    exact ⟨List.length_modify .., hstopping⟩
  | startSweep => exact ⟨rfl, rfl⟩
  | closeScope | transfer | account | seed => exact ⟨rfl, hstopping⟩

theorem entries_back (h : Lawful r) (hready : r.Ready action) (hstopping : r.stopping = true)
    (he' : (r.act action).entries[i]? = some e') :
    ∃ e, r.entries[i]? = some e ∧ Entry.Changes True True e e' := by
  have hlt : i < r.entries.length := by
    rw [← (entries_length h hready hstopping).1]
    exact (List.getElem?_eq_some_iff.mp he').1
  obtain ⟨e, he⟩ : ∃ e, r.entries[i]? = some e := ⟨_, List.getElem?_eq_getElem hlt⟩
  obtain ⟨e'', he'', hchanges⟩ := entries_evolve hready he
  rw [he'] at he''
  cases he''
  exact ⟨e, he, hchanges⟩

theorem sweeps_cases (hready : r.Ready action) {sweep' : Sweep}
    (h : (r.act action).sweeps[s]? = some sweep') :
    (∃ sweep, r.sweeps[s]? = some sweep ∧ (sweep' = sweep ∨
      action = .transfer s ∧ sweep' = { sweep with finished := true })) ∨
    (∃ kind, action = .startSweep kind ∧ sweep' = ⟨kind, r.live.map Prod.snd, [], none, false⟩) ∨
    (∃ admitsChildren sweep i rest, action = .sweepNext s admitsChildren ∧
      r.sweeps[s]? = some sweep ∧ sweep.remaining = i :: rest ∧ r.namedDone sweep = true ∧
      sweep' = { sweep with
        remaining := rest
        reached := sweep.reached ++ [i]
        naming := r.namingOf sweep.kind i }) := by
  have hsame : (r.act action).sweeps = r.sweeps → ∃ sweep, r.sweeps[s]? = some sweep ∧
      (sweep' = sweep ∨ action = .transfer s ∧ sweep' = { sweep with finished := true }) := by
    intro heq
    exact ⟨sweep', heq ▸ h, .inl rfl⟩
  cases action with
  | admitCheck call =>
    refine .inl (hsame ?_)
    simp only [act]
    split <;> rfl
  | admitInsert =>
    refine .inl (hsame ?_)
    simp only [act]
    split
    next call _ =>
      unfold admitInsert
      split
      next next hnext =>
        split at hnext
        · cases hnext
        · split at hnext <;> cases hnext
          rfl
      next => rfl
    next => rfl
  | startSweep kind =>
    rcases Roster.of_getElem?_join h with hold | ⟨-, hnew⟩
    · exact .inl ⟨sweep', hold, .inl rfl⟩
    · exact .inr (.inl ⟨kind, rfl, hnew⟩)
  | sweepNext index admitsChildren =>
    obtain ⟨sweep, i, rest, hsweep, hremaining, hdone, heq⟩ := ready_sweepNext hready
    have hmodify : (r.sweepNext index admitsChildren).sweeps[s]? = some sweep' := h
    rw [heq] at hmodify
    obtain ⟨old, hold, hnew⟩ := Roster.of_getElem?_modify hmodify
    by_cases his : index = s
    · subst his
      rw [hsweep] at hold
      cases hold
      rw [if_pos rfl] at hnew
      exact .inr (.inr ⟨admitsChildren, sweep, i, rest, rfl, hsweep, hremaining, hdone, hnew⟩)
    · rw [if_neg his] at hnew
      exact .inl ⟨old, hold, .inl hnew⟩
  | transfer index =>
    obtain ⟨old, hold, hnew⟩ := Roster.of_getElem?_modify h
    by_cases his : index = s
    · subst his
      rw [if_pos rfl] at hnew
      exact .inl ⟨old, hold, .inr ⟨rfl, hnew⟩⟩
    · rw [if_neg his] at hnew
      exact .inl ⟨old, hold, .inl hnew⟩
  | entry j a =>
    refine .inl (hsame ?_)
    obtain ⟨-, -, e, he, -⟩ := ready_entry hready
    show (r.entryStep j a).sweeps = r.sweeps
    rw [entryStep_eq he]
  | closeScope | account | seed => exact .inl (hsame rfl)

theorem sweepNext_entry {index : ℕ} {admitsChildren : Option Bool} {rest : List ℕ}
    (hready : r.Ready (.sweepNext index admitsChildren)) (hsweep : r.sweeps[index]? = some sweep)
    (hremaining : sweep.remaining = i :: rest)
    (he' : (r.act (.sweepNext index admitsChildren)).entries[i]? = some e') :
    ∃ e, r.entries[i]? = some e ∧ e' = Entry.act (sweepAction admitsChildren sweep.kind) e := by
  obtain ⟨one, j, rest', hone, hhead, -, heq⟩ := ready_sweepNext hready
  rw [hsweep] at hone
  cases hone
  rw [hremaining] at hhead
  cases hhead
  have hmodify : (r.sweepNext index admitsChildren).entries[i]? = some e' := he'
  rw [heq] at hmodify
  obtain ⟨e, he, hnew⟩ := Roster.of_getElem?_modify hmodify
  exact ⟨e, he, by rw [hnew, if_pos rfl]⟩

theorem sweepAction_not_accepts (admitsChildren : Option Bool) (kind : SweepKind) (e : Entry) :
    (Entry.act (sweepAction admitsChildren kind) e).phase.state.accepts = false := by
  cases kind with
  | stop => exact Entry.stop_not_accepts admitsChildren
  | settleInto => exact Entry.nameOutstanding_not_accepts

theorem closed_of_not_listed (h : Lawful r) (he : r.entries[i]? = some e) (hgone : e.listed = false) :
    e.closed.isSome = true ∧ e.phase.account = none := by
  obtain ⟨-, hprogress, hruntime⟩ := h.core.sound i e he
  cases haccount : e.phase.account with
  | some account =>
    rw [(hprogress.unsettled haccount).listed, hruntime] at hgone
    cases hgone
  | none =>
    obtain ⟨settler, hsettling⟩ := hprogress.settling haccount
    have hrank : 4 ≤ settler.stage.rank := by
      rw [hsettling.listed, hruntime, Bool.true_and, decide_eq_false_iff_not] at hgone
      omega
    rw [hsettling.closed, if_pos (by omega)]
    exact ⟨rfl, rfl⟩

structure Covered (r : Registry) : Prop where
  reached : ∀ {s : ℕ} {sweep : Sweep}, r.sweeps[s]? = some sweep →
    ∀ {i : ℕ} {e : Entry}, r.entries[i]? = some e →
      i ∈ sweep.remaining ∨ i ∈ sweep.reached ∨ e.closed.isSome = true
  closing : ∀ {s : ℕ} {sweep : Sweep}, r.sweeps[s]? = some sweep →
    ∀ {i : ℕ} {e : Entry}, r.entries[i]? = some e → i ∈ sweep.reached →
      e.phase.state.accepts = false

theorem Lawful.stopping_of_sweep (h : Lawful r) (hsweep : r.sweeps[s]? = some sweep) :
    r.stopping = true := by
  refine h.swept fun hnil => ?_
  rw [hnil] at hsweep
  cases hsweep

theorem closed_isSome_of_changes (hchanges : Entry.Changes True True e e')
    (h : e.closed.isSome = true) : e'.closed.isSome = true := by
  obtain ⟨result, hresult⟩ := Option.isSome_iff_exists.mp h
  rw [(Entry.Forward.of_changes hchanges).closed hresult]
  rfl

theorem Covered.act (h : Covered r) (hlawful : Lawful r) (hready : r.Ready action) :
    Covered (r.act action) := by
  refine ⟨fun {s sweep'} hsweep' {i e'} he' => ?_, fun {s sweep'} hsweep' {i e'} he' hi => ?_⟩
  · rcases sweeps_cases hready hsweep' with ⟨sweep, hsweep, hold⟩ | ⟨kind, rfl, rfl⟩ |
      ⟨admitsChildren, sweep, j, rest, rfl, hsweep, hremaining, -, rfl⟩
    · obtain ⟨e, he, hchanges⟩ :=
        entries_back hlawful hready (hlawful.stopping_of_sweep hsweep) he'
      have hsame : sweep'.remaining = sweep.remaining ∧ sweep'.reached = sweep.reached := by
        rcases hold with rfl | ⟨-, rfl⟩ <;> exact ⟨rfl, rfl⟩
      rw [hsame.1, hsame.2]
      exact (h.reached hsweep he).imp_right (Or.imp_right (closed_isSome_of_changes hchanges))
    · cases hlisted : e'.listed with
      | true =>
        refine .inl (List.mem_map.mpr ⟨(e'.id, i), ?_, rfl⟩)
        exact hlawful.core.listing.mem.mpr ⟨e', he', rfl, hlisted⟩
      | false => exact .inr (.inr (closed_of_not_listed hlawful he' hlisted).1)
    · obtain ⟨e, he, hchanges⟩ :=
        entries_back hlawful hready (hlawful.stopping_of_sweep hsweep) he'
      rcases h.reached hsweep he with hmore | hreached | hclosed
      · rw [hremaining] at hmore
        rcases List.mem_cons.mp hmore with rfl | hrest
        · exact .inr (.inl (List.mem_append_right _ (List.mem_singleton_self _)))
        · exact .inl hrest
      · exact .inr (.inl (List.mem_append_left _ hreached))
      · exact .inr (.inr (closed_isSome_of_changes hchanges hclosed))
  · rcases sweeps_cases hready hsweep' with ⟨sweep, hsweep, hold⟩ | ⟨kind, rfl, rfl⟩ |
      ⟨admitsChildren, sweep, j, rest, rfl, hsweep, hremaining, -, rfl⟩
    · obtain ⟨e, he, hchanges⟩ :=
        entries_back hlawful hready (hlawful.stopping_of_sweep hsweep) he'
      have hreached : i ∈ sweep.reached := by
        rcases hold with rfl | ⟨-, rfl⟩ <;> exact hi
      exact (Entry.Forward.of_changes hchanges).not_accepts (h.closing hsweep he hreached)
    · cases hi
    · rcases List.mem_append.mp hi with hreached | hnow
      · obtain ⟨e, he, hchanges⟩ :=
          entries_back hlawful hready (hlawful.stopping_of_sweep hsweep) he'
        exact (Entry.Forward.of_changes hchanges).not_accepts (h.closing hsweep he hreached)
      · obtain rfl := List.mem_singleton.mp hnow
        obtain ⟨e, -, rfl⟩ := sweepNext_entry hready hsweep hremaining he'
        exact sweepAction_not_accepts admitsChildren sweep.kind e

theorem covered_of_runs (run : Runs Steps .new trace r) : Covered r := by
  induction run with
  | nil => exact ⟨fun h => by simp [new] at h, fun h => by simp [new] at h⟩
  | snoc run step ih =>
    obtain ⟨hready, rfl⟩ := step
    exact ih.act (lawful_of_runs run) hready

/-- No call is between taking the entry's account and committing `Settled`. -/
def Calm (e : Entry) : Prop := e.phase.account.isSome = true ∨ e.phase.state = .settled

instance : DecidablePred Calm := fun _ => inferInstanceAs (Decidable (_ ∨ _))

def Quiet (r : Registry) : Action → Prop
  | .startSweep .settleInto => ∀ e ∈ r.entries, Calm e
  | .sweepNext index _ => ∀ sweep ∈ r.sweeps[index]?, sweep.kind = .settleInto →
      ∀ i ∈ sweep.remaining.head?, ∀ e ∈ r.entries[i]?, Calm e
  | .transfer _ => ∀ s ∈ r.books.slots, s.holder.isRunning = false
  | _ => True

instance (r : Registry) : DecidablePred r.Quiet
  | .startSweep .settleInto => inferInstanceAs (Decidable (∀ e ∈ r.entries, Calm e))
  | .sweepNext index _ => inferInstanceAs (Decidable (∀ sweep ∈ r.sweeps[index]?,
      sweep.kind = .settleInto → ∀ i ∈ sweep.remaining.head?, ∀ e ∈ r.entries[i]?, Calm e))
  | .transfer _ => inferInstanceAs (Decidable (∀ s ∈ r.books.slots, s.holder.isRunning = false))
  | .startSweep .stop | .admitCheck _ | .admitInsert | .closeScope | .entry _ _ | .account _
  | .seed _ => inferInstanceAs (Decidable True)

/-- Nothing is left to settle and nothing to transfer. -/
structure AllSettled (r : Registry) : Prop where
  entries : ∀ {i : ℕ} {e : Entry}, r.entries[i]? = some e → e.phase.state = .settled
  slots : ∀ {a : ℕ} {s : Slot}, r.books.slots[a]? = some s → s.holder.isSettled = true
  retained : r.books.ledger.retained = []

/-- What a quiet teardown has done. -/
structure Ended (r : Registry) : Prop where
  covered : ∀ {s : ℕ} {sweep : Sweep}, r.sweeps[s]? = some sweep → sweep.kind = .settleInto →
    ∀ {i : ℕ} {e : Entry}, r.entries[i]? = some e →
      i ∈ sweep.remaining ∨ sweep.naming = some i ∨ e.phase.state = .settled
  naming : ∀ {s : ℕ} {sweep : Sweep} {i : ℕ}, r.sweeps[s]? = some sweep → sweep.naming = some i →
    ∃ e, r.entries[i]? = some e ∧ e.phase.account = none
  finished : ∀ {s : ℕ} {sweep : Sweep}, r.sweeps[s]? = some sweep → sweep.finished = true →
    AllSettled r

theorem settled_of_done (h : e.Progress) (hnone : e.phase.account = none)
    (hdone : e.settlers.all (·.stage = .done) = true) : e.phase.state = .settled := by
  obtain ⟨settler, hsettling⟩ := h.settling hnone
  rw [hsettling.settlers] at hdone
  have hstage : settler.stage = .done := by simpa using hdone
  rw [hsettling.state, if_pos hstage]

theorem Ended.named_settled (h : Ended r) (hlawful : Lawful r) (hsweep : r.sweeps[s]? = some sweep)
    (hdone : r.namedDone sweep = true) (hnaming : sweep.naming = some i)
    (he : r.entries[i]? = some e) : e.phase.state = .settled := by
  obtain ⟨one, hone, hnone⟩ := h.naming hsweep hnaming
  rw [he] at hone
  cases hone
  rw [namedDone, hnaming] at hdone
  have hall : e.settlers.all (·.stage = .done) = true := by simpa [he] using hdone
  exact settled_of_done (hlawful.core.sound i e he).2.1 hnone hall

theorem pendingSlot_of_settled (h : e.Progress) (hsettled : e.phase.state = .settled) :
    e.phase.account = none ∧ e.pendingSlot = none := by
  obtain ⟨settler, hdone, hsettling⟩ := h.done hsettled
  have hnone : e.phase.account = none := by
    cases haccount : e.phase.account with
    | some account => exact absurd hsettled (h.unsettled haccount).state
    | none => rfl
  refine ⟨hnone, ?_⟩
  rw [hsettling.pendingSlot hnone, hdone]
  rfl

theorem Ended.transfer (h : Ended r) (hlawful : Lawful r) {index : ℕ}
    (hready : r.Ready (.transfer index)) (hquiet : r.Quiet (.transfer index)) :
    AllSettled (r.act (.transfer index)) := by
  obtain ⟨sweep, hsweep, hboth⟩ := (Option.any_eq_true _ _).mp hready
  simp only [Bool.and_eq_true, decide_eq_true_eq, List.isEmpty_iff] at hboth
  obtain ⟨⟨⟨hkind, hempty⟩, hdone⟩, -⟩ := hboth
  have hentries : ∀ {i : ℕ} {e : Entry}, r.entries[i]? = some e → e.phase.state = .settled := by
    intro i e he
    rcases h.covered hsweep hkind he with hmore | hnaming | hsettled
    · rw [hempty] at hmore
      cases hmore
    · exact h.named_settled hlawful hsweep hdone hnaming he
    · exact hsettled
  refine ⟨hentries, fun {a s} hs => ?_, rfl⟩
  have hslot : r.books.slots[a]? = some s := hs
  have hrunning := hquiet s (List.mem_of_getElem? hslot)
  cases hholder : s.holder with
  | settled => rfl
  | operationAccount => simp [hholder, Holder.isRunning, Holder.isOperation] at hrunning
  | published => simp [hholder, Holder.isRunning, Holder.isPublished] at hrunning
  | instanceAccount kind =>
    -- a close slot that is held is some entry's to answer, and every entry has settled
    have hat : r.books.instanceAt a = some s.instanceId :=
      Books.instanceAt_eq_some.mpr ⟨s, hslot, by rw [hholder]; rfl, rfl⟩
    obtain ⟨i, e, he, hpending⟩ := hlawful.core.linked.owned hat
    rw [(pendingSlot_of_settled (hlawful.core.sound i e he).2.1 (hentries he)).2] at hpending
    cases hpending

theorem AllSettled.act (h : AllSettled r) (hlawful : Lawful r) (hstopping : r.stopping = true)
    (hready : r.Ready action) : AllSettled (r.act action) := by
  have hentries : ∀ {i : ℕ} {e' : Entry}, (r.act action).entries[i]? = some e' →
      e'.phase.state = .settled := by
    intro i e' he'
    obtain ⟨e, he, hchanges⟩ := entries_back hlawful hready hstopping he'
    exact (Entry.Forward.of_changes hchanges).settled (h.entries he)
  have hsame : (r.act action).books.slots = r.books.slots →
      (r.act action).books.ledger.retained = [] → AllSettled (r.act action) := by
    intro hslots hretained
    refine ⟨hentries, fun hs => ?_, hretained⟩
    rw [hslots] at hs
    exact h.slots hs
  have hheld : ∀ {slot : ℕ} {test : Holder → Bool}, (∀ how, test (.settled how) = false) →
      r.books.heldBy slot test = true → False := by
    intro slot test htest hheld
    obtain ⟨s, hslot, hholder⟩ := Books.heldBy_iff.mp hheld
    have hsettled := h.slots hslot
    cases hs : s.holder with
    | settled how =>
      rw [hs, htest] at hholder
      cases hholder
    | _ =>
      rw [hs] at hsettled
      cases hsettled
  cases action with
  | admitCheck call =>
    simp only [Registry.act] at hsame ⊢
    split at hsame
    · exact hsame rfl h.retained
    · exact hsame rfl h.retained
  | admitInsert =>
    have hsome : r.admitting.isSome = true := hready
    rw [hlawful.locked hstopping] at hsome
    cases hsome
  | sweepNext index admitsChildren =>
    obtain ⟨sweep, i, rest, -, -, -, heq⟩ := ready_sweepNext hready
    have hbooks : (r.act (.sweepNext index admitsChildren)).books = r.books := by
      show (r.sweepNext index admitsChildren).books = r.books
      rw [heq]
    exact hsame (by rw [hbooks]) (by rw [hbooks]; exact h.retained)
  | transfer index => exact hsame rfl rfl
  | seed id =>
    refine hsame rfl ?_
    show (r.books.ledger.seedNextInstance id).retained = []
    unfold Ledger.seedNextInstance
    split
    · split <;> exact h.retained
    · exact h.retained
  | entry i a =>
    obtain ⟨-, -, e, he, hentry⟩ := ready_entry hready
    have hprogress := (hlawful.core.sound i e he).2.1
    have hnone : accountActions e a = [] := by
      cases a with
      | beginOperation operation room =>
        simp only [accountActions]
        rw [Entry.beginOperation_refused]
        rw [h.entries he]
        rfl
      | proceed k =>
        obtain ⟨settler, hsettling, -, hgoes, -⟩ := hprogress.settler_of_ready hentry
        have hstate := hsettling.state
        rw [if_neg hgoes, h.entries he] at hstate
        cases hstate
      | ready | connected | reportsClose | releaseLimit | endOperation | requestClose | stop
      | charge | attachCloseOwner | endCloseOwner | nameOutstanding | runtimeEnds => rfl
    have hbooks : (r.act (.entry i a)).books = r.books := by
      show (r.entryStep i a).books = r.books
      rw [entryStep_eq he, hnone]
      rfl
    exact hsame (by rw [hbooks]) (by rw [hbooks]; exact h.retained)
  | account a =>
    obtain ⟨hholders, hbooks⟩ := hready
    exfalso
    cases a with
    | cleanup slot register => exact hheld (fun _ => rfl) hbooks
    | succeed slot => exact hheld (fun _ => rfl) hbooks
    | fail slot error => exact hheld (fun _ => rfl) hbooks
    | receive slot => exact hheld (fun _ => rfl) hbooks
    | abandon slot => exact hheld (fun _ => rfl) hbooks
    | admission | reserve | close | closeFailed | transfer | seed => cases hholders
  | closeScope => exact hsame rfl h.retained
  | startSweep => exact hsame rfl h.retained

theorem Ended.act (h : Ended r) (hlawful : Lawful r) (hready : r.Ready action)
    (hquiet : r.Quiet action) : Ended (r.act action) := by
  refine ⟨fun {s sweep'} hsweep' hkind' {i e'} he' => ?_, fun {s sweep' i} hsweep' hnaming => ?_,
    fun {s sweep'} hsweep' hfinished => ?_⟩
  · rcases sweeps_cases hready hsweep' with ⟨sweep, hsweep, hold⟩ | ⟨kind, rfl, rfl⟩ |
      ⟨admitsChildren, sweep, j, rest, rfl, hsweep, hremaining, hdone, rfl⟩
    · obtain ⟨e, he, hchanges⟩ :=
        entries_back hlawful hready (hlawful.stopping_of_sweep hsweep) he'
      have hsame : sweep'.remaining = sweep.remaining ∧ sweep'.naming = sweep.naming ∧
          sweep'.kind = sweep.kind := by
        rcases hold with rfl | ⟨-, rfl⟩ <;> exact ⟨rfl, rfl, rfl⟩
      rw [hsame.1, hsame.2.1]
      exact (h.covered hsweep (hsame.2.2 ▸ hkind') he).imp_right
        (Or.imp_right (Entry.Forward.of_changes hchanges).settled)
    · -- an entry that is not live any more was found settled
      obtain rfl : kind = .settleInto := hkind'
      cases hlisted : e'.listed with
      | true =>
        refine .inl (List.mem_map.mpr ⟨(e'.id, i), ?_, rfl⟩)
        exact hlawful.core.listing.mem.mpr ⟨e', he', rfl, hlisted⟩
      | false =>
        have hnone := (closed_of_not_listed hlawful he' hlisted).2
        rcases hquiet e' (List.mem_of_getElem? he') with hsome | hsettled
        · rw [hnone] at hsome
          cases hsome
        · exact .inr (.inr hsettled)
    · obtain ⟨e, he, hchanges⟩ :=
        entries_back hlawful hready (hlawful.stopping_of_sweep hsweep) he'
      have hkind : sweep.kind = .settleInto := hkind'
      have hforward := Entry.Forward.of_changes hchanges
      rcases h.covered hsweep hkind he with hmore | hnaming | hsettled
      · rw [hremaining] at hmore
        rcases List.mem_cons.mp hmore with rfl | hrest
        · have hcalm : Calm e := hquiet sweep hsweep hkind i (by rw [hremaining]; rfl) e he
          rcases hcalm with hsome | hsettled
          · refine .inr (.inl ?_)
            show r.namingOf sweep.kind i = some i
            rw [namingOf, if_pos ⟨hkind, by rw [he]; exact hsome⟩]
          · exact .inr (.inr (hforward.settled hsettled))
        · exact .inl hrest
      · exact .inr (.inr (hforward.settled (h.named_settled hlawful hsweep hdone hnaming he)))
      · exact .inr (.inr (hforward.settled hsettled))
  · rcases sweeps_cases hready hsweep' with ⟨sweep, hsweep, hold⟩ | ⟨kind, rfl, rfl⟩ |
      ⟨admitsChildren, sweep, j, rest, rfl, hsweep, hremaining, -, rfl⟩
    · have hsame : sweep'.naming = sweep.naming := by
        rcases hold with rfl | ⟨-, rfl⟩ <;> rfl
      obtain ⟨e, he, hnone⟩ := h.naming hsweep (hsame ▸ hnaming)
      obtain ⟨e', he', hchanges⟩ := entries_evolve hready he
      exact ⟨e', he', hchanges.account_none hnone⟩
    · cases hnaming
    · -- the entry just named gave its account up
      have hnamed : r.namingOf sweep.kind j = some i := hnaming
      unfold namingOf at hnamed
      split at hnamed
      next hboth =>
        obtain rfl : j = i := Option.some.inj hnamed
        obtain ⟨e, he, -⟩ := (Option.any_eq_true _ _).mp hboth.2
        obtain ⟨e', he', -⟩ := entries_evolve hready he
        obtain ⟨old, -, rfl⟩ := sweepNext_entry hready hsweep hremaining he'
        refine ⟨_, he', ?_⟩
        rw [hboth.1]
        exact Entry.nameOutstanding_account
      next => cases hnamed
  · rcases sweeps_cases hready hsweep' with ⟨sweep, hsweep, hold⟩ | ⟨kind, rfl, rfl⟩ |
      ⟨admitsChildren, sweep, j, rest, rfl, hsweep, hremaining, -, rfl⟩
    · rcases hold with rfl | ⟨rfl, -⟩
      · exact (h.finished hsweep hfinished).act hlawful (hlawful.stopping_of_sweep hsweep) hready
      · exact h.transfer hlawful hready hquiet
    · cases hfinished
    · exact (h.finished hsweep hfinished).act hlawful (hlawful.stopping_of_sweep hsweep) hready

theorem ended_of_runs (run : Runs (Guarded Steps Quiet) .new trace r) : Ended r := by
  induction run with
  | nil =>
    exact ⟨fun h => by simp [new] at h, fun h => by simp [new] at h, fun h => by simp [new] at h⟩
  | snoc run step ih =>
    obtain ⟨⟨hready, rfl⟩, hquiet⟩ := step
    exact ih.act (lawful_of_runs run.unguard) hready hquiet

theorem length_of_stopping {before after : Registry} (hlawful : Lawful before)
    (rest : Runs Steps before trace after) (hstopping : before.stopping = true) :
    (after.entries.length = before.entries.length ∧ after.stopping = true) ∧ Lawful after := by
  induction rest with
  | nil => exact ⟨⟨rfl, hstopping⟩, hlawful⟩
  | snoc _ step ih =>
    obtain ⟨hready, rfl⟩ := step
    obtain ⟨⟨hlength, hstopped⟩, hlaw⟩ := ih
    obtain ⟨hsame, hstill⟩ := entries_length hlaw hready hstopped
    exact ⟨⟨hsame.trans hlength, hstill⟩, hlaw.act hready⟩

/-- In every interleaving whose teardown is quiet: at most 64 entries are live, identities are
unique, a sweep that is through has reached every entry that had not fixed its result, nothing is
admitted once the stop is latched, an entry keeps its live slot until its result is fixed, and once
`settle_into` has returned every entry has settled and every failure ever retained was transferred
exactly once. -/
theorem registry_settles {early later : List Action} {before after : Registry}
    (run : Runs (Guarded Steps Quiet) .new early before)
    (rest : Runs (Guarded Steps Quiet) before later after) :
    after.entries.countP Entry.listed ≤ liveLimit ∧
    (after.entries.map Entry.id).Pairwise (· < ·) ∧
    (∀ sweep ∈ after.sweeps, sweep.remaining = [] → ∀ i e, after.entries[i]? = some e →
      e.closed.isSome = true ∨ i ∈ sweep.reached ∧ e.published.accepts = false) ∧
    (before.stopping = true → after.entries.length = before.entries.length) ∧
    (∀ i e, after.entries[i]? = some e → e.closed = none → (e.id, i) ∈ after.live) ∧
    (∀ sweep ∈ after.sweeps, sweep.finished = true →
      (∀ e ∈ after.entries, e.published = .settled) ∧ after.books.ledger.retained = [] ∧
        after.books.transferred.Perm (after.books.slots.flatMap Slot.history)) := by
  have hwhole := run.append rest
  have hlawful := lawful_of_runs hwhole.unguard
  have hcovered := covered_of_runs hwhole.unguard
  have hended := ended_of_runs hwhole
  have hpublished : ∀ {i : ℕ} {e : Entry}, after.entries[i]? = some e →
      e.published = e.phase.state := fun {i e} he => (hlawful.core.sound i e he).1.published
  refine ⟨?_, hlawful.core.listing.increasing, fun sweep hsweep hempty i e he => ?_,
    fun hstopping => ?_, fun i e he hopen => ?_, fun sweep hsweep hfinished => ?_⟩
  · rw [← hlawful.core.listing.count]
    exact hlawful.core.listing.size
  · obtain ⟨s, hs⟩ := List.getElem?_of_mem hsweep
    rcases hcovered.reached hs he with hmore | hreached | hclosed
    · rw [hempty] at hmore
      cases hmore
    · refine .inr ⟨hreached, ?_⟩
      rw [hpublished he]
      exact hcovered.closing hs he hreached
    · exact .inl hclosed
  · exact (length_of_stopping (lawful_of_runs run.unguard) rest.unguard hstopping).1.1
  · refine hlawful.core.listing.mem.mpr ⟨e, he, rfl, ?_⟩
    by_contra hgone
    have hclosed := (closed_of_not_listed hlawful he (Bool.not_eq_true _ ▸ hgone)).1
    rw [hopen] at hclosed
    cases hclosed
  · obtain ⟨s, hs⟩ := List.getElem?_of_mem hsweep
    obtain ⟨hentries, -, hretained⟩ := hended.finished hs hfinished
    refine ⟨fun e hmem => ?_, hretained, ?_⟩
    · obtain ⟨i, he⟩ := List.getElem?_of_mem hmem
      rw [hpublished he]
      exact hentries he
    · have hhistory := hlawful.core.balanced.history
      rw [hretained, List.append_nil] at hhistory
      exact hhistory

def sampleService : List Action :=
  [.admitCheck ⟨.nats, .connect, 2⟩, .admitInsert, .admitCheck ⟨.sqs, .ready, 1⟩, .admitInsert,
    .entry 1 (.beginOperation .publish true), .account (.fail 2 (.new .sqs .publish .timeout .safe)),
    .entry 0 (.charge slowConsumer), .entry 0 (.requestClose (some true)),
    .closeScope, .startSweep .stop, .sweepNext 0 (some false), .sweepNext 0 (some false)]

def sampleTeardown : List Action :=
  [.entry 0 (.proceed 0), .entry 0 (.proceed 0), .entry 0 (.proceed 0), .entry 0 (.proceed 0),
    .entry 0 (.proceed 0), .account (.abandon 2), .startSweep .settleInto, .sweepNext 1 (some false),
    .entry 1 (.proceed 0), .entry 1 (.proceed 0), .entry 1 (.proceed 0), .entry 1 (.proceed 0),
    .entry 1 (.proceed 0), .transfer 1]

theorem registry_settles_sample :
    ∃ before after, Runs (Guarded Steps Quiet) .new sampleService before ∧
      Runs (Guarded Steps Quiet) before sampleTeardown after ∧
      (after.entries.length = 2 ∧ ∀ e ∈ after.entries, e.published = .settled) ∧
      after.books.transferred.map Prod.fst = [1, 2, 2] := by
  have hservice : ReadyAll (fun r a => Ready r a ∧ Quiet r a) act .new sampleService := by
    decide
  have hteardown : ReadyAll (fun r a => Ready r a ∧ Quiet r a) act
      (replay act .new sampleService) sampleTeardown := by decide
  have run := (runs_replay hservice).mono fun _ _ _ => guarded_acts.mpr
  have rest := (runs_replay hteardown).mono fun _ _ _ => guarded_acts.mpr
  obtain ⟨-, -, -, hlength, -, hsettled⟩ := registry_settles run rest
  have hcount : (replay act .new sampleService).entries.length = 2 := by decide
  have hfinished : (⟨.settleInto, [], [1], some 1, true⟩ : Sweep) ∈
      (replay act (replay act .new sampleService) sampleTeardown).sweeps := by decide +kernel
  refine ⟨_, _, run, rest, ⟨?_, (hsettled _ hfinished rfl).1⟩, by decide +kernel⟩
  exact (hlength (by decide +kernel)).trans hcount

/-- A closer has taken the account and not yet answered it when teardown comes: teardown finds
nothing to name, transfers, and returns before the entry has settled; the failure is retained
afterwards, and nobody transfers it. -/
theorem settlement_misses_transfer :
    ∃ between after,
      Runs Steps .new
        [.admitCheck ⟨.nats, .connect, 2⟩, .admitInsert, .entry 0 (.charge slowConsumer),
          .entry 0 (.requestClose (some true)), .closeScope, .startSweep .stop,
          .sweepNext 0 (some false), .startSweep .settleInto, .sweepNext 1 (some false),
          .transfer 1] between ∧
      Runs Steps between
        [.entry 0 (.proceed 0), .entry 0 (.proceed 0), .entry 0 (.proceed 0), .entry 0 (.proceed 0),
          .entry 0 (.proceed 0)] after ∧
      between.sweeps[1]?.map Sweep.finished = some true ∧
      between.entries.map Entry.published = [.closing] ∧
      after.entries.map Entry.published = [.settled] ∧ after.books.transferred = [] ∧
      after.books.ledger.retained = [(1, slowConsumer.withInstance 1)] := by
  have hbefore : ReadyAll Ready act .new
      [.admitCheck ⟨.nats, .connect, 2⟩, .admitInsert, .entry 0 (.charge slowConsumer),
        .entry 0 (.requestClose (some true)), .closeScope, .startSweep .stop,
        .sweepNext 0 (some false), .startSweep .settleInto, .sweepNext 1 (some false),
        .transfer 1] := by decide +kernel
  have run := runs_replay hbefore
  refine ⟨_, _, run, runs_replay ?_, ?_⟩
  · decide
  · decide +kernel

end Registry

end Camber.Integration
