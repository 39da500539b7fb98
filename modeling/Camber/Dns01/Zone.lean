import Camber.Dns01.Order

/-! Every record an order submitted a create for has its slot in the register, and the slot's state
says no more than the provider's answers do. -/

namespace Camber.Dns01

open Integration Transition CleanupRegister Roster

def recordId : RecordState → Option String
  | .created id | .deleting id | .failed id _ => some id
  | .intended | .resolved => none

structure Tracks (record : ZoneRecord) (entry : Record) : Prop where
  domain : entry.domain = record.domain
  mayExist : record.mayExist = entry.isOwed
  id : entry.isOwed = true → record.id = recordId entry.state

structure Mirrors (zone : List ZoneRecord) (records : List Record) : Prop where
  length : zone.length = records.length
  tracks : ∀ (slot : ℕ) record entry, zone[slot]? = some record → records[slot]? = some entry →
    Tracks record entry

namespace Mirrors

variable {zone : List ZoneRecord} {records : List Record} {slot : ℕ}

theorem entry {record : ZoneRecord} (h : Mirrors zone records)
    (hrecord : zone[slot]? = some record) :
    ∃ entry, records[slot]? = some entry ∧ Tracks record entry := by
  have hlt : slot < records.length := h.length ▸ (List.getElem?_eq_some_iff.mp hrecord).1
  exact ⟨_, List.getElem?_eq_getElem hlt, h.tracks slot record _ hrecord
    (List.getElem?_eq_getElem hlt)⟩

theorem record {entry : Record} (h : Mirrors zone records) (hentry : records[slot]? = some entry) :
    ∃ record, zone[slot]? = some record ∧ Tracks record entry := by
  have hlt : slot < zone.length := h.length ▸ (List.getElem?_eq_some_iff.mp hentry).1
  exact ⟨_, List.getElem?_eq_getElem hlt, h.tracks slot _ entry (List.getElem?_eq_getElem hlt)
    hentry⟩

theorem intended (h : Mirrors zone records) (domain : String) :
    Mirrors (zone ++ [⟨domain, none, false, false⟩]) (records ++ [⟨domain, .intended⟩]) := by
  refine ⟨by simp [h.length], fun slot record entry hrecord hentry => ?_⟩
  rcases of_getElem?_join hrecord with hrecord | ⟨hslot, rfl⟩
  · rcases of_getElem?_join hentry with hentry | ⟨hslot, rfl⟩
    · exact h.tracks slot record entry hrecord hentry
    · have := (List.getElem?_eq_some_iff.mp hrecord).1
      have := h.length
      omega
  · rcases of_getElem?_join hentry with hentry | ⟨_, rfl⟩
    · have := (List.getElem?_eq_some_iff.mp hentry).1
      have := h.length
      omega
    · exact ⟨rfl, rfl, fun _ => rfl⟩

variable {change : Record → Record}

theorem modify (h : Mirrors zone records) {learn : ZoneRecord → ZoneRecord}
    (hslot : ∀ record entry, records[slot]? = some entry → Tracks record entry →
      Tracks (learn record) (change entry)) :
    Mirrors (zone.modify slot learn) (records.modify slot change) := by
  refine ⟨by simp [h.length], fun other record entry hrecord hentry => ?_⟩
  obtain ⟨before, hbefore, rfl⟩ := of_getElem?_modify hrecord
  obtain ⟨old, hold, rfl⟩ := of_getElem?_modify hentry
  have htracks := h.tracks other before old hbefore hold
  by_cases hother : slot = other
  · subst hother
    rw [if_pos rfl, if_pos rfl]
    exact hslot before old hold htracks
  · rw [if_neg hother, if_neg hother]
    exact htracks

theorem update (h : Mirrors zone records)
    (hslot : ∀ record entry, records[slot]? = some entry → Tracks record entry →
      Tracks record (change entry)) : Mirrors zone (records.modify slot change) := by
  have hboth : Mirrors (zone.modify slot id) (records.modify slot change) := h.modify hslot
  rwa [List.modify_id] at hboth

theorem map (h : Mirrors zone records)
    (hchange : ∀ record entry, Tracks record entry → Tracks record (change entry)) :
    Mirrors zone (records.map change) := by
  refine ⟨by simp [h.length], fun slot record entry hrecord hentry => ?_⟩
  rw [List.getElem?_map] at hentry
  obtain ⟨old, hold, rfl⟩ := Option.map_eq_some_iff.mp hentry
  exact hchange record old (h.tracks slot record old hrecord hold)

theorem none_of_not_owes {register : CleanupRegister} (h : Mirrors zone register.records)
    (howes : register.owes = false) : ∀ record ∈ zone, record.mayExist = false := by
  intro record hmem
  obtain ⟨slot, hrecord⟩ := List.mem_iff_getElem?.mp hmem
  obtain ⟨entry, hentry, htracks⟩ := h.entry hrecord
  have hany := List.any_eq_false.mp howes entry (List.mem_of_getElem? hentry)
  rw [htracks.mayExist]
  simpa using hany

end Mirrors

section Tracks

variable {record : ZoneRecord} {entry : Record}

theorem Tracks.startDelete (h : Tracks record entry) :
    Tracks record { entry with state := CleanupRegister.startDelete entry.state } := by
  rcases entry with ⟨domain, _ | id | id | ⟨id, failure⟩ | _⟩ <;>
    exact ⟨h.domain, h.mayExist, h.id⟩

theorem Tracks.failDelete (failure : IntegrationFailure) (h : Tracks record entry) :
    Tracks record { entry with state := CleanupRegister.failDelete failure entry.state } := by
  rcases entry with ⟨domain, _ | id | id | ⟨id, failure⟩ | _⟩ <;>
    exact ⟨h.domain, h.mayExist, h.id⟩

theorem Tracks.expireState (h : Tracks record entry) :
    Tracks record { entry with state := CleanupRegister.expireState entry.state } := by
  rcases entry with ⟨domain, _ | id | id | ⟨id, failure⟩ | _⟩ <;>
    exact ⟨h.domain, h.mayExist, h.id⟩

theorem Tracks.deleted (h : Tracks record entry) :
    Tracks { record with deleted := true } { entry with state := .resolved } := by
  refine ⟨h.domain, ?_, fun howed => by cases howed⟩
  simp [ZoneRecord.mayExist, Record.isOwed]

theorem createAnswer_refused {outcome : CallbackOutcome String}
    (hrefusal : Order.isRefusal outcome = true) :
    (Order.createAnswer outcome record).mayExist = false := by
  cases outcome with
  | answered _ => cases hrefusal
  | panicked => cases hrefusal
  | failed error =>
    cases error with
    | untyped => cases hrefusal
    | typed error =>
      have hknown : error.retryability ≠ .outcomeUnknown ∧ error.failure ≠ .outcomeUnknown := by
        simpa [Order.isRefusal, createdNothing] using hrefusal
      simp [Order.createAnswer, ZoneRecord.mayExist, hknown.1, hknown.2]

theorem createAnswer_unknown {outcome : CallbackOutcome String} {error : IntegrationError}
    (hanswer : callbackAnswer .createTxt outcome = .error error)
    (hrefusal : Order.isRefusal outcome = false) (hfresh : record.refused = false) :
    Order.createAnswer outcome record = record := by
  cases outcome with
  | answered _ => cases hanswer
  | panicked => rfl
  | failed error =>
    cases error with
    | untyped => rfl
    | typed error =>
      have hunknown : error.retryability ≠ .outcomeUnknown → error.failure = .outcomeUnknown := by
        simpa [Order.isRefusal, createdNothing] using hrefusal
      have hnot : ¬(error.failure ≠ .outcomeUnknown ∧ error.retryability ≠ .outcomeUnknown) :=
        fun hknown => hknown.1 (hunknown hknown.2)
      simp only [Order.createAnswer, decide_eq_false hnot]
      rcases record with ⟨domain, id, refused, deleted⟩
      obtain rfl : refused = false := hfresh
      rfl

theorem createAnswer_domain (outcome : CallbackOutcome String) (record : ZoneRecord) :
    (Order.createAnswer outcome record).domain = record.domain := by
  rcases outcome with _ | (_ | _) | _ <;> rfl

theorem Tracks.refused_of_owed (h : Tracks record entry) (howed : entry.isOwed = true) :
    record.refused = false := by
  have hmay := h.mayExist
  rw [howed] at hmay
  simpa using (Bool.and_eq_true_iff.mp hmay).1

end Tracks

structure Pending (records : List Record) (todo : List (ℕ × String)) : Prop where
  nodup : (todo.map Prod.fst).Nodup
  created : ∀ slot id, (slot, id) ∈ todo →
    ∃ entry, records[slot]? = some entry ∧ entry.state = .created id

def StageHolds (register : CleanupRegister) : Stage → Prop
  | .preparing | .opening | .challenging | .finalizing | .dropped | .settling _ => True
  | .creating slot => ∃ entry, register.records[slot]? = some entry ∧ entry.state = .intended
  | .cleaning _ todo => Pending register.records todo
  | .deleting _ slot todo => slot ∉ todo.map Prod.fst ∧ Pending register.records todo
  | .publishing _ | .returned (.ok _) => register.owes = false
  | .returned (.error _) => True

structure Accounted (order : Order) : Prop where
  mirrors : Mirrors order.zone order.register.records
  bounded : order.register.records.length ≤ maxCleanupItems
  stage : StageHolds order.register order.stage
  deletes : ∀ id ∈ order.deletes, ∃ record ∈ order.zone, record.id = some id
  published : order.published = true → order.register.owes = false ∧
    ∃ result, order.stage = .returned result

theorem mem_created {register : CleanupRegister} {slot : ℕ} {id : String}
    (h : (slot, id) ∈ register.created) :
    ∃ entry, register.records[slot]? = some entry ∧ entry.state = .created id := by
  obtain ⟨⟨entry, index⟩, hmem, hstate⟩ := List.mem_filterMap.mp h
  have hentry := List.mem_zipIdx_iff_getElem?.mp hmem
  dsimp only at hstate hentry
  split at hstate
  next id hcreated =>
    cases hstate
    exact ⟨entry, hentry, hcreated⟩
  · cases hstate

theorem pending_created (register : CleanupRegister) :
    Pending register.records register.created := by
  refine ⟨?_, fun slot id => mem_created⟩
  -- the slots are a sublist of all positions
  have hsub : (register.created.map Prod.fst).Sublist
      (register.records.zipIdx.map Prod.snd) := by
    unfold CleanupRegister.created
    induction register.records.zipIdx with
    | nil => exact .slnil
    | cons head rest ih =>
      obtain ⟨entry, index⟩ := head
      rw [List.filterMap_cons]
      dsimp only
      split
      next hnone => exact ih.cons _
      next pair hsome =>
        split at hsome
        · cases hsome
          exact ih.cons_cons _
        · cases hsome
  refine hsub.nodup ?_
  rw [List.zipIdx_map_snd]
  exact List.nodup_range'

namespace Pending

variable {records : List Record} {slot : ℕ} {id : String} {todo : List (ℕ × String)}

theorem tail (h : Pending records ((slot, id) :: todo)) :
    slot ∉ todo.map Prod.fst ∧ Pending records todo := by
  have hnodup := List.nodup_cons.mp h.nodup
  exact ⟨hnodup.1, hnodup.2, fun slot' id' hmem =>
    h.created slot' id' (List.mem_cons_of_mem _ hmem)⟩

theorem modify (h : Pending records todo) (hslot : slot ∉ todo.map Prod.fst)
    (change : Record → Record) : Pending (records.modify slot change) todo := by
  refine ⟨h.nodup, fun slot' id' hmem => ?_⟩
  have hne : slot ≠ slot' := by
    rintro rfl
    exact hslot (List.mem_map.mpr ⟨_, hmem, rfl⟩)
  rw [getElem?_modify_ne hne]
  exact h.created slot' id' hmem

end Pending

namespace Accounted

variable {order : Order}

theorem new (operation : IntegrationOperation) : Accounted (Order.new operation) where
  mirrors := ⟨rfl, fun slot record entry hrecord => by cases hrecord⟩
  bounded := Nat.zero_le _
  stage := trivial
  deletes := fun _ hmem => by cases hmem
  published := fun hpublished => by cases hpublished

theorem restage (h : Accounted order) (hwaits : order.published = false) {stage : Stage}
    (hstage : StageHolds order.register stage) : Accounted { order with stage := stage } :=
  { h with
    stage := hstage
    published := fun hpublished => by rw [hwaits] at hpublished; cases hpublished }

theorem cleanUp (h : Accounted order) (hwaits : order.published = false)
    (issued : Except IntegrationError Certificate) : Accounted (order.cleanUp issued) :=
  h.restage hwaits (pending_created order.register)

theorem createRecord (h : Accounted order) (hwaits : order.published = false)
    (domain : String) : Accounted (order.createRecord domain) := by
  unfold Order.createRecord intend
  by_cases hroom : order.register.records.length < maxCleanupItems
  · rw [if_pos hroom]
    exact
      { mirrors := h.mirrors.intended domain
        bounded := by simpa using hroom
        stage := ⟨_, getElem?_join_length, rfl⟩
        deletes := fun id hmem => by
          obtain ⟨record, hrecord, hid⟩ := h.deletes id hmem
          exact ⟨record, List.mem_append_left _ hrecord, hid⟩
        published := fun hpublished => by rw [hwaits] at hpublished; cases hpublished }
  · rw [if_neg hroom]
    exact h.cleanUp hwaits _

variable {slot : ℕ}

section

variable (h : Accounted order)

include h

theorem learn (hwaits : order.published = false) {answer : ZoneRecord → ZoneRecord}
    {change : RecordState → RecordState} {stage : Stage} (hslot : ∀ record entry,
      order.register.records[slot]? = some entry → Tracks record entry → Tracks (answer record) {
      entry with state := change entry.state }) (hid : ∀ record id, order.zone[slot]? = some record
      → record.id = some id → (answer record).id = some id)
    (hstage : StageHolds (order.register.update slot change) stage) :
    Accounted { order with
      stage := stage
      register := order.register.update slot change
      zone := order.zone.modify slot answer } where
  mirrors := h.mirrors.modify hslot
  bounded := by
    rw [CleanupRegister.update, List.length_modify]
    exact h.bounded
  stage := hstage
  deletes := fun id hmem => by
    obtain ⟨record, hrecord, hknown⟩ := h.deletes id hmem
    obtain ⟨other, hother⟩ := List.mem_iff_getElem?.mp hrecord
    by_cases heq : slot = other
    · subst heq
      exact ⟨_, List.mem_of_getElem? (getElem?_modify_self hother),
        hid record id hother hknown⟩
    · rw [← getElem?_modify_ne heq] at hother
      exact ⟨record, List.mem_of_getElem? hother, hknown⟩
  published := fun hpublished => by rw [hwaits] at hpublished; cases hpublished

theorem created (hwaits : order.published = false) (hstage : order.stage = .creating slot)
    (outcome : CallbackOutcome String) : Accounted (order.created slot outcome) := by
  obtain ⟨entry, hentry, hintended⟩ : StageHolds order.register (.creating slot) :=
    hstage ▸ h.stage
  have howed : entry.isOwed = true := by simp [Record.isOwed, hintended]
  -- the record's identity is not known yet, and nothing was refused
  have hfresh : ∀ record, order.zone[slot]? = some record →
      record.id = none ∧ record.refused = false := by
    intro record hrecord
    have htracks := h.mirrors.tracks slot record entry hrecord hentry
    refine ⟨?_, htracks.refused_of_owed howed⟩
    rw [htracks.id howed, hintended]
    rfl
  have hid : ∀ record id, order.zone[slot]? = some record → record.id = some id →
      (Order.createAnswer outcome record).id = some id := by
    intro record id hrecord hknown
    rw [(hfresh record hrecord).1] at hknown
    cases hknown
  unfold Order.created
  dsimp only
  split
  next id hanswer =>
    obtain rfl : outcome = .answered id := by
      cases outcome with
      | answered id' => cases hanswer; rfl
      | failed error => cases hanswer
      | panicked => cases hanswer
    refine h.learn hwaits (fun record entry' hentry' htracks => ?_) hid trivial
    obtain rfl : entry = entry' := Option.some.inj (hentry.symm.trans hentry')
    refine ⟨htracks.domain, ?_, fun _ => rfl⟩
    exact htracks.mayExist.trans howed
  next error hanswer hrefusal =>
    have hresolved : Accounted { order with
        stage := .finalizing
        register := order.register.resolve slot
        zone := order.zone.modify slot (Order.createAnswer outcome) } := by
      refine h.learn hwaits (fun record entry' _ htracks => ?_) hid trivial
      refine ⟨?_, createAnswer_refused hrefusal, fun howed' => by cases howed'⟩
      rw [createAnswer_domain]
      exact htracks.domain
    exact hresolved.cleanUp hwaits _
  next error hanswer hrefusal =>
    rw [modify_same fun record hrecord =>
      createAnswer_unknown hanswer hrefusal (hfresh record hrecord).2]
    exact h.cleanUp hwaits _

theorem deleteNext (hwaits : order.published = false) {issued : Except IntegrationError Certificate}
    {todo : List (ℕ × String)} (hstage : order.stage = .cleaning issued todo) :
    Accounted (order.deleteNext issued todo) := by
  have hpending : Pending order.register.records todo := by
    have hholds := h.stage
    rwa [hstage] at hholds
  cases todo with
  | nil => exact h.restage hwaits trivial
  | cons head todo =>
    obtain ⟨slot, id⟩ := head
    obtain ⟨hnot, htail⟩ := hpending.tail
    obtain ⟨entry, hentry, hcreated⟩ := hpending.created slot id (List.mem_cons_self ..)
    obtain ⟨record, hrecord, htracks⟩ := h.mirrors.record hentry
    have hacknowledged : record.id = some id := by
      rw [htracks.id (by simp [Record.isOwed, hcreated]), hcreated]
      rfl
    exact
      { mirrors := h.mirrors.update fun _ _ _ htracks => htracks.startDelete
        bounded := by
          rw [Order.deleteNext, deleting, CleanupRegister.update,
            List.length_modify]
          exact h.bounded
        stage := ⟨hnot, htail.modify hnot _⟩
        deletes := fun sent hmem => by
          rcases List.mem_append.mp hmem with hmem | hmem
          · exact h.deletes sent hmem
          · obtain rfl := List.mem_singleton.mp hmem
            exact ⟨record, List.mem_of_getElem? hrecord, hacknowledged⟩
        published := fun hpublished => by
          rw [Order.deleteNext, hwaits] at hpublished; cases hpublished }

theorem deleted (hwaits : order.published = false) {issued : Except IntegrationError Certificate}
    {todo : List (ℕ × String)} (hstage : order.stage = .deleting issued slot todo)
    (outcome : CallbackOutcome Unit) : Accounted (order.deleted issued slot todo outcome) := by
  obtain ⟨hnot, hpending⟩ : StageHolds order.register (.deleting issued slot todo) :=
    hstage ▸ h.stage
  unfold Order.deleted
  split
  · exact h.learn hwaits (fun _ _ _ htracks => htracks.deleted) (fun _ _ _ hid => hid)
      (hpending.modify hnot _)
  next error _ =>
    exact
      { h with
        mirrors := h.mirrors.update fun _ _ _ htracks => htracks.failDelete error.failure
        bounded := by
          rw [failed, CleanupRegister.update, List.length_modify]
          exact h.bounded
        stage := hpending.modify hnot _
        published := fun hpublished => by rw [hwaits] at hpublished; cases hpublished }

theorem expired (hwaits : order.published = false) (issued : Except IntegrationError Certificate) :
    Accounted (order.expired issued) :=
  { h with
    mirrors := h.mirrors.map fun _ _ htracks => htracks.expireState
    bounded := by
      rw [Order.expired, expire, List.length_map]
      exact h.bounded
    stage := trivial
    published := fun hpublished => by rw [Order.expired, hwaits] at hpublished; cases hpublished }

theorem settled (hwaits : order.published = false) (issued : Except IntegrationError Certificate) :
    Accounted (order.settled issued) := by
  unfold Order.settled Order.settle
  cases hincomplete : order.register.incomplete with
  | some incomplete => exact h.restage hwaits trivial
  | none =>
    have howes : order.register.owes = false := by
      rw [← incomplete_isSome, hincomplete]
      rfl
    cases issued with
    | ok certificate => exact h.restage hwaits howes
    | error error => exact h.restage hwaits trivial

theorem publish (hwaits : order.published = false) {certificate : Certificate}
    (hstage : order.stage = .publishing certificate) (publication : Publication) :
    Accounted (order.publish certificate publication) := by
  have howes : order.register.owes = false := by
    have hholds := h.stage
    rwa [hstage] at hholds
  cases publication with
  | invalid error => exact h.restage hwaits trivial
  | unwritten error =>
    exact { h with stage := trivial, published := fun _ => ⟨howes, _, rfl⟩ }
  | written =>
    exact { h with stage := howes, published := fun _ => ⟨howes, _, rfl⟩ }

theorem waits_of_next {action : Order.Action} {after : Order}
    (hnext : order.next action = some after) : order.published = false := by
  cases hpublished : order.published with
  | false => rfl
  | true =>
    obtain ⟨_, result, hstage⟩ := h.published hpublished
    cases action <;> simp [Order.next, hstage] at hnext

theorem next {action : Order.Action} {after : Order} (hnext : order.next action = some after) :
    Accounted after := by
  have hwaits := h.waits_of_next hnext
  cases action with
  | prepared result | opened result =>
    simp only [Order.next] at hnext
    split at hnext <;> cases hnext <;> exact h.restage hwaits trivial
  | authorized domain =>
    simp only [Order.next] at hnext
    split at hnext <;> cases hnext
    next domain _ => exact h.createRecord hwaits domain
    · exact h.restage hwaits trivial
  | exchangeFailed error =>
    simp only [Order.next] at hnext
    split at hnext <;> cases hnext <;> exact h.cleanUp hwaits (.error error)
  | created outcome =>
    simp only [Order.next] at hnext
    split at hnext <;> cases hnext
    next slot hstage => exact h.created hwaits hstage outcome
  | finalized result =>
    simp only [Order.next] at hnext
    split at hnext <;> cases hnext
    exact h.cleanUp hwaits result
  | deleteNext =>
    simp only [Order.next] at hnext
    split at hnext <;> cases hnext
    next issued todo hstage => exact h.deleteNext hwaits hstage
  | deleted outcome =>
    simp only [Order.next] at hnext
    split at hnext <;> cases hnext
    next issued slot todo hstage => exact h.deleted hwaits hstage outcome
  | expired =>
    simp only [Order.next] at hnext
    split at hnext <;> cases hnext <;> exact h.expired hwaits _
  | settled =>
    simp only [Order.next] at hnext
    split at hnext <;> cases hnext
    exact h.settled hwaits _
  | publish publication =>
    simp only [Order.next] at hnext
    split at hnext <;> cases hnext
    next certificate hstage => exact h.publish hwaits hstage publication
  | dropped =>
    simp only [Order.next] at hnext
    split at hnext <;> cases hnext
    exact h.restage hwaits trivial

end

theorem of_runs {operation : IntegrationOperation} {trace : List Order.Action}
    (run : Runs Order.Steps (Order.new operation) trace order) : Accounted order := by
  induction run with
  | nil => exact new operation
  | snoc _ step ih =>
    obtain ⟨hready, rfl⟩ := step
    exact ih.next (Order.next_of_ready hready)

theorem named (h : Accounted order) {record : ZoneRecord} (hmem : record ∈ order.zone)
    (hmay : record.mayExist = true) :
    ∃ error, order.register.incomplete = some error ∧
      ∃ item ∈ error.cleanup, item.domain = record.domain ∧ item.recordId = record.id := by
  obtain ⟨slot, hrecord⟩ := List.mem_iff_getElem?.mp hmem
  obtain ⟨entry, hentry, htracks⟩ := h.mirrors.entry hrecord
  have howed : entry.isOwed = true := htracks.mayExist ▸ hmay
  have hmember := List.mem_of_getElem? hentry
  have howes : order.register.owes = true := List.any_eq_true.mpr ⟨entry, hmember, howed⟩
  obtain ⟨error, herror⟩ : ∃ error, order.register.incomplete = some error :=
    Option.isSome_iff_exists.mp ((incomplete_isSome _).trans howes)
  obtain ⟨item, hitem⟩ : ∃ item, entry.unresolved = some item :=
    Option.isSome_iff_exists.mp (entry.unresolved_isSome.trans howed)
  refine ⟨error, herror, item, ?_, ?_⟩
  · rw [(incomplete_eq_some herror).2, List.take_of_length_le]
    · exact List.mem_filterMap.mpr ⟨entry, hmember, hitem⟩
    · exact (List.length_filterMap_le _ _).trans h.bounded
  · rw [htracks.id howed, ← htracks.domain]
    rcases entry with ⟨domain, _ | id | id | ⟨id, failure⟩ | _⟩ <;> cases hitem <;>
      exact ⟨rfl, rfl⟩

end Accounted

/-- Whatever the provider and the directory answer, and wherever the order is stopped, timed out or
dropped: every record that may still exist is named in the register's account, with the identity the
provider acknowledged if it did; deletes were sent for acknowledged identities only; and an order
that succeeded, or that handed a certificate to the cache, owes no record. -/
theorem register_names_zone (operation : IntegrationOperation) {trace : List Order.Action}
    {order : Order} (run : Runs Order.Steps (Order.new operation) trace order) :
    (∀ record ∈ order.zone, record.mayExist = true →
      ∃ error, order.register.incomplete = some error ∧
        ∃ item ∈ error.cleanup, item.domain = record.domain ∧ item.recordId = record.id) ∧
    (∀ id ∈ order.deletes, ∃ record ∈ order.zone, record.id = some id) ∧
    ((order.published = true ∨ ∃ certificate, order.stage = .returned (.ok certificate)) →
      order.register.owes = false ∧ ∀ record ∈ order.zone, record.mayExist = false) := by
  have haccounted := Accounted.of_runs run
  refine ⟨fun record hmem hmay => haccounted.named hmem hmay, haccounted.deletes, ?_⟩
  intro hended
  have howes : order.register.owes = false := by
    rcases hended with hpublished | ⟨certificate, hstage⟩
    · exact (haccounted.published hpublished).1
    · have hholds := haccounted.stage
      rwa [hstage] at hholds
  exact ⟨howes, haccounted.mirrors.none_of_not_owes howes⟩

def sampleTrace : List Order.Action :=
  [.prepared (.ok ()), .opened (.ok ()), .authorized (some "a.example"),
    .created (.answered "r1"), .authorized (some "b.example"),
    .exchangeFailed (failure .provision .cancelled .outcomeUnknown), .deleteNext,
    .deleted (.failed .untyped), .deleteNext, .settled]

theorem register_names_zone_sampleTrace :
    let order := replay Order.act (Order.new .provision) sampleTrace
    (order.zone = [⟨"a.example", some "r1", false, false⟩, ⟨"b.example", none, false, false⟩] ∧
      order.deletes = ["r1"]) ∧
    ∀ record ∈ order.zone, record.mayExist = true →
      ∃ error, order.register.incomplete = some error ∧
        ∃ item ∈ error.cleanup, item.domain = record.domain ∧ item.recordId = record.id := by
  have hready : ReadyAll Order.Ready Order.act (Order.new .provision) sampleTrace := by
    decide
  refine ⟨by decide, ?_⟩
  exact (register_names_zone .provision (runs_replay hready)).1

end Camber.Dns01
