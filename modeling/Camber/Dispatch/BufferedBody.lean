import Camber.Dispatch.Classify
import Camber.Lib.Text
import Camber.Proxy.Answer

/-! A matched route's plan decides how much payload may be read before a frame is polled. -/

namespace Camber.Dispatch
open Str Routing Http
open Inbound (InboundRead InboundTerminal InboundReady InboundGuard InboundFailure OperationEnvelope
  Reader ReaderTurn WireRead BodyBudget)
open Proxy (BodyGrant BodyPermit OperationCommitment ResponseCommit)

namespace RequestHead

def declaredLength (head : RequestHead) : Option ℕ :=
  (headerStr head.headers "content-length".toList).bind fun declared =>
    Decimal.parseU64 (trim declared)

def undecodableTransferCoding (head : RequestHead) : Option Text :=
  (headerStr head.headers "transfer-encoding".toList).bind fun declared =>
    if (declared.splitOn ',').all fun coding => eqIgnoreAsciiCase (trim coding) "chunked".toList then
      none
    else some declared

end RequestHead

structure BodyAdmissionContext where
  method : Text
  rawPath : Text
  route : Text
  mode : RequestBodyMode
  declaredLength : Option ℕ
  head : RequestHead

def BodyAdmissionContext.new (head : RequestHead) (route : Text) (mode : RequestBodyMode)
    (declaredLength : Option ℕ) : BodyAdmissionContext where
  method := head.method.asStr
  rawPath := head.path
  route := route
  mode := mode
  declaredLength := declaredLength
  head := head

structure BodyAdmission where
  maxBytes : ℕ
  permit : Option BodyPermit

inductive PolicyCall (E : Type) where
  | admits (admission : BodyAdmission)
  | refuses (error : E)
  | panics (payload : E)

abbrev BodyPolicy (E : Type) := BodyAdmissionContext → PolicyCall E

/-- The refusals body admission answers with. -/
inductive AdmissionRefusal (E : Type) where
  | undecodableTransferCoding (coding : Text)
  | bodyTooLarge (limit : ℕ)
  | bodyAdmissionRefused (error : E)
  | bodyAdmissionPanicked (payload : E)
deriving DecidableEq

section Admission

variable {E : Type}

def runPolicy (policy : BodyPolicy E) (context : BodyAdmissionContext) :
    Except (AdmissionRefusal E) BodyAdmission :=
  match policy context with
  | .admits admission => .ok admission
  | .refuses error => .error (.bodyAdmissionRefused error)
  | .panics payload => .error (.bodyAdmissionPanicked payload)

def declaredLengthExceedsLimit (declared limit : ℕ) : Bool :=
  (if limit < 2 ^ 64 then limit else 2 ^ 64 - 1) < declared

def declaresOver (declared : Option ℕ) (limit : ℕ) : Bool :=
  declared.any fun stated => declaredLengthExceedsLimit stated limit

def admitUnderPolicy (plan : ResolvedBodyPlan (BodyPolicy E)) (head : RequestHead)
    (declared : Option ℕ) : Except (AdmissionRefusal E) BodyGrant :=
  match plan.policy with
  | none => .ok ⟨plan.ceiling, none⟩
  | some policy =>
    (runPolicy policy (.new head plan.route plan.mode declared)).bind fun admission =>
      let limit := min admission.maxBytes plan.ceiling
      if declaresOver declared limit then .error (.bodyTooLarge limit)
      else .ok ⟨limit, admission.permit⟩

def admitDeclared (plan : ResolvedBodyPlan (BodyPolicy E)) (head : RequestHead) :
    Except (AdmissionRefusal E) BodyGrant :=
  let declared := head.declaredLength
  if declaresOver declared plan.ceiling then .error (.bodyTooLarge plan.ceiling)
  else admitUnderPolicy plan head declared

def admitBody (plan : ResolvedBodyPlan (BodyPolicy E)) (head : RequestHead) :
    Except (AdmissionRefusal E) BodyGrant :=
  match head.undecodableTransferCoding with
  | some coding => .error (.undecodableTransferCoding coding)
  | none => admitDeclared plan head

end Admission

structure BufferedRead where
  reader : Reader
  commitment : OperationCommitment
  took : Option InboundTerminal

inductive ReadEvent where
  | turn (turn : ReaderTurn)
  | other (attempt : ResponseCommit)

namespace BufferedRead

def start (operation : OperationEnvelope) (grant : BodyGrant) (commitment : OperationCommitment)
    (now : ℕ) : BufferedRead where
  reader := .retainWithinBudget operation grant.limit now
  commitment := commitment
  took := none

def meet (s : BufferedRead) (turn : ReaderTurn) : ReaderTurn :=
  { turn with cellFree := s.commitment.committed.isNone }

def attempt (s : BufferedRead) (selected : Option InboundTerminal) : BufferedRead :=
  match selected with
  | none | some .responseHead => s
  | some ended =>
    match s.commitment.commitCause ended with
    | (.ok _, commitment) => { s with commitment := commitment, took := some ended }
    | (.error _, commitment) => { s with commitment := commitment }

def step (operation : OperationEnvelope) (s : BufferedRead) : ReadEvent → BufferedRead
  | .turn turn =>
    match s.reader with
    | .returned _ => s
    | .reading read =>
      { s.attempt (read.selected (s.meet turn)) with
        reader := .settle operation read (s.meet turn) }
  | .other attempt => { s with commitment := (s.commitment.commit attempt).2 }

def after (operation : OperationEnvelope) (s : BufferedRead) (events : List ReadEvent) :
    BufferedRead :=
  events.foldl (step operation) s

def retained (s : BufferedRead) : Bytes :=
  match s.reader with
  | .reading read => read.retained
  | .returned (.ok bytes) => bytes
  | .returned (.error _) => []

end BufferedRead

def collectBodyLimited {E : Type} (plan : ResolvedBodyPlan (BodyPolicy E)) (head : RequestHead)
    (operation : OperationEnvelope) (commitment : OperationCommitment) (now : ℕ) :
    Except (AdmissionRefusal E) BufferedRead :=
  (admitBody plan head).map fun grant => .start operation grant commitment now

def turnsOf (events : List ReadEvent) : List ReaderTurn :=
  events.filterMap fun
    | .turn turn => some turn
    | .other _ => none

def dataOf (turns : List ReaderTurn) : Bytes :=
  turns.flatMap fun turn =>
    match turn.wire with
    | some (.data bytes) => bytes
    | some .end_ | some (.failed _) | some .trailers | none => []

def NoneSelected (read : InboundRead) : List ReaderTurn → Prop
  | [] => True
  | turn :: rest => read.selected turn = none ∧ NoneSelected (read.advance turn).2 rest

def EndsWire (turn : ReaderTurn) : Prop :=
  turn.wire = some .end_ ∧ turn.shared.terminating = false ∧ turn.shared.disconnected = false

/-- The wire ends in one of the turns, no turn before it selects a terminal, and the bytes are what
was held with the payload of all data frames up to there. -/
def Completes (read : InboundRead) (turns : List ReaderTurn) (bytes : Bytes) : Prop :=
  ∃ before last rest, turns = before ++ last :: rest ∧ NoneSelected read before ∧ EndsWire last ∧
    bytes = read.retained ++ dataOf before

section Grant

variable {E : Type} {plan : ResolvedBodyPlan (BodyPolicy E)} {head : RequestHead}

theorem le_of_not_declaresOver {declared : Option ℕ} {limit stated : ℕ}
    (h : declaresOver declared limit = false) (hstated : declared = some stated) :
    stated ≤ limit := by
  subst hstated
  have hle : ¬ (if limit < 2 ^ 64 then limit else 2 ^ 64 - 1) < stated := by
    simpa [declaresOver, declaredLengthExceedsLimit] using h
  split_ifs at hle <;> omega

inductive Granted (plan : ResolvedBodyPlan (BodyPolicy E)) (head : RequestHead) : BodyGrant → Prop
  | ceiling (hpolicy : plan.policy = none)
      (hdeclared : declaresOver head.declaredLength plan.ceiling = false) :
      Granted plan head ⟨plan.ceiling, none⟩
  | policy (policy : BodyPolicy E) (admission : BodyAdmission) (hpolicy : plan.policy = some policy)
      (hadmits : policy (.new head plan.route plan.mode head.declaredLength) = .admits admission)
      (hdeclared :
        declaresOver head.declaredLength (min admission.maxBytes plan.ceiling) = false) :
      Granted plan head ⟨min admission.maxBytes plan.ceiling, admission.permit⟩

variable {grant : BodyGrant}

theorem granted_of_admitBody (h : admitBody plan head = .ok grant) : Granted plan head grant := by
  unfold admitBody at h
  split at h
  · cases h
  unfold admitDeclared at h
  dsimp only at h
  split_ifs at h with hover
  unfold admitUnderPolicy at h
  split at h
  · next hnone =>
    obtain rfl := Except.ok.inj h
    exact .ceiling hnone (by simpa using hover)
  · next policy hsome =>
    unfold runPolicy at h
    cases hcall : policy (.new head plan.route plan.mode head.declaredLength) with
    | refuses error => rw [hcall] at h; cases h
    | panics payload => rw [hcall] at h; cases h
    | admits admission =>
      rw [hcall] at h
      simp only [Except.bind] at h
      split_ifs at h with hover'
      obtain rfl := Except.ok.inj h
      exact .policy policy admission hsome hcall (by simpa using hover')

inductive Ceiling (plan : ResolvedBodyPlan (BodyPolicy E)) (head : RequestHead) : ℕ → Prop
  | configured : Ceiling plan head plan.ceiling
  | selected (policy : BodyPolicy E) (admission : BodyAdmission) (hpolicy : plan.policy = some policy)
      (hadmits : policy (.new head plan.route plan.mode head.declaredLength) = .admits admission) :
      Ceiling plan head admission.maxBytes

theorem Granted.limit_le {ceiling : ℕ} (h : Granted plan head grant)
    (hceiling : Ceiling plan head ceiling) : grant.limit ≤ ceiling := by
  cases h with
  | ceiling hnone =>
    cases hceiling with
    | configured => exact le_rfl
    | selected policy _ hpolicy => rw [hnone] at hpolicy; cases hpolicy
  | policy policy admission hpolicy hadmits =>
    cases hceiling with
    | configured => exact min_le_right _ _
    | selected policy' admission' hpolicy' hadmits' =>
      obtain rfl : policy = policy' := Option.some.inj (hpolicy.symm.trans hpolicy')
      obtain rfl : admission = admission' := PolicyCall.admits.inj (hadmits.symm.trans hadmits')
      exact min_le_left _ _

theorem Granted.declared_le {stated : ℕ} (h : Granted plan head grant)
    (hstated : head.declaredLength = some stated) : stated ≤ grant.limit := by
  cases h with
  | ceiling _ hdeclared => exact le_of_not_declaresOver hdeclared hstated
  | policy _ _ _ _ hdeclared => exact le_of_not_declaresOver hdeclared hstated

end Grant

structure Within (limit : ℕ) (read : InboundRead) : Prop where
  limit_eq : read.budget.limit = limit
  counted : read.budget.observed = read.retained.length
  bounded : read.retained.length ≤ limit

variable {read : InboundRead}

theorem Within.advance {limit : ℕ} (h : Within limit read) (turn : ReaderTurn) :
    Within limit (read.advance turn).2 := by
  unfold InboundRead.advance
  rcases turn with ⟨_ | frame, observed, delivered, shared, cellFree⟩
  · exact ⟨h.limit_eq, h.counted, h.bounded⟩
  · cases frame with
    | end_ | failed | trailers => exact ⟨h.limit_eq, h.counted, h.bounded⟩
    | data data =>
      by_cases hadmits : read.budget.Admits data.length
      · have hfits : read.retained.length + data.length ≤ limit := by
          have hle := (le_min_iff.mp hadmits).1
          rwa [h.counted, h.limit_eq] at hle
        simp only [InboundRead.fold, BodyBudget.admitFrame_ok hadmits]
        exact ⟨h.limit_eq, by simp [h.counted], by simpa using hfits⟩
      · simp only [InboundRead.fold, BodyBudget.admitFrame_error hadmits]
        exact ⟨h.limit_eq, h.counted, h.bounded⟩

theorem retained_advance {turn : ReaderTurn} (h : read.selected turn = none) :
    (read.advance turn).2.retained = read.retained ++ dataOf [turn] := by
  unfold InboundRead.selected InboundRead.advance at h
  unfold InboundRead.advance
  rcases turn with ⟨_ | frame, observed, delivered, shared, cellFree⟩
  · simp [dataOf]
  · cases frame with
    | end_ | failed | trailers => simp [dataOf, InboundRead.fold]
    | data data =>
      by_cases hadmits : read.budget.Admits data.length
      · simp [dataOf, InboundRead.fold, BodyBudget.admitFrame_ok hadmits]
      · -- a frame past the limit is a terminal of its turn
        simp only [InboundRead.fold, BodyBudget.admitFrame_error hadmits] at h
        have hlimit := InboundReady.firstReady_eq_none.mp h .routeBodyLimit
        simp [InboundReady.withRouteBodyLimit] at hlimit

theorem firstReady_end (guard : InboundGuard) (shared : Inbound.Shared) (now : ℕ) :
    (guard.observed shared now).1.withResponseHead.firstReady =
      if shared.terminating || shared.disconnected then some .disconnect
      else some .responseHead := by
  unfold InboundGuard.observed
  cases hend : shared.terminating || shared.disconnected <;>
    simp [InboundReady.firstReady, InboundReady.ownRead, InboundReady.withResponseHead,
      InboundReady.withLocal, InboundReady.holds, List.find?]

theorem not_responseHead (ready : InboundReady) (h : ready.holds .responseHead = false) :
    ready.firstReady ≠ some .responseHead := by
  intro hfirst
  rw [InboundReady.firstReady_holds hfirst] at h
  cases h

theorem selected_eq_responseHead_iff {turn : ReaderTurn} :
    read.selected turn = some .responseHead ↔ EndsWire turn := by
  have hcarried : (read.guard.observed turn.shared turn.observed).1.holds .responseHead = false :=
    rfl
  unfold InboundRead.selected InboundRead.advance EndsWire
  rcases turn with ⟨_ | frame, observed, delivered, shared, cellFree⟩
  · simpa using not_responseHead _ hcarried
  · cases frame with
    | end_ =>
      simp only [InboundRead.fold, firstReady_end]
      cases shared.terminating <;> cases shared.disconnected <;> simp
    | failed error =>
      have hnot := not_responseHead (read.guard.observed shared observed).1.withSourceFailure rfl
      simpa [InboundRead.fold] using hnot
    | trailers => simpa [InboundRead.fold] using not_responseHead _ hcarried
    | data data =>
      by_cases hadmits : read.budget.Admits data.length
      · simpa [InboundRead.fold, BodyBudget.admitFrame_ok hadmits] using not_responseHead _ hcarried
      · have hnot := not_responseHead (read.guard.observed shared observed).1.withRouteBodyLimit rfl
        simpa [InboundRead.fold, BodyBudget.admitFrame_error hadmits] using hnot

theorem settle_cases (operation : OperationEnvelope) (read : InboundRead) (turn : ReaderTurn) :
    (read.selected turn = none ∧
      Reader.settle operation read turn = .reading (read.advance turn).2) ∨
    (read.selected turn = some .responseHead ∧
      Reader.settle operation read turn = .returned (.ok (read.advance turn).2.retained)) ∨
    ∃ ended, ended ≠ .responseHead ∧ read.selected turn = some ended ∧
      Reader.settle operation read turn =
        .returned (.error (if turn.cellFree then
          .ofTerminal ended operation.budgets.request (read.advance turn).1.2
          else .silent ended)) := by
  unfold Reader.settle InboundRead.selected
  cases hfirst : (read.advance turn).1.1.firstReady with
  | none => exact .inl ⟨rfl, by simp only [hfirst]⟩
  | some ended =>
    by_cases hended : ended = .responseHead
    · subst hended
      exact .inr (.inl ⟨rfl, by simp only [hfirst]⟩)
    · refine .inr (.inr ⟨ended, hended, rfl, ?_⟩)
      cases ended with
      | responseHead => exact absurd rfl hended
      | _ => simp only [hfirst]

theorem dataOf_cons (turn : ReaderTurn) (turns : List ReaderTurn) :
    dataOf (turn :: turns) = dataOf [turn] ++ dataOf turns := by
  simp [dataOf]

theorem not_completes_nil {bytes : Bytes} : ¬ Completes read [] bytes := by
  rintro ⟨before, last, rest, hturns, _⟩
  cases before <;> cases hturns

theorem completes_cons {turn : ReaderTurn} {turns : List ReaderTurn} {bytes : Bytes} :
    Completes read (turn :: turns) bytes ↔
      EndsWire turn ∧ bytes = read.retained ∨
        read.selected turn = none ∧ Completes (read.advance turn).2 turns bytes := by
  constructor
  · rintro ⟨before, last, rest, hturns, hnone, hlast, rfl⟩
    cases before with
    | nil =>
      obtain ⟨rfl, rfl⟩ := List.cons.inj hturns
      exact .inl ⟨hlast, by simp [dataOf]⟩
    | cons first before =>
      obtain ⟨rfl, rfl⟩ := List.cons.inj hturns
      obtain ⟨hfirst, hnone⟩ := hnone
      refine .inr ⟨hfirst, before, last, rest, rfl, hnone, hlast, ?_⟩
      rw [retained_advance hfirst, dataOf_cons, List.append_assoc]
  · rintro (⟨hlast, rfl⟩ | ⟨hfirst, before, last, rest, rfl, hnone, hlast, rfl⟩)
    · exact ⟨[], turn, turns, rfl, trivial, hlast, by simp [dataOf]⟩
    · refine ⟨turn :: before, last, rest, rfl, ⟨hfirst, hnone⟩, hlast, ?_⟩
      rw [retained_advance hfirst, dataOf_cons turn before, List.append_assoc]

namespace BufferedRead

variable {s : BufferedRead}

variable {read : InboundRead} {limit : ℕ}

theorem step_turn (operation : OperationEnvelope) (h : s.reader = .reading read) (turn : ReaderTurn) :
    (s.step operation (.turn turn)).reader = .settle operation read (s.meet turn) := by
  simp only [step, h]

theorem step_returned (operation : OperationEnvelope) {answer : Except InboundFailure Bytes}
    (h : s.reader = .returned answer) (event : ReadEvent) :
    (s.step operation event).reader = .returned answer := by
  cases event with
  | turn turn => simp only [step, h]
  | other attempt => exact h

theorem after_returned (operation : OperationEnvelope) {answer : Except InboundFailure Bytes}
    (h : s.reader = .returned answer) (events : List ReadEvent) :
    (s.after operation events).reader = .returned answer := by
  induction events generalizing s with
  | nil => exact h
  | cons event events ih => exact ih (step_returned operation h event)

theorem retained_advance_end {turn : ReaderTurn} (h : EndsWire turn) :
    (read.advance turn).2.retained = read.retained := by
  unfold InboundRead.advance
  rw [h.1]
  rfl

theorem after_eq_ok_iff (operation : OperationEnvelope) (h : s.reader = .reading read)
    (events : List ReadEvent) (bytes : Bytes) :
    (s.after operation events).reader = .returned (.ok bytes) ↔
      Completes read (turnsOf events) bytes := by
  induction events generalizing s read with
  | nil =>
    refine iff_of_false ?_ not_completes_nil
    rw [after, List.foldl_nil, h]
    intro hok
    cases hok
  | cons event events ih =>
    cases event with
    | other attempt => exact ih (s := s.step operation (.other attempt)) h
    | turn turn =>
      have hafter : s.after operation (.turn turn :: events) =
        (s.step operation (.turn turn)).after operation events := rfl
      have hturns : turnsOf (.turn turn :: events) = turn :: turnsOf events := rfl
      have hreader := step_turn operation h turn
      rw [hafter, hturns, completes_cons]
      -- what the reader finds in the commitment decides nothing but how it fails
      rcases settle_cases operation read (s.meet turn) with
        ⟨hnone, hsettle⟩ | ⟨hhead, hsettle⟩ | ⟨ended, hended, hselected, hsettle⟩
      · have hnot : ¬ EndsWire turn := by
          rw [← selected_eq_responseHead_iff, show read.selected turn = none from hnone]
          simp
        refine (ih (hreader.trans hsettle)).trans ⟨fun h => .inr ⟨hnone, h⟩, ?_⟩
        rintro (⟨hends, _⟩ | ⟨_, h⟩)
        · exact absurd hends hnot
        · exact h
      · have hends : EndsWire turn := selected_eq_responseHead_iff.mp hhead
        rw [after_returned operation (hreader.trans hsettle)]
        have hkept : (read.advance (s.meet turn)).2.retained = read.retained :=
          retained_advance_end hends
        rw [hkept]
        constructor
        · intro hok
          cases hok
          exact .inl ⟨hends, rfl⟩
        · rintro (⟨_, rfl⟩ | ⟨hnone, _⟩)
          · rfl
          · rw [show read.selected turn = _ from hhead] at hnone
            cases hnone
      · rw [after_returned operation (hreader.trans hsettle)]
        refine iff_of_false (fun hok => by cases hok) ?_
        rintro (⟨hends, _⟩ | ⟨hnone, _⟩)
        · have hhead : read.selected turn = some .responseHead :=
            selected_eq_responseHead_iff.mpr hends
          rw [show read.selected turn = _ from hselected] at hhead
          exact hended (Option.some.inj hhead)
        · rw [show read.selected turn = _ from hselected] at hnone
          cases hnone

def Bounded (limit : ℕ) (s : BufferedRead) : Prop :=
  match s.reader with
  | .reading read => Within limit read
  | .returned (.ok bytes) => bytes.length ≤ limit
  | .returned (.error _) => True

theorem Bounded.step (operation : OperationEnvelope) (h : Bounded limit s) (event : ReadEvent) :
    Bounded limit (s.step operation event) := by
  cases event with
  | other attempt => exact h
  | turn turn =>
    cases hreader : s.reader with
    | returned answer =>
      have hsame := step_returned operation hreader (.turn turn)
      unfold Bounded at h ⊢
      rwa [hsame, ← hreader]
    | reading read =>
      unfold Bounded at h ⊢
      rw [hreader] at h
      have hwithin := h.advance (s.meet turn)
      rw [step_turn operation hreader]
      rcases settle_cases operation read (s.meet turn) with
        ⟨_, hsettle⟩ | ⟨_, hsettle⟩ | ⟨_, _, _, hsettle⟩ <;> rw [hsettle]
      · exact hwithin
      · exact hwithin.bounded
      · trivial

theorem Bounded.after (operation : OperationEnvelope) (h : Bounded limit s)
    (events : List ReadEvent) : Bounded limit (s.after operation events) := by
  induction events generalizing s with
  | nil => exact h
  | cons event events ih => exact ih (h.step operation event)

theorem Bounded.retained_le (h : Bounded limit s) : s.retained.length ≤ limit := by
  unfold Bounded at h
  unfold retained
  cases hreader : s.reader with
  | reading read =>
    rw [hreader] at h
    exact h.bounded
  | returned answer =>
    rw [hreader] at h
    cases answer with
    | ok bytes => exact h
    | error failure => exact Nat.zero_le _

structure Owned (s : BufferedRead) : Prop where
  held : ∀ ended, s.took = some ended → s.commitment.committed = some (.cause ended)
  mapped : ∀ rejected, s.reader = .returned (.error (.mapped rejected)) → s.took.isSome

theorem attempt_of_taken {committed : ResponseCommit} {ended : InboundTerminal}
    (h : s.commitment.committed = some committed) : s.attempt (some ended) = s := by
  cases ended <;> simp only [attempt, OperationCommitment.commitCause, OperationCommitment.commit, h]

theorem attempt_of_free {ended : InboundTerminal} (h : s.commitment.committed = none)
    (hended : ended ≠ .responseHead) :
    s.attempt (some ended) =
      { s with commitment := ⟨some (.cause ended)⟩, took := some ended } := by
  cases ended <;>
    first
    | exact absurd rfl hended
    | simp only [attempt, OperationCommitment.commitCause, OperationCommitment.commit, h]

theorem Owned.other (h : Owned s) (attempt : ResponseCommit) :
    Owned { s with commitment := (s.commitment.commit attempt).2 } := by
  refine ⟨fun ended htook => ?_, h.mapped⟩
  have hheld := h.held ended htook
  simp only [OperationCommitment.commit, hheld]

theorem Owned.turn (operation : OperationEnvelope) (h : Owned s) (turn : ReaderTurn) :
    Owned { s.attempt (read.selected (s.meet turn)) with
      reader := .settle operation read (s.meet turn) } := by
  rcases settle_cases operation read (s.meet turn) with
    ⟨hselected, hsettle⟩ | ⟨hselected, hsettle⟩ | ⟨ended, hended, hselected, hsettle⟩ <;>
    rw [hselected, hsettle]
  · exact ⟨h.held, fun _ hmapped => by cases hmapped⟩
  · exact ⟨h.held, fun _ hmapped => by cases hmapped⟩
  · cases hcommitted : s.commitment.committed with
    | none =>
      rw [attempt_of_free hcommitted hended]
      refine ⟨fun ended' htook => ?_, fun _ _ => rfl⟩
      obtain rfl : ended = ended' := Option.some.inj htook
      rfl
    | some committed =>
      rw [attempt_of_taken hcommitted]
      refine ⟨h.held, fun rejected hmapped => ?_⟩
      -- an attempt that came late is silent
      simp [meet, hcommitted] at hmapped

theorem Owned.after (operation : OperationEnvelope) (h : Owned s) (events : List ReadEvent) :
    Owned (s.after operation events) := by
  induction events generalizing s with
  | nil => exact h
  | cons event events ih =>
    refine ih ?_
    cases event with
    | other attempt => exact h.other attempt
    | turn turn =>
      cases hreader : s.reader with
      | returned answer => simpa only [step, hreader] using h
      | reading read => simpa only [step, hreader] using h.turn operation turn

end BufferedRead

/-- For every plan, head and operation, and whatever the wire, the carried sources and the other
producers do: the limit granted is under every ceiling that applies and not under a declared length,
so that a head that declares more is refused without a reader; the reader holds no more than the
limit; it answers with bytes exactly when the wire ends before any terminal is selected, and then
with all the payload there was; and it returns a mapped failure only with the commitment in its
hands. -/
theorem buffered_body_exact {E : Type} (plan : ResolvedBodyPlan (BodyPolicy E))
    (head : RequestHead) (operation : OperationEnvelope) (commitment : OperationCommitment)
    (now : ℕ) :
    (∀ stated ceiling, head.declaredLength = some stated → Ceiling plan head ceiling →
      ceiling < stated →
      ∃ refusal, collectBodyLimited plan head operation commitment now = .error refusal) ∧
    ∀ grant, admitBody plan head = .ok grant →
      (∀ ceiling, Ceiling plan head ceiling → grant.limit ≤ ceiling) ∧
      (∀ stated, head.declaredLength = some stated → stated ≤ grant.limit) ∧
      ∃ s, collectBodyLimited plan head operation commitment now = .ok s ∧
        ∃ read, s.reader = .reading read ∧ read.retained = [] ∧
          ∀ events,
            (s.after operation events).retained.length ≤ grant.limit ∧
            (∀ bytes, (s.after operation events).reader = .returned (.ok bytes) ↔
              ∃ before last rest, turnsOf events = before ++ last :: rest ∧
                NoneSelected read before ∧ EndsWire last ∧ bytes = dataOf before) ∧
            ∀ rejected, (s.after operation events).reader = .returned (.error (.mapped rejected)) →
              ∃ ended, (s.after operation events).took = some ended ∧
                (s.after operation events).commitment.committed = some (.cause ended) := by
  constructor
  · intro stated ceiling hstated hceiling hover
    cases hgrant : admitBody plan head with
    | error refusal => exact ⟨refusal, by rw [collectBodyLimited, hgrant]; rfl⟩
    | ok grant =>
      have hgranted := granted_of_admitBody hgrant
      have hlimit := hgranted.limit_le hceiling
      have hdeclared := hgranted.declared_le hstated
      omega
  · intro grant hgrant
    have hgranted := granted_of_admitBody hgrant
    refine ⟨fun ceiling hceiling => hgranted.limit_le hceiling,
      fun stated hstated => hgranted.declared_le hstated,
      .start operation grant commitment now, by rw [collectBodyLimited, hgrant]; rfl, _, rfl, rfl, ?_⟩
    intro events
    have hbounded : BufferedRead.Bounded grant.limit (.start operation grant commitment now) :=
      ⟨rfl, rfl, Nat.zero_le _⟩
    have howned : BufferedRead.Owned (.start operation grant commitment now) :=
      ⟨fun _ htook => (by cases htook), fun _ hmapped => (by cases hmapped)⟩
    refine ⟨(hbounded.after operation events).retained_le, fun bytes => ?_, fun rejected hmapped => ?_⟩
    · exact BufferedRead.after_eq_ok_iff operation rfl events bytes
    · have hafter := howned.after operation events
      obtain ⟨ended, hended⟩ := Option.isSome_iff_exists.mp (hafter.mapped rejected hmapped)
      exact ⟨ended, hended, hafter.held ended hended⟩

def samplePlan : ResolvedBodyPlan (BodyPolicy Unit) where
  route := "/upload".toList
  mode := .buffered
  ceiling := 10
  policy := some fun _ => .admits ⟨4, none⟩

def declaringHead (length : Char) : RequestHead where
  method := .known .post
  uri := ⟨"/upload".toList, none, none⟩
  headers := [⟨⟨"content-length".toList, by decide⟩, [length.toNat.toUInt8]⟩]

def sampleEvents : List ReadEvent :=
  [.turn (Inbound.sampleTurn (some (.data [104, 105])) 1), .other (.head .application),
    .turn (Inbound.sampleTurn (some .trailers) 2), .turn (Inbound.sampleTurn (some .end_) 3)]

theorem buffered_body_exact_samplePlan :
    (∃ refusal, collectBodyLimited samplePlan (declaringHead '5') Inbound.idleOperation ⟨none⟩ 0 =
      .error refusal) ∧
    ∃ s, collectBodyLimited samplePlan (declaringHead '2') Inbound.idleOperation ⟨none⟩ 0 = .ok s ∧
      (s.after Inbound.idleOperation sampleEvents).reader = .returned (.ok [104, 105]) ∧
      (s.after Inbound.idleOperation sampleEvents).retained.length ≤ 4 := by
  have hover := (buffered_body_exact samplePlan (declaringHead '5') Inbound.idleOperation ⟨none⟩ 0).1
    5 4 (by decide) (.selected _ ⟨4, none⟩ rfl rfl) (by decide)
  obtain ⟨_, _, s, hs, read, _, _, hevents⟩ :=
    (buffered_body_exact samplePlan (declaringHead '2') Inbound.idleOperation ⟨none⟩ 0).2 ⟨4, none⟩
      (by decide)
  obtain rfl : BufferedRead.start Inbound.idleOperation ⟨4, none⟩ ⟨none⟩ 0 = s := Except.ok.inj hs
  exact ⟨hover, _, hs, by decide, (hevents sampleEvents).1⟩

end Camber.Dispatch
