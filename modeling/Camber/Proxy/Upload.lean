import Camber.Inbound.BodyIdle
import Camber.Inbound.TransferLaws

/-! A bounded upload reads the peer's payload through a transfer and hands it to the upstream
request as a stream. -/

namespace Camber.Proxy
open Str Inbound Transition InboundGuard TransferFailure Transfer

structure BodyPermit where
  id : ℕ
deriving DecidableEq

/-- What body admission granted a request. -/
structure BodyGrant where
  limit : ℕ
  permit : Option BodyPermit
deriving DecidableEq

/-- A request body a peer is sending: the steps its source takes, and whether it reported its end
before it was polled. -/
structure Incoming where
  source : List (Poll SourceStep)
  endStream : Bool
  ended : endStream = true → completes source = true ∧ frames source = []

inductive UploadEnd where
  | drained
  | stopped
  | refused (terminal : InboundTerminal) (rejected : Rejected)

inductive UploadStep where
  | forward (data : Frame)
  | end_ (how : UploadEnd)

inductive UploadDisposition where
  | drained
  | stopped

inductive UploadSignal where
  | released (permit : BodyPermit)
  | refusal (terminal : InboundTerminal) (rejected : Rejected)
  | finished (disposition : UploadDisposition)

abbrev UploadItem := Except Text Frame

def uploadAborted : Text := "the request body was refused before it finished arriving".toList

def transferEnd (failure : TransferFailure) : UploadEnd :=
  match failure.refusal with
  | some rejected => .refused failure.terminal rejected
  | none => .stopped

/-- `refusal` and `finished` tell whether the sender of each is still held. -/
structure BoundedUpload where
  transfer : Transfer
  budget : BodyBudget
  permit : Option BodyPermit
  refusal : Bool
  finished : Bool

def releases (permit : Option BodyPermit) : List UploadSignal := (permit.map .released).toList

namespace BoundedUpload

def admitData (upload : BoundedUpload) (data : Frame) : UploadStep × BoundedUpload :=
  match upload.budget.admitFrame data.1.length with
  | (.ok _, budget) => (.forward data, { upload with budget := budget })
  | (.error rejected, budget) =>
    (.end_ (.refused .routeBodyLimit rejected), { upload with budget := budget })

def measure (upload : BoundedUpload) (read : TransferAnswer) : UploadStep × BoundedUpload :=
  match read with
  | .ok none => (.end_ .drained, upload)
  | .error failure => (.end_ (transferEnd failure), upload)
  | .ok (some data) => upload.admitData data

def step (upload : BoundedUpload) (closed : Bool) (reading : Reading) :
    Poll UploadStep × BoundedUpload :=
  if upload.refusal && closed then (.ready (.end_ .stopped), upload)
  else
    match upload.transfer.pollTransfer reading with
    | (.pending, _, transfer) => (.pending, { upload with transfer := transfer })
    | (.ready read, _, transfer) =>
      let (step, upload) := ({ upload with transfer := transfer }).measure read
      (.ready step, upload)

def report (upload : BoundedUpload) (how : UploadEnd) : List UploadSignal × BoundedUpload :=
  let refusal : List UploadSignal :=
    match how with
    | .refused terminal rejected => if upload.refusal then [.refusal terminal rejected] else []
    | .drained | .stopped => []
  let disposition : UploadDisposition :=
    match how with
    | .drained => .drained
    | .stopped | .refused _ _ => .stopped
  let finished : List UploadSignal := if upload.finished then [.finished disposition] else []
  (releases upload.permit ++ refusal ++ finished,
    { upload with permit := none, refusal := false, finished := false })

def ended (upload : BoundedUpload) (how : UploadEnd) :
    Option UploadItem × List UploadSignal × BoundedUpload :=
  let (signals, upload) := upload.report how
  match how with
  | .refused _ _ => (some (.error uploadAborted), signals, upload)
  | .drained | .stopped => (none, signals, upload)

def nextData (upload : BoundedUpload) (closed : Bool) (reading : Reading) :
    Poll (Option UploadItem) × List UploadSignal × BoundedUpload :=
  if upload.finished then
    match upload.step closed reading with
    | (.pending, upload) => (.pending, [], upload)
    | (.ready (.forward data), upload) => (.ready (some (.ok data)), [], upload)
    | (.ready (.end_ how), upload) =>
      let (item, signals, upload) := upload.ended how
      (.ready item, signals, upload)
  else (.ready none, [], upload)

end BoundedUpload

inductive UploadStream where
  | drained
  | live (upload : BoundedUpload)
  | gone

def boundedUpload (incoming : Incoming) (admitted : BodyGrant) (owner : TransferOwner)
    (now : ℕ) : List UploadSignal × UploadStream :=
  if incoming.endStream then (releases admitted.permit ++ [.finished .drained], .drained)
  else ([], .live ⟨owner.deadlinesOnly.overSource incoming.source now, ⟨admitted.limit, 0⟩,
    admitted.permit, true, true⟩)

inductive UploadRecord where
  | polled (closed : Bool) (reading : Reading) (answer : Poll (Option UploadItem))
      (signals : List UploadSignal)
  | dropped (signals : List UploadSignal)

def UploadStream.after (answer : Poll (Option UploadItem)) (upload : BoundedUpload) :
    UploadStream :=
  if answer = .ready none then .gone else .live upload

def signalled (answer : Poll (Option UploadItem)) (signals : List UploadSignal)
    (upload : BoundedUpload) : List UploadSignal :=
  if answer = .ready none then signals ++ releases upload.permit else signals

inductive Streams : UploadStream → UploadRecord → UploadStream → Prop
  | drained (closed : Bool) (reading : Reading) :
      Streams .drained (.polled closed reading (.ready none) []) .gone
  | polled (upload : BoundedUpload) (closed : Bool) (reading : Reading)
      {answer : Poll (Option UploadItem)} {signals : List UploadSignal} {upload' : BoundedUpload}
      (hnext : upload.nextData closed reading = (answer, signals, upload')) :
      Streams (.live upload)
        (.polled closed reading answer (signalled answer signals upload'))
        (.after answer upload')
  | dropped (upload : BoundedUpload) :
      Streams (.live upload) (.dropped (releases upload.permit)) .gone
  | discarded : Streams .drained (.dropped []) .gone

def UploadSignal.permit? : UploadSignal → Option BodyPermit
  | released permit => some permit
  | refusal _ _ | finished _ => none

def permitsIn (signals : List UploadSignal) : List BodyPermit :=
  signals.filterMap UploadSignal.permit?

@[simp] theorem permitsIn_append (xs ys : List UploadSignal) :
    permitsIn (xs ++ ys) = permitsIn xs ++ permitsIn ys := by
  simp [permitsIn]

@[simp] theorem permitsIn_releases (permit : Option BodyPermit) :
    permitsIn (releases permit) = permit.toList := by
  cases permit <;> rfl

namespace BoundedUpload

/-- Why an upload that was still forwarding ended with an item. -/
inductive Cause (u : BoundedUpload) (closed : Bool) (r : Reading) : Option UploadItem → Prop
  | stopped (hclosed : closed = true) : Cause u closed r none
  | drained {events : List TransferEvent} {t : Transfer}
      (hpoll : u.transfer.pollTransfer r = (.ready (.ok none), events, t)) : Cause u closed r none
  | silenced {failure : TransferFailure} {events : List TransferEvent} {t : Transfer}
      (hpoll : u.transfer.pollTransfer r = (.ready (.error failure), events, t))
      (hrefusal : failure.refusal = none) : Cause u closed r none
  | refused : Cause u closed r (some (.error uploadAborted))

structure Spent (permit : Option BodyPermit) (signals : List UploadSignal) (u' : BoundedUpload) :
    Prop where
  released : permitsIn signals = permit.toList
  permit : u'.permit = none
  finished : u'.finished = false

inductive Offered (u : BoundedUpload) (closed : Bool) (r : Reading) :
    Poll (Option UploadItem) → List UploadSignal → BoundedUpload → Prop
  | waits {events : List TransferEvent} {t : Transfer}
      (hpoll : u.transfer.pollTransfer r = (.pending, events, t)) :
      Offered u closed r .pending [] { u with transfer := t }
  | forwards {frame : Frame} {events : List TransferEvent} {t : Transfer}
      (hpoll : u.transfer.pollTransfer r = (.ready (.ok (some frame)), events, t))
      (hadmits : u.budget.Admits frame.1.length) :
      Offered u closed r (.ready (some (.ok frame))) []
        { u with transfer := t
                 budget := { u.budget with observed := u.budget.observed + frame.1.length } }
  | ends {item : Option UploadItem} {signals : List UploadSignal} {u' : BoundedUpload}
      (cause : Cause u closed r item) (spent : Spent u.permit signals u') :
      Offered u closed r (.ready item) signals u'

theorem report_spent (u : BoundedUpload) (how : UploadEnd) :
    Spent u.permit (u.report how).1 (u.report how).2 := by
  refine ⟨?_, rfl, rfl⟩
  obtain ⟨transfer, budget, permit, refusal, finished⟩ := u
  cases how <;> cases refusal <;> cases finished <;> cases permit <;> rfl

theorem nextData_offered {u : BoundedUpload} (hfinished : u.finished = true) (closed : Bool)
    (r : Reading) :
    Offered u closed r (u.nextData closed r).1 (u.nextData closed r).2.1
      (u.nextData closed r).2.2 := by
  obtain ⟨transfer, budget, permit, refusal, finished⟩ := u
  obtain rfl : finished = true := hfinished
  simp only [nextData, if_true, step]
  by_cases hstop : (refusal && closed) = true
  · simp only [hstop, if_true, ended]
    exact .ends (.stopped (Bool.and_eq_true_iff.mp hstop).2) (report_spent _ .stopped)
  · simp only [hstop, Bool.false_eq_true, if_false]
    rcases hpoll : transfer.pollTransfer r with ⟨_ | read, events, t⟩
    · exact .waits hpoll
    · rcases read with failure | _ | frame
      · cases hrefusal : failure.refusal with
        | none =>
          simp only [measure, transferEnd, hrefusal, ended]
          exact .ends (.silenced hpoll hrefusal) (report_spent ⟨t, _, _, _, _⟩ .stopped)
        | some rejected =>
          simp only [measure, transferEnd, hrefusal, ended]
          exact .ends .refused (report_spent ⟨t, _, _, _, _⟩ _)
      · simp only [measure, ended]
        exact .ends (.drained hpoll) (report_spent ⟨t, _, _, _, _⟩ .drained)
      · by_cases hadmits : budget.Admits frame.1.length
        · simp only [measure, admitData, BodyBudget.admitFrame_ok hadmits]
          exact .forwards hpoll hadmits
        · simp only [measure, admitData, BodyBudget.admitFrame_error hadmits, ended]
          exact .ends .refused (report_spent ⟨t, _, _, _, _⟩ _)

end BoundedUpload

namespace UploadRecord

def frame : UploadRecord → Option Frame
  | polled _ _ (.ready (some (.ok frame))) _ => some frame
  | polled _ _ (.ready (some (.error _))) _ | polled _ _ (.ready none) _ | polled _ _ .pending _ =>
    none
  | dropped _ => none

def signals : UploadRecord → List UploadSignal
  | polled _ _ _ signals => signals
  | dropped signals => signals

def fails : UploadRecord → Bool
  | polled _ _ (.ready (some (.error _))) _ => true
  | polled _ _ (.ready (some (.ok _))) _ | polled _ _ (.ready none) _ | polled _ _ .pending _ =>
    false
  | dropped _ => false

def ends : UploadRecord → Bool
  | polled _ _ (.ready none) _ => true
  | polled _ _ (.ready (some _)) _ | polled _ _ .pending _ => false
  | dropped _ => false

end UploadRecord

def forwarded (trace : List UploadRecord) : List Frame := trace.filterMap UploadRecord.frame

def permitsReleased (trace : List UploadRecord) : List BodyPermit :=
  permitsIn (trace.flatMap UploadRecord.signals)

def EndsCleanly (trace : List UploadRecord) : Prop :=
  (∃ record ∈ trace, record.ends = true) ∧ ∀ record ∈ trace, record.fails = false

def payload (frames : List Frame) : Bytes := frames.flatMap fun frame => frame.1

def CompleteBody (source : List (Poll SourceStep)) (sent : List Frame) : Prop :=
  completes source = true ∧ payload sent = payload (frames source)

@[simp] theorem forwarded_snoc (trace : List UploadRecord) (record : UploadRecord) :
    forwarded (trace ++ [record]) = forwarded trace ++ record.frame.toList :=
  filterMap_snoc ..

@[simp] theorem permitsReleased_snoc (trace : List UploadRecord) (record : UploadRecord) :
    permitsReleased (trace ++ [record]) = permitsReleased trace ++ permitsIn record.signals := by
  simp [permitsReleased]

theorem payload_length (sent : List Frame) : (payload sent).length = bytes sent := by
  simp [payload, bytes]

section
variable (incoming : Incoming) (admitted : BodyGrant) (owner : TransferOwner) (now : ℕ)

structure Forwarding (trace : List UploadRecord) (u : BoundedUpload) : Prop where
  polls : ∃ polls, Runs Polls (owner.deadlinesOnly.overSource incoming.source now) polls
    u.transfer ∧ delivered polls = forwarded trace
  running : u.transfer.ended = none
  limit : u.budget.limit = admitted.limit
  observed : u.budget.observed = bytes (forwarded trace)
  bounded : bytes (forwarded trace) ≤ admitted.limit
  finished : u.finished = true
  permit : u.permit = admitted.permit
  held : permitsReleased trace = []

inductive Accounted (trace : List UploadRecord) : UploadStream → Prop
  | drained (hended : incoming.endStream = true) (htrace : trace = []) : Accounted trace .drained
  | forwarding {u : BoundedUpload} (hended : incoming.endStream = false)
      (h : Forwarding incoming admitted owner now trace u) : Accounted trace (.live u)
  | refused {u : BoundedUpload} (hended : incoming.endStream = false)
      (hfinished : u.finished = false) (hpermit : u.permit = none)
      (hfailed : ∃ record ∈ trace, record.fails = true)
      (hbounded : bytes (forwarded trace) ≤ admitted.limit)
      (hreleased : permitsReleased trace = admitted.permit.toList) : Accounted trace (.live u)
  | gone (hbounded : bytes (forwarded trace) ≤ admitted.limit)
      (hreleased : permitsReleased trace =
        if incoming.endStream then [] else admitted.permit.toList) : Accounted trace .gone

variable {incoming admitted owner now} {trace : List UploadRecord}

variable {u : BoundedUpload} {r : Reading} {events : List TransferEvent} {t : Transfer}
  {closed : Bool} {stream : UploadStream}

theorem Forwarding.polled (h : Forwarding incoming admitted owner now trace u)
    {answer : Poll TransferAnswer} (hpoll : u.transfer.pollTransfer r = (answer, events, t))
    (hanswer : answer = .pending ∨ ∃ frame, answer = .ready (.ok (some frame))) :
    (∃ polls, Runs Polls (owner.deadlinesOnly.overSource incoming.source now) polls t ∧
      delivered polls = forwarded trace ++ (PollRecord.mk r answer events).frame.toList) ∧
    t.ended = none := by
  obtain ⟨polls, run, hdelivered⟩ := h.polls
  have hstep : Polls u.transfer ⟨r, answer, events⟩ t := hpoll
  refine ⟨⟨_, run.snoc hstep, ?_⟩, ?_⟩
  · rw [delivered_snoc, hdelivered]
  · exact (ledger_of_runs run).running_of_answer hstep h.running hanswer

theorem Accounted.polled {u' : BoundedUpload} {answer : Poll (Option UploadItem)}
    {signals : List UploadSignal} (hended : incoming.endStream = false)
    (h : Forwarding incoming admitted owner now trace u)
    (hoffered : u.Offered closed r answer signals u') :
    Accounted incoming admitted owner now
      (trace ++ [.polled closed r answer (signalled answer signals u')])
      (.after answer u') := by
  cases hoffered with
  | waits hpoll =>
    obtain ⟨⟨polls, run, hdelivered⟩, hrunning⟩ := h.polled hpoll (.inl rfl)
    have hsame : forwarded (trace ++ [.polled closed r .pending []]) = forwarded trace := by
      rw [forwarded_snoc]
      exact List.append_nil _
    refine .forwarding hended ⟨⟨polls, run, ?_⟩, hrunning, h.limit, ?_, ?_, h.finished, h.permit, ?_⟩
    · rw [hdelivered]
      exact (List.append_nil _).trans hsame.symm
    · exact h.observed.trans (congrArg bytes hsame.symm)
    · exact le_of_eq_of_le (congrArg bytes hsame) h.bounded
    · rw [permitsReleased_snoc, h.held]
      rfl
  | @forwards frame events t hpoll hadmits =>
    obtain ⟨⟨polls, run, hdelivered⟩, hrunning⟩ := h.polled hpoll (.inr ⟨frame, rfl⟩)
    have hmore : forwarded (trace ++ [.polled closed r (.ready (some (.ok frame))) []]) =
        forwarded trace ++ [frame] := by
      rw [forwarded_snoc]
      rfl
    have hfits := (le_min_iff.mp hadmits).1
    rw [h.observed, h.limit] at hfits
    refine .forwarding hended ⟨⟨polls, run, ?_⟩, hrunning, h.limit, ?_, ?_, h.finished, h.permit, ?_⟩
    · exact hdelivered.trans hmore.symm
    · refine Eq.trans ?_ (congrArg bytes hmore.symm)
      simp [h.observed]
    · refine le_of_eq_of_le (congrArg bytes hmore) ?_
      simpa using hfits
    · rw [permitsReleased_snoc, h.held]
      rfl
  | @ends item signals u' cause spent =>
    have hsame : ∀ s, forwarded (trace ++ [.polled closed r (.ready item) s]) = forwarded trace := by
      intro s
      rw [forwarded_snoc]
      cases cause <;> exact List.append_nil _
    cases cause with
    | refused =>
      refine .refused hended spent.finished spent.permit ⟨_, List.mem_append_right _
        (List.mem_singleton_self _), rfl⟩ ?_ ?_
      · rw [hsame]
        exact h.bounded
      · rw [permitsReleased_snoc, h.held, List.nil_append, ← h.permit]
        exact spent.released
    | stopped | drained | silenced =>
      refine .gone ?_ ?_
      · rw [hsame]
        exact h.bounded
      · rw [permitsReleased_snoc, h.held, List.nil_append, if_neg (by simp [hended]), ← h.permit]
        simp only [UploadRecord.signals, signalled, if_true, permitsIn_append, spent.released,
          spent.permit, permitsIn_releases, Option.toList_none, List.append_nil]

theorem Accounted.step {next : UploadStream} {record : UploadRecord}
    (h : Accounted incoming admitted owner now trace stream) (hstep : Streams stream record next) :
    Accounted incoming admitted owner now (trace ++ [record]) next := by
  cases hstep with
  | drained closed reading | discarded =>
    cases h with
    | drained hended htrace =>
      subst htrace
      exact .gone (Nat.zero_le _) (by simp [hended, permitsReleased, permitsIn, UploadRecord.signals])
  | dropped u =>
    have hsame : forwarded (trace ++ [.dropped (releases u.permit)]) = forwarded trace := by
      rw [forwarded_snoc]
      exact List.append_nil _
    cases h with
    | forwarding hended h =>
      refine .gone (le_of_eq_of_le (congrArg bytes hsame) h.bounded) ?_
      rw [permitsReleased_snoc, h.held, if_neg (by simp [hended])]
      simp [UploadRecord.signals, h.permit]
    | refused hended hfinished hpermit hfailed hbounded hreleased =>
      refine .gone (le_of_eq_of_le (congrArg bytes hsame) hbounded) ?_
      rw [permitsReleased_snoc, hreleased, if_neg (by simp [hended])]
      simp [UploadRecord.signals, hpermit]
  | polled u closed reading hnext =>
    cases h with
    | forwarding hended h =>
      have hoffered := BoundedUpload.nextData_offered h.finished closed reading
      rw [hnext] at hoffered
      exact .polled hended h hoffered
    | refused hended hfinished hpermit hfailed hbounded hreleased =>
      -- the upload has reported: the stream ends behind the error
      have hspent : u.nextData closed reading = (.ready none, [], u) := by
        simp [BoundedUpload.nextData, hfinished]
      rw [hnext, Prod.mk.injEq, Prod.mk.injEq] at hspent
      obtain ⟨rfl, rfl, rfl⟩ := hspent
      refine .gone ?_ ?_
      · rw [forwarded_snoc]
        exact le_of_eq_of_le (congrArg bytes (List.append_nil _)) hbounded
      · rw [permitsReleased_snoc, hreleased, if_neg (by simp [hended])]
        simp [UploadRecord.signals, signalled, hpermit]

theorem accounted_of_runs
    (run : Runs Streams (boundedUpload incoming admitted owner now).2 trace stream) :
    Accounted incoming admitted owner now trace stream := by
  refine run.invariant ?_ fun _ h hstep => h.step hstep
  unfold boundedUpload
  cases hended : incoming.endStream with
  | true => exact .drained hended rfl
  | false =>
    exact .forwarding hended ⟨⟨[], .nil, rfl⟩, rfl, rfl, rfl, Nat.zero_le _, rfl, rfl, rfl⟩

/-- A step that leaves the body whole: the coordinator has not closed the channel and none of the
sources that end an upload in silence is ready, unless nothing of the body is unread. -/
structure Undisturbed (stream : UploadStream) (record : UploadRecord) : Prop where
  whole : ∀ {u : BoundedUpload} {closed : Bool} {r : Reading} {answer : Poll (Option UploadItem)}
      {signals : List UploadSignal}, stream = .live u → u.finished = true →
    record = .polled closed r answer signals →
    (closed = true ∨ ∃ x ∈ reports, (u.transfer.carriedReady r).holds x = true) →
    completes u.transfer.source = true ∧ frames u.transfer.source = []

theorem silent_terminal {t₁ : Transfer} {read : SourceRead} {x : InboundTerminal} {now : ℕ}
    (took : t.Took now read events t₁) (hlifetime : t₁.total ≠ none → t₁.budget.total ≠ none)
    (hholds : (t₁.weighed read r).1.holds x = true) (hsilent : t₁.answer x = .ok none ∨
      ∃ failure, t₁.answer x = .error failure ∧ failure.refusal = none) :
    (completes t.source = true ∧ frames t.source = []) ∨
      (x ∈ reports ∧ (t.carriedReady r).holds x = true) := by
  -- a terminal of the transfer's own comes with the refusal that names its bound
  have hrefusal : x ≠ .responseHead →
      (TransferFailure.mk t₁.direction x t₁.budget t₁.account).refusal = none := by
    intro hx
    rcases hsilent with hok | ⟨failure, herror, hnone⟩
    · exact absurd (answer_eq_none hok) hx
    · cases x <;> first | exact absurd rfl hx | (cases herror; exact hnone)
  rcases weighed_holds.mp hholds with hcarried | hown
  · obtain ⟨guard, _, hguard⟩ := carriedReady_holds hcarried
    rw [carriedReady_congr took.keeps.2.2] at hcarried
    exact .inr ⟨mem_reports_of_observed hguard, hcarried⟩
  · left
    rcases hown with ⟨rfl, helapsed⟩ | ⟨rfl, hreached⟩ | ⟨rfl, _⟩ | ⟨rfl, rfl⟩ | ⟨rfl, _⟩
    · obtain ⟨idle, hidle, _⟩ := elapsed_iff.mp helapsed
      simp [refusal, hidle] at hrefusal
    · obtain ⟨instant, hinstant, _⟩ := reached_iff.mp hreached
      simp only [refusal, ne_eq, reduceCtorEq, not_false_eq_true,
        Option.map_eq_none_iff, forall_const] at hrefusal
      exact absurd hrefusal (hlifetime (by simp [hinstant]))
    · simp [refusal] at hrefusal
    · cases took with
      | ends polled hnext hframes hends => exact ⟨hends, hframes⟩
    · simp [refusal] at hrefusal

section

variable (h : Forwarding incoming admitted owner now trace u)

include h

theorem Forwarding.silent_poll {answer : TransferAnswer}
    (hpoll : u.transfer.pollTransfer r = (.ready answer, events, t))
    (hsilent : answer = .ok none ∨ ∃ failure, answer = .error failure ∧ failure.refusal = none) :
    (completes u.transfer.source = true ∧ frames u.transfer.source = []) ∨
      answer ≠ .ok none ∧
        ∃ x ∈ reports, (u.transfer.carriedReady r).holds x = true := by
  obtain ⟨polls, run, -⟩ := h.polls
  have hledger := ledger_of_runs run
  have hspec := pollTransfer_spec r hledger.pending
  rw [hpoll] at hspec
  dsimp only at hspec
  generalize hready : Poll.ready answer = polled at hspec
  cases hspec with
  | later hended => simp [h.running] at hended
  | @runsOn read events t₁ _ took _ =>
    cases hpending : t₁.pending with
    | none => simp [hpending, handOver] at hready
    | some frame =>
      simp only [hpending, handOver, Poll.ready.injEq] at hready
      simp [hready] at hsilent
  | @fixes read events t₁ x _ took hfirst =>
    rw [Poll.ready.inj hready] at hsilent
    have hlifetime := hledger.lifetime took
    rcases silent_terminal took hlifetime (InboundReady.firstReady_holds hfirst) hsilent with
      hrest | ⟨hx, hcarried⟩
    · rw [arm_eq] at hrest
      exact .inl hrest
    · rw [carriedReady_arm] at hcarried
      refine .inr ⟨fun hnone => ?_, x, hx, hcarried⟩
      -- only the end of the source answers with the end of the body
      rw [Poll.ready.inj hready] at hnone
      rw [answer_eq_none hnone] at hx
      revert hx
      decide

theorem Forwarding.complete_of_rest
    (hrest : completes u.transfer.source = true ∧ frames u.transfer.source = []) :
    CompleteBody incoming.source (forwarded trace) := by
  obtain ⟨polls, run, hdelivered⟩ := h.polls
  obtain ⟨hframes, hends, _⟩ := (ledger_of_runs run).running h.running
  refine ⟨hends.trans hrest.1, ?_⟩
  rw [hframes, hrest.2, List.append_nil, hdelivered]

theorem Forwarding.complete (cause : u.Cause closed r none) (hwhole : (closed = true ∨ ∃ x ∈
      reports, (u.transfer.carriedReady r).holds x = true) → completes
      u.transfer.source = true ∧ frames u.transfer.source = []) :
    CompleteBody incoming.source (forwarded trace) := by
  apply h.complete_of_rest
  cases cause with
  | stopped hclosed => exact hwhole (.inl hclosed)
  | drained hpoll =>
    exact (h.silent_poll hpoll (.inl rfl)).resolve_right fun hcarried => hcarried.1 rfl
  | silenced hpoll hrefusal =>
    rcases h.silent_poll hpoll (.inr ⟨_, rfl, hrefusal⟩) with hrest | ⟨-, hcarried⟩
    · exact hrest
    · exact hwhole (.inr hcarried)

end

theorem runs_gone {later : List UploadRecord} (run : Runs Streams .gone later stream) :
    later = [] ∧ stream = .gone := by
  induction run with
  | nil => exact ⟨rfl, rfl⟩
  | snoc run hstep ih =>
    obtain ⟨-, rfl⟩ := ih
    cases hstep

theorem ends_frame {record : UploadRecord} (h : record.ends = true) : record.frame = none := by
  cases record with
  | dropped => cases h
  | polled closed r answer signals => rcases answer with _ | _ | item <;> first | rfl | cases h

theorem complete_of_endsCleanly
    (run : Runs (Guarded Streams Undisturbed) (boundedUpload incoming admitted owner now).2 trace
      stream) (hclean : EndsCleanly trace) : CompleteBody incoming.source (forwarded trace) := by
  obtain ⟨⟨record, hrecord, hends⟩, hfails⟩ := hclean
  obtain ⟨before, later, rfl⟩ := List.append_of_mem hrecord
  obtain ⟨stream₁, stream₂, hbefore, ⟨hstep, hmeets⟩, hlater⟩ := run.split
  have hacc := accounted_of_runs hbefore.unguard
  have hsame : stream₂ = .gone → forwarded (before ++ record :: later) = forwarded before := by
    rintro rfl
    obtain ⟨rfl, -⟩ := runs_gone hlater.unguard
    rw [forwarded_snoc, ends_frame hends]
    exact List.append_nil _
  cases hstep with
  | dropped => cases hends
  | discarded => cases hends
  | drained closed reading =>
    rw [hsame rfl]
    cases hacc with
    | drained hended htrace =>
      subst htrace
      obtain ⟨hcompletes, hframes⟩ := incoming.ended hended
      exact ⟨hcompletes, by rw [hframes]; rfl⟩
  | @polled u closed reading answer signals u' hnext =>
    obtain rfl : answer = .ready none := by
      rcases answer with _ | _ | item <;> first | rfl | cases hends
    rw [hsame rfl]
    cases hacc with
    | forwarding hended h =>
      have hoffered := BoundedUpload.nextData_offered h.finished closed reading
      rw [hnext] at hoffered
      cases hoffered with
      | ends cause spent => exact h.complete cause (hmeets.whole rfl h.finished rfl)
    | refused hended hfinished hpermit hfailed hbounded hreleased =>
      obtain ⟨failing, hmem, hfailing⟩ := hfailed
      have hfine := hfails failing (List.mem_append_left _ hmem)
      rw [hfailing] at hfine
      cases hfine

theorem drained_of_nextData (h : .finished .drained ∈ (u.nextData closed r).2.1) :
    u.finished = true ∧ (u.nextData closed r).1 = .ready none ∧
      ∃ events t, u.transfer.pollTransfer r = (.ready (.ok none), events, t) := by
  have hsignals : ∀ (u' : BoundedUpload) (how : UploadEnd),
      .finished .drained ∈ (u'.ended how).2.1 → how = .drained := by
    rintro ⟨transfer, budget, permit, refusal, finished⟩ how hmem
    cases how with
    | drained => rfl
    | stopped | refused terminal rejected =>
      cases permit <;> cases refusal <;> cases finished <;>
        simp [BoundedUpload.ended, BoundedUpload.report, releases] at hmem
  unfold BoundedUpload.nextData at h ⊢
  cases hfinished : u.finished with
  | false => simp [hfinished] at h
  | true =>
    refine ⟨rfl, ?_⟩
    rw [hfinished, if_pos rfl] at h
    rw [if_pos rfl]
    unfold BoundedUpload.step at h ⊢
    by_cases hstop : (u.refusal && closed) = true
    · rw [if_pos hstop] at h
      cases hsignals _ _ h
    · rw [if_neg hstop] at h ⊢
      obtain ⟨answer, events, t, hpoll⟩ : ∃ answer events t,
          u.transfer.pollTransfer r = (answer, events, t) := ⟨_, _, _, rfl⟩
      rw [hpoll] at h ⊢
      cases answer with
      | pending => simp at h
      | ready read =>
        dsimp only at h ⊢
        cases read with
        | error failure =>
          have hend := hsignals _ _ h
          unfold transferEnd at hend
          cases hrefusal : failure.refusal <;> simp [hrefusal] at hend
        | ok item =>
          cases item with
          | none => exact ⟨rfl, events, t, rfl⟩
          | some frame =>
            obtain ⟨admitted, budget, hgranted⟩ : ∃ admitted budget,
                u.budget.admitFrame frame.1.length = (admitted, budget) := ⟨_, _, rfl⟩
            simp only [BoundedUpload.measure, BoundedUpload.admitData, hgranted] at h
            cases admitted with
            | ok total => simp at h
            | error rejected => cases hsignals _ _ h

theorem forwarded_of_drained (run : Runs Streams .drained trace stream) :
    (stream = .drained ∨ stream = .gone) ∧ forwarded trace = [] := by
  induction run with
  | nil => exact ⟨.inl rfl, rfl⟩
  | snoc run hstep ih =>
    obtain ⟨hstate, hnone⟩ := ih
    rw [forwarded_snoc, hnone]
    rcases hstate with rfl | rfl
    · cases hstep <;> exact ⟨.inr rfl, rfl⟩
    · cases hstep

theorem complete_of_drained
    (run : Runs Streams (boundedUpload incoming admitted owner now).2 trace stream)
    (h : .finished .drained ∈
      (boundedUpload incoming admitted owner now).1 ++ trace.flatMap UploadRecord.signals) :
    CompleteBody incoming.source (forwarded trace) := by
  cases hended : incoming.endStream with
  | true =>
    obtain ⟨hcompletes, hframes⟩ := incoming.ended hended
    have hstart : (boundedUpload incoming admitted owner now).2 = .drained := by
      simp [boundedUpload, hended]
    rw [hstart] at run
    rw [(forwarded_of_drained run).2]
    exact ⟨hcompletes, by rw [hframes]⟩
  | false =>
    have hnone : (boundedUpload incoming admitted owner now).1 = [] := by
      simp [boundedUpload, hended]
    rw [hnone, List.nil_append] at h
    obtain ⟨record, hrecord, hsignal⟩ := List.mem_flatMap.mp h
    obtain ⟨before, later, rfl⟩ := List.append_of_mem hrecord
    obtain ⟨stream₁, stream₂, hbefore, hstep, hlater⟩ := run.split
    have hacc := accounted_of_runs hbefore
    cases hstep with
    | drained closed reading => simp [UploadRecord.signals] at hsignal
    | discarded => simp [UploadRecord.signals] at hsignal
    | dropped u =>
      cases hpermit : u.permit <;> simp [UploadRecord.signals, releases, hpermit] at hsignal
    | @polled u closed reading answer signals u' hnext =>
      have hmem : .finished .drained ∈ signals := by
        simp only [UploadRecord.signals, signalled] at hsignal
        split_ifs at hsignal
        · rcases List.mem_append.mp hsignal with hmem | hmem
          · exact hmem
          · cases hpermit : u'.permit <;> simp [releases, hpermit] at hmem
        · exact hsignal
      obtain ⟨hfinished, hanswer, events, t, hpoll⟩ :=
        drained_of_nextData (show _ ∈ (u.nextData closed reading).2.1 by rw [hnext]; exact hmem)
      obtain rfl : answer = .ready none := by rw [hnext] at hanswer; exact hanswer
      cases hacc with
      | refused _ hspent =>
        rw [hfinished] at hspent
        cases hspent
      | forwarding _ hforwarding =>
        have hrest := (hforwarding.silent_poll hpoll (.inl rfl)).resolve_right fun hcarried =>
          hcarried.1 rfl
        obtain ⟨rfl, -⟩ := runs_gone hlater
        rw [forwarded_snoc, UploadRecord.frame, Option.toList_none, List.append_nil]
        exact hforwarding.complete_of_rest hrest

end

/-- In every run whose steps are undisturbed, a stream that ends without an error has forwarded the
peer's complete body. -/
theorem upload_complete_of_undisturbed (incoming : Incoming) (admitted : BodyGrant)
    (owner : TransferOwner) (now : ℕ) :
    (∀ trace stream, Runs (Guarded Streams Undisturbed)
        (boundedUpload incoming admitted owner now).2 trace stream →
      EndsCleanly trace → CompleteBody incoming.source (forwarded trace)) ∧
    (∀ trace stream, Runs Streams (boundedUpload incoming admitted owner now).2 trace stream →
      (payload (forwarded trace)).length ≤ admitted.limit ∧
      permitsIn (boundedUpload incoming admitted owner now).1 ++ permitsReleased trace <+:
        admitted.permit.toList ∧
      (stream = .gone →
        permitsIn (boundedUpload incoming admitted owner now).1 ++ permitsReleased trace =
          admitted.permit.toList)) := by
  constructor
  · intro trace stream run hclean
    exact complete_of_endsCleanly run hclean
  · intro trace stream run
    have hacc := accounted_of_runs run
    have hinitial : permitsIn (boundedUpload incoming admitted owner now).1 =
        if incoming.endStream then admitted.permit.toList else [] := by
      unfold boundedUpload
      cases incoming.endStream with
      | false => rfl
      | true =>
        simp only [if_true, permitsIn_append, permitsIn_releases]
        exact List.append_nil _
    rw [payload_length, hinitial]
    cases hacc with
    | drained hended htrace =>
      subst htrace
      refine ⟨Nat.zero_le _, ?_, fun h => by cases h⟩
      rw [if_pos hended]
      exact (List.append_nil _).symm ▸ List.prefix_rfl
    | forwarding hended h =>
      refine ⟨h.bounded, ?_, fun h => by cases h⟩
      rw [h.held, if_neg (by simp [hended])]
      exact List.nil_prefix
    | refused hended hfinished hpermit hfailed hbounded hreleased =>
      refine ⟨hbounded, ?_, fun h => by cases h⟩
      rw [hreleased, if_neg (by simp [hended])]
      exact List.prefix_rfl
    | gone hbounded hreleased =>
      have hall : (if incoming.endStream then admitted.permit.toList else []) ++
          permitsReleased trace = admitted.permit.toList := by
        rw [hreleased]
        cases incoming.endStream <;> simp
      refine ⟨hbounded, ?_, fun _ => hall⟩
      rw [hall]

def pollStream : UploadStream → List (Bool × Reading) → List UploadRecord × UploadStream
  | stream, [] => ([], stream)
  | .gone, _ :: _ => ([], .gone)
  | .drained, (closed, r) :: _ => ([.polled closed r (.ready none) []], .gone)
  | .live u, (closed, r) :: polls =>
    let (answer, signals, u') := u.nextData closed r
    let (trace, stream) := pollStream (.after answer u') polls
    (.polled closed r answer (signalled answer signals u') :: trace, stream)

def quietly : UploadStream → List (Bool × Reading) → Bool
  | .live u, (closed, r) :: polls =>
    !closed && (reports.all fun x => !(u.transfer.carriedReady r).holds x) &&
      quietly (.after (u.nextData closed r).1 (u.nextData closed r).2.2) polls
  | .live _, [] | .drained, _ | .gone, _ => true

theorem undisturbed_of_quiet {u : BoundedUpload} {closed : Bool} {r : Reading}
    {answer : Poll (Option UploadItem)} {signals : List UploadSignal} (hopen : closed = false)
    (hquiet : ∀ x ∈ reports, (u.transfer.carriedReady r).holds x = false) :
    Undisturbed (.live u) (.polled closed r answer signals) := by
  refine ⟨?_⟩
  rintro _ _ _ _ _ hlive - hrecord hdisturbed
  obtain rfl := UploadStream.live.inj hlive
  obtain ⟨rfl, rfl, -, -⟩ := UploadRecord.polled.inj hrecord
  rcases hdisturbed with hclosed | ⟨x, hx, hholds⟩
  · rw [hopen] at hclosed
    cases hclosed
  · rw [hquiet x hx] at hholds
    cases hholds

theorem runs_pollStream (stream : UploadStream) (polls : List (Bool × Reading)) :
    Runs Streams stream (pollStream stream polls).1 (pollStream stream polls).2 := by
  induction polls generalizing stream with
  | nil => cases stream <;> exact .nil
  | cons poll polls ih =>
    cases stream with
    | gone => exact .nil
    | drained => exact Runs.nil.snoc (.drained poll.1 poll.2)
    | live u => exact (Runs.nil.snoc (.polled u poll.1 poll.2 rfl)).append (ih _)

theorem runs_of_quietly (stream : UploadStream) (polls : List (Bool × Reading))
    (hquiet : quietly stream polls = true) :
    Runs (Guarded Streams Undisturbed) stream (pollStream stream polls).1
      (pollStream stream polls).2 := by
  induction polls generalizing stream with
  | nil => cases stream <;> exact .nil
  | cons poll polls ih =>
    cases stream with
    | gone => exact .nil
    | drained =>
      refine Runs.nil.snoc ⟨.drained poll.1 poll.2, ⟨?_⟩⟩
      rintro _ _ _ _ _ hlive
      cases hlive
    | live u =>
      simp only [quietly, Bool.and_eq_true, Bool.not_eq_true', List.all_eq_true] at hquiet
      obtain ⟨⟨hopen, hready⟩, hrest⟩ := hquiet
      refine Runs.append (Runs.nil.snoc ⟨.polled u poll.1 poll.2 rfl, ?_⟩) (ih _ hrest)
      exact undisturbed_of_quiet hopen hready

instance (trace : List UploadRecord) : Decidable (EndsCleanly trace) :=
  inferInstanceAs (Decidable (_ ∧ _))

instance (source : List (Poll SourceStep)) (sent : List Frame) :
    Decidable (CompleteBody source sent) :=
  inferInstanceAs (Decidable (_ ∧ _))

def sampleStream (source : List (Poll SourceStep)) : UploadStream :=
  (boundedUpload ⟨source, false, fun h => by cases h⟩ ⟨100, some ⟨7⟩⟩
    (idleOperation.upload ⟨none, none, none⟩ 0) 0).2

def wholeBody : List (Poll SourceStep) := [.ready (.data sampleFrame), .ready .end_]

def brokenBody : List (Poll SourceStep) :=
  [.ready (.data sampleFrame), .pending, .ready (.data sampleFrame), .ready .end_]

theorem upload_complete_of_undisturbed_wholeBody :
    ∃ trace stream, Runs (Guarded Streams Undisturbed) (sampleStream wholeBody) trace stream ∧
      EndsCleanly trace ∧ CompleteBody wholeBody (forwarded trace) := by
  have run := runs_of_quietly (sampleStream wholeBody)
    [(false, sampleReading 1), (false, sampleReading 2)] (by decide)
  have hclean : EndsCleanly (pollStream (sampleStream wholeBody)
    [(false, sampleReading 1), (false, sampleReading 2)]).1 := by decide +kernel
  exact ⟨_, _, run, hclean, (upload_complete_of_undisturbed _ _ _ _).1 _ _ run hclean⟩

/-- A body whose second frame arrives after the quiet interval ran out: its stream ends like a
complete one, with the first frame only. -/
theorem clean_end_of_truncated_body :
    ∃ trace stream, Runs Streams (sampleStream brokenBody) trace stream ∧ EndsCleanly trace ∧
      payload (forwarded trace) = [104, 105] ∧
      payload (frames brokenBody) = [104, 105, 104, 105] ∧
      ¬ CompleteBody brokenBody (forwarded trace) :=
  ⟨_, _, runs_pollStream _ [(false, sampleReading 4), (false, sampleReading 11)],
    by decide +kernel, by decide +kernel, by decide +kernel, by decide⟩

end Camber.Proxy
