import Camber.Lib.Transition
import Camber.Multipart.Framing
import Camber.Multipart.Phases

/-! The ingress of a session as a machine: every event's reservation is released before the next
step. -/

namespace Camber.Multipart
open Str Transition IncrementalParser

namespace IncrementalParser

/-- The parser as an error of `read_field_metadata` leaves it: a block that was reserved and then
refused is released again. -/
def afterRefusedBlock (p : IncrementalParser) (end_ : ℕ) : IncrementalParser :=
  if headerLineCount (p.buffer.take end_) > p.limits.maxHeadersPerField then p
  else
    let p := { p with fieldsSeen := p.fieldsSeen + 1 }
    if p.fieldsSeen > p.limits.maxFields then p
    else
      match p.budget.reserve end_ with
      | .ok budget => { p with budget := budget.release end_ }
      | .error _ => p

def afterFill (p : IncrementalParser) (source : Bytes) (want : ℕ) : IncrementalParser :=
  match p.fill source want with
  | .ok (p, _) => p
  | .error _ => p

/-- `step` works in place: this is the parser it leaves behind when it answers an error. -/
def afterError (p : IncrementalParser) (source : Bytes) : IncrementalParser :=
  match p.state with
  | .opening =>
    p.afterFill source
      (bodyPrefix.length + p.boundary.length + delimiterSuffixBytes - p.buffer.length)
  | .headers =>
    let p' := p.afterFill source (p.limits.maxHeaderBytesPerField - p.buffer.length)
    match findBytes p'.buffer headerTerminator (p'.scanned - (headerTerminator.length - 1)) with
    | none => p'
    | some end_ => p'.afterRefusedBlock end_
  | .data =>
    let carry := delimiterCarryOver p.boundary.length
    match findDelimiter p.buffer p.boundary (p.scanned - carry) with
    | some _ => p
    | none =>
      match p.fillToDelimiter source carry with
      | .ok (some _, p, _) => p
      | .ok (none, p, _) => { p with scanned := p.buffer.length }
      | .error _ => p
  | .epilogue => p.afterFill source (epilogueProbeBytes - p.buffer.length)
  | .complete => p

def Balanced (p : IncrementalParser) : Prop :=
  p.budget.Holds p.limits.maxParserBufferBytes p.buffer.length

variable {p : IncrementalParser}

theorem afterFill_balanced (h : p.Invariant) (source : Bytes) (want : ℕ)
    (hfit : min want source.length = 0 ∨
      p.buffer.length + min want source.length ≤ p.limits.peak) :
    (p.afterFill source want).Balanced := by
  obtain ⟨budget, hfill, hacc⟩ := h.fill source want hfit
  rw [afterFill, hfill]
  exact hacc

theorem afterRefusedBlock_balanced (h : p.Balanced) (end_ : ℕ) :
    (p.afterRefusedBlock end_).Balanced := by
  unfold afterRefusedBlock
  split_ifs
  · exact h
  · dsimp only
    split_ifs
    · exact h
    · cases hres : p.budget.reserve end_ with
      | error e => exact h
      | ok budget => exact (MultipartBufferBudget.Holds.of_reserve h hres).release rfl

theorem afterError_balanced (h : p.Invariant) (source : Bytes) :
    (p.afterError source).Balanced := by
  have hst := h.state
  have hb := h.boundary_le
  have hheader : p.limits.maxHeaderBytesPerField * 2 ≤ p.limits.peak := le_max_left _ _
  have hwindow : p.limits.maxChunkBytes + (p.limits.maxBoundaryBytes + 5) ≤ p.limits.peak :=
    le_max_right _ _
  unfold afterError
  cases hs : p.state with
  | opening =>
    simp only [StateInvariant, hs] at hst
    have h2 : bodyPrefix.length = 2 := rfl
    have h2' : delimiterSuffixBytes = 2 := rfl
    exact afterFill_balanced h source _ (Or.inr (by omega))
  | headers =>
    simp only [StateInvariant, hs] at hst
    have hfilled := afterFill_balanced h source
      (p.limits.maxHeaderBytesPerField - p.buffer.length) (Or.inr (by omega))
    dsimp only
    split
    · exact hfilled
    · exact afterRefusedBlock_balanced hfilled _
  | data =>
    dsimp only
    cases hf : findDelimiter p.buffer p.boundary
        (p.scanned - delimiterCarryOver p.boundary.length) with
    | some pos => exact h.account
    | none =>
      have hno : ∀ j, ¬ DelimiterAt p.boundary p.buffer j := by
        simp only [StateInvariant, hs] at hst
        rw [delimiterCarryOver_eq] at hf
        have hfirst := findDelimiter_first p.buffer p.boundary
          (p.scanned - (p.boundary.length + 5))
        rw [hf] at hfirst
        intro j hd
        have := hst.2.2.1 j hd
        exact hfirst j (by omega) hd
      obtain ⟨delimiter, buffer, budget, rest, hfill, -, hinv, -, -⟩ :=
        fillToDelimiter_eq h hs source hno
      rw [delimiterCarryOver_eq, hfill]
      cases delimiter with
      | none => exact hinv.account
      | some pos => exact hinv.account
  | epilogue =>
    have h3 : epilogueProbeBytes = 3 := rfl
    have := p.limits.sound.maxChunkBytes_pos
    exact afterFill_balanced h source _ (by omega)
  | complete =>
    simp only [StateInvariant, hs] at hst

theorem afterFill_samePhase (p : IncrementalParser) (source : Bytes) (want : ℕ) :
    p.SamePhase (p.afterFill source want) := by
  unfold afterFill
  split
  next hfill => exact fill_samePhase hfill
  next => exact ⟨rfl, rfl⟩

theorem afterRefusedBlock_samePhase (p : IncrementalParser) (end_ : ℕ) :
    p.SamePhase (p.afterRefusedBlock end_) := by
  unfold afterRefusedBlock
  dsimp only
  split_ifs
  · exact ⟨rfl, rfl⟩
  · exact ⟨rfl, rfl⟩
  · split <;> exact ⟨rfl, rfl⟩

theorem afterError_samePhase (p : IncrementalParser) (source : Bytes) :
    p.SamePhase (p.afterError source) := by
  unfold afterError
  dsimp only
  split
  · exact afterFill_samePhase p _ _
  · have hfilled := afterFill_samePhase p source
      (p.limits.maxHeaderBytesPerField - p.buffer.length)
    split
    · exact hfilled
    · obtain ⟨hlimits, hstate⟩ := afterRefusedBlock_samePhase (p.afterFill source
        (p.limits.maxHeaderBytesPerField - p.buffer.length)) _
      exact ⟨hlimits.trans hfilled.1, hstate.trans hfilled.2⟩
  · split
    · exact ⟨rfl, rfl⟩
    · split
      next hfill => exact fillToDelimiter_samePhase hfill
      next filled _ hfill =>
        have hkept : p.SamePhase filled := fillToDelimiter_samePhase hfill
        exact hkept
      next => exact ⟨rfl, rfl⟩
  · exact afterFill_samePhase p _ _
  · exact ⟨rfl, rfl⟩

end IncrementalParser

inductive Turn where
  | advancing
  | starved
  | delivered (event : ParserEvent)
  | failed (error : RuntimeError)
  | stopped
deriving DecidableEq

def Turn.event : Turn → Option ParserEvent
  | .delivered event => some event
  | _ => none

def Turn.outstanding (turn : Turn) : ℕ := turn.event.elim 0 ParserEvent.reservation

structure Ingress where
  parser : IncrementalParser
  source : Bytes
  turn : Turn

namespace Ingress

def new (boundary : Text) (limits : MultipartLimits) : Ingress where
  parser := .new boundary limits
  source := []
  turn := .advancing

inductive Action where
  /-- One round of the loop of `advance`. -/
  | advance
  | pullFrame (frame : Bytes)
  | finish
  | releaseDelivered
  | stop

def advance (ingress : Ingress) : Ingress :=
  match ingress.parser.step ingress.source with
  | .ok (.event event, parser, rest) => ⟨parser, rest, .delivered event⟩
  | .ok (.continue_, parser, rest) => ⟨parser, rest, .advancing⟩
  | .ok (.needMore, parser, rest) => ⟨parser, rest, .starved⟩
  -- nothing reads what is left of the frame after an error
  | .error e => ⟨ingress.parser.afterError ingress.source, [], .failed e⟩

def finish (ingress : Ingress) : Ingress :=
  match ingress.parser.finish with
  | .ok (event, parser) => { ingress with parser, turn := .delivered event }
  | .error e => { ingress with turn := .failed e }

def act : Action → Ingress → Ingress
  | .advance, ingress => ingress.advance
  | .pullFrame frame, ingress => { ingress with source := frame, turn := .advancing }
  | .finish, ingress => ingress.finish
  | .releaseDelivered, ingress =>
    { ingress with
      parser := ingress.parser.releaseDelivered ingress.turn.outstanding
      turn := .advancing }
  | .stop, ingress => { ingress with turn := .stopped }

def Ready (ingress : Ingress) : Action → Prop
  | .advance => ingress.turn = .advancing
  | .pullFrame _ => ingress.turn = .starved
  | .finish => ingress.turn = .starved
  | .releaseDelivered => ingress.turn.event.isSome = true
  | .stop => ingress.turn = .starved

instance (ingress : Ingress) : DecidablePred ingress.Ready := fun action => by
  unfold Ready
  split <;> infer_instance

abbrev Steps : Ingress → Action → Ingress → Prop := Acts Ready act

/-- The parser after `End`: it holds nothing, and neither does its budget. -/
structure Closed (p : IncrementalParser) : Prop where
  state : p.state = .complete
  balanced : p.Balanced
  empty : p.buffer = []

/-- What is true of the parser at each turn. -/
inductive Sound (p : IncrementalParser) : Turn → Prop
  | advancing (h : p.Invariant) : Sound p .advancing
  | closed (h : Closed p) : Sound p .advancing
  | starved (h : p.Invariant) : Sound p .starved
  | delivered {event : ParserEvent} (hne : event ≠ .end_)
      (h : (p.releaseDelivered event.reservation).Invariant) : Sound p (.delivered event)
  | ended (h : Closed p) : Sound p (.delivered .end_)
  | failed {error : RuntimeError} (h : p.Balanced) (herror : FromGrammar error)
      (hopen : p.state ≠ .complete) : Sound p (.failed error)
  | stopped (h : p.Invariant) : Sound p .stopped

variable {p : IncrementalParser} {ingress : Ingress}

theorem finish_closed {q : IncrementalParser} {event : ParserEvent} (h : p.Invariant)
    (hfinish : p.finish = .ok (event, q)) : event = .end_ ∧ Closed q ∧ q.limits = p.limits := by
  unfold IncrementalParser.finish at hfinish
  split at hfinish
  next hs =>
    have hst := h.state
    simp only [StateInvariant, hs] at hst
  next =>
    split_ifs at hfinish
    obtain ⟨rfl, rfl⟩ := Prod.mk.inj (Except.ok.inj hfinish)
    have hnil : p.buffer.drop p.buffer.length = [] := List.drop_length
    refine ⟨rfl, ⟨rfl, ?_, hnil⟩, rfl⟩
    refine h.account.release ?_
    show p.buffer.length = (p.buffer.drop p.buffer.length).length + p.buffer.length
    rw [hnil, List.length_nil, Nat.zero_add]
  next => cases hfinish

theorem finish_error {e : RuntimeError} (hfinish : p.finish = .error e) :
    FromGrammar e ∧ p.state ≠ .complete := by
  have htruncated : FromGrammar (malformed truncatedBody) := by
    simp [truncatedBody, MultipartBufferBudget.bufferExhausted]
  unfold IncrementalParser.finish at hfinish
  split at hfinish
  next => cases hfinish
  next hs =>
    split_ifs at hfinish
    obtain rfl := Except.error.inj hfinish
    exact ⟨htruncated, by simp [hs]⟩
  next hs _ =>
    obtain rfl := Except.error.inj hfinish
    exact ⟨htruncated, hs⟩

theorem invariant_open (h : p.Invariant) : p.state ≠ .complete := by
  intro hs
  have hst := h.state
  simp only [StateInvariant, hs] at hst

theorem advance_sound (hturn : ingress.turn = .advancing) (h : Sound ingress.parser ingress.turn) :
    Sound ingress.advance.parser ingress.advance.turn ∧
      ingress.advance.parser.limits = ingress.parser.limits := by
  obtain ⟨parser, source, turn⟩ := ingress
  obtain rfl : turn = .advancing := hturn
  cases h with
  | closed hclosed =>
    -- a parser past its end answers `End` again
    have hstep : parser.step source = .ok (.event .end_, parser, source) := by
      rw [step, hclosed.state]
    simp only [advance, hstep, and_true]
    exact .ended hclosed
  | advancing hinv =>
    have hsound := step_sound hinv source
    cases hstep : parser.step source with
    | error e =>
      rw [hstep] at hsound
      simp only [advance, hstep]
      obtain ⟨hlimits, hstate⟩ := IncrementalParser.afterError_samePhase parser source
      exact ⟨.failed (IncrementalParser.afterError_balanced hinv source) hsound.1
        (hstate ▸ invariant_open hinv), hlimits⟩
    | ok result =>
      obtain ⟨step, q, rest⟩ := result
      rw [hstep] at hsound
      have hlimits := (step_moves hstep).1
      cases step with
      | event event =>
        simp only [advance, hstep]
        exact ⟨.delivered hsound.1 hsound.2.1, hlimits⟩
      | continue_ =>
        simp only [advance, hstep]
        exact ⟨.advancing hsound.2.2.1, hlimits⟩
      | needMore =>
        simp only [advance, hstep]
        exact ⟨.starved hsound.2.1, hlimits⟩

theorem act_sound {action : Action} (hready : ingress.Ready action)
    (h : Sound ingress.parser ingress.turn) :
    Sound (act action ingress).parser (act action ingress).turn ∧
      (act action ingress).parser.limits = ingress.parser.limits := by
  cases action with
  | advance => exact advance_sound hready h
  | pullFrame frame =>
    have hstarved : ingress.turn = .starved := hready
    rw [hstarved] at h
    cases h with
    | starved hinv => exact ⟨.advancing hinv, rfl⟩
  | finish =>
    have hstarved : ingress.turn = .starved := hready
    rw [hstarved] at h
    cases h with
    | starved hinv =>
      show Sound ingress.finish.parser ingress.finish.turn ∧ _
      cases hfinish : ingress.parser.finish with
      | error e =>
        obtain ⟨herror, hopen⟩ := finish_error hfinish
        simp only [act, finish, hfinish, and_true]
        exact .failed hinv.account herror hopen
      | ok result =>
        obtain ⟨event, q⟩ := result
        obtain ⟨rfl, hclosed, hlimits⟩ := finish_closed hinv hfinish
        simp only [act, finish, hfinish]
        exact ⟨.ended hclosed, hlimits⟩
  | releaseDelivered =>
    have hevent : ingress.turn.event.isSome = true := hready
    obtain ⟨parser, source, turn⟩ := ingress
    cases h with
    | delivered hne hinv => exact ⟨.advancing hinv, rfl⟩
    | ended hclosed =>
      exact ⟨.closed ⟨hclosed.state, hclosed.balanced.release rfl, hclosed.empty⟩, rfl⟩
    | _ => exact nomatch hevent
  | stop =>
    have hstarved : ingress.turn = .starved := hready
    rw [hstarved] at h
    cases h with
    | starved hinv => exact ⟨.stopped hinv, rfl⟩

structure Accounted (limits : MultipartLimits) (ingress : Ingress) : Prop where
  exact_ : ingress.parser.budget.reserved =
    ingress.parser.buffer.length + ingress.turn.outstanding
  within : ingress.parser.budget.reserved ≤ limits.maxParserBufferBytes
  never_exhausted :
    ingress.turn ≠ .failed (malformed MultipartBufferBudget.bufferExhausted)
  never_clamped : ingress.parser.budget.asserted = true
  end_empty : ingress.turn = .delivered .end_ ∨ ingress.parser.state = .complete →
    ingress.parser.budget.reserved = 0

theorem Sound.holds {turn : Turn} (h : Sound p turn) :
    p.budget.Holds p.limits.maxParserBufferBytes (p.buffer.length + turn.outstanding) := by
  cases h with
  | advancing h => exact h.account
  | closed h => exact h.balanced
  | starved h => exact h.account
  | delivered _ h => exact h.account.before_release
  | ended h => exact h.balanced
  | failed h _ _ => exact h
  | stopped h => exact h.account

theorem Sound.accounted (h : Sound ingress.parser ingress.turn) :
    Accounted ingress.parser.limits ingress := by
  have hholds := h.holds
  obtain ⟨parser, source, turn⟩ := ingress
  refine ⟨hholds.reserved_eq, hholds.limit_eq ▸ parser.budget.within, ?_, hholds.asserted, ?_⟩
  · rintro rfl
    cases h with
    | failed _ herror _ => exact herror rfl
  · intro hend
    have hclosed : Closed parser ∧ turn.outstanding = 0 := by
      cases h with
      | closed h => exact ⟨h, rfl⟩
      | ended h => exact ⟨h, rfl⟩
      | advancing h => exact absurd hend (by simp [invariant_open h])
      | starved h => exact absurd hend (by simp [invariant_open h])
      | stopped h => exact absurd hend (by simp [invariant_open h])
      | failed _ _ hopen => exact absurd hend (by simp [hopen])
      | @delivered event hne h =>
        have hopen : (parser.releaseDelivered event.reservation).state ≠ .complete :=
          invariant_open h
        change parser.state ≠ .complete at hopen
        exact absurd hend (by simp [hne, hopen])
    rw [hholds.reserved_eq, hclosed.1.empty, hclosed.2, List.length_nil]

def SoundUnder (limits : MultipartLimits) (_ : List Action) (ingress : Ingress) : Prop :=
  Sound ingress.parser ingress.turn ∧ ingress.parser.limits = limits

theorem sound_of_runs {limits : MultipartLimits} {boundary : Text} {actions : List Action}
    {ingress : Ingress} (hboundary : byteLength boundary ≤ limits.maxBoundaryBytes)
    (hrun : Runs Steps (new boundary limits) actions ingress) :
    SoundUnder limits actions ingress := by
  refine hrun.invariant ⟨.advancing (invariant_new hboundary), rfl⟩ ?_
  rintro actions ingress action next - ⟨hsound, hlimits⟩ ⟨hready, rfl⟩
  obtain ⟨hnext, hsame⟩ := act_sound hready hsound
  exact ⟨hnext, hsame.trans hlimits⟩

/-- In every run of a session's ingress, over every framing of every body, the budget counts the
retained bytes and the one outstanding event, and never has to refuse or to clamp. -/
theorem ingress_accounted (limits : MultipartLimits) (boundary : Text)
    (hboundary : byteLength boundary ≤ limits.maxBoundaryBytes) (actions : List Action)
    (ingress : Ingress) (hrun : Runs Steps (new boundary limits) actions ingress) :
    Accounted limits ingress := by
  obtain ⟨hsound, rfl⟩ := sound_of_runs hboundary hrun
  exact hsound.accounted

def oneFieldRun : List Action :=
  [.advance, .pullFrame oneFieldBody, .advance, .advance, .releaseDelivered, .advance,
    .releaseDelivered, .advance, .releaseDelivered, .advance, .finish, .releaseDelivered]

theorem ingress_accounted_one_field :
    byteLength "B".toList ≤ MultipartLimits.default.maxBoundaryBytes ∧
      Accounted .default (replay act (new "B".toList .default) oneFieldRun) :=
  have hb : byteLength "B".toList ≤ MultipartLimits.default.maxBoundaryBytes := by decide
  ⟨hb, ingress_accounted .default "B".toList hb oneFieldRun _ (runs_replay (by decide +kernel))⟩

end Ingress

end Camber.Multipart
