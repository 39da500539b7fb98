import Camber.Basic
import Camber.Lib.Transition

/-! A connection that takes an offered bridge owns the bridge's task until it has joined it. -/

namespace Camber.Upgrade

open Transition

inductive JoinResult where
  | completed
  | cancelled
  | panicked
deriving DecidableEq

def upgradeDisposition : JoinResult → ParticipantDisposition
  | .completed => .completed
  | .cancelled => .cancelledAndJoined
  | .panicked => .named

inductive Point where
  | serving
  | holding
  | joining
  | closing
  | ended (result : JoinResult)
deriving DecidableEq

def Point.isEnded : Point → Bool
  | .ended _ => true
  | _ => false

inductive Place where
  | unaccepted
  | connection
  | orphan
  | gone
deriving DecidableEq

/-- What became of the server's `ConnectionOwner`. -/
inductive Owner where
  | polled
  | dropped
  | yielded (result : JoinResult)
deriving DecidableEq

structure Connection where
  point : Point
  abortRequested : Bool
  bridge : Option JoinResult
  bridgeAborted : Bool
  child : Place
  owner : Owner
  /-- `ConnectionOwner::ended`. -/
  kept : Option JoinResult
  settled : List (ParticipantDisposition × Bool)

inductive Action where
  /-- `accept` takes the bridge. -/
  | accept
  /-- `UpgradeOwner::cancel`. -/
  | cancel
  | commit
  /-- The connection's `join` is polled and ready. -/
  | join
  | finish
  | panic
  | abort
  | dropTask
  | bridgeEnds (result : JoinResult)
  /-- The server polls its `ConnectionOwner`. -/
  | poll
  | dropOwner

namespace Connection

def new : Connection := ⟨.serving, false, none, false, .unaccepted, .polled, none, []⟩

def settle (disposition : ParticipantDisposition) (c : Connection) : Connection :=
  { c with settled := c.settled ++ [(disposition, c.bridge.isSome)], child := .gone }

/-- The last holder of the record lets go of it: an `UpgradeOwner` on it is dropped. -/
def letGo (c : Connection) : Connection :=
  if c.child = .orphan then { c with bridgeAborted := true }.settle .cancelledAndJoined else c

/-- The connection's future is dropped, and with it the `UpgradeOwner` it holds. -/
def unwind (result : JoinResult) (c : Connection) : Connection :=
  let left :=
    if c.child = .connection then
      { c with point := .ended result, bridgeAborted := true, child := .orphan }
    else { c with point := .ended result }
  if c.owner = .dropped then left.letGo else left

/-- `ConnectionOwner::poll_ended`, once the connection's task has ended. -/
def pollEnded (result : JoinResult) (c : Connection) : Connection :=
  match c.child, c.bridge with
  | .orphan, some joined =>
    { c.settle (upgradeDisposition joined) with owner := .yielded result, kept := none }
  | .orphan, none => { c with kept := some result }
  | _, _ => { c with owner := .yielded result, kept := none }

def next (c : Connection) : Action → Option Connection
  | .accept =>
    if c.point = .serving then some { c with point := .holding, child := .connection } else none
  | .cancel => if c.point = .holding then some { c with bridgeAborted := true } else none
  | .commit => if c.point = .holding then some { c with point := .joining } else none
  | .join =>
    match c.point, c.bridge with
    | .joining, some joined => some { c.settle (upgradeDisposition joined) with point := .closing }
    | _, _ => none
  | .finish =>
    if c.point = .serving ∨ c.point = .closing then some { c with point := .ended .completed }
    else none
  | .panic => if c.point.isEnded then none else some (c.unwind .panicked)
  | .abort => if c.owner = .polled then some { c with abortRequested := true } else none
  | .dropTask =>
    if c.abortRequested = true ∧ c.point.isEnded = false then some (c.unwind .cancelled) else none
  | .bridgeEnds result =>
    if c.bridge = none ∧ (result = .cancelled → c.bridgeAborted = true) then
      some { c with bridge := some result }
    else none
  | .poll =>
    match c.owner, c.kept, c.point with
    | .polled, some result, _ | .polled, none, .ended result => some (c.pollEnded result)
    | _, _, _ => none
  | .dropOwner =>
    if c.owner = .polled then
      let dropped := { c with owner := .dropped, abortRequested := true }
      some (if c.point.isEnded then dropped.letGo else dropped)
    else none

def Attended (c : Connection) : Action → Prop
  | .dropOwner => c.child = .unaccepted ∨ c.bridge.isSome = true
  | .accept => c.owner ≠ .dropped
  | _ => True

instance (c : Connection) : DecidablePred c.Attended := fun action => by
  unfold Attended
  split <;> infer_instance

abbrev Steps (c : Connection) (action : Action) (after : Connection) : Prop :=
  c.next action = some after

structure Joined (c : Connection) : Prop where
  waits : c.child ≠ .gone → c.settled = []
  once : c.child = .gone → ∃ disposition, c.settled = [(disposition, true)]
  settles : c.child ≠ .unaccepted → c.owner ≠ .polled → c.point.isEnded = true → c.child = .gone
  yielded : ∀ result, c.owner = .yielded result → c.point.isEnded = true ∧
    (c.child = .unaccepted ∨ c.child = .gone ∧ c.bridge.isSome = true)

structure Inv (c : Connection) : Prop where
  place : match c.child with
    | .unaccepted => c.settled = [] ∧ (c.point = .serving ∨ c.point.isEnded = true)
    | .connection => c.settled = [] ∧ (c.point = .holding ∨ c.point = .joining)
    | .orphan => c.settled = [] ∧ c.point.isEnded = true ∧ c.owner = .polled
    | .gone => (∃ disposition, c.settled = [(disposition, true)]) ∧ c.bridge.isSome = true ∧
      (c.point = .closing ∨ c.point.isEnded = true)
  attended : c.owner = .dropped → c.child = .unaccepted ∨ c.bridge.isSome = true
  kept : c.kept ≠ none → c.point.isEnded = true
  yielded : ∀ result, c.owner = .yielded result → c.point.isEnded = true ∧
    (c.child = .unaccepted ∨ c.child = .gone)

theorem Inv.pollEnded {c : Connection} (h : Inv c) (hended : c.point.isEnded = true)
    (result : JoinResult) : Inv (c.pollEnded result) := by
  obtain ⟨point, abortRequested, bridge, bridgeAborted, child, owner, kept, settled⟩ := c
  obtain ⟨hplace, hattended, hkept, hyielded⟩ := h
  cases point with
  | ended _ =>
    cases child <;> cases bridge <;> constructor <;> simp_all [Connection.pollEnded, settle]
  | _ => cases hended

theorem Inv.unwind {c : Connection} (h : Inv c) (hended : c.point.isEnded = false)
    (result : JoinResult) : Inv (c.unwind result) := by
  obtain ⟨point, abortRequested, bridge, bridgeAborted, child, owner, kept, settled⟩ := c
  obtain ⟨hplace, hattended, hkept, hyielded⟩ := h
  cases child <;> cases owner <;> constructor <;>
    simp_all [Connection.unwind, letGo, settle, Point.isEnded]

theorem Inv.dropOwner {c : Connection} (h : Inv c) (howner : c.owner = .polled)
    (hmeets : c.child = .unaccepted ∨ c.bridge.isSome = true) :
    Inv (if c.point.isEnded then { c with owner := .dropped, abortRequested := true }.letGo
      else { c with owner := .dropped, abortRequested := true }) := by
  obtain ⟨point, abortRequested, bridge, bridgeAborted, child, owner, kept, settled⟩ := c
  obtain ⟨hplace, hattended, hkept, hyielded⟩ := h
  by_cases hended : point.isEnded = true
  · cases child <;> constructor <;> simp_all [letGo, settle]
  · cases child <;> constructor <;> simp_all

theorem Inv.step {c after : Connection} {action : Action} (h : Inv c)
    (hnext : c.next action = some after) (hmeets : c.Attended action) : Inv after := by
  cases action with
  | panic =>
    simp only [next] at hnext
    split at hnext
    next => cases hnext
    next hrunning =>
      cases hnext
      exact h.unwind (by simpa using hrunning) .panicked
  | dropTask =>
    simp only [next] at hnext
    split at hnext
    next hready =>
      cases hnext
      exact h.unwind hready.2 .cancelled
    next => cases hnext
  | dropOwner =>
    simp only [next] at hnext
    split at hnext
    next howner =>
      cases hnext
      exact h.dropOwner howner hmeets
    next => cases hnext
  | poll =>
    simp only [next] at hnext
    split at hnext
    next hkept =>
      cases hnext
      exact h.pollEnded (h.kept (by simp [hkept])) _
    next hpoint =>
      cases hnext
      exact h.pollEnded (by rw [hpoint]; rfl) _
    next => cases hnext
  | join =>
    obtain ⟨point, abortRequested, bridge, bridgeAborted, child, owner, kept, settled⟩ := c
    obtain ⟨hplace, hattended, hkept, hyielded⟩ := h
    simp only [next] at hnext
    split at hnext
    next joined =>
      cases hnext
      cases child <;> constructor <;> simp_all [settle, Point.isEnded]
    next => cases hnext
  | accept | cancel | commit | finish | abort | bridgeEnds result =>
    obtain ⟨point, abortRequested, bridge, bridgeAborted, child, owner, kept, settled⟩ := c
    obtain ⟨hplace, hattended, hkept, hyielded⟩ := h
    simp only [next] at hnext
    split at hnext
    next hready =>
      cases hnext
      cases child <;> constructor <;> simp_all [Attended, Point.isEnded] <;> grind
    next => cases hnext

theorem Inv.joined {c : Connection} (h : Inv c) : Joined c := by
  obtain ⟨point, abortRequested, bridge, bridgeAborted, child, owner, kept, settled⟩ := c
  obtain ⟨hplace, hattended, hkept, hyielded⟩ := h
  cases child with
  | unaccepted =>
    exact ⟨fun _ => hplace.1, (fun hgone => by cases hgone), fun hne => absurd rfl hne,
      fun result howner => ⟨(hyielded result howner).1, .inl rfl⟩⟩
  | connection =>
    refine ⟨fun _ => hplace.1, (fun hgone => by cases hgone), fun _ _ hended => ?_, ?_⟩
    · rcases hplace.2 with rfl | rfl <;> cases hended
    · intro result howner
      rcases (hyielded result howner).2 with hplaced | hplaced <;> cases hplaced
  | orphan =>
    refine ⟨fun _ => hplace.1, (fun hgone => by cases hgone),
      fun _ howner => absurd hplace.2.2 howner, ?_⟩
    intro result howner
    rcases (hyielded result howner).2 with hplaced | hplaced <;> cases hplaced
  | gone =>
    exact ⟨fun hne => absurd rfl hne, fun _ => hplace.1, fun _ _ _ => rfl,
      fun result howner => ⟨(hyielded result howner).1, .inr ⟨rfl, hplace.2.1⟩⟩⟩

/-- As long as the server's owner is not dropped above a child that has not ended. -/
theorem children_joined {trace : List Action} {c : Connection}
    (run : Runs (Guarded Steps Attended) Connection.new trace c) : Joined c := by
  have h : Inv c := by
    induction run with
    | nil =>
      exact ⟨⟨rfl, .inl rfl⟩, fun _ => .inl rfl, fun hne => absurd rfl hne,
        fun result howner => by cases howner⟩
    | snoc _ step ih => exact ih.step step.1 step.2
  exact h.joined

def sampleOrphaned : List Action :=
  [.accept, .commit, .abort, .dropTask, .poll, .bridgeEnds .cancelled, .poll]

theorem children_joined_sampleOrphaned :
    ∃ c, Runs (Guarded Steps Attended) Connection.new sampleOrphaned c ∧
      c.owner = .yielded .cancelled ∧ c.settled = [(.cancelledAndJoined, true)] ∧ Joined c := by
  have hrun : Runs (fun c action after => (if c.Attended action then c.next action else none) =
      some after) Connection.new sampleOrphaned _ := runs_foldlM rfl
  have hguarded := hrun.mono fun c action after step => by
    by_cases hmeets : c.Attended action
    · rw [if_pos hmeets] at step
      exact (⟨step, hmeets⟩ : Guarded Steps Attended c action after)
    · rw [if_neg hmeets] at step
      cases step
  exact ⟨_, hguarded, rfl, rfl, children_joined hguarded⟩

/-- The set of owners is dropped above the orphan, which settles as joined while its task runs. -/
theorem settled_before_end :
    ∃ c, Runs Steps Connection.new
        [.accept, .commit, .abort, .dropTask, .poll, .dropOwner] c ∧
      c.bridge = none ∧ c.settled = [(.cancelledAndJoined, false)] ∧ ¬ Joined c := by
  refine ⟨_, runs_foldlM rfl, rfl, rfl, fun h => ?_⟩
  obtain ⟨disposition, hsettled⟩ := h.once rfl
  cases hsettled

end Connection

end Camber.Upgrade
