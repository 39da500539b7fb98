import Camber.Routing.Trie

/-! A trie node is named by the labels on the way to it: the segments of the patterns that end
there, without their capture names. -/

namespace Camber.Routing

open Str TrieNode Segment SortedMap

inductive Label where
  | static (name : Text)
  | param
  | wildcard
deriving DecidableEq

def Segment.label : Segment → Label
  | static name => .static name
  | param _ => .param
  | wildcard _ => .wildcard

/-- A handler and the segments it is to be inserted under. -/
structure Entry (H : Type) where
  segments : List Segment
  registered : RegisteredHandler H

def Entry.node {H : Type} (entry : Entry H) : List Label := entry.segments.map label

variable {H : Type}

@[simp] theorem Entry.node_nil (registered : RegisteredHandler H) :
    (⟨[], registered⟩ : Entry H).node = [] := rfl

@[simp] theorem Entry.node_cons (segment : Segment) (rest : List Segment)
    (registered : RegisteredHandler H) :
    (⟨segment :: rest, registered⟩ : Entry H).node =
      segment.label :: (⟨rest, registered⟩ : Entry H).node := rfl

section Entries

variable {H : Type}

def TrieNode.insertAll (entries : List (Entry H)) : TrieNode H :=
  entries.foldl (fun node entry => node.insertSegments entry.registered entry.segments) .new

def nodeHandlers (entries : List (Entry H)) (labels : List Label) : List (RegisteredHandler H) :=
  entries.filterMap fun entry =>
    if entry.node = labels then some entry.registered else none

def under (label : Label) (entries : List (Entry H)) : List (Entry H) :=
  entries.filterMap fun entry =>
    match entry.segments with
    | [] => none
    | segment :: rest => if segment.label = label then some ⟨rest, entry.registered⟩ else none

def childOf (entries : List (Entry H)) : Option (TrieNode H) :=
  if entries = [] then none else some (.insertAll entries)

@[simp] theorem nodeHandlers_nil (labels : List Label) :
    nodeHandlers ([] : List (Entry H)) labels = [] := rfl

theorem nodeHandlers_cons (entries : List (Entry H)) (label : Label) (labels : List Label) :
    nodeHandlers entries (label :: labels) = nodeHandlers (under label entries) labels := by
  rw [nodeHandlers, nodeHandlers, under, List.filterMap_filterMap]
  congr 1
  funext entry
  obtain ⟨segments, handler⟩ := entry
  cases segments with
  | nil => simp
  | cons segment rest => by_cases h : segment.label = label <;> simp [h]

theorem TrieNode.insertAll_append (entries : List (Entry H)) (entry : Entry H) :
    insertAll (entries ++ [entry]) =
      (insertAll entries).insertSegments entry.registered entry.segments := by
  simp [insertAll]

theorem childOf_append (entries : List (Entry H)) (entry : Entry H) :
    childOf (entries ++ [entry]) =
      some (((childOf entries).getD .new).insertSegments entry.registered entry.segments) := by
  rw [childOf, if_neg (by simp), insertAll_append, childOf]
  split_ifs with h
  · simp [h, insertAll]
  · rfl

structure Holds (node : TrieNode H) (entries : List (Entry H)) : Prop where
  handlers : node.handlers = nodeHandlers entries []
  sorted : StrictKeys node.staticChildren
  static : ∀ name, node.staticChildren.lookup name = childOf (under (.static name) entries)
  param : node.paramChild = childOf (under .param entries)
  wildcard : node.wildcard =
    if under .wildcard entries = [] then none else some ((under .wildcard entries).map Entry.registered)

theorem under_append_same (entries : List (Entry H)) (segment : Segment) (rest : List Segment)
    (registered : RegisteredHandler H) :
    under segment.label (entries ++ [⟨segment :: rest, registered⟩]) =
      under segment.label entries ++ [⟨rest, registered⟩] := by
  simp [under]

theorem under_append_other (entries : List (Entry H)) {segment : Segment} {label : Label}
    (hne : segment.label ≠ label) (rest : List Segment) (registered : RegisteredHandler H) :
    under label (entries ++ [⟨segment :: rest, registered⟩]) = under label entries := by
  simp [under, hne]

theorem nodeHandlers_append_cons (entries : List (Entry H)) (segment : Segment)
    (rest : List Segment) (registered : RegisteredHandler H) :
    nodeHandlers (entries ++ [⟨segment :: rest, registered⟩]) [] = nodeHandlers entries [] := by
  simp [nodeHandlers]

theorem Holds.insertSegments {node : TrieNode H} {entries : List (Entry H)}
    (h : Holds node entries) (entry : Entry H) :
    Holds (node.insertSegments entry.registered entry.segments) (entries ++ [entry]) := by
  obtain ⟨segments, registered⟩ := entry
  match segments with
  | [] =>
    have hunder : ∀ label, under label (entries ++ [⟨[], registered⟩]) = under label entries := by
      intro label
      simp [under]
    refine ⟨?_, h.sorted, ?_, ?_, ?_⟩
    · simp [TrieNode.insertSegments, h.handlers, nodeHandlers]
    · intro name
      rw [hunder]
      exact h.static name
    · rw [hunder]
      exact h.param
    · rw [hunder]
      exact h.wildcard
  | .static name :: rest =>
    refine ⟨?_, strictKeys_entry h.sorted name _ _, ?_, ?_, ?_⟩
    · rw [nodeHandlers_append_cons]
      exact h.handlers
    · intro probe
      simp only [TrieNode.insertSegments, lookup_entry h.sorted, h.static]
      by_cases hp : probe = name
      · subst hp
        rw [if_pos rfl]
        exact ((congrArg childOf (under_append_same entries (.static probe) rest registered)).trans
          (childOf_append _ _)).symm
      · rw [if_neg hp, under_append_other entries]
        simpa [label] using Ne.symm hp
    · rw [under_append_other entries (by simp [label])]
      exact h.param
    · rw [under_append_other entries (by simp [label])]
      exact h.wildcard
  | .param name :: rest =>
    refine ⟨?_, h.sorted, ?_, ?_, ?_⟩
    · rw [nodeHandlers_append_cons]
      exact h.handlers
    · intro probe
      rw [under_append_other entries (by simp [label])]
      exact h.static probe
    · have hsame := under_append_same entries (.param name) rest registered
      rw [label] at hsame
      rw [hsame, childOf_append, ← h.param]
      rfl
    · rw [under_append_other entries (by simp [label])]
      exact h.wildcard
  | .wildcard name :: rest =>
    refine ⟨?_, h.sorted, ?_, ?_, ?_⟩
    · rw [nodeHandlers_append_cons]
      exact h.handlers
    · intro probe
      rw [under_append_other entries (by simp [label])]
      exact h.static probe
    · rw [under_append_other entries (by simp [label])]
      exact h.param
    · have hsame := under_append_same entries (.wildcard name) rest registered
      rw [label] at hsame
      rw [hsame, if_neg (by simp), TrieNode.insertSegments, h.wildcard]
      by_cases hnone : under .wildcard entries = []
      · simp [hnone]
      · simp [hnone]

theorem TrieNode.insertAll_holds (entries : List (Entry H)) :
    Holds (insertAll entries) entries := by
  induction entries using List.reverseRecOn with
  | nil =>
    exact ⟨rfl, List.Pairwise.nil, fun _ => rfl, rfl, rfl⟩
  | append_singleton entries entry ih =>
    rw [insertAll_append]
    exact ih.insertSegments entry

end Entries

section Frozen

variable {H : Type}

theorem freezeChildren_eq (children : List (Text × TrieNode H)) :
    freezeChildren children = children.map fun child => (child.1, child.2.freeze) := by
  induction children with
  | nil => rfl
  | cons child rest ih =>
    obtain ⟨name, node⟩ := child
    rw [freezeChildren, ih, List.map_cons]

theorem freezeChild_eq (child : Option (TrieNode H)) :
    freezeChild child = child.map freeze := by
  cases child with
  | none => rfl
  | some node => rw [freezeChild, Option.map_some]

@[simp] theorem TrieNode.freeze_handlers (node : TrieNode H) :
    node.freeze.handlers = freezeHandlers node.handlers := by
  obtain ⟨_, _, _, _⟩ := node
  rw [freeze]

@[simp] theorem TrieNode.freeze_staticChildren (node : TrieNode H) :
    node.freeze.staticChildren = node.staticChildren.map fun child => (child.1, child.2.freeze) := by
  obtain ⟨_, _, _, _⟩ := node
  rw [freeze, freezeChildren_eq]

@[simp] theorem TrieNode.freeze_paramChild (node : TrieNode H) :
    node.freeze.paramChild = node.paramChild.map freeze := by
  obtain ⟨_, _, _, _⟩ := node
  rw [freeze, freezeChild_eq]

@[simp] theorem TrieNode.freeze_wildcard (node : TrieNode H) :
    node.freeze.wildcard = node.wildcard.map freezeHandlers := by
  obtain ⟨_, _, _, _⟩ := node
  rw [freeze]

end Frozen

def candidates : List Text → List (List Label)
  | [] => [[]]
  | segment :: rest =>
    (candidates rest).map (.static segment :: ·) ++
      ((candidates rest).map (.param :: ·) ++ [[.wildcard]])

def captured (path : Text) : List Label → List Slice → List Text
  | .static _ :: labels, _ :: segments => captured path labels segments
  | .param :: labels, segment :: segments => segment.text :: captured path labels segments
  | .wildcard :: _, segments => [wildcardSpan path segments]
  | _, _ => []

def wildcardLast : List Segment → Bool
  | [] => true
  | .wildcard _ :: rest => rest.isEmpty
  | _ :: rest => wildcardLast rest

def truncate : List Segment → List Segment
  | [] => []
  | .wildcard name :: _ => [.wildcard name]
  | segment :: rest => segment :: truncate rest

def Entry.truncated {H : Type} (entry : Entry H) : Entry H :=
  ⟨truncate entry.segments, entry.registered⟩

theorem wildcardLast_truncate (segments : List Segment) : wildcardLast (truncate segments) := by
  induction segments with
  | nil => rfl
  | cons segment rest ih =>
    cases segment with
    | static name => exact ih
    | param name => exact ih
    | wildcard name => rfl

theorem TrieNode.insertSegments_truncate (registered : RegisteredHandler H)
    (segments : List Segment) (node : TrieNode H) :
    insertSegments registered (truncate segments) node = insertSegments registered segments node := by
  induction segments generalizing node with
  | nil => rfl
  | cons segment rest ih =>
    have hrest : insertSegments registered (truncate rest) = insertSegments registered rest :=
      funext ih
    cases segment with
    | static name => simp only [truncate, insertSegments, hrest]
    | param name => simp only [truncate, insertSegments, hrest]
    | wildcard name => rfl

theorem TrieNode.insertAll_truncated (entries : List (Entry H)) :
    insertAll (entries.map Entry.truncated) = insertAll entries := by
  rw [insertAll, insertAll, List.foldl_map]
  congr 1
  funext node entry
  exact insertSegments_truncate entry.registered entry.segments node

section WildcardLast

variable {H : Type} {entries : List (Entry H)}
  (hlast : ∀ entry ∈ entries, wildcardLast entry.segments)

include hlast

theorem wildcardLast_under {label : Label} (hne : label ≠ .wildcard) :
    ∀ entry ∈ under label entries, wildcardLast entry.segments := by
  intro entry hentry
  obtain ⟨⟨segments, registered⟩, hmem, hunder⟩ := List.mem_filterMap.mp hentry
  have h := hlast _ hmem
  match segments with
  | [] => simp at hunder
  | segment :: rest =>
    simp only [Option.ite_none_right_eq_some, Option.some.injEq] at hunder
    obtain ⟨hlabel, rfl⟩ := hunder
    cases segment with
    | static name => exact h
    | param name => exact h
    | wildcard name => exact absurd hlabel.symm hne

theorem nodeHandlers_wildcard :
    nodeHandlers entries [.wildcard] = (under .wildcard entries).map Entry.registered := by
  rw [nodeHandlers_cons, nodeHandlers, ← List.filterMap_eq_map (f := Entry.registered)]
  refine List.filterMap_congr fun entry hentry => ?_
  obtain ⟨⟨segments, registered⟩, hmem, hunder⟩ := List.mem_filterMap.mp hentry
  have h := hlast _ hmem
  match segments with
  | [] => simp at hunder
  | segment :: rest =>
    simp only [Option.ite_none_right_eq_some, Option.some.injEq] at hunder
    obtain ⟨hlabel, rfl⟩ := hunder
    cases segment with
    | static name => cases hlabel
    | param name => cases hlabel
    | wildcard name =>
      have hrest : rest = [] := by simpa [wildcardLast] using h
      simp [hrest]

end WildcardLast

namespace FrozenNode

variable {H σ : Type}

def scan (accepts : Accepts H σ) (handlersAt : List Label → FrozenMethodHandlers H) :
    List (List Label) → σ → Option (List Label) × σ
  | [], s => (none, s)
  | labels :: rest, s =>
    match accepts (handlersAt labels) s with
    | (true, s) => (some labels, s)
    | (false, s) => scan accepts handlersAt rest s

def matchAt (entries : List (Entry H)) (path : Text) (segments : List Slice)
    (labels : List Label) : PathMatch H :=
  (freezeHandlers (nodeHandlers entries labels), (captured path labels segments).reverse)

theorem matchAt_static (entries : List (Entry H)) (path : Text) (segment : Slice)
    (rest : List Slice) :
    matchAt entries path (segment :: rest) ∘ (.static segment.text :: ·) =
      matchAt (under (.static segment.text) entries) path rest := by
  funext labels
  simp [matchAt, nodeHandlers_cons, captured]

theorem matchAt_param (entries : List (Entry H)) (path : Text) (segment : Slice)
    (rest : List Slice) :
    matchAt entries path (segment :: rest) ∘ (.param :: ·) =
      (fun found => (found.1, found.2 ++ [segment.text])) ∘
        matchAt (under .param entries) path rest := by
  funext labels
  simp [matchAt, nodeHandlers_cons, captured]

def viaChild (next : Walk H σ) (child : Option (FrozenNode H)) (s : σ) :
    Option (PathMatch H) × σ :=
  match child with
  | none => (none, s)
  | some child => next child s

theorem scan_append (accepts : Accepts H σ) (handlersAt : List Label → FrozenMethodHandlers H)
    (first second : List (List Label)) (s : σ) :
    scan accepts handlersAt (first ++ second) s =
      match scan accepts handlersAt first s with
      | (some labels, s) => (some labels, s)
      | (none, s) => scan accepts handlersAt second s := by
  induction first generalizing s with
  | nil => rfl
  | cons labels rest ih =>
    rw [List.cons_append, scan, scan]
    rcases accepts (handlersAt labels) s with ⟨_ | _, s⟩
    · exact ih s
    · rfl

theorem scan_map_cons (accepts : Accepts H σ) (entries : List (Entry H)) (label : Label)
    (names : List (List Label)) (s : σ) :
    scan accepts (fun labels => freezeHandlers (nodeHandlers entries labels))
        (names.map (label :: ·)) s =
      Prod.map (Option.map (label :: ·)) id
        (scan accepts (fun labels => freezeHandlers (nodeHandlers (under label entries) labels))
          names s) := by
  induction names generalizing s with
  | nil => rfl
  | cons labels rest ih =>
    rw [List.map_cons, scan, scan, nodeHandlers_cons]
    rcases accepts (freezeHandlers (nodeHandlers (under label entries) labels)) s with ⟨_ | _, s⟩
    · exact ih s
    · rfl

theorem resolveStatic_eq {node : FrozenNode H} (hsorted : StrictKeys node.staticChildren)
    (next : Walk H σ) (segment : Text) (s : σ) :
    resolveStatic next segment node s =
      viaChild next (node.staticChildren.lookup segment) s := by
  rw [← binarySearch_lookup hsorted, resolveStatic]
  rcases (binarySearch node.staticChildren segment).bind (node.staticChildren[·]?) with
    _ | ⟨name, child⟩
  · rfl
  · rfl

theorem resolveParam_eq (next : Walk H σ) (segment : Text) (node : FrozenNode H) (s : σ) :
    resolveParam next segment node s =
      Prod.map (Option.map fun found => (found.1, found.2 ++ [segment])) id
        (viaChild next node.paramChild s) := by
  rw [resolveParam]
  rcases node.paramChild with _ | child
  · rfl
  · simp only [viaChild]
    rcases next child s with ⟨_ | ⟨handlers, captures⟩, s⟩
    · rfl
    · rfl

theorem orWalk_scan {accepts : Accepts H σ} {handlersAt : List Label → FrozenMethodHandlers H}
    {answer : List Label → PathMatch H} {first second : Walk H σ} {node : FrozenNode H}
    {before after : List (List Label)}
    (hfirst : ∀ s, first node s =
      Prod.map (Option.map answer) id (scan accepts handlersAt before s))
    (hsecond : ∀ s, second node s =
      Prod.map (Option.map answer) id (scan accepts handlersAt after s)) (s : σ) :
    orWalk first second node s =
      Prod.map (Option.map answer) id (scan accepts handlersAt (before ++ after) s) := by
  rw [orWalk, hfirst, scan_append]
  rcases scan accepts handlersAt before s with ⟨_ | labels, s⟩
  · exact hsecond s
  · rfl

section Scan

variable {accepts : Accepts H σ}
  (hskip : ∀ s, accepts (freezeHandlers ([] : List (RegisteredHandler H))) s = (false, s))

include hskip

theorem resolve_insertAll_nil (path : Text) (segments : List Slice) (s : σ) :
    resolve accepts path segments (insertAll ([] : List (Entry H))).freeze s =
      (none, s) := by
  cases segments with
  | nil =>
    have h : accepts (insertAll ([] : List (Entry H))).freeze.handlers s = (false, s) := by
      rw [freeze_handlers]
      exact hskip s
    simp only [resolve, h]
  | cons segment rest => rfl

theorem viaChild_childOf (path : Text) (segments : List Slice) (entries : List (Entry H)) (s : σ) :
    viaChild (resolve accepts path segments) ((childOf entries).map freeze) s =
      resolve accepts path segments (insertAll entries).freeze s := by
  rw [childOf]
  split_ifs with h
  · rw [h, resolve_insertAll_nil hskip]
    rfl
  · rfl

theorem resolveWildcard_eq {entries : List (Entry H)}
    (hlast : ∀ entry ∈ entries, wildcardLast entry.segments) (path : Text) (segments : List Slice)
    (s : σ) :
    resolveWildcard accepts path segments (insertAll entries).freeze s =
      Prod.map (Option.map (matchAt entries path segments)) id
        (scan accepts (fun labels => freezeHandlers (nodeHandlers entries labels))
          [[.wildcard]] s) := by
  rw [resolveWildcard, freeze_wildcard, (insertAll_holds entries).wildcard]
  simp only [scan, nodeHandlers_wildcard hlast]
  by_cases hnone : under .wildcard entries = []
  · simp [hnone, hskip]
  · simp only [hnone, if_false, Option.map_some]
    rcases accepts (freezeHandlers ((under .wildcard entries).map Entry.registered)) s with ⟨_ | _, s⟩
    · rfl
    · simp [matchAt, nodeHandlers_wildcard hlast, captured]

theorem resolve_eq_scan {entries : List (Entry H)}
    (hlast : ∀ entry ∈ entries, wildcardLast entry.segments) (path : Text) (segments : List Slice)
    (s : σ) :
    resolve accepts path segments (insertAll entries).freeze s =
      Prod.map (Option.map (matchAt entries path segments)) id
        (scan accepts (fun labels => freezeHandlers (nodeHandlers entries labels))
          (candidates (segments.map Slice.text)) s) := by
  have holds := fun entries : List (Entry H) => insertAll_holds entries
  induction segments generalizing entries s with
  | nil =>
    simp only [resolve, freeze_handlers, (holds entries).handlers, List.map_nil,
      candidates, scan]
    rcases accepts (freezeHandlers (nodeHandlers entries [])) s with ⟨_ | _, s⟩
    · rfl
    · rfl
  | cons segment rest ih =>
    have hunder : ∀ label, label ≠ .wildcard → ∀ entry ∈ under label entries,
        wildcardLast entry.segments := fun label hne => wildcardLast_under hlast hne
    rw [List.map_cons, candidates]
    refine orWalk_scan (fun s => ?_) (orWalk_scan (fun s => ?_) (fun s => ?_)) s
    · -- the static child holds the entries that start with the segment
      have hsorted := (holds entries).sorted.map_snd freeze
      rw [← freeze_staticChildren] at hsorted
      rw [resolveStatic_eq hsorted, freeze_staticChildren, lookup_map_snd,
        (holds entries).static, viaChild_childOf hskip, ih (hunder _ (by simp)), scan_map_cons]
      simp only [Prod.map_map, Option.map_comp_map, matchAt_static, Function.comp_id]
    · rw [resolveParam_eq, freeze_paramChild, (holds entries).param,
        viaChild_childOf hskip, ih (hunder _ (by simp)), scan_map_cons]
      simp only [Prod.map_map, Option.map_comp_map, matchAt_param]
    · exact resolveWildcard_eq hskip hlast path (segment :: rest) s

end Scan

end FrozenNode

end Camber.Routing
