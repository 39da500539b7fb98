import Camber.Routing.Selection

/-! A report visits every stored registration; each of them was registered. -/

namespace Camber.Routing
open Str FrozenNode

variable {H σ : Type}

/-- Every method, in the order registrations are visited. -/
def allMethods : List Method := [.get, .post, .put, .delete, .patch, .head, .options]

/-- One node's stored registrations. -/
def visitHandlers (handlers : FrozenMethodHandlers H) : List (Method × FrozenHandler H) :=
  allMethods.filterMap fun method => (handlers.byMethod method).map fun stored => (method, stored)

mutual

/-- Every node's handlers: its own, its wildcard's, then those below it. -/
def handlerSets : FrozenNode H → List (FrozenMethodHandlers H)
  | ⟨staticChildren, paramChild, wildcard, handlers⟩ =>
    handlers :: wildcard.toList ++ handlerSetsChildren staticChildren ++ handlerSetsChild paramChild

def handlerSetsChildren : List (Text × FrozenNode H) → List (FrozenMethodHandlers H)
  | [] => []
  | (_, child) :: rest => handlerSets child ++ handlerSetsChildren rest

def handlerSetsChild : Option (FrozenNode H) → List (FrozenMethodHandlers H)
  | none => []
  | some child => handlerSets child

end

def visitRegistrations (node : FrozenNode H) : List (Method × FrozenHandler H) :=
  (handlerSets node).flatMap visitHandlers

theorem mem_handlerSets_self (node : FrozenNode H) : node.handlers ∈ handlerSets node := by
  obtain ⟨staticChildren, paramChild, wildcard, handlers⟩ := node
  simp [handlerSets]

variable {node : FrozenNode H} {handlers : FrozenMethodHandlers H} {method : Method}
  {stored : FrozenHandler H} {entries : List (Entry H)}

theorem mem_handlerSets_wildcard (h : node.wildcard = some handlers) :
    handlers ∈ handlerSets node := by
  obtain ⟨staticChildren, paramChild, wildcard, own⟩ := node
  obtain rfl : wildcard = some handlers := h
  simp [handlerSets]

theorem mem_handlerSetsChildren {children : List (Text × FrozenNode H)}
    {child : Text × FrozenNode H} (hchild : child ∈ children) (h : handlers ∈ handlerSets child.2) :
    handlers ∈ handlerSetsChildren children := by
  induction children with
  | nil => cases hchild
  | cons first rest ih =>
    obtain ⟨name, node⟩ := first
    rw [handlerSetsChildren, List.mem_append]
    rcases List.mem_cons.mp hchild with rfl | hrest
    · exact .inl h
    · exact .inr (ih hrest)

theorem mem_handlerSets_static {child : Text × FrozenNode H} (hchild : child ∈ node.staticChildren)
    (h : handlers ∈ handlerSets child.2) : handlers ∈ handlerSets node := by
  obtain ⟨staticChildren, paramChild, wildcard, own⟩ := node
  simp [handlerSets, mem_handlerSetsChildren hchild h]

theorem mem_handlerSets_param {child : FrozenNode H} (hchild : node.paramChild = some child)
    (h : handlers ∈ handlerSets child) : handlers ∈ handlerSets node := by
  obtain ⟨staticChildren, paramChild, wildcard, own⟩ := node
  obtain rfl : paramChild = some child := hchild
  simp [handlerSets, handlerSetsChild, h]

/-- A walk finds only handlers stored in the trie it walks. -/
def Stays (walk : Walk H σ) : Prop :=
  ∀ node s found, (walk node s).1 = some found → found.1 ∈ handlerSets node

theorem stays_resolveStatic {next : Walk H σ} (hnext : Stays next) (segment : Text) :
    Stays (resolveStatic next segment) := by
  intro node s found h
  unfold resolveStatic at h
  cases hchild : (SortedMap.binarySearch node.staticChildren segment).bind
      (node.staticChildren[·]?) with
  | none =>
    rw [hchild] at h
    cases h
  | some child =>
    rw [hchild] at h
    obtain ⟨i, -, hi⟩ := Option.bind_eq_some_iff.mp hchild
    exact mem_handlerSets_static (List.mem_of_getElem? hi) (hnext child.2 s found h)

theorem stays_resolveParam {next : Walk H σ} (hnext : Stays next) (segment : Text) :
    Stays (resolveParam next segment) := by
  intro node s found h
  unfold resolveParam at h
  cases hchild : node.paramChild with
  | none =>
    rw [hchild] at h
    cases h
  | some child =>
    rw [hchild] at h
    dsimp only at h
    obtain ⟨inner, s', hwalk⟩ : ∃ inner s', next child s = (inner, s') := ⟨_, _, rfl⟩
    rw [hwalk] at h
    cases inner with
    | none => cases h
    | some inner =>
      obtain rfl := Option.some.inj h
      exact mem_handlerSets_param hchild (hnext child s inner (congrArg Prod.fst hwalk))

theorem stays_resolveWildcard (accepts : Accepts H σ) (path : Text) (segments : List Slice) :
    Stays (resolveWildcard accepts path segments) := by
  intro node s found h
  unfold resolveWildcard at h
  cases hwildcard : node.wildcard with
  | none =>
    rw [hwildcard] at h
    cases h
  | some handlers =>
    rw [hwildcard] at h
    dsimp only at h
    obtain ⟨taken, s', haccepts⟩ : ∃ taken s', accepts handlers s = (taken, s') := ⟨_, _, rfl⟩
    rw [haccepts] at h
    cases taken with
    | false => cases h
    | true =>
      obtain rfl := Option.some.inj h
      exact mem_handlerSets_wildcard hwildcard

theorem stays_orWalk {first second : Walk H σ} (hfirst : Stays first) (hsecond : Stays second) :
    Stays (orWalk first second) := by
  intro node s found h
  unfold orWalk at h
  obtain ⟨inner, s', hwalk⟩ : ∃ inner s', first node s = (inner, s') := ⟨_, _, rfl⟩
  rw [hwalk] at h
  cases inner with
  | none => exact hsecond node s' found h
  | some inner =>
    obtain rfl := Option.some.inj h
    exact hfirst node s inner (congrArg Prod.fst hwalk)

theorem stays_resolve (accepts : Accepts H σ) (path : Text) (segments : List Slice) :
    Stays (resolve accepts path segments) := by
  induction segments with
  | nil =>
    intro node s found h
    unfold resolve at h
    obtain ⟨taken, s', haccepts⟩ : ∃ taken s', accepts node.handlers s = (taken, s') :=
      ⟨_, _, rfl⟩
    rw [haccepts] at h
    cases taken with
    | false => cases h
    | true =>
      obtain rfl := Option.some.inj h
      exact mem_handlerSets_self node
  | cons segment rest ih =>
    exact stays_orWalk (stays_resolveStatic ih segment.text)
      (stays_orWalk (stays_resolveParam ih segment.text)
        (stays_resolveWildcard accepts path (segment :: rest)))

theorem mem_visitHandlers_of_selectSlot (h : selectSlot handlers.byMethod method = some stored) :
    ∃ registered ∈ visitHandlers handlers, registered.2 = stored ∧
      (registered.1 = method ∨ method = .head ∧ registered.1 = .get) := by
  have hmem : ∀ m, handlers.byMethod m = some stored → (m, stored) ∈ visitHandlers handlers := by
    intro m hm
    refine List.mem_filterMap.mpr ⟨m, by cases m <;> decide, ?_⟩
    rw [hm]
    rfl
  rcases Option.or_eq_some_iff.mp h with hown | ⟨-, hfallback⟩
  · exact ⟨_, hmem method hown, rfl, .inl rfl⟩
  · cases method with
    | head =>
      obtain ⟨get, hget, hanswers⟩ := Option.bind_eq_some_iff.mp hfallback
      split_ifs at hanswers
      obtain rfl := Option.some.inj hanswers
      exact ⟨_, hmem .get hget, rfl, .inr ⟨rfl, rfl⟩⟩
    | _ => cases hfallback

/-- A selected handler is one the trie stores, under the route it was selected with. -/
theorem mem_visitRegistrations_of_select {path : Text} {segments : List Slice}
    {selected : Selected H} (h : node.select method path segments = some selected) :
    ∃ registered ∈ visitRegistrations node, registered.2.handler = selected.handler ∧
      registered.2.route = selected.route ∧
        (registered.1 = method ∨ method = .head ∧ registered.1 = .get) := by
  obtain ⟨found, hfound, hslot⟩ := Option.bind_eq_some_iff.mp h
  obtain ⟨stored, hstored, rfl⟩ := Option.map_eq_some_iff.mp hslot
  obtain ⟨registered, hmem, rfl, hmethod⟩ := mem_visitHandlers_of_selectSlot hstored
  have hset := stays_resolve (serving method) path segments node () found hfound
  exact ⟨registered, List.mem_flatMap.mpr ⟨found.1, hset, hmem⟩, rfl, rfl, hmethod⟩

theorem mem_handlerSetsChildren_iff {children : List (Text × FrozenNode H)} :
    handlers ∈ handlerSetsChildren children ↔ ∃ child ∈ children, handlers ∈ handlerSets child.2 := by
  constructor
  · intro h
    induction children with
    | nil => cases h
    | cons first rest ih =>
      obtain ⟨name, node⟩ := first
      rw [handlerSetsChildren, List.mem_append] at h
      rcases h with h | h
      · exact ⟨_, List.mem_cons_self, h⟩
      · obtain ⟨child, hmem, hchild⟩ := ih h
        exact ⟨child, List.mem_cons_of_mem _ hmem, hchild⟩
  · rintro ⟨child, hmem, h⟩
    exact mem_handlerSetsChildren hmem h

theorem mem_handlerSets_freeze {node : TrieNode H} (h : handlers ∈ handlerSets node.freeze) :
    handlers = freezeHandlers node.handlers ∨
      (∃ wildcard, node.wildcard = some wildcard ∧ handlers = freezeHandlers wildcard) ∨
      (∃ child ∈ node.staticChildren, handlers ∈ handlerSets child.2.freeze) ∨
      ∃ child, node.paramChild = some child ∧ handlers ∈ handlerSets child.freeze := by
  obtain ⟨staticChildren, paramChild, wildcard, own⟩ := node
  rw [TrieNode.freeze, handlerSets, freezeChildren_eq, freezeChild_eq] at h
  simp only [List.cons_append, List.mem_cons, List.mem_append, mem_handlerSetsChildren_iff,
    List.mem_map, Option.mem_toList, Option.map_eq_some_iff] at h
  rcases h with h | (⟨registered, rfl, rfl⟩ | ⟨child, ⟨node, hnode, rfl⟩, h⟩) | h
  · exact .inl h
  · exact .inr (.inl ⟨registered, rfl, rfl⟩)
  · exact .inr (.inr (.inl ⟨node, hnode, h⟩))
  · cases paramChild with
    | none => simp [handlerSetsChild] at h
    | some child => exact .inr (.inr (.inr ⟨child, rfl, h⟩))

theorem exists_registered_of_freezeSlots {registered : List (RegisteredHandler H)}
    (h : freezeSlots registered method = some stored) : ∃ r ∈ registered, stored = r.freeze := by
  induction registered using List.reverseRecOn with
  | nil => cases h
  | append_singleton registered last ih =>
    rw [freezeSlots, List.foldl_append] at h
    by_cases hmethod : method = last.method
    · subst hmethod
      rw [List.foldl_cons, List.foldl_nil, Function.update_self] at h
      exact ⟨last, by simp, (Option.some.inj h).symm⟩
    · rw [List.foldl_cons, List.foldl_nil, Function.update_of_ne hmethod] at h
      obtain ⟨r, hr, hstored⟩ := ih h
      exact ⟨r, List.mem_append_left _ hr, hstored⟩

theorem mem_under {label : Label} {e : Entry H} (h : e ∈ under label entries) :
    ∃ entry ∈ entries, entry.registered = e.registered ∧
      entry.segments.length = e.segments.length + 1 := by
  obtain ⟨entry, hentry, hunder⟩ := List.mem_filterMap.mp h
  cases hsegments : entry.segments with
  | nil =>
    rw [hsegments] at hunder
    cases hunder
  | cons segment rest =>
    rw [hsegments] at hunder
    dsimp only at hunder
    split_ifs at hunder
    obtain rfl := Option.some.inj hunder
    exact ⟨entry, hentry, rfl, by rw [hsegments, List.length_cons]⟩

theorem childOf_eq_some {child : TrieNode H} (h : childOf entries = some child) :
    entries ≠ [] ∧ child = .insertAll entries := by
  rw [childOf] at h
  split_ifs at h with hne
  exact ⟨hne, (Option.some.inj h).symm⟩

theorem handlerSets_insertAll_cases (h : handlers ∈ handlerSets (TrieNode.insertAll entries).freeze) :
    (∃ registered : List (RegisteredHandler H), handlers = freezeHandlers registered ∧
      ∀ r ∈ registered, ∃ entry ∈ entries, entry.registered = r) ∨
    ∃ label, under label entries ≠ [] ∧
      handlers ∈ handlerSets (TrieNode.insertAll (under label entries)).freeze := by
  have hholds := TrieNode.insertAll_holds entries
  rcases mem_handlerSets_freeze h with rfl | ⟨wildcard, hwildcard, rfl⟩ | ⟨child, hchild, hset⟩ |
      ⟨child, hchild, hset⟩
  · refine .inl ⟨_, rfl, ?_⟩
    rw [hholds.handlers]
    intro r hr
    obtain ⟨entry, hentry, hat⟩ := List.mem_filterMap.mp hr
    split_ifs at hat
    exact ⟨entry, hentry, Option.some.inj hat⟩
  · rw [hholds.wildcard] at hwildcard
    split_ifs at hwildcard
    obtain rfl := Option.some.inj hwildcard
    refine .inl ⟨_, rfl, ?_⟩
    intro r hr
    obtain ⟨e, he, rfl⟩ := List.mem_map.mp hr
    obtain ⟨entry, hentry, hregistered, -⟩ := mem_under he
    exact ⟨entry, hentry, hregistered⟩
  · obtain ⟨i, hi⟩ := List.mem_iff_getElem?.mp hchild
    have hlookup := hholds.sorted.lookup_of_getElem? hi
    rw [hholds.static] at hlookup
    obtain ⟨hne, hnode⟩ := childOf_eq_some hlookup
    rw [hnode] at hset
    exact .inr ⟨_, hne, hset⟩
  · rw [hholds.param] at hchild
    obtain ⟨hne, rfl⟩ := childOf_eq_some hchild
    exact .inr ⟨_, hne, hset⟩

/-- Every handler a frozen trie stores is one of the entries that built it. -/
theorem exists_entry_of_stored (hset : handlers ∈ handlerSets (TrieNode.insertAll entries).freeze)
    (h : handlers.byMethod method = some stored) :
    ∃ entry ∈ entries, stored = entry.registered.freeze := by
  have hroot : ∀ (entries : List (Entry H)) (registered : List (RegisteredHandler H)),
      handlers = freezeHandlers registered →
      (∀ r ∈ registered, ∃ entry ∈ entries, entry.registered = r) →
      ∃ entry ∈ entries, stored = entry.registered.freeze := by
    rintro entries registered rfl hfrom
    obtain ⟨r, hr, rfl⟩ := exists_registered_of_freezeSlots h
    obtain ⟨entry, hentry, rfl⟩ := hfrom r hr
    exact ⟨entry, hentry, rfl⟩
  -- an edge shortens every entry behind it, so the bound on their lengths carries the induction
  have hdepth : ∀ depth, ∀ entries : List (Entry H),
      (∀ entry ∈ entries, entry.segments.length ≤ depth) →
      handlers ∈ handlerSets (TrieNode.insertAll entries).freeze →
      ∃ entry ∈ entries, stored = entry.registered.freeze := by
    intro depth
    induction depth with
    | zero =>
      intro entries hlength hset
      rcases handlerSets_insertAll_cases hset with ⟨registered, heq, hfrom⟩ | ⟨label, hne, -⟩
      · exact hroot entries registered heq hfrom
      · obtain ⟨e, he⟩ := List.exists_mem_of_ne_nil _ hne
        obtain ⟨entry, hentry, -, hlen⟩ := mem_under he
        have := hlength entry hentry
        omega
    | succ depth ih =>
      intro entries hlength hset
      rcases handlerSets_insertAll_cases hset with ⟨registered, heq, hfrom⟩ | ⟨label, -, hbelow⟩
      · exact hroot entries registered heq hfrom
      · have hshort : ∀ e ∈ under label entries, e.segments.length ≤ depth := by
          intro e he
          obtain ⟨entry, hentry, -, hlen⟩ := mem_under he
          have := hlength entry hentry
          omega
        obtain ⟨e, he, hstored⟩ := ih _ hshort hbelow
        obtain ⟨entry, hentry, hregistered, -⟩ := mem_under he
        exact ⟨entry, hentry, by rw [hregistered]; exact hstored⟩
  obtain ⟨depth, hdepths⟩ : ∃ depth, ∀ entry ∈ entries, entry.segments.length ≤ depth :=
    ⟨(entries.map fun entry => entry.segments.length).sum, fun entry hentry =>
      List.single_le_sum (by simp) _ (List.mem_map_of_mem hentry)⟩
  exact hdepth depth entries hdepths hset

/-- A visited registration was registered. -/
theorem exists_registration_of_visited {regs : List (Registration H)}
    {visited : Method × FrozenHandler H} (h : visited ∈ visitRegistrations (router regs).freeze) :
    ∃ r ∈ regs, visited.2.handler = r.handler := by
  obtain ⟨handlers, hset, hvisited⟩ := List.mem_flatMap.mp h
  obtain ⟨method, -, hmethod⟩ := List.mem_filterMap.mp hvisited
  obtain ⟨stored, hstored, rfl⟩ := Option.map_eq_some_iff.mp hmethod
  rw [router_eq_insertAll] at hset
  obtain ⟨entry, hentry, rfl⟩ := exists_entry_of_stored hset hstored
  obtain ⟨r, hr, rfl⟩ := List.mem_map.mp hentry
  exact ⟨r, hr, rfl⟩

end Camber.Routing
