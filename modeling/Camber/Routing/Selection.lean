import Camber.Routing.Table

/-! The declarative router reads a flat list of routes; selecting from the trie answers the same. -/

namespace Camber.Routing

open Str FrozenNode

/-- One call of route registration. -/
structure Registration (H : Type) where
  method : Method
  path : Text
  handler : RouteHandler H

namespace Registration

variable {H : Type}

def entry (r : Registration H) : Entry H where
  segments := parseSegments r.path
  registered :=
    { method := r.method
      handler := r.handler
      captureNames := (parseSegments r.path).filterMap Segment.captureName
      route := normalizeRoute (parseSegments r.path) }

end Registration

def router {H : Type} (regs : List (Registration H)) : TrieNode H :=
  regs.foldl (fun node r => node.insertRoute r.method r.path r.handler) .new

inductive Matches : List Label → List Text → Prop
  | nil : Matches [] []
  | static {labels : List Label} {rest : List Text} (name : Text) (h : Matches labels rest) :
      Matches (.static name :: labels) (name :: rest)
  | param {labels : List Label} {rest : List Text} (value : Text) (h : Matches labels rest) :
      Matches (.param :: labels) (value :: rest)
  | wildcard (first : Text) (rest : List Text) : Matches [.wildcard] (first :: rest)

theorem Matches.texts_ne_nil {label : Label} {labels : List Label} {texts : List Text}
    (h : Matches (label :: labels) texts) : texts ≠ [] := by
  cases h <;> simp

def Label.rank : Label → ℕ
  | static _ => 0
  | param => 1
  | wildcard => 2

def ranks (labels : List Label) : List ℕ := labels.map Label.rank

structure IsLast {α : Type} (P : α → Prop) (l : List α) (i : ℕ) (a : α) : Prop where
  get : l[i]? = some a
  holds : P a
  after : ∀ j b, i < j → l[j]? = some b → ¬ P b

section Declarative

variable {H : Type}

inductive Serves (entries : List (Entry H)) : Method → Entry H → Prop
  | own (r : Entry H) : Serves entries r.registered.method r
  | head (r : Entry H) (hget : r.registered.method = .get)
      (hnone : ∀ r' ∈ entries, r'.node = r.node → r'.registered.method ≠ .head) (k : ℕ) (g : Entry H)
      (hlast : IsLast (fun r' => r'.node = r.node ∧ r'.registered.method = .get) entries k g)
      (hanswers : g.registered.handler.answersHead) : Serves entries .head r

/-- The registration at position `i` applies to a request. -/
structure Applies (entries : List (Entry H)) (method : Method) (texts : List Text) (i : ℕ)
    (r : Entry H) : Prop where
  get : entries[i]? = some r
  path : Matches r.node texts
  serves : Serves entries method r

structure Best (entries : List (Entry H)) (method : Method) (texts : List Text) (i : ℕ)
    (r : Entry H) : Prop where
  applies : Applies entries method texts i r
  first : ∀ j r', Applies entries method texts j r' → j ≠ i →
    ranks r.node < ranks r'.node ∨ ranks r.node = ranks r'.node ∧ j < i

/-- The names of a pattern with what each is bound to, from the segment `k` of the path on. -/
def bindings (path : Text) : ℕ → List Segment → List Text → List (Text × Text)
  | k, .static _ :: segments, _ :: texts => bindings path (k + 1) segments texts
  | k, .param name :: segments, text :: texts =>
    (name, text) :: bindings path (k + 1) segments texts
  | k, .wildcard name :: _, _ => [(name, spanFrom k path)]
  | _, _, _ => []

theorem Best.unique {entries : List (Entry H)} {method : Method} {texts : List Text} {i j : ℕ}
    {r r' : Entry H} (h : Best entries method texts i r) (h' : Best entries method texts j r') :
    j = i := by
  by_contra hne
  rcases h.first j r' h'.applies hne with hlt | ⟨heq, hji⟩
  · rcases h'.first i r h.applies (Ne.symm hne) with hlt' | ⟨heq', _⟩
    · exact absurd (hlt.trans hlt') (lt_irrefl _)
    · exact absurd heq' hlt.ne'
  · rcases h'.first i r h.applies (Ne.symm hne) with hlt' | ⟨_, hij⟩
    · exact absurd heq hlt'.ne'
    · omega

end Declarative

theorem mem_candidates {labels : List Label} {texts : List Text} :
    labels ∈ candidates texts ↔ Matches labels texts := by
  constructor
  · intro h
    induction texts generalizing labels with
    | nil =>
      rw [candidates, List.mem_singleton] at h
      exact h ▸ .nil
    | cons text texts ih =>
      simp only [candidates, List.mem_append, List.mem_map, List.mem_singleton] at h
      rcases h with ⟨rest, hrest, rfl⟩ | ⟨rest, hrest, rfl⟩ | rfl
      · exact .static text (ih hrest)
      · exact .param text (ih hrest)
      · exact .wildcard text texts
  · intro h
    induction h with
    | nil => simp [candidates]
    | static name h ih => simp [candidates, ih]
    | param value h ih => simp [candidates, ih]
    | wildcard first rest => simp [candidates]

theorem candidates_sorted (texts : List Text) :
    (candidates texts).Pairwise fun a b => ranks a < ranks b := by
  induction texts with
  | nil => exact List.pairwise_singleton _ _
  | cons text texts ih =>
    -- an edge in front of every node keeps the order among them
    have hmap : ∀ label : Label,
        ((candidates texts).map (label :: ·)).Pairwise fun a b => ranks a < ranks b := by
      intro label
      refine List.pairwise_map.mpr (ih.imp fun {a b} hab => ?_)
      exact List.cons_lt_cons_iff.mpr (.inr ⟨rfl, hab⟩)
    rw [candidates, List.pairwise_append, List.pairwise_append]
    refine ⟨hmap _, ⟨hmap _, List.pairwise_singleton _ _, ?_⟩, ?_⟩
    · intro a ha b hb
      obtain ⟨labels, _, rfl⟩ := List.mem_map.mp ha
      rw [List.mem_singleton.mp hb]
      exact List.cons_lt_cons_iff.mpr (.inl (by decide))
    · intro a ha b hb
      obtain ⟨labels, _, rfl⟩ := List.mem_map.mp ha
      rcases List.mem_append.mp hb with hb | hb
      · obtain ⟨labels', _, rfl⟩ := List.mem_map.mp hb
        exact List.cons_lt_cons_iff.mpr (.inl (by simp [Label.rank]))
      · rw [List.mem_singleton.mp hb]
        exact List.cons_lt_cons_iff.mpr (.inl (by simp [Label.rank]))

section Slots

variable {H : Type}

theorem router_eq_insertAll (regs : List (Registration H)) :
    router regs = .insertAll (regs.map Registration.entry) := by
  rw [router, TrieNode.insertAll, List.foldl_map]
  rfl

def slotsAt (entries : List (Entry H)) (labels : List Label) : MethodSlots H :=
  freezeSlots (nodeHandlers entries labels)

theorem slotsAt_append (entries : List (Entry H)) (r : Entry H) (labels : List Label)
    (method : Method) :
    slotsAt (entries ++ [r]) labels method =
      if r.node = labels ∧ r.registered.method = method then some r.registered.freeze
      else slotsAt entries labels method := by
  rw [slotsAt, nodeHandlers, List.filterMap_append, ← nodeHandlers]
  by_cases hnode : r.node = labels
  · simp only [List.filterMap_cons, hnode, if_true,
      List.filterMap_nil, freezeSlots, List.foldl_append, List.foldl_cons, List.foldl_nil, true_and]
    by_cases hmethod : r.registered.method = method
    · subst hmethod
      rw [if_pos rfl]
      exact Function.update_self ..
    · rw [if_neg hmethod]
      exact Function.update_of_ne (Ne.symm hmethod) ..
  · simp [hnode, slotsAt]

variable {α : Type} {P : α → Prop} {a : α} {entries : List (Entry H)} {r : Entry H}

theorem IsLast.append_self (l : List α) (ha : P a) : IsLast P (l ++ [a]) l.length a := by
  refine ⟨by simp, ha, ?_⟩
  intro j b hj hb
  have hlen := (List.getElem?_eq_some_iff.mp hb).1
  simp at hlen
  omega

theorem IsLast.append {l : List α} {i : ℕ} {b : α} (h : IsLast P l i a) (hb : ¬ P b) :
    IsLast P (l ++ [b]) i a := by
  have hi : i < l.length := (List.getElem?_eq_some_iff.mp h.get).1
  refine ⟨by rw [List.getElem?_append_left hi, h.get], h.holds, ?_⟩
  intro j c hj hc
  by_cases hjl : j < l.length
  · rw [List.getElem?_append_left hjl] at hc
    exact h.after j c hj hc
  · have hlast : c = b := by
      rw [List.getElem?_append_right (Nat.not_lt.mp hjl)] at hc
      exact List.mem_singleton.mp (List.mem_of_getElem? hc)
    exact hlast ▸ hb

theorem IsLast.unique {l : List α} {i j : ℕ} {b : α} (h : IsLast P l i a) (h' : IsLast P l j b) :
    i = j ∧ a = b := by
  have hij : i = j := by
    rcases lt_trichotomy i j with hlt | heq | hgt
    · exact absurd h'.holds (h.after j b hlt h'.get)
    · exact heq
    · exact absurd h.holds (h'.after i a hgt h.get)
  subst hij
  exact ⟨rfl, Option.some.inj (h.get.symm.trans h'.get)⟩

theorem slotsAt_spec (entries : List (Entry H)) (labels : List Label) (method : Method) :
    (∃ i r, IsLast (fun r => r.node = labels ∧ r.registered.method = method) entries i r ∧
      slotsAt entries labels method = some r.registered.freeze) ∨
    (∀ r ∈ entries, ¬ (r.node = labels ∧ r.registered.method = method)) ∧
      slotsAt entries labels method = none := by
  induction entries using List.reverseRecOn with
  | nil => exact .inr ⟨by simp, rfl⟩
  | append_singleton entries r ih =>
    rw [slotsAt_append]
    by_cases hr : r.node = labels ∧ r.registered.method = method
    · rw [if_pos hr]
      exact .inl ⟨entries.length, r, .append_self entries hr, rfl⟩
    · rw [if_neg hr]
      rcases ih with ⟨i, last, hlast, hslot⟩ | ⟨hnone, hslot⟩
      · exact .inl ⟨i, last, hlast.append hr, hslot⟩
      · refine .inr ⟨?_, hslot⟩
        intro r' hr'
        rcases List.mem_append.mp hr' with h | h
        · exact hnone r' h
        · exact List.mem_singleton.mp h ▸ hr

theorem serves_iff_of_ne_head {method : Method} (hne : method ≠ .head) :
    Serves entries method r ↔ r.registered.method = method := by
  constructor
  · intro h
    cases h with
    | own => rfl
    | head => exact absurd rfl hne
  · rintro rfl
    exact .own r

theorem serves_head_of_registered {h : Entry H} (hmem : h ∈ entries)
    (hhead : h.registered.method = .head) (hnode : h.node = r.node) :
    Serves entries .head r ↔ r.registered.method = .head := by
  constructor
  · generalize hm : Method.head = m
    intro hs
    cases hs with
    | own => rfl
    | head _ _ hnone => exact absurd hhead (hnone h hmem hnode)
  · intro hr
    exact hr ▸ .own r

theorem serves_head_of_none {labels : List Label}
    (hnone : ∀ r ∈ entries, ¬ (r.node = labels ∧ r.registered.method = .head)) (hmem : r ∈ entries)
    (hnode : r.node = labels) :
    Serves entries .head r ↔ r.registered.method = .get ∧
      ∃ k g, IsLast (fun r => r.node = labels ∧ r.registered.method = .get) entries k g ∧
        g.registered.handler.answersHead := by
  subst hnode
  constructor
  · generalize hm : Method.head = m
    intro hs
    cases hs with
    | own => exact absurd ⟨rfl, hm.symm⟩ (hnone r hmem)
    | head _ hget _ k g hlast hanswers => exact ⟨hget, k, g, hlast, hanswers⟩
  · rintro ⟨hget, k, g, hlast, hanswers⟩
    exact .head r hget (fun r' hr' hnode hhead => hnone r' hr' ⟨hnode, hhead⟩) k g hlast hanswers

theorem selectSlot_of_ne_head {slots : MethodSlots H} {method : Method} (hne : method ≠ .head) :
    selectSlot slots method = slots method := by
  cases method <;> simp_all [selectSlot]

theorem selectSlot_head_none {slots : MethodSlots H} (h : slots .head = none) :
    selectSlot slots .head = headFromGet slots := by
  simp [selectSlot, h]

theorem selectSlot_spec (entries : List (Entry H)) (labels : List Label) (method : Method) :
    (∃ i r, IsLast (fun r => r.node = labels ∧ Serves entries method r) entries i r ∧
      selectSlot (slotsAt entries labels) method = some r.registered.freeze) ∨
    (∀ r ∈ entries, ¬ (r.node = labels ∧ Serves entries method r)) ∧
      selectSlot (slotsAt entries labels) method = none := by
  by_cases hmethod : method = .head
  swap
  · simp only [serves_iff_of_ne_head hmethod, selectSlot_of_ne_head hmethod]
    exact slotsAt_spec entries labels method
  subst hmethod
  rcases slotsAt_spec entries labels .head with ⟨i, r, hlast, hslot⟩ | ⟨hnone, hslot⟩
  · -- a HEAD registration at the node keeps its GET registrations out
    have hserves : ∀ b, b.node = labels → (Serves entries .head b ↔ b.registered.method = .head) :=
      fun b hb => serves_head_of_registered (List.mem_of_getElem? hlast.get) hlast.holds.2
        (hlast.holds.1.trans hb.symm)
    refine .inl ⟨i, r, ⟨hlast.get, ?_, ?_⟩, ?_⟩
    · exact ⟨hlast.holds.1, (hserves r hlast.holds.1).mpr hlast.holds.2⟩
    · rintro j b hj hb ⟨hnode, hs⟩
      exact hlast.after j b hj hb ⟨hnode, (hserves b hnode).mp hs⟩
    · simp [selectSlot, hslot]
  rw [selectSlot_head_none hslot, headFromGet]
  rcases slotsAt_spec entries labels .get with ⟨k, g, hlast, hget⟩ | ⟨hnoget, hget⟩
  · have hmem : g ∈ entries := List.mem_of_getElem? hlast.get
    have hfrozen : g.registered.freeze.handler = g.registered.handler := rfl
    rw [hget, Option.bind_some, hfrozen]
    by_cases hanswers : g.registered.handler.answersHead
    · refine .inl ⟨k, g, ⟨hlast.get, ?_, ?_⟩, if_pos hanswers⟩
      · exact ⟨hlast.holds.1, (serves_head_of_none hnone hmem hlast.holds.1).mpr
          ⟨hlast.holds.2, k, g, hlast, hanswers⟩⟩
      · rintro j b hj hb ⟨hnode, hs⟩
        have hbget := ((serves_head_of_none hnone (List.mem_of_getElem? hb) hnode).mp hs).1
        exact hlast.after j b hj hb ⟨hnode, hbget⟩
    · refine .inr ⟨?_, if_neg hanswers⟩
      rintro b hb ⟨hnode, hs⟩
      obtain ⟨_, k', g', hlast', hanswers'⟩ := (serves_head_of_none hnone hb hnode).mp hs
      rw [← (hlast.unique hlast').2] at hanswers'
      exact hanswers hanswers'
  · rw [hget]
    refine .inr ⟨?_, rfl⟩
    rintro b hb ⟨hnode, hs⟩
    exact hnoget b hb ⟨hnode, ((serves_head_of_none hnone hb hnode).mp hs).1⟩

end Slots

section Select

variable {H : Type}

theorem scan_serving (handlersAt : List Label → FrozenMethodHandlers H) (method : Method)
    (names : List (List Label)) :
    (scan (serving method) handlersAt names ()).1 =
      names.find? fun labels => slotServes (handlersAt labels).byMethod method := by
  induction names with
  | nil => rfl
  | cons labels rest ih =>
    rw [scan, serving, List.find?_cons]
    cases slotServes (handlersAt labels).byMethod method with
    | true => rfl
    | false => exact ih

def selectedAt (path : Text) (segments : List Slice) (labels : List Label)
    (handler : FrozenHandler H) : Selected H where
  route := handler.route
  handler := handler.handler
  captureNames := handler.captureNames
  captures := captured path labels segments

variable {entries : List (Entry H)}

theorem select_eq_find (hlast : ∀ r ∈ entries, wildcardLast r.segments) (method : Method)
    (path : Text) (segments : List Slice) :
    (TrieNode.insertAll entries).freeze.select method path segments =
      ((candidates (segments.map Slice.text)).find? fun labels =>
        slotServes (slotsAt entries labels) method).bind fun labels =>
          (selectSlot (slotsAt entries labels) method).map (selectedAt path segments labels) := by
  have hskip : ∀ s, serving (H := H) method (freezeHandlers []) s = (false, s) := by
    intro s
    cases method <;> rfl
  rw [select, resolve_eq_scan hskip hlast]
  simp only [Prod.map_fst, scan_serving, Option.bind_map]
  congr 1
  funext labels
  simp only [Function.comp_apply, matchAt, List.reverse_reverse]
  rfl

theorem find?_of_pairwise {α : Type} {R : α → α → Prop} {p : α → Bool} {l : List α} {a b : α}
    (hl : l.Pairwise R) (ha : l.find? p = some a) (hb : b ∈ l) (hpb : p b) : b = a ∨ R a b := by
  obtain ⟨_, before, after, rfl, hbefore⟩ := List.find?_eq_some_iff_append.mp ha
  rcases List.mem_append.mp hb with hb | hb
  · simpa [hpb] using hbefore b hb
  · rcases List.mem_cons.mp hb with rfl | hb
    · exact .inl rfl
    · exact .inr (List.rel_of_pairwise_cons (List.pairwise_append.mp hl).2.1 hb)

theorem Applies.slotServes {method : Method} {texts : List Text} {i : ℕ} {r : Entry H}
    (h : Applies entries method texts i r) : slotServes (slotsAt entries r.node) method := by
  rcases selectSlot_spec entries r.node method with ⟨_, _, _, hslot⟩ | ⟨hnone, _⟩
  · rw [Routing.slotServes, hslot]
    rfl
  · exact absurd ⟨rfl, h.serves⟩ (hnone r (List.mem_of_getElem? h.get))

theorem select_spec (hlast : ∀ r ∈ entries, wildcardLast r.segments) (method : Method) (path : Text)
    (segments : List Slice) :
    (∃ i r, Best entries method (segments.map Slice.text) i r ∧
      (TrieNode.insertAll entries).freeze.select method path segments =
        some (selectedAt path segments r.node r.registered.freeze)) ∨
    (∀ i r, ¬ Applies entries method (segments.map Slice.text) i r) ∧
      (TrieNode.insertAll entries).freeze.select method path segments = none := by
  rw [select_eq_find hlast]
  cases hfind : (candidates (segments.map Slice.text)).find? fun labels =>
      slotServes (slotsAt entries labels) method with
  | none =>
    refine .inr ⟨?_, rfl⟩
    intro i r h
    exact List.find?_eq_none.mp hfind r.node (mem_candidates.mpr h.path) h.slotServes
  | some labels =>
    have hmatches : Matches labels (segments.map Slice.text) :=
      mem_candidates.mp (List.mem_of_find?_eq_some hfind)
    have hserves := List.find?_some hfind
    rcases selectSlot_spec entries labels method with ⟨i, r, hr, hslot⟩ | ⟨_, hslot⟩
    swap
    · simp [slotServes, hslot] at hserves
    obtain ⟨hnode, hrserves⟩ := hr.holds
    subst hnode
    refine .inl ⟨i, r, ⟨⟨hr.get, hmatches, hrserves⟩, ?_⟩, ?_⟩
    · intro j r' h hji
      rcases find?_of_pairwise (candidates_sorted _) hfind (mem_candidates.mpr h.path)
        h.slotServes with heq | hlt
      · -- at the same node, a later registration that serves would have taken the slot
        refine .inr ⟨by rw [heq], ?_⟩
        by_contra hge
        exact hr.after j r' (by omega) h.get ⟨heq, h.serves⟩
      · exact .inl hlt
    · rw [Option.bind_some, hslot]
      rfl

theorem select_spec_truncated (entries : List (Entry H)) (method : Method) (path : Text)
    (segments : List Slice) :
    (∃ i r, Best (entries.map Entry.truncated) method (segments.map Slice.text) i r ∧
      (TrieNode.insertAll entries).freeze.select method path segments =
        some (selectedAt path segments r.node r.registered.freeze)) ∨
    (∀ i r, ¬ Applies (entries.map Entry.truncated) method (segments.map Slice.text) i r) ∧
      (TrieNode.insertAll entries).freeze.select method path segments = none := by
  rw [← TrieNode.insertAll_truncated]
  refine select_spec ?_ method path segments
  intro e he
  obtain ⟨entry, _, rfl⟩ := List.mem_map.mp he
  exact wildcardLast_truncate entry.segments

theorem zip_captured {path : Text} {segments : List Segment} {k : ℕ}
    (h : Matches (segments.map Segment.label) (((slicesFrom 0 path).drop k).map Slice.text)) :
    (segments.filterMap Segment.captureName).zip
        (captured path (segments.map Segment.label) ((slicesFrom 0 path).drop k)) =
      bindings path k segments (((slicesFrom 0 path).drop k).map Slice.text) := by
  induction segments generalizing k with
  | nil => simp [bindings]
  | cons segment segments ih =>
    cases hdrop : (slicesFrom 0 path).drop k with
    | nil =>
      rw [hdrop, List.map_cons] at h
      exact absurd rfl h.texts_ne_nil
    | cons slice rest =>
      have hrest : rest = (slicesFrom 0 path).drop (k + 1) := by
        rw [← List.tail_drop, hdrop, List.tail_cons]
      rw [hdrop] at h
      cases segment with
      | static name =>
        cases h with
        | static _ h =>
          rw [hrest] at h ⊢
          exact ih h
      | param name =>
        cases h with
        | param _ h =>
          rw [hrest] at h ⊢
          exact congrArg ((name, slice.text) :: ·) (ih h)
      | wildcard name =>
        have hspan := wildcardSpan_drop path k (by rw [hdrop]; simp)
        rw [hdrop] at hspan
        simp [captured, bindings, Segment.label, Segment.captureName, hspan]

/-- For every list of registrations, method and path of at most `pathSegmentLimit` segments, the
frozen trie selects the handler of the one best registration, with the names of its own pattern
bound to what they match, and selects none only when no registration applies. -/
theorem select_refines_declarative_router (regs : List (Registration H))
    (hlast : ∀ r ∈ regs, wildcardLast (parseSegments r.path)) (method : Method) (path : Text)
    (hlimit : (pathTexts path).length ≤ pathSegmentLimit) :
    ∃ segments, splitPathSegments path = some segments ∧
      ((∃ i r selected, regs[i]? = some r ∧
          Best (regs.map Registration.entry) method (pathTexts path) i r.entry ∧
          (∀ j e, Best (regs.map Registration.entry) method (pathTexts path) j e → j = i) ∧
          (router regs).freeze.select method path segments = some selected ∧
          selected.handler = r.handler ∧
          selected.bindParams = bindings path 0 (parseSegments r.path) (pathTexts path)) ∨
        (∀ i e, ¬ Applies (regs.map Registration.entry) method (pathTexts path) i e) ∧
          (router regs).freeze.select method path segments = none) := by
  refine ⟨slicesFrom 0 path, splitPathSegments_eq_some.mpr ⟨hlimit, rfl⟩, ?_⟩
  have hentries : ∀ e ∈ regs.map Registration.entry, wildcardLast e.segments := by
    intro e he
    obtain ⟨r, hr, rfl⟩ := List.mem_map.mp he
    exact hlast r hr
  rw [router_eq_insertAll]
  rcases select_spec hentries method path (slicesFrom 0 path) with ⟨i, e, hbest, hselect⟩ | hnone
  · have hget := hbest.applies.get
    rw [List.getElem?_map] at hget
    obtain ⟨r, hr, rfl⟩ := Option.map_eq_some_iff.mp hget
    refine .inl ⟨i, r, _, hr, hbest, fun j e h => hbest.unique h, hselect, rfl, ?_⟩
    exact zip_captured (k := 0) hbest.applies.path
  · exact .inr hnone

def sampleRoutes : List (Registration ℕ) :=
  [⟨.get, "/a/:x".toList, .async 1⟩, ⟨.get, "/a/*rest".toList, .async 2⟩,
    ⟨.get, "/a/:y/c".toList, .multipart 3⟩]

example :
    ((router sampleRoutes).freeze.select .head "/a//b/c/".toList (slicesFrom 0 "/a//b/c/".toList)).map
      Selected.bindParams = some [("rest".toList, "b/c".toList)] := by decide +kernel

theorem select_refines_declarative_router_sampleRoutes :
    ∃ segments, splitPathSegments "/a//b/c/".toList = some segments ∧
      ((∃ i r selected, sampleRoutes[i]? = some r ∧
          Best (sampleRoutes.map Registration.entry) .head (pathTexts "/a//b/c/".toList) i r.entry ∧
          (∀ j e, Best (sampleRoutes.map Registration.entry) .head (pathTexts "/a//b/c/".toList) j e →
            j = i) ∧
          (router sampleRoutes).freeze.select .head "/a//b/c/".toList segments = some selected ∧
          selected.handler = r.handler ∧
          selected.bindParams =
            bindings "/a//b/c/".toList 0 (parseSegments r.path) (pathTexts "/a//b/c/".toList)) ∨
        (∀ i e, ¬ Applies (sampleRoutes.map Registration.entry) .head
            (pathTexts "/a//b/c/".toList) i e) ∧
          (router sampleRoutes).freeze.select .head "/a//b/c/".toList segments = none) :=
  select_refines_declarative_router sampleRoutes (by decide) .head "/a//b/c/".toList (by decide)

end Select

end Camber.Routing
