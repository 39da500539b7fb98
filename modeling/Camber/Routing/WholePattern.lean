import Camber.Lib.Text
import Camber.Routing.Selection

/-! The trie places a registration by its pattern up to the first wildcard, while the reported route
and the capture names are read from all of it. -/

namespace Camber.Routing

open Str Segment

inductive MatchesWhole : List Segment → List Text → Prop
  | nil : MatchesWhole [] []
  | static {segments : List Segment} {texts : List Text} (name : Text)
      (h : MatchesWhole segments texts) : MatchesWhole (.static name :: segments) (name :: texts)
  | param {segments : List Segment} {texts : List Text} (name value : Text)
      (h : MatchesWhole segments texts) : MatchesWhole (.param name :: segments) (value :: texts)
  | wildcard {segments : List Segment} {texts : List Text} (name first : Text) (more : List Text)
      (h : MatchesWhole segments texts) :
      MatchesWhole (.wildcard name :: segments) (first :: more ++ texts)

def afterWildcard : List Segment → List Segment
  | [] => []
  | .wildcard _ :: rest => rest
  | _ :: rest => afterWildcard rest

def EndsAsSpelled (segments : List Segment) (texts : List Text) : Prop :=
  ∃ names : List Text, afterWildcard segments = names.map .static ∧
    names <:+ texts.drop (truncate segments).length

theorem parseSegment_render (text : Text) : (parseSegment text).render = text := by
  unfold parseSegment
  cases hstar : stripPrefixChar '*' text with
  | some name => exact (eq_of_stripPrefixChar hstar).symm
  | none =>
    cases hcolon : stripPrefixChar ':' text with
    | some name => exact (eq_of_stripPrefixChar hcolon).symm
    | none => rfl

theorem pathTexts_words (path : Text) :
    ∀ text ∈ pathTexts path, text ≠ [] ∧ ∀ c ∈ text, c ≠ '/' := by
  induction path using text_induction with
  | nil => intro text h; cases h
  | slash rest ih => simpa using ih
  | word word rest hne hword hrest ih =>
    rw [pathTexts_word hne hword hrest]
    intro text htext
    rcases List.mem_cons.mp htext with rfl | htext
    · exact ⟨hne, hword⟩
    · exact ih text htext

variable {texts : List Text} {path : Text} {segments : List Segment} {slices : List Slice}

theorem pathTexts_join (pattern : Text) (hwords : ∀ text ∈ texts, text ≠ [] ∧ ∀ c ∈ text, c ≠ '/') :
    pathTexts (texts.foldl (fun pattern text => pattern ++ '/' :: text) pattern) =
      pathTexts pattern ++ texts := by
  induction texts generalizing pattern with
  | nil => simp
  | cons text texts ih =>
    obtain ⟨hne, hword⟩ := hwords text (by simp)
    have hcut : Cut ('/' :: text) := rfl
    have hlast : pathTexts text = [text] := by
      have hword := pathTexts_word hne hword (show Cut [] from rfl)
      rwa [List.append_nil] at hword
    rw [List.foldl_cons, ih _ fun t ht => hwords t (by simp [ht]), pathTexts_append _ hcut,
      pathTexts_slash, hlast]
    simp

theorem parseSegments_normalizeRoute (path : Text) :
    parseSegments (normalizeRoute (parseSegments path)) = parseSegments path := by
  have htexts : pathTexts (normalizeRoute (parseSegments path)) = pathTexts path := by
    unfold normalizeRoute
    split
    · next hempty =>
      have hnil : pathTexts path = [] := by
        simpa [parseSegments] using hempty
      rw [hnil]
      rfl
    · rw [parseSegments, List.foldl_map]
      simp only [parseSegment_render]
      exact pathTexts_join [] (pathTexts_words path)
  rw [parseSegments, htexts, parseSegments]

theorem truncate_append_afterWildcard (segments : List Segment) :
    truncate segments ++ afterWildcard segments = segments := by
  induction segments with
  | nil => rfl
  | cons segment rest ih =>
    cases segment with
    | static name => exact congrArg _ ih
    | param name => exact congrArg _ ih
    | wildcard name => rfl

theorem length_captured
    (h : Matches ((truncate segments).map label) (slices.map Slice.text)) :
    (captured path ((truncate segments).map label) slices).length =
      ((truncate segments).filterMap captureName).length := by
  induction segments generalizing slices with
  | nil => simp [truncate, captured]
  | cons segment rest ih =>
    cases slices with
    | nil =>
      cases segment <;> exact absurd rfl h.texts_ne_nil
    | cons slice slices =>
      cases segment with
      | static name =>
        cases h with
        | static _ h => exact ih h
      | param name =>
        cases h with
        | param _ h => exact congrArg Nat.succ (ih h)
      | wildcard name => rfl

theorem filterMap_captureName_eq_nil_iff :
    segments.filterMap captureName = [] ↔
      ∃ names : List Text, segments = names.map .static := by
  constructor
  · intro h
    induction segments with
    | nil => exact ⟨[], rfl⟩
    | cons segment rest ih =>
      cases segment with
      | static name =>
        obtain ⟨names, rfl⟩ := ih h
        exact ⟨name :: names, rfl⟩
      | param name => cases h
      | wildcard name => cases h
  · rintro ⟨names, rfl⟩
    simp [List.filterMap_map, captureName]

theorem length_captured_eq_iff
    (h : Matches ((truncate segments).map label) (slices.map Slice.text)) :
    (captured path ((truncate segments).map label) slices).length =
        (segments.filterMap captureName).length ↔
      ∃ names : List Text, afterWildcard segments = names.map .static := by
  rw [← filterMap_captureName_eq_nil_iff, length_captured h]
  have hsplit := congrArg (List.filterMap captureName)
    (truncate_append_afterWildcard segments)
  rw [List.filterMap_append] at hsplit
  rw [← hsplit, List.length_append, ← List.length_eq_zero_iff]
  omega

theorem matchesWhole_static_iff {names : List Text} :
    MatchesWhole (names.map .static) texts ↔ texts = names := by
  constructor
  · intro h
    induction names generalizing texts with
    | nil => cases h; rfl
    | cons name names ih =>
      cases h with
      | static _ h => rw [ih h]
  · rintro rfl
    induction texts with
    | nil => exact .nil
    | cons name names ih => exact .static name ih

theorem matchesWhole_wildcard_iff {name : Text} :
    MatchesWhole (.wildcard name :: segments) texts ↔
      ∃ first more rest, texts = first :: more ++ rest ∧ MatchesWhole segments rest := by
  constructor
  · intro h
    cases h with
    | wildcard _ first more h => exact ⟨first, more, _, rfl, h⟩
  · rintro ⟨first, more, rest, rfl, h⟩
    exact .wildcard name first more h

theorem matchesWhole_iff_suffix {names : List Text}
    (h : Matches ((truncate segments).map label) texts)
    (hafter : afterWildcard segments = names.map .static) :
    MatchesWhole segments texts ↔ names <:+ texts.drop (truncate segments).length := by
  induction segments generalizing texts with
  | nil =>
    cases h
    obtain rfl : names = [] := by simpa [afterWildcard] using hafter
    simp [MatchesWhole.nil]
  | cons segment rest ih =>
    cases segment with
    | static name =>
      cases h with
      | static _ h =>
        refine Iff.trans ⟨fun hwhole => ?_, .static name⟩ (ih h hafter)
        cases hwhole with
        | static _ hwhole => exact hwhole
    | param name =>
      cases h with
      | param value h =>
        refine Iff.trans ⟨fun hwhole => ?_, .param name value⟩ (ih h hafter)
        cases hwhole with
        | param _ _ hwhole => exact hwhole
    | wildcard name =>
      cases h with
      | wildcard first more =>
        obtain rfl : rest = names.map .static := hafter
        simp only [matchesWhole_wildcard_iff, matchesWhole_static_iff]
        constructor
        · rintro ⟨first', taken, _, hsplit, rfl⟩
          obtain ⟨_, rfl⟩ := List.cons.inj hsplit
          exact List.suffix_append taken _
        · rintro ⟨taken, htaken⟩
          exact ⟨first, taken, names, by rw [List.cons_append, htaken]; rfl, rfl⟩

theorem whole_iff_endsAsSpelled
    (h : Matches ((truncate segments).map label) (slices.map Slice.text)) :
    (MatchesWhole segments (slices.map Slice.text) ∧
        (captured path ((truncate segments).map label) slices).length =
          (segments.filterMap captureName).length) ↔
      EndsAsSpelled segments (slices.map Slice.text) := by
  rw [length_captured_eq_iff h]
  constructor
  · rintro ⟨hwhole, names, hafter⟩
    exact ⟨names, hafter, (matchesWhole_iff_suffix h hafter).mp hwhole⟩
  · rintro ⟨names, hafter, hends⟩
    exact ⟨(matchesWhole_iff_suffix h hafter).mpr hends, names, hafter⟩

section Select

variable {H : Type}

def placed (regs : List (Registration H)) : List (Entry H) :=
  regs.map fun r => r.entry.truncated

theorem select_placed (regs : List (Registration H)) (method : Method) (path : Text) :
    (∃ i r, regs[i]? = some r ∧ Best (placed regs) method (pathTexts path) i r.entry.truncated ∧
      (router regs).freeze.select method path (slicesFrom 0 path) =
        some (selectedAt path (slicesFrom 0 path) r.entry.truncated.node
          r.entry.registered.freeze)) ∨
    (∀ i r, ¬ Best (placed regs) method (pathTexts path) i r) ∧
      (router regs).freeze.select method path (slicesFrom 0 path) = none := by
  have hplaced : (regs.map Registration.entry).map Entry.truncated = placed regs := by
    rw [List.map_map]
    rfl
  rw [router_eq_insertAll]
  rcases select_spec_truncated (regs.map Registration.entry) method path (slicesFrom 0 path)
    with ⟨i, e, hbest, hselect⟩ | ⟨hnone, hselect⟩
  · rw [hplaced] at hbest
    have hget := hbest.applies.get
    rw [placed, List.getElem?_map] at hget
    obtain ⟨r, hr, rfl⟩ := Option.map_eq_some_iff.mp hget
    exact .inl ⟨i, r, hr, hbest, hselect⟩
  · rw [hplaced] at hnone
    exact .inr ⟨fun i r hbest => hnone i r hbest.applies, hselect⟩

theorem selectedAt_whole_iff {r : Registration H} {path : Text} {selected : Selected H}
    (hreached : Matches r.entry.truncated.node (pathTexts path))
    (hselected : selectedAt path (slicesFrom 0 path) r.entry.truncated.node
      r.entry.registered.freeze = selected) :
    (MatchesWhole (parseSegments selected.route) (pathTexts path) ∧
        selected.captures.length = selected.captureNames.length) ↔
      EndsAsSpelled (parseSegments r.path) (pathTexts path) := by
  subst hselected
  have hroute : parseSegments (selectedAt path (slicesFrom 0 path) r.entry.truncated.node
      r.entry.registered.freeze).route = parseSegments r.path :=
    parseSegments_normalizeRoute r.path
  rw [hroute]
  exact whole_iff_endsAsSpelled hreached

/-- For every list of registrations, method and path of at most `pathSegmentLimit` segments: a
selected route matches the path with its whole pattern and captures one value for each of its names,
exactly when the registration that comes first for the path, as the trie places them, spells
literals only after its wildcard and the path ends with them. -/
theorem select_whole_pattern_iff (regs : List (Registration H)) (method : Method) (path : Text)
    (hlimit : (pathTexts path).length ≤ pathSegmentLimit) :
    ∃ segments, splitPathSegments path = some segments ∧
      ((∀ selected, (router regs).freeze.select method path segments = some selected →
          MatchesWhole (parseSegments selected.route) (pathTexts path) ∧
            selected.captures.length = selected.captureNames.length) ↔
        ∀ i r, regs[i]? = some r →
          Best (placed regs) method (pathTexts path) i r.entry.truncated →
          EndsAsSpelled (parseSegments r.path) (pathTexts path)) := by
  refine ⟨slicesFrom 0 path, splitPathSegments_eq_some.mpr ⟨hlimit, rfl⟩, ?_⟩
  rcases select_placed regs method path with ⟨i, r, hr, hbest, hselect⟩ | ⟨hnone, hselect⟩
  · constructor
    · intro h j r' hr' hbest'
      -- no other registration comes first
      obtain rfl := hbest.unique hbest'
      obtain rfl : r = r' := Option.some.inj (hr.symm.trans hr')
      exact (selectedAt_whole_iff hbest.applies.path rfl).mp (h _ hselect)
    · intro h selected hselected
      rw [hselect] at hselected
      exact (selectedAt_whole_iff hbest.applies.path (Option.some.inj hselected)).mpr
        (h i r hr hbest)
  · constructor
    · intro _ j r' _ hbest
      exact absurd hbest (hnone j _)
    · intro _ selected hselected
      rw [hselect] at hselected
      cases hselected

def wildcardThenParam : List (Registration ℕ) :=
  [⟨.get, "/a/*rest/:id".toList, .async 1⟩]

theorem select_whole_pattern_iff_wildcardThenParam :
    ∃ segments, splitPathSegments "/a/x".toList = some segments ∧
      ((∀ selected, (router wildcardThenParam).freeze.select .get "/a/x".toList segments =
            some selected →
          MatchesWhole (parseSegments selected.route) (pathTexts "/a/x".toList) ∧
            selected.captures.length = selected.captureNames.length) ↔
        ∀ i r, wildcardThenParam[i]? = some r →
          Best (placed wildcardThenParam) .get (pathTexts "/a/x".toList) i r.entry.truncated →
          EndsAsSpelled (parseSegments r.path) (pathTexts "/a/x".toList)) :=
  select_whole_pattern_iff wildcardThenParam .get "/a/x".toList (by decide)

/-- The route selected for a path that ends inside its wildcard reports a parameter it has no value
for. -/
theorem wildcard_hides_parameter :
    ∃ segments selected, splitPathSegments "/a/x".toList = some segments ∧
      (router wildcardThenParam).freeze.select .get "/a/x".toList segments = some selected ∧
      selected.route = "/a/*rest/:id".toList ∧
      ¬ MatchesWhole (parseSegments selected.route) (pathTexts "/a/x".toList) ∧
      selected.captures = ["x".toList] ∧
      selected.captureNames = ["rest".toList, "id".toList] := by
  refine ⟨_, ⟨"/a/*rest/:id".toList, .async 1, ["rest".toList, "id".toList], ["x".toList]⟩,
    rfl, by decide +kernel, rfl, ?_, rfl, rfl⟩
  have hpattern : parseSegments "/a/*rest/:id".toList =
      [.static "a".toList, .wildcard "rest".toList, .param "id".toList] := by decide
  have htexts : pathTexts "/a/x".toList = ["a".toList, "x".toList] := by decide
  rw [hpattern, htexts]
  intro h
  cases h with
  | static _ h =>
    obtain ⟨first, more, rest, hsplit, h⟩ := matchesWhole_wildcard_iff.mp h
    -- the wildcard takes the only segment left
    have hrest : more ++ rest = [] := (List.cons.inj hsplit).2.symm
    obtain ⟨_, rfl⟩ := List.append_eq_nil_iff.mp hrest
    cases h

end Select

end Camber.Routing
