import Mathlib.Data.List.TakeWhile
import Camber.Proxy.Target

/-! Routing reads segments, the target is cut from the raw path: `Aligned` says when they agree. -/

namespace Camber.Proxy

open Str Routing Segment

/-- A backend of the form `scheme://authority`. -/
structure Backend where
  scheme : Text
  authority : Text
  plain : ∀ c ∈ authority, c ≠ '/' ∧ c ≠ '?' ∧ c ≠ '#'

namespace Backend

def start (backend : Backend) : Text := backend.scheme ++ "://".toList

def text (backend : Backend) : Text := backend.start ++ backend.authority

def authorityOf (backend : Backend) (url : Text) : Text :=
  (url.drop backend.start.length).takeWhile fun c => c ≠ '/' && c ≠ '?' && c ≠ '#'

end Backend

section Routed

variable {H : Type}

/-- The frozen trie of the registrations answers the request for the registration at position `i`,
and this is what it selected. -/
structure RoutedTo (regs : List (Registration H)) (method : Method) (path : Text) (i : ℕ)
    (r : Registration H) (selected : Selected H) : Prop where
  get : regs[i]? = some r
  best : Best ((regs.map Registration.entry).map Entry.truncated) method (pathTexts path) i
    r.entry.truncated
  select : ∃ segments, splitPathSegments path = some segments ∧
    (router regs).freeze.select method path segments = some selected ∧
    selected = selectedAt path segments r.entry.truncated.node r.entry.registered.freeze

theorem exists_routedTo {regs : List (Registration H)} {method : Method} {path : Text}
    {segments : List Slice} {selected : Selected H}
    (hsplit : splitPathSegments path = some segments)
    (h : (router regs).freeze.select method path segments = some selected) :
    ∃ i r, RoutedTo regs method path i r selected := by
  obtain ⟨_, rfl⟩ := splitPathSegments_eq_some.mp hsplit
  have hrouter := router_eq_insertAll regs
  rcases select_spec_truncated (regs.map Registration.entry) method path (slicesFrom 0 path) with
    ⟨i, e, hbest, hselect⟩ | ⟨_, hnone⟩
  · have hget := hbest.applies.get
    rw [List.getElem?_map, List.getElem?_map] at hget
    obtain ⟨e', he', rfl⟩ := Option.map_eq_some_iff.mp hget
    obtain ⟨r, hr, rfl⟩ := Option.map_eq_some_iff.mp he'
    rw [hrouter, hselect] at h
    refine ⟨i, r, hr, hbest, _, hsplit, ?_, (Option.some.inj h).symm⟩
    rw [hrouter, hselect, h]
  · rw [hrouter, hnone] at h
    cases h

def wildcardSegments (r : Registration H) (selected : Selected H) : List Text :=
  if r.entry.truncated.node.getLast? = some .wildcard then
    (selected.captures.getLast?.map pathTexts).getD []
  else []

end Routed

structure Agrees (backend : Backend) (captured : List Text) (query : Option Text) (url : Text) :
    Prop where
  path : ∃ rest, url = backend.text ++ rest ++ queryText query ∧
    Cut rest ∧ pathTexts rest = captured
  authority : backend.authorityOf url = backend.authority

def isWildcard : Segment → Bool
  | .wildcard _ => true
  | _ => false

def leading (pathPrefix : Text) : List Segment :=
  (parseSegments pathPrefix).takeWhile fun segment => !isWildcard segment

/-- The spellings for which stripping a prefix agrees with matching it: the path starts with the
prefix, which has no wildcard, and is over or goes on with a slash there; or the path does not start
with it and the prefix claims no segment. -/
inductive Aligned (pathPrefix path : Text) : Prop
  | literal (rest : Text) (hpath : path = pathPrefix ++ rest)
      (hrest : Cut rest)
      (hplain : ∀ segment ∈ parseSegments pathPrefix, isWildcard segment = false)
  | unclaimed (hpath : ¬ pathPrefix <+: path) (hcut : Cut path)
      (hlead : leading pathPrefix = [])

theorem parseSegments_eq_leading (pathPrefix : Text) :
    parseSegments pathPrefix = leading pathPrefix ∨
      ∃ name rest, parseSegments pathPrefix = leading pathPrefix ++ .wildcard name :: rest := by
  have hsplit : leading pathPrefix ++
      (parseSegments pathPrefix).dropWhile (fun segment => !isWildcard segment) =
        parseSegments pathPrefix := List.takeWhile_append_dropWhile
  cases hrest : (parseSegments pathPrefix).dropWhile fun segment => !isWildcard segment with
  | nil =>
    rw [hrest, List.append_nil] at hsplit
    exact .inl hsplit.symm
  | cons segment rest =>
    have hhead := List.head?_dropWhile_not (fun segment => !isWildcard segment)
      (parseSegments pathPrefix)
    rw [hrest] at hhead
    cases segment with
    | static name => simp [isWildcard] at hhead
    | param name => simp [isWildcard] at hhead
    | wildcard name =>
      rw [hrest] at hsplit
      exact .inr ⟨name, rest, hsplit.symm⟩

theorem leading_plain (pathPrefix : Text) :
    ∀ segment ∈ leading pathPrefix, isWildcard segment = false := by
  intro segment hmem
  simpa using List.mem_takeWhile_imp hmem

variable {segments : List Segment}

section

variable (h : ∀ segment ∈ segments, isWildcard segment = false)

include h

theorem truncate_plain (rest : List Segment) :
    truncate (segments ++ rest) = segments ++ truncate rest := by
  induction segments with
  | nil => rfl
  | cons segment segments ih =>
    have ih := ih fun s hs => h s (List.mem_cons_of_mem _ hs)
    cases segment with
    | static name => simp only [List.cons_append, truncate, ih]
    | param name => simp only [List.cons_append, truncate, ih]
    | wildcard name => simp [isWildcard] at h

theorem matches_append {tail : List Label} {texts : List Text}
    (hmatches : Matches (segments.map label ++ tail) texts) :
    segments.length ≤ texts.length ∧ Matches tail (texts.drop segments.length) := by
  induction segments generalizing texts with
  | nil => exact ⟨Nat.zero_le _, hmatches⟩
  | cons segment segments ih =>
    have hplain := fun s hs => h s (List.mem_cons_of_mem _ hs)
    cases segment with
    | static name =>
      cases hmatches with
      | static _ hmatches =>
        obtain ⟨hlen, hrest⟩ := ih hplain hmatches
        exact ⟨Nat.succ_le_succ hlen, hrest⟩
    | param name =>
      cases hmatches with
      | param _ hmatches =>
        obtain ⟨hlen, hrest⟩ := ih hplain hmatches
        exact ⟨Nat.succ_le_succ hlen, hrest⟩
    | wildcard name => simp [isWildcard] at h

theorem captured_getLast? (path : Text) {slices : List Slice}
    (hlen : segments.length ≤ slices.length) :
    (captured path (segments.map label ++ [.wildcard]) slices).getLast? =
      some (wildcardSpan path (slices.drop segments.length)) := by
  induction segments generalizing slices with
  | nil => simp [captured]
  | cons segment segments ih =>
    have hplain := fun s hs => h s (List.mem_cons_of_mem _ hs)
    cases slices with
    | nil => simp at hlen
    | cons slice slices =>
      have ih := ih hplain (Nat.le_of_succ_le_succ hlen)
      cases segment with
      | static name => exact ih
      | param name =>
        simp only [List.map_cons, label, List.cons_append, captured, List.getLast?_cons,
          ih, List.length_cons, List.drop_succ_cons, Option.getD_some]
      | wildcard name => simp [isWildcard] at h

end

section Captured

variable {H : Type} {mount : Mount H} {r : Registration H}

theorem segments_of_mem (hr : r ∈ mount.insertProxyRoutes) :
    parseSegments r.path = parseSegments mount.pathPrefix ++ [.wildcard "proxy_path".toList] ∨
      parseSegments r.path = parseSegments mount.pathPrefix := by
  simp only [Mount.insertProxyRoutes, List.mem_flatMap, List.mem_cons, List.not_mem_nil,
    or_false] at hr
  obtain ⟨method, _, rfl | rfl⟩ := hr
  · left
    have happend : pathTexts (mount.pathPrefix ++ "/*proxy_path".toList) =
        pathTexts mount.pathPrefix ++ pathTexts "/*proxy_path".toList :=
      pathTexts_append mount.pathPrefix rfl
    have hpattern : mount.patterns.wildcard = mount.pathPrefix ++ "/*proxy_path".toList := by
      simp [Mount.patterns, PrefixPatterns.under]
    rw [hpattern, parseSegments, happend, List.map_append]
    rfl
  · right
    rw [Mount.patterns, PrefixPatterns.under]
    by_cases hempty : mount.pathPrefix = []
    · simp [hempty, parseSegments]
    · simp [hempty]

theorem node_of_mem (hr : r ∈ mount.insertProxyRoutes) :
    r.entry.truncated.node = (leading mount.pathPrefix).map label ∨
      r.entry.truncated.node = (leading mount.pathPrefix).map label ++ [.wildcard] := by
  have hplain := leading_plain mount.pathPrefix
  have htruncated : r.entry.truncated.node =
      (truncate (parseSegments r.path)).map label := rfl
  have hwildcard : ∀ name rest, (truncate (leading mount.pathPrefix ++ .wildcard name :: rest)).map
      label = (leading mount.pathPrefix).map label ++ [.wildcard] := by
    intro name rest
    rw [truncate_plain hplain, List.map_append]
    rfl
  rw [htruncated]
  rcases parseSegments_eq_leading mount.pathPrefix with hall | ⟨name, rest, hwild⟩
  · rcases segments_of_mem hr with hsegments | hsegments
    · right
      rw [hsegments, hall]
      exact hwildcard _ _
    · left
      have htruncate := truncate_plain hplain []
      rw [List.append_nil] at htruncate
      rw [hsegments, hall, htruncate, truncate, List.append_nil]
  · right
    rcases segments_of_mem hr with hsegments | hsegments
    · rw [hsegments, hwild, List.append_assoc]
      exact hwildcard _ _
    · rw [hsegments, hwild]
      exact hwildcard _ _

theorem wildcardSegments_of_routed {regs : List (Registration H)} {method : Method} {path : Text}
    {i : ℕ} {selected : Selected H} (hr : r ∈ mount.insertProxyRoutes)
    (hrouted : RoutedTo regs method path i r selected) :
    (leading mount.pathPrefix).length ≤ (pathTexts path).length ∧
      wildcardSegments r selected = (pathTexts path).drop (leading mount.pathPrefix).length := by
  have hplain := leading_plain mount.pathPrefix
  have hmatches := hrouted.best.applies.path
  obtain ⟨segments, hsplit, _, rfl⟩ := hrouted.select
  obtain ⟨_, rfl⟩ := splitPathSegments_eq_some.mp hsplit
  rcases node_of_mem hr with hnode | hnode
  · -- the exact pattern of a prefix without a wildcard leaves nothing over
    rw [hnode, ← List.append_nil (List.map _ _)] at hmatches
    obtain ⟨hlen, hrest⟩ := matches_append hplain hmatches
    refine ⟨hlen, ?_⟩
    have hover : (pathTexts path).drop (leading mount.pathPrefix).length = [] := by
      generalize (pathTexts path).drop (leading mount.pathPrefix).length = rest at hrest
      cases hrest
      rfl
    rw [hover, wildcardSegments, hnode, if_neg]
    rw [List.getLast?_map]
    intro hlast
    obtain ⟨segment, hsegment, hlabel⟩ := Option.map_eq_some_iff.mp hlast
    have := hplain segment (List.mem_of_getLast? hsegment)
    cases segment <;> simp [isWildcard, label] at this hlabel
  · rw [hnode] at hmatches
    obtain ⟨hlen, hrest⟩ := matches_append hplain hmatches
    refine ⟨hlen, ?_⟩
    have hlen' : (leading mount.pathPrefix).length ≤ (slicesFrom 0 path).length := by
      simpa [pathTexts] using hlen
    have hne : (slicesFrom 0 path).drop (leading mount.pathPrefix).length ≠ [] := by
      have := hrest.texts_ne_nil
      rw [pathTexts, ← List.map_drop] at this
      simpa using this
    rw [wildcardSegments, hnode, if_pos (by simp)]
    simp only [selectedAt, captured_getLast? hplain path hlen', Option.map_some,
      Option.getD_some, wildcardSpan_drop path _ hne, pathTexts_spanFrom]

end Captured

theorem authorityOf_text (backend : Backend) {rest : Text} (hrest : Cut rest)
    (query : Option Text) :
    backend.authorityOf (backend.text ++ rest ++ queryText query) = backend.authority := by
  have hstop : (rest ++ queryText query).takeWhile
      (fun c => c ≠ '/' && c ≠ '?' && c ≠ '#') = [] := by
    cases rest with
    | nil => cases query <;> simp [queryText]
    | cons c rest =>
      have hc : c = '/' := by simpa [Cut] using hrest
      simp [hc]
  rw [Backend.authorityOf, Backend.text, List.append_assoc, List.append_assoc, List.drop_left,
    List.takeWhile_append_of_pos, hstop, List.append_nil]
  intro c hc
  have := backend.plain c hc
  simp [this]

theorem plain_iff_leading (pathPrefix : Text) :
    (∀ segment ∈ parseSegments pathPrefix, isWildcard segment = false) ↔
      (leading pathPrefix).length = (parseSegments pathPrefix).length := by
  constructor
  · intro h
    rw [leading, List.takeWhile_eq_self_iff.mpr (by simpa using h)]
  · intro h
    have hself : leading pathPrefix = parseSegments pathPrefix :=
      (List.takeWhile_prefix _).eq_of_length h
    rw [← hself]
    exact leading_plain pathPrefix

theorem remainder_iff_aligned {pathPrefix path : Text}
    (hlen : (leading pathPrefix).length ≤ (pathTexts path).length) :
    (Cut (remainder pathPrefix path) ∧
      pathTexts (remainder pathPrefix path) =
        (pathTexts path).drop (leading pathPrefix).length) ↔ Aligned pathPrefix path := by
  have hle : (leading pathPrefix).length ≤ (parseSegments pathPrefix).length :=
    (List.takeWhile_prefix _).length_le
  have hsegments : (parseSegments pathPrefix).length = (pathTexts pathPrefix).length :=
    List.length_map _
  by_cases hstarts : pathPrefix <+: path
  · obtain ⟨rest, rfl⟩ := hstarts
    have hrest : ∀ rest', pathPrefix ++ rest = pathPrefix ++ rest' → rest' = rest :=
      fun rest' h => (List.append_cancel_left h).symm
    rw [remainder_append]
    by_cases hcut : Cut rest
    · have hcut' : Cut (if rest = [] then ['/'] else rest) := by
        split_ifs
        · rfl
        · exact hcut
      have htexts : pathTexts (if rest = [] then ['/'] else rest) = pathTexts rest := by
        split_ifs with h
        · rw [h]
          rfl
        · rfl
      rw [htexts, pathTexts_append pathPrefix hcut]
      constructor
      · rintro ⟨_, heq⟩
        -- the lengths force every segment of the prefix to be a leading one
        have hlength := congrArg List.length heq
        rw [List.length_drop, List.length_append] at hlength
        exact .literal rest rfl hcut ((plain_iff_leading pathPrefix).mpr (by omega))
      · rintro (⟨rest', h, _, hplain⟩ | ⟨h, _, _⟩)
        · rw [(plain_iff_leading pathPrefix).mp hplain, hsegments, List.drop_left]
          exact ⟨hcut', rfl⟩
        · exact absurd ⟨rest, rfl⟩ h
    · have hne : rest ≠ [] := fun h => hcut (h ▸ rfl)
      rw [if_neg hne]
      constructor
      · rintro ⟨h, _⟩
        exact absurd h hcut
      · rintro (⟨rest', h, hcut', _⟩ | ⟨h, _, _⟩)
        · exact absurd (hrest rest' h ▸ hcut') hcut
        · exact absurd ⟨rest, rfl⟩ h
  · rw [remainder_of_not_isPrefix hstarts]
    constructor
    · rintro ⟨hcut, heq⟩
      have hlength := congrArg List.length heq
      rw [List.length_drop] at hlength
      exact .unclaimed hstarts hcut (List.eq_nil_of_length_eq_zero (by omega))
    · rintro (⟨rest, h, _, _⟩ | ⟨_, hcut, hlead⟩)
      · exact absurd ⟨rest, h.symm⟩ hstarts
      · rw [hlead]
        exact ⟨hcut, rfl⟩

/-- The target of a request that is routed to a proxy registration agrees with what its wildcard
captured exactly when the spellings of prefix and path are aligned. -/
theorem targetUrl_agrees_iff {H : Type} (regs : List (Registration H)) (mount : Mount H)
    (backend : Backend) (hbackend : mount.backend = backend.text) (method : Method) (path : Text)
    (hpath : '?' ∉ path) (query : Option Text) (i : ℕ) (r : Registration H)
    (hr : r ∈ mount.insertProxyRoutes) (selected : Selected H)
    (hrouted : RoutedTo regs method path i r selected) (url : Text)
    (hurl : targetUrl mount.backend mount.pathPrefix (path ++ queryText query) = .ok url) :
    Agrees backend (wildcardSegments r selected) query url ↔
      Aligned mount.pathPrefix path := by
  obtain ⟨hlen, hcaptured⟩ := wildcardSegments_of_routed hr hrouted
  rw [hcaptured, ← remainder_iff_aligned hlen]
  have htarget := targetUrl_eq_ok hpath hurl
  rw [hbackend] at htarget
  subst htarget
  constructor
  · rintro ⟨⟨rest, heq, hcut, htexts⟩, _⟩
    have hrest := List.append_cancel_left (List.append_cancel_right heq)
    rw [hrest]
    exact ⟨hcut, htexts⟩
  · rintro ⟨hcut, htexts⟩
    exact ⟨⟨_, rfl, hcut, htexts⟩, authorityOf_text backend hcut query⟩

def sampleMount (pathPrefix : Text) : Mount ℕ := ⟨false, pathPrefix, "http://backend".toList, 0⟩

def sampleBackend : Backend := ⟨"http".toList, "backend".toList, by simp⟩

theorem sampleMount_routed (pathPrefix path : Text) {segments : List Slice}
    (hsplit : splitPathSegments path = some segments)
    (h : ((router (sampleMount pathPrefix).insertProxyRoutes).freeze.select .get path
      segments).isSome) :
    ∃ i r selected, r ∈ (sampleMount pathPrefix).insertProxyRoutes ∧
      RoutedTo (sampleMount pathPrefix).insertProxyRoutes .get path i r selected := by
  obtain ⟨selected, hselected⟩ := Option.isSome_iff_exists.mp h
  obtain ⟨i, r, hrouted⟩ := exists_routedTo hsplit hselected
  exact ⟨i, r, selected, List.mem_of_getElem? hrouted.get, hrouted⟩

theorem targetUrl_agrees_iff_api :
    ∃ i r selected, RoutedTo (sampleMount "/api".toList).insertProxyRoutes .get "/api/x".toList i r
        selected ∧
      (Agrees sampleBackend (wildcardSegments r selected) none "http://backend/x".toList ↔
        Aligned "/api".toList "/api/x".toList) := by
  obtain ⟨i, r, selected, hr, hrouted⟩ := sampleMount_routed "/api".toList "/api/x".toList
    rfl (by decide +kernel)
  exact ⟨i, r, selected, hrouted, targetUrl_agrees_iff _ (sampleMount "/api".toList) sampleBackend
    rfl .get _ (by decide) none i r hr selected hrouted _ (by decide +kernel)⟩

/-- A prefix that ends with a slash is routed as if it did not, but stripped with it: the first
character of the remainder is glued to the authority. -/
theorem not_agrees_trailing_slash :
    ∃ i r selected, r ∈ (sampleMount "/api/".toList).insertProxyRoutes ∧
      RoutedTo (sampleMount "/api/".toList).insertProxyRoutes .get "/api/x".toList i r selected ∧
      targetUrl "http://backend".toList "/api/".toList "/api/x".toList =
        .ok "http://backendx".toList ∧
      sampleBackend.authorityOf "http://backendx".toList = "backendx".toList ∧
      ¬ Agrees sampleBackend (wildcardSegments r selected) none "http://backendx".toList := by
  obtain ⟨i, r, selected, hr, hrouted⟩ := sampleMount_routed "/api/".toList "/api/x".toList
    rfl (by decide)
  refine ⟨i, r, selected, hr, hrouted, by decide, by decide, ?_⟩
  intro h
  exact absurd h.authority (by decide)

end Camber.Proxy
