import Camber.Lib.SpecialUrl
import Camber.Proxy.Target

/-! What keeps a target below the backend's base path, cut as a URL parser cuts it. -/

namespace Camber.Proxy

open Str Url

structure OrdinarySegment (segment : Text) : Prop where
  ne_nil : segment ≠ []
  chars : ∀ c ∈ segment, isSeparator c = false ∧ isPathEnd c = false
  name : IsName segment

/-- A backend address with a base path of ordinary segments. -/
structure BasedBackend where
  scheme : Scheme
  authority : Text
  base : List Text
  authority_chars : ∀ c ∈ authority, isSeparator c = false ∧ isPathEnd c = false
  base_ordinary : ∀ segment ∈ base, OrdinarySegment segment

namespace BasedBackend

def baseText (base : List Text) : Text := base.flatMap ('/' :: ·)

def text (backend : BasedBackend) : Text :=
  backend.scheme.text ++ backend.authority ++ baseText backend.base

end BasedBackend

def pieces (rest : Text) : List Text := (rest.takeWhile (!isPathEnd ·)).splitOnP isSeparator

def Descends (rest : Text) : Prop := ∃ after, pieces rest = [] :: after ∧ staysBelow 0 after = true

def StaysUnder (pathPrefix path : Text) : Prop :=
  (∀ rest, path = pathPrefix ++ rest → Descends rest) ∧
    (¬ pathPrefix <+: path → Descends path)

theorem descends_remainder {pathPrefix path : Text} :
    Descends (remainder pathPrefix path) ↔ StaysUnder pathPrefix path := by
  by_cases hstarts : pathPrefix <+: path
  · obtain ⟨rest, rfl⟩ := hstarts
    rw [remainder_append]
    have hempty : Descends ['/'] ↔ Descends [] :=
      ⟨fun _ => ⟨[], rfl, rfl⟩, fun _ => ⟨[[]], rfl, rfl⟩⟩
    constructor
    · intro h
      refine ⟨fun other heq => ?_, fun hnot => absurd ⟨rest, rfl⟩ hnot⟩
      obtain rfl := List.append_cancel_left heq
      split_ifs at h with hnil
      · rw [hnil]
        exact hempty.mp h
      · exact h
    · intro h
      have hrest := h.1 rest rfl
      split_ifs with hnil
      · rw [hnil] at hrest
        exact hempty.mpr hrest
      · exact hrest
  · rw [remainder_of_not_isPrefix hstarts]
    refine ⟨fun h => ⟨fun rest heq => absurd ⟨rest, heq.symm⟩ hstarts, fun _ => h⟩, fun h => ?_⟩
    exact h.2 hstarts

variable {base : List Text} {last rest : Text}

theorem pathPieces_baseText (h : ∀ segment ∈ base ++ [last], OrdinarySegment segment) (rest : Text) :
    pathPieces (BasedBackend.baseText (base ++ [last]) ++ rest) =
      base ++ (rest.splitOnP isSeparator).modifyHead (last ++ ·) := by
  induction base with
  | nil =>
    have hlast : ∀ c ∈ last, isSeparator c = false := fun c hc =>
      ((h last (by simp)).chars c hc).1
    have htext : BasedBackend.baseText ([] ++ [last]) ++ rest = '/' :: (last ++ rest) := by
      simp [BasedBackend.baseText]
    rw [htext, pathPieces, splitOnP_append hlast, List.nil_append]
  | cons segment base ih =>
    have hsegment : ∀ c ∈ segment, isSeparator c = false := fun c hc =>
      ((h segment (List.mem_cons_self ..)).chars c hc).1
    have hmore := ih fun x hx => h x (List.mem_cons_of_mem _ hx)
    -- the segments that follow start with a slash
    obtain ⟨after, hafter⟩ :
        ∃ after, BasedBackend.baseText (base ++ [last]) ++ rest = '/' :: after := by
      cases base with
      | nil => exact ⟨_, rfl⟩
      | cons next base => exact ⟨_, rfl⟩
    have htext : BasedBackend.baseText (segment :: base ++ [last]) ++ rest =
        '/' :: (segment ++ '/' :: after) := by
      rw [← hafter]
      simp [BasedBackend.baseText]
    rw [hafter, pathPieces] at hmore
    rw [htext, pathPieces, List.splitOnP_append_cons_of_forall_mem hsegment '/' rfl, hmore,
      List.cons_append]

theorem takeWhile_queryText (rest : Text) (query : Option Text) :
    (rest ++ queryText query).takeWhile (!isPathEnd ·) = rest.takeWhile (!isPathEnd ·) := by
  have hquery : (queryText query).takeWhile (!isPathEnd ·) = [] := by cases query <;> rfl
  rw [List.takeWhile_append, hquery, List.append_nil]
  split_ifs with hall
  · exact (List.takeWhile_sublist _).eq_of_length hall |>.symm
  · rfl

theorem readPath_target (backend : BasedBackend) (hbase : backend.base = base ++ [last])
    (rest : Text) (query : Option Text) :
    readPath (backend.text ++ (rest ++ queryText query)) =
      some (resolve (base ++ (pieces rest).modifyHead (last ++ ·))).reverse := by
  have hordinary : ∀ segment ∈ base ++ [last], OrdinarySegment segment :=
    hbase ▸ backend.base_ordinary
  have hauthority : ∀ c ∈ backend.authority, (!(isSeparator c || isPathEnd c)) = true := by
    intro c hc
    rw [(backend.authority_chars c hc).1, (backend.authority_chars c hc).2]
    rfl
  have hends : ∀ c ∈ BasedBackend.baseText (base ++ [last]), (!isPathEnd c) = true := by
    intro c hc
    obtain ⟨segment, hsegment, hc⟩ := List.mem_flatMap.mp hc
    rcases List.mem_cons.mp hc with rfl | hc
    · rfl
    · rw [((hordinary segment hsegment).chars c hc).2]
      rfl
  obtain ⟨after, hafter⟩ : ∃ after, BasedBackend.baseText (base ++ [last]) = '/' :: after := by
    cases base with
    | nil => exact ⟨_, rfl⟩
    | cons next base => exact ⟨_, rfl⟩
  have hpath : (backend.authority ++ (BasedBackend.baseText (base ++ [last]) ++
      (rest ++ queryText query))).dropWhile (fun c => !(isSeparator c || isPathEnd c)) =
      BasedBackend.baseText (base ++ [last]) ++ (rest ++ queryText query) := by
    rw [List.dropWhile_append_of_pos hauthority, hafter, List.cons_append, List.dropWhile_cons]
    rfl
  rw [BasedBackend.text, hbase, List.append_assoc, List.append_assoc, readPath_scheme,
    pathAfterAuthority]
  rw [hpath, List.takeWhile_append_of_pos hends, takeWhile_queryText,
    pathPieces_baseText hordinary]
  rfl

theorem under_of_descends (backend : BasedBackend) (query : Option Text) (h : Descends rest) :
    ∃ segments, readPath (backend.text ++ (rest ++ queryText query)) = some segments ∧
      Under backend.base segments := by
  obtain ⟨after, hpieces, hstays⟩ := h
  rcases List.eq_nil_or_concat backend.base with hnil | ⟨base, last, hbase⟩
  · -- without a base path there is nothing to stay under
    rw [hnil, BasedBackend.text, List.append_assoc, List.append_assoc, readPath_scheme]
    exact ⟨_, rfl, _, rfl⟩
  · rw [List.concat_eq_append] at hbase
    refine ⟨_, readPath_target backend hbase rest query, ?_⟩
    have hsplit : base ++ (pieces rest).modifyHead (last ++ ·) = backend.base ++ after := by
      rw [hpieces, hbase, List.modifyHead_cons, List.append_nil, List.append_assoc,
        List.singleton_append]
    rw [hsplit]
    exact resolve_under (fun name hname => (backend.base_ordinary name hname).name) hstays

theorem not_under_of_not_descends (backend : BasedBackend) (hbase : backend.base = base ++ [last])
    (query : Option Text) (hfresh : last ∉ pieces rest) (h : ¬Descends rest) :
    ∃ segments, readPath (backend.text ++ (rest ++ queryText query)) = some segments ∧
      ¬Under backend.base segments := by
  refine ⟨_, readPath_target backend hbase rest query, ?_⟩
  have hlast : last ≠ [] := (backend.base_ordinary last (by simp [hbase])).ne_nil
  have hnames : ∀ name ∈ base, IsName name := fun name hname =>
    (backend.base_ordinary name (by simp [hbase, hname])).name
  have hname : ∀ name ∈ base ++ [last], IsName name := fun name hname =>
    (backend.base_ordinary name (hbase ▸ hname)).name
  rw [hbase]
  refine not_under_resolve hlast fun reached => ?_
  obtain ⟨head, after, hpieces⟩ := List.exists_cons_of_ne_nil
    (show pieces rest ≠ [] from List.splitOnP_ne_nil _ _)
  have hafter : last ∉ after := fun hmem => hfresh (hpieces ▸ List.mem_cons_of_mem _ hmem)
  rw [hpieces, List.modifyHead_cons]
  cases head with
  | nil =>
    -- the text starts with a separator, so its pieces climb above the base
    have hclimb : staysBelow 0 after = false := by
      by_contra hstays
      exact h ⟨after, hpieces, by simpa using hstays⟩
    rw [List.append_nil, ← List.singleton_append, ← List.append_assoc, List.foldl_append,
      enter_names hname, List.append_nil, List.reverse_append]
    exact enter_of_climb [] hclimb hafter reached
  | cons c head =>
    -- the text runs on from the base's last segment
    rw [List.foldl_append, enter_names hnames, List.append_nil]
    refine enter_off (fun reached heq => ?_) ?_ reached
    · have hlength := congrArg List.length heq
      simp at hlength
      omega
    · intro hmem
      rcases List.mem_cons.mp hmem with heq | hmem
      · have hlength := congrArg List.length heq
        simp at hlength
      · exact hafter hmem

def ForwardsUnder (backend : BasedBackend) (pathPrefix pathAndQuery : Text) : Prop :=
  ∃ url segments, targetUrl backend.text pathPrefix pathAndQuery = .ok url ∧
    readPath url = some segments ∧ Under backend.base segments

theorem targetUrl_of_stripPrefix {pathAndQuery pathPrefix : Text}
    (h : stripPrefix pathAndQuery pathPrefix = some rest) (backend : Text) :
    targetUrl backend pathPrefix pathAndQuery =
      .ok (backend ++ (remainder pathPrefix (splitQuery pathAndQuery).1 ++
        queryText (splitQuery pathAndQuery).2)) := by
  have hrest : rest = remainder pathPrefix (splitQuery pathAndQuery).1 ++
      queryText (splitQuery pathAndQuery).2 := by
    rw [stripPrefix] at h
    dsimp only at h
    split_ifs at h
    exact (Option.some.inj h).symm
  rw [targetUrl, h, hrest]

def freshBackend (rest : Text) : BasedBackend where
  scheme := .http
  authority := "backend".toList
  base := [List.replicate (rest.length + 1) 'a']
  authority_chars := by simp [isSeparator, isPathEnd]
  base_ordinary := by
    intro segment hsegment
    obtain rfl := List.mem_singleton.mp hsegment
    refine ⟨List.cons_ne_nil _ _, fun c hc => ?_, rfl, rfl⟩
    obtain rfl := List.eq_of_mem_replicate hc
    exact ⟨rfl, rfl⟩

theorem freshBackend_fresh (rest : Text) : List.replicate (rest.length + 1) 'a' ∉ pieces rest := by
  intro hmem
  have hle := (length_le_of_mem_splitOnP hmem).trans (List.takeWhile_sublist _).length_le
  rw [List.length_replicate] at hle
  omega

/-- For every prefix and request path that a target is built for: the target stays under the base
path of every backend exactly when what is left of the path descends. -/
theorem target_under_base_iff {pathAndQuery pathPrefix rest : Text}
    (htarget : stripPrefix pathAndQuery pathPrefix = some rest) :
    ((∀ backend : BasedBackend, ForwardsUnder backend pathPrefix pathAndQuery) ↔
      StaysUnder pathPrefix (splitQuery pathAndQuery).1) ∧
    ∀ (backend : BasedBackend) (base : List Text) (last : Text), backend.base = base ++ [last] →
      last ∉ pieces (remainder pathPrefix (splitQuery pathAndQuery).1) →
      ¬StaysUnder pathPrefix (splitQuery pathAndQuery).1 →
      ¬ForwardsUnder backend pathPrefix pathAndQuery := by
  have hleaves : ∀ (backend : BasedBackend) (base : List Text) (last : Text),
      backend.base = base ++ [last] →
      last ∉ pieces (remainder pathPrefix (splitQuery pathAndQuery).1) →
      ¬StaysUnder pathPrefix (splitQuery pathAndQuery).1 →
      ¬ForwardsUnder backend pathPrefix pathAndQuery := by
    intro backend base last hbase hfresh hnot hforwards
    obtain ⟨url, segments, hurl, hread, hunder⟩ := hforwards
    rw [targetUrl_of_stripPrefix htarget] at hurl
    obtain rfl := Except.ok.inj hurl
    obtain ⟨other, hother, hleft⟩ := not_under_of_not_descends backend hbase
      (splitQuery pathAndQuery).2 hfresh fun h => hnot (descends_remainder.mp h)
    rw [hread] at hother
    obtain rfl := Option.some.inj hother
    exact hleft hunder
  refine ⟨⟨fun hall => ?_, fun hstays backend => ?_⟩, hleaves⟩
  · by_contra hnot
    exact hleaves (freshBackend _) [] _ rfl (freshBackend_fresh _) hnot (hall _)
  · obtain ⟨segments, hread, hunder⟩ := under_of_descends backend (splitQuery pathAndQuery).2
      (descends_remainder.mpr hstays)
    exact ⟨_, segments, targetUrl_of_stripPrefix htarget _, hread, hunder⟩

def sampleBased : BasedBackend where
  scheme := .http
  authority := "backend".toList
  base := ["base".toList]
  authority_chars := by simp [isSeparator, isPathEnd]
  base_ordinary := by
    intro segment hsegment
    obtain rfl := List.mem_singleton.mp hsegment
    exact ⟨by decide, by simp [isSeparator, isPathEnd], by decide, by decide⟩

theorem target_under_base_iff_sampleBased :
    stripPrefix "/api/users?page=2".toList "/api".toList = some "/users?page=2".toList ∧
      ((∀ backend : BasedBackend, ForwardsUnder backend "/api".toList "/api/users?page=2".toList) ↔
        StaysUnder "/api".toList (splitQuery "/api/users?page=2".toList).1) := by
  have htarget : stripPrefix "/api/users?page=2".toList "/api".toList =
      some "/users?page=2".toList := by decide +kernel
  exact ⟨htarget, (target_under_base_iff htarget).1⟩

/-- A backslash hides the dot-dot segment from the guard, and the target leaves the base path. -/
theorem backslash_leaves_base :
    targetUrl sampleBased.text "/api".toList "/api/..\\secret".toList =
        .ok "http://backend/base/..\\secret".toList ∧
      readPath "http://backend/base/..\\secret".toList = some ["secret".toList] ∧
      ¬Under sampleBased.base ["secret".toList] := by
  refine ⟨by decide, by decide +kernel, ?_⟩
  rintro ⟨rest, hrest⟩
  exact absurd (List.cons.inj hrest).1 (by decide)

end Camber.Proxy
