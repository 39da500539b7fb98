import Camber.Routing.Selection

/-! A request no handler is selected for is answered from a second walk, which takes no node and
collects what every matching node claims. -/

namespace Camber.Routing

open Str FrozenNode TrieNode

def hasMethod (mask : UInt8) (method : Method) : Prop := mask &&& methodBit method ≠ 0

theorem hasMethod_or {a b : UInt8} {method : Method} :
    hasMethod (a ||| b) method ↔ hasMethod a method ∨ hasMethod b method := by
  have hdistrib : (a ||| b) &&& methodBit method =
      (a &&& methodBit method) ||| (b &&& methodBit method) := by
    rw [← UInt8.toBitVec_inj]
    simp [BitVec.and_or_distrib_right]
  simp only [hasMethod, hdistrib, ne_eq, UInt8.or_eq_zero_iff]
  tauto

theorem hasMethod_methodBit {a b : Method} : hasMethod (methodBit a) b ↔ b = a := by
  unfold hasMethod
  cases a <;> cases b <;> decide

theorem hasMethod_foldl {α : Type} (f : α → UInt8) (l : List α) (mask : UInt8) (method : Method) :
    hasMethod (l.foldl (fun mask a => mask ||| f a) mask) method ↔
      hasMethod mask method ∨ ∃ a ∈ l, hasMethod (f a) method := by
  induction l generalizing mask with
  | nil => simp
  | cons a l ih => simp [ih, hasMethod_or, or_assoc]

theorem mem_canonicalMethods (method : Method) : method ∈ canonicalMethods := by
  cases method <;> simp [canonicalMethods]

def allowValue (methods : List Method) : Text :=
  List.intercalate ", ".toList (methods.map Method.asStr)

theorem asStr_ne_nil (method : Method) : method.asStr ≠ [] := by
  cases method <;> decide

theorem renderAllow_eq (served : UInt8) :
    renderAllow served = allowValue (canonicalMethods.filter fun method =>
      served &&& methodBit method ≠ 0) := by
  have hmore : ∀ (methods : List Method) (rendered : Text), rendered ≠ [] →
      methods.foldl (fun rendered method =>
        rendered ++ (if rendered.isEmpty then [] else ", ".toList) ++ method.asStr) rendered =
      List.intercalate ", ".toList (rendered :: methods.map Method.asStr) := by
    intro methods
    induction methods with
    | nil => simp
    | cons method methods ih =>
      intro rendered hne
      have hstart : rendered.isEmpty = false := by simpa using hne
      rw [List.foldl_cons, ih _ (by simp [hne]), hstart]
      cases methods <;> simp [List.intercalate_cons_cons]
  rw [renderAllow, allowValue]
  generalize canonicalMethods.filter _ = methods
  cases methods with
  | nil => rfl
  | cons method methods =>
    rw [List.foldl_cons]
    exact hmore methods _ (by simp [asStr_ne_nil])

section Claims

variable {H : Type}

variable {slots : MethodSlots H}

theorem hasMethod_servedMask {method : Method} :
    hasMethod (servedMask slots) method ↔ slotServes slots method = true := by
  rw [servedMask, hasMethod_foldl]
  simp only [hasMethod_methodBit, List.mem_filter, mem_canonicalMethods, true_and]
  simp [hasMethod]

theorem freezeClaim_eq_none : freezeClaim slots = none ↔ ∀ method, slots method = none := by
  simp [freezeClaim, List.findSome?_eq_none_iff, mem_canonicalMethods]

theorem freezeClaim_eq_some {claim : Claimed} (h : freezeClaim slots = some claim) :
    (∃ method handler, slots method = some handler ∧ claim.route = handler.route ∧
      ∀ other, slots other ≠ none →
        canonicalMethods.idxOf method ≤ canonicalMethods.idxOf other) ∧
      claim.served = servedMask slots ∧ claim.allow = renderAllow claim.served := by
  obtain ⟨handler, hfirst, rfl⟩ := Option.map_eq_some_iff.mp h
  obtain ⟨before, method, after, hsplit, hslot, hbefore⟩ := List.findSome?_eq_some_iff.mp hfirst
  refine ⟨⟨method, handler, hslot, rfl, fun other hother => ?_⟩, rfl, rfl⟩
  have hnot : other ∉ before := fun hmem => hother (hbefore other hmem)
  have hself : method ∉ before := fun hmem => by simp [hbefore method hmem] at hslot
  rw [hsplit, List.idxOf_append_of_notMem hself, List.idxOf_append_of_notMem hnot]
  simp

theorem claims_of_slotServes {method : Method} (h : slotServes slots method = true) :
    freezeClaim slots ≠ none := by
  intro hnone
  have hslots := freezeClaim_eq_none.mp hnone
  cases method <;> simp [slotServes, selectSlot, headFromGet, hslots] at h

theorem serves_of_claims (h : freezeClaim slots ≠ none) :
    ∃ method, slotServes slots method = true := by
  obtain ⟨claim, hclaim⟩ := Option.ne_none_iff_exists'.mp h
  obtain ⟨⟨method, handler, hslot, -⟩, -⟩ := freezeClaim_eq_some hclaim
  exact ⟨method, by simp [slotServes, selectSlot, hslot]⟩

end Claims

section Refuse

variable {H : Type}

theorem scan_collecting (handlersAt : List Label → FrozenMethodHandlers H)
    (names : List (List Label)) (claims : List Claimed) :
    (scan collecting handlersAt names claims).2 =
      claims ++ names.filterMap fun labels => (handlersAt labels).claimed := by
  induction names generalizing claims with
  | nil => simp [scan]
  | cons labels rest ih =>
    simp only [scan, collecting]
    rw [ih, List.append_assoc]
    cases hclaimed : (handlersAt labels).claimed <;> simp [hclaimed]

variable {entries : List (Entry H)}

theorem collected_eq (hlast : ∀ r ∈ entries, wildcardLast r.segments) (path : Text)
    (segments : List Slice) :
    (resolve collecting path segments
        (insertAll entries).freeze []).2 =
      (candidates (segments.map Slice.text)).filterMap fun labels =>
        freezeClaim (slotsAt entries labels) := by
  have hskip : ∀ s, collecting (freezeHandlers ([] : List (RegisteredHandler H))) s =
      (false, s) := by
    intro s
    have hnone : (freezeHandlers ([] : List (RegisteredHandler H))).claimed = none := by
      show freezeClaim (freezeSlots ([] : List (RegisteredHandler H))) = none
      exact freezeClaim_eq_none.mpr fun _ => rfl
    simp [collecting, hnone]
  rw [resolve_eq_scan hskip hlast]
  simp only [Prod.map_snd, id_eq]
  rw [scan_collecting]
  rfl

theorem select_isSome_iff (hlast : ∀ r ∈ entries, wildcardLast r.segments) (method : Method)
    (path : Text) (segments : List Slice) :
    ((insertAll entries).freeze.select method path segments).isSome = true ↔
      ∃ labels ∈ candidates (segments.map Slice.text),
        slotServes (slotsAt entries labels) method = true := by
  rw [select_eq_find hlast]
  cases hfind : (candidates (segments.map Slice.text)).find? fun labels =>
      slotServes (slotsAt entries labels) method with
  | none => simpa using List.find?_eq_none.mp hfind
  | some labels =>
    have hserves := List.find?_some hfind
    have hmem := List.mem_of_find?_eq_some hfind
    simp only [Option.bind_some, Option.isSome_map]
    exact iff_of_true hserves ⟨labels, hmem, hserves⟩

structure Claims (entries : List (Entry H)) (texts : List Text) (r : Entry H) : Prop where
  mem : r ∈ entries
  path : Matches r.node texts
  first : ∀ r' ∈ entries, Matches r'.node texts →
    r'.node = r.node ∨ ranks r.node < ranks r'.node
  canonical : ∀ r' ∈ entries, r'.node = r.node →
    canonicalMethods.idxOf r.registered.method ≤ canonicalMethods.idxOf r'.registered.method

theorem exists_claims {texts : List Text} {labels : List Label} {claim : Claimed}
    {before after : List (List Label)} (hsplit : candidates texts = before ++ labels :: after)
    (hbefore : ∀ other ∈ before, freezeClaim (slotsAt entries other) = none)
    (hclaim : freezeClaim (slotsAt entries labels) = some claim) :
    ∃ r, Claims entries texts r ∧ claim.route = r.registered.route := by
  obtain ⟨⟨method, handler, hslot, hroute, hfirst⟩, -⟩ := freezeClaim_eq_some hclaim
  obtain ⟨i, r, hr, hfrozen⟩ : ∃ i r,
      IsLast (fun r => r.node = labels ∧ r.registered.method = method) entries i r ∧
        slotsAt entries labels method = some r.registered.freeze := by
    rcases slotsAt_spec entries labels method with h | ⟨-, hnone⟩
    · exact h
    · rw [hnone] at hslot
      cases hslot
  obtain ⟨rfl, rfl⟩ := hr.holds
  obtain rfl : r.registered.freeze = handler := Option.some.inj (hfrozen.symm.trans hslot)
  have hmatches : Matches r.node texts := mem_candidates.mp (by rw [hsplit]; simp)
  -- a registration fills a slot of its node
  have hfilled : ∀ r' ∈ entries, slotsAt entries r'.node r'.registered.method ≠ none := by
    intro r' hr'
    rcases slotsAt_spec entries r'.node r'.registered.method with ⟨_, _, _, hsome⟩ | ⟨hnone, -⟩
    · simp [hsome]
    · exact absurd ⟨rfl, rfl⟩ (hnone r' hr')
  refine ⟨r, ⟨List.mem_of_getElem? hr.get, hmatches, ?_, ?_⟩, hroute⟩
  · intro r' hr' hpath
    have hmem := mem_candidates.mpr hpath
    have hsorted := candidates_sorted texts
    rw [hsplit] at hmem hsorted
    rcases List.mem_append.mp hmem with hmem | hmem
    · exact absurd (freezeClaim_eq_none.mp (hbefore _ hmem) _) (hfilled r' hr')
    · rcases List.mem_cons.mp hmem with hsame | hmem
      · exact .inl hsame
      · exact .inr (List.rel_of_pairwise_cons (List.pairwise_append.mp hsorted).2.1 hmem)
  · intro r' hr' hnode
    exact hfirst _ (hnode ▸ hfilled r' hr')

theorem mergeAllow_eq {names : List (List Label)} {first : Claimed} {rest : List Claimed}
    (h : names.filterMap (fun labels => freezeClaim (slotsAt entries labels)) = first :: rest) :
    mergeAllow first rest = allowValue (canonicalMethods.filter fun method =>
      names.any fun labels => slotServes (slotsAt entries labels) method) := by
  have hmem : ∀ claim, claim ∈ first :: rest ↔
      ∃ labels ∈ names, freezeClaim (slotsAt entries labels) = some claim := by
    intro claim
    rw [← h, List.mem_filterMap]
  have hallow : first.allow = renderAllow first.served := by
    obtain ⟨labels, -, hclaim⟩ := (hmem first).mp (by simp)
    exact (freezeClaim_eq_some hclaim).2.2
  have hmerged : mergeAllow first rest =
      renderAllow (rest.foldl (fun mask claim => mask ||| claim.served) first.served) := by
    rw [mergeAllow]
    split_ifs with hsame
    · rw [hallow, hsame]
    · rfl
  rw [hmerged, renderAllow_eq]
  congr 1
  refine List.filter_congr fun method _ => ?_
  have hserved : hasMethod (rest.foldl (fun mask claim => mask ||| claim.served) first.served)
      method ↔ ∃ labels ∈ names, slotServes (slotsAt entries labels) method = true := by
    rw [hasMethod_foldl (fun claim : Claimed => claim.served)]
    constructor
    · intro hhas
      obtain ⟨claim, hin, hhas⟩ : ∃ claim ∈ first :: rest, hasMethod claim.served method := by
        simpa using hhas
      obtain ⟨labels, hlabels, hclaim⟩ := (hmem claim).mp hin
      rw [(freezeClaim_eq_some hclaim).2.1] at hhas
      exact ⟨labels, hlabels, hasMethod_servedMask.mp hhas⟩
    · rintro ⟨labels, hlabels, hserves⟩
      obtain ⟨claim, hclaim⟩ := Option.ne_none_iff_exists'.mp (claims_of_slotServes hserves)
      have hin := (hmem claim).mpr ⟨labels, hlabels, hclaim⟩
      have hhas : hasMethod claim.served method := by
        rw [(freezeClaim_eq_some hclaim).2.1]
        exact hasMethod_servedMask.mpr hserves
      rcases List.mem_cons.mp hin with rfl | hin
      · exact .inl hhas
      · exact .inr ⟨claim, hin, hhas⟩
  rw [Bool.eq_iff_iff]
  simpa [hasMethod] using hserved

theorem refuseMethod_spec (hlast : ∀ r ∈ entries, wildcardLast r.segments) (path : Text)
    (segments : List Slice) :
    ((∃ method, ((insertAll entries).freeze.select method path segments).isSome = true) ∧
      ∃ r, Claims entries (segments.map Slice.text) r ∧
        (insertAll entries).freeze.refuseMethod path segments =
          .methodMismatch r.registered.route (allowValue (canonicalMethods.filter fun method =>
            ((insertAll entries).freeze.select method path segments).isSome))) ∨
    (∀ method, (insertAll entries).freeze.select method path segments = none) ∧
      (insertAll entries).freeze.refuseMethod path segments = .unmatched := by
  have hcollected := collected_eq hlast path segments
  rw [refuseMethod, hcollected]
  cases hclaims : (candidates (segments.map Slice.text)).filterMap fun labels =>
      freezeClaim (slotsAt entries labels) with
  | nil =>
    refine .inr ⟨fun method => ?_, rfl⟩
    rw [List.filterMap_eq_nil_iff] at hclaims
    rw [← Option.not_isSome_iff_eq_none, select_isSome_iff hlast]
    rintro ⟨labels, hmem, hserves⟩
    exact claims_of_slotServes hserves (hclaims labels hmem)
  | cons first rest =>
    obtain ⟨before, labels, after, hsplit, hbefore, hfirst, -⟩ :=
      List.filterMap_eq_cons_iff.mp hclaims
    obtain ⟨r, hr, hroute⟩ := exists_claims hsplit hbefore hfirst
    refine .inl ⟨?_, r, hr, ?_⟩
    · obtain ⟨method, hserves⟩ := serves_of_claims (by rw [hfirst]; simp)
      exact ⟨method, (select_isSome_iff hlast method path segments).mpr
        ⟨labels, by rw [hsplit]; simp, hserves⟩⟩
    · simp only [hroute, mergeAllow_eq hclaims]
      congr 2
      refine List.filter_congr fun method _ => ?_
      rw [Bool.eq_iff_iff, select_isSome_iff hlast, List.any_eq_true]

def registered (regs : List (Registration H)) : List (Entry H) :=
  (regs.map Registration.entry).map Entry.truncated

/-- A request that selects no handler is refused with the truth: the `Allow` value lists the methods
that select a handler at its path and no others, each once and in canonical order, and the route is
a pattern of the first node in the order of precedence that claims the path. -/
theorem refusal_tells_the_truth (regs : List (Registration H)) (method : Option Method)
    (path : Text) (hlimit : (pathTexts path).length ≤ pathSegmentLimit)
    (hnone : ∀ segments, splitPathSegments path = some segments → ∀ m, method = some m →
      (router regs).freeze.select m path segments = none) :
    ∃ segments, splitPathSegments path = some segments ∧
      ((∃ m, ((router regs).freeze.select m path segments).isSome = true) ∧
        (∃ r, Claims (registered regs) (pathTexts path) r ∧
          (router regs).freeze.lookup method path segments =
            .methodMismatch r.registered.route (allowValue (canonicalMethods.filter fun m =>
              ((router regs).freeze.select m path segments).isSome))) ∨
      (∀ m, (router regs).freeze.select m path segments = none) ∧
        (router regs).freeze.lookup method path segments = .unmatched) := by
  have hsplit : splitPathSegments path = some (slicesFrom 0 path) :=
    splitPathSegments_eq_some.mpr ⟨hlimit, rfl⟩
  refine ⟨slicesFrom 0 path, hsplit, ?_⟩
  have hlookup : (router regs).freeze.lookup method path (slicesFrom 0 path) =
      (router regs).freeze.refuseMethod path (slicesFrom 0 path) := by
    have hselect : (method.bind fun m =>
        (router regs).freeze.select m path (slicesFrom 0 path)) = none := by
      cases method with
      | none => rfl
      | some m => exact hnone _ hsplit m rfl
    rw [lookup, hselect]
  rw [hlookup, router_eq_insertAll, ← insertAll_truncated]
  refine refuseMethod_spec ?_ path (slicesFrom 0 path)
  intro e he
  obtain ⟨entry, _, rfl⟩ := List.mem_map.mp he
  exact wildcardLast_truncate entry.segments

example :
    (router sampleRoutes).freeze.lookup none "/a//b/c/".toList (slicesFrom 0 "/a//b/c/".toList) =
      .methodMismatch "/a/:y/c".toList "GET, HEAD".toList := by decide +kernel

theorem refusal_tells_the_truth_sampleRoutes :
    ∃ segments, splitPathSegments "/a//b/c/".toList = some segments ∧
      ((∃ m, ((router sampleRoutes).freeze.select m "/a//b/c/".toList segments).isSome = true) ∧
        (∃ r, Claims (registered sampleRoutes) (pathTexts "/a//b/c/".toList) r ∧
          (router sampleRoutes).freeze.lookup (some .post) "/a//b/c/".toList segments =
            .methodMismatch r.registered.route (allowValue (canonicalMethods.filter fun m =>
              ((router sampleRoutes).freeze.select m "/a//b/c/".toList segments).isSome))) ∨
      (∀ m, (router sampleRoutes).freeze.select m "/a//b/c/".toList segments = none) ∧
        (router sampleRoutes).freeze.lookup (some .post) "/a//b/c/".toList segments =
          .unmatched) := by
  refine refusal_tells_the_truth sampleRoutes (some .post) "/a//b/c/".toList (by decide) ?_
  rintro segments hsplit m ⟨⟩
  rw [(splitPathSegments_eq_some.mp hsplit).2]
  decide +kernel

end Refuse

end Camber.Routing
