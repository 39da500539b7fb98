import Camber.Lib.Search
import Camber.Multipart.Grammar

/-! The byte searches of the multipart grammar, each with the one statement of what it answers:
`findBytes_first` and `findDelimiter_first`. -/

namespace Camber.Multipart
open Str SliceSearch

def delimiterPrefix : Bytes := [13, 10, 45, 45]

def bodyPrefix : Bytes := [45, 45]

def delimiterSuffixBytes : ℕ := 2

def delimiterCarryOverhead : ℕ := delimiterPrefix.length + delimiterSuffixBytes - 1

def epilogueProbeBytes : ℕ := 3

def headerTerminator : Bytes := [13, 10, 13, 10]

def getRange (bytes : Bytes) (start stop : ℕ) : Option Bytes :=
  if start ≤ stop ∧ stop ≤ bytes.length then some ((bytes.drop start).take (stop - start))
  else none

def findBytes (haystack needle : Bytes) (start : ℕ) : Option ℕ :=
  if start ≥ haystack.length ∨ needle.isEmpty then none
  else ((windows needle.length (haystack.drop start)).findIdx? (· == needle)).map (start + ·)

def headerLineCount (raw : Bytes) : ℕ :=
  if raw.isEmpty then 0 else ((windows 2 raw).filter (· == [13, 10])).length + 1

def opensBody (bytes boundary : Bytes) : Bool :=
  bodyPrefix.isPrefixOf bytes && boundary.isPrefixOf (bytes.drop bodyPrefix.length)

def delimiterCarryOver (boundaryBytes : ℕ) : ℕ := boundaryBytes + delimiterCarryOverhead

def delimiterSuffixCloses : Option Bytes → Option Bool
  | some [13, 10] => some false
  | some [45, 45] => some true
  | _ => none

def delimiterClosesAt (bytes : Bytes) (at_ : ℕ) : Except RuntimeError Bool :=
  match delimiterSuffixCloses (getRange bytes at_ (at_ + delimiterSuffixBytes)) with
  | some closes => .ok closes
  | none => .error (malformed invalidDelimiterFraming)

def epilogueCloses : Bytes → Except RuntimeError Bool
  | [] => .ok true
  | [13, 10] => .ok true
  | [13] => .ok false
  | _ => .error (malformed invalidDelimiterFraming)

/-- The search loop of `find_delimiter`, for as many rounds as `fuel` allows. -/
def findDelimiterWithin (body boundary : Bytes) : ℕ → ℕ → Option ℕ
  | 0, _ => none
  | fuel + 1, searchFrom =>
    match findBytes body delimiterPrefix searchFrom with
    | none => none
    | some pos =>
      let boundaryStart := pos + delimiterPrefix.length
      let suffix := boundaryStart + boundary.length
      let boundaryMatches := getRange body boundaryStart suffix == some boundary
      let suffixBytes := getRange body suffix (suffix + delimiterSuffixBytes)
      match boundaryMatches, delimiterSuffixCloses suffixBytes with
      | true, some _ => some pos
      | _, _ => findDelimiterWithin body boundary fuel boundaryStart

def findDelimiter (body boundary : Bytes) (start : ℕ) : Option ℕ :=
  findDelimiterWithin body boundary (body.length + 1) start

def delimiterLine (boundary : Bytes) (closes : Bool) : Bytes :=
  delimiterPrefix ++ (boundary ++ if closes then [45, 45] else [13, 10])

/-- A confirmed delimiter stands at `pos`. -/
def DelimiterAt (boundary body : Bytes) (pos : ℕ) : Prop :=
  ∃ closes, Occurs (delimiterLine boundary closes) body pos

instance (boundary body : Bytes) (pos : ℕ) : Decidable (DelimiterAt boundary body pos) :=
  inferInstanceAs (Decidable (∃ closes, Occurs (delimiterLine boundary closes) body pos))

@[simp] theorem delimiterLine_length (boundary : Bytes) (closes : Bool) :
    (delimiterLine boundary closes).length = boundary.length + 6 := by
  cases closes <;> simp [delimiterLine, delimiterPrefix]

theorem delimiterLine_ne_nil (boundary : Bytes) (closes : Bool) :
    delimiterLine boundary closes ≠ [] := by
  cases closes <;> simp [delimiterLine, delimiterPrefix]

@[simp] theorem delimiterCarryOver_eq (n : ℕ) : delimiterCarryOver n = n + 5 := rfl

variable {boundary body xs ys : Bytes} {pos : ℕ} {closes : Bool}

theorem DelimiterAt.end_le (h : DelimiterAt boundary body pos) :
    pos + boundary.length + 6 ≤ body.length := by
  obtain ⟨closes, hc⟩ := h
  have hl := hc.end_le (delimiterLine_ne_nil boundary closes)
  rw [delimiterLine_length] at hl
  omega

theorem delimiterAt_drop {k : ℕ} :
    DelimiterAt boundary (body.drop k) pos ↔ DelimiterAt boundary body (k + pos) :=
  exists_congr fun _ => occurs_drop

theorem delimiterAt_append_left {rest : Bytes} (h : pos + boundary.length + 6 ≤ body.length) :
    DelimiterAt boundary (body ++ rest) pos ↔ DelimiterAt boundary body pos :=
  exists_congr fun closes => occurs_append_left (by rw [delimiterLine_length]; omega)

theorem DelimiterAt.append (h : DelimiterAt boundary body pos) (rest : Bytes) :
    DelimiterAt boundary (body ++ rest) pos :=
  (delimiterAt_append_left h.end_le).mpr h

theorem findBytes_first (haystack needle : Bytes) (hn : needle ≠ []) (start : ℕ) :
    First (Occurs needle haystack) start (findBytes haystack needle start) := by
  rw [findBytes]
  split_ifs with h
  · intro j hj hocc
    have hl := hocc.end_le hn
    have hp : 0 < needle.length := List.length_pos_iff.mpr hn
    rcases h with h | h
    · omega
    · exact hn (List.isEmpty_iff.mp h)
  · exact (windows_findIdx?_first needle hn (haystack.drop start)).shift fun j => occurs_drop

theorem getRange_eq_some {bytes needle : Bytes} {start stop : ℕ}
    (hs : stop = start + needle.length) :
    getRange bytes start stop = some needle ↔ stop ≤ bytes.length ∧ Occurs needle bytes start := by
  subst hs
  rw [getRange, occurs_iff_take]
  constructor
  · intro h
    split_ifs at h with hle
    exact ⟨hle.2, by simpa using h⟩
  · rintro ⟨hle, h⟩
    rw [if_pos ⟨by omega, hle⟩]
    simpa using h

theorem delimiterSuffixCloses_eq_some {suffix : Option Bytes} :
    delimiterSuffixCloses suffix = some closes ↔
      suffix = some (if closes then [45, 45] else [13, 10]) := by
  unfold delimiterSuffixCloses
  split <;> cases closes <;> simp_all

theorem delimiterClosesAt_eq_ok {bytes : Bytes} {at_ : ℕ} :
    delimiterClosesAt bytes at_ = .ok closes ↔
      Occurs (if closes then [45, 45] else [13, 10]) bytes at_ := by
  have hne : (if closes then [45, 45] else [13, 10] : Bytes) ≠ [] := by cases closes <;> simp
  have hlen : (if closes then [45, 45] else [13, 10] : Bytes).length = 2 := by cases closes <;> rfl
  have hsome : delimiterClosesAt bytes at_ = .ok closes ↔ delimiterSuffixCloses
      (getRange bytes at_ (at_ + delimiterSuffixBytes)) = some closes := by
    rw [delimiterClosesAt]
    split <;> simp_all
  rw [hsome, delimiterSuffixCloses_eq_some, getRange_eq_some (by rw [hlen]; rfl)]
  refine ⟨fun h => h.2, fun h => ⟨?_, h⟩⟩
  have hl := h.end_le hne
  rwa [hlen] at hl

theorem epilogueCloses_eq_ok {held : Bytes} {closed : Bool} :
    epilogueCloses held = .ok closed ↔
      held = [] ∧ closed = true ∨ held = [13, 10] ∧ closed = true ∨
        held = [13] ∧ closed = false := by
  unfold epilogueCloses
  split <;> cases closed <;> simp_all

theorem epilogueCloses_error {held : Bytes} {e : RuntimeError}
    (h : epilogueCloses held = .error e) : e = malformed invalidDelimiterFraming := by
  unfold epilogueCloses at h
  split at h <;> simp_all

theorem delimiterAt_iff_confirmed (hp : Occurs delimiterPrefix body pos) (boundary : Bytes) :
    DelimiterAt boundary body pos ↔
      getRange body (pos + 4) (pos + 4 + boundary.length) = some boundary ∧
        ∃ closes, delimiterSuffixCloses
          (getRange body (pos + 4 + boundary.length) (pos + 4 + boundary.length + 2)) =
            some closes := by
  have hpl : delimiterPrefix.length = 4 := rfl
  simp only [DelimiterAt, delimiterLine, occurs_append_needle, hp, true_and, hpl,
    getRange_eq_some (rfl : pos + 4 + boundary.length = _), delimiterSuffixCloses_eq_some]
  constructor
  · rintro ⟨closes, hb, hs⟩
    have hle := hs.end_le (by cases closes <;> simp)
    refine ⟨⟨by omega, hb⟩, closes, (getRange_eq_some (by cases closes <;> rfl)).mpr ⟨?_, hs⟩⟩
    cases closes <;> exact hle
  · rintro ⟨⟨_, hb⟩, closes, hs⟩
    exact ⟨closes, hb, ((getRange_eq_some (by cases closes <;> rfl)).mp hs).2⟩

theorem not_delimiterAt_inside_prefix {j : ℕ} (hp : Occurs delimiterPrefix body pos) (hlo : pos < j)
    (hhi : j < pos + 4) : ¬ DelimiterAt boundary body j := by
  rintro ⟨closes, hc⟩
  rw [delimiterLine, occurs_append_needle] at hc
  have hcr : body[j]? = some 13 := by
    obtain ⟨t, ht⟩ := hc.1
    have h0 := congrArg (·[0]?) ht
    simpa [delimiterPrefix, List.getElem?_drop] using h0.symm
  have hother : body[j]? = delimiterPrefix[j - pos]? := by
    obtain ⟨t, ht⟩ := hp
    have h0 := congrArg (·[j - pos]?) ht
    simp only [List.getElem?_drop] at h0
    rw [show pos + (j - pos) = j by omega] at h0
    rw [← h0, List.getElem?_append_left (by simp [delimiterPrefix]; omega)]
  obtain h | h | h : j - pos = 1 ∨ j - pos = 2 ∨ j - pos = 3 := by omega
  all_goals
    rw [hcr, h] at hother
    simp [delimiterPrefix] at hother

theorem findDelimiterWithin_first (body boundary : Bytes) (fuel searchFrom : ℕ)
    (hf : body.length < searchFrom + fuel) :
    First (DelimiterAt boundary body) searchFrom
      (findDelimiterWithin body boundary fuel searchFrom) := by
  induction fuel generalizing searchFrom with
  | zero =>
    intro j hj hd
    have hl := hd.end_le
    omega
  | succ fuel ih =>
    have hfirst := findBytes_first body delimiterPrefix (by simp [delimiterPrefix]) searchFrom
    have hpre : ∀ j, DelimiterAt boundary body j → Occurs delimiterPrefix body j := by
      rintro j ⟨closes, hc⟩
      exact (occurs_append_needle.mp hc).1
    rw [findDelimiterWithin]
    cases hb : findBytes body delimiterPrefix searchFrom with
    | none =>
      rw [hb] at hfirst
      exact fun j hj hd => hfirst j hj (hpre j hd)
    | some pos =>
      rw [hb] at hfirst
      have hconf := delimiterAt_iff_confirmed hfirst.holds boundary
      simp only
      split
      case h_1 closes hm hs =>
        refine first_some hfirst.start_le (hconf.mpr ⟨beq_iff_eq.mp hm, closes, hs⟩) ?_
        exact fun j hj hlt hd => hfirst.before hj hlt (hpre j hd)
      case h_2 hno =>
        have hpos : ¬ DelimiterAt boundary body pos := by
          intro hd
          obtain ⟨hm, closes, hs⟩ := hconf.mp hd
          exact hno closes (beq_iff_eq.mpr hm) hs
        refine (ih (pos + 4) (by have := hfirst.start_le; omega)).skip
          (by have := hfirst.start_le; omega) fun j hj hlt => ?_
        -- the skipped offsets: before the prefix, at it, and inside it
        rcases Nat.lt_trichotomy j pos with h | rfl | h
        · exact fun hd => hfirst.before hj h (hpre j hd)
        · exact hpos
        · exact not_delimiterAt_inside_prefix hfirst.holds h hlt

theorem findDelimiter_first (body boundary : Bytes) (start : ℕ) :
    First (DelimiterAt boundary body) start (findDelimiter body boundary start) :=
  findDelimiterWithin_first body boundary _ start (by omega)

theorem first_occurs_append {needle : Bytes} (hn : needle ≠ []) {i : ℕ}
    (h : First (Occurs needle xs) 0 (some i)) (ys : Bytes) :
    First (Occurs needle (xs ++ ys)) 0 (some i) := by
  have hle := Occurs.end_le h.holds hn
  refine first_some (Nat.zero_le i) (occurs_append_of_occurs ys h.holds) fun j hj hlt hocc => ?_
  exact h.before hj hlt ((occurs_append_left (by omega)).mp hocc)

theorem first_delimiter_append {i : ℕ} (h : First (DelimiterAt boundary xs) 0 (some i)) (ys : Bytes) :
    First (DelimiterAt boundary (xs ++ ys)) 0 (some i) := by
  have hle := h.holds.end_le
  refine first_some (Nat.zero_le i) (h.holds.append ys) fun j hj hlt hd => ?_
  exact h.before hj hlt ((delimiterAt_append_left (by omega)).mp hd)

theorem getRange_append {start stop : ℕ} (h : stop ≤ xs.length) :
    getRange (xs ++ ys) start stop = getRange xs start stop := by
  rw [getRange, getRange]
  by_cases hs : start ≤ stop
  · rw [if_pos ⟨hs, by rw [List.length_append]; omega⟩, if_pos ⟨hs, h⟩,
      List.drop_append_of_le_length (by omega),
      List.take_append_of_le_length (by rw [List.length_drop]; omega)]
  · rw [if_neg fun hc => hs hc.1, if_neg fun hc => hs hc.1]

theorem delimiterClosesAt_append {at_ : ℕ} (h : at_ + 2 ≤ xs.length) :
    delimiterClosesAt (xs ++ ys) at_ = delimiterClosesAt xs at_ := by
  have h' : at_ + delimiterSuffixBytes ≤ xs.length := h
  rw [delimiterClosesAt, delimiterClosesAt, getRange_append h']

theorem opensBody_append (h : 2 + boundary.length ≤ xs.length) :
    opensBody (xs ++ ys) boundary = opensBody xs boundary := by
  have hp : ∀ {needle zs : Bytes}, needle.length ≤ zs.length →
      needle.isPrefixOf (zs ++ ys) = needle.isPrefixOf zs := by
    intro needle zs hl
    rw [Bool.eq_iff_iff, List.isPrefixOf_iff_prefix, List.isPrefixOf_iff_prefix]
    exact ⟨fun hpre => List.prefix_of_prefix_length_le hpre (List.prefix_append _ _) hl,
      fun hpre => hpre.trans (List.prefix_append _ _)⟩
  have h2 : bodyPrefix.length = 2 := rfl
  rw [opensBody, opensBody, hp (by omega), List.drop_append_of_le_length (by omega),
    hp (by rw [List.length_drop]; omega)]

def openingLine (boundary : Bytes) (closes : Bool) : Bytes :=
  bodyPrefix ++ (boundary ++ if closes then [45, 45] else [13, 10])

@[simp] theorem openingLine_length (boundary : Bytes) (closes : Bool) :
    (openingLine boundary closes).length = boundary.length + 4 := by
  cases closes <;> simp [openingLine, bodyPrefix]

theorem opens_iff_openingLine {w : Bytes} :
    opensBody w boundary = true ∧ delimiterClosesAt w (2 + boundary.length) = .ok closes ↔
      openingLine boundary closes <+: w := by
  have h2 : bodyPrefix.length = 2 := rfl
  have hline : openingLine boundary closes <+: w ↔
      Occurs (bodyPrefix ++ (boundary ++ if closes then [45, 45] else [13, 10])) w 0 := Iff.rfl
  rw [hline, occurs_append_needle, occurs_append_needle, delimiterClosesAt_eq_ok, opensBody,
    Bool.and_eq_true, List.isPrefixOf_iff_prefix, List.isPrefixOf_iff_prefix, Nat.zero_add, h2,
    and_assoc]
  rfl

theorem delimiterClosesAt_delimiter {w : Bytes} (h : DelimiterAt boundary w pos) :
    delimiterClosesAt w (pos + 4 + boundary.length) =
      .ok (decide (Occurs (delimiterLine boundary true) w pos)) := by
  have hline : ∀ closes, Occurs (delimiterLine boundary closes) w pos →
      Occurs (if closes then [45, 45] else [13, 10]) w (pos + 4 + boundary.length) := by
    intro closes hc
    rw [delimiterLine, occurs_append_needle, occurs_append_needle] at hc
    exact hc.2.2
  rw [delimiterClosesAt_eq_ok]
  by_cases ht : Occurs (delimiterLine boundary true) w pos
  · simpa [ht] using hline true ht
  · obtain ⟨closes, hc⟩ := h
    cases closes with
    | true => exact absurd hc ht
    | false => simpa [ht] using hline false hc

end Camber.Multipart
