import Mathlib.Data.List.DropRight
import Mathlib.Data.List.TakeWhile
import Camber.Lib.Primitive

/-! A segment is a slice of the path and keeps its position, from which a wildcard's span is read.
-/

namespace Camber.Routing

open Str

structure Slice where
  start : ℕ
  text : Text

def splitSlices (start : ℕ) : Text → List Slice
  | [] => [⟨start, []⟩]
  | c :: rest =>
    if c = '/' then ⟨start, []⟩ :: splitSlices (start + 1) rest
    else
      match splitSlices (start + 1) rest with
      | [] => [⟨start, [c]⟩]
      | piece :: pieces => ⟨start, c :: piece.text⟩ :: pieces

def slicesFrom (start : ℕ) (text : Text) : List Slice :=
  (splitSlices start text).filter fun piece => !piece.text.isEmpty

def pathSegmentLimit : ℕ := 32

def pushSegments (segments : List Slice) : List Slice → Option (List Slice)
  | [] => some segments
  | segment :: rest =>
    if segments.length < pathSegmentLimit then pushSegments (segments ++ [segment]) rest
    else none

def splitPathSegments (path : Text) : Option (List Slice) := pushSegments [] (slicesFrom 0 path)

def wildcardSpan (path : Text) (segments : List Slice) : Text :=
  match segments.head?, segments.getLast? with
  | some first, some last =>
    (path.drop first.start).take (last.start + last.text.length - first.start)
  | _, _ => []

/-- The non-empty segments of a path, as texts. -/
def pathTexts (path : Text) : List Text := (slicesFrom 0 path).map Slice.text

/-- What is left of a path after its first `k` segments. -/
def skipSegments : ℕ → Text → Text
  | 0, path => path
  | k + 1, path => skipSegments k ((path.dropWhile (· = '/')).dropWhile (· ≠ '/'))

def trimSlashes (text : Text) : Text := text.rdropWhile (· = '/')

/-- The part of a path that follows its first `k` segments, without the slashes around it. -/
def spanFrom (k : ℕ) (path : Text) : Text :=
  trimSlashes ((skipSegments k path).dropWhile (· = '/'))

theorem pushSegments_eq (pushed rest : List Slice) :
    pushSegments pushed rest =
      if pushed.length + rest.length ≤ pathSegmentLimit ∨ rest = [] then some (pushed ++ rest)
      else none := by
  induction rest generalizing pushed with
  | nil => simp [pushSegments]
  | cons segment rest ih =>
    rw [pushSegments]
    split_ifs with hroom hall hall
    · rw [ih, if_pos]
      · simp
      · left
        simpa [Nat.add_assoc, Nat.add_comm 1] using hall.resolve_right (by simp)
    · rw [ih, if_neg]
      simp only [List.length_append, List.length_cons, List.length_nil] at hall ⊢
      rintro (hlen | rfl)
      · exact hall (.inl (by omega))
      · exact hall (.inl (by simp; omega))
    · have := hall.resolve_right (by simp)
      simp only [List.length_cons] at this
      omega
    · rfl

theorem splitPathSegments_eq_some {path : Text} {segments : List Slice} :
    splitPathSegments path = some segments ↔
      (pathTexts path).length ≤ pathSegmentLimit ∧ segments = slicesFrom 0 path := by
  rw [splitPathSegments, pushSegments_eq, pathTexts, List.length_map]
  split_ifs with h
  · have hlen : (slicesFrom 0 path).length ≤ pathSegmentLimit := by
      rcases h with h | h
      · simpa using h
      · simp [h]
    simp [hlen, eq_comm]
  · have hlen : ¬ (slicesFrom 0 path).length ≤ pathSegmentLimit := fun hle => h (.inl (by simpa))
    simp [hlen]

def Cut (rest : Text) : Prop := rest.head?.all (· = '/')

variable {word rest : Text}

theorem splitSlices_word (hword : ∀ c ∈ word, c ≠ '/') (start : ℕ) (rest : Text) :
    splitSlices start (word ++ '/' :: rest) =
      ⟨start, word⟩ :: splitSlices (start + word.length + 1) rest := by
  induction word generalizing start with
  | nil => simp [splitSlices]
  | cons c word ih =>
    have hc : c ≠ '/' := hword c (by simp)
    rw [List.cons_append, splitSlices, if_neg hc, ih (fun d hd => hword d (by simp [hd]))]
    simp [Nat.add_assoc, Nat.add_comm 1]

theorem splitSlices_last (hword : ∀ c ∈ word, c ≠ '/') (start : ℕ) :
    splitSlices start word = [⟨start, word⟩] := by
  induction word generalizing start with
  | nil => rfl
  | cons c word ih =>
    have hc : c ≠ '/' := hword c (by simp)
    rw [splitSlices, if_neg hc, ih (fun d hd => hword d (by simp [hd]))]

@[simp] theorem slicesFrom_nil (start : ℕ) : slicesFrom start [] = [] := rfl

@[simp] theorem slicesFrom_slash (start : ℕ) (rest : Text) :
    slicesFrom start ('/' :: rest) = slicesFrom (start + 1) rest := by
  simp [slicesFrom, splitSlices]

theorem slicesFrom_word (hne : word ≠ []) (hword : ∀ c ∈ word, c ≠ '/') (hrest : Cut rest)
    (start : ℕ) :
    slicesFrom start (word ++ rest) =
      ⟨start, word⟩ :: slicesFrom (start + word.length) rest := by
  cases rest with
  | nil => simp [slicesFrom, splitSlices, splitSlices_last hword, hne]
  | cons c rest =>
    have hc : c = '/' := by simpa [Cut] using hrest
    subst hc
    rw [slicesFrom_slash]
    simp [slicesFrom, splitSlices_word hword, hne]

theorem text_induction {P : Text → Prop} (nil : P []) (slash : ∀ rest, P rest → P ('/' :: rest))
    (word : ∀ word rest, word ≠ [] → (∀ c ∈ word, c ≠ '/') → Cut rest → P rest →
      P (word ++ rest)) (text : Text) : P text := by
  induction hn : text.length using Nat.strong_induction_on generalizing text with
  | _ n ih =>
    cases text with
    | nil => exact nil
    | cons c rest =>
      by_cases hc : c = '/'
      · subst hc
        exact slash rest (ih rest.length (by simp at hn; omega) rest rfl)
      · -- the word is the longest piece of the text without a slash
        set word' := (c :: rest).takeWhile (· ≠ '/') with hword'
        set rest' := (c :: rest).dropWhile (· ≠ '/') with hrest'
        have hsplit : word' ++ rest' = c :: rest := List.takeWhile_append_dropWhile
        have hne : word' ≠ [] := by simp [hword', hc]
        have hlen := congrArg List.length hsplit
        have hpos : 0 < word'.length := List.length_pos_iff.mpr hne
        rw [List.length_append] at hlen
        rw [← hsplit]
        refine word word' rest' hne (fun d hd => ?_) ?_ (ih rest'.length (by omega) rest' rfl)
        · simpa using List.mem_takeWhile_imp hd
        · rw [Cut]
          cases hr : rest' with
          | nil => rfl
          | cons d tail =>
            have hd := List.head?_dropWhile_not (fun d => decide (d ≠ '/')) (c :: rest)
            rw [← hrest', hr] at hd
            simpa using hd

theorem slicesFrom_texts (start : ℕ) (text : Text) :
    (slicesFrom start text).map Slice.text = pathTexts text := by
  rw [pathTexts]
  generalize 0 = start'
  induction text using text_induction generalizing start start' with
  | nil => rfl
  | slash rest ih =>
    rw [slicesFrom_slash, slicesFrom_slash]
    exact ih _ _
  | word word rest hne hword hrest ih =>
    rw [slicesFrom_word hne hword hrest, slicesFrom_word hne hword hrest]
    exact congrArg (word :: ·) (ih _ _)

@[simp] theorem pathTexts_slash (rest : Text) : pathTexts ('/' :: rest) = pathTexts rest := by
  rw [pathTexts, slicesFrom_slash, slicesFrom_texts]

theorem pathTexts_word (hne : word ≠ []) (hword : ∀ c ∈ word, c ≠ '/') (hrest : Cut rest) :
    pathTexts (word ++ rest) = word :: pathTexts rest := by
  rw [pathTexts, slicesFrom_word hne hword hrest, List.map_cons, slicesFrom_texts]

theorem pathTexts_append (text : Text) (hrest : Cut rest) :
    pathTexts (text ++ rest) = pathTexts text ++ pathTexts rest := by
  induction text using text_induction with
  | nil => rfl
  | slash text ih => simpa using ih
  | word word text hne hword htext ih =>
    have hcut : Cut (text ++ rest) := by
      cases text with
      | nil => exact hrest
      | cons c text => exact htext
    rw [List.append_assoc, pathTexts_word hne hword hcut, pathTexts_word hne hword htext, ih]
    rfl

theorem trimSlashes_cons (c : Char) (text : Text) :
    trimSlashes (c :: text) =
      if trimSlashes text = [] then (if c = '/' then [] else [c]) else c :: trimSlashes text := by
  simp only [trimSlashes, List.rdropWhile, List.reverse_cons, List.dropWhile_append,
    List.reverse_eq_nil_iff, List.isEmpty_iff]
  split_ifs <;> simp_all

theorem trimSlashes_isPrefix (text : Text) : trimSlashes text <+: text :=
  List.rdropWhile_prefix _ text

theorem trimSlashes_word (hword : ∀ c ∈ word, c ≠ '/') (rest : Text) :
    trimSlashes (word ++ rest) = word ++ trimSlashes rest := by
  induction word with
  | nil => rfl
  | cons c word ih =>
    rw [List.cons_append, trimSlashes_cons, ih (fun d hd => hword d (by simp [hd])),
      if_neg (hword c (by simp))]
    split_ifs with h
    · simp [h]
    · rfl

theorem slicesFrom_eq_nil_iff (start : ℕ) (text : Text) :
    slicesFrom start text = [] ↔ trimSlashes text = [] := by
  induction text using text_induction generalizing start with
  | nil => simp [trimSlashes]
  | slash rest ih => simp [trimSlashes_cons, ih]
  | word word rest hne hword hrest ih =>
    simp [slicesFrom_word hne hword hrest, trimSlashes_word hword, hne]

theorem slicesFrom_getLast? {start : ℕ} {text : Text} {last : Slice}
    (hlast : (slicesFrom start text).getLast? = some last) :
    last.start + last.text.length = start + (trimSlashes text).length := by
  induction text using text_induction generalizing start with
  | nil => simp at hlast
  | slash rest ih =>
    rw [slicesFrom_slash] at hlast
    have hne : trimSlashes rest ≠ [] := by
      intro h
      rw [(slicesFrom_eq_nil_iff _ _).mpr h] at hlast
      simp at hlast
    rw [ih hlast, trimSlashes_cons, if_neg hne, List.length_cons]
    omega
  | word word rest hne hword hrest ih =>
    rw [slicesFrom_word hne hword hrest, List.getLast?_cons] at hlast
    rw [trimSlashes_word hword, List.length_append]
    cases hrec : (slicesFrom (start + word.length) rest).getLast? with
    | none =>
      have hnil : trimSlashes rest = [] := by
        rw [← slicesFrom_eq_nil_iff (start + word.length)]
        exact List.getLast?_eq_none_iff.mp hrec
      rw [hrec] at hlast
      cases hlast
      simp [hnil]
    | some l =>
      rw [hrec] at hlast
      cases hlast
      rw [ih hrec]
      omega

theorem dropWhile_slash_word (hne : word ≠ []) (hword : ∀ c ∈ word, c ≠ '/') (rest : Text) :
    (word ++ rest).dropWhile (· = '/') = word ++ rest := by
  cases word with
  | nil => exact absurd rfl hne
  | cons c word => simp [hword c (by simp)]

theorem wildcardSpan_slicesFrom (before text : Text) (hne : slicesFrom before.length text ≠ []) :
    wildcardSpan (before ++ text) (slicesFrom before.length text) =
      trimSlashes (text.dropWhile (· = '/')) := by
  induction text using text_induction generalizing before with
  | nil => simp at hne
  | slash rest ih =>
    rw [slicesFrom_slash] at hne ⊢
    have h := ih (before ++ ['/']) (by simpa using hne)
    simpa using h
  | word word rest hword_ne hword hrest ih =>
    have hslices := slicesFrom_word hword_ne hword hrest before.length
    obtain ⟨last, hlast⟩ : ∃ last, (slicesFrom before.length (word ++ rest)).getLast? = some last :=
      ⟨_, List.getLast?_eq_some_getLast hne⟩
    have hend := slicesFrom_getLast? hlast
    rw [dropWhile_slash_word hword_ne hword, wildcardSpan, hlast, hslices, List.head?_cons]
    simp only [hend, Nat.add_sub_cancel_left, List.drop_left]
    exact (List.prefix_iff_eq_take.mp (trimSlashes_isPrefix _)).symm

theorem dropWhile_word (hword : ∀ c ∈ word, c ≠ '/') (hrest : Cut rest) :
    (word ++ rest).dropWhile (· ≠ '/') = rest := by
  rw [List.dropWhile_append_of_pos (by simpa using hword)]
  cases rest with
  | nil => rfl
  | cons c rest =>
    have hc : c = '/' := by simpa [Cut] using hrest
    simp [hc]

theorem slicesFrom_tail (before text : Text) :
    ∃ before', before' ++ skipSegments 1 text = before ++ text ∧
      (slicesFrom before.length text).tail = slicesFrom before'.length (skipSegments 1 text) := by
  induction text using text_induction generalizing before with
  | nil => exact ⟨before, rfl, rfl⟩
  | slash rest ih =>
    obtain ⟨before', hsplit, htail⟩ := ih (before ++ ['/'])
    refine ⟨before', ?_, ?_⟩
    · simpa [skipSegments] using hsplit
    · simpa [skipSegments] using htail
  | word word rest hne hword hrest ih =>
    have hskip : skipSegments 1 (word ++ rest) = rest := by
      rw [skipSegments, skipSegments, dropWhile_slash_word hne hword]
      exact dropWhile_word hword hrest
    rw [hskip, slicesFrom_word hne hword hrest]
    exact ⟨before ++ word, by simp, by simp⟩

theorem slicesFrom_drop (k : ℕ) (before text : Text) :
    ∃ before', before' ++ skipSegments k text = before ++ text ∧
      (slicesFrom before.length text).drop k =
        slicesFrom before'.length (skipSegments k text) := by
  induction k generalizing before text with
  | zero => exact ⟨before, rfl, rfl⟩
  | succ k ih =>
    obtain ⟨before₁, hsplit₁, htail⟩ := slicesFrom_tail before text
    obtain ⟨before₂, hsplit₂, hdrop⟩ := ih before₁ (skipSegments 1 text)
    refine ⟨before₂, hsplit₂.trans hsplit₁, ?_⟩
    rw [← List.drop_tail, htail]
    exact hdrop

theorem wildcardSpan_drop (path : Text) (k : ℕ) (hne : (slicesFrom 0 path).drop k ≠ []) :
    wildcardSpan path ((slicesFrom 0 path).drop k) = spanFrom k path := by
  obtain ⟨before, hsplit, hdrop⟩ := slicesFrom_drop k [] path
  rw [List.length_nil] at hdrop
  rw [List.nil_append] at hsplit
  rw [hdrop] at hne ⊢
  have hspan := wildcardSpan_slicesFrom before (skipSegments k path) hne
  rw [hsplit] at hspan
  exact hspan

theorem pathTexts_dropWhile_slash (text : Text) :
    pathTexts (text.dropWhile (· = '/')) = pathTexts text := by
  induction text with
  | nil => rfl
  | cons c text ih =>
    by_cases hc : c = '/'
    · subst hc
      rw [pathTexts_slash, ← ih]
      simp
    · simp [hc]

theorem pathTexts_trimSlashes (text : Text) : pathTexts (trimSlashes text) = pathTexts text := by
  induction text using text_induction with
  | nil => rfl
  | slash rest ih =>
    rw [trimSlashes_cons, if_pos rfl, pathTexts_slash]
    by_cases h : trimSlashes rest = []
    · rw [if_pos h, ← ih, h]
    · rw [if_neg h, pathTexts_slash, ih]
  | word word rest hne hword hrest ih =>
    have hcut : Cut (trimSlashes rest) := by
      obtain ⟨after, hafter⟩ := trimSlashes_isPrefix rest
      rw [← hafter] at hrest
      cases htrim : trimSlashes rest with
      | nil => rfl
      | cons c tail =>
        rw [htrim] at hrest
        exact hrest
    rw [trimSlashes_word hword, pathTexts_word hne hword hcut, pathTexts_word hne hword hrest, ih]

/-- The segments of a span are those that follow the first `k`. -/
theorem pathTexts_spanFrom (k : ℕ) (path : Text) :
    pathTexts (spanFrom k path) = (pathTexts path).drop k := by
  obtain ⟨before, _, hdrop⟩ := slicesFrom_drop k [] path
  rw [spanFrom, pathTexts_trimSlashes, pathTexts_dropWhile_slash, ← slicesFrom_texts before.length,
    ← hdrop, List.length_nil, List.map_drop, slicesFrom_texts]

end Camber.Routing
