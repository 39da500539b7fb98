import Camber.Lib.Primitive

/-! For the schemes `http` and `https` a backslash separates segments as a slash does, and a dot
segment may spell its dots as `%2e`. -/

namespace Url

open Str

def isSeparator (c : Char) : Bool := c == '/' || c == '\\'

def isPathEnd (c : Char) : Bool := c == '?' || c == '#'

def isSingleDot (piece : Text) : Bool :=
  [".".toList, "%2e".toList].contains (piece.map Char.toLower)

def isDoubleDot (piece : Text) : Bool :=
  ["..".toList, ".%2e".toList, "%2e.".toList, "%2e%2e".toList].contains (piece.map Char.toLower)

def enter (path : List Text) (piece : Text) : List Text :=
  if isDoubleDot piece then path.tail else if isSingleDot piece then path else piece :: path

def resolve (pieces : List Text) : List Text :=
  let reached := pieces.foldl enter []
  if pieces.getLast?.any fun piece => isDoubleDot piece || isSingleDot piece then [] :: reached
  else reached

def pathPieces : Text → List Text
  | [] => [[]]
  | _ :: rest => rest.splitOnP isSeparator

def pathAfterAuthority (text : Text) : List Text :=
  let path := (text.dropWhile fun c => !(isSeparator c || isPathEnd c)).takeWhile (!isPathEnd ·)
  (resolve (pathPieces path)).reverse

inductive Scheme where
  | http
  | https

def Scheme.text : Scheme → Text
  | .http => "http://".toList
  | .https => "https://".toList

def readPath (url : Text) : Option (List Text) :=
  (url.dropPrefix? Scheme.http.text).map pathAfterAuthority <|>
    (url.dropPrefix? Scheme.https.text).map pathAfterAuthority

def Under (base segments : List Text) : Prop := ∃ rest, segments = base ++ rest

theorem readPath_scheme (scheme : Scheme) (rest : Text) :
    readPath (scheme.text ++ rest) = some (pathAfterAuthority rest) := by
  cases scheme with
  | http =>
    have hdrop : (Scheme.http.text ++ rest).dropPrefix? Scheme.http.text = some rest :=
      List.dropPrefix?_eq_some_iff.mpr ⟨_, rfl, by simp⟩
    rw [readPath, hdrop]
    rfl
  | https =>
    have hdrop : (Scheme.https.text ++ rest).dropPrefix? Scheme.https.text = some rest :=
      List.dropPrefix?_eq_some_iff.mpr ⟨_, rfl, by simp⟩
    -- the fifth character tells the schemes apart
    have hother : (Scheme.https.text ++ rest).dropPrefix? Scheme.http.text = none := rfl
    rw [readPath, hother, hdrop]
    rfl

theorem splitOnP_append {word : Text} (hword : ∀ c ∈ word, isSeparator c = false) (text : Text) :
    (word ++ text).splitOnP isSeparator =
      (text.splitOnP isSeparator).modifyHead (word ++ ·) := by
  induction word with
  | nil =>
    obtain ⟨piece, pieces, hsplit⟩ := List.exists_cons_of_ne_nil
      (List.splitOnP_ne_nil isSeparator text)
    rw [List.nil_append, hsplit]
    rfl
  | cons c word ih =>
    have hc := hword c (List.mem_cons_self ..)
    rw [List.cons_append, List.splitOnP_cons_eq_if_modifyHead, hc, if_neg (by decide),
      ih fun x hx => hword x (List.mem_cons_of_mem _ hx), List.modifyHead_modifyHead]
    rfl

theorem length_le_of_mem_splitOnP {text piece : Text} (h : piece ∈ text.splitOnP isSeparator) :
    piece.length ≤ text.length := by
  induction text generalizing piece with
  | nil =>
    rw [List.splitOnP_nil, List.mem_singleton] at h
    rw [h]
  | cons c text ih =>
    rw [List.splitOnP_cons_eq_if_modifyHead] at h
    split_ifs at h with hc
    · rcases List.mem_cons.mp h with rfl | hmem
      · exact Nat.zero_le _
      · exact (ih hmem).trans (Nat.le_succ _)
    · obtain ⟨head, more, hsplit⟩ := List.exists_cons_of_ne_nil
        (List.splitOnP_ne_nil isSeparator text)
      rw [hsplit, List.modifyHead_cons] at h
      rw [hsplit] at ih
      rcases List.mem_cons.mp h with rfl | hmem
      · exact Nat.succ_le_succ (ih (List.mem_cons_self ..))
      · exact (ih (List.mem_cons_of_mem _ hmem)).trans (Nat.le_succ _)

def IsName (piece : Text) : Prop := isDoubleDot piece = false ∧ isSingleDot piece = false

theorem enter_names {names : List Text} (h : ∀ name ∈ names, IsName name) (path : List Text) :
    names.foldl enter path = names.reverse ++ path := by
  induction names generalizing path with
  | nil => rfl
  | cons name names ih =>
    obtain ⟨hdouble, hsingle⟩ := h name (List.mem_cons_self ..)
    have hname : enter path name = name :: path := by
      rw [enter, hdouble, hsingle]
      rfl
    rw [List.foldl_cons, hname, ih fun x hx => h x (List.mem_cons_of_mem _ hx),
      List.reverse_cons, List.append_assoc]
    rfl

def staysBelow : ℕ → List Text → Bool
  | _, [] => true
  | depth, piece :: rest =>
    if isDoubleDot piece then depth != 0 && staysBelow (depth - 1) rest
    else if isSingleDot piece then staysBelow depth rest
    else staysBelow (depth + 1) rest

variable {pieces base : List Text} {last : Text}

theorem enter_of_staysBelow (base below : List Text) (h : staysBelow below.length pieces = true) :
    ∃ reached, pieces.foldl enter (below ++ base) = reached ++ base := by
  induction pieces generalizing below with
  | nil => exact ⟨below, rfl⟩
  | cons piece rest ih =>
    rw [List.foldl_cons, enter]
    rw [staysBelow] at h
    split_ifs at h ⊢ with hdouble hsingle
    · obtain ⟨hdepth, hrest⟩ := Bool.and_eq_true_iff.mp h
      cases below with
      | nil => cases hdepth
      | cons top below => exact ih below hrest
    · exact ih below h
    · exact ih (piece :: below) h

theorem enter_off {path : List Text} (hpath : ∀ reached, path ≠ reached ++ last :: base)
    (hfresh : last ∉ pieces) : ∀ reached, pieces.foldl enter path ≠ reached ++ last :: base := by
  induction pieces generalizing path with
  | nil => exact hpath
  | cons piece rest ih =>
    have hpiece : last ≠ piece := fun heq => hfresh (heq ▸ List.mem_cons_self ..)
    refine ih ?_ fun hmem => hfresh (List.mem_cons_of_mem _ hmem)
    intro reached heq
    rw [enter] at heq
    split_ifs at heq with hdouble hsingle
    · cases path with
      | nil => simp at heq
      | cons top path => exact hpath (top :: reached) (by rw [List.cons_append, ← heq]; rfl)
    · exact hpath reached heq
    · cases reached with
      | nil => exact hpiece (List.cons.inj heq).1.symm
      | cons top reached => exact hpath reached (List.cons.inj heq).2

theorem enter_of_climb (below : List Text) (h : staysBelow below.length pieces = false)
    (hfresh : last ∉ pieces) :
    ∀ reached, pieces.foldl enter (below ++ last :: base) ≠ reached ++ last :: base := by
  induction pieces generalizing below with
  | nil => cases h
  | cons piece rest ih =>
    have hrest : last ∉ rest := fun hmem => hfresh (List.mem_cons_of_mem _ hmem)
    rw [List.foldl_cons, enter]
    rw [staysBelow] at h
    split_ifs at h ⊢ with hdouble hsingle
    · cases below with
      | nil =>
        -- the base itself is left, and its last segment never comes back
        refine enter_off (fun reached heq => ?_) hrest
        have hlength := congrArg List.length heq
        simp at hlength
        omega
      | cons top below =>
        have hbelow : staysBelow below.length rest = false := by simpa using h
        exact ih below hbelow hrest
    · exact ih below h hrest
    · exact ih (piece :: below) h hrest

theorem resolve_eq (pieces : List Text) :
    resolve pieces = pieces.foldl enter [] ∨ resolve pieces = [] :: pieces.foldl enter [] := by
  rw [resolve]
  split_ifs
  · exact .inr rfl
  · exact .inl rfl

theorem resolve_under (hbase : ∀ name ∈ base, IsName name) (h : staysBelow 0 pieces = true) :
    Under base (resolve (base ++ pieces)).reverse := by
  obtain ⟨reached, hreached⟩ := enter_of_staysBelow base.reverse [] h
  have hfold : (base ++ pieces).foldl enter [] = reached ++ base.reverse := by
    rw [List.foldl_append, enter_names hbase, List.append_nil]
    exact hreached
  rcases resolve_eq (base ++ pieces) with heq | heq <;> rw [heq, hfold]
  · exact ⟨reached.reverse, by rw [List.reverse_append, List.reverse_reverse]⟩
  · exact ⟨reached.reverse ++ [[]], by simp⟩

theorem not_under_resolve (hlast : last ≠ [])
    (h : ∀ reached, pieces.foldl enter [] ≠ reached ++ last :: base.reverse) :
    ¬Under (base ++ [last]) (resolve pieces).reverse := by
  rintro ⟨rest, hrest⟩
  have hpath : resolve pieces = rest.reverse ++ last :: base.reverse := by
    rw [← List.reverse_reverse (resolve pieces), hrest]
    simp
  rcases resolve_eq pieces with heq | heq
  · exact h rest.reverse (heq.symm.trans hpath)
  · rw [heq] at hpath
    cases hrev : rest.reverse with
    | nil =>
      rw [hrev] at hpath
      exact hlast (List.cons.inj hpath).1.symm
    | cons top reached =>
      rw [hrev] at hpath
      exact h reached (List.cons.inj hpath).2

end Url
