import Mathlib.Data.List.Lex
import Mathlib.Tactic

/-! The entry interface of an ordered map, and the lookup a sorted slice of the same entries
answers. -/

namespace SortedMap

variable {K V : Type*} [LinearOrder K]

/-- The keys are strictly increasing. -/
def StrictKeys (m : List (K × V)) : Prop := m.Pairwise fun a b => a.1 < b.1

/-- Update the value under `key`, inserting `default` first when there is none. -/
def entry (key : K) (default : V) (update : V → V) : List (K × V) → List (K × V)
  | [] => [(key, update default)]
  | (k, v) :: m =>
    if key < k then (key, update default) :: (k, v) :: m
    else if key = k then (k, update v) :: m
    else (k, v) :: entry key default update m

section Lookup

variable [BEq K] [LawfulBEq K]

omit [LinearOrder K] in
theorem lookup_cons_ne {probe k : K} (h : probe ≠ k) (v : V) (m : List (K × V)) :
    ((k, v) :: m).lookup probe = m.lookup probe := by
  rw [List.lookup_cons, beq_eq_false_iff_ne.mpr h]

theorem lookup_eq_none_of_lt {key : K} {m : List (K × V)} (h : ∀ e ∈ m, key < e.1) :
    m.lookup key = none := by
  rw [List.lookup_eq_none_iff]
  intro e he
  exact bne_iff_ne.mpr (ne_of_lt (h e he))

theorem lookup_entry {m : List (K × V)} (hm : StrictKeys m) (key : K) (default : V)
    (update : V → V) (probe : K) :
    (entry key default update m).lookup probe =
      if probe = key then some (update ((m.lookup key).getD default)) else m.lookup probe := by
  induction m with
  | nil =>
    by_cases hp : probe = key
    · simp [entry, hp]
    · simp [entry, hp, lookup_cons_ne hp]
  | cons e m ih =>
    obtain ⟨k, v⟩ := e
    obtain ⟨hk, hm⟩ := List.pairwise_cons.mp hm
    rw [entry]
    rcases lt_trichotomy key k with hlt | rfl | hgt
    · -- the key is new, and every key already there is larger
      have hnone : ((k, v) :: m).lookup key = none := by
        refine lookup_eq_none_of_lt fun e he => ?_
        rcases List.mem_cons.mp he with rfl | he
        · exact hlt
        · exact hlt.trans (hk e he)
      rw [if_pos hlt, hnone]
      by_cases hp : probe = key
      · simp [hp]
      · rw [lookup_cons_ne hp, if_neg hp]
    · rw [if_neg (lt_irrefl key), if_pos rfl]
      by_cases hp : probe = key
      · simp [hp]
      · rw [lookup_cons_ne hp, lookup_cons_ne hp, if_neg hp]
    · rw [if_neg hgt.not_gt, if_neg hgt.ne', lookup_cons_ne hgt.ne']
      by_cases hp : probe = k
      · subst hp
        rw [if_neg hgt.ne]
        simp
      · rw [lookup_cons_ne hp, lookup_cons_ne hp]
        exact ih hm

end Lookup

variable {key : K} {m : List (K × V)}

theorem mem_entry_key {default : V} {update : V → V} {e : K × V}
    (he : e ∈ entry key default update m) : e.1 = key ∨ ∃ v, (e.1, v) ∈ m := by
  induction m with
  | nil =>
    left
    simp only [entry, List.mem_singleton] at he
    rw [he]
  | cons head m ih =>
    obtain ⟨k, v⟩ := head
    rw [entry] at he
    split_ifs at he with hlt heq
    · rcases List.mem_cons.mp he with rfl | he
      · exact .inl rfl
      · exact .inr ⟨e.2, he⟩
    · rcases List.mem_cons.mp he with rfl | he
      · exact .inr ⟨v, by simp⟩
      · exact .inr ⟨e.2, by simp [he]⟩
    · rcases List.mem_cons.mp he with rfl | he
      · exact .inr ⟨v, by simp⟩
      · rcases ih he with h | ⟨w, hw⟩
        · exact .inl h
        · exact .inr ⟨w, by simp [hw]⟩

theorem strictKeys_entry (hm : StrictKeys m) (key : K) (default : V) (update : V → V) :
    StrictKeys (entry key default update m) := by
  induction m with
  | nil => exact List.pairwise_singleton _ _
  | cons e m ih =>
    obtain ⟨k, v⟩ := e
    have hcons := List.pairwise_cons.mp hm
    rw [entry]
    rcases lt_trichotomy key k with hlt | rfl | hgt
    · rw [if_pos hlt]
      refine List.pairwise_cons.mpr ⟨fun e he => ?_, hm⟩
      rcases List.mem_cons.mp he with rfl | he
      · exact hlt
      · exact hlt.trans (hcons.1 e he)
    · rw [if_neg (lt_irrefl key), if_pos rfl]
      exact List.pairwise_cons.mpr ⟨hcons.1, hcons.2⟩
    · rw [if_neg hgt.not_gt, if_neg hgt.ne']
      refine List.pairwise_cons.mpr ⟨fun e he => ?_, ih hcons.2⟩
      rcases mem_entry_key he with h | ⟨w, hw⟩
      · exact h ▸ hgt
      · exact hcons.1 (e.1, w) hw

def remove (key : K) (m : List (K × V)) : List (K × V) := m.filter fun e => e.1 ≠ key

theorem strictKeys_remove (hm : StrictKeys m) (key : K) : StrictKeys (remove key m) :=
  hm.filter _

theorem mem_remove {e : K × V} : e ∈ remove key m ↔ e ∈ m ∧ e.1 ≠ key := by
  rw [remove, List.mem_filter, decide_eq_true_eq]

theorem length_remove (hm : StrictKeys m) {v : V} (hmem : (key, v) ∈ m) :
    (remove key m).length + 1 = m.length := by
  induction m with
  | nil => cases hmem
  | cons e m ih =>
    obtain ⟨hlt, hm⟩ := List.pairwise_cons.mp hm
    rcases List.mem_cons.mp hmem with rfl | hmem
    · have hsame : remove key m = m := by
        refine List.filter_eq_self.mpr fun e he => ?_
        exact decide_eq_true (hlt e he).ne'
      rw [remove, List.filter_cons_of_neg (by simp)]
      rw [show m.filter _ = remove key m from rfl, hsame]
      rfl
    · have hne : e.1 ≠ key := (hlt _ hmem).ne
      rw [remove, List.filter_cons_of_pos (by simpa using hne)]
      rw [show m.filter _ = remove key m from rfl, List.length_cons, ih hm hmem]
      rfl

theorem entry_of_gt (h : ∀ e ∈ m, e.1 < key) (default : V) (update : V → V) :
    entry key default update m = m ++ [(key, update default)] := by
  induction m with
  | nil => rfl
  | cons e m ih =>
    have hlt : e.1 < key := h e (List.mem_cons_self ..)
    rw [entry, if_neg hlt.not_gt, if_neg hlt.ne', ih fun e' he' => h e' (List.mem_cons_of_mem e he')]
    rfl

theorem lookup_remove [BEq K] [LawfulBEq K] (m : List (K × V)) (key probe : K) :
    (remove key m).lookup probe = if probe = key then none else m.lookup probe := by
  induction m with
  | nil => simp [remove]
  | cons e m ih =>
    obtain ⟨k, v⟩ := e
    by_cases hk : k = key
    · have hdrop : remove key ((k, v) :: m) = remove key m := by simp [remove, hk]
      rw [hdrop, ih]
      by_cases hp : probe = key
      · simp [hp]
      · rw [if_neg hp, if_neg hp, lookup_cons_ne (hk ▸ hp)]
    · have hkeep : remove key ((k, v) :: m) = (k, v) :: remove key m := by simp [remove, hk]
      rw [hkeep]
      by_cases hp : probe = k
      · subst hp
        simp [hk]
      · rw [lookup_cons_ne hp, lookup_cons_ne hp, ih]

def narrow (m : List (K × V)) (key : K) : ℕ → ℕ → ℕ → ℕ
  | 0, base, _ => base
  | fuel + 1, base, size =>
    if size ≤ 1 then base
    else
      let half := size / 2
      match m[base + half]? with
      | some (k, _) =>
        if key < k then narrow m key fuel base (size - half)
        else narrow m key fuel (base + half) (size - half)
      | none => base

/-- The position of a key in a sorted slice. -/
def binarySearch (m : List (K × V)) (key : K) : Option ℕ :=
  let base := narrow m key m.length 0 m.length
  match m[base]? with
  | some (k, _) => if key = k then some base else none
  | none => none

theorem StrictKeys.lt_of_lt (hm : StrictKeys m) {i j : ℕ} {a b : K × V} (hi : m[i]? = some a)
    (hj : m[j]? = some b) (hij : i < j) : a.1 < b.1 := by
  obtain ⟨hil, rfl⟩ := List.getElem?_eq_some_iff.mp hi
  obtain ⟨hjl, rfl⟩ := List.getElem?_eq_some_iff.mp hj
  exact List.pairwise_iff_getElem.mp hm i j hil hjl hij

theorem narrow_eq (hm : StrictKeys m) {v : V} {i : ℕ} (hi : m[i]? = some (key, v))
    (fuel base size : ℕ) (hfuel : size ≤ fuel) (hlo : base ≤ i) (hhi : i < base + size)
    (hlen : base + size ≤ m.length) : narrow m key fuel base size = i := by
  induction fuel generalizing base size with
  | zero => omega
  | succ fuel ih =>
    rw [narrow]
    split_ifs with hsize
    · omega
    · obtain ⟨⟨k, w⟩, hat⟩ : ∃ e, m[base + size / 2]? = some e :=
        ⟨_, List.getElem?_eq_getElem (by omega)⟩
      simp only [hat]
      split_ifs with hlt
      · -- the key lies strictly before the middle
        have hbefore : i < base + size / 2 := by
          by_contra hge
          rcases Nat.lt_or_eq_of_le (Nat.not_lt.mp hge) with h | h
          · exact absurd (hm.lt_of_lt hat hi h) hlt.not_gt
          · rw [h, hi] at hat
            cases hat
            exact lt_irrefl _ hlt
        exact ih base (size - size / 2) (by omega) hlo (by omega) (by omega)
      · have hafter : base + size / 2 ≤ i := by
          by_contra hbefore
          exact hlt (hm.lt_of_lt hi hat (Nat.not_le.mp hbefore))
        exact ih (base + size / 2) (size - size / 2) (by omega) hafter (by omega) (by omega)

section Lookup

variable [BEq K] [LawfulBEq K]

variable {m : List (K × V)}

theorem StrictKeys.lookup_of_getElem? (hm : StrictKeys m) {i : ℕ} {key : K} {v : V}
    (hi : m[i]? = some (key, v)) : m.lookup key = some v := by
  induction m generalizing i with
  | nil => simp at hi
  | cons e m ih =>
    obtain ⟨k, w⟩ := e
    obtain ⟨hk, hm⟩ := List.pairwise_cons.mp hm
    cases i with
    | zero =>
      simp only [List.getElem?_cons_zero, Option.some.injEq, Prod.mk.injEq] at hi
      simp [hi]
    | succ i =>
      rw [List.getElem?_cons_succ] at hi
      rw [lookup_cons_ne (hk _ (List.mem_of_getElem? hi)).ne']
      exact ih hm hi

theorem getElem?_of_lookup {key : K} {v : V} (h : m.lookup key = some v) :
    ∃ i : ℕ, m[i]? = some (key, v) := by
  induction m with
  | nil => simp at h
  | cons e m ih =>
    obtain ⟨k, w⟩ := e
    by_cases hk : key = k
    · subst hk
      exact ⟨0, by simpa using h⟩
    · rw [lookup_cons_ne hk] at h
      obtain ⟨i, hi⟩ := ih h
      exact ⟨i + 1, hi⟩

theorem binarySearch_lookup (hm : StrictKeys m) (key : K) :
    ((binarySearch m key).bind (m[·]?)).map Prod.snd = m.lookup key := by
  ext v
  rw [Option.map_eq_some_iff]
  constructor
  · rintro ⟨⟨k, w⟩, hfound, rfl⟩
    obtain ⟨i, hi, hat⟩ := Option.bind_eq_some_iff.mp hfound
    -- a position is answered only for an entry that has the key
    have hkey : key = k := by
      rw [binarySearch] at hi
      split at hi
      · split_ifs at hi with heq
        cases hi
        simp_all
      · cases hi
    exact hm.lookup_of_getElem? (hkey ▸ hat)
  · intro h
    obtain ⟨i, hi⟩ := getElem?_of_lookup h
    have hlt : i < m.length := (List.getElem?_eq_some_iff.mp hi).1
    have hbase : narrow m key m.length 0 m.length = i :=
      narrow_eq hm hi m.length 0 m.length le_rfl (Nat.zero_le i) (by omega) (by omega)
    have hsearch : binarySearch m key = some i := by
      simp [binarySearch, hbase, hi]
    exact ⟨(key, v), by rw [hsearch, Option.bind_some, hi], rfl⟩

omit [LinearOrder K] in
theorem lookup_map_snd {W : Type*} (f : V → W) (m : List (K × V)) (key : K) :
    (m.map fun e => (e.1, f e.2)).lookup key = (m.lookup key).map f := by
  induction m with
  | nil => rfl
  | cons e m ih =>
    obtain ⟨k, v⟩ := e
    by_cases hk : key = k
    · subst hk
      simp
    · rw [List.map_cons, lookup_cons_ne hk, lookup_cons_ne hk]
      exact ih

end Lookup

theorem StrictKeys.map_snd {W : Type*} (hm : StrictKeys m) (f : V → W) :
    StrictKeys (m.map fun e => (e.1, f e.2)) :=
  List.pairwise_map.mpr hm

theorem strictKeys_insertionSort (h : (m.map Prod.fst).Nodup) :
    StrictKeys (m.insertionSort fun a b => a.1 ≤ b.1) := by
  have hle : (m.insertionSort fun a b => a.1 ≤ b.1).Pairwise fun a b => a.1 ≤ b.1 := by
    have htotal : Std.Total fun a b : K × V => a.1 ≤ b.1 := ⟨fun a b => le_total a.1 b.1⟩
    have htrans : IsTrans (K × V) fun a b => a.1 ≤ b.1 := ⟨fun _ _ _ => le_trans⟩
    exact List.pairwise_insertionSort _ m
  have hne : (m.insertionSort fun a b => a.1 ≤ b.1).Pairwise fun a b => a.1 ≠ b.1 := by
    have hperm := (List.perm_insertionSort (fun a b : K × V => a.1 ≤ b.1) m).map Prod.fst
    exact List.pairwise_map.mp (hperm.nodup_iff.mpr h)
  exact hle.imp₂ (fun a b hab hab' => lt_of_le_of_ne hab hab') hne

omit [LinearOrder K] in
theorem find?_perm [DecidableEq K] {m m' : List (K × V)} (hperm : m.Perm m')
    (h : (m.map Prod.fst).Nodup) (key : K) :
    m.find? (fun e => e.1 = key) = m'.find? fun e => e.1 = key := by
  have hone : ∀ {l : List (K × V)}, (l.map Prod.fst).Nodup → ∀ {e}, e ∈ l → e.1 = key →
      l.find? (fun e => e.1 = key) = some e := by
    intro l hl e he hkey
    obtain ⟨found, hfound⟩ : ∃ found, l.find? (fun e => e.1 = key) = some found := by
      rw [← Option.isSome_iff_exists, List.find?_isSome]
      exact ⟨e, he, by simpa using hkey⟩
    have hfoundKey : found.1 = key := by simpa using List.find?_some hfound
    rw [hfound]
    apply congrArg some
    exact List.inj_on_of_nodup_map hl (List.mem_of_find?_eq_some hfound) he
      (hfoundKey.trans hkey.symm)
  cases hfind : m'.find? (fun e => e.1 = key) with
  | some e =>
    have hkey : e.1 = key := by simpa using List.find?_some hfind
    exact hone h (hperm.mem_iff.mpr (List.mem_of_find?_eq_some hfind)) hkey
  | none =>
    rw [List.find?_eq_none] at hfind ⊢
    intro e he
    exact hfind e (hperm.mem_iff.mp he)

omit [LinearOrder K] in
theorem lookup_map [BEq K] [LawfulBEq K] [DecidableEq K] {W : Type*} (f : K × V → W) (m : List (K × V)) (key : K) :
    (m.map fun e => (e.1, f e)).lookup key = (m.find? fun e => e.1 = key).map f := by
  induction m with
  | nil => rfl
  | cons e m ih =>
    by_cases hk : key = e.1
    · simp [hk]
    · rw [List.map_cons, lookup_cons_ne hk, ih, List.find?_cons_of_neg (by simpa using Ne.symm hk)]

end SortedMap
