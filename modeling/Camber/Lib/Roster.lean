import Mathlib.Data.List.Basic
import Mathlib.Data.List.Nodup
import Mathlib.Tactic

/-! A roster lists every owner a system ever handed something to, in the order it did so. -/

namespace Roster

variable {α : Type*} {roster : List α} {i j : ℕ} {a b : α} {p : α → Bool} {f : α → α}

theorem of_getElem?_modify (h : (roster.modify i f)[j]? = some b) :
    ∃ a, roster[j]? = some a ∧ b = if i = j then f a else a := by
  rw [List.getElem?_modify] at h
  obtain ⟨a, ha, hb⟩ := Option.map_eq_some_iff.mp h
  exact ⟨a, ha, hb.symm⟩

theorem getElem?_modify_self (h : roster[i]? = some a) : (roster.modify i f)[i]? = some (f a) := by
  simp [h]

theorem getElem?_modify_ne (hne : i ≠ j) : (roster.modify i f)[j]? = roster[j]? := by
  rw [List.getElem?_modify]
  simp [hne]

theorem modify_cases (h : roster[i]? = some a) (hb : (roster.modify i f)[j]? = some b) :
    (j = i ∧ b = f a) ∨ (j ≠ i ∧ roster[j]? = some b) := by
  obtain ⟨c, hc, rfl⟩ := of_getElem?_modify hb
  split
  next hij =>
    subst hij
    exact .inl ⟨rfl, congrArg f (Option.some.inj (hc.symm.trans h))⟩
  next hij => exact .inr ⟨Ne.symm hij, hc⟩

theorem modify_same (h : ∀ a, roster[i]? = some a → f a = a) : roster.modify i f = roster := by
  ext1 j
  rw [List.getElem?_modify]
  by_cases hij : i = j
  · subst hij
    cases hi : roster[i]? with
    | none => rfl
    | some a => simp [h a hi]
  · simp [hij]

theorem of_getElem?_join (h : (roster ++ [a])[j]? = some b) :
    roster[j]? = some b ∨ (j = roster.length ∧ b = a) := by
  rw [List.getElem?_append] at h
  split at h
  · exact .inl h
  next hge =>
    right
    obtain ⟨hlt, heq⟩ := List.getElem?_eq_some_iff.mp h
    have hzero : j - roster.length = 0 := by
      simpa using hlt
    refine ⟨by omega, ?_⟩
    simpa [hzero] using h.symm

theorem getElem?_join_of_some (h : roster[j]? = some b) : (roster ++ [a])[j]? = some b := by
  rw [List.getElem?_append_left (List.getElem?_eq_some_iff.mp h).1]
  exact h

theorem getElem?_join_length : (roster ++ [a])[roster.length]? = some a := by simp

theorem countP_join : (roster ++ [a]).countP p = roster.countP p + if p a then 1 else 0 := by
  rw [List.countP_append, List.countP_singleton]

theorem countP_modify (h : roster[i]? = some a) :
    (roster.modify i f).countP p + (if p a then 1 else 0) =
      roster.countP p + if p (f a) then 1 else 0 := by
  induction roster generalizing i with
  | nil => simp at h
  | cons head rest ih =>
    cases i with
    | zero =>
      obtain rfl : head = a := by simpa using h
      simp only [List.modify_zero_cons, List.countP_cons]
      omega
    | succ i =>
      have hrest := ih (i := i) (by simpa using h)
      simp only [List.modify_succ_cons, List.countP_cons]
      omega

theorem countP_modify_same (h : ∀ a, roster[i]? = some a → p (f a) = p a) :
    (roster.modify i f).countP p = roster.countP p := by
  cases hi : roster[i]? with
  | none =>
    rw [List.getElem?_eq_none_iff] at hi
    rw [List.modify_eq_self hi]
  | some a =>
    have hcount := countP_modify (p := p) (f := f) hi
    rw [h a hi] at hcount
    omega

theorem countP_modify_leave (h : roster[i]? = some a) (ha : p a = true) (hf : p (f a) = false) :
    (roster.modify i f).countP p + 1 = roster.countP p := by
  have hcount := countP_modify (p := p) (f := f) h
  simpa [ha, hf] using hcount

theorem countP_pos_of_getElem? (h : roster[i]? = some a) (ha : p a = true) :
    0 < roster.countP p :=
  List.countP_pos_iff.mpr ⟨a, List.mem_of_getElem? h, ha⟩

theorem flatMap_modify {β : Type*} {g : α → List β} (h : roster[i]? = some a) :
    ((roster.modify i f).flatMap g ++ g a).Perm (roster.flatMap g ++ g (f a)) := by
  induction roster generalizing i with
  | nil => simp at h
  | cons head rest ih =>
    cases i with
    | zero =>
      obtain rfl : head = a := by simpa using h
      simp only [List.modify_zero_cons, List.flatMap_cons]
      have hswap : (g (f head) ++ (rest.flatMap g ++ g head)).Perm
          ((rest.flatMap g ++ g head) ++ g (f head)) := List.perm_append_comm
      have hfront : ((rest.flatMap g ++ g head) ++ g (f head)).Perm
          ((g head ++ rest.flatMap g) ++ g (f head)) :=
        List.Perm.append_right _ List.perm_append_comm
      rw [List.append_assoc]
      exact hswap.trans hfront
    | succ i =>
      have hrest := ih (i := i) (by simpa using h)
      simp only [List.modify_succ_cons, List.flatMap_cons, List.append_assoc]
      exact hrest.append_left _

theorem flatMap_modify_same {β : Type*} {g : α → List β}
    (h : ∀ a, roster[i]? = some a → g (f a) = g a) :
    (roster.modify i f).flatMap g = roster.flatMap g := by
  induction roster generalizing i with
  | nil => simp
  | cons head rest ih =>
    cases i with
    | zero =>
      rw [List.modify_zero_cons, List.flatMap_cons, List.flatMap_cons, h head rfl]
    | succ i =>
      rw [List.modify_succ_cons, List.flatMap_cons, List.flatMap_cons]
      rw [ih fun a ha => h a (by simpa using ha)]

end Roster

/-! A value is pushed at the end unless it is there already, so the values stand in the order they
first came. -/

namespace List

variable {α : Type*} [DecidableEq α]

def pushNew (kept : List α) (value : α) : List α :=
  if kept.contains value then kept else kept ++ [value]

/-- The values of a sequence, each once. -/
def distinct (values : List α) : List α := values.foldl pushNew []

variable {kept values : List α} {x : α}

@[simp] theorem mem_pushNew {value : α} : x ∈ kept.pushNew value ↔ x ∈ kept ∨ x = value := by
  rw [pushNew]
  split_ifs with h
  · have hmem : value ∈ kept := List.contains_iff_mem.mp h
    refine ⟨Or.inl, ?_⟩
    rintro (hx | rfl)
    · exact hx
    · exact hmem
  · rw [mem_append, mem_singleton]

theorem Nodup.pushNew (h : kept.Nodup) (value : α) : (kept.pushNew value).Nodup := by
  rw [List.pushNew]
  split_ifs with hmem
  · exact h
  · have hnew : value ∉ kept := fun hin => hmem (List.contains_iff_mem.mpr hin)
    refine h.append (nodup_singleton value) ?_
    rw [disjoint_singleton]
    exact hnew

theorem mem_foldl_pushNew : x ∈ values.foldl List.pushNew kept ↔ x ∈ kept ∨ x ∈ values := by
  induction values generalizing kept with
  | nil => simp
  | cons value values ih => rw [foldl_cons, ih, mem_pushNew, mem_cons, or_assoc]

theorem Nodup.foldl_pushNew (h : kept.Nodup) : (values.foldl List.pushNew kept).Nodup := by
  induction values generalizing kept with
  | nil => exact h
  | cons value values ih => exact ih (h.pushNew value)

@[simp] theorem mem_distinct : x ∈ values.distinct ↔ x ∈ values := by
  rw [distinct, mem_foldl_pushNew, or_iff_right not_mem_nil]

theorem nodup_distinct (values : List α) : values.distinct.Nodup := nodup_nil.foldl_pushNew

end List
