import Camber.Lib.Primitive

/-! `checkedBodyFrameTotal` is the one comparison every payload owner makes. -/

namespace Camber.Inbound
open Str

/-- The byte maximum a refusal names. -/
inductive ByteBoundary where
  | requestBody
  | transferUpload
  | transferDownload
deriving DecidableEq

/-- The deadline a refusal names. -/
inductive DeadlineBoundary where
  | transferIdle
  | transferTotal
deriving DecidableEq

inductive Rejected where
  | bodyTooLarge (limit : ℕ)
  | bodyUnreadable (error : Text)
  | bodyTimeout (idle : ℕ)
  | requestTimeout (total : ℕ)
  | transferTooLarge (boundary : ByteBoundary) (limit : ℕ)
  | transferTimeout (boundary : DeadlineBoundary) (configured : ℕ)
  | transferSourceFailed (account : Text)
deriving DecidableEq

def checkedBodyFrameTotal (observed frameLen limit : ℕ) : Option ℕ :=
  (Usize.checkedAdd observed frameLen).filter fun total => total ≤ limit

theorem checkedBodyFrameTotal_eq_some {observed frameLen limit total : ℕ} :
    checkedBodyFrameTotal observed frameLen limit = some total ↔
      observed + frameLen = total ∧ total ≤ Usize.max ∧ total ≤ limit := by
  rw [checkedBodyFrameTotal, Option.filter_eq_some_iff, Usize.checkedAdd_eq_some,
    decide_eq_true_eq]
  constructor
  · rintro ⟨⟨hmax, rfl⟩, hlimit⟩
    exact ⟨rfl, hmax, hlimit⟩
  · rintro ⟨rfl, hmax, hlimit⟩
    exact ⟨⟨hmax, rfl⟩, hlimit⟩

theorem checkedBodyFrameTotal_eq_none {observed frameLen limit : ℕ} :
    checkedBodyFrameTotal observed frameLen limit = none ↔
      min limit Usize.max < observed + frameLen := by
  rw [Option.eq_none_iff_forall_ne_some]
  simp only [ne_eq, checkedBodyFrameTotal_eq_some, min_lt_iff]
  constructor
  · intro h
    have := h (observed + frameLen)
    omega
  · intro h total
    omega

structure BodyBudget where
  limit : ℕ
  observed : ℕ
deriving DecidableEq

namespace BodyBudget

def admitFrameWithin (budget : BodyBudget) (frameLen : ℕ) : Except ℕ ℕ × BodyBudget :=
  match checkedBodyFrameTotal budget.observed frameLen budget.limit with
  | some total => (.ok total, { budget with observed := total })
  | none => (.error budget.limit, budget)

def admitFrame (budget : BodyBudget) (frameLen : ℕ) : Except Rejected ℕ × BodyBudget :=
  let (admitted, budget) := budget.admitFrameWithin frameLen
  (admitted.mapError .bodyTooLarge, budget)

def Admits (budget : BodyBudget) (frameLen : ℕ) : Prop :=
  budget.observed + frameLen ≤ min budget.limit Usize.max

instance (budget : BodyBudget) (frameLen : ℕ) : Decidable (budget.Admits frameLen) :=
  inferInstanceAs (Decidable (_ ≤ _))

theorem admitFrame_ok {budget : BodyBudget} {frameLen : ℕ} (h : budget.Admits frameLen) :
    budget.admitFrame frameLen = (.ok (budget.observed + frameLen),
      { budget with observed := budget.observed + frameLen }) := by
  have hle := le_min_iff.mp h
  have htotal := checkedBodyFrameTotal_eq_some.mpr ⟨rfl, hle.2, hle.1⟩
  simp only [admitFrame, admitFrameWithin, htotal]
  rfl

theorem admitFrame_error {budget : BodyBudget} {frameLen : ℕ} (h : ¬ budget.Admits frameLen) :
    budget.admitFrame frameLen = (.error (.bodyTooLarge budget.limit), budget) := by
  have htotal := checkedBodyFrameTotal_eq_none.mpr (not_le.mp h)
  simp only [admitFrame, admitFrameWithin, htotal]
  rfl

end BodyBudget

end Camber.Inbound
