import Mathlib
import Storyboard.Binary64

set_option autoImplicit false

/-!
The order of doubles. Those that are numbers have places in a total order, in which both zeros have
the same place; a comparison goes by the places and fails for what is not a number. So the largest
of several numbers is found in parts.
-/

namespace Storyboard
namespace Binary64
open Float.Model

/-- The place of a number among all: first by sign, then by exponent, then by mantissa. -/
def place : UnpackedFloat → ℤ ×ₗ ℤ ×ₗ ℤ
  | .infinity .negative => toLex (-2, toLex (0, 0))
  | .finite .negative m e _ => toLex (-1, toLex (-e, -m))
  | .zero _ | .notANumber => toLex (0, toLex (0, 0))
  | .finite .positive m e _ => toLex (1, toLex (e, m))
  | .infinity .positive => toLex (2, toLex (0, 0))

theorem compare_then_eq_lt_iff {e f : ℤ} {m n : ℕ} :
    (compare e f).then (compare m n) = .lt ↔ e < f ∨ e = f ∧ m < n := by
  rw [Ordering.then_eq_lt, Int.compare_eq_lt, Int.compare_eq_eq, Nat.compare_eq_lt]

theorem compare_then_eq_gt_iff {e f : ℤ} {m n : ℕ} :
    (compare e f).then (compare m n) = .gt ↔ f < e ∨ e = f ∧ n < m := by
  rw [Ordering.then_eq_gt, Int.compare_eq_gt, Int.compare_eq_eq, Nat.compare_eq_gt]

theorem isLE_compare_then_iff {e f : ℤ} {m n : ℕ} :
    ((compare e f).then (compare m n)).isLE = true ↔ e < f ∨ e = f ∧ m ≤ n := by
  rw [Ordering.isLE_iff_ne_gt, compare_then_eq_gt_iff]
  omega

theorem isGE_compare_then_iff {e f : ℤ} {m n : ℕ} :
    ((compare e f).then (compare m n)).isGE = true ↔ f < e ∨ e = f ∧ n ≤ m := by
  rw [Ordering.isGE_iff_ne_lt, compare_then_eq_lt_iff]
  omega

theorem lt_iff_place (u v : UnpackedFloat) :
    u.lt v = true ↔ u.isNaN = false ∧ v.isNaN = false ∧ place u < place v := by
  rcases u with (_ | _) | _ | s | ⟨_ | _, m, e, hm⟩ <;>
    rcases v with (_ | _) | _ | t | ⟨_ | _, n, f, hn⟩
  all_goals
    simp [UnpackedFloat.lt, UnpackedFloat.compare, UnpackedFloat.isNaN, place,
      Prod.Lex.toLex_lt_toLex, compare_then_eq_lt_iff, compare_then_eq_gt_iff]
  rfl

theorem le_iff_place (u v : UnpackedFloat) :
    u.le v = true ↔ u.isNaN = false ∧ v.isNaN = false ∧ place u ≤ place v := by
  rcases u with (_ | _) | _ | s | ⟨_ | _, m, e, hm⟩ <;>
    rcases v with (_ | _) | _ | t | ⟨_ | _, n, f, hn⟩
  all_goals
    simp [UnpackedFloat.le, UnpackedFloat.compare, UnpackedFloat.isNaN, place,
      Prod.Lex.toLex_le_toLex, isLE_compare_then_iff, isGE_compare_then_iff]
  all_goals rfl

end Binary64

section Comparisons

def Binary64.placeOf (x : Float) : ℤ ×ₗ ℤ ×ₗ ℤ := place x.toModel.unpack

variable {x y z : Float}
open Binary64

theorem float_lt_iff : x < y ↔ x.isNaN = false ∧ y.isNaN = false ∧ placeOf x < placeOf y :=
  decide_eq_true_iff.trans (lt_iff_place _ _)

theorem float_le_iff : x ≤ y ↔ x.isNaN = false ∧ y.isNaN = false ∧ placeOf x ≤ placeOf y :=
  decide_eq_true_iff.trans (le_iff_place _ _)

theorem float_le_self_iff : x ≤ x ↔ x.isNaN = false := by
  rw [float_le_iff]
  simp

theorem float_le_trans (hxy : x ≤ y) (hyz : y ≤ z) : x ≤ z := by
  rw [float_le_iff] at hxy hyz ⊢
  exact ⟨hxy.1, hyz.2.1, hxy.2.2.trans hyz.2.2⟩

theorem float_le_of_not_lt (hx : x ≤ x) (hy : y ≤ y) (h : ¬ y < x) : x ≤ y := by
  rw [float_le_self_iff] at hx hy
  rw [float_lt_iff] at h
  rw [float_le_iff]
  refine ⟨hx, hy, le_of_not_gt fun hlt => h ⟨hy, hx, hlt⟩⟩

theorem float_le_of_lt (h : x < y) : x ≤ y := by
  rw [float_lt_iff] at h
  rw [float_le_iff]
  exact ⟨h.1, h.2.1, h.2.2.le⟩

theorem float_lt_of_lt_of_le (hxy : x < y) (hyz : y ≤ z) : x < z := by
  rw [float_lt_iff] at hxy ⊢
  rw [float_le_iff] at hyz
  exact ⟨hxy.1, hyz.2.1, hxy.2.2.trans_le hyz.2.2⟩

theorem float_lt_of_le_of_lt (hxy : x ≤ y) (hyz : y < z) : x < z := by
  rw [float_le_iff] at hxy
  rw [float_lt_iff] at hyz ⊢
  exact ⟨hxy.1, hyz.2.1, hxy.2.2.trans_lt hyz.2.2⟩

theorem float_le_self_of_le (h : x ≤ y) : x ≤ x ∧ y ≤ y := by
  rw [float_le_iff] at h
  rw [float_le_self_iff, float_le_self_iff]
  exact ⟨h.1, h.2.1⟩

end Comparisons

section Largest
open Scalar
variable {x y : Float}

theorem float_le_greatest (y : Float) (h : x ≤ x) : x ≤ greatest x y := by
  unfold greatest
  split
  · exact h
  · rename_i hy
    rw [not_or, not_not] at hy
    exact float_le_of_not_lt h hy.2 hy.1

theorem float_le_foldl_greatest (ys : List Float) (h : x ≤ x) : x ≤ ys.foldl greatest x := by
  induction ys generalizing x with
  | nil => exact h
  | cons y ys ih =>
    have hstep := float_le_greatest y h
    exact float_le_trans hstep (ih (float_le_self_of_le hstep).2)

/-- Of two searches through the same numbers, the one that starts higher stays with its start or
comes to the same end. -/
theorem foldl_greatest_of_le (ys : List Float) (h : y ≤ x) :
    (ys.foldl greatest x = x ∧ ys.foldl greatest y ≤ x) ∨
      ys.foldl greatest x = ys.foldl greatest y := by
  induction ys generalizing x y with
  | nil => exact .inl ⟨rfl, h⟩
  | cons z ys ih =>
    simp only [List.foldl_cons]
    by_cases hy : z < y ∨ ¬ z ≤ z
    · have hx : z < x ∨ ¬ z ≤ z := hy.imp_left fun hlt => float_lt_of_lt_of_le hlt h
      rw [greatest, greatest, if_pos hx, if_pos hy]
      exact ih h
    · have hyz : greatest y z = z := if_neg hy
      rw [hyz]
      by_cases hx : z < x ∨ ¬ z ≤ z
      · have hzx : z < x := hx.resolve_right fun hz => hy (.inr hz)
        rw [greatest, if_pos hx]
        exact ih (float_le_of_lt hzx)
      · rw [greatest, if_neg hx]
        exact .inr rfl

theorem foldl_greatest_append (xs ys : List Float) :
    ((xs ++ ys).foldl greatest 0.0 = xs.foldl greatest 0.0 ∨
        (xs ++ ys).foldl greatest 0.0 = ys.foldl greatest 0.0) ∧
      xs.foldl greatest 0.0 ≤ (xs ++ ys).foldl greatest 0.0 ∧
      ys.foldl greatest 0.0 ≤ (xs ++ ys).foldl greatest 0.0 := by
  have hzero : (0.0 : Float) ≤ 0.0 := by decide
  have hxs := float_le_foldl_greatest xs hzero
  have hys := float_le_foldl_greatest ys hzero
  have hboth := float_le_foldl_greatest ys (float_le_self_of_le hxs).2
  rw [List.foldl_append]
  rcases foldl_greatest_of_le ys hxs with ⟨hfirst, hle⟩ | hsecond
  · exact ⟨.inl hfirst, hboth, hfirst.symm ▸ hle⟩
  · exact ⟨.inr hsecond, hboth, hsecond.symm ▸ (float_le_self_of_le hys).2⟩

theorem greatest_greatest (x y : Float) : greatest (greatest x y) y = greatest x y := by
  by_cases h : y < x ∨ ¬ y ≤ y
  · have hx : greatest x y = x := if_pos h
    rw [hx, hx]
  · have hy : greatest x y = y := if_neg h
    rw [hy, greatest, ite_self]

theorem foldl_greatest_append_cons (xs ys : List Float) (z : Float) :
    (xs ++ z :: ys).foldl greatest 0.0 = ((xs ++ [z]) ++ z :: ys).foldl greatest 0.0 := by
  simp only [List.foldl_append, List.foldl_cons, List.foldl_nil, greatest_greatest]

end Largest
end Storyboard
