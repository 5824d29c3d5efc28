import Mathlib.Algebra.Order.Field.Rat
import Mathlib.Tactic.Linarith
import Mathlib.Tactic.NormNum
import Storyboard.Geometry

set_option autoImplicit false

/-!
The library read over exact rationals: literals, sums, the smaller and the larger of two numbers are
those of the ordered field, and every number is finite.
-/

namespace Storyboard
namespace Scalar

@[simp] theorem rat_zero : (0.0 : Rat) = 0 := by norm_num

@[simp] theorem rat_one : (1.0 : Rat) = 1 := by norm_num

@[simp] theorem rat_two : (2.0 : Rat) = 2 := by norm_num

@[simp] theorem rat_ofNat (n : Nat) : (Scalar.ofNat n : Rat) = n := rfl

@[simp] theorem rat_precedes (p q : Rat) : Scalar.precedes p q = decide (p ≤ q) := rfl

theorem rat_proper_iff (p : Rat) : Scalar.proper p = true ↔ 0 < p := by
  simp [proper, finite]

theorem rat_least (p q : Rat) : least p q = min p q := by
  unfold least
  split
  · rename_i h
    exact (min_eq_left (by simpa using h : p < q).le).symm
  · rename_i h
    exact (min_eq_right (by simpa using h : q ≤ p)).symm

theorem rat_greatest (p q : Rat) : greatest p q = max p q := by
  unfold greatest
  split
  · rename_i h
    exact (max_eq_left (by simpa using h : q < p).le).symm
  · rename_i h
    exact (max_eq_right (by simpa using h : p ≤ q)).symm

theorem toInt_rat_round {p : Rat} (hlow : -2 ^ 63 ≤ (p + 1 / 2).floor)
    (hhigh : (p + 1 / 2).floor < 2 ^ 63) : (round p).toInt = (p + 1 / 2).floor := by
  have hhalf : p + (0.5 : Rat) = p + 1 / 2 := by norm_num
  change (Int64.ofIntClamp (p + 0.5).floor).toInt = _
  rw [hhalf]
  exact Int64.toInt_ofIntClamp hlow (Int.le_sub_one_iff.mpr hhigh)

theorem toInt_rat_round_mem {p : Rat} {n : UInt32} (hlow : 0 ≤ p) (hhigh : p ≤ n.toNat) :
    0 ≤ (round p).toInt ∧ (round p).toInt ≤ n.toNat := by
  have hn := n.toNat_lt
  have hmin : 0 ≤ (p + 1 / 2).floor := by
    rw [Rat.le_floor_iff]
    norm_num
    linarith
  have hmax : (p + 1 / 2).floor ≤ n.toNat := by
    rw [← Int.lt_add_one_iff, ← not_le, Rat.le_floor_iff]
    push_cast
    linarith
  rw [toInt_rat_round (by omega) (by omega)]
  exact ⟨hmin, hmax⟩

/-- The whole number that is nearest to a number; of two that are equally near it is the larger. -/
def Nearest (p : Rat) (n : Int) : Prop := n - 1 / 2 ≤ p ∧ p < n + 1 / 2

instance (p : Rat) (n : Int) : Decidable (Nearest p n) := inferInstanceAs (Decidable (_ ∧ _))

theorem nearest_iff {p : Rat} {n : Int} : Nearest p n ↔ (p + 1 / 2).floor = n := by
  rw [le_antisymm_iff, ← Int.lt_add_one_iff, Rat.floor_lt_iff, Rat.le_floor_iff, and_comm, Nearest]
  push_cast
  exact and_congr (by constructor <;> intro h <;> linarith) (by constructor <;> intro h <;> linarith)

theorem Nearest.bounds {p : Rat} {m n : Int} (hn : Nearest p n) (h : |p| < m) :
    -m ≤ n ∧ n ≤ m := by
  obtain ⟨hlow, hhigh⟩ := abs_lt.mp h
  have hmin : ((-m - 1 : Int) : Rat) < n := by
    push_cast
    linarith [hn.2]
  have hmax : (n : Rat) < (m + 1 : Int) := by
    push_cast
    linarith [hn.1]
  rw [Int.cast_lt] at hmin hmax
  omega

/-- A number that is rounded to a pixel, and not cut off at the end of their range. -/
def InPixels (p : Rat) : Prop := ∃ n : Pixel, Nearest p n.toInt

theorem InPixels.nearest_round {p : Rat} (h : InPixels p) : Nearest p (round p).toInt := by
  obtain ⟨n, hn⟩ := h
  have hfloor := nearest_iff.mp hn
  have hlow := n.le_toInt
  have hhigh := n.toInt_lt
  rw [nearest_iff, toInt_rat_round (by omega) (by omega)]

theorem rat_sum (ps : List Rat) : Scalar.sum ps = ps.sum := by
  cases ps with
  | nil => simp [sum]
  | cons p ps =>
    rw [sum, List.sum_cons]
    induction ps generalizing p with
    | nil => simp
    | cons q ps ih =>
      rw [List.foldl_cons, ih, List.sum_cons]
      exact add_assoc p q ps.sum

theorem le_foldl_greatest (p : Rat) (ps : List Rat) : p ≤ ps.foldl greatest p := by
  induction ps generalizing p with
  | nil => exact le_refl p
  | cons q ps ih =>
    have hpq : p ≤ greatest p q := by
      rw [rat_greatest]
      exact le_max_left p q
    exact hpq.trans (ih (greatest p q))

theorem le_foldl_greatest_of_mem {p : Rat} (start : Rat) {ps : List Rat} (h : p ∈ ps) :
    p ≤ ps.foldl greatest start := by
  induction ps generalizing start with
  | nil => simp at h
  | cons q ps ih =>
    rcases List.mem_cons.mp h with rfl | h
    · have hp : p ≤ greatest start p := by
        rw [rat_greatest]
        exact le_max_right start p
      exact hp.trans (le_foldl_greatest (greatest start p) ps)
    · exact ih (greatest start q) h

theorem foldl_greatest_eq_or_mem (start : Rat) (ps : List Rat) :
    ps.foldl greatest start = start ∨ ps.foldl greatest start ∈ ps := by
  induction ps generalizing start with
  | nil => exact .inl rfl
  | cons p ps ih =>
    rw [List.foldl_cons]
    rcases ih (greatest start p) with h | h
    · rw [h, rat_greatest]
      rcases max_choice start p with hmax | hmax
      · exact .inl hmax
      · rw [hmax]
        exact .inr List.mem_cons_self
    · exact .inr (List.mem_cons_of_mem p h)

theorem min_mul_eq {a : Rat} (h : 0 < a) (x y : Rat) : min x (y * a) = min (x / a) y * a := by
  rw [min_mul_of_nonneg _ _ h.le, div_mul_cancel₀ _ h.ne']

theorem isGreatest_min_div {a b : Rat} (ha : 0 < a) (hb : 0 < b) (x y : Rat) :
    IsGreatest {t | t * a ≤ x ∧ t * b ≤ y} (min (x / a) (y / b)) := by
  constructor
  · exact ⟨(le_div_iff₀ ha).mp (min_le_left _ _), (le_div_iff₀ hb).mp (min_le_right _ _)⟩
  · intro t ht
    exact le_min ((le_div_iff₀ ha).mpr ht.1) ((le_div_iff₀ hb).mpr ht.2)

end Scalar

theorem Size.rat_proper_iff (s : Size Rat) : s.proper = true ↔ 0 < s.width ∧ 0 < s.height := by
  simp [Size.proper, Scalar.rat_proper_iff]

end Storyboard
