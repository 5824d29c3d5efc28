import Mathlib.Algebra.Order.Field.Power
import Mathlib.Algebra.Ring.Int.Parity
import Mathlib.Data.Rat.Floor
import Mathlib.Tactic.FieldSimp
import Mathlib.Tactic.Linarith
import Mathlib.Tactic.NormNum
import Mathlib.Tactic.Positivity
import Mathlib.Tactic.Ring

set_option autoImplicit false

/-!
Rationals and the doubles nearest to them. Doubles of one magnitude are the multiples of a power of
two; rounding takes the nearest multiple, and of two that are equally near the even one.
-/

namespace Storyboard.Binary64

/-- The whole number nearest to a rational; of two that are equally near it is the even one. -/
structure NearestEven (p : Rat) (n : Int) : Prop where
  near : |p - n| ≤ 1 / 2
  even : |p - n| = 1 / 2 → Even n

/-- Doubles of the magnitude of `q` are the multiples of `2 ^ g`. -/
structure Grid (q : Rat) (g : Int) : Prop where
  least : -1074 ≤ g
  below : |q| < 2 ^ (g + 53)
  above : g = -1074 ∨ 2 ^ (g + 52) ≤ |q|

/-- The double nearest to `q` is `r`, or would be if there were exponents of any size. -/
def Rounds (q r : Rat) : Prop := ∃ g n, Grid q g ∧ NearestEven (q / 2 ^ g) n ∧ r = n * 2 ^ g

theorem exists_mul_zpow {a b : Int} (h : a ≤ b) : ∃ c : Int, (2 : Rat) ^ b = c * 2 ^ a := by
  obtain ⟨k, rfl⟩ := Int.le.dest h
  refine ⟨2 ^ k, ?_⟩
  rw [zpow_add₀ two_ne_zero, zpow_natCast, mul_comm]
  norm_cast

section Whole
variable {p : Rat} {c n : Int}

theorem nearestEven_of_lt (h : |p - n| < 1 / 2) : NearestEven p n :=
  ⟨h.le, fun htie => absurd htie h.ne⟩

theorem nearestEven_intCast (n : Int) : NearestEven n n := nearestEven_of_lt (by norm_num)

namespace NearestEven

theorem neg (h : NearestEven p n) : NearestEven (-p) (-n) := by
  have hdistance : |-p - ((-n : Int) : Rat)| = |p - n| := by
    rw [Int.cast_neg, ← neg_sub', abs_neg]
  exact ⟨hdistance ▸ h.near, fun htie => (h.even (hdistance ▸ htie)).neg⟩

theorem le (h : NearestEven p n) (hc : c ≤ p) : c ≤ n := by
  have hnear := abs_le.mp h.near
  have hlt : (c : Rat) < n + 1 := by linarith
  exact Int.lt_add_one_iff.mp (by exact_mod_cast hlt)

theorem ge (h : NearestEven p n) (hc : p ≤ c) : n ≤ c := by
  have hle := h.neg.le (c := -c) (by push_cast; linarith)
  omega

theorem eq_of_intCast (h : NearestEven (c : Rat) n) : n = c :=
  le_antisymm (h.ge le_rfl) (h.le le_rfl)

theorem of_half (h : NearestEven (c + 1 / 2) n) : Even n ∧ (n = c ∨ n = c + 1) := by
  have hlow : c ≤ n := h.le (by linarith)
  have hhigh : n ≤ c + 1 := h.ge (by push_cast; linarith)
  obtain rfl | rfl : n = c ∨ n = c + 1 := by omega
  · exact ⟨h.even (by norm_num), .inl rfl⟩
  · exact ⟨h.even (by push_cast; norm_num [abs_of_neg]), .inr rfl⟩

end NearestEven

end Whole

section Multiples
variable {q : Rat} {c g n : Int}

namespace NearestEven

theorem mul_eq (h : NearestEven (q / 2 ^ g) n) (hq : q = c * 2 ^ g) : n * 2 ^ g = q := by
  rw [hq, mul_div_cancel_right₀ _ (zpow_ne_zero g two_ne_zero)] at h
  rw [hq, h.eq_of_intCast]

theorem le_mul (h : NearestEven (q / 2 ^ g) n) (hg : g ≤ 0) (hc : c ≤ q) :
    (c : Rat) ≤ n * 2 ^ g := by
  have hpos : (0 : Rat) < 2 ^ g := by positivity
  obtain ⟨k, hk⟩ := exists_mul_zpow hg
  have hwhole : (c : Rat) = (c * k : Int) * 2 ^ g := by
    rw [Int.cast_mul, mul_assoc, ← hk, zpow_zero, mul_one]
  rw [hwhole] at hc ⊢
  have hle := h.le ((le_div_iff₀ hpos).mpr hc)
  exact mul_le_mul_of_nonneg_right (by exact_mod_cast hle) hpos.le

theorem mul_le (h : NearestEven (q / 2 ^ g) n) : n * 2 ^ g ≤ q + 2 ^ g / 2 := by
  have hpos : (0 : Rat) < 2 ^ g := by positivity
  have hnear : (n - 1 / 2 : Rat) ≤ q / 2 ^ g := by linarith [(abs_le.mp h.near).1]
  rw [le_div_iff₀ hpos] at hnear
  linarith

end NearestEven

end Multiples

section Grids
variable {q r : Rat} {a g h n : Int}

namespace Grid

theorem neg (hg : Grid q g) : Grid (-q) g :=
  ⟨hg.least, (abs_neg q).symm ▸ hg.below, (abs_neg q).symm ▸ hg.above⟩

theorem lt_of_zpow_le (hg : Grid q g) (ha : 2 ^ a ≤ q) : a < g + 53 :=
  (zpow_lt_zpow_iff_right₀ one_lt_two).mp ((ha.trans (le_abs_self q)).trans_lt hg.below)

theorem le (hg : Grid q g) (hh : Grid q h) : g ≤ h := by
  by_contra hlt
  obtain heq | habove := hg.above
  · have hleast := hh.least
    omega
  · have hpow : (2 : Rat) ^ (h + 53) ≤ 2 ^ (g + 52) := zpow_le_zpow_right₀ one_le_two (by omega)
    exact absurd (hh.below.trans_le hpow) (not_lt.mpr habove)

theorem unique (hg : Grid q g) (hh : Grid q h) : g = h := le_antisymm (hg.le hh) (hh.le hg)

end Grid

theorem Rounds.neg (h : Rounds q r) : Rounds (-q) (-r) := by
  obtain ⟨g, n, hgrid, hnear, rfl⟩ := h
  exact ⟨g, -n, hgrid.neg, neg_div (2 ^ g) q ▸ hnear.neg, by push_cast; ring⟩

theorem rounds_self (h : Grid (n * 2 ^ g) g) : Rounds (n * 2 ^ g) (n * 2 ^ g) := by
  refine ⟨g, n, h, ?_, rfl⟩
  rw [mul_div_cancel_right₀ _ (zpow_ne_zero g two_ne_zero)]
  exact nearestEven_intCast n

theorem rounds_zero : Rounds 0 0 := by
  have hgrid : Grid ((0 : Int) * 2 ^ (-1074 : Int)) (-1074) := ⟨le_rfl, by norm_num, .inl rfl⟩
  simpa using rounds_self hgrid

end Grids

end Storyboard.Binary64
