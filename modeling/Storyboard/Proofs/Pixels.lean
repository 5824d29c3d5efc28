import Storyboard.Proofs.Binary64.Sum
import Storyboard.Proofs.Rational

set_option autoImplicit false

namespace Storyboard.Binary64
open Float.Model Float.Model.UnpackedFloat

section Floor
variable {x : Float}

theorem Parts.floor_eq (p : Parts) : p.floor = (p.signed * 2 ^ p.exponent : Rat).floor := by
  have hpow (k : Nat) : ((Nat.pow 2 k : Nat) : Rat) = 2 ^ k := Nat.cast_pow 2 k
  unfold Parts.floor
  split
  · rename_i h
    obtain ⟨k, hk⟩ := Int.eq_ofNat_of_zero_le h
    have hwhole : (p.signed * 2 ^ p.exponent : Rat) =
        ((p.signed * Nat.pow 2 p.exponent.toNat : Int) : Rat) := by
      rw [hk, Int.toNat_natCast, Int.cast_mul, Int.cast_natCast, hpow, zpow_natCast]
    rw [hwhole]
    exact (Rat.floor_intCast _).symm
  · rename_i h
    obtain ⟨k, hk⟩ := Int.eq_ofNat_of_zero_le (a := -p.exponent) (by omega)
    have hratio : (p.signed * 2 ^ p.exponent : Rat) =
        p.signed / (Nat.pow 2 (-p.exponent).toNat : Nat) := by
      rw [hk, Int.toNat_natCast, hpow, div_eq_mul_inv, ← zpow_natCast, ← zpow_neg, ← hk, neg_neg]
    rw [hratio]
    exact (Rat.floor_intCast_div_natCast _ _).symm

theorem signed_eq (b m : Nat) (e : Int) :
    Parts.signed ⟨decide (2 ^ 63 ≤ b), m, e⟩ = (signOf b).apply m := by
  simp only [Parts.signed, signOf, decide_eq_true_eq]
  by_cases h : b < 2 ^ 63
  · rw [if_neg (by omega), if_pos h]
    rfl
  · rw [if_pos (by omega), if_neg h]
    rfl

theorem exists_parts (h : x.isFinite = true) :
    ∃ p, parts? x = some p ∧ exact x = p.signed * 2 ^ p.exponent := by
  have hmagnitude := (isFinite_iff_magnitude x).mp h
  have hrank : x.toBits.toNat / Nat.pow 2 52 % 2048 = magnitude x / 2 ^ 52 := by
    change x.toBits.toNat / 2 ^ 52 % 2048 = x.toBits.toNat % 2 ^ 63 / 2 ^ 52
    omega
  have htail : x.toBits.toNat % Nat.pow 2 52 = magnitude x % 2 ^ 52 := by
    change x.toBits.toNat % 2 ^ 52 = x.toBits.toNat % 2 ^ 63 % 2 ^ 52
    omega
  refine ⟨⟨decide (2 ^ 63 ≤ x.toBits.toNat), mantissaOf (magnitude x), exponentOf (magnitude x)⟩,
    ?_, ?_⟩
  · simp only [parts?, hrank, htail]
    rw [if_neg (by omega)]
    rfl
  · rw [signed_eq, exact]
    obtain ⟨hzero, hunpack⟩ | ⟨-, hm, hunpack⟩ := unpack_eq_of_isFinite h
    · have hnone : (signOf x.toBits.toNat).apply (mantissaOf 0) = 0 := by
        cases signOf x.toBits.toNat <;> rfl
      rw [hunpack, hzero, hnone, Int.cast_zero, zero_mul]
      rfl
    · rw [hunpack]
      rfl

theorem floor_eq (h : x.isFinite = true) : floor x = Int64.ofIntClamp (exact x).floor := by
  obtain ⟨p, hp, hexact⟩ := exists_parts h
  rw [floor, hp, hexact, ← p.floor_eq]

end Floor

/-- A half takes the number to the power of two from which on doubles are the multiples of
`2 ^ g`. -/
structure Passes (v : Rat) (g : Int) : Prop where
  before : v < 2 ^ (g + 52)
  after : 2 ^ (g + 52) ≤ v + 1 / 2

section Half
variable {v : Rat} {c e g k n : Int}

theorem floor_add_half (c : Int) : (c + 1 / 2 : Rat).floor = c :=
  Scalar.nearest_iff.mp ⟨by linarith, by linarith⟩

theorem Grid.passes (hv : Grid v e) (hs : Grid (v + 1 / 2) g) (h : e < g) : Passes v g := by
  have hleast := hv.least
  have hpow : (2 : Rat) ^ (e + 53) ≤ 2 ^ (g + 52) := zpow_le_zpow_right₀ one_le_two (by omega)
  have hbefore := abs_lt.mp (hv.below.trans_le hpow)
  obtain hpos | hneg := le_abs.mp (hs.above.resolve_left (by omega))
  · exact ⟨hbefore.2, hpos⟩
  · linarith

namespace Passes

/-- Far from zero, the power of two is the sum. -/
theorem sum_eq (h : Passes v g) (hv : Grid v e) (hk : v = k * 2 ^ e) (hg : 0 ≤ g) :
    v + 1 / 2 = 2 ^ (g + 52) := by
  obtain ⟨hbefore, hafter⟩ := h
  have he : -1 ≤ e := by
    have hfar : (2 : Rat) ^ (52 : Int) ≤ 2 ^ (g + 52) := zpow_le_zpow_right₀ one_le_two (by omega)
    have hexponent := hv.lt_of_zpow_le (a := 51) (by norm_num at hfar ⊢; linarith)
    omega
  obtain ⟨c, hc⟩ := exists_mul_zpow he
  obtain ⟨b, hb⟩ := exists_mul_zpow (a := 0) (b := g + 52) (by omega)
  rw [zpow_zero, mul_one] at hb
  rw [hc, ← mul_assoc, ← Int.cast_mul] at hk
  generalize k * c = j at hk
  -- twice the number is whole, and there is no whole number between it and the next
  have hj : v = j / 2 := by
    rw [hk]
    norm_num
    ring
  rw [hb, hj] at hbefore hafter ⊢
  have hlow : (j : Rat) < (2 * b : Int) := by push_cast; linarith
  have hhigh : ((2 * b : Int) : Rat) ≤ (j + 1 : Int) := by push_cast; linarith
  rw [Int.cast_lt] at hlow
  rw [Int.cast_le] at hhigh
  obtain rfl : j = 2 * b - 1 := by omega
  push_cast
  ring

/-- Above one, the sum is too far from the next whole number to be rounded up to it. -/
theorem lt_floor_add_one (h : Passes v g) (hfar : -52 ≤ g) (hg : g < 0) :
    v + 1 / 2 + 2 ^ g / 2 < ((v + 1 / 2).floor + 1 : Int) := by
  obtain ⟨hbefore, hafter⟩ := h
  have hhalf : (2 : Rat) ^ g ≤ 2 ^ (-1 : Int) := zpow_le_zpow_right₀ one_le_two (by omega)
  obtain ⟨b, hb⟩ := exists_mul_zpow (a := 0) (b := g + 52) (by omega)
  rw [hb, zpow_zero, mul_one] at hbefore hafter
  have hfloor : (b : Rat) ≤ (v + 1 / 2).floor := by exact_mod_cast Rat.le_floor_iff.mpr hafter
  push_cast
  norm_num at hhalf
  linarith

theorem floor_eq_zero (h : Passes v g) (hs : Grid (v + 1 / 2) g) (hg : g ≤ -53) :
    (v + 1 / 2).floor = 0 := by
  have hone : (2 : Rat) ^ (g + 53) ≤ 2 ^ (0 : Int) := zpow_le_zpow_right₀ one_le_two (by omega)
  have hpos : (0 : Rat) < v + 1 / 2 := lt_of_lt_of_le (by positivity) h.after
  have hlt := (abs_lt.mp hs.below).2
  rw [zpow_zero] at hone
  refine le_antisymm (Int.lt_add_one_iff.mp (Rat.floor_lt_iff.mpr ?_)) (Rat.le_floor_iff.mpr ?_)
  · norm_num
    linarith
  · exact_mod_cast hpos.le

/-- Below one, only the number next below a half comes near enough. -/
theorem eq_of_reaches_one (h : Passes v g) (hv : Grid v e) (hk : v = k * 2 ^ e)
    (hs : Grid (v + 1 / 2) g) (he : e < g) (hg : g ≤ -53) (hone : 1 - 2 ^ g / 2 ≤ v + 1 / 2) :
    v = 1 / 2 - 1 / 2 ^ 54 := by
  have hstep : (2 : Rat) ^ g ≤ 2 ^ (-53 : Int) := zpow_le_zpow_right₀ one_le_two hg
  have hexponent := hs.lt_of_zpow_le (a := -1) (by norm_num at hstep ⊢; linarith)
  obtain rfl : g = -53 := by omega
  have hexponent' := hv.lt_of_zpow_le (a := -2) (by norm_num at hone ⊢; linarith)
  obtain rfl : e = -54 := by omega
  have hbefore := h.before
  norm_num at hk hbefore hone
  have hlow : ((2 ^ 53 - 2 : Int) : Rat) < k := by norm_num; linarith
  have hhigh : (k : Rat) < (2 ^ 53 : Int) := by norm_num; linarith
  rw [Int.cast_lt] at hlow hhigh
  obtain rfl : k = 2 ^ 53 - 1 := by omega
  rw [hk]
  norm_num

theorem floor_eq (h : Passes v g) (hv : Grid v e) (hk : v = k * 2 ^ e) (hs : Grid (v + 1 / 2) g)
    (hn : NearestEven ((v + 1 / 2) / 2 ^ g) n) (he : e < g) (hg : g < 0)
    (hne : v ≠ 1 / 2 - 1 / 2 ^ 54) : (n * 2 ^ g : Rat).floor = (v + 1 / 2).floor := by
  refine le_antisymm (Int.lt_add_one_iff.mp (Rat.floor_lt_iff.mpr ?_))
    (Rat.le_floor_iff.mpr (hn.le_mul hg.le (Rat.floor_le _)))
  have hnear := hn.mul_le
  by_cases hfar : -52 ≤ g
  · exact hnear.trans_lt (h.lt_floor_add_one hfar hg)
  · rw [h.floor_eq_zero hs (by omega)]
    by_contra hone
    norm_num at hone
    exact hne (h.eq_of_reaches_one hv hk hs he (by omega) (by linarith))

end Passes

/-- Far from zero, a whole number with a half is rounded back, except that where doubles are the
whole numbers an odd one goes to the next. -/
theorem NearestEven.of_add_half (hn : NearestEven ((c * 2 ^ g + 1 / 2 : Rat) / 2 ^ g) n)
    (hg : 0 ≤ g) : n = c ∨ g = 0 ∧ Odd c := by
  obtain rfl | hg' := eq_or_lt_of_le hg
  · rw [zpow_zero, mul_one, div_one] at hn
    obtain ⟨heven, rfl | rfl⟩ := hn.of_half
    · exact .inl rfl
    · exact .inr ⟨rfl, Int.not_even_iff_odd.mp (Int.even_add_one.mp heven)⟩
  · have hlarge : (2 : Rat) ^ (1 : Int) ≤ 2 ^ g := zpow_le_zpow_right₀ one_le_two hg'
    have hpos : (0 : Rat) < 2 ^ g := by positivity
    have hquarter : (1 / 2 : Rat) / 2 ^ g ≤ 1 / 4 := by
      rw [div_le_iff₀ hpos]
      norm_num at hlarge
      linarith
    have hsmall : (0 : Rat) < 1 / 2 / 2 ^ g := by positivity
    rw [add_div, mul_div_cancel_right₀ _ hpos.ne'] at hn
    have hhigh : (n : Rat) < (c + 1 : Int) := by
      push_cast
      linarith [(abs_le.mp hn.near).1]
    refine .inl (le_antisymm (Int.lt_add_one_iff.mp (by exact_mod_cast hhigh)) ?_)
    exact hn.le (by linarith)

theorem grid_add_half_iff {c : Int} (hodd : Odd c) :
    Grid (c + 1 / 2) 0 ↔ 2 ^ 52 ≤ |c| ∧ |c| < 2 ^ 53 := by
  have htwice : |(c + 1 / 2 : Rat)| * 2 = (|2 * c + 1| : Int) :=
    calc |(c + 1 / 2 : Rat)| * 2 = |(c + 1 / 2 : Rat) * 2| := by rw [abs_mul, abs_two]
      _ = (|2 * c + 1| : Int) := by
        push_cast
        congr 1
        ring
  have hgrid : Grid (c + 1 / 2) 0 ↔ 2 ^ 53 ≤ |2 * c + 1| ∧ |2 * c + 1| < 2 ^ 54 := by
    rw [← Int.cast_le (R := Rat), ← Int.cast_lt (R := Rat), ← htwice]
    constructor
    · rintro ⟨-, hbelow, habove⟩
      have habove := habove.resolve_left (by decide)
      norm_num at hbelow habove ⊢
      constructor <;> linarith
    · rintro ⟨habove, hbelow⟩
      norm_num at habove hbelow
      exact ⟨by decide, by norm_num; linarith, .inr (by norm_num; linarith)⟩
  obtain ⟨m, rfl⟩ := hodd
  rw [hgrid, abs_eq_max_neg, abs_eq_max_neg]
  omega

end Half

/-- The doubles that are rounded to the pixel above the nearest: the one next below a half, and the
odd numbers where doubles are the whole numbers. -/
def Misrounded (p : Rat) : Prop :=
  p = 1 / 2 - 1 / 2 ^ 54 ∨ ∃ k : Int, Odd k ∧ 2 ^ 52 ≤ |k| ∧ |k| < 2 ^ 53 ∧ p = k

section Misrounded
variable {v r : Rat}

theorem nearest_floor (hv : Rounds v v) (hr : Rounds (v + 1 / 2) r) (h : ¬ Misrounded v) :
    Scalar.Nearest v r.floor := by
  obtain ⟨e, k, hve, -, hk⟩ := hv
  obtain ⟨g, n, hsg, hn, rfl⟩ := hr
  rw [Scalar.nearest_iff]
  by_cases he : e < g
  · have hpasses := hve.passes hsg he
    by_cases hg : 0 ≤ g
    · obtain ⟨c, hc⟩ := exists_mul_zpow (a := g) (b := g + 52) (by omega)
      rw [hn.mul_eq ((hpasses.sum_eq hve hk hg).trans hc)]
    · exact (hpasses.floor_eq hve hk hsg hn he (by omega) fun heq => h (.inl heq)).symm
  · obtain ⟨c, hc⟩ := exists_mul_zpow (not_lt.mp he)
    rw [hc, ← mul_assoc, ← Int.cast_mul] at hk
    generalize k * c = j at hk
    by_cases hg : 0 ≤ g
    · obtain ⟨i, hi⟩ := exists_mul_zpow hg
      obtain rfl | ⟨rfl, hodd⟩ := (hk ▸ hn).of_add_half hg
      · rw [← hk, hk, hi, zpow_zero, mul_one, ← Int.cast_mul, floor_add_half, Rat.floor_intCast]
      · rw [zpow_zero, mul_one] at hk
        subst hk
        obtain ⟨hlow, hhigh⟩ := (grid_add_half_iff hodd).mp hsg
        exact absurd (.inr ⟨j, hodd, hlow, hhigh, rfl⟩) h
    · -- a half is on the grid, and so is the sum
      obtain ⟨i, hi⟩ := exists_mul_zpow (a := g) (b := -1) (by omega)
      have hsum : v + 1 / 2 = (j + i : Int) * 2 ^ g := by
        rw [hk, Int.cast_add, add_mul, ← hi]
        norm_num
      rw [hn.mul_eq hsum]

theorem nearest_floor_sub_one (hr : Rounds (v + 1 / 2) r) (h : Misrounded v) :
    Scalar.Nearest v (r.floor - 1) := by
  obtain ⟨g, n, hsg, hn, rfl⟩ := hr
  obtain rfl | ⟨k, hodd, hlow, hhigh, rfl⟩ := h
  · have hgrid : Grid (1 / 2 - 1 / 2 ^ 54 + 1 / 2) (-53) :=
      ⟨by norm_num, by norm_num [abs_of_pos], .inr (by norm_num [abs_of_pos])⟩
    obtain rfl := hsg.unique hgrid
    have htie : (1 / 2 - 1 / 2 ^ 54 + 1 / 2 : Rat) / 2 ^ (-53 : Int) =
        (2 ^ 53 - 1 : Int) + 1 / 2 := by norm_num
    obtain ⟨heven, rfl | rfl⟩ := (htie ▸ hn).of_half
    · exact absurd heven (by decide)
    · have hone : ((2 ^ 53 - 1 + 1 : Int) : Rat) * 2 ^ (-53 : Int) = (1 : Int) := by norm_num
      rw [hone, Rat.floor_intCast]
      norm_num [Scalar.Nearest]
  · obtain rfl := hsg.unique ((grid_add_half_iff hodd).mpr ⟨hlow, hhigh⟩)
    rw [zpow_zero, div_one] at hn
    obtain ⟨heven, rfl | rfl⟩ := hn.of_half
    · exact absurd heven (Int.not_even_iff_odd.mpr hodd)
    · rw [zpow_zero, mul_one, Rat.floor_intCast, add_sub_cancel_right, Scalar.nearest_iff]
      exact floor_add_half k

end Misrounded

theorem exact_half : exact 0.5 = 1 / 2 := by decide +kernel

theorem exists_rounds_add_half {x : Float} (hx : x.isFinite = true) (h : |exact x| < 2 ^ 62) :
    ∃ r, Rounds (exact x + 1 / 2) r ∧
      (-2 ^ 63 ≤ r.floor → r.floor < 2 ^ 63 → (Scalar.round x).toInt = r.floor) := by
  have hbound := abs_lt.mp h
  have hhalf : (0.5 : Float).isFinite = true := by decide +kernel
  have hsmall : |exact x + exact 0.5| < 2 ^ 1023 := by
    have hlarge : (2 : Rat) ^ 63 ≤ 2 ^ 1023 := pow_le_pow_right₀ one_le_two (by decide)
    refine lt_of_lt_of_le ?_ hlarge
    rw [exact_half, abs_lt]
    constructor <;> norm_num at hbound ⊢ <;> linarith
  obtain ⟨hfinite, hsum⟩ := exact_add hx hhalf hsmall
  refine ⟨_, exact_half ▸ hsum, fun hlow hhigh => ?_⟩
  change (floor (x + 0.5)).toInt = _
  rw [floor_eq hfinite]
  exact Int64.toInt_ofIntClamp hlow (Int.le_sub_one_iff.mpr hhigh)

/-- A double is rounded to the nearest pixel, a half going up, unless its sum with a half is rounded
up to the pixel above. -/
theorem nearest_round_iff {x : Float} (hx : x.isFinite = true) (h : |exact x| < 2 ^ 62) :
    (Scalar.Nearest (exact x) (Scalar.round x).toInt ↔ ¬ Misrounded (exact x)) ∧
      (Misrounded (exact x) → Scalar.Nearest (exact x) ((Scalar.round x).toInt - 1)) := by
  obtain ⟨r, hr, hround⟩ := exists_rounds_add_half hx h
  have hrange : |exact x| < (2 ^ 62 : Int) := by exact_mod_cast h
  by_cases hmis : Misrounded (exact x)
  · have hbelow := nearest_floor_sub_one hr hmis
    obtain ⟨hlow, hhigh⟩ := hbelow.bounds hrange
    rw [hround (by omega) (by omega)]
    refine ⟨⟨fun hn => ?_, fun hnot => absurd hmis hnot⟩, fun _ => hbelow⟩
    rw [Scalar.nearest_iff] at hn hbelow
    omega
  · have hnear := nearest_floor (rounds_exact hx) hr hmis
    obtain ⟨hlow, hhigh⟩ := hnear.bounds hrange
    rw [hround (by omega) (by omega)]
    exact ⟨iff_of_true hnear hmis, fun hmis' => absurd hmis' hmis⟩

theorem half_and_large_odd_go_up :
    Scalar.Nearest (exact 1920.5) (Scalar.round 1920.5).toInt ∧
      Scalar.Nearest (exact 4503599627370497)
        ((Scalar.round (4503599627370497 : Float)).toInt - 1) := by
  have hhalf : exact 1920.5 = 3841 / 2 := by decide +kernel
  have hodd : exact 4503599627370497 = (4503599627370497 : Int) := by decide +kernel
  constructor
  · refine (nearest_round_iff (by decide +kernel) (by decide +kernel)).1.mpr ?_
    rw [hhalf]
    rintro (h | ⟨k, -, -, -, h⟩)
    · norm_num at h
    · have htwice : ((3841 : Int) : Rat) = (2 * k : Int) := by
        push_cast
        linarith
      rw [Int.cast_inj] at htwice
      omega
  · refine (nearest_round_iff (by decide +kernel) (by decide +kernel)).2 ?_
    exact .inr ⟨4503599627370497, by decide, by decide, by decide, hodd⟩

theorem round_not_nearest :
    ¬ ∀ x : Float, x.isFinite = true → |exact x| < 2 ^ 62 →
      Scalar.Nearest (exact x) (Scalar.round x).toInt := by
  intro h
  have hbelow := h 0.49999999999999994 (by decide +kernel) (by decide +kernel)
  revert hbelow
  decide +kernel

end Storyboard.Binary64
