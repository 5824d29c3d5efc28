import Storyboard.Proofs.Binary64.Nearest
import Storyboard.Proofs.Binary64.Reach

set_option autoImplicit false

/-!
Doubles as the rationals that they denote. The sum of two doubles is the double nearest to the exact
sum: the two bits that are kept of what rounding cuts off tell on which side of the middle between
two doubles the exact sum lies.
-/

namespace Storyboard.Binary64
open Float.Model Float.Model.UnpackedFloat

section Residue
variable {em : ExtendedMantissa} {p : Rat}

/-- A mantissa and its two bits, as the place of a rational between two whole numbers. -/
def Represents : ExtendedMantissa → Rat → Prop
  | ⟨m, false, false⟩, p => p = m
  | ⟨m, false, true⟩, p => m < p ∧ p < m + 1 / 2
  | ⟨m, true, false⟩, p => p = m + 1 / 2
  | ⟨m, true, true⟩, p => m + 1 / 2 < p ∧ p < m + 1

theorem Represents.shiftRightOne (h : Represents em p) : Represents em.shiftRightOne (p / 2) := by
  obtain ⟨m, r, s⟩ := em
  obtain ⟨k, rfl | rfl⟩ := Nat.even_or_odd' m
  · have hk : 2 * k / 2 = k := by omega
    cases r <;> cases s <;>
      simp only [Represents, ExtendedMantissa.shiftRightOne, hk, Nat.mul_mod_right, bne_self_eq_false,
        Bool.or_false, Bool.or_true, Nat.cast_mul, Nat.cast_ofNat] at h ⊢
    · linarith
    all_goals constructor <;> linarith
  · have hk : (2 * k + 1) / 2 = k := by omega
    have hodd : ((2 * k + 1) % 2 != 0) = true := by simp
    cases r <;> cases s <;>
      simp only [Represents, ExtendedMantissa.shiftRightOne, hk, hodd, Bool.or_false, Bool.or_true,
        Nat.cast_add, Nat.cast_mul, Nat.cast_ofNat, Nat.cast_one] at h ⊢
    · linarith
    all_goals constructor <;> linarith

theorem Represents.shiftRight (h : Represents em p) (k : Nat) : Represents (em >>> k) (p / 2 ^ k) := by
  induction k with
  | zero => simpa [HShiftRight.hShiftRight, Nat.repeat] using h
  | succ k ih =>
    rw [pow_succ, ← div_div]
    exact ih.shiftRightOne

theorem Represents.nearestEven (h : Represents em p) : NearestEven p em.roundedMantissa := by
  obtain ⟨m, r, s⟩ := em
  cases r <;> cases s <;>
    simp only [Represents, ExtendedMantissa.roundedMantissa, ExtendedMantissa.accuracy,
      Accuracy.roundToNearestEven] at h ⊢
  · rw [h]
    exact nearestEven_intCast m
  · exact nearestEven_of_lt (abs_lt.mpr (by push_cast; constructor <;> linarith))
  · -- a tie goes to the even one of the two
    have heven : Even (m + m % 2) := by grind
    refine ⟨?_, fun _ => (Int.even_coe_nat _).mpr heven⟩
    obtain hm | hm := Nat.mod_two_eq_zero_or_one m <;> rw [h, hm] <;> push_cast <;>
      norm_num [abs_le]
  · exact nearestEven_of_lt (abs_lt.mpr (by push_cast; constructor <;> linarith))

end Residue

section Rounding

/-- The rational that an unpacked number denotes; what is not finite denotes none. -/
def value : UnpackedFloat → Rat
  | .finite s m e _ => s.apply m * 2 ^ e
  | .zero _ | .infinity _ | .notANumber => 0

theorem value_eq {s : Sign} {m : Nat} {e : Int} :
    value (if h : m = 0 then .zero s else .finite s m e (Nat.pos_of_ne_zero h)) =
      s.apply m * 2 ^ e := by
  split
  · rename_i h
    cases s <;> simp [value, h, Sign.apply]
  · rfl

theorem apply_shiftLeft_mul_zpow (s : Sign) (m : Nat) {k : Nat} {t e : Int} (h : t + k = e) :
    (s.apply (m <<< k : Nat) : Rat) * 2 ^ t = s.apply m * 2 ^ e := by
  have hmantissa : ((m <<< k : Nat) : Rat) * 2 ^ t = m * 2 ^ e := by
    rw [Nat.shiftLeft_eq, ← h, zpow_add₀ two_ne_zero, zpow_natCast]
    push_cast
    ring
  cases s with
  | positive => exact hmantissa
  | negative =>
    simpa only [Sign.apply, Int.cast_neg, Int.cast_natCast, neg_mul, neg_inj] using hmantissa

theorem Rounds.apply {m n : Nat} {e g : Int} (s : Sign) (h : Rounds (m * 2 ^ e) (n * 2 ^ g)) :
    Rounds (s.apply m * 2 ^ e) (s.apply n * 2 ^ g) := by
  cases s with
  | positive => exact h
  | negative => simpa [Sign.apply] using h.neg

theorem grid_of_log2 {m : Nat} {e : Int} (hm : 0 < m) :
    Grid (m * 2 ^ e) (max ((m.log2 : Int) + e - 52) (-1074)) := by
  have hpos : (0 : Rat) < 2 ^ e := by positivity
  have hlow : (2 : Rat) ^ m.log2 ≤ m := by exact_mod_cast Nat.log2_self_le (Nat.ne_of_gt hm)
  have hhigh : (m : Rat) < 2 ^ (m.log2 + 1) := by exact_mod_cast Nat.lt_log2_self
  have habs : |(m : Rat) * 2 ^ e| = m * 2 ^ e := abs_of_nonneg (by positivity)
  refine ⟨le_max_right _ _, ?_, ?_⟩
  · rw [habs]
    calc (m : Rat) * 2 ^ e < 2 ^ (m.log2 + 1) * 2 ^ e := mul_lt_mul_of_pos_right hhigh hpos
      _ = 2 ^ ((m.log2 : Int) + 1 + e) := by
        rw [zpow_add₀ two_ne_zero]
        norm_cast
      _ ≤ 2 ^ (max ((m.log2 : Int) + e - 52) (-1074) + 53) :=
        zpow_le_zpow_right₀ one_le_two (by omega)
  · rw [habs]
    obtain h | h := max_choice ((m.log2 : Int) + e - 52) (-1074) <;> rw [h]
    · refine .inr ?_
      calc (2 : Rat) ^ ((m.log2 : Int) + e - 52 + 52) = 2 ^ m.log2 * 2 ^ e := by
            rw [sub_add_cancel, zpow_add₀ two_ne_zero, zpow_natCast]
        _ ≤ m * 2 ^ e := mul_le_mul_of_nonneg_right hlow hpos.le
    · exact .inl rfl

/-- The second cut only takes a zero off. -/
theorem div_mul_excess {r : Nat} {g : Int} (hr : r ≤ 2 ^ 53) (hg : -1074 ≤ g) :
    r / 2 ^ excess r g * 2 ^ excess r g = r := by
  obtain hlt | rfl := Nat.lt_or_eq_of_le hr
  · have hlog : r.log2 ≤ 52 := by
      by_cases h : r = 0
      · simp [h]
      · exact Nat.le_of_lt_succ ((Nat.log2_lt h).mpr hlt)
    have hexcess : excess r g = 0 := by
      unfold excess
      omega
    rw [hexcess, pow_zero, Nat.div_one, Nat.mul_one]
  · have hexcess : excess (2 ^ 53) g = 1 := by
      unfold excess
      rw [Nat.log2_two_pow]
      omega
    rw [hexcess]
    rfl

theorem rounds_roundWithAccuracy {m : Nat} {e : Int} (s : Sign) (hm : 0 < m)
    (h : 52 ≤ m.log2 ∨ e ≤ -1074) :
    Rounds (s.apply m * 2 ^ e) (value (roundWithAccuracy Format.binary64 s m e .exact)) := by
  have hcut : e + excess m e = max ((m.log2 : Int) + e - 52) (-1074) := by
    unfold excess
    omega
  have hexact : Represents (.ofMantissaAndAccuracy m .exact) m := rfl
  have hnear := (hexact.shiftRight (excess m e)).nearestEven
  have hle := roundedMantissa_le (ExtendedMantissa.ofMantissaAndAccuracy m .exact >>> excess m e)
  rw [mantissa_shiftRight, mantissa_ofMantissaAndAccuracy] at hle
  generalize hr : (ExtendedMantissa.ofMantissaAndAccuracy m .exact >>> excess m e).roundedMantissa =
    r at hnear hle
  have hshort : m / 2 ^ excess m e < 2 ^ 53 := by
    refine Nat.div_lt_of_lt_mul (Nat.lt_log2_self.trans_le ?_)
    rw [← Nat.pow_add]
    exact Nat.pow_le_pow_right (by decide) (by omega)
  have hwhole := div_mul_excess (r := r) (g := e + excess m e) (by omega) (by omega)
  rw [roundWithAccuracy_eq hr, value_eq]
  refine .apply s ⟨e + excess m e, r, hcut ▸ grid_of_log2 hm, ?_, ?_⟩
  · convert hnear using 1
    rw [zpow_add₀ two_ne_zero, zpow_natCast]
    field_simp
  · rw [zpow_add₀ two_ne_zero (e + excess m e), zpow_natCast, ← mul_assoc, mul_right_comm]
    congr 1
    generalize r / 2 ^ excess r (e + excess m e) = t at hwhole
    exact_mod_cast hwhole

theorem rounds_round {m : Nat} (s : Sign) (e : Int) (hm : 0 < m) :
    Rounds (s.apply m * 2 ^ e) (value (UnpackedFloat.round Format.binary64 s m e)) := by
  simp only [UnpackedFloat.round, decreaseExponent, targetExponent_totalExponent]
  generalize hk : (e - max ((m.log2 : Int) + e - 52) (-1074)).toNat = k
  have hlog := le_log2_shiftLeft hm k
  rw [← apply_shiftLeft_mul_zpow s m (sub_add_cancel e k)]
  exact rounds_roundWithAccuracy s (Nat.shiftLeft_pos_iff.mpr hm) (by omega)

theorem exists_normalize {m : Int} (e : Int) (s : Sign) (hm : m ≠ 0) :
    ∃ t n, 0 < n ∧ Sign.apply t (n : Nat) = m ∧
      UnpackedFloat.normalize Format.binary64 m e s = UnpackedFloat.round Format.binary64 t n e := by
  unfold UnpackedFloat.normalize
  obtain hlt | hgt := Int.lt_or_gt_of_ne hm
  · rw [Int.compare_eq_lt.mpr hlt]
    refine ⟨.negative, (-m).toNat, by omega, ?_, rfl⟩
    change -((-m).toNat : Int) = m
    omega
  · rw [Int.compare_eq_gt.mpr hgt]
    exact ⟨.positive, m.toNat, by omega, Int.toNat_of_nonneg hgt.le, rfl⟩

end Rounding

section Form

/-- Zero, or a number in the form of a finite double. -/
inductive Formed : UnpackedFloat → Prop where
  | zero (s : Sign) : Formed (.zero s)
  | finite {s : Sign} {m : Nat} {e : Int} {hm : 0 < m} (normal : Normal m e) (high : e ≤ 971) :
    Formed (.finite s m e hm)

theorem formed_unpack {x : Float} (h : x.isFinite = true) : Formed x.toModel.unpack := by
  have hbelow := (isFinite_iff_below x).mp h
  cases hu : x.toModel.unpack with
  | zero s => exact .zero s
  | infinity | notANumber => rw [hu] at hbelow; cases hbelow
  | finite s m e hm =>
    rw [hu] at hbelow
    cases hbelow with
    | finite _ _ high => exact .finite (normal_of_unpack hu) high

theorem Formed.isFinite {u : UnpackedFloat} (h : Formed u) : u.isFinite = true := by
  cases h <;> rfl

theorem unpack_pack {u : UnpackedFloat} (h : Formed u) : (Float.Model.pack u).unpack = u := by
  cases h with
  | zero s => cases s <;> rfl
  | finite normal high => exact unpack_pack_of_normal normal high

theorem Normal.grid {m : Nat} {e : Int} (hm : 0 < m) (h : Normal m e) : Grid (m * 2 ^ e) e := by
  have hgrid := grid_of_log2 (e := e) hm
  have he : max ((m.log2 : Int) + e - 52) (-1074) = e := by
    unfold Normal at h
    omega
  rwa [he] at hgrid

theorem Formed.rounds_self {u : UnpackedFloat} (h : Formed u) : Rounds (value u) (value u) := by
  cases h with
  | zero s => exact rounds_zero
  | @finite s m e hm normal high => exact .apply s (Binary64.rounds_self (n := m) (normal.grid hm))

theorem formed_round {m : Nat} {e : Int} (s : Sign) (hm : 0 < m) (hlow : -1074 ≤ e)
    (hhigh : e ≤ 971) (h : (m : Rat) * 2 ^ e < 2 ^ 1023) :
    Formed (UnpackedFloat.round Format.binary64 s m e) := by
  have hplace : (m.log2 : Int) + e < 1023 := by
    have hlog : (2 : Rat) ^ m.log2 ≤ m := by exact_mod_cast Nat.log2_self_le (Nat.ne_of_gt hm)
    rw [← zpow_lt_zpow_iff_right₀ (one_lt_two : (1 : Rat) < 2), zpow_add₀ two_ne_zero, zpow_natCast]
    exact (mul_le_mul_of_nonneg_right hlog (by positivity)).trans_lt h
  obtain ⟨n, f, hn, heq, hnormal, -⟩ := normal_round (e := e) s hm (by omega) (le_refl (-1074))
  have hbelow := below_round s hplace hhigh (by decide) le_rfl
  rw [heq] at hbelow ⊢
  cases hbelow with
  | finite _ _ high => exact .finite hnormal high

theorem formed_normalize {m e : Int} (s : Sign) (hlow : -1074 ≤ e) (hhigh : e ≤ 971)
    (h : |(m : Rat) * 2 ^ e| < 2 ^ 1023) :
    Formed (UnpackedFloat.normalize Format.binary64 m e s) ∧
      Rounds (m * 2 ^ e) (value (UnpackedFloat.normalize Format.binary64 m e s)) := by
  by_cases hm : m = 0
  · subst hm
    have hzero : ((0 : Int) : Rat) * 2 ^ e = 0 := by simp
    exact ⟨.zero s, hzero ▸ rounds_zero⟩
  · obtain ⟨t, n, hn, rfl, heq⟩ := exists_normalize e s hm
    have habs : |(t.apply n : Rat) * 2 ^ e| = n * 2 ^ e := by cases t <;> simp [Sign.apply, abs_mul]
    exact heq ▸ ⟨formed_round t hn hlow hhigh (habs ▸ h), rounds_round t e hn⟩

theorem add_formed {u v : UnpackedFloat} (hu : Formed u) (hv : Formed v)
    (h : |value u + value v| < 2 ^ 1023) :
    Formed (UnpackedFloat.add Format.binary64 u v) ∧
      Rounds (value u + value v) (value (UnpackedFloat.add Format.binary64 u v)) := by
  cases hu with
  | zero s =>
    have hzero : value (.zero s) + value v = value v := zero_add _
    rw [hzero]
    cases hv with
    | zero t => cases s <;> cases t <;> exact ⟨.zero _, rounds_zero⟩
    | finite normal high => exact ⟨.finite normal high, (Formed.finite normal high).rounds_self⟩
  | @finite s m e hm normal high =>
    cases hv with
    | zero t =>
      have hzero : value (.finite s m e hm) + value (.zero t) = value (.finite s m e hm) :=
        add_zero _
      rw [hzero]
      exact ⟨.finite normal high, (Formed.finite normal high).rounds_self⟩
    | @finite t n f hn normal' high' =>
      have hlow := normal.le_exponent
      have hlow' := normal'.le_exponent
      have hsum : ((s.apply (m <<< (e - min e f).toNat : Nat) +
          t.apply (n <<< (f - min e f).toNat : Nat) : Int) : Rat) * 2 ^ min e f =
          value (.finite s m e hm) + value (.finite t n f hn) := by
        rw [Int.cast_add, add_mul, apply_shiftLeft_mul_zpow s m (e := e) (by omega),
          apply_shiftLeft_mul_zpow t n (e := f) (by omega)]
        rfl
      rw [← hsum] at h ⊢
      exact formed_normalize _ (by omega) (by omega) h

end Form

section Doubles
variable {x y : Float}

def exact (x : Float) : Rat := value x.toModel.unpack

theorem exact_add (hx : x.isFinite = true) (hy : y.isFinite = true)
    (h : |exact x + exact y| < 2 ^ 1023) :
    (x + y).isFinite = true ∧ Rounds (exact x + exact y) (exact (x + y)) := by
  obtain ⟨hformed, hrounds⟩ := add_formed (formed_unpack hx) (formed_unpack hy) h
  have hunpack : (x + y).toModel.unpack =
      UnpackedFloat.add Format.binary64 x.toModel.unpack y.toModel.unpack := unpack_pack hformed
  constructor
  · change (x + y).toModel.unpack.isFinite = true
    exact hunpack ▸ hformed.isFinite
  · rwa [exact, exact, exact, hunpack]

theorem rounds_exact (h : x.isFinite = true) : Rounds (exact x) (exact x) :=
  (formed_unpack h).rounds_self

end Doubles

end Storyboard.Binary64
