import Mathlib
import Storyboard.Binary64

set_option autoImplicit false

/-!
Doubles that stay finite. An unpacked number has a magnitude, the place of its first binary digit;
rounding raises it by one place at most, and below the last place there is a double is finite. So
are quotients by numbers above one, and whole numbers of 64 bits.
-/

namespace Storyboard.Binary64
open Float.Model Float.Model.UnpackedFloat

/-- The first binary digit of the number has at most the place `k`, and its exponent is one that
doubles have. -/
inductive Below (k : Int) : UnpackedFloat → Prop where
  | zero (s : Sign) : Below k (.zero s)
  | finite {s : Sign} {m : Nat} {e : Int} {hm : 0 < m} (place : (m.log2 : Int) + e ≤ k)
    (low : -1074 ≤ e) (high : e ≤ 971) : Below k (.finite s m e hm)

theorem Below.mono {j k : Int} {u : UnpackedFloat} (h : Below j u) (hjk : j ≤ k) : Below k u := by
  cases h with
  | zero s => exact .zero s
  | finite place low high => exact .finite (Int.le_trans place hjk) low high

section Rounding

theorem mantissa_shiftRight (em : ExtendedMantissa) (n : Nat) :
    (em >>> n).mantissa = em.mantissa / 2 ^ n := by
  induction n with
  | zero => simp [HShiftRight.hShiftRight, Nat.repeat]
  | succ n ih =>
    change (em >>> n).mantissa / 2 = _
    rw [ih, Nat.div_div_eq_div_mul, Nat.pow_succ]

theorem mantissa_ofMantissaAndAccuracy (m : Nat) (a : Accuracy) :
    (ExtendedMantissa.ofMantissaAndAccuracy m a).mantissa = m := by
  cases a with
  | exact => rfl
  | inexact o => cases o <;> rfl

theorem roundedMantissa_le (em : ExtendedMantissa) : em.roundedMantissa ≤ em.mantissa + 1 := by
  obtain ⟨m, r, s⟩ := em
  cases r <;> cases s <;>
    simp [ExtendedMantissa.roundedMantissa, ExtendedMantissa.accuracy,
      Accuracy.roundToNearestEven]
  omega

theorem log2_div_pow (m n : Nat) : (m / 2 ^ n).log2 = m.log2 - n := by
  rw [Nat.log2_eq_log_two, Nat.log2_eq_log_two, Nat.log_div_base_pow]

theorem log2_le_of_le_succ {m n : Nat} (h : n ≤ m + 1) : n.log2 ≤ m.log2 + 1 := by
  by_cases hn : n = 0
  · simp [hn]
  · have hlt : n < 2 ^ (m.log2 + 2) := by
      have hm := Nat.lt_log2_self (n := m)
      have hpow : 2 ^ (m.log2 + 2) = 2 ^ (m.log2 + 1) + 2 ^ (m.log2 + 1) := by
        rw [Nat.pow_succ, Nat.mul_two]
      have hpos := Nat.two_pow_pos (m.log2 + 1)
      omega
    have hlog := (Nat.log2_lt hn).mpr hlt
    omega

theorem le_roundedMantissa (em : ExtendedMantissa) : em.mantissa ≤ em.roundedMantissa := by
  obtain ⟨m, r, s⟩ := em
  cases r <;> cases s <;>
    simp [ExtendedMantissa.roundedMantissa, ExtendedMantissa.accuracy,
      Accuracy.roundToNearestEven]

theorem targetExponent_totalExponent (m : Nat) (e : Int) :
    Format.binary64.targetExponent (totalExponent m e) = max ((m.log2 : Int) + e - 52) (-1074) := by
  simp only [Format.targetExponent, totalExponent, Format.mantissaBits, Format.minExponent]
  norm_num
  omega

/-- How far a mantissa is from the precision of doubles. -/
def excess (m : Nat) (e : Int) : Nat := (max ((m.log2 : Int) + e - 52) (-1074) - e).toNat

theorem shiftToTargetExponent_eq (m : Nat) (e : Int) (a : Accuracy) :
    shiftToTargetExponent Format.binary64 m e a =
      (ExtendedMantissa.ofMantissaAndAccuracy m a >>> excess m e, e + excess m e) := by
  simp only [shiftToTargetExponent, targetExponent_totalExponent, shiftToExponent, excess]

/-- Rounding cuts the mantissa to the precision of doubles and adds to it what the cut tells. Where
that makes it longer, it is cut again. -/
theorem roundWithAccuracy_eq {s : Sign} {m : Nat} {e : Int} {a : Accuracy} {r : Nat}
    (hr : (ExtendedMantissa.ofMantissaAndAccuracy m a >>> excess m e).roundedMantissa = r) :
    roundWithAccuracy Format.binary64 s m e a =
      if h : r / 2 ^ excess r (e + excess m e) = 0 then .zero s
      else .finite s (r / 2 ^ excess r (e + excess m e))
        (e + excess m e + excess r (e + excess m e)) (Nat.pos_of_ne_zero h) := by
  simp only [roundWithAccuracy, shiftToTargetExponent_eq, hr, mantissa_shiftRight,
    mantissa_ofMantissaAndAccuracy]

theorem exists_roundWithAccuracy (s : Sign) (m : Nat) (e : Int) (a : Accuracy) :
    ∃ r, m / 2 ^ excess m e ≤ r ∧ r ≤ m / 2 ^ excess m e + 1 ∧
      roundWithAccuracy Format.binary64 s m e a =
        if h : r / 2 ^ excess r (e + excess m e) = 0 then .zero s
        else .finite s (r / 2 ^ excess r (e + excess m e))
          (e + excess m e + excess r (e + excess m e)) (Nat.pos_of_ne_zero h) := by
  have hcut : (ExtendedMantissa.ofMantissaAndAccuracy m a >>> excess m e).mantissa =
      m / 2 ^ excess m e := by
    rw [mantissa_shiftRight, mantissa_ofMantissaAndAccuracy]
  exact ⟨_, hcut ▸ le_roundedMantissa _, hcut ▸ roundedMantissa_le _, roundWithAccuracy_eq rfl⟩

theorem div_pow_pos_iff {m n : Nat} (hm : m ≠ 0) : 0 < m / 2 ^ n ↔ n ≤ m.log2 := by
  rw [Nat.div_pos_iff, Nat.le_log2 hm, and_iff_right (Nat.two_pow_pos n)]

/-- Rounding raises the magnitude by one place at most. -/
theorem below_roundWithAccuracy {k : Int} {m : Nat} {e : Int} (s : Sign) (a : Accuracy)
    (h : (m.log2 : Int) + e < k) (he : e ≤ 971) (hlow : -1073 ≤ k) (hhigh : k ≤ 1023) :
    Below k (roundWithAccuracy Format.binary64 s m e a) := by
  obtain ⟨r, -, hr, heq⟩ := exists_roundWithAccuracy s m e a
  have hround := log2_le_of_le_succ hr
  rw [log2_div_pow] at hround
  rw [heq]
  split
  · exact .zero s
  · rename_i hne
    have hr₀ : r ≠ 0 := by
      rintro rfl
      exact hne (Nat.zero_div _)
    have hcut := (div_pow_pos_iff hr₀).mp (Nat.pos_of_ne_zero hne)
    have hlog := log2_div_pow r (excess r (e + excess m e))
    unfold excess at *
    exact .finite (by omega) (by omega) (by omega)

end Rounding

section Packing

theorem isFinite_of_below {k : Int} {u : UnpackedFloat} (h : Below k u) : u.isFinite = true := by
  cases h <;> rfl

theorem toNat_one_append (m : BitVec Format.binary64.mantissaBitsWithoutImplicit) :
    (1#1 ++ m).toNat = 2 ^ 52 + m.toNat := by
  have hor : 2 ^ 52 * 1 + m.toNat = 2 ^ 52 * 1 ||| m.toNat :=
    Nat.two_pow_add_eq_or_of_lt m.isLt 1
  rw [BitVec.toNat_append, Nat.shiftLeft_eq]
  exact hor.symm

theorem below_unpack {k : Int} {b : BitVec Format.binary64.numBits}
    (h : unpackExponent b ≠ -1#_) (hk : ((unpackExponent b).toNat : Int) - 1023 ≤ k) :
    Below k (UnpackedFloat.unpack Format.binary64 b) := by
  unfold UnpackedFloat.unpack
  extract_lets mvec evec e svec s
  have hmlt : mvec.toNat < 2 ^ 52 := mvec.isLt
  have helt : evec.toNat < 2048 := evec.isLt
  have hne : evec.toNat ≠ 2047 := fun heq => h (BitVec.eq_of_toNat_eq heq)
  have hek : (evec.toNat : Int) - 1023 ≤ k := hk
  have he : e = (evec.toNat : Int) - 1075 := by
    simp only [e, Format.exponentBias]
    norm_num
  rw [if_neg h]
  split
  · rename_i hzero
    split
    · exact .zero _
    · rename_i hm
      have hpos : mvec.toNat ≠ 0 := fun h0 => hm (BitVec.eq_of_toNat_eq h0)
      have hlog := (Nat.log2_lt hpos).mpr hmlt
      have hz : evec.toNat = 0 := by rw [hzero]; rfl
      exact .finite (by omega) (by omega) (by omega)
  · rename_i hzero
    have hpos : evec.toNat ≠ 0 := fun h0 => hzero (BitVec.eq_of_toNat_eq h0)
    have hm : (1#1 ++ mvec).toNat = 2 ^ 52 + mvec.toNat := toNat_one_append mvec
    have hlog : (1#1 ++ mvec).toNat.log2 = 52 := by
      rw [hm, Nat.log2_eq_iff (by omega)]
      omega
    exact .finite (by omega) (by omega) (by omega)

theorem isFinite_unpack_iff (b : BitVec Format.binary64.numBits) :
    (UnpackedFloat.unpack Format.binary64 b).isFinite = true ↔ unpackExponent b ≠ -1#_ := by
  constructor
  · intro h heq
    unfold UnpackedFloat.unpack at h
    simp only [heq, if_true] at h
    split at h <;> cases h
  · exact fun h => isFinite_of_below (below_unpack h (Int.le_refl _))

theorem pack_finite (s : Sign) (m : Nat) (e : Int) (hm : 0 < m) :
    UnpackedFloat.pack Format.binary64 (.finite s m e hm) =
      if 2 ^ 11 ≤ (e + 1075).toNat + 1 then packedInfinity Format.binary64 s
      else if m.log2 = 52 then
        packComponents Format.binary64 s (BitVec.ofNat 11 (e + 1075).toNat) (BitVec.ofNat 52 m)
      else packComponents Format.binary64 s 0#11 (BitVec.ofNat 52 m) := by
  have hbias : e + Format.binary64.exponentBias + Format.binary64.mantissaBitsWithoutImplicit =
      e + 1075 := by
    simp only [Format.exponentBias]
    norm_num
    omega
  have hbits : m.log2 + 1 = Format.binary64.mantissaBits ↔ m.log2 = 52 := Nat.add_left_inj
  rw [← hbias, UnpackedFloat.pack]
  exact if_congr Iff.rfl rfl (if_congr hbits rfl rfl)

theorem below_unpack_pack {k : Int} {u : UnpackedFloat} (h : Below k u) (hk : -1023 ≤ k) :
    Below k (UnpackedFloat.unpack Format.binary64 (UnpackedFloat.pack Format.binary64 u)) := by
  cases h with
  | zero s =>
    have hzero : UnpackedFloat.unpack Format.binary64 (packedZero Format.binary64 s) =
        .zero (Sign.ofBitVec (unpackSign (packedZero Format.binary64 s))) := by
      unfold UnpackedFloat.unpack
      simp only [packedZero, unpackExponent_packComponents, unpackMantissa_packComponents]
      rfl
    rw [UnpackedFloat.pack, hzero]
    exact .zero _
  | @finite s m e hm place low high =>
    rw [pack_finite, if_neg (by omega)]
    split
    · rename_i hlog
      have hbits : (BitVec.ofNat 11 (e + 1075).toNat).toNat = (e + 1075).toNat := by
        rw [BitVec.toNat_ofNat, Nat.mod_eq_of_lt (by omega)]
      apply below_unpack <;> rw [unpackExponent_packComponents]
      · intro heq
        have hmax : (BitVec.ofNat 11 (e + 1075).toNat).toNat = 2047 := by rw [heq]; rfl
        omega
      · omega
    · apply below_unpack <;> rw [unpackExponent_packComponents]
      · decide
      · simpa using hk

theorem toNat_unpackExponent_lt {b : BitVec Format.binary64.numBits} (h : unpackExponent b ≠ -1#_) :
    (unpackExponent b).toNat < 2047 := by
  have hlt : (unpackExponent b).toNat < 2048 := (unpackExponent b).isLt
  have hmax : (unpackExponent b).toNat ≠ 2047 := fun heq => h (BitVec.eq_of_toNat_eq heq)
  omega

theorem isFinite_iff_below (x : Float) : x.isFinite = true ↔ Below 1023 x.toModel.unpack := by
  constructor
  · intro h
    have hne := (isFinite_unpack_iff _).mp h
    refine below_unpack hne ?_
    have hlt := toNat_unpackExponent_lt hne
    omega
  · exact isFinite_of_below

theorem below_pack {k : Int} {u : UnpackedFloat} (h : Below k u) (hk : -1023 ≤ k) :
    Below k (Float.Model.pack u).unpack := by
  simpa [Float.Model.pack, Float.Model.unpack] using below_unpack_pack h hk

end Packing

section Arithmetic

theorem log2_mul_le (m n : Nat) : (m * n).log2 ≤ m.log2 + n.log2 + 1 := by
  by_cases h : m * n = 0
  · simp [h]
  · have hm := Nat.lt_log2_self (n := m)
    have hn := Nat.lt_log2_self (n := n)
    have hlt : m * n < 2 ^ (m.log2 + 1) * 2 ^ (n.log2 + 1) := Nat.mul_lt_mul'' hm hn
    rw [← Nat.pow_add] at hlt
    have hlog := (Nat.log2_lt h).mpr hlt
    omega

theorem log2_shiftLeft_le (m k : Nat) : (m <<< k).log2 ≤ m.log2 + k := by
  by_cases h : m = 0
  · simp [h]
  · have hlt : m <<< k < 2 ^ (m.log2 + k + 1) := by
      rw [Nat.shiftLeft_eq, Nat.add_right_comm, Nat.pow_add]
      exact Nat.mul_lt_mul_of_pos_right Nat.lt_log2_self (Nat.two_pow_pos k)
    have hne : m <<< k ≠ 0 := by simpa [Nat.shiftLeft_eq] using h
    have hlog := (Nat.log2_lt hne).mpr hlt
    omega

theorem log2_div_le {m n k : Nat} (hn : 0 < n) (h : m.log2 ≤ n.log2 + k) : (m / n).log2 ≤ k := by
  by_cases hq : m / n = 0
  · simp [hq]
  · have hlow : 2 ^ n.log2 ≤ n := Nat.log2_self_le (Nat.ne_of_gt hn)
    have hm : m < 2 ^ (n.log2 + k + 1) :=
      Nat.lt_of_lt_of_le Nat.lt_log2_self (Nat.pow_le_pow_right (by decide) (by omega))
    have hlt : m / n < 2 ^ (k + 1) := by
      rw [Nat.div_lt_iff_lt_mul hn]
      calc m < 2 ^ (k + 1) * 2 ^ n.log2 := by rw [← Nat.pow_add]; convert hm using 2; omega
        _ ≤ 2 ^ (k + 1) * n := Nat.mul_le_mul_left _ hlow
    have hlog := (Nat.log2_lt hq).mpr hlt
    omega

theorem below_mul {j k : Int} {u v : UnpackedFloat} (hu : Below j u) (hv : Below k v)
    (hlow : -1075 ≤ j + k) (hhigh : j + k ≤ 971) :
    Below (j + k + 2) (UnpackedFloat.mul Format.binary64 u v) := by
  cases hu with
  | zero s => cases hv <;> exact .zero _
  | @finite s m e hm _ _ _ =>
    cases hv with
    | zero t => exact .zero _
    | @finite t n f hn _ _ _ =>
      have hlog := log2_mul_le m n
      exact below_roundWithAccuracy _ _ (by omega) (by omega) (by omega) (by omega)

/-- The first binary digit of the number has the place `k` at least. -/
def above (k : Int) : UnpackedFloat → Bool
  | .finite _ m e _ => k ≤ (m.log2 : Int) + e
  | .zero _ | .infinity _ | .notANumber => false

theorem targetExponent_eq (m n : Nat) (e f : Int) :
    Format.binary64.targetExponent (totalExponent m e - totalExponent n f) =
      max ((m.log2 : Int) + e - (n.log2 + f) - 53) (-1074) := by
  simp only [Format.targetExponent, totalExponent, Format.mantissaBits, Format.minExponent]
  norm_num
  omega

theorem divCore_le {i j : Int} {m n : Nat} {e f : Int} (hm : (m.log2 : Int) + e ≤ j)
    (hn : 0 < n) (hf : i ≤ (n.log2 : Int) + f) (hlow : -1074 ≤ j - i) (hhigh : j - i ≤ 1022) :
    ((divCore Format.binary64 m e n f).1.log2 : Int) + (divCore Format.binary64 m e n f).2.1 <
        j - i + 1 ∧
      (divCore Format.binary64 m e n f).2.1 ≤ 971 := by
  simp only [divCore, targetExponent_eq]
  generalize ht : min (e - f) (max ((m.log2 : Int) + e - (n.log2 + f) - 53) (-1074)) = t
  have hshift := log2_shiftLeft_le m (e - f - t).toNat
  have hquotient := log2_div_le (m := m <<< (e - f - t).toNat)
    (k := ((m.log2 : Int) + (e - f - t) - n.log2).toNat) hn (by omega)
  omega

theorem below_div {i j : Int} {u v : UnpackedFloat} (hu : Below j u) (hv : above i v = true)
    (hlow : -1074 ≤ j - i) (hhigh : j - i ≤ 1022) :
    Below (j - i + 1) (UnpackedFloat.div Format.binary64 u v) := by
  cases v with
  | zero t | infinity t | notANumber => cases hv
  | finite t n f hn =>
    cases hu with
    | zero s => exact .zero _
    | @finite s m e hm place _ _ =>
      obtain ⟨hplace, hexponent⟩ := divCore_le place hn (by simpa [above] using hv) hlow hhigh
      exact below_roundWithAccuracy _ _ hplace hexponent (by omega) (by omega)

theorem below_neg {k : Int} {u : UnpackedFloat} (h : Below k u) : Below k u.neg := by
  cases h with
  | zero s => exact .zero _
  | finite place low high => exact .finite place low high

theorem isFinite_div {x y : Float} (hx : x.isFinite = true) (hy : above 1 y.toModel.unpack = true) :
    (x / y).isFinite = true := by
  rw [isFinite_iff_below] at hx ⊢
  exact below_pack (below_div (i := 1) hx hy (by decide) (by decide)) (by decide)

theorem isFinite_neg {x : Float} (hx : x.isFinite = true) : (-x).isFinite = true := by
  rw [isFinite_iff_below] at hx ⊢
  exact below_pack (below_neg hx) (by decide)

theorem toNat_unpackExponent (b : BitVec Format.binary64.numBits) :
    (unpackExponent b).toNat = b.toNat / 2 ^ 52 % 2048 := by
  simp [unpackExponent, BitVec.extractLsb, Nat.shiftRight_eq_div_pow]

theorem isFinite_ofBits {b : Nat} (h : b < 2047 * Nat.pow 2 52) :
    (Float.ofBits (UInt64.ofNat b)).isFinite = true := by
  have hb : (UInt64.ofNat b).toBitVec.toNat = b := by
    rw [UInt64.toNat_toBitVec, UInt64.toNat_ofNat']
    exact Nat.mod_eq_of_lt (Nat.lt_trans h (by decide))
  have hfield := toNat_unpackExponent (UInt64.ofNat b).toBitVec
  have hlt : b / 2 ^ 52 < 2047 := Nat.div_lt_of_lt_mul (by rwa [Nat.mul_comm])
  rw [hb, Nat.mod_eq_of_lt (Nat.lt_trans hlt (by decide))] at hfield
  rw [isFinite_iff_below]
  refine below_pack (below_unpack ?_ ?_) (by decide)
  · intro heq
    have hmax : b / 2 ^ 52 = 2047 := hfield.symm.trans (congrArg BitVec.toNat heq)
    omega
  · rw [hfield]
    omega

theorem below_round {k : Int} {m : Nat} {e : Int} (s : Sign) (h : (m.log2 : Int) + e < k)
    (he : e ≤ 971) (hlow : -1073 ≤ k) (hhigh : k ≤ 1023) :
    Below k (UnpackedFloat.round Format.binary64 s m e) := by
  unfold UnpackedFloat.round decreaseExponent
  generalize Format.binary64.targetExponent (totalExponent m e) = t
  have hshift := log2_shiftLeft_le m (e - t).toNat
  exact below_roundWithAccuracy _ _ (by omega) (by omega) hlow hhigh

theorem below_ofNat {n : Nat} (h : n < UInt64.size) :
    Below 64 (UnpackedFloat.ofNat Format.binary64 n) := by
  unfold UnpackedFloat.ofNat UnpackedFloat.ofInt UnpackedFloat.normalize
  split
  · rename_i hlt
    rw [Int.compare_eq_lt] at hlt
    omega
  · exact .zero _
  · rename_i hgt
    rw [Int.compare_eq_gt] at hgt
    have hlog : n.log2 < 64 := (Nat.log2_lt (by omega)).mpr h
    exact below_round _ (by simpa using hlog) (by decide) (by decide) (by decide)

theorem below_ofScientific {n : Nat} (h : n < UInt64.size) :
    Below 65 (UnpackedFloat.ofScientific Format.binary64 n 0) := by
  unfold UnpackedFloat.ofScientific
  split
  · exact .zero _
  · rename_i hn
    have hlog : n.log2 < 64 := (Nat.log2_lt hn).mpr h
    have hshift := log2_shiftLeft_le n Format.binary64.mantissaBits
    have hbits : (2 : Int) ^ Format.binary64.exponentBits = 2048 := rfl
    have hmantissa : Format.binary64.mantissaBits = 53 := rfl
    rw [hbits, if_neg (by decide), if_neg (by omega), if_pos (by decide)]
    refine below_mul (j := 63) (k := 0) (.finite ?_ ?_ ?_) (.finite ?_ ?_ ?_) (by decide) (by decide)
    · omega
    all_goals decide

theorem isFinite_ofNat {n : Nat} (h : n < UInt64.size) : (Float.ofNat n).isFinite = true := by
  rw [isFinite_iff_below]
  change Below 1023 (Float.ofScientific n false 0).toModel.unpack
  unfold Float.ofScientific
  split
  · have hone : Below 0 (Float.exactlyRepresentablePowersOfTen[0]).toModel.unpack :=
      .finite (by decide) (by decide) (by decide)
    have hn := below_pack (below_ofNat n.toUInt64.toNat_lt) (by decide)
    have hproduct := below_pack (below_mul hn hone (by decide) (by decide)) (by decide)
    exact Below.mono (j := 66) hproduct (by decide)
  · have hscientific := below_pack (below_ofScientific h) (by decide)
    exact Below.mono (j := 65) hscientific (by decide)

theorem isFinite_ofInt {n : Int} (h : n.natAbs < UInt64.size) : (Float.ofInt n).isFinite = true := by
  cases n with
  | ofNat n => exact isFinite_ofNat h
  | negSucc n => exact isFinite_neg (isFinite_ofNat h)

end Arithmetic

end Storyboard.Binary64

namespace Storyboard

def AllFinite (xs : List Float) : Prop := ∀ x ∈ xs, x.isFinite = true

instance : DecidablePred AllFinite := fun xs =>
  inferInstanceAs (Decidable (∀ x ∈ xs, x.isFinite = true))

@[simp] theorem allFinite_nil : AllFinite [] := by simp [AllFinite]

@[simp] theorem allFinite_cons {x : Float} {xs : List Float} :
    AllFinite (x :: xs) ↔ x.isFinite = true ∧ AllFinite xs := List.forall_mem_cons

@[simp] theorem allFinite_append {xs ys : List Float} :
    AllFinite (xs ++ ys) ↔ AllFinite xs ∧ AllFinite ys := List.forall_mem_append

@[simp] theorem allFinite_toList {o : Option Float} :
    AllFinite o.toList ↔ ∀ x ∈ o, x.isFinite = true := by simp [AllFinite]

@[simp] theorem allFinite_flatMap {α : Type} {f : α → List Float} {as : List α} :
    AllFinite (as.flatMap f) ↔ ∀ a ∈ as, AllFinite (f a) := List.forall_mem_flatMap

end Storyboard
