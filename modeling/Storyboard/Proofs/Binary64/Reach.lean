import Storyboard.Proofs.Binary64.Rank

set_option autoImplicit false

/-!
Doubles that stay above zero. A number reaches a power of two if it is not below it; products and
quotients reach what their terms say, as long as that is not below the least double, and so does
what they are rounded to.
-/

namespace Storyboard.Binary64
open Float.Model Float.Model.UnpackedFloat

def Normal (m : Nat) (e : Int) : Prop := m.log2 = 52 ∧ -1074 ≤ e ∨ m.log2 < 52 ∧ e = -1074

instance (m : Nat) (e : Int) : Decidable (Normal m e) :=
  inferInstanceAs (Decidable (_ ∨ _))

/-- The number is `2 ^ k` at least and may be infinite. -/
inductive Reaches (k : Int) : UnpackedFloat → Prop where
  | finite {m : Nat} {e : Int} {hm : 0 < m} (normal : Normal m e) (place : k ≤ (m.log2 : Int) + e) :
    Reaches k (.finite .positive m e hm)
  | infinity : Reaches k (.infinity .positive)

variable {j k : Int} {u v : UnpackedFloat}

theorem Normal.le_exponent {m : Nat} {e : Int} (h : Normal m e) : -1074 ≤ e := by
  unfold Normal at h
  omega

theorem Normal.le_place {m : Nat} {e : Int} (h : Normal m e) : -1074 ≤ (m.log2 : Int) + e := by
  unfold Normal at h
  omega

theorem Reaches.mono (h : Reaches k u) (hjk : j ≤ k) : Reaches j u := by
  cases h with
  | finite normal place => exact .finite normal (Int.le_trans hjk place)
  | infinity => exact .infinity

theorem Reaches.least (h : Reaches k u) : Reaches (-1074) u := by
  cases h with
  | finite normal _ => exact .finite normal normal.le_place
  | infinity => exact .infinity

section Rounding

theorem log2_mono {m n : Nat} (h : m ≤ n) : m.log2 ≤ n.log2 := by
  rw [Nat.log2_eq_log_two, Nat.log2_eq_log_two]
  exact Nat.log_mono_right h

theorem normal_roundWithAccuracy {m : Nat} {e : Int} (s : Sign) (a : Accuracy) (hm : 0 < m)
    (h : 52 ≤ m.log2 ∨ e ≤ -1074) (hplace : k ≤ (m.log2 : Int) + e) (hk : -1074 ≤ k) :
    ∃ n f hn, roundWithAccuracy Format.binary64 s m e a = .finite s n f hn ∧ Normal n f ∧
      k ≤ (n.log2 : Int) + f := by
  obtain ⟨r, hle, hr, heq⟩ := exists_roundWithAccuracy s m e a
  have hup := log2_le_of_le_succ hr
  have hdown := log2_mono hle
  rw [log2_div_pow] at hup hdown
  have hcut : 0 < m / 2 ^ excess m e :=
    (div_pow_pos_iff (Nat.ne_of_gt hm)).mpr (by unfold excess; omega)
  have hcut' : 0 < r / 2 ^ excess r (e + excess m e) :=
    (div_pow_pos_iff (Nat.ne_of_gt (hcut.trans_le hle))).mpr (by unfold excess at *; omega)
  have hlog := log2_div_pow r (excess r (e + excess m e))
  rw [heq, dif_neg (Nat.ne_of_gt hcut')]
  refine ⟨_, _, _, rfl, ?_, ?_⟩ <;> unfold excess at *
  · unfold Normal
    omega
  · omega

theorem reaches_roundWithAccuracy {m : Nat} {e : Int} (a : Accuracy) (hm : 0 < m)
    (h : 52 ≤ m.log2 ∨ e ≤ -1074) (hplace : k ≤ (m.log2 : Int) + e) (hk : -1074 ≤ k) :
    Reaches k (roundWithAccuracy Format.binary64 .positive m e a) := by
  obtain ⟨n, f, hn, heq, hnormal, hle⟩ := normal_roundWithAccuracy .positive a hm h hplace hk
  exact heq ▸ .finite hnormal hle

end Rounding

section Packing

theorem toNat_packComponents (s : Sign) (e : BitVec Format.binary64.exponentBits)
    (m : BitVec Format.binary64.mantissaBitsWithoutImplicit) :
    (packComponents Format.binary64 s e m).toNat =
      s.toBitVec.toNat * 2 ^ 63 + e.toNat * 2 ^ 52 + m.toNat := by
  have happend : (packComponents Format.binary64 s e m).toNat =
      (s.toBitVec ++ e).toNat <<< 52 ||| m.toNat := BitVec.toNat_append _ _
  have hfield : (s.toBitVec ++ e).toNat = s.toBitVec.toNat <<< 11 ||| e.toNat :=
    BitVec.toNat_append _ _
  rw [happend, hfield, Nat.shiftLeft_eq, Nat.shiftLeft_eq, Nat.mul_comm _ (2 ^ 11),
    ← Nat.two_pow_add_eq_or_of_lt e.isLt, Nat.mul_comm _ (2 ^ 52),
    ← Nat.two_pow_add_eq_or_of_lt m.isLt]
  ring

theorem Normal.lt_pow {m : Nat} {e : Int} (h : Normal m e) (hm : 0 < m) : m < 2 ^ 53 := by
  refine (Nat.log2_lt (Nat.ne_of_gt hm)).mp ?_
  unfold Normal at h
  omega

/-- A double has the mantissa as its bits, and a further place for each step of the exponent, behind
the bit of its sign. -/
theorem toNat_pack {s : Sign} {m : Nat} {e : Int} (hm : 0 < m) (h : Normal m e) (he : e ≤ 971) :
    (UnpackedFloat.pack Format.binary64 (.finite s m e hm)).toNat =
      s.toBitVec.toNat * 2 ^ 63 + (e + 1074).toNat * 2 ^ 52 + m := by
  have hlt := h.lt_pow hm
  rw [pack_finite]
  rcases h with ⟨hlog, hlow⟩ | ⟨hlog, rfl⟩
  · have hle : 2 ^ 52 ≤ m := hlog ▸ Nat.log2_self_le (Nat.ne_of_gt hm)
    have hexp : (BitVec.ofNat 11 (e + 1075).toNat).toNat = (e + 1075).toNat := by
      rw [BitVec.toNat_ofNat, Nat.mod_eq_of_lt (by omega)]
    have hmantissa : (BitVec.ofNat 52 m).toNat = m - 2 ^ 52 := by
      rw [BitVec.toNat_ofNat]
      omega
    rw [if_neg (by omega), if_pos hlog, toNat_packComponents, hexp, hmantissa]
    omega
  · have hmantissa : (BitVec.ofNat 52 m).toNat = m := by
      rw [BitVec.toNat_ofNat, Nat.mod_eq_of_lt ((Nat.log2_lt (Nat.ne_of_gt hm)).mp hlog)]
    have hzero : (0#11).toNat = ((-1074 : Int) + 1074).toNat := rfl
    rw [if_neg (by decide), if_neg (Nat.ne_of_lt hlog), toNat_packComponents, hmantissa, hzero]

theorem unpack_pack_of_normal {s : Sign} {m : Nat} {e : Int} {hm : 0 < m} (h : Normal m e)
    (he : e ≤ 971) : (Float.Model.pack (.finite s m e hm)).unpack = .finite s m e hm := by
  have hlt := h.lt_pow hm
  have hlow : -1074 ≤ e ∧ (2 ^ 52 ≤ m ∨ e = -1074 ∧ m < 2 ^ 52) := by
    rcases h with ⟨hlog, hlow⟩ | ⟨hlog, rfl⟩
    · exact ⟨hlow, .inl (hlog ▸ Nat.log2_self_le (Nat.ne_of_gt hm))⟩
    · exact ⟨le_rfl, .inr ⟨rfl, (Nat.log2_lt (Nat.ne_of_gt hm)).mp hlog⟩⟩
  let x : Float := ⟨Float.Model.pack (.finite s m e hm)⟩
  have hbits : x.toBits.toNat = s.toBitVec.toNat * 2 ^ 63 + (e + 1074).toNat * 2 ^ 52 + m :=
    toNat_pack hm h he
  have hmagnitude : magnitude x = (e + 1074).toNat * 2 ^ 52 + m := by
    rw [magnitude, hbits]
    omega
  have hfinite : x.isFinite = true := by
    rw [isFinite_iff_magnitude, hmagnitude]
    omega
  have hsign : signOf x.toBits.toNat = s := by
    rw [signOf, hbits]
    cases s with
    | negative => exact if_neg (by simp only [Sign.toBitVec, BitVec.toNat_ofNat]; omega)
    | positive => exact if_pos (by simp only [Sign.toBitVec, BitVec.toNat_ofNat]; omega)
  change x.toModel.unpack = _
  obtain ⟨hzero, -⟩ | ⟨-, hpos, hunpack⟩ := unpack_eq_of_isFinite hfinite
  · omega
  · rw [hunpack, UnpackedFloat.finite.injEq, hsign, hmagnitude, mantissaOf, exponentOf]
    refine ⟨rfl, ?_, ?_⟩
    · split <;> omega
    · omega

theorem unpack_pack_of_lt {m : Nat} {e : Int} {hm : 0 < m} (he : 971 < e) :
    (Float.Model.pack (.finite .positive m e hm)).unpack = .infinity .positive := by
  change UnpackedFloat.unpack Format.binary64 (UnpackedFloat.pack Format.binary64 _) = _
  rw [pack_finite, if_pos (by omega)]
  rfl

theorem reaches_pack (h : Reaches k u) : Reaches k (Float.Model.pack u).unpack := by
  cases h with
  | infinity => exact .infinity
  | @finite m e hm normal place =>
    rcases Int.lt_or_le 971 e with he | he
    · rw [unpack_pack_of_lt he]
      exact .infinity
    · rw [unpack_pack_of_normal normal he]
      exact .finite normal place

end Packing

section Arithmetic

theorem le_log2_mul {m n : Nat} (hm : 0 < m) (hn : 0 < n) : m.log2 + n.log2 ≤ (m * n).log2 := by
  rw [Nat.le_log2 (Nat.ne_of_gt (Nat.mul_pos hm hn)), Nat.pow_add]
  exact Nat.mul_le_mul (Nat.log2_self_le (Nat.ne_of_gt hm)) (Nat.log2_self_le (Nat.ne_of_gt hn))

theorem le_log2_shiftLeft {m : Nat} (hm : 0 < m) (k : Nat) : m.log2 + k ≤ (m <<< k).log2 := by
  have h := le_log2_mul hm (Nat.two_pow_pos k)
  rwa [Nat.log2_two_pow, ← Nat.shiftLeft_eq] at h

theorem le_log2_div {m n k : Nat} (hn : 0 < n) (h : n.log2 + 1 + k ≤ m.log2) :
    0 < m / n ∧ k ≤ (m / n).log2 := by
  have hm : m ≠ 0 := by
    rintro rfl
    simp at h
  have hpow : 2 ^ k ≤ m / n := by
    rw [Nat.le_div_iff_mul_le hn]
    calc 2 ^ k * n ≤ 2 ^ k * 2 ^ (n.log2 + 1) := Nat.mul_le_mul_left _ Nat.lt_log2_self.le
      _ = 2 ^ (n.log2 + 1 + k) := by rw [← Nat.pow_add, Nat.add_comm]
      _ ≤ 2 ^ m.log2 := Nat.pow_le_pow_right (by decide) h
      _ ≤ m := Nat.log2_self_le hm
  have hpos : 0 < m / n := (Nat.two_pow_pos k).trans_le hpow
  exact ⟨hpos, (Nat.le_log2 (Nat.ne_of_gt hpos)).mpr hpow⟩

theorem normal_round {m : Nat} {e : Int} (s : Sign) (hm : 0 < m) (hplace : k ≤ (m.log2 : Int) + e)
    (hk : -1074 ≤ k) :
    ∃ n f hn, UnpackedFloat.round Format.binary64 s m e = .finite s n f hn ∧ Normal n f ∧
      k ≤ (n.log2 : Int) + f := by
  unfold UnpackedFloat.round decreaseExponent
  rw [targetExponent_totalExponent]
  have hlog := le_log2_shiftLeft hm (e - max ((m.log2 : Int) + e - 52) (-1074)).toNat
  exact normal_roundWithAccuracy s _ (Nat.shiftLeft_pos_iff.mpr hm) (by omega) (by omega) hk

theorem reaches_round {m : Nat} {e : Int} (hm : 0 < m) (hplace : k ≤ (m.log2 : Int) + e)
    (hk : -1074 ≤ k) : Reaches k (UnpackedFloat.round Format.binary64 .positive m e) := by
  obtain ⟨n, f, hn, heq, hnormal, hle⟩ := normal_round .positive hm hplace hk
  exact heq ▸ .finite hnormal hle

theorem reaches_mul (hu : Reaches j u) (hv : Reaches k v) (h : -1074 ≤ j + k) :
    Reaches (j + k) (UnpackedFloat.mul Format.binary64 u v) := by
  cases hu with
  | infinity => cases hv <;> exact .infinity
  | @finite m e hm normal place =>
    cases hv with
    | infinity => exact .infinity
    | @finite n f hn normal' place' =>
      have hlog := le_log2_mul hm hn
      unfold Normal at normal normal'
      exact reaches_roundWithAccuracy _ (Nat.mul_pos hm hn) (by omega) (by omega) h

theorem le_divCore {m n : Nat} {e f : Int} (hm : 0 < m) (hn : 0 < n)
    (h : -1074 ≤ (m.log2 : Int) + e - (n.log2 + f) - 1) :
    0 < (divCore Format.binary64 m e n f).1 ∧
      (m.log2 : Int) + e - (n.log2 + f) - 1 ≤
        (divCore Format.binary64 m e n f).1.log2 + (divCore Format.binary64 m e n f).2.1 ∧
      (52 ≤ (divCore Format.binary64 m e n f).1.log2 ∨
        (divCore Format.binary64 m e n f).2.1 ≤ -1074) := by
  simp only [divCore, targetExponent_eq]
  generalize ht : min (e - f) (max ((m.log2 : Int) + e - (n.log2 + f) - 53) (-1074)) = t
  have hshift := le_log2_shiftLeft hm (e - f - t).toNat
  have hquotient := le_log2_div (m := m <<< (e - f - t).toNat)
    (k := ((m.log2 : Int) + (e - f - t) - n.log2 - 1).toNat) hn (by omega)
  refine ⟨hquotient.1, by omega, by omega⟩

theorem reaches_div {i : Int} (hu : Reaches j u) (hv : Reaches i v) (hbelow : Below k v)
    (h : -1074 ≤ j - k - 1) : Reaches (j - k - 1) (UnpackedFloat.div Format.binary64 u v) := by
  cases hv with
  | infinity => cases hbelow
  | @finite n f hn normal' _ =>
    cases hbelow with
    | finite place' _ _ =>
      cases hu with
      | infinity => exact .infinity
      | @finite m e hm normal place =>
        have hterms : j - k - 1 ≤ (m.log2 : Int) + e - (n.log2 + f) - 1 := by omega
        obtain ⟨hpos, hplace, hform⟩ := le_divCore hm hn (h.trans hterms)
        exact reaches_roundWithAccuracy _ hpos hform (hterms.trans hplace) h

end Arithmetic

section Order
variable {x y : Float}

theorem normal_of_unpack {s : Sign} {m : Nat} {e : Int} {hm : 0 < m}
    (h : x.toModel.unpack = .finite s m e hm) : Normal m e := by
  have hfinite : x.isFinite = true := by
    change x.toModel.unpack.isFinite = true
    rw [h]
    rfl
  obtain ⟨-, hzero⟩ | ⟨hne, hpos, hunpack⟩ := unpack_eq_of_isFinite hfinite
  · rw [h] at hzero
    cases hzero
  · rw [h, UnpackedFloat.finite.injEq] at hunpack
    obtain ⟨-, hmantissa, hexponent⟩ := hunpack
    rw [mantissaOf] at hmantissa
    rw [exponentOf] at hexponent
    unfold Normal
    split at hmantissa
    · have hlog := (Nat.log2_lt (Nat.ne_of_gt hm)).mpr (by omega : m < 2 ^ 52)
      omega
    · have hlog := (Nat.log2_eq_iff (Nat.ne_of_gt hm)).mpr (by omega : 2 ^ 52 ≤ m ∧ m < 2 ^ 53)
      omega

theorem zero_lt_iff : (0.0 : Float) < x ↔ Reaches (-1074) x.toModel.unpack := by
  have hzero : placeOf 0.0 = toLex (0, toLex (0, 0)) := by decide
  have hnumber : (0.0 : Float).isNaN = false := by decide
  rw [float_lt_iff, hzero, placeOf]
  change (_ ∧ x.toModel.unpack.isNaN = false ∧ _) ↔ _
  constructor
  · rintro ⟨-, hnan, hlt⟩
    cases hu : x.toModel.unpack with
    | notANumber => rw [hu] at hnan; cases hnan
    | zero s => rw [hu] at hlt; exact absurd hlt (lt_irrefl _)
    | infinity s =>
      cases s with
      | positive => exact .infinity
      | negative => rw [hu] at hlt; simp [place, Prod.Lex.toLex_lt_toLex] at hlt
    | finite s m e hm =>
      cases s with
      | negative => rw [hu] at hlt; simp [place, Prod.Lex.toLex_lt_toLex] at hlt
      | positive =>
        have hnormal := normal_of_unpack hu
        exact .finite hnormal hnormal.le_place
  · intro h
    generalize x.toModel.unpack = u at h
    cases h <;> exact ⟨hnumber, rfl, by simp [place, Prod.Lex.toLex_lt_toLex]⟩

theorem exponent_le_of_place_le {m n : Nat} {e f : Int} {hm : 0 < m} {hn : 0 < n}
    (h : place (.finite .positive m e hm) ≤ place (.finite .positive n f hn)) : e ≤ f := by
  simp only [place, Prod.Lex.toLex_le_toLex, lt_self_iff_false, true_and, false_or] at h
  omega

/-- Among numbers in the form of doubles, the first digit of a larger one has no lower place. -/
theorem log2_add_le_of_place_le {m n : Nat} {e f : Int} {hm : 0 < m} {hn : 0 < n}
    (hu : Normal m e) (hv : Normal n f)
    (h : place (.finite .positive m e hm) ≤ place (.finite .positive n f hn)) :
    (m.log2 : Int) + e ≤ n.log2 + f := by
  simp only [place, Prod.Lex.toLex_le_toLex, lt_self_iff_false, true_and, false_or,
    Nat.cast_le] at h
  have hlog : m ≤ n → m.log2 ≤ n.log2 := log2_mono
  unfold Normal at hu hv
  omega

theorem Reaches.of_le (h : Reaches k x.toModel.unpack) (hxy : x ≤ y) :
    Reaches k y.toModel.unpack := by
  have hy := zero_lt_iff.mp (float_lt_of_lt_of_le (zero_lt_iff.mpr h.least) hxy)
  have hle : place x.toModel.unpack ≤ place y.toModel.unpack := (float_le_iff.mp hxy).2.2
  generalize x.toModel.unpack = u at h hle
  generalize y.toModel.unpack = v at hy hle
  cases hy with
  | infinity => exact .infinity
  | finite hv _ =>
    cases h with
    | infinity => simp [place, Prod.Lex.toLex_le_toLex] at hle
    | finite hu hplace => exact .finite hv (hplace.trans (log2_add_le_of_place_le hu hv hle))

theorem Below.of_le (h : Below k y.toModel.unpack) (hx : Reaches j x.toModel.unpack)
    (hxy : x ≤ y) : Below k x.toModel.unpack := by
  have hy := hx.least.of_le hxy
  have hle : place x.toModel.unpack ≤ place y.toModel.unpack := (float_le_iff.mp hxy).2.2
  generalize x.toModel.unpack = u at hx hle
  generalize y.toModel.unpack = v at h hy hle
  cases hy with
  | infinity => cases h
  | finite hv _ =>
    cases hx with
    | infinity => simp [place, Prod.Lex.toLex_le_toLex] at hle
    | finite hu _ =>
      cases h with
      | finite hplace _ hhigh =>
        have hexponent : _ ≤ _ := exponent_le_of_place_le hle
        exact .finite ((log2_add_le_of_place_le hu hv hle).trans hplace) hu.le_exponent
          (hexponent.trans hhigh)

end Order

end Storyboard.Binary64
