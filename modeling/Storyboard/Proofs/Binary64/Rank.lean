import Storyboard.Proofs.Binary64
import Storyboard.Proofs.Binary64.Order

set_option autoImplicit false

/-!
The rank of doubles, by which documents are sorted. Among finite doubles it agrees with their order
by value, and what it places between two finite doubles is finite.
-/

namespace Storyboard.Binary64
open Float.Model Float.Model.UnpackedFloat

def magnitude (x : Float) : Nat := x.toBits.toNat % 2 ^ 63

theorem toNat_unpackMantissa (b : BitVec Format.binary64.numBits) :
    (unpackMantissa b).toNat = b.toNat % 2 ^ 52 := by
  simp [unpackMantissa, BitVec.extractLsb]

def signOf (b : Nat) : Sign := if b < 2 ^ 63 then .positive else .negative

theorem ofBitVec_unpackSign (b : BitVec Format.binary64.numBits) :
    Sign.ofBitVec (unpackSign b) = signOf b.toNat := by
  have hlt : b.toNat < 2 ^ 64 := b.isLt
  have hbit : (unpackSign b).toNat = b.toNat / 2 ^ 63 % 2 := by
    simp [unpackSign, BitVec.extractLsb, Nat.shiftRight_eq_div_pow]
  have hzero : (unpackSign b = 0#1) ↔ b.toNat < 2 ^ 63 := by
    rw [← BitVec.toNat_inj, hbit]
    change b.toNat / 2 ^ 63 % 2 = 0 ↔ _
    omega
  simp only [Sign.ofBitVec, hzero, signOf]

theorem rank_eq (x : Float) :
    rank x = if x.toBits.toNat < 2 ^ 63 then (magnitude x : Int) else -1 - magnitude x := by
  have hlt : x.toBits.toNat < 2 ^ 64 := x.toBits.toNat_lt
  have hmax : Int64.maxValue.toInt = 9223372036854775807 := by decide
  have hpow : Nat.pow 2 63 = 2 ^ 63 := rfl
  simp only [rank, magnitude, hmax, hpow]
  split <;> omega

theorem isFinite_iff_magnitude (x : Float) : x.isFinite = true ↔ magnitude x < 2047 * 2 ^ 52 := by
  have hlt : x.toBits.toNat < 2 ^ 64 := x.toBits.toNat_lt
  have hfinite : x.isFinite = true ↔
      @unpackExponent Format.binary64 x.toBits.toBitVec ≠ -1#_ := isFinite_unpack_iff _
  have hfield := toNat_unpackExponent x.toBits.toBitVec
  have hbits : x.toBits.toBitVec.toNat = x.toBits.toNat := rfl
  have hmax : (-1#_ : BitVec Format.binary64.exponentBits).toNat = 2047 := rfl
  rw [hfinite, ne_eq, ← BitVec.toNat_inj, hfield, hmax, hbits, magnitude]
  omega

theorem unpack_cases {b : BitVec Format.binary64.numBits} (h : unpackExponent b ≠ -1#_) :
    (b.toNat / 2 ^ 52 % 2048 = 0 ∧ b.toNat % 2 ^ 52 = 0 ∧
        UnpackedFloat.unpack Format.binary64 b = .zero (signOf b.toNat)) ∨
      (b.toNat / 2 ^ 52 % 2048 = 0 ∧ ∃ hm, UnpackedFloat.unpack Format.binary64 b =
        .finite (signOf b.toNat) (b.toNat % 2 ^ 52) (-1074) hm) ∨
      (b.toNat / 2 ^ 52 % 2048 ≠ 0 ∧ ∃ hm, UnpackedFloat.unpack Format.binary64 b =
        .finite (signOf b.toNat) (2 ^ 52 + b.toNat % 2 ^ 52)
          ((b.toNat / 2 ^ 52 % 2048 : Nat) - 1075) hm) := by
  have hexponent := toNat_unpackExponent b
  have hmantissa := toNat_unpackMantissa b
  have hbias : ((Format.binary64.exponentBias : ℤ) + Format.binary64.mantissaBitsWithoutImplicit) =
      1075 := by decide
  rw [← hexponent, ← hmantissa]
  unfold UnpackedFloat.unpack
  simp only [if_neg h, ofBitVec_unpackSign, hbias]
  by_cases hE : unpackExponent b = 0#_
  · by_cases hM : unpackMantissa b = 0#_
    · exact .inl ⟨by rw [hE]; rfl, by rw [hM]; rfl, by rw [if_pos hE, dif_pos hM]⟩
    · have hpos : 0 < (unpackMantissa b).toNat :=
        Nat.pos_of_ne_zero fun h0 => hM (BitVec.eq_of_toNat_eq h0)
      refine .inr (.inl ⟨by rw [hE]; rfl, hpos, ?_⟩)
      rw [if_pos hE, dif_neg hM]
      congr 1
      rw [hE]
      decide
  · refine .inr (.inr ⟨fun h0 => hE (BitVec.eq_of_toNat_eq h0), by omega, ?_⟩)
    rw [if_neg hE, UnpackedFloat.finite.injEq]
    exact ⟨rfl, toNat_one_append _, rfl⟩

/-- The exponent of the double above zero with the given bits. -/
def exponentOf (n : Nat) : Int := (max (n / 2 ^ 52) 1 : Nat) - 1075

def mantissaOf (n : Nat) : Nat := if n / 2 ^ 52 = 0 then n % 2 ^ 52 else 2 ^ 52 + n % 2 ^ 52

theorem unpack_eq_of_isFinite {x : Float} (h : x.isFinite = true) :
    (magnitude x = 0 ∧ x.toModel.unpack = .zero (signOf x.toBits.toNat)) ∨
      magnitude x ≠ 0 ∧ ∃ hm, x.toModel.unpack =
        .finite (signOf x.toBits.toNat) (mantissaOf (magnitude x)) (exponentOf (magnitude x)) hm := by
  have hne : @unpackExponent Format.binary64 x.toBits.toBitVec ≠ -1#_ :=
    (isFinite_unpack_iff _).mp h
  change (_ ∧ UnpackedFloat.unpack Format.binary64 x.toBits.toBitVec = _) ∨
    _ ∧ ∃ hm, UnpackedFloat.unpack Format.binary64 x.toBits.toBitVec = _
  have hcases := unpack_cases hne
  generalize UnpackedFloat.unpack Format.binary64 x.toBits.toBitVec = u at *
  change (x.toBits.toNat / 2 ^ 52 % 2048 = 0 ∧ x.toBits.toNat % 2 ^ 52 = 0 ∧ _) ∨
    (x.toBits.toNat / 2 ^ 52 % 2048 = 0 ∧ _) ∨ (x.toBits.toNat / 2 ^ 52 % 2048 ≠ 0 ∧ _) at hcases
  unfold magnitude mantissaOf exponentOf
  obtain ⟨hE, hM, hu⟩ | ⟨hE, hm, hu⟩ | ⟨hE, hm, hu⟩ := hcases
  · exact .inl ⟨by omega, hu⟩
  · have hfield : x.toBits.toNat % 2 ^ 63 / 2 ^ 52 = 0 := by omega
    have htail : x.toBits.toNat % 2 ^ 63 % 2 ^ 52 = x.toBits.toNat % 2 ^ 52 := by omega
    refine .inr ⟨?_, ?_⟩
    · change 0 < x.toBits.toNat % 2 ^ 52 at hm
      omega
    · simp only [hfield, htail, if_true]
      exact ⟨hm, hu⟩
  · have hfield : x.toBits.toNat % 2 ^ 63 / 2 ^ 52 = x.toBits.toNat / 2 ^ 52 % 2048 := by omega
    have htail : x.toBits.toNat % 2 ^ 63 % 2 ^ 52 = x.toBits.toNat % 2 ^ 52 := by omega
    have hmax : max (x.toBits.toNat / 2 ^ 52 % 2048) 1 = x.toBits.toNat / 2 ^ 52 % 2048 := by omega
    refine .inr ⟨by omega, ?_⟩
    simp only [hfield, htail, if_neg hE, hmax]
    exact ⟨hm, hu⟩

theorem placeOf_eq {x : Float} (h : x.isFinite = true) :
    placeOf x =
      if magnitude x = 0 then toLex (0, toLex (0, 0))
      else if x.toBits.toNat < 2 ^ 63 then
        toLex (1, toLex (exponentOf (magnitude x), (mantissaOf (magnitude x) : ℤ)))
      else toLex (-1, toLex (-exponentOf (magnitude x), -(mantissaOf (magnitude x) : ℤ))) := by
  unfold placeOf
  obtain ⟨hzero, hunpack⟩ | ⟨hne, hm, hunpack⟩ := unpack_eq_of_isFinite h
  · rw [hunpack, if_pos hzero]
    rfl
  · rw [hunpack, if_neg hne, signOf]
    split <;> rfl

/-- Among doubles of one sign the bits are in the order of exponent and mantissa. -/
theorem exponentOf_lt_or_of_le {m n : Nat} (h : m ≤ n) :
    exponentOf m < exponentOf n ∨ exponentOf m = exponentOf n ∧ mantissaOf m ≤ mantissaOf n := by
  unfold exponentOf mantissaOf
  split <;> split <;> omega

theorem isNaN_eq_false {x : Float} (h : x.isFinite = true) : x.isNaN = false := by
  change x.toModel.unpack.isFinite = true at h
  change x.toModel.unpack.isNaN = false
  cases hu : x.toModel.unpack with
  | zero | finite => rfl
  | infinity | notANumber =>
    rw [hu] at h
    cases h

theorem le_of_rank_le {x y : Float} (hx : x.isFinite = true) (hy : y.isFinite = true)
    (h : rank x ≤ rank y) : x ≤ y := by
  rw [float_le_iff]
  refine ⟨isNaN_eq_false hx, isNaN_eq_false hy, ?_⟩
  rw [placeOf_eq hx, placeOf_eq hy]
  rw [rank_eq, rank_eq] at h
  generalize magnitude x = m at *
  generalize magnitude y = n at *
  have hup : m ≤ n → exponentOf m < exponentOf n ∨
      exponentOf m = exponentOf n ∧ mantissaOf m ≤ mantissaOf n := exponentOf_lt_or_of_le
  have hdown : n ≤ m → exponentOf n < exponentOf m ∨
      exponentOf n = exponentOf m ∧ mantissaOf n ≤ mantissaOf m := exponentOf_lt_or_of_le
  split_ifs at h ⊢ <;> simp [Prod.Lex.toLex_le_toLex] <;> omega

theorem isFinite_of_rank_le {x y z : Float} (hx : x.isFinite = true) (hz : z.isFinite = true)
    (hxy : rank x ≤ rank y) (hyz : rank y ≤ rank z) : y.isFinite = true := by
  rw [isFinite_iff_magnitude] at *
  rw [rank_eq, rank_eq] at hxy hyz
  split at hxy <;> split at hyz <;> split at hyz <;> split at hxy <;> omega

end Storyboard.Binary64
