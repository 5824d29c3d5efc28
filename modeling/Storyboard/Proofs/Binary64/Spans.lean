import Storyboard.Proofs.Binary64.Reach

set_option autoImplicit false

/-!
Doubles between two powers of two. The first digit of a product or a quotient has a place between
bounds that those of its terms give, so that neither overflows nor vanishes as long as the bounds
are places of doubles. Outside of them what is left is the sign.
-/

namespace Storyboard.Binary64
open Float.Model Float.Model.UnpackedFloat

section Sign
variable {j k : Int} {u v : UnpackedFloat}

/-- A number without a sign: zero is the positive one. -/
def Unsigned : UnpackedFloat → Prop
  | .zero s | .finite s _ _ _ | .infinity s => s = .positive
  | .notANumber => False

theorem Reaches.unsigned (h : Reaches k u) : Unsigned u := by
  cases h <;> rfl

theorem unsigned_roundWithAccuracy (m : Nat) (e : Int) (a : Accuracy) :
    Unsigned (roundWithAccuracy Format.binary64 .positive m e a) := by
  unfold roundWithAccuracy
  dsimp only
  split <;> rfl

theorem unsigned_unpack_packComponents {e : BitVec Format.binary64.exponentBits}
    (m : BitVec Format.binary64.mantissaBitsWithoutImplicit) (h : e ≠ -1#_) :
    Unsigned (UnpackedFloat.unpack Format.binary64
      (packComponents Format.binary64 .positive e m)) := by
  unfold UnpackedFloat.unpack
  simp only [unpackExponent_packComponents, unpackMantissa_packComponents,
    unpackSign_packComponents, if_neg h]
  split
  · split <;> rfl
  · rfl

theorem unsigned_pack (h : Unsigned u) : Unsigned (Float.Model.pack u).unpack := by
  cases u with
  | notANumber => cases h
  | infinity s => cases h; rfl
  | zero s => cases h; rfl
  | finite s m e hm =>
    cases h
    change Unsigned (UnpackedFloat.unpack Format.binary64 (UnpackedFloat.pack Format.binary64 _))
    rw [pack_finite]
    split
    · rfl
    · rename_i hsmall
      split
      · refine unsigned_unpack_packComponents _ fun heq => hsmall ?_
        have hmax : (BitVec.ofNat 11 (e + 1075).toNat).toNat = 2047 := by rw [heq]; rfl
        rw [BitVec.toNat_ofNat] at hmax
        omega
      · exact unsigned_unpack_packComponents _ (by decide)

theorem unsigned_mul (hu : Unsigned u) (hv : Unsigned v) (hu' : u.isFinite = true)
    (hv' : v.isFinite = true) : Unsigned (UnpackedFloat.mul Format.binary64 u v) := by
  cases u with
  | notANumber | infinity s => cases hu'
  | zero s => cases hu; cases v <;> cases hv <;> first | rfl | cases hv'
  | finite s m e hm =>
    cases hu
    cases v with
    | notANumber | infinity t => cases hv'
    | zero t => cases hv; rfl
    | finite t n f hn => cases hv; exact unsigned_roundWithAccuracy _ _ _

theorem unsigned_div (hu : Unsigned u) (hv : Reaches k v) (hu' : u.isFinite = true) :
    Unsigned (UnpackedFloat.div Format.binary64 u v) := by
  cases u with
  | notANumber | infinity s => cases hu'
  | zero s => cases hu; cases hv <;> rfl
  | finite s m e hm =>
    cases hu
    cases hv with
    | infinity => rfl
    | finite => exact unsigned_roundWithAccuracy _ _ _

theorem Unsigned.unpack_eq_zero {x : Float} (h : Unsigned x.toModel.unpack) (hx : ¬ 0.0 < x) :
    x.toModel.unpack = .zero .positive := by
  rw [zero_lt_iff] at hx
  cases hu : x.toModel.unpack with
  | notANumber => rw [hu] at h; cases h
  | zero s => rw [hu] at h; cases h; rfl
  | infinity s => rw [hu] at h hx; cases h; exact absurd .infinity hx
  | finite s m e hm =>
    have hnormal := normal_of_unpack hu
    rw [hu] at h hx
    cases h
    exact absurd (.finite hnormal hnormal.le_place) hx

theorem not_zero_lt {x : Float} (h : x.toModel.unpack = .zero .positive) : ¬ 0.0 < x := by
  intro hpos
  have hreaches := zero_lt_iff.mp hpos
  rw [h] at hreaches
  cases hreaches

theorem Unsigned.nonneg {x : Float} (h : Unsigned x.toModel.unpack) : 0.0 ≤ x := by
  by_cases hx : 0.0 < x
  · exact float_le_of_lt hx
  · change decide ((0.0 : Float).toModel.unpack.le x.toModel.unpack = true) = true
    rw [h.unpack_eq_zero hx]
    decide

end Sign

/-- The first digit of a double above zero has a place from `j` to `k`. -/
structure Spans (j k : Int) (x : Float) : Prop where
  reaches : Reaches j x.toModel.unpack
  below : Below k x.toModel.unpack

instance (j : Int) (u : UnpackedFloat) : Decidable (Reaches j u) :=
  match u with
  | .finite .positive m e _ =>
    decidable_of_iff (Normal m e ∧ j ≤ (m.log2 : Int) + e)
      ⟨fun h => .finite h.1 h.2, fun h => by cases h with | finite hm hp => exact ⟨hm, hp⟩⟩
  | .infinity .positive => isTrue .infinity
  | .finite .negative _ _ _ | .infinity .negative | .zero _ | .notANumber => isFalse nofun

instance (k : Int) (u : UnpackedFloat) : Decidable (Below k u) :=
  match u with
  | .finite _ m e _ =>
    decidable_of_iff ((m.log2 : Int) + e ≤ k ∧ -1074 ≤ e ∧ e ≤ 971)
      ⟨fun h => .finite h.1 h.2.1 h.2.2,
        fun h => by cases h with | finite hp hl hh => exact ⟨hp, hl, hh⟩⟩
  | .zero s => isTrue (.zero s)
  | .infinity _ | .notANumber => isFalse nofun

instance (j k : Int) (x : Float) : Decidable (Spans j k x) :=
  decidable_of_iff (Reaches j x.toModel.unpack ∧ Below k x.toModel.unpack)
    ⟨fun h => ⟨h.1, h.2⟩, fun h => ⟨h.reaches, h.below⟩⟩

namespace Spans
variable {i j k l : Int} {x y : Float}

theorem mono (h : Spans j k x) (hij : i ≤ j) (hkl : k ≤ l) : Spans i l x :=
  ⟨h.reaches.mono hij, h.below.mono hkl⟩

theorem isFinite (h : Spans j k x) : x.isFinite = true := isFinite_of_below h.below

theorem pos (h : Spans j k x) : 0.0 < x := zero_lt_iff.mpr h.reaches.least

theorem proper (h : Spans j k x) : Scalar.proper x = true :=
  Bool.and_eq_true_iff.mpr ⟨h.isFinite, decide_eq_true h.pos⟩

theorem unpack_eq (h : Spans j k x) : ∃ m e hm, x.toModel.unpack = .finite .positive m e hm ∧
    j ≤ (m.log2 : Int) + e ∧ (m.log2 : Int) + e ≤ k := by
  obtain ⟨hreaches, hbelow⟩ := h
  generalize x.toModel.unpack = u at hreaches hbelow
  cases hreaches with
  | infinity => cases hbelow
  | finite _ hlow => cases hbelow with | finite hhigh _ _ => exact ⟨_, _, _, rfl, hlow, hhigh⟩

theorem le (h : Spans j k x) : j ≤ k := by
  obtain ⟨m, e, hm, -, hlow, hhigh⟩ := h.unpack_eq
  exact hlow.trans hhigh

theorem above (h : Spans j k x) : above j x.toModel.unpack = true := by
  obtain ⟨m, e, hm, hu, hlow, -⟩ := h.unpack_eq
  rw [hu]
  exact decide_eq_true hlow

theorem mul (hx : Spans j k x) (hy : Spans i l y) (hlow : -1074 ≤ j + i) (hmid : -1025 ≤ k + l)
    (hhigh : k + l ≤ 971) : Spans (j + i) (k + l + 2) (x * y) :=
  ⟨reaches_pack (reaches_mul hx.reaches hy.reaches hlow),
    below_pack (below_mul hx.below hy.below (by omega) hhigh) (by omega)⟩

theorem div (hx : Spans j k x) (hy : Spans i l y) (hlow : -1074 ≤ j - l - 1) (hmid : -1024 ≤ k - i)
    (hhigh : k - i ≤ 1022) : Spans (j - l - 1) (k - i + 1) (x / y) :=
  ⟨reaches_pack (reaches_div hx.reaches hy.reaches hy.below hlow),
    below_pack (below_div hx.below hy.above (by omega) hhigh) (by omega)⟩

theorem least_cases (hx : Spans j k x) (y : Float) :
    Scalar.least x y = x ∨ Scalar.least x y = y ∧ y ≤ x := by
  unfold Scalar.least
  split
  · exact .inl rfl
  · rename_i h
    rw [not_or, not_not] at h
    exact .inr ⟨rfl, float_le_of_not_lt h.2 (float_le_self_of_le (float_le_of_lt hx.pos)).2 h.1⟩

theorem least (hx : Spans j k x) (hy : Reaches i y.toModel.unpack) (hij : i ≤ j) :
    Spans i k (Scalar.least x y) := by
  obtain heq | ⟨heq, hle⟩ := hx.least_cases y
  · rw [heq]
    exact hx.mono hij le_rfl
  · rw [heq]
    exact ⟨hy, hx.below.of_le hy hle⟩

theorem div_infinity (hx : Spans j k x) (hy : y.toModel.unpack = .infinity .positive) :
    (x / y).toModel.unpack = .zero .positive := by
  obtain ⟨m, e, hm, hu, -, -⟩ := hx.unpack_eq
  have hdiv : UnpackedFloat.div Format.binary64 (.finite .positive m e hm) (.infinity .positive) =
      .zero .positive := rfl
  change (Float.Model.pack (UnpackedFloat.div Format.binary64 _ _)).unpack = _
  rw [hu, hy, hdiv]
  rfl

theorem div_zero (hx : Spans j k x) (hy : y.toModel.unpack = .zero .positive) :
    (x / y).toModel.unpack = .infinity .positive := by
  obtain ⟨m, e, hm, hu, -, -⟩ := hx.unpack_eq
  have hdiv : UnpackedFloat.div Format.binary64 (.finite .positive m e hm) (.zero .positive) =
      .infinity .positive := rfl
  change (Float.Model.pack (UnpackedFloat.div Format.binary64 _ _)).unpack = _
  rw [hu, hy, hdiv]
  rfl

theorem zero_div (hx : x.toModel.unpack = .zero .positive) (hy : Spans j k y) :
    (x / y).toModel.unpack = .zero .positive := by
  obtain ⟨m, e, hm, hu, -, -⟩ := hy.unpack_eq
  have hdiv : UnpackedFloat.div Format.binary64 (.zero .positive) (.finite .positive m e hm) =
      .zero .positive := rfl
  change (Float.Model.pack (UnpackedFloat.div Format.binary64 _ _)).unpack = _
  rw [hu, hx, hdiv]
  rfl

end Spans

theorem Reaches.eq_infinity {k : Int} {x : Float} (hx : Reaches k x.toModel.unpack)
    (h : x.isFinite = false) : x.toModel.unpack = .infinity .positive := by
  change x.toModel.unpack.isFinite = false at h
  generalize x.toModel.unpack = u at hx h
  cases hx with
  | infinity => rfl
  | finite => cases h

structure UpTo (k : Int) (x : Float) : Prop where
  unsigned : Unsigned x.toModel.unpack
  below : Below k x.toModel.unpack

namespace UpTo
variable {j k : Int} {x y : Float}

theorem isFinite (h : UpTo k x) : x.isFinite = true := isFinite_of_below h.below

theorem mono (h : UpTo j x) (hjk : j ≤ k) : UpTo k x := ⟨h.unsigned, h.below.mono hjk⟩

theorem of_eq_zero (h : x.toModel.unpack = .zero .positive) : UpTo k x :=
  ⟨h ▸ rfl, h ▸ .zero _⟩

theorem mul (hx : UpTo j x) (hy : UpTo k y) (hlow : -1025 ≤ j + k) (hhigh : j + k ≤ 971) :
    UpTo (j + k + 2) (x * y) :=
  ⟨unsigned_pack (unsigned_mul hx.unsigned hy.unsigned hx.isFinite hy.isFinite),
    below_pack (below_mul hx.below hy.below (by omega) hhigh) (by omega)⟩

end UpTo

theorem Spans.upTo {j k : Int} {x : Float} (h : Spans j k x) : UpTo k x :=
  ⟨h.reaches.unsigned, h.below⟩

theorem exists_spans {x : Float} (h : Scalar.proper x = true) :
    ∃ p : Int, -1074 ≤ p ∧ p ≤ 1023 ∧ Spans p p x := by
  obtain ⟨hfinite, hpos⟩ := Bool.and_eq_true_iff.mp h
  have hreaches := zero_lt_iff.mp (of_decide_eq_true hpos)
  have hbelow := (isFinite_iff_below x).mp hfinite
  cases hu : x.toModel.unpack with
  | notANumber | infinity => rw [hu] at hbelow; cases hbelow
  | zero => rw [hu] at hreaches; cases hreaches
  | finite s m e hm =>
    rw [hu] at hreaches hbelow
    cases hreaches with
    | finite hnormal hlow =>
      cases hbelow with
      | finite hhigh hleast hmost =>
        exact ⟨_, hlow, hhigh, hu ▸ .finite hnormal le_rfl, hu ▸ .finite le_rfl hleast hmost⟩

theorem reaches_ofNat {n : Nat} (h : 0 < n) : Reaches 0 (UnpackedFloat.ofNat Format.binary64 n) := by
  have hgt : compare (n : Int) 0 = .gt := Int.compare_eq_gt.mpr (by omega)
  unfold UnpackedFloat.ofNat UnpackedFloat.ofInt UnpackedFloat.normalize
  rw [hgt]
  exact reaches_round h (by omega) (by decide)

theorem spans_ofNat {n : Nat} (hpos : 0 < n) (hlt : n < 2 ^ 53) : Spans 0 66 (Float.ofNat n) := by
  have hone : Spans 0 0 (Float.exactlyRepresentablePowersOfTen[0]) := by decide +kernel
  have hmod : n.toUInt64.toNat = n := Nat.mod_eq_of_lt (hlt.trans (by decide))
  have hn : Spans 0 64 n.toUInt64.toFloat :=
    ⟨reaches_pack (reaches_ofNat (by rwa [hmod])),
      below_pack (below_ofNat n.toUInt64.toNat_lt) (by decide)⟩
  change Spans 0 66 (Float.ofScientific n false 0)
  rw [Float.ofScientific, dif_pos ⟨hlt, by decide⟩]
  exact hn.mul hone (by decide) (by decide) (by decide)

end Storyboard.Binary64
