import Storyboard.Layout.Fit
import Storyboard.Proofs.Binary64.Spans

set_option autoImplicit false

/-!
Single elements in their rooms, in doubles. The sides of an element are finite and above zero, but
their ratio need not be: it overflows for what is far too wide and vanishes for what is far too
tall, and then the element has no height or no width. Nothing else makes a side vanish, and the
scale vanishes with the width.
-/

namespace Storyboard
open Binary64 Float.Model Float.Model.UnpackedFloat

section Rooms

theorem SizeHint.spans_ratio (hint : SizeHint) : Spans (-4) (-1) (hint.ratio : Float) := by
  cases hint <;> decide +kernel

theorem spans_shares {x : Float} (h : Spans 0 66 x) :
    Spans (-3) 67 x ∧ Spans (-3) 67 (x / 2.0) ∧ Spans (-3) 67 (x / 3.0) ∧
      Spans (-3) 67 (0.15 * x) ∧ Spans (-3) 67 (0.7 * x) ∧ Spans (-3) 67 (0.8 * x) := by
  have quotient {n : Float} (hn : Spans 1 1 n) : Spans (-3) 67 (x / n) :=
    (h.div hn (by decide) (by decide) (by decide)).mono (by decide) (by decide)
  have product {f : Float} (hf : Spans (-3) (-1) f) : Spans (-3) 67 (f * x) :=
    (hf.mul h (by decide) (by decide) (by decide)).mono (by decide) (by decide)
  exact ⟨h.mono (by decide) (by decide), quotient (by decide +kernel), quotient (by decide +kernel),
    product (by decide +kernel), product (by decide +kernel), product (by decide +kernel)⟩

theorem Region.spans_bounds {canvas : Size Float} (hw : Spans 0 66 canvas.width)
    (hh : Spans 0 66 canvas.height) (r : Region) :
    Spans (-3) 67 (r.bounds canvas).width ∧ Spans (-3) 67 (r.bounds canvas).height := by
  obtain ⟨hw₁, hw₂, hw₃, hw₁₅, hw₇₀, hw₈₀⟩ := spans_shares hw
  obtain ⟨hh₁, hh₂, hh₃, hh₁₅, hh₇₀, hh₈₀⟩ := spans_shares hh
  cases r with
  | full => exact ⟨hw₁, hh₁⟩
  | topHalf | bottomHalf => exact ⟨hw₁, hh₂⟩
  | leftHalf | rightHalf => exact ⟨hw₂, hh₁⟩
  | leftThird | centerThird | rightThird => exact ⟨hw₃, hh₁⟩
  | topThird | middleThird | bottomThird => exact ⟨hw₁, hh₃⟩
  | center => exact ⟨hw₇₀, hh₇₀⟩
  | mainContent => exact ⟨hw₈₀, hh₇₀⟩
  | topBanner | bottomBanner => exact ⟨hw₁, hh₁₅⟩

/-- A room is at most as large as its canvas and more than a hundredth of a pixel. The places are
bounds only, here and below. -/
theorem Stage.spans_room {s : Stage Float} (h : s.canvas.isEmpty = false) (layout : Placing Float) :
    Spans (-7) 68 (s.room layout).width ∧ Spans (-7) 68 (s.room layout).height := by
  have hsides : 0 < s.canvas.width.toNat ∧ 0 < s.canvas.height.toNat := by
    simpa [Canvas.isEmpty, ← UInt32.toNat_inj, Nat.pos_iff_ne_zero] using h
  have hwidth := spans_ofNat hsides.1 (s.canvas.width.toNat_lt.trans (by decide))
  have hheight := spans_ofNat hsides.2 (s.canvas.height.toNat_lt.trans (by decide))
  have hregion : Spans (-3) 67 (s.region (layout.region.getD default)).width ∧
      Spans (-3) 67 (s.region (layout.region.getD default)).height :=
    Region.spans_bounds hwidth hheight _
  have hratio := (layout.size.getD default).spans_ratio
  exact ⟨hregion.1.mul hratio (by decide) (by decide) (by decide),
    hregion.2.mul hratio (by decide) (by decide) (by decide)⟩

end Rooms

/-- What a ratio of sides may be: one at least, or below one, or so far below that it is zero. -/
inductive Aspect (x : Float) : Prop where
  | wide (one_le : 1.0 ≤ x) (reaches : Reaches 0 x.toModel.unpack)
  | tall {p : Int} (not_one_le : ¬ 1.0 ≤ x) (low : -1074 ≤ p) (high : p ≤ 0) (spans : Spans p p x)
  | vanished (not_one_le : ¬ 1.0 ≤ x) (zero : x.toModel.unpack = .zero .positive)

theorem Aspect.of_unsigned {x : Float} (h : Unsigned x.toModel.unpack) : Aspect x := by
  have hone : Spans 0 0 1.0 := by decide +kernel
  by_cases hwide : 1.0 ≤ x
  · exact .wide hwide (hone.reaches.of_le hwide)
  · by_cases hpos : 0.0 < x
    · have hle : x ≤ 1.0 := float_le_of_not_lt
        (float_le_self_of_le (float_le_of_lt hpos)).2 (by decide +kernel)
        fun hlt => hwide (float_le_of_lt hlt)
      have hreaches := zero_lt_iff.mp hpos
      have hspans : Spans (-1074) 0 x := ⟨hreaches, hone.below.of_le hreaches hle⟩
      obtain ⟨p, hlow, -, hp⟩ := exists_spans hspans.proper
      exact .tall hwide hlow (Spans.le ⟨hp.reaches, hspans.below⟩) hp
    · exact .vanished hwide (h.unpack_eq_zero hpos)

namespace Size
variable {room : Size Float} {aspect : Float}

structure Sides (size room : Size Float) (aspect : Float) : Prop where
  width : UpTo 70 size.width
  height : UpTo 69 size.height
  height_pos_iff : 0.0 < size.height ↔ aspect.isFinite = true
  /-- The width is the one that the height of the room gives, or else neither of them is little. -/
  width_cases : size.width = room.height * aspect ∨
    Reaches (-8) size.width.toModel.unpack ∧ Reaches (-8) (room.height * aspect).toModel.unpack

theorem Sides.width_pos_iff {size : Size Float} (h : size.Sides room aspect) :
    0.0 < size.width ↔ 0.0 < room.height * aspect := by
  obtain heq | ⟨hreaches, hproduct⟩ := h.width_cases
  · rw [heq]
  · exact iff_of_true (zero_lt_iff.mpr hreaches.least) (zero_lt_iff.mpr hproduct.least)

section Largest
variable (hw : Spans (-7) 68 room.width) (hh : Spans (-7) 68 room.height)
include hw hh

theorem sides_of_wide (h : 1.0 ≤ aspect) (haspect : Reaches 0 aspect.toModel.unpack) :
    (largest aspect room).Sides room aspect := by
  have hproduct : Reaches (-7) (room.height * aspect).toModel.unpack :=
    reaches_pack (reaches_mul hh.reaches haspect (by decide))
  have hwidth : Spans (-7) 68 (Scalar.least room.width (room.height * aspect)) :=
    hw.least hproduct le_rfl
  have hreaches := And.intro (hwidth.reaches.mono (by decide : (-8 : Int) ≤ -7))
    (hproduct.mono (by decide : (-8 : Int) ≤ -7))
  rw [largest, if_pos h]
  cases hfinite : aspect.isFinite with
  | true =>
    have hspans : Spans 0 1023 aspect := ⟨haspect, (isFinite_iff_below aspect).mp hfinite⟩
    have hheight := hwidth.div hspans (by decide) (by decide) (by decide)
    exact ⟨hwidth.upTo.mono (by decide), hheight.upTo, iff_of_true hheight.pos hfinite,
      .inr hreaches⟩
  | false =>
    have hzero := hwidth.div_infinity (haspect.eq_infinity hfinite)
    refine ⟨hwidth.upTo.mono (by decide), .of_eq_zero hzero, ?_, .inr hreaches⟩
    exact iff_of_false (not_zero_lt hzero) (by simp [hfinite])

/-- Tall content is as high as the room, and then its width is the product, or as high as the width
of the room allows, and then it is about as wide as the room. -/
theorem sides_of_tall {p : Int} (h : ¬ 1.0 ≤ aspect) (hlow : -1074 ≤ p) (hhigh : p ≤ 0)
    (hp : Spans p p aspect) : (largest aspect room).Sides room aspect := by
  have hquotient := reaches_pack (reaches_div hw.reaches hp.reaches hp.below (by omega))
  have hheight : Spans (-8) 68 (Scalar.least room.height (room.width / aspect)) :=
    hh.least (hquotient.mono (by omega)) (by decide)
  rw [largest, if_neg h]
  refine ⟨hheight.upTo.mul (hp.upTo.mono hhigh) (by decide) (by decide),
    hheight.upTo.mono (by decide), iff_of_true hheight.pos hp.isFinite, ?_⟩
  obtain heq | ⟨heq, hle⟩ := hh.least_cases (room.width / aspect)
  · exact .inl (congrArg (· * aspect) heq)
  · right
    dsimp only
    rw [heq]
    have hwidth := reaches_pack (reaches_mul hquotient hp.reaches (by omega))
    have hproduct := reaches_pack (reaches_mul (hquotient.of_le hle) hp.reaches (by omega))
    exact ⟨hwidth.mono (by omega), hproduct.mono (by omega)⟩

theorem sides_of_vanished (h : ¬ 1.0 ≤ aspect) (hzero : aspect.toModel.unpack = .zero .positive) :
    (largest aspect room).Sides room aspect := by
  have hinfinite := hw.div_zero hzero
  have hheight : Scalar.least room.height (room.width / aspect) = room.height := by
    obtain heq | ⟨-, hle⟩ := hh.least_cases (room.width / aspect)
    · exact heq
    · have hreaches : Reaches (-8) (room.width / aspect).toModel.unpack := hinfinite ▸ .infinity
      have hbelow := hh.below.of_le hreaches hle
      rw [hinfinite] at hbelow
      cases hbelow
  have haspect : UpTo 0 aspect := .of_eq_zero hzero
  rw [largest, if_neg h, hheight]
  exact ⟨hh.upTo.mul haspect (by decide) (by decide), hh.upTo.mono (by decide),
    iff_of_true hh.pos haspect.isFinite, .inl rfl⟩

theorem sides_largest (h : Unsigned aspect.toModel.unpack) :
    (largest aspect room).Sides room aspect := by
  cases Aspect.of_unsigned h with
  | wide hle hreaches => exact sides_of_wide hw hh hle hreaches
  | tall hlt hlow hhigh hp => exact sides_of_tall hw hh hlt hlow hhigh hp
  | vanished hlt hzero => exact sides_of_vanished hw hh hlt hzero

end Largest
end Size

section Scales
variable {size room : Size Float} {width : Float}

theorem Size.unsigned_aspect (h : size.proper = true) :
    Unsigned (size.width / size.height).toModel.unpack := by
  obtain ⟨hwidth, hheight⟩ := Bool.and_eq_true_iff.mp h
  obtain ⟨p, -, -, hp⟩ := exists_spans hwidth
  obtain ⟨q, -, -, hq⟩ := exists_spans hheight
  exact unsigned_pack (unsigned_div hp.reaches.unsigned hq.reaches hp.isFinite)

/-- A product that is above zero is so by enough to be divided by the width of the element: if the
product is among the least doubles, then because the width is small, too. -/
theorem exists_reaches_product {p q : Int} {x : Float} (hp : Spans p p size.width)
    (hq : Spans q q size.height) (hq' : q ≤ 1023) (hx : Spans (-7) 68 x) :
    ∃ k : Int, -1074 ≤ k - p - 1 ∧ (0.0 < x * (size.width / size.height) →
      Reaches k (x * (size.width / size.height)).toModel.unpack) := by
  by_cases hmid : -1074 ≤ p - q - 8
  · have hratio := reaches_pack (reaches_div hp.reaches hq.reaches hq.below (by omega))
    have hproduct := reaches_pack (reaches_mul hx.reaches hratio (by omega))
    exact ⟨_, by omega, fun _ => hproduct⟩
  · exact ⟨-1074, by omega, zero_lt_iff.mp⟩

theorem Size.Sides.scale_pos_iff {fitted : Size Float}
    (h : fitted.Sides room (size.width / size.height)) (hh : Spans (-7) 68 room.height)
    (hsize : size.proper = true) : 0.0 < fitted.width / size.width ↔ 0.0 < fitted.width := by
  obtain ⟨hwidthProper, hheightProper⟩ := Bool.and_eq_true_iff.mp hsize
  obtain ⟨p, -, hpHigh, hp⟩ := exists_spans hwidthProper
  obtain ⟨q, -, hqHigh, hq⟩ := exists_spans hheightProper
  have hwidth : ∃ k : Int, -1074 ≤ k - p - 1 ∧
      (0.0 < fitted.width → Reaches k fitted.width.toModel.unpack) := by
    obtain heq | ⟨hreaches, -⟩ := h.width_cases
    · rw [heq]
      exact exists_reaches_product hp hq hqHigh hh
    · exact ⟨-8, by omega, fun _ => hreaches⟩
  obtain ⟨k, hk, hreaches⟩ := hwidth
  by_cases hpos : 0.0 < fitted.width
  · have hscale := reaches_pack (reaches_div (hreaches hpos) hp.reaches hp.below hk)
    exact iff_of_true (zero_lt_iff.mpr hscale.least) hpos
  · have hzero := Spans.zero_div (h.width.unsigned.unpack_eq_zero hpos) hp
    exact iff_of_false (not_zero_lt hzero) hpos

theorem unsigned_scale (hwidth : UpTo 70 width) (h : Scalar.proper size.width = true) :
    Unsigned (width / size.width).toModel.unpack ∧
      (1e-286 ≤ size.width → (width / size.width).isFinite = true) := by
  obtain ⟨p, -, hhigh, hp⟩ := exists_spans h
  refine ⟨unsigned_pack (unsigned_div hwidth.unsigned hp.reaches hwidth.isFinite), fun hle => ?_⟩
  have hleast : Spans (-951) (-951) 1e-286 := by decide +kernel
  have hspans : Spans (-951) 1023 size.width := ⟨hleast.reaches.of_le hle, hp.below.mono hhigh⟩
  exact isFinite_of_below
    (below_pack (below_div hwidth.below hspans.above (by decide) (by decide)) (by decide))

end Scales

def Fitted.Drawable {α : Type} [Scalar α] (f : Fitted α) : Prop :=
  (Size.mk f.box.width f.box.height).proper = true ∧ Scalar.proper f.scale = true

instance {α : Type} [Scalar α] (f : Fitted α) : Decidable f.Drawable :=
  inferInstanceAs (Decidable ((Size.mk f.box.width f.box.height).proper = true ∧ _))

/-- Neither side is so long or so short that their ratio is not a double. -/
def Size.Moderate (size : Size Float) : Prop :=
  ∀ side ∈ [size.width, size.height], 1e-150 ≤ side ∧ side ≤ 1e150

theorem Size.Moderate.spans {size : Size Float} (h : size.Moderate) :
    Spans (-499) 498 size.width ∧ Spans (-499) 498 size.height := by
  have hleast : Spans (-499) (-499) 1e-150 := by decide +kernel
  have hmost : Spans 498 498 1e150 := by decide +kernel
  have hside {side : Float} (hs : 1e-150 ≤ side ∧ side ≤ 1e150) : Spans (-499) 498 side :=
    have hreaches := hleast.reaches.of_le hs.1
    ⟨hreaches, hmost.below.of_le hreaches hs.2⟩
  exact ⟨hside (h _ (by simp)), hside (h _ (by simp))⟩

theorem Size.Moderate.drawable {size : Size Float} {room : Float} (h : size.Moderate)
    (hroom : Spans (-7) 68 room) :
    (size.width / size.height).isFinite = true ∧ 0.0 < room * (size.width / size.height) ∧
      1e-286 ≤ size.width := by
  obtain ⟨hw, hh⟩ := h.spans
  have hratio := hw.div hh (by decide) (by decide) (by decide)
  have hproduct := reaches_pack (reaches_mul hroom.reaches hratio.reaches (by decide))
  have hleast : (1e-286 : Float) ≤ 1e-150 := by decide +kernel
  exact ⟨hratio.isFinite, zero_lt_iff.mpr hproduct.least,
    float_le_trans hleast (h size.width (by simp)).1⟩

theorem Fitted.drawable_iff {f : Fitted Float} (hfinite : AllFinite [f.box.width, f.box.height])
    (hscale : 0.0 < f.scale ↔ 0.0 < f.box.width) :
    f.Drawable ↔ 0.0 < f.box.height ∧ 0.0 < f.box.width ∧ f.scale.isFinite = true := by
  simp only [allFinite_cons, allFinite_nil, and_true] at hfinite
  simp only [Drawable, Size.proper, Scalar.proper, Scalar.finite, Bool.and_eq_true,
    decide_eq_true_eq, hfinite, hscale, true_and]
  tauto

namespace Stage

theorem fit_of_proper (s : Stage Float) (layout : Placing Float) {size : Size Float}
    (h : size.proper = true) :
    let fitted := Size.largest (size.width / size.height) (s.room layout)
    s.fit layout size =
      .ok ⟨⟨(s.origin layout fitted).x, (s.origin layout fitted).y, fitted.width, fitted.height⟩,
        fitted.width / size.width⟩ := if_pos h

/-- Something of finite sides above zero is fitted, but it is drawable only where the ratio of its
sides does not overflow, the ratio times the height of the room does not vanish, and the scale does
not overflow. No number is undefined or below zero; the height vanishes with an infinite ratio, and
the width with a product that vanishes, and with it the scale. Sides that are not extreme have none
of this. -/
theorem fit_drawable_iff (s : Stage Float) (layout : Placing Float) (size : Size Float)
    (hcanvas : s.canvas.isEmpty = false) (hsize : size.proper = true) :
    ∃ fitted, s.fit layout size = .ok fitted ∧
      AllFinite [fitted.box.width, fitted.box.height] ∧
      (∀ x ∈ [fitted.box.width, fitted.box.height, fitted.scale], 0.0 ≤ x) ∧
      (0.0 < fitted.box.height ↔ (size.width / size.height).isFinite = true) ∧
      (0.0 < fitted.box.width ↔ 0.0 < (s.room layout).height * (size.width / size.height)) ∧
      (0.0 < fitted.scale ↔ 0.0 < fitted.box.width) ∧
      (1e-286 ≤ size.width → fitted.scale.isFinite = true) ∧
      (fitted.Drawable ↔ (size.width / size.height).isFinite = true ∧
        0.0 < (s.room layout).height * (size.width / size.height) ∧
        fitted.scale.isFinite = true) ∧
      (size.Moderate → fitted.Drawable) := by
  obtain ⟨hw, hh⟩ := spans_room hcanvas layout
  have hsides := Size.sides_largest hw hh (Size.unsigned_aspect hsize)
  have hmoderate := fun h : size.Moderate => h.drawable hh
  have hwidthPos := hsides.width_pos_iff
  have hscalePos := hsides.scale_pos_iff hh hsize
  have hfit := s.fit_of_proper layout hsize
  dsimp only at hfit
  generalize Size.largest (size.width / size.height) (s.room layout) = fitted at *
  generalize (s.room layout).height * (size.width / size.height) = product at *
  obtain ⟨hscale, hscaleFinite⟩ := unsigned_scale hsides.width (Bool.and_eq_true_iff.mp hsize).1
  have hfinite : AllFinite [fitted.width, fitted.height] := by
    simp [hsides.width.isFinite, hsides.height.isFinite]
  have hdrawable : ∀ x y : Float,
      (Fitted.mk ⟨x, y, fitted.width, fitted.height⟩ (fitted.width / size.width)).Drawable ↔
        (size.width / size.height).isFinite = true ∧ 0.0 < product ∧
          (fitted.width / size.width).isFinite = true := fun x y =>
    Iff.trans (Fitted.drawable_iff hfinite hscalePos)
      (and_congr hsides.height_pos_iff (and_congr hwidthPos Iff.rfl))
  refine ⟨_, hfit, hfinite, ?_, hsides.height_pos_iff, hwidthPos, hscalePos, hscaleFinite,
    hdrawable _ _, ?_⟩
  · simp [hsides.width.unsigned.nonneg, hsides.height.unsigned.nonneg, hscale.nonneg]
  · intro h
    obtain ⟨hratio, hproduct, hleast⟩ := hmoderate h
    exact (hdrawable _ _).mpr ⟨hratio, hproduct, hscaleFinite hleast⟩

/-- An element so much taller than wide that the ratio of its sides is zero. -/
def needle : Stage Float × Placing Float × Size Float :=
  (Stage.create ⟨1920, 1080⟩ FontTable.standard default, ⟨.center, none, none, none⟩,
    ⟨1e-162, 1e162⟩)

theorem needle_not_drawable :
    ¬ ∀ (s : Stage Float) (layout : Placing Float) (size : Size Float),
      s.canvas.isEmpty = false → size.proper = true →
        ∃ fitted, s.fit layout size = .ok fitted ∧ fitted.Drawable := by
  intro h
  have hproper : needle.2.2.proper = true := by decide +kernel
  obtain ⟨fitted, hfit, hdrawable⟩ := h needle.1 needle.2.1 needle.2.2 (by decide) hproper
  rw [fit_of_proper _ _ hproper, Except.ok.injEq] at hfit
  subst hfit
  revert hdrawable
  decide +kernel

theorem picture_drawable :
    needle.1.canvas.isEmpty = false ∧ (Size.mk 640 480 : Size Float).proper = true ∧
      ∃ fitted, needle.1.fit needle.2.1 ⟨640, 480⟩ = .ok fitted ∧ fitted.Drawable := by
  have hcanvas : needle.1.canvas.isEmpty = false := by decide
  have hproper : (Size.mk 640 480 : Size Float).proper = true := by decide +kernel
  have hmoderate : (Size.mk 640 480 : Size Float).Moderate := by
    unfold Size.Moderate
    decide +kernel
  obtain ⟨fitted, hfit, -, -, -, -, -, -, -, hdrawable⟩ :=
    fit_drawable_iff needle.1 needle.2.1 ⟨640, 480⟩ hcanvas hproper
  exact ⟨hcanvas, hproper, fitted, hfit, hdrawable hmoderate⟩

end Stage
end Storyboard
