import Mathlib.Algebra.Order.Field.Basic
import Mathlib.Tactic.FieldSimp
import Storyboard.Layout.Fit
import Storyboard.Proofs.Box

set_option autoImplicit false

namespace Storyboard

namespace Size

structure Within (size room : Size Rat) : Prop where
  width : size.width ≤ room.width
  height : size.height ≤ room.height

/-- Of the sizes of an aspect ratio in a room, the one that none of them exceeds. -/
structure IsLargest (size : Size Rat) (aspect : Rat) (room : Size Rat) : Prop where
  ratio : size.width / size.height = aspect
  within : size.Within room
  bounds : ∀ other : Size Rat, other.width / other.height = aspect → other.Within room →
    other.Within size

theorem width_eq_of_ratio {aspect : Rat} (h : 0 < aspect) {size : Size Rat}
    (hratio : size.width / size.height = aspect) : size.width = size.height * aspect := by
  have hne : size.height ≠ 0 := by
    intro hzero
    rw [hzero, div_zero] at hratio
    exact h.ne hratio
  rw [← hratio, mul_div_cancel₀ _ hne]

theorem largest_eq {aspect : Rat} (h : 0 < aspect) (room : Size Rat) :
    largest aspect room =
      ⟨min room.width (room.height * aspect), min (room.width / aspect) room.height⟩ := by
  simp only [largest, Scalar.rat_least]
  split
  · rw [Scalar.min_mul_eq h, mul_div_cancel_right₀ _ h.ne']
  · rw [Scalar.min_mul_eq h, min_comm room.height]

theorem largest_isLargest {aspect : Rat} (h : 0 < aspect) {room : Size Rat}
    (hroom : 0 < room.width ∧ 0 < room.height) : (largest aspect room).IsLargest aspect room := by
  have hheight : 0 < min (room.width / aspect) room.height :=
    lt_min (div_pos hroom.1 h) hroom.2
  rw [largest_eq h]
  refine ⟨?_, ⟨min_le_left _ _, min_le_right _ _⟩, fun other hother hin => ?_⟩
  · rw [Scalar.min_mul_eq h, mul_div_cancel_left₀ _ hheight.ne']
  · have hside := width_eq_of_ratio h hother
    constructor
    · exact le_min hin.width (hside ▸ mul_le_mul_of_nonneg_right hin.height h.le)
    · exact le_min ((le_div_iff₀ h).mpr (hside ▸ hin.width)) hin.height

def fillScale (size room : Size Rat) : Rat :=
  min (room.width / size.width) (room.height / size.height)

theorem largest_of_size {size : Size Rat} (h : 0 < size.width ∧ 0 < size.height) (room : Size Rat) :
    largest (size.width / size.height) room =
      ⟨size.fillScale room * size.width, size.fillScale room * size.height⟩ := by
  have hwidth := h.1.ne'
  have hheight := h.2.ne'
  rw [largest_eq (div_pos h.1 h.2), fillScale, min_mul_of_nonneg _ _ h.1.le,
    min_mul_of_nonneg _ _ h.2.le]
  congr 2 <;> field_simp

theorem fillScale_isGreatest {size : Size Rat} (h : 0 < size.width ∧ 0 < size.height)
    (room : Size Rat) :
    IsGreatest {t | t * size.width ≤ room.width ∧ t * size.height ≤ room.height}
      (size.fillScale room) :=
  Scalar.isGreatest_min_div h.1 h.2 room.width room.height

end Size

theorem SizeHint.ratio_pos (hint : SizeHint) : 0 < (hint.ratio : Rat) := by
  cases hint <;> norm_num [ratio]

theorem Region.bounds_pos {canvas : Size Rat} (hw : 0 < canvas.width) (hh : 0 < canvas.height)
    (r : Region) : 0 < (r.bounds canvas).width ∧ 0 < (r.bounds canvas).height := by
  cases r <;> constructor <;> simp only [bounds] <;> norm_num <;> linarith

namespace Stage
variable {s : Stage Rat}

theorem region_pos (h : 0 < s.canvas.width ∧ 0 < s.canvas.height) (r : Region) :
    0 < (s.region r).width ∧ 0 < (s.region r).height :=
  r.bounds_pos (Nat.cast_pos.mpr (UInt32.lt_iff_toNat_lt.mp h.1))
    (Nat.cast_pos.mpr (UInt32.lt_iff_toNat_lt.mp h.2))

theorem room_pos (h : 0 < s.canvas.width ∧ 0 < s.canvas.height) (layout : Placing Rat) :
    0 < (s.room layout).width ∧ 0 < (s.room layout).height := by
  have hregion := region_pos h (layout.region.getD default)
  have hratio := (layout.size.getD default).ratio_pos
  exact ⟨mul_pos hregion.1 hratio, mul_pos hregion.2 hratio⟩

theorem fit_eq_ok {size : Size Rat} (h : 0 < size.width ∧ 0 < size.height) (layout : Placing Rat) :
    s.fit layout size =
      .ok ⟨⟨(s.origin layout (Size.largest (size.width / size.height) (s.room layout))).x,
          (s.origin layout (Size.largest (size.width / size.height) (s.room layout))).y,
          size.fillScale (s.room layout) * size.width,
          size.fillScale (s.room layout) * size.height⟩,
        size.fillScale (s.room layout)⟩ := by
  unfold fit
  rw [if_pos ((Size.rat_proper_iff size).mpr h)]
  dsimp only
  rw [Size.largest_of_size h, mul_div_cancel_right₀ _ h.1.ne']

/-- What is fitted comes out at the largest scale that its room, the fraction of its region that the
size hint names, allows on both axes. One formula gives the size of wide and of tall content, and
where in the region something stands does not change how large it is. -/
theorem fit_fills_room (s : Stage Rat) (layout : Placing Rat) (size : Size Rat)
    (hcanvas : 0 < s.canvas.width ∧ 0 < s.canvas.height)
    (hsize : 0 < size.width ∧ 0 < size.height) :
    s.room layout =
        ⟨(s.region (layout.region.getD default)).width * (layout.size.getD default).ratio,
          (s.region (layout.region.getD default)).height * (layout.size.getD default).ratio⟩ ∧
      (∃ fitted, s.fit layout size = .ok fitted ∧ 0 < fitted.scale ∧
        fitted.box.width = fitted.scale * size.width ∧
        fitted.box.height = fitted.scale * size.height ∧
        IsGreatest {t | t * size.width ≤ (s.room layout).width ∧
          t * size.height ≤ (s.room layout).height} fitted.scale ∧
        fitted.scale =
          min ((s.room layout).width / size.width) ((s.room layout).height / size.height) ∧
        ∀ position offset, ∃ moved, s.fit { layout with position, offset } size = .ok moved ∧
          moved.box.width = fitted.box.width ∧ moved.box.height = fitted.box.height ∧
          moved.scale = fitted.scale) ∧
      ∀ (aspect : Rat) (room : Size Rat), 0 < aspect → Size.largest aspect room =
        ⟨min room.width (room.height * aspect), min (room.width / aspect) room.height⟩ := by
  have hroom := room_pos hcanvas layout
  have hscale : 0 < size.fillScale (s.room layout) :=
    lt_min (div_pos hroom.1 hsize.1) (div_pos hroom.2 hsize.2)
  refine ⟨rfl, ⟨_, fit_eq_ok hsize layout, hscale, rfl, rfl,
    Size.fillScale_isGreatest hsize (s.room layout), rfl, fun position offset => ?_⟩,
    fun aspect room haspect => Size.largest_eq haspect room⟩
  exact ⟨_, fit_eq_ok hsize { layout with position, offset }, rfl, rfl, rfl⟩

def lighthouse : Stage Rat × Placing Rat × Size Rat :=
  (Stage.create ⟨1920, 1080⟩ FontTable.standard default,
    ⟨.bottomLeft, some .leftThird, some .fill, some ⟨-8, 12⟩⟩, ⟨100, 400⟩)

theorem lighthouse_fills_room :
    ∃ fitted, lighthouse.1.fit lighthouse.2.1 lighthouse.2.2 = .ok fitted ∧
      IsGreatest {t : Rat | t * 100 ≤ 576 ∧ t * 400 ≤ 972} fitted.scale ∧
      fitted.box.width = fitted.scale * 100 ∧ fitted.box.height = fitted.scale * 400 ∧
      fitted.scale = 243 / 100 := by
  have hroom : lighthouse.1.room lighthouse.2.1 = ⟨576, 972⟩ := by decide +kernel
  obtain ⟨-, ⟨fitted, hfit, -, hwidth, hheight, hgreatest, hscale, -⟩, -⟩ :=
    fit_fills_room lighthouse.1 lighthouse.2.1 lighthouse.2.2 (by decide) (by decide +kernel)
  rw [hroom] at hgreatest hscale
  refine ⟨fitted, hfit, hgreatest, hwidth, hheight, hscale.trans ?_⟩
  norm_num [lighthouse]

end Stage
end Storyboard
