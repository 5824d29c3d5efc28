import Storyboard.Proofs.Arrange
import Storyboard.Proofs.Fitting
import Storyboard.Text.Split

set_option autoImplicit false

namespace Storyboard

inductive Edge where
  | near
  | far
  deriving DecidableEq, Repr

def Direction.edgeWord : Direction → Edge → String
  | .row, .near => "left"
  | .row, .far => "right"
  | .column, .near => "top"
  | .column, .far => "bottom"

def Size.boxAt (s : Size Rat) (p : Point Rat) : Box Rat := ⟨p.x, p.y, s.width, s.height⟩

namespace Anchor

def Names (a : Anchor) (d : Direction) (e : Edge) : Prop :=
  d.edgeWord e ∈ Text.split '-' (Word.key a)

/-- The anchor names no edge of the axis. -/
def Centers (a : Anchor) (d : Direction) : Prop := ∀ e, ¬ a.Names d e

/-- What is left free along an axis between a box and the one that it is anchored in. -/
structure Leaves (a : Anchor) (d : Direction) (padding : Rat) (outer inner : Box Rat) : Prop where
  near : a.Names d .near → d.near inner - d.near outer = padding
  far : a.Names d .far → d.far outer - d.far inner = padding
  centered : a.Centers d → d.near inner - d.near outer = d.far outer - d.far inner

/-- A box has the extents for something, and the padding if an edge is named. -/
def HasRoom (a : Anchor) (padding : Rat) (outer : Box Rat) (size : Size Rat) : Prop :=
  ∀ d : Direction,
    (a.Centers d → (d.extent size).main ≤ (d.extent outer.size).main) ∧
    (¬ a.Centers d → (d.extent size).main + padding ≤ (d.extent outer.size).main)

def edge? (a : Anchor) : Direction → Option Edge
  | .row => match a with
    | .left | .topLeft | .bottomLeft => some .near
    | .right | .topRight | .bottomRight => some .far
    | .center | .top | .bottom => none
  | .column => match a with
    | .top | .topLeft | .topRight => some .near
    | .bottom | .bottomLeft | .bottomRight => some .far
    | .center | .left | .right => none

theorem names_iff {a : Anchor} {d : Direction} {e : Edge} : a.Names d e ↔ a.edge? d = some e := by
  unfold Names
  cases a <;> cases d <;> cases e <;> decide

theorem centers_iff {a : Anchor} {d : Direction} : a.Centers d ↔ a.edge? d = none := by
  simp only [Centers, names_iff, Option.eq_none_iff_forall_ne_some, ne_eq]

variable (a : Anchor) (d : Direction)

theorem near_place (bounds : Box Rat) (size : Size Rat) (padding : Rat) :
    d.near (size.boxAt (a.place bounds size padding)) = match a.edge? d with
      | some .near => d.near bounds + padding
      | some .far => d.far bounds - (d.extent size).main - padding
      | none => d.near bounds + ((d.extent bounds.size).main - (d.extent size).main) / 2.0 := by
  cases a <;> cases d <;> rfl

theorem place_leaves (bounds : Box Rat) (size : Size Rat) (padding : Rat) :
    a.Leaves d padding bounds (size.boxAt (a.place bounds size padding)) := by
  have hnear := a.near_place d bounds size padding
  have hfar : d.far (size.boxAt (a.place bounds size padding)) =
      d.near (size.boxAt (a.place bounds size padding)) + (d.extent size).main := rfl
  have houter : d.far bounds = d.near bounds + (d.extent bounds.size).main := rfl
  refine ⟨fun h => ?_, fun h => ?_, fun h => ?_⟩
  · rw [names_iff.mp h] at hnear
    rw [hnear]
    exact add_sub_cancel_left _ _
  · rw [names_iff.mp h] at hnear
    rw [hfar, hnear]
    linarith
  · rw [centers_iff.mp h, Scalar.rat_two] at hnear
    rw [hfar, hnear, houter]
    linarith

variable {a : Anchor} {d : Direction} {padding : Rat} {outer inner : Box Rat}

theorem Leaves.within_axis_iff (h : a.Leaves d padding outer inner) (hpadding : 0 ≤ padding) :
    (d.near outer ≤ d.near inner ∧ d.far inner ≤ d.far outer) ↔
      (a.Centers d → (d.extent inner.size).main ≤ (d.extent outer.size).main) ∧
        (¬ a.Centers d → (d.extent inner.size).main + padding ≤ (d.extent outer.size).main) := by
  have hinner : d.far inner = d.near inner + (d.extent inner.size).main := rfl
  have houter : d.far outer = d.near outer + (d.extent outer.size).main := rfl
  by_cases hcenters : a.Centers d
  · have hsame := h.centered hcenters
    simp only [hcenters, true_imp_iff, not_true_eq_false, false_imp_iff, and_true]
    constructor
    · rintro ⟨hnear, -⟩
      linarith
    · intro hextent
      constructor <;> linarith
  · simp only [hcenters, false_imp_iff, not_false_eq_true, true_imp_iff, true_and]
    obtain ⟨e, he⟩ := not_forall_not.mp hcenters
    cases e with
    | near =>
      have hnear := h.near he
      constructor
      · rintro ⟨-, hfar⟩
        linarith
      · intro hextent
        constructor <;> linarith
    | far =>
      have hfar := h.far he
      constructor
      · rintro ⟨hnear, -⟩
        linarith
      · intro hextent
        constructor <;> linarith

theorem within_iff_hasRoom (h : ∀ d, a.Leaves d padding outer inner) (hpadding : 0 ≤ padding) :
    inner.Within outer ↔ a.HasRoom padding outer inner.size := by
  rw [Box.within_iff .row, HasRoom]
  constructor
  · rintro ⟨hrow, hcolumn⟩ d
    cases d with
    | row => exact ((h .row).within_axis_iff hpadding).mp hrow
    | column => exact ((h .column).within_axis_iff hpadding).mp hcolumn
  · intro hroom
    exact ⟨((h .row).within_axis_iff hpadding).mpr (hroom .row),
      ((h .column).within_axis_iff hpadding).mpr (hroom .column)⟩

end Anchor

def Box.move (b : Box Rat) (v : Point Rat) : Box Rat := ⟨b.x + v.x, b.y + v.y, b.width, b.height⟩

def Fitted.move (f : Fitted Rat) (v : Point Rat) : Fitted Rat := ⟨f.box.move v, f.scale⟩

theorem SizeHint.ratio_le_one (hint : SizeHint) : (hint.ratio : Rat) ≤ 1 := by
  cases hint <;> norm_num [ratio]

namespace Stage
variable {s : Stage Rat} {layout : Placing Rat}

theorem origin_offset (s : Stage Rat) (layout : Placing Rat) (v : Point Rat) (size : Size Rat) :
    s.origin { layout with offset := some v } size =
      (s.origin { layout with offset := none } size).move v := by
  simp [origin, Point.move]

theorem fit_offset (s : Stage Rat) (layout : Placing Rat) (v : Point Rat) (size : Size Rat) :
    s.fit { layout with offset := some v } size =
      (s.fit { layout with offset := none } size).map fun f => f.move v := by
  unfold fit
  split
  · simp only [origin_offset]
    rfl
  · rfl

theorem placeText_offset (s : Stage Rat) (layout : Placing Rat) (v : Point Rat) (text : String)
    (fontSize : Rat) (family : String) :
    s.placeText { layout with offset := some v } text fontSize family =
      (s.placeText { layout with offset := none } text fontSize family).map fun b => b.move v := by
  unfold placeText
  split
  · simp only [origin_offset]
    rfl
  · rfl

theorem origin_of_no_offset (h : layout.offset = none) (size : Size Rat) :
    s.origin layout size = layout.position.place (s.region (layout.region.getD default)) size
      s.measures.positionPadding := by
  simp [origin, Point.move, h]

theorem box_of_fit {size : Size Rat} {f : Fitted Rat} (h : s.fit layout size = .ok f) :
    0 < size.width / size.height ∧
      f.box = (Size.largest (size.width / size.height) (s.room layout)).boxAt
        (s.origin layout (Size.largest (size.width / size.height) (s.room layout))) := by
  unfold fit at h
  split at h
  · rename_i hproper
    have hpos := (Size.rat_proper_iff size).mp hproper
    cases h
    exact ⟨div_pos hpos.1 hpos.2, rfl⟩
  · cases h

theorem box_of_placeText {text : String} {fontSize : Rat} {family : String} {box : Box Rat}
    (h : s.placeText layout text fontSize family = .ok box) :
    box = (s.textSize text fontSize (s.fonts.advance family)).boxAt
      (s.origin layout (s.textSize text fontSize (s.fonts.advance family))) := by
  unfold placeText at h
  split at h
  · cases h
    rfl
  · cases h

theorem boxAt_origin_leaves (h : layout.offset = none) (d : Direction) (size : Size Rat) :
    layout.position.Leaves d s.measures.positionPadding (s.region (layout.region.getD default))
      (size.boxAt (s.origin layout size)) := by
  rw [origin_of_no_offset h]
  exact layout.position.place_leaves d _ size _

theorem extent_le_of_fit {size : Size Rat} {f : Fitted Rat} (h : s.fit layout size = .ok f)
    (d : Direction) :
    (d.extent f.box.size).main ≤
      (d.extent (s.region (layout.region.getD default)).size).main := by
  obtain ⟨haspect, hbox⟩ := box_of_fit h
  have hregion := s.region_nonneg (layout.region.getD default)
  have hratio := (layout.size.getD default).ratio_le_one
  rw [hbox, Size.largest_eq haspect]
  cases d with
  | row => exact (min_le_left _ _).trans (mul_le_of_le_one_right hregion.1 hratio)
  | column => exact (min_le_right _ _).trans (mul_le_of_le_one_right hregion.2 hratio)

theorem within_axis_of_centers {size : Size Rat} {f : Fitted Rat} (hoffset : layout.offset = none)
    (h : s.fit layout size = .ok f) {d : Direction} (hcenters : layout.position.Centers d) :
    d.near (s.region (layout.region.getD default)) ≤ d.near f.box ∧
      d.far f.box ≤ d.far (s.region (layout.region.getD default)) := by
  have hextent := extent_le_of_fit h d
  obtain ⟨-, hbox⟩ := box_of_fit h
  -- an axis that is centered has no padding
  have hleaves : layout.position.Leaves d 0 (s.region (layout.region.getD default)) f.box := by
    have hany := boxAt_origin_leaves (s := s) hoffset d
      (Size.largest (size.width / size.height) (s.room layout))
    rw [← hbox] at hany
    exact ⟨fun hn => absurd hn (hcenters _), fun hn => absurd hn (hcenters _), hany.centered⟩
  exact (hleaves.within_axis_iff (le_refl 0)).mpr ⟨fun _ => hextent, fun hn => absurd hcenters hn⟩

/-- What stands at an anchor keeps exactly the padding from the edges that the anchor names and
stands in the middle of the other axes, however large it is. So what is placed without an offset
stays in its region exactly where the region has room for it, and what is fitted never leaves it
along an axis in whose middle it stands. An offset moves a box, and does nothing else. -/
theorem placing_leaves_padding (s : Stage Rat) :
    (∀ (a : Anchor) (d : Direction) (bounds : Box Rat) (size : Size Rat) (padding : Rat),
      a.Leaves d padding bounds (size.boxAt (a.place bounds size padding))) ∧
    (∀ layout : Placing Rat, 0 ≤ s.measures.positionPadding → layout.offset = none →
      (∀ size f, s.fit layout size = .ok f →
        (f.box.Within (s.region (layout.region.getD default)) ↔
          layout.position.HasRoom s.measures.positionPadding
            (s.region (layout.region.getD default)) f.box.size)) ∧
      ∀ text size family box, s.placeText layout text size family = .ok box →
        (box.Within (s.region (layout.region.getD default)) ↔
          layout.position.HasRoom s.measures.positionPadding
            (s.region (layout.region.getD default)) box.size)) ∧
    (∀ (layout : Placing Rat) size f, layout.offset = none → s.fit layout size = .ok f →
      ∀ d, layout.position.Centers d →
        d.near (s.region (layout.region.getD default)) ≤ d.near f.box ∧
          d.far f.box ≤ d.far (s.region (layout.region.getD default))) ∧
    ∀ (layout : Placing Rat) (v : Point Rat),
      (∀ size, s.fit { layout with offset := some v } size =
        (s.fit { layout with offset := none } size).map fun f => f.move v) ∧
      ∀ text size family, s.placeText { layout with offset := some v } text size family =
        (s.placeText { layout with offset := none } text size family).map fun b => b.move v := by
  refine ⟨fun a d => a.place_leaves d, fun layout hpadding hoffset => ⟨?_, ?_⟩,
    fun layout size f hoffset h d => within_axis_of_centers hoffset h,
    fun layout v => ⟨s.fit_offset layout v, s.placeText_offset layout v⟩⟩
  · intro size f h
    refine Anchor.within_iff_hasRoom (fun d => ?_) hpadding
    rw [(box_of_fit h).2]
    exact boxAt_origin_leaves hoffset d _
  · intro text fontSize family box h
    refine Anchor.within_iff_hasRoom (fun d => ?_) hpadding
    rw [box_of_placeText h]
    exact boxAt_origin_leaves hoffset d _

theorem lighthouse_leaves_padding :
    let layout : Placing Rat := ⟨.right, some .leftThird, some .fill, none⟩
    (∃ f, lighthouse.1.fit layout lighthouse.2.2 = .ok f ∧ f.box.Within ⟨0, 0, 640, 1080⟩) ∧
    ∃ box, lighthouse.1.placeText layout "The Lighthouse at the End" 60 "Caveat" = .ok box ∧
      ¬ box.Within ⟨0, 0, 640, 1080⟩ := by
  intro layout
  have hregion : lighthouse.1.region .leftThird = ⟨0, 0, 640, 1080⟩ := by decide +kernel
  have hfit : lighthouse.1.fit layout lighthouse.2.2 = .ok ⟨⟨347, 54, 243, 972⟩, 243 / 100⟩ :=
    toOption_eq_some_iff.mp (by decide +kernel)
  have htext : lighthouse.1.placeText layout "The Lighthouse at the End" 60 "Caveat" =
      .ok ⟨-85, 504, 675, 72⟩ := toOption_eq_some_iff.mp (by decide +kernel)
  obtain ⟨-, hroom, -⟩ := placing_leaves_padding lighthouse.1
  obtain ⟨hfits, htexts⟩ := hroom layout (by decide +kernel) rfl
  refine ⟨⟨_, hfit, hregion ▸ (hfits _ _ hfit).mpr fun d => ?_⟩, _, htext, fun hwithin => ?_⟩
  · simp only [Anchor.centers_iff]
    cases d <;> decide +kernel
  · have hlong := ((htexts _ _ _ _ htext).mp (hregion ▸ hwithin) .row).2
    rw [Anchor.centers_iff] at hlong
    exact absurd (hlong (by decide)) (by decide +kernel)

end Stage
end Storyboard
