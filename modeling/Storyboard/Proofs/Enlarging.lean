import Mathlib.Tactic.Ring
import Storyboard.Proofs.Correspondence
import Storyboard.Proofs.Placement

set_option autoImplicit false

namespace Storyboard

section Definitions
variable (k : Rat)

def Size.enlarge (s : Size Rat) : Size Rat := ⟨s.width * k, s.height * k⟩

def Box.enlarge (b : Box Rat) : Box Rat := ⟨b.x * k, b.y * k, b.width * k, b.height * k⟩

def Fitted.enlarge (f : Fitted Rat) : Fitted Rat := ⟨f.box.enlarge k, f.scale * k⟩

def Extent.enlarge (e : Extent Rat) : Extent Rat := ⟨e.main * k, e.cross * k⟩

def Spacing.enlarge (p : Spacing Rat) : Spacing Rat := ⟨p.lead * k, p.step * k⟩

def Placing.enlarge (l : Placing Rat) : Placing Rat :=
  { l with offset := l.offset.map fun p => p.scale k }

def Flow.enlarge (l : Flow Rat) : Flow Rat :=
  { l with gap := l.gap.map (· * k), padding := l.padding.map (· * k) }

/-- The lengths among the measures; the others are fractions. -/
def Measures.enlarge (m : Measures Rat) : Measures Rat :=
  { m with
    positionPadding := m.positionPadding * k
    groupPadding := m.groupPadding * k
    groupGap := m.groupGap * k }

def Fault.enlarge : Fault Rat → Fault Rat
  | .fontSize given => .fontSize (given * k)
  | .collapsed item size content count =>
    .collapsed item (size.enlarge k) (content.enlarge k) count
  | f => f

end Definitions

def Canvas.enlarge (k : Nat) (c : Canvas) : Canvas :=
  ⟨.ofNat (c.width.toNat * k), .ofNat (c.height.toNat * k)⟩

def Stage.enlarge (k : Nat) (s : Stage Rat) : Stage Rat :=
  { s with canvas := s.canvas.enlarge k, measures := s.measures.enlarge k }

variable {k : Rat}

theorem Size.proper_enlarge (hk : 0 < k) (s : Size Rat) : (s.enlarge k).proper = s.proper := by
  rw [Bool.eq_iff_iff, rat_proper_iff, rat_proper_iff]
  simp only [enlarge, mul_pos_iff_of_pos_right hk]

theorem Size.largest_enlarge (hk : 0 < k) (aspect : Rat) (room : Size Rat) :
    Size.largest aspect (room.enlarge k) = (Size.largest aspect room).enlarge k := by
  simp only [largest, enlarge, Scalar.rat_least]
  split
  · have hwidth : min (room.width * k) (room.height * k * aspect) =
        min room.width (room.height * aspect) * k := by
      rw [mul_right_comm, min_mul_of_nonneg _ _ hk.le]
    rw [hwidth, mul_div_right_comm]
  · have hheight : min (room.height * k) (room.width * k / aspect) =
        min room.height (room.width / aspect) * k := by
      rw [mul_div_right_comm, min_mul_of_nonneg _ _ hk.le]
    rw [hheight, mul_right_comm]

theorem Box.inset_enlarge (b : Box Rat) (margin : Rat) :
    (b.enlarge k).inset (margin * k) = (b.inset margin).enlarge k := by
  simp only [inset, enlarge, Scalar.rat_two]
  congr 1 <;> ring

theorem Region.bounds_enlarge (canvas : Size Rat) (r : Region) :
    r.bounds (canvas.enlarge k) = (r.bounds canvas).enlarge k := by
  cases r <;> simp only [bounds, Size.enlarge, Box.enlarge, Scalar.rat_zero, zero_mul, sub_mul,
    mul_div_right_comm, ← mul_assoc]

theorem Anchor.place_enlarge (bounds : Box Rat) (size : Size Rat) (padding : Rat) (a : Anchor) :
    a.place (bounds.enlarge k) (size.enlarge k) (padding * k) =
      (a.place bounds size padding).scale k := by
  cases a <;> simp only [place, Size.enlarge, Box.enlarge, Point.scale, Scalar.rat_two] <;>
    congr 1 <;> ring

theorem Point.move_scale (p offset : Point Rat) :
    (p.scale k).move (offset.scale k) = (p.move offset).scale k := by
  simp only [move, scale, add_mul]

namespace Direction

theorem extent_enlarge (d : Direction) (s : Size Rat) :
    d.extent (s.enlarge k) = (d.extent s).enlarge k := d.extent_scale s k

theorem size_enlarge (d : Direction) (e : Extent Rat) :
    d.size (e.enlarge k) = (d.size e).enlarge k := by
  cases d <;> rfl

/-- Whether the cap is passed does not change, as both sides grow alike. -/
theorem shareSize_enlarge (hk : 0 < k) (d : Direction) (aspect share cap : Rat) :
    d.shareSize aspect (share * k) (cap * k) = (d.shareSize aspect share cap).enlarge k := by
  have hcap : cap * k < share * k * d.crossRate aspect ↔ cap < share * d.crossRate aspect := by
    rw [mul_right_comm]
    exact mul_lt_mul_iff_left₀ hk
  simp only [shareSize, hcap, ← size_enlarge]
  split <;> simp only [Extent.enlarge, mul_right_comm, div_mul_eq_mul_div]

end Direction

theorem Sizing.sizes_enlarge (hk : 0 < k) (z : Sizing) (d : Direction) (items : List (Member Rat))
    (main cap gap : Rat) :
    z.sizes d items (main * k) (cap * k) (gap * k) =
      (z.sizes d items main cap gap).map (Size.enlarge k) := by
  have hshare (n : Rat) :
      (main * k - (n - 1.0) * (gap * k)) / n = (main - (n - 1.0) * gap) / n * k := by
    rw [Scalar.rat_one]
    ring
  cases z with
  | uniform =>
    simp only [sizes, hshare, Direction.shareSize_enlarge hk, List.map_map, Function.comp_def]
  | intrinsic =>
    have hfactor :
        factor d items (main * k) (cap * k) (gap * k) = factor d items main cap gap * k := by
      unfold factor
      rw [min_mul_of_nonneg _ _ hk.le]
      congr 1 <;> ring
    simp only [intrinsic_sizes, hfactor, List.map_map, Function.comp_def, Size.enlarge, mul_assoc]
  | fill =>
    simp only [sizes, hshare, Direction.shareSize_enlarge hk, List.map_map, Function.comp_def]

theorem Justify.spacing_enlarge (j : Justify) (main total gap n : Rat) :
    j.spacing (main * k) (total * k) (gap * k) n = (j.spacing main total gap n).enlarge k := by
  cases j with
  | spaceBetween =>
    simp only [spacing, Scalar.rat_zero, Scalar.rat_one]
    split <;> simp only [Spacing.enlarge] <;> congr 1 <;> ring
  | _ =>
    simp only [spacing, Spacing.enlarge, Scalar.rat_zero, Scalar.rat_one, Scalar.rat_two]
    congr 1 <;> ring

theorem Align.offset_enlarge (a : Align) (cross itemCross : Rat) :
    a.offset (cross * k) (itemCross * k) = a.offset cross itemCross * k := by
  cases a <;> simp only [offset, Scalar.rat_zero, Scalar.rat_two] <;> ring

theorem Direction.boxAt_enlarge (d : Direction) (content : Box Rat) (offset : Extent Rat)
    (size : Size Rat) :
    d.boxAt (content.enlarge k) (offset.enlarge k) (size.enlarge k) =
      (d.boxAt content offset size).enlarge k := by
  simp only [boxAt, size_enlarge, Box.enlarge, Size.enlarge, add_mul]

theorem Member.putAll_enlarge (d : Direction) (align : Align) (content : Box Rat)
    (step cursor : Rat) (sized : List (Member Rat × Size Rat)) :
    putAll d align (content.enlarge k) (step * k) (cursor * k)
        (sized.map fun p => (p.1, p.2.enlarge k)) =
      (putAll d align content step cursor sized).map (Fitted.enlarge k) := by
  induction sized generalizing cursor with
  | nil => rfl
  | cons p rest ih =>
    obtain ⟨item, size⟩ := p
    have hcross : d.extent ⟨(content.enlarge k).width, (content.enlarge k).height⟩ =
        (d.extent ⟨content.width, content.height⟩).enlarge k :=
      d.extent_enlarge ⟨content.width, content.height⟩
    have hoffset (extent room : Extent Rat) :
        (⟨cursor * k, align.offset (room.enlarge k).cross (extent.enlarge k).cross⟩ : Extent Rat) =
          Extent.enlarge k ⟨cursor, align.offset room.cross extent.cross⟩ :=
      congrArg (Extent.mk _) (align.offset_enlarge _ _)
    have hscale : (size.enlarge k).width / item.size.width = size.width / item.size.width * k :=
      mul_div_right_comm _ _ _
    have hcursor : cursor * k + (((d.extent size).enlarge k).main + step * k) =
        (cursor + ((d.extent size).main + step)) * k := by
      simp only [Extent.enlarge, add_mul]
    rw [List.map_cons, putAll_cons, putAll_cons, List.map_cons, hcross, d.extent_enlarge, hoffset,
      d.boxAt_enlarge, hscale, hcursor, ih]
    rfl

theorem Canvas.size_enlarge {n : Nat} {c : Canvas} (hwidth : c.width.toNat * n < UInt32.size)
    (hheight : c.height.toNat * n < UInt32.size) :
    (c.enlarge n).size = (c.size : Size Rat).enlarge n := by
  simp only [size, enlarge, Size.enlarge, UInt32.toNat_ofNat_of_lt' hwidth,
    UInt32.toNat_ofNat_of_lt' hheight, Scalar.rat_ofNat, Nat.cast_mul]

namespace Stage
variable {s : Stage Rat} {n : Nat}

section Enlarged
variable (hn : 0 < (n : Rat)) (hcanvas : (s.canvas.enlarge n).size = s.canvas.size.enlarge (n : Rat))
include hcanvas

theorem region_enlarge (r : Region) : (s.enlarge n).region r = (s.region r).enlarge n := by
  simp only [region, enlarge, hcanvas, Region.bounds_enlarge]

theorem pointAt_enlarge (e : Endpoint) : (s.enlarge n).pointAt e = (s.pointAt e).scale n := by
  have h := e.anchor.place_enlarge (k := n) (s.region e.region) ⟨0, 0⟩ 0
  simp only [Size.enlarge, zero_mul] at h
  simp only [pointAt, region_enlarge hcanvas, Scalar.rat_zero, h]

theorem origin_enlarge (layout : Placing Rat) (size : Size Rat) :
    (s.enlarge n).origin (layout.enlarge n) (size.enlarge n) = (s.origin layout size).scale n := by
  have hoffset : ((layout.enlarge n).offset.getD ⟨0.0, 0.0⟩) =
      (layout.offset.getD ⟨0.0, 0.0⟩).scale n := by
    cases h : layout.offset <;> simp [Placing.enlarge, h, Point.scale]
  simp only [origin, region_enlarge hcanvas, hoffset, ← Point.move_scale, ← Anchor.place_enlarge]
  rfl

theorem room_enlarge (layout : Placing Rat) :
    (s.enlarge n).room (layout.enlarge n) = (s.room layout).enlarge n := by
  simp only [room, region_enlarge hcanvas, Placing.enlarge, Box.enlarge, Size.enlarge, mul_right_comm]

include hn

theorem fit_enlarge (layout : Placing Rat) (size : Size Rat) :
    (s.enlarge n).fit (layout.enlarge n) size =
      ((s.fit layout size).map (Fitted.enlarge n)).mapError (Fault.enlarge n) := by
  unfold fit
  split
  · dsimp only
    rw [room_enlarge hcanvas, Size.largest_enlarge hn, origin_enlarge hcanvas]
    generalize Size.largest (size.width / size.height) (s.room layout) = fitted
    have hscale : (fitted.enlarge n).width / size.width = fitted.width / size.width * n :=
      mul_div_right_comm _ _ _
    rw [hscale]
    rfl
  · rfl

theorem placeText_enlarge (layout : Placing Rat) (text : String) (fontSize : Rat) (family : String) :
    (s.enlarge n).placeText (layout.enlarge n) text (fontSize * n) family =
      ((s.placeText layout text fontSize family).map (Box.enlarge n)).mapError (Fault.enlarge n) := by
  have hproper : Scalar.proper (fontSize * n) = Scalar.proper fontSize := by
    rw [Bool.eq_iff_iff, Scalar.rat_proper_iff, Scalar.rat_proper_iff, mul_pos_iff_of_pos_right hn]
  have hsize (advance : Rat) : (s.enlarge n).textSize text (fontSize * n) advance =
      (s.textSize text fontSize advance).enlarge n := by
    simp only [textSize, Size.enlarge, enlarge, Measures.enlarge]
    congr 1 <;> ring
  unfold placeText
  rw [hproper]
  split
  · dsimp only
    rw [hsize, origin_enlarge hcanvas]
    rfl
  · rfl

omit hn

theorem content_enlarge (layout : Flow Rat) :
    (s.enlarge n).content (layout.enlarge n) = (s.content layout).enlarge n := by
  have hpadding : (layout.enlarge n).padding.getD (s.enlarge n).measures.groupPadding =
      layout.padding.getD s.measures.groupPadding * n :=
    Option.getD_map (· * (n : Rat)) s.measures.groupPadding layout.padding
  unfold content
  rw [hpadding, region_enlarge hcanvas, Box.inset_enlarge]
  rfl

omit hcanvas in
theorem gap_enlarge (layout : Flow Rat) :
    (layout.enlarge n).gap.getD (s.enlarge n).measures.groupGap =
      layout.gap.getD s.measures.groupGap * n :=
  Option.getD_map (· * (n : Rat)) s.measures.groupGap layout.gap

theorem contentExtent_enlarge (layout : Flow Rat) :
    (s.enlarge n).contentExtent (layout.enlarge n) = (s.contentExtent layout).enlarge n := by
  unfold contentExtent
  rw [content_enlarge hcanvas]
  exact layout.direction.extent_enlarge ⟨(s.content layout).width, (s.content layout).height⟩

include hn

theorem groupSizes_enlarge (layout : Flow Rat) (items : List (Member Rat)) :
    (s.enlarge n).groupSizes (layout.enlarge n) items =
      (s.groupSizes layout items).map (Size.enlarge n) := by
  have hcap : ((s.contentExtent layout).enlarge n).cross * s.measures.crossAxisCap =
      (s.contentExtent layout).cross * s.measures.crossAxisCap * n := mul_right_comm _ _ _
  change (layout.sizing.getD default).sizes layout.direction items
      ((s.enlarge n).contentExtent (layout.enlarge n)).main
      (((s.enlarge n).contentExtent (layout.enlarge n)).cross * s.measures.crossAxisCap)
      ((layout.enlarge n).gap.getD (s.enlarge n).measures.groupGap) = _
  rw [contentExtent_enlarge hcanvas, gap_enlarge, hcap]
  exact Sizing.sizes_enlarge hn _ _ _ _ _ _

theorem groupSpacing_enlarge (layout : Flow Rat) (items : List (Member Rat)) :
    (s.enlarge n).groupSpacing (layout.enlarge n) items =
      (s.groupSpacing layout items).enlarge n := by
  have htotal (sizes : List (Size Rat)) :
      ((sizes.map (Size.enlarge n)).map fun size => (layout.direction.extent size).main).sum =
        (sizes.map fun size => (layout.direction.extent size).main).sum * n := by
    simp only [List.map_map, Function.comp_def, Direction.extent_enlarge, Extent.enlarge,
      List.sum_map_mul_right]
  unfold groupSpacing
  rw [contentExtent_enlarge hcanvas, groupSizes_enlarge hn hcanvas, gap_enlarge, Scalar.rat_sum,
    Scalar.rat_sum]
  exact (congrArg (fun total => Justify.spacing _ _ total _ _) (htotal _)).trans
    (Justify.spacing_enlarge _ _ _ _ _)

theorem corresponds_enlarge (layout : Flow Rat) (items : List (Member Rat)) :
    Corresponds (Size.enlarge n) (Fitted.enlarge n) (Fault.enlarge n) s (s.enlarge n) layout
      (layout.enlarge n) items items where
  ids := rfl
  sizes := groupSizes_enlarge hn hcanvas layout items
  proper := Size.proper_enlarge hn
  faults id size count := by
    unfold contentSize
    rw [content_enlarge hcanvas]
    rfl
  places := by
    unfold groupPlaces
    rw [groupSpacing_enlarge hn hcanvas, content_enlarge hcanvas, groupSizes_enlarge hn hcanvas,
      List.zip_map_right]
    exact Member.putAll_enlarge _ _ _ _ _ _

theorem placesById_enlarge (layout : Flow Rat) (items : List (Member Rat)) :
    (s.enlarge n).placesById (layout.enlarge n) items =
      ((s.placesById layout items).map (Table.map (Fitted.enlarge n))).mapError (Fault.enlarge n) :=
  (corresponds_enlarge hn hcanvas layout items).placesById_eq

end Enlarged

/-- Layouts do not depend on the resolution: on a canvas that is `n` times as large, with all lengths
that are given as many times as large, every box, every point and every scale is too, and a layout
fails where it did, with the same fault. -/
theorem layouts_enlarge (s : Stage Rat) {n : Nat} (hn : 1 ≤ n)
    (hwidth : s.canvas.width.toNat * n < UInt32.size)
    (hheight : s.canvas.height.toNat * n < UInt32.size) :
    (∀ r, (s.enlarge n).region r = (s.region r).enlarge n) ∧
    (∀ e, (s.enlarge n).pointAt e = (s.pointAt e).scale n) ∧
    (∀ c, (s.enlarge n).connect c = ((s.connect c).1.scale n, (s.connect c).2.scale n)) ∧
    (∀ layout size, (s.enlarge n).fit (layout.enlarge n) size =
      ((s.fit layout size).map (Fitted.enlarge n)).mapError (Fault.enlarge n)) ∧
    (∀ layout text fontSize family,
      (s.enlarge n).placeText (layout.enlarge n) text (fontSize * n) family =
        ((s.placeText layout text fontSize family).map (Box.enlarge n)).mapError
          (Fault.enlarge n)) ∧
    ∀ layout items, (s.enlarge n).placesById (layout.enlarge n) items =
      ((s.placesById layout items).map (Table.map (Fitted.enlarge n))).mapError
        (Fault.enlarge n) := by
  have hpos : 0 < (n : Rat) := Nat.cast_pos.mpr hn
  have hcanvas : (s.canvas.enlarge n).size = s.canvas.size.enlarge (n : Rat) :=
    Canvas.size_enlarge hwidth hheight
  refine ⟨region_enlarge hcanvas, pointAt_enlarge hcanvas, fun c => ?_, fit_enlarge hpos hcanvas,
    placeText_enlarge hpos hcanvas, placesById_enlarge hpos hcanvas⟩
  exact Prod.ext (pointAt_enlarge hcanvas c.source) (pointAt_enlarge hcanvas c.target)

theorem sky_enlarge :
    ∃ places, sky.1.placesById sky.2.1 sky.2.2 = .ok places ∧ places.size = 3 ∧
      (sky.1.enlarge 2).placesById (sky.2.1.enlarge 2) sky.2.2 =
        .ok (places.map (Fitted.enlarge 2)) := by
  have h : (sky.1.placesById sky.2.1 sky.2.2).toOption.any fun places => places.size = 3 := by
    decide +kernel
  obtain ⟨places, hplaces, hsize⟩ := any_toOption_iff.mp h
  have henlarge := (layouts_enlarge sky.1 (n := 2) (by decide) (by decide) (by decide)).2.2.2.2.2
    sky.2.1 sky.2.2
  rw [hplaces] at henlarge
  exact ⟨places, hplaces, by simpa using hsize, henlarge⟩

end Stage
end Storyboard
