import Storyboard.Proofs.Correspondence
import Storyboard.Proofs.LargestSizes

set_option autoImplicit false

namespace Storyboard

section Definitions
variable {α : Type}

def Size.turned (s : Size α) : Size α := ⟨s.height, s.width⟩

def Box.turned (b : Box α) : Box α := ⟨b.y, b.x, b.height, b.width⟩

def Fitted.turned (f : Fitted α) : Fitted α := ⟨f.box.turned, f.scale⟩

/-- The region of the turned canvas that a region turns to. The main content and the banners turn to
none. -/
def Region.turned? : Region → Option Region
  | .full => some .full
  | .topHalf => some .leftHalf
  | .bottomHalf => some .rightHalf
  | .leftHalf => some .topHalf
  | .rightHalf => some .bottomHalf
  | .leftThird => some .topThird
  | .centerThird => some .middleThird
  | .rightThird => some .bottomThird
  | .topThird => some .leftThird
  | .middleThird => some .centerThird
  | .bottomThird => some .rightThird
  | .center => some .center
  | .mainContent | .topBanner | .bottomBanner => none

def Flow.turned (l : Flow α) (region : Option Region) : Flow α :=
  { l with direction := l.direction.across, region }

def Stage.turned (s : Stage α) : Stage α :=
  { s with canvas := ⟨s.canvas.height, s.canvas.width⟩ }

def Fault.turned : Fault α → Fault α
  | .collapsed item size content count => .collapsed item size.turned content.turned count
  | f => f

def Member.turned [Scalar α] (m : Member α) : Member α := .ofSize m.id m.size.turned

end Definitions

theorem Size.proper_turned (s : Size Rat) : s.turned.proper = s.proper := Bool.and_comm _ _

theorem Region.bounds_turned {r r' : Region} (h : r.turned? = some r') (canvas : Size Rat) :
    r'.bounds canvas.turned = (r.bounds canvas).turned := by
  cases r <;> cases h <;> rfl

namespace Direction
variable (d : Direction)

@[simp] theorem extent_turned (s : Size Rat) : d.across.extent s.turned = d.extent s := by
  cases d <;> rfl

theorem size_turned (e : Extent Rat) : d.across.size e = (d.size e).turned := by
  cases d <;> rfl

theorem crossRate_turned (w h : Rat) : d.across.crossRate (h / w) = d.crossRate (w / h) := by
  cases d <;> simp [across, crossRate]

theorem shareSize_turned (w h share cap : Rat) :
    d.across.shareSize (h / w) share cap = (d.shareSize (w / h) share cap).turned := by
  simp only [shareSize, crossRate_turned, size_turned]

theorem boxAt_turned (content : Box Rat) (offset : Extent Rat) (size : Size Rat) :
    d.across.boxAt content.turned offset size.turned = (d.boxAt content offset size).turned := by
  cases d <;> rfl

end Direction

namespace Sizing
variable {items : List (Member Rat)} {z : Sizing}

theorem factor_turned (d : Direction) (items : List (Member Rat)) (main cap gap : Rat) :
    factor d.across (items.map Member.turned) main cap gap = factor d items main cap gap := by
  have hextent (m : Member Rat) : d.across.extent m.turned.size = d.extent m.size :=
    d.extent_turned m.size
  simp only [factor, widest, List.map_map, Function.comp_def, hextent, List.length_map]

/-- A mean of aspect ratios does not turn with them, so the uniform strategy is left out. -/
theorem sizes_turned (hz : z ≠ .uniform) (d : Direction) (hreg : ∀ m ∈ items, m.Regular)
    (main cap gap : Rat) :
    z.sizes d.across (items.map Member.turned) main cap gap =
      (z.sizes d items main cap gap).map Size.turned := by
  cases z with
  | uniform => contradiction
  | intrinsic =>
    rw [intrinsic_sizes, intrinsic_sizes, factor_turned, List.map_map, List.map_map]
    rfl
  | fill =>
    rw [fill_sizes, fill_sizes, List.map_map, List.map_map, List.length_map]
    refine List.map_congr_left fun m hm => ?_
    simp only [Function.comp_apply, (hreg m hm).aspect_eq]
    exact d.shareSize_turned _ _ _ _

theorem scale_eq_of_mem_zip_sizes (hz : z ≠ .uniform) {d : Direction} {main cap gap : Rat}
    (hreg : ∀ m ∈ items, m.Regular) :
    ∀ p ∈ items.zip (z.sizes d items main cap gap),
      p.2.height / p.1.size.height = p.2.width / p.1.size.width := by
  obtain ⟨t, ht⟩ := exists_scale (d := d) hz hreg main cap gap
  rw [ht, ← List.map_prod_left_eq_zip, List.forall_mem_map]
  intro m hm
  have hpos := (hreg m hm).size_pos
  rw [mul_div_cancel_right₀ _ hpos.1.ne', mul_div_cancel_right₀ _ hpos.2.ne']

end Sizing

theorem Member.putAll_turned (d : Direction) (align : Align) (content : Box Rat)
    (step cursor : Rat) {sized : List (Member Rat × Size Rat)}
    (h : ∀ p ∈ sized, p.2.height / p.1.size.height = p.2.width / p.1.size.width) :
    putAll d.across align content.turned step cursor (sized.map (Prod.map turned Size.turned)) =
      (putAll d align content step cursor sized).map Fitted.turned := by
  induction sized generalizing cursor with
  | nil => rfl
  | cons p rest ih =>
    obtain ⟨item, size⟩ := p
    rw [List.forall_mem_cons] at h
    have hroom : d.across.extent ⟨content.turned.width, content.turned.height⟩ =
        d.extent ⟨content.width, content.height⟩ :=
      d.extent_turned ⟨content.width, content.height⟩
    have hscale : size.turned.width / item.turned.size.width = size.width / item.size.width := h.1
    rw [List.map_cons, Prod.map_apply, putAll_cons, putAll_cons, List.map_cons, hroom,
      d.extent_turned, d.boxAt_turned, hscale, ih _ h.2]
    rfl

namespace Stage
variable {s : Stage Rat} {layout : Flow Rat} {region : Option Region} {items : List (Member Rat)}

section Turned
variable (hregion : (layout.region.getD default).turned? = some (region.getD default))
include hregion

theorem content_turned : s.turned.content (layout.turned region) = (s.content layout).turned := by
  have hbounds := Region.bounds_turned hregion s.canvas.size
  unfold content Stage.region
  exact congrArg (fun b => b.inset (layout.padding.getD s.measures.groupPadding)) hbounds

theorem contentExtent_turned :
    s.turned.contentExtent (layout.turned region) = s.contentExtent layout := by
  unfold contentExtent
  rw [content_turned hregion]
  exact layout.direction.extent_turned ⟨(s.content layout).width, (s.content layout).height⟩

variable (hsizing : layout.sizing.getD default ≠ .uniform) (hreg : ∀ m ∈ items, m.Regular)
include hsizing hreg

theorem groupSizes_turned :
    s.turned.groupSizes (layout.turned region) (items.map Member.turned) =
      (s.groupSizes layout items).map Size.turned := by
  change (layout.sizing.getD default).sizes layout.direction.across (items.map Member.turned)
      (s.turned.contentExtent (layout.turned region)).main
      ((s.turned.contentExtent (layout.turned region)).cross * s.measures.crossAxisCap)
      (layout.gap.getD s.measures.groupGap) = _
  rw [contentExtent_turned hregion]
  exact Sizing.sizes_turned hsizing _ hreg _ _ _

theorem groupSpacing_turned :
    s.turned.groupSpacing (layout.turned region) (items.map Member.turned) =
      s.groupSpacing layout items := by
  unfold groupSpacing
  rw [contentExtent_turned hregion, groupSizes_turned hregion hsizing hreg, List.map_map,
    List.length_map]
  simp only [Function.comp_def, Flow.turned, Direction.extent_turned]
  rfl

theorem corresponds_turned :
    Corresponds Size.turned Fitted.turned Fault.turned s s.turned layout (layout.turned region)
      items (items.map Member.turned) where
  ids := by
    rw [List.map_map]
    rfl
  sizes := groupSizes_turned hregion hsizing hreg
  proper := Size.proper_turned
  faults id size count := by
    unfold contentSize
    rw [content_turned hregion]
    rfl
  places := by
    unfold groupPlaces
    rw [groupSpacing_turned hregion hsizing hreg, content_turned hregion,
      groupSizes_turned hregion hsizing hreg, List.zip_map]
    exact Member.putAll_turned _ _ _ _ _ (Sizing.scale_eq_of_mem_zip_sizes hsizing hreg)

end Turned

/-- Rows and columns are each other turned over. Where the items keep their aspect ratios, the turned
items on the turned canvas, along the other axis of the region that the region turns to, fail where
the group failed and otherwise come to the places of the group turned over, at the same scales. -/
theorem placesById_turned (s : Stage Rat) (layout : Flow Rat) (region : Option Region)
    (items : List (Member Rat))
    (hregion : (layout.region.getD default).turned? = some (region.getD default))
    (hsizing : layout.sizing = some .fill ∨ layout.sizing = some .intrinsic)
    (hreg : ∀ m ∈ items, Member.create m.id m.size = .ok m) :
    (∀ m ∈ items, Member.create m.id m.size.turned = .ok m.turned) ∧
      s.turned.placesById (layout.turned region) (items.map Member.turned) =
        ((s.placesById layout items).map (Table.map Fitted.turned)).mapError Fault.turned := by
  have hkeeps : layout.sizing.getD default ≠ .uniform := by
    rcases hsizing with h | h <;> rw [h] <;> decide
  refine ⟨fun m hm => ?_, (corresponds_turned hregion hkeeps hreg).placesById_eq⟩
  rw [Member.create_eq_ok_iff, Size.proper_turned]
  exact ⟨(Member.create_eq_ok_iff.mp (hreg m hm)).1, rfl⟩

theorem sky_turned :
    ∃ places, sky.1.placesById sky.2.1 sky.2.2 = .ok places ∧ places.size = 3 ∧
      sky.1.turned.placesById (sky.2.1.turned (some .leftHalf)) (sky.2.2.map Member.turned) =
        .ok (places.map Fitted.turned) := by
  have h : (sky.1.placesById sky.2.1 sky.2.2).toOption.any fun places => places.size = 3 := by
    decide +kernel
  obtain ⟨places, hplaces, hsize⟩ := any_toOption_iff.mp h
  have hturned := (placesById_turned sky.1 sky.2.1 (some .leftHalf) sky.2.2 rfl (.inr rfl)
    sky_regular).2
  rw [hplaces] at hturned
  exact ⟨places, hplaces, by simpa using hsize, hturned⟩

end Stage
end Storyboard
