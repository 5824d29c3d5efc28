import Storyboard.Proofs.Collapse
import Storyboard.Proofs.Fitting

set_option autoImplicit false

namespace Storyboard

namespace Direction

theorem size_extent (d : Direction) (s : Size Rat) : d.size (d.extent s) = s := by
  cases d <;> rfl

/-- What takes its share of an axis is fitted into a room that is as long as the share and as deep as
the cap. -/
theorem shareSize_eq_largest {aspect : Rat} (h : 0 < aspect) (d : Direction) (share cap : Rat) :
    d.shareSize aspect share cap = Size.largest aspect (d.size ⟨share, cap⟩) := by
  rw [← d.size_extent (d.shareSize aspect share cap), extent_shareSize h, Size.largest_eq h]
  cases d with
  | row =>
    simp only [size, crossRate, Scalar.rat_one, div_div_eq_mul_div, div_one, mul_one_div]
    rw [Scalar.min_mul_eq h, mul_div_cancel_right₀ _ h.ne']
  | column =>
    simp only [size, crossRate]
    rw [Scalar.min_mul_eq h, min_comm share]

end Direction

namespace Sizing
variable {d : Direction} {items : List (Member Rat)}

theorem exists_scale {z : Sizing} (hz : z ≠ .uniform) (h : ∀ m ∈ items, m.Regular)
    (main cap gap : Rat) :
    ∃ t : Member Rat → Rat, z.sizes d items main cap gap =
      items.map fun m => ⟨t m * m.size.width, t m * m.size.height⟩ := by
  cases z with
  | uniform => contradiction
  | intrinsic =>
    refine ⟨fun _ => factor d items main cap gap, ?_⟩
    simp only [intrinsic_sizes, mul_comm]
  | fill =>
    refine ⟨fun m => m.size.fillScale (d.size ⟨share items.length main gap, cap⟩), ?_⟩
    rw [fill_sizes]
    refine List.map_congr_left fun m hm => ?_
    rw [Direction.shareSize_eq_largest (h m hm).aspect_pos, (h m hm).aspect_eq,
      Size.largest_of_size (h m hm).size_pos]

theorem widest_isGreatest (hne : items ≠ []) (h : ∀ m ∈ items, m.Regular) :
    IsGreatest {c | ∃ m ∈ items, (d.extent m.size).cross = c} (widest d items) := by
  constructor
  · rcases Scalar.foldl_greatest_eq_or_mem 0 (items.map fun m => (d.extent m.size).cross) with
      hzero | hmem
    · exact absurd hzero (widest_pos hne h).ne'
    · exact List.mem_map.mp hmem
  · intro c hc
    obtain ⟨m, hm, rfl⟩ := hc
    exact cross_le_widest hm

theorem factor_isGreatest (hne : items ≠ []) (h : ∀ m ∈ items, m.Regular) (main cap gap : Rat) :
    IsGreatest {t | t * (items.map fun m => (d.extent m.size).main).sum +
        (items.length - 1) * gap ≤ main ∧ t * widest d items ≤ cap}
      (factor d items main cap gap) := by
  simp only [← le_sub_iff_add_le]
  exact Scalar.isGreatest_min_div (sum_main_pos hne h) (widest_pos hne h) _ cap

end Sizing

namespace Stage
variable {s : Stage Rat} {layout : Flow Rat} {items : List (Member Rat)}

/-- The room of one of `n` items: an equal share of what the gaps leave, up to the cap across. -/
def itemRoom (s : Stage Rat) (layout : Flow Rat) (n : Nat) : Size Rat :=
  layout.direction.size
    ⟨((s.contentExtent layout).main - (n - 1) * layout.gap.getD s.measures.groupGap) / n,
      (s.contentExtent layout).cross * s.measures.crossAxisCap⟩

theorem itemRoom_pos (hne : items ≠ []) (h : s.HasRoom layout items.length) :
    0 < (s.itemRoom layout items.length).width ∧ 0 < (s.itemRoom layout items.length).height := by
  have hshare := (Sizing.share_pos_iff hne).mpr h.1
  unfold itemRoom
  cases layout.direction with
  | row => exact ⟨hshare, h.2⟩
  | column => exact ⟨h.2, hshare⟩

theorem hasRoom_of_placesById {places : Table (Fitted Rat)} (hne : items ≠ [])
    (hreg : ∀ m ∈ items, m.Regular) (h : s.placesById layout items = .ok places) :
    s.HasRoom layout items.length := by
  obtain ⟨fitted, ha, -⟩ := map_eq_ok_iff.mp h
  exact (exists_arrange_eq_ok_iff hne hreg).mp ⟨fitted, ha⟩

theorem groupSizes_uniform (hne : items ≠ []) (hreg : ∀ m ∈ items, m.Regular)
    (hz : layout.sizing.getD default = .uniform) :
    s.groupSizes layout items =
      items.map fun _ => Size.largest (Sizing.meanAspect items) (s.itemRoom layout items.length) := by
  unfold groupSizes
  rw [hz, Sizing.uniform_sizes, Direction.shareSize_eq_largest (Sizing.meanAspect_pos hne hreg)]
  rfl

theorem groupSizes_fill (hreg : ∀ m ∈ items, m.Regular) (hz : layout.sizing.getD default = .fill) :
    s.groupSizes layout items =
      items.map fun m => Size.largest m.aspect (s.itemRoom layout items.length) := by
  unfold groupSizes
  rw [hz, Sizing.fill_sizes]
  exact List.map_congr_left fun m hm => Direction.shareSize_eq_largest (hreg m hm).aspect_pos _ _ _

def commonScale (s : Stage Rat) (layout : Flow Rat) (items : List (Member Rat)) : Rat :=
  Sizing.factor layout.direction items (s.contentExtent layout).main
    ((s.contentExtent layout).cross * s.measures.crossAxisCap)
    (layout.gap.getD s.measures.groupGap)

theorem groupSizes_intrinsic (hz : layout.sizing.getD default = .intrinsic) :
    s.groupSizes layout items = items.map fun m =>
      ⟨m.size.width * s.commonScale layout items, m.size.height * s.commonScale layout items⟩ := by
  unfold groupSizes
  rw [hz, Sizing.intrinsic_sizes]
  rfl

/-- That the items of a group fill its room, by strategy. -/
def FillsRoom (s : Stage Rat) (layout : Flow Rat) (items : List (Member Rat))
    (places : Table (Fitted Rat)) : Sizing → Prop
  -- one size for all: the largest of their mean aspect ratio
  | .uniform => ∃ size : Size Rat, ∀ m ∈ items, ∃ f, places.get? m.id = some f ∧
      f.scale = f.box.width / m.size.width ∧ f.box.size = size ∧
      size.IsLargest ((items.map Member.aspect).sum / items.length)
        (s.itemRoom layout items.length)
  -- one scale for all: the largest at which the items and their gaps do not pass the main axis, nor
  -- the widest of them the cap
  | .intrinsic => ∃ scale, ∀ m ∈ items, ∃ f, places.get? m.id = some f ∧
      f.scale = f.box.width / m.size.width ∧ f.scale = f.box.height / m.size.height ∧
      f.scale = scale ∧
      ∃ widest, IsGreatest {c | ∃ i ∈ items, (layout.direction.extent i.size).cross = c} widest ∧
        IsGreatest {t | t * (items.map fun i => (layout.direction.extent i.size).main).sum +
            (items.length - 1) * layout.gap.getD s.measures.groupGap ≤ (s.contentExtent layout).main ∧
          t * widest ≤ (s.contentExtent layout).cross * s.measures.crossAxisCap} scale
  -- for each item the largest size of its own aspect ratio
  | .fill => ∀ m ∈ items, ∃ f, places.get? m.id = some f ∧
      f.scale = f.box.width / m.size.width ∧ f.scale = f.box.height / m.size.height ∧
      f.box.size.IsLargest m.aspect (s.itemRoom layout items.length)

section Strategies
variable {places : Table (Fitted Rat)} (hreg : ∀ m ∈ items, m.Regular)
  (hids : (items.map Member.id).Nodup) (h : s.placesById layout items = .ok places)
include hids h

theorem exists_get?_of_groupSizes {g : Member Rat → Size Rat}
    (hg : s.groupSizes layout items = items.map g) :
    ∀ m ∈ items, ∃ f, places.get? m.id = some f ∧ f.box.size = g m ∧
      f.scale = f.box.width / m.size.width := by
  obtain ⟨fitted, ha, rfl⟩ := map_eq_ok_iff.mp h
  refine exists_of_forall₂ ((forall₂_get?_of_arrange ha hids).mp ?_ (forall₂_size_of_arrange hg ha))
  intro m f hget hf
  exact ⟨hget, hf.1, hf.2.trans (hf.1 ▸ rfl)⟩

include hreg

theorem fillsRoom_uniform (hz : layout.sizing.getD default = .uniform) :
    s.FillsRoom layout items places .uniform := by
  refine ⟨Size.largest (Sizing.meanAspect items) (s.itemRoom layout items.length), fun m hm => ?_⟩
  have hne := List.ne_nil_of_mem hm
  obtain ⟨f, hget, hsize, hscale⟩ :=
    exists_get?_of_groupSizes hids h (groupSizes_uniform hne hreg hz) m hm
  exact ⟨f, hget, hscale, hsize, Size.largest_isLargest (Sizing.meanAspect_pos hne hreg)
    (itemRoom_pos hne (hasRoom_of_placesById hne hreg h))⟩

theorem scale_eq_of_get? (hz : layout.sizing.getD default ≠ .uniform) {m : Member Rat}
    (hm : m ∈ items) {f : Fitted Rat} (hget : places.get? m.id = some f) :
    f.scale = f.box.height / m.size.height := by
  obtain ⟨t, ht⟩ := Sizing.exists_scale (d := layout.direction) hz hreg
    (s.contentExtent layout).main ((s.contentExtent layout).cross * s.measures.crossAxisCap)
    (layout.gap.getD s.measures.groupGap)
  obtain ⟨g, hg, hsize, hscale⟩ := exists_get?_of_groupSizes hids h ht m hm
  obtain rfl : g = f := Option.some.inj (hg.symm.trans hget)
  have hpos := (hreg m hm).size_pos
  have hwidth : g.box.width = t m * m.size.width := congrArg Size.width hsize
  have hheight : g.box.height = t m * m.size.height := congrArg Size.height hsize
  rw [hscale, hwidth, hheight, mul_div_cancel_right₀ _ hpos.1.ne', mul_div_cancel_right₀ _ hpos.2.ne']

theorem fillsRoom_intrinsic (hz : layout.sizing.getD default = .intrinsic) :
    s.FillsRoom layout items places .intrinsic := by
  refine ⟨s.commonScale layout items, fun m hm => ?_⟩
  have hne := List.ne_nil_of_mem hm
  obtain ⟨f, hget, hsize, hscale⟩ :=
    exists_get?_of_groupSizes hids h (groupSizes_intrinsic hz) m hm
  have hwidth : f.box.width = m.size.width * s.commonScale layout items :=
    congrArg Size.width hsize
  refine ⟨f, hget, hscale, scale_eq_of_get? hreg hids h (by rw [hz]; decide) hm hget, ?_, _,
    Sizing.widest_isGreatest hne hreg, Sizing.factor_isGreatest hne hreg _ _ _⟩
  rw [hscale, hwidth, mul_div_cancel_left₀ _ (hreg m hm).size_pos.1.ne']

theorem fillsRoom_fill (hz : layout.sizing.getD default = .fill) :
    s.FillsRoom layout items places .fill := by
  intro m hm
  have hne := List.ne_nil_of_mem hm
  obtain ⟨f, hget, hsize, hscale⟩ :=
    exists_get?_of_groupSizes hids h (groupSizes_fill hreg hz) m hm
  refine ⟨f, hget, hscale, scale_eq_of_get? hreg hids h (by rw [hz]; decide) hm hget, ?_⟩
  rw [hsize]
  exact Size.largest_isLargest (hreg m hm).aspect_pos
    (itemRoom_pos hne (hasRoom_of_placesById hne hreg h))

end Strategies

/-- The items of a group that is laid out come out as large as its room and its strategy allow. -/
theorem placesById_fills_room {places : Table (Fitted Rat)}
    (hreg : ∀ m ∈ items, Member.create m.id m.size = .ok m) (hids : (items.map Member.id).Nodup)
    (h : s.placesById layout items = .ok places) :
    s.FillsRoom layout items places (layout.sizing.getD default) := by
  cases hz : layout.sizing.getD default with
  | uniform => exact fillsRoom_uniform hreg hids h hz
  | intrinsic => exact fillsRoom_intrinsic hreg hids h hz
  | fill => exact fillsRoom_fill hreg hids h hz

theorem sky_fills_room :
    ∃ places, sky.1.placesById { sky.2.1 with sizing := none } sky.2.2 = .ok places ∧
      ∃ size : Size Rat, size.IsLargest (3 / 2) ⟨1856 / 3, 400⟩ ∧
        ∀ m ∈ sky.2.2, ∃ f, places.get? m.id = some f ∧
          f.scale = f.box.width / m.size.width ∧ f.box.size = size := by
  have h : (sky.1.placesById { sky.2.1 with sizing := none } sky.2.2).toOption.isSome := by
    decide +kernel
  obtain ⟨places, hplaces⟩ := isSome_toOption_iff.mp h
  obtain ⟨size, hsize⟩ := placesById_fills_room sky_regular (by decide +kernel) hplaces
  have hmean : (sky.2.2.map Member.aspect).sum / sky.2.2.length = 3 / 2 := by decide +kernel
  have hroom : sky.1.itemRoom { sky.2.1 with sizing := none } sky.2.2.length = ⟨1856 / 3, 400⟩ := by
    decide +kernel
  rw [hmean, hroom] at hsize
  obtain ⟨f, -, -, -, hlargest⟩ := hsize ⟨"sun", ⟨200, 200⟩, 1⟩ (by decide +kernel)
  refine ⟨places, hplaces, size, hlargest, fun m hm => ?_⟩
  obtain ⟨f, hget, hscale, heq, -⟩ := hsize m hm
  exact ⟨f, hget, hscale, heq⟩

end Stage
end Storyboard
