import Storyboard.Proofs.LargestSizes

set_option autoImplicit false

namespace Storyboard

theorem Direction.fillScale_size (d : Direction) (size : Size Rat) (room : Extent Rat) :
    size.fillScale (d.size room) =
      min (room.main / (d.extent size).main) (room.cross / (d.extent size).cross) := by
  cases d with
  | row => rfl
  | column => exact min_comm _ _

namespace Sizing
variable {d : Direction} {items : List (Member Rat)} {main cap gap : Rat}

theorem meanAspect_of_aspect {aspect : Rat} (hne : items ≠ []) (h : ∀ m ∈ items, m.aspect = aspect) :
    meanAspect items = aspect := by
  have hn : (items.length : Rat) ≠ 0 := Nat.cast_ne_zero.mpr (mt List.length_eq_zero_iff.mp hne)
  have hall : items.map Member.aspect = List.replicate items.length aspect := by
    rw [List.map_congr_left h, List.map_const']
  rw [meanAspect, hall, List.sum_replicate, nsmul_eq_mul, mul_div_cancel_left₀ _ hn]

theorem uniform_sizes_eq_fill_sizes {aspect : Rat} (h : ∀ m ∈ items, m.aspect = aspect) :
    uniform.sizes d items main cap gap = fill.sizes d items main cap gap := by
  rw [uniform_sizes, fill_sizes]
  refine List.map_congr_left fun m hm => ?_
  rw [meanAspect_of_aspect (List.ne_nil_of_mem hm) h, h m hm]

section Size
variable {size : Size Rat} (hreg : ∀ m ∈ items, m.Regular) (hsize : ∀ m ∈ items, m.size = size)
include hreg hsize

theorem widest_of_size (hne : items ≠ []) : widest d items = (d.extent size).cross := by
  obtain ⟨⟨m, hm, hwidest⟩, -⟩ := widest_isGreatest (d := d) hne hreg
  rw [← hwidest, hsize m hm]

theorem factor_of_size (hne : items ≠ []) :
    factor d items main cap gap =
      size.fillScale (d.size ⟨share items.length main gap, cap⟩) := by
  have hall : items.map (fun m => (d.extent m.size).main) =
      List.replicate items.length (d.extent size).main := by
    rw [List.map_congr_left fun m hm => congrArg (fun s => (d.extent s).main) (hsize m hm),
      List.map_const']
  rw [factor, hall, List.sum_replicate, nsmul_eq_mul, widest_of_size hreg hsize hne,
    d.fillScale_size, share, div_div]

theorem intrinsic_sizes_eq_fill_sizes :
    intrinsic.sizes d items main cap gap = fill.sizes d items main cap gap := by
  rw [intrinsic_sizes, fill_sizes]
  refine List.map_congr_left fun m hm => ?_
  rw [factor_of_size hreg hsize (List.ne_nil_of_mem hm), ← hsize m hm,
    Direction.shareSize_eq_largest (hreg m hm).aspect_pos, (hreg m hm).aspect_eq,
    Size.largest_of_size (hreg m hm).size_pos, mul_comm m.size.width, mul_comm m.size.height]

theorem sizes_eq_fill_sizes (z : Sizing) :
    z.sizes d items main cap gap = fill.sizes d items main cap gap := by
  cases z with
  | uniform =>
    have haspect : ∀ m ∈ items, m.aspect = size.width / size.height := fun m hm => by
      rw [(hreg m hm).aspect_eq, hsize m hm]
    exact uniform_sizes_eq_fill_sizes haspect
  | intrinsic => exact intrinsic_sizes_eq_fill_sizes hreg hsize
  | fill => rfl

end Size
end Sizing

namespace Stage

theorem placesById_congr_sizing {s : Stage Rat} {layout : Flow Rat} {items : List (Member Rat)}
    {z z' : Option Sizing}
    (h : ∀ main cap gap, (z.getD default).sizes layout.direction items main cap gap =
      (z'.getD default).sizes layout.direction items main cap gap) :
    s.placesById { layout with sizing := z } items =
      s.placesById { layout with sizing := z' } items := by
  have hsizes : s.groupSizes { layout with sizing := z } items =
      s.groupSizes { layout with sizing := z' } items := h _ _ _
  unfold placesById arrange
  rw [hsizes]
  rfl

/-- What takes a share of the main axis up to a cap across it is fitted into the room that the two
make. So all strategies place items of one size alike, one item among them, and items of one aspect
ratio are placed alike by the strategies that go by aspect ratios. -/
theorem sizings_agree (s : Stage Rat) (layout : Flow Rat) (items : List (Member Rat)) :
    (∀ (d : Direction) (aspect share cap : Rat), 0 < aspect →
      d.shareSize aspect share cap = Size.largest aspect
        (match d with
        | .row => ⟨share, cap⟩
        | .column => ⟨cap, share⟩)) ∧
    (∀ size, (∀ m ∈ items, Member.create m.id size = .ok m) → ∀ z z' : Option Sizing,
      s.placesById { layout with sizing := z } items =
        s.placesById { layout with sizing := z' } items) ∧
    ∀ aspect, (∀ m ∈ items, m.aspect = aspect) →
      s.placesById { layout with sizing := some .uniform } items =
        s.placesById { layout with sizing := some .fill } items := by
  refine ⟨fun d aspect share cap h => ?_, fun size hmade z z' => ?_, fun aspect h => ?_⟩
  · rw [Direction.shareSize_eq_largest h]
    cases d <;> rfl
  · have hsize : ∀ m ∈ items, m.size = size := fun m hm => by
      rw [(Member.create_eq_ok_iff.mp (hmade m hm)).2]
    have hreg : ∀ m ∈ items, m.Regular := fun m hm => by
      rw [Member.Regular, hsize m hm, hmade m hm]
    refine placesById_congr_sizing fun main cap gap => ?_
    rw [Sizing.sizes_eq_fill_sizes hreg hsize (z.getD default),
      Sizing.sizes_eq_fill_sizes hreg hsize (z'.getD default)]
  · exact placesById_congr_sizing fun main cap gap => Sizing.uniform_sizes_eq_fill_sizes h

theorem column_sizings_agree :
    let column : Flow Rat := ⟨.column, none, none, none, none, some 10, none⟩
    let clouds : List (Member Rat) := [⟨"left", ⟨300, 100⟩, 3⟩, ⟨"right", ⟨300, 100⟩, 3⟩]
    let kites : List (Member Rat) := [⟨"red", ⟨50, 100⟩, 1 / 2⟩, ⟨"blue", ⟨10, 20⟩, 1 / 2⟩]
    Direction.column.shareSize (3 : Rat) 400 500 = Size.largest 3 ⟨500, 400⟩ ∧
      (∃ places, sky.1.placesById { column with sizing := some .uniform } clouds = .ok places ∧
        sky.1.placesById { column with sizing := some .intrinsic } clouds = .ok places) ∧
      ∃ places, sky.1.placesById { column with sizing := some .uniform } kites = .ok places ∧
        sky.1.placesById { column with sizing := some .fill } kites = .ok places := by
  intro column clouds kites
  have hmade : ∀ m ∈ clouds, Member.create m.id ⟨300, 100⟩ = .ok m := by
    simp only [Member.create_eq_ok_iff]
    decide +kernel
  have hclouds : (sky.1.placesById { column with sizing := some .uniform } clouds).toOption.isSome :=
    by decide +kernel
  have hkites : (sky.1.placesById { column with sizing := some .uniform } kites).toOption.isSome :=
    by decide +kernel
  obtain ⟨cloudPlaces, hc⟩ := isSome_toOption_iff.mp hclouds
  obtain ⟨kitePlaces, hk⟩ := isSome_toOption_iff.mp hkites
  obtain ⟨hfit, hsame, -⟩ := sizings_agree sky.1 column clouds
  obtain ⟨-, -, haspect⟩ := sizings_agree sky.1 column kites
  exact ⟨hfit .column 3 400 500 (by decide +kernel),
    ⟨cloudPlaces, hc, hc ▸ hsame _ hmade _ _⟩,
    ⟨kitePlaces, hk, hk ▸ (haspect (1 / 2) (by decide +kernel)).symm⟩⟩

end Stage
end Storyboard
