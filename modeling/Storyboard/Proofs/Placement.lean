import Storyboard.Proofs.Sizing

set_option autoImplicit false

namespace Storyboard

/-- A spacing that keeps `n` items of a total extent on the main axis, in their order. -/
structure Spacing.Fits (p : Spacing Rat) (main total n : Rat) : Prop where
  lead_nonneg : 0 ≤ p.lead
  step_nonneg : 0 ≤ p.step
  stop_le : p.lead + total + (n - 1) * p.step ≤ main

theorem Justify.spacing_fits (j : Justify) {main total gap n : Rat} (hn : 1 ≤ n) (hgap : 0 ≤ gap)
    (h : total + (n - 1) * gap ≤ main) : (j.spacing main total gap n).Fits main total n := by
  have hgaps : 0 ≤ (n - 1) * gap := mul_nonneg (sub_nonneg.mpr hn) hgap
  have hfree : 0 ≤ main - total := by linarith
  have hn0 : n ≠ 0 := by linarith
  cases j with
  | start =>
    simp only [spacing, Scalar.rat_zero]
    exact ⟨le_refl 0, hgap, by linarith⟩
  | stop =>
    simp only [spacing, Scalar.rat_one]
    exact ⟨by linarith, hgap, by linarith⟩
  | center =>
    simp only [spacing, Scalar.rat_one, Scalar.rat_two]
    exact ⟨by linarith, hgap, by linarith⟩
  | spaceBetween =>
    simp only [spacing, Scalar.rat_zero, Scalar.rat_one]
    split
    · rename_i hlt
      have hpos : 0 < n - 1 := sub_pos.mpr hlt
      refine ⟨le_refl 0, div_nonneg hfree hpos.le, ?_⟩
      rw [mul_div_cancel₀ _ hpos.ne']
      linarith
    · exact ⟨le_refl 0, le_refl 0, by linarith⟩
  | spaceAround =>
    simp only [spacing, Scalar.rat_two]
    have hstep : 0 ≤ (main - total) / n := div_nonneg hfree (by linarith)
    have hall : n * ((main - total) / n) = main - total := mul_div_cancel₀ _ hn0
    exact ⟨by linarith, hstep, by linarith⟩
  | spaceEvenly =>
    simp only [spacing, Scalar.rat_one]
    have hstep : 0 ≤ (main - total) / (n + 1) := div_nonneg hfree (by linarith)
    have hall : (n + 1) * ((main - total) / (n + 1)) = main - total :=
      mul_div_cancel₀ _ (by linarith)
    exact ⟨hstep, hstep, by linarith⟩

theorem Align.offset_bounds (a : Align) {cross itemCross : Rat} (h : itemCross ≤ cross) :
    0 ≤ a.offset cross itemCross ∧ a.offset cross itemCross + itemCross ≤ cross := by
  cases a <;> simp only [offset, Scalar.rat_zero, Scalar.rat_two] <;> constructor <;> linarith

namespace Direction

/-- Boxes one after the other along an axis, with the same distance between any two neighbours. -/
structure Spread (d : Direction) (step : Rat) (fitted : List (Fitted Rat)) : Prop where
  order : fitted.Pairwise fun a b => d.far a.box ≤ d.near b.box
  even : fitted.IsChain fun a b => d.near b.box - d.far a.box = step

def boxAt (d : Direction) (content : Box Rat) (offset : Extent Rat) (size : Size Rat) : Box Rat :=
  ⟨content.x + (d.size offset).width, content.y + (d.size offset).height, size.width, size.height⟩

variable (d : Direction) (content : Box Rat) (offset : Extent Rat) (size : Size Rat)

@[simp] theorem near_boxAt : d.near (d.boxAt content offset size) = d.near content + offset.main := by
  cases d <;> rfl

@[simp] theorem across_near_boxAt :
    d.across.near (d.boxAt content offset size) = d.across.near content + offset.cross := by
  cases d <;> rfl

@[simp] theorem far_boxAt :
    d.far (d.boxAt content offset size) =
      d.near content + offset.main + (d.extent size).main := by
  cases d <;> rfl

@[simp] theorem across_far_boxAt :
    d.across.far (d.boxAt content offset size) =
      d.across.near content + offset.cross + (d.extent size).cross := by
  cases d <;> rfl

end Direction

namespace Member
variable {d : Direction} {align : Align} {content : Box Rat} {step : Rat}

theorem putAll_cons (cursor : Rat) (item : Member Rat) (size : Size Rat)
    (rest : List (Member Rat × Size Rat)) :
    putAll d align content step cursor ((item, size) :: rest) =
      ⟨d.boxAt content
          ⟨cursor, align.offset (d.extent ⟨content.width, content.height⟩).cross
            (d.extent size).cross⟩ size, size.width / item.size.width⟩ ::
        putAll d align content step (cursor + ((d.extent size).main + step)) rest := rfl

theorem le_near_of_mem_putAll {cursor : Rat} {sized : List (Member Rat × Size Rat)}
    (hstep : 0 ≤ step) (hpos : ∀ p ∈ sized, 0 ≤ (d.extent p.2).main) {f : Fitted Rat}
    (hf : f ∈ putAll d align content step cursor sized) : d.near content + cursor ≤ d.near f.box := by
  induction sized generalizing cursor with
  | nil => simp [putAll] at hf
  | cons p rest ih =>
    obtain ⟨item, size⟩ := p
    rw [putAll_cons] at hf
    rcases List.mem_cons.mp hf with rfl | hf
    · simp
    · have hsize : 0 ≤ (d.extent size).main := hpos (item, size) List.mem_cons_self
      have hrest := ih (fun p hp => hpos p (List.mem_cons_of_mem _ hp)) hf
      linarith

theorem far_le_of_mem_putAll {cursor : Rat} {sized : List (Member Rat × Size Rat)}
    (hstep : 0 ≤ step) (hpos : ∀ p ∈ sized, 0 ≤ (d.extent p.2).main) {f : Fitted Rat}
    (hf : f ∈ putAll d align content step cursor sized) :
    d.far f.box + step ≤
      d.near content + cursor + (sized.map fun p => (d.extent p.2).main + step).sum := by
  induction sized generalizing cursor with
  | nil => simp [putAll] at hf
  | cons p rest ih =>
    obtain ⟨item, size⟩ := p
    have hrest : ∀ p ∈ rest, 0 ≤ (d.extent p.2).main :=
      fun p hp => hpos p (List.mem_cons_of_mem _ hp)
    rw [putAll_cons] at hf
    rw [List.map_cons, List.sum_cons]
    rcases List.mem_cons.mp hf with rfl | hf
    · have hsum : 0 ≤ (rest.map fun p => (d.extent p.2).main + step).sum := by
        refine List.sum_nonneg ?_
        rw [List.forall_mem_map]
        exact fun p hp => add_nonneg (hrest p hp) hstep
      rw [Direction.far_boxAt]
      linarith
    · have hle := ih hrest hf
      linarith

theorem across_of_mem_putAll {cursor : Rat} {sized : List (Member Rat × Size Rat)}
    (hcross : ∀ p ∈ sized, (d.extent p.2).cross ≤ (d.extent ⟨content.width, content.height⟩).cross)
    {f : Fitted Rat} (hf : f ∈ putAll d align content step cursor sized) :
    d.across.near content ≤ d.across.near f.box ∧ d.across.far f.box ≤ d.across.far content := by
  induction sized generalizing cursor with
  | nil => simp [putAll] at hf
  | cons p rest ih =>
    obtain ⟨item, size⟩ := p
    rw [putAll_cons] at hf
    rcases List.mem_cons.mp hf with rfl | hf
    · have hoffset := align.offset_bounds (hcross (item, size) List.mem_cons_self)
      rw [Direction.across_near_boxAt, Direction.across_far_boxAt]
      unfold Direction.far
      rw [Direction.extent_across_main]
      constructor <;> linarith
    · exact ih (fun p hp => hcross p (List.mem_cons_of_mem _ hp)) hf

theorem putAll_even (cursor : Rat) (sized : List (Member Rat × Size Rat)) :
    (putAll d align content step cursor sized).IsChain
      fun a b => d.near b.box - d.far a.box = step := by
  induction sized generalizing cursor with
  | nil => exact .nil
  | cons p rest ih =>
    obtain ⟨item, size⟩ := p
    have htail := ih (cursor + ((d.extent size).main + step))
    rw [putAll_cons]
    cases rest with
    | nil => exact .singleton _
    | cons q rest =>
      obtain ⟨next, nextSize⟩ := q
      rw [putAll_cons] at htail ⊢
      refine .cons_cons ?_ htail
      rw [Direction.near_boxAt, Direction.far_boxAt]
      dsimp only
      linarith

theorem putAll_spread {cursor : Rat} {sized : List (Member Rat × Size Rat)}
    (hstep : 0 ≤ step) (hpos : ∀ p ∈ sized, 0 ≤ (d.extent p.2).main) :
    d.Spread step (putAll d align content step cursor sized) := by
  refine ⟨?_, putAll_even cursor sized⟩
  induction sized generalizing cursor with
  | nil => exact .nil
  | cons p rest ih =>
    obtain ⟨item, size⟩ := p
    have hrest : ∀ p ∈ rest, 0 ≤ (d.extent p.2).main :=
      fun p hp => hpos p (List.mem_cons_of_mem _ hp)
    rw [putAll_cons]
    refine .cons ?_ (ih hrest)
    intro f hf
    have hnear := le_near_of_mem_putAll hstep hrest hf
    rw [Direction.far_boxAt]
    linarith

end Member
namespace Stage
variable {s : Stage Rat} {layout : Flow Rat} {items : List (Member Rat)} {fitted : List (Fitted Rat)}

theorem groupSizes_fits (hne : items ≠ []) (hreg : ∀ m ∈ items, m.Regular)
    (hcap : 0 < s.measures.crossAxisCap ∧ s.measures.crossAxisCap ≤ 1)
    (hproper : ∀ size ∈ s.groupSizes layout items, size.proper = true) :
    layout.direction.Fits (s.contentExtent layout).main (s.contentExtent layout).cross
      (layout.gap.getD s.measures.groupGap) (s.groupSizes layout items) := by
  have hfits : layout.direction.Fits (s.contentExtent layout).main
      ((s.contentExtent layout).cross * s.measures.crossAxisCap)
      (layout.gap.getD s.measures.groupGap) (s.groupSizes layout items) :=
    Sizing.sizes_fits _ hne hreg hproper
  refine ⟨hfits.main, fun size hsize => ?_⟩
  have hle := hfits.cross size hsize
  have hsize := layout.direction.extent_pos_of_proper (hproper size hsize)
  -- some item is there, so the cross axis has room, and capping it leaves no more
  have hcross : 0 < (s.contentExtent layout).cross :=
    pos_of_mul_pos_left (hsize.2.trans_le hle) hcap.1.le
  exact hle.trans (mul_le_of_le_one_right hcross.le hcap.2)

theorem groupSpacing_fits (hne : items ≠ []) (hgap : 0 ≤ layout.gap.getD s.measures.groupGap)
    (h : layout.direction.Fits (s.contentExtent layout).main (s.contentExtent layout).cross
      (layout.gap.getD s.measures.groupGap) (s.groupSizes layout items)) :
    (s.groupSpacing layout items).Fits (s.contentExtent layout).main
      ((s.groupSizes layout items).map fun size => (layout.direction.extent size).main).sum
      items.length := by
  have hn : (1 : Rat) ≤ items.length := Nat.one_le_cast.mpr (List.length_pos_iff.mpr hne)
  have hmain := h.main
  rw [length_groupSizes] at hmain
  unfold groupSpacing
  rw [Scalar.rat_sum]
  exact Justify.spacing_fits _ hn hgap hmain

theorem within_and_spread_of_arrange (hreg : ∀ m ∈ items, m.Regular)
    (hgap : 0 ≤ layout.gap.getD s.measures.groupGap)
    (hcap : 0 < s.measures.crossAxisCap ∧ s.measures.crossAxisCap ≤ 1)
    (h : s.arrange layout items = .ok fitted) :
    (∀ f ∈ fitted, f.box.Within (s.content layout)) ∧
      ∃ step, 0 ≤ step ∧ layout.direction.Spread step fitted := by
  obtain ⟨hproper, rfl⟩ := (s.arrange_eq_ok_iff layout items fitted).mp h
  by_cases hne : items = []
  · subst hne
    exact ⟨by simp [Member.putAll], 0, le_refl 0, .nil, .nil⟩
  have hfits := groupSizes_fits hne hreg hcap hproper
  have hspacing := groupSpacing_fits hne hgap hfits
  have hpos : ∀ p ∈ items.zip (s.groupSizes layout items),
      0 ≤ (layout.direction.extent p.2).main := by
    rw [forall_mem_zip_groupSizes_iff (P := fun size => 0 ≤ (layout.direction.extent size).main)]
    exact fun size hsize => (layout.direction.extent_pos_of_proper (hproper size hsize)).1.le
  have hcross : ∀ p ∈ items.zip (s.groupSizes layout items),
      (layout.direction.extent p.2).cross ≤ (s.contentExtent layout).cross :=
    (forall_mem_zip_groupSizes_iff s layout items).mpr hfits.cross
  have htotal : ((items.zip (s.groupSizes layout items)).map fun p =>
      (layout.direction.extent p.2).main + (s.groupSpacing layout items).step).sum =
      ((s.groupSizes layout items).map fun size => (layout.direction.extent size).main).sum +
        items.length * (s.groupSpacing layout items).step := by
    rw [map_zip_groupSizes (fun size =>
      (layout.direction.extent size).main + (s.groupSpacing layout items).step), List.sum_map_add]
    simp
  refine ⟨fun f hf => ?_, _, hspacing.step_nonneg,
    Member.putAll_spread hspacing.step_nonneg hpos⟩
  rw [Box.within_iff layout.direction]
  refine ⟨?_, Member.across_of_mem_putAll hcross hf⟩
  have hnear := Member.le_near_of_mem_putAll hspacing.step_nonneg hpos hf
  have hfar := Member.far_le_of_mem_putAll hspacing.step_nonneg hpos hf
  have hlead := hspacing.lead_nonneg
  have hstop := hspacing.stop_le
  have hcontent : layout.direction.far (s.content layout) =
      layout.direction.near (s.content layout) + (s.contentExtent layout).main := rfl
  rw [htotal] at hfar
  constructor <;> linarith

/-- A group that is laid out stays in its content box, and with a padding on the canvas. Its items
stand in their order along the main axis, each at the same distance from the one before. -/
theorem placesById_within_and_spread {places : Table (Fitted Rat)}
    (hreg : ∀ m ∈ items, Member.create m.id m.size = .ok m) (hids : (items.map Member.id).Nodup)
    (hgap : 0 ≤ layout.gap.getD s.measures.groupGap)
    (hcap : 0 < s.measures.crossAxisCap ∧ s.measures.crossAxisCap ≤ 1)
    (h : s.placesById layout items = .ok places) :
    (∀ e ∈ places.entries, e.2.box.Within (s.content layout)) ∧
      (0 ≤ layout.padding.getD s.measures.groupPadding → ∀ e ∈ places.entries,
        e.2.box.Within ⟨0, 0, s.canvas.width.toNat, s.canvas.height.toNat⟩) ∧
      ∃ fitted step, List.Forall₂ (fun m f => places.get? m.id = some f) items fitted ∧
        0 ≤ step ∧ layout.direction.Spread step fitted := by
  obtain ⟨fitted, ha, rfl⟩ := map_eq_ok_iff.mp h
  obtain ⟨hwithin, step, hstep, hspread⟩ := within_and_spread_of_arrange hreg hgap hcap ha
  have hinside : ∀ e ∈ (Table.ofList ((items.map Member.id).zip fitted)).entries,
      e.2.box.Within (s.content layout) :=
    fun e he => hwithin e.2 (List.of_mem_zip (Table.mem_of_mem_entries_ofList he)).2
  refine ⟨hinside, fun hpadding e he => ?_, fitted, step, forall₂_get?_of_arrange ha hids, hstep,
    hspread⟩
  exact (hinside e he).trans ((Box.inset_within hpadding _).trans (s.region_within _))

/-- The sky over a landscape: three items of different shapes in the upper half of the canvas. -/
def sky : Stage Rat × Flow Rat × List (Member Rat) :=
  (Stage.create ⟨1920, 1080⟩ FontTable.standard default,
    ⟨.row, some .topHalf, some .spaceAround, some .stop, some .intrinsic, some 12, some 20⟩,
    [⟨"sun", ⟨200, 200⟩, 1⟩, ⟨"cloud", ⟨300, 100⟩, 3⟩, ⟨"kite", ⟨50, 100⟩, 1 / 2⟩])

theorem sky_regular : ∀ m ∈ sky.2.2, Member.create m.id m.size = .ok m := by
  simp only [Member.create_eq_ok_iff]
  decide +kernel

theorem sky_within_and_spread :
    ∃ places, sky.1.placesById sky.2.1 sky.2.2 = .ok places ∧
      (∀ e ∈ places.entries, e.2.box.Within (sky.1.content sky.2.1)) ∧
      (∀ e ∈ places.entries, e.2.box.Within ⟨0, 0, 1920, 1080⟩) ∧
      ∃ fitted step, List.Forall₂ (fun m f => places.get? m.id = some f) sky.2.2 fitted ∧
        0 ≤ step ∧ Direction.row.Spread step fitted := by
  have h : (sky.1.placesById sky.2.1 sky.2.2).toOption.isSome := by decide +kernel
  obtain ⟨places, hp⟩ := isSome_toOption_iff.mp h
  have hall := placesById_within_and_spread sky_regular (by decide +kernel) (by decide +kernel)
    (by decide +kernel) hp
  exact ⟨places, hp, hall.1, hall.2.1 (by decide +kernel), hall.2.2⟩

end Stage
end Storyboard
