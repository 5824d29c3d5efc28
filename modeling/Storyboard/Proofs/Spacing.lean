import Mathlib.Tactic.Ring
import Storyboard.Proofs.Placement

set_option autoImplicit false

namespace Storyboard

/-- What a rule leaves free on the main axis before `n` boxes, between two of them and after them. -/
def Justify.SharesOut (gap : Rat) (n : Nat) (lead step trail : Rat) : Justify → Prop
  | .start => lead = 0 ∧ step = gap
  | .stop => trail = 0 ∧ step = gap
  | .center => lead = trail ∧ step = gap
  | .spaceBetween => lead = 0 ∧ (2 ≤ n → trail = 0)
  | .spaceAround => lead = step / 2 ∧ trail = step / 2
  | .spaceEvenly => lead = step ∧ trail = step

/-- What a rule leaves free across the main axis on the two sides of a box. -/
def Align.SharesOut (before after : Rat) : Align → Prop
  | .start => before = 0
  | .stop => after = 0
  | .center | .stretch => before = after

theorem Justify.sharesOut_spacing (j : Justify) {n : Nat} (hn : 0 < n) (main total gap : Rat) :
    j.SharesOut gap n (j.spacing main total gap n).lead (j.spacing main total gap n).step
      (main - total - (j.spacing main total gap n).lead -
        (n - 1) * (j.spacing main total gap n).step) := by
  have hpos : (0 : Rat) < n := Nat.cast_pos.mpr hn
  cases j with
  | start => simp [SharesOut, spacing]
  | stop => simp [SharesOut, spacing]
  | center =>
    simp only [SharesOut, spacing, Scalar.rat_one, Scalar.rat_two, and_true]
    ring
  | spaceBetween =>
    simp only [SharesOut, spacing, Scalar.rat_zero, Scalar.rat_one]
    split
    · rename_i hlt
      have hall : (n - 1) * ((main - total) / (n - 1)) = main - total :=
        mul_div_cancel₀ _ (sub_pos.mpr hlt).ne'
      refine ⟨rfl, fun _ => ?_⟩
      dsimp only
      linarith
    · rename_i hle
      refine ⟨rfl, fun htwo => absurd ?_ hle⟩
      exact Nat.one_lt_cast.mpr htwo
  | spaceAround =>
    simp only [SharesOut, spacing, Scalar.rat_two, true_and]
    have hall : n * ((main - total) / n) = main - total := mul_div_cancel₀ _ hpos.ne'
    linarith
  | spaceEvenly =>
    simp only [SharesOut, spacing, Scalar.rat_one, true_and]
    have hall : (n + 1) * ((main - total) / (n + 1)) = main - total :=
      mul_div_cancel₀ _ (by linarith)
    linarith

theorem Align.sharesOut_offset (a : Align) (cross itemCross : Rat) :
    a.SharesOut (a.offset cross itemCross) (cross - a.offset cross itemCross - itemCross) := by
  cases a <;> simp only [SharesOut, offset, Scalar.rat_zero, Scalar.rat_two] <;> ring

/-- The room of an axis as boxes share it out: what is free before the first of them, between any two
neighbours and after the last. -/
structure Direction.Shares (d : Direction) (content : Box Rat) (fitted : List (Fitted Rat))
    (lead step trail : Rat) : Prop where
  first : ∀ f ∈ fitted.head?, d.near f.box - d.near content = lead
  between : fitted.IsChain fun a b => d.near b.box - d.far a.box = step
  last : ∀ f ∈ fitted.getLast?, d.far content - d.far f.box = trail

namespace Member
variable {d : Direction} {align : Align} {content : Box Rat} {step cursor : Rat}
  {sized : List (Member Rat × Size Rat)} {f : Fitted Rat}

theorem near_of_head?_putAll (hf : f ∈ (putAll d align content step cursor sized).head?) :
    d.near f.box = d.near content + cursor := by
  cases sized with
  | nil => simp [putAll] at hf
  | cons p rest =>
    obtain ⟨item, size⟩ := p
    rw [putAll_cons, List.head?_cons, Option.mem_some_iff] at hf
    rw [← hf, Direction.near_boxAt]

theorem far_of_getLast?_putAll (hf : f ∈ (putAll d align content step cursor sized).getLast?) :
    d.far f.box = d.near content + cursor +
      ((sized.map fun p => (d.extent p.2).main).sum + (sized.length - 1) * step) := by
  induction sized generalizing cursor with
  | nil => simp [putAll] at hf
  | cons p rest ih =>
    obtain ⟨item, size⟩ := p
    rw [putAll_cons] at hf
    cases rest with
    | nil =>
      obtain rfl := by simpa [putAll] using hf
      simp
    | cons q rest =>
      rw [putAll_cons, List.getLast?_cons_cons, ← putAll_cons] at hf
      rw [ih hf]
      simp only [List.map_cons, List.sum_cons, List.length_cons, Nat.cast_add, Nat.cast_one]
      ring

theorem sharesOut_of_mem_putAll (hf : f ∈ putAll d align content step cursor sized) :
    align.SharesOut (d.across.near f.box - d.across.near content)
      (d.across.far content - d.across.far f.box) := by
  induction sized generalizing cursor with
  | nil => simp [putAll] at hf
  | cons p rest ih =>
    obtain ⟨item, size⟩ := p
    rw [putAll_cons] at hf
    rcases List.mem_cons.mp hf with rfl | hf
    · have hshares := align.sharesOut_offset (d.extent ⟨content.width, content.height⟩).cross
        (d.extent size).cross
      rw [Direction.across_near_boxAt, Direction.across_far_boxAt]
      unfold Direction.far
      rw [Direction.extent_across_main]
      convert hshares using 1 <;> ring
    · exact ih hf

/-- From the first item to the last, the room is shared out by the cursor and the steps. -/
theorem putAll_shares (d : Direction) (align : Align) (content : Box Rat) (step cursor : Rat)
    (sized : List (Member Rat × Size Rat)) :
    d.Shares content (putAll d align content step cursor sized) cursor step
      ((d.extent ⟨content.width, content.height⟩).main -
        (sized.map fun p => (d.extent p.2).main).sum - cursor - (sized.length - 1) * step) := by
  refine ⟨fun f hf => ?_, putAll_even cursor sized, fun f hf => ?_⟩
  · rw [near_of_head?_putAll hf]
    ring
  · rw [far_of_getLast?_putAll hf]
    unfold Direction.far
    ring

theorem map_size_scale_putAll (d : Direction) (align : Align) (content : Box Rat)
    (step cursor : Rat) (sized : List (Member Rat × Size Rat)) :
    (putAll d align content step cursor sized).map (fun f => (f.box.size, f.scale)) =
      sized.map fun p => (p.2, p.2.width / p.1.size.width) := by
  symm
  apply forall₂_map_eq
  refine (forall₂_putAll d align content step cursor sized).imp ?_
  intro p f hf
  rw [hf.1, hf.2]

theorem map_main_putAll (step cursor : Rat) (sized : List (Member Rat × Size Rat)) :
    (putAll d align content step cursor sized).map (fun f => (d.extent f.box.size).main) =
      sized.map fun p => (d.extent p.2).main := by
  have h := congrArg (List.map fun q => (d.extent q.1).main)
    (map_size_scale_putAll d align content step cursor sized)
  simpa only [List.map_map, Function.comp_def] using h

end Member
namespace Stage
variable {s : Stage Rat} {layout : Flow Rat} {items : List (Member Rat)}

theorem sum_main_groupSizes (s : Stage Rat) (layout : Flow Rat) (items : List (Member Rat)) :
    ((items.zip (s.groupSizes layout items)).map
      fun p => (layout.direction.extent p.2).main).sum =
      Scalar.sum ((s.groupSizes layout items).map
        fun size => (layout.direction.extent size).main) := by
  rw [map_zip_groupSizes (fun size => (layout.direction.extent size).main), Scalar.rat_sum]

/-- A group that is laid out fills its content box from end to end: the free room, the items and the
steps between them make up the main axis. How the free room is shared out is up to the justification
of the group, and for each item across the main axis to the alignment; with any others the items
have the same sizes and scales. -/
theorem placesById_shares_out {places : Table (Fitted Rat)} (hne : items ≠ [])
    (hids : (items.map Member.id).Nodup) (h : s.placesById layout items = .ok places) :
    ∃ fitted lead step trail,
      List.Forall₂ (fun m f => places.get? m.id = some f) items fitted ∧
      layout.direction.Shares (s.content layout) fitted lead step trail ∧
      lead + (fitted.map fun f => (layout.direction.extent f.box.size).main).sum +
        (items.length - 1) * step + trail = (s.contentExtent layout).main ∧
      (layout.justify.getD default).SharesOut (layout.gap.getD s.measures.groupGap) items.length
        lead step trail ∧
      (∀ f ∈ fitted, (layout.align.getD default).SharesOut
        (layout.direction.across.near f.box - layout.direction.across.near (s.content layout))
        (layout.direction.across.far (s.content layout) - layout.direction.across.far f.box)) ∧
      ∀ justify align, ∃ others moved,
        s.placesById { layout with justify, align } items = .ok others ∧
        List.Forall₂ (fun m f => others.get? m.id = some f) items moved ∧
        moved.map (fun f => (f.box.size, f.scale)) = fitted.map fun f => (f.box.size, f.scale) := by
  obtain ⟨fitted, ha, rfl⟩ := map_eq_ok_iff.mp h
  have hplaces := forall₂_get?_of_arrange ha hids
  obtain ⟨hproper, rfl⟩ := (s.arrange_eq_ok_iff layout items fitted).mp ha
  have hshares := Member.putAll_shares layout.direction (layout.align.getD default)
    (s.content layout) (s.groupSpacing layout items).step (s.groupSpacing layout items).lead
    (items.zip (s.groupSizes layout items))
  have hlength : (items.zip (s.groupSizes layout items)).length = items.length := by simp
  rw [hlength, sum_main_groupSizes] at hshares
  refine ⟨_, _, _, _, hplaces, hshares, ?_, ?_, fun f hf => Member.sharesOut_of_mem_putAll hf, ?_⟩
  · rw [Member.map_main_putAll, sum_main_groupSizes]
    unfold contentExtent
    ring
  · exact Justify.sharesOut_spacing _ (List.length_pos_iff.mpr hne) _ _ _
  · intro justify align
    have hmoved := (s.arrange_eq_ok_iff { layout with justify, align } items _).mpr ⟨hproper, rfl⟩
    refine ⟨_, _, map_eq_ok_iff.mpr ⟨_, hmoved, rfl⟩, forall₂_get?_of_arrange hmoved hids, ?_⟩
    exact (Member.map_size_scale_putAll ..).trans (Member.map_size_scale_putAll ..).symm

theorem sky_shares_out :
    ∃ places fitted lead step trail, sky.1.placesById sky.2.1 sky.2.2 = .ok places ∧
      List.Forall₂ (fun m f => places.get? m.id = some f) sky.2.2 fitted ∧
      Direction.row.Shares (sky.1.content sky.2.1) fitted lead step trail ∧
      lead = step / 2 ∧ trail = step / 2 ∧
      ∀ f ∈ fitted, Direction.column.far (sky.1.content sky.2.1) - Direction.column.far f.box = 0 := by
  have h : (sky.1.placesById sky.2.1 sky.2.2).toOption.isSome := by decide +kernel
  obtain ⟨places, hplaces⟩ := isSome_toOption_iff.mp h
  obtain ⟨fitted, lead, step, trail, hget, hshares, -, hjustify, halign, -⟩ :=
    placesById_shares_out (by decide) (by decide +kernel) hplaces
  exact ⟨places, fitted, lead, step, trail, hplaces, hget, hshares, hjustify.1, hjustify.2, halign⟩

end Stage
end Storyboard
