import Mathlib.Algebra.Order.Field.Basic
import Storyboard.Proofs.FirstFault
import Storyboard.Proofs.Placement

set_option autoImplicit false

namespace Storyboard

namespace Direction

theorem shareSize_proper_iff {d : Direction} {aspect : Rat} (h : 0 < aspect) (share cap : Rat) :
    (d.shareSize aspect share cap).proper = true ↔ 0 < share ∧ 0 < cap := by
  have hr : 0 < d.crossRate aspect := crossRate_pos h
  rw [d.proper_iff_extent, extent_shareSize h]
  dsimp only
  rw [mul_pos_iff_of_pos_right hr, and_self, lt_min_iff, div_pos_iff_of_pos_right hr]

end Direction

namespace Sizing
variable {d : Direction} {items : List (Member Rat)} {main cap gap : Rat}

theorem share_pos_iff (hne : items ≠ []) :
    0 < share items.length main gap ↔ 0 < main - (items.length - 1) * gap :=
  div_pos_iff_of_pos_right (Nat.cast_pos.mpr (List.length_pos_iff.mpr hne))

theorem factor_pos_iff (hne : items ≠ []) (h : ∀ m ∈ items, m.Regular) :
    0 < factor d items main cap gap ↔ 0 < main - (items.length - 1) * gap ∧ 0 < cap := by
  rw [factor, lt_min_iff, div_pos_iff_of_pos_right (sum_main_pos hne h),
    div_pos_iff_of_pos_right (widest_pos hne h)]

/-- No strategy makes room where there is none, or wastes all that there is. -/
theorem proper_iff_of_mem_sizes (z : Sizing) (h : ∀ m ∈ items, m.Regular) {size : Size Rat}
    (hsize : size ∈ z.sizes d items main cap gap) :
    size.proper = true ↔ 0 < main - (items.length - 1) * gap ∧ 0 < cap := by
  have hne : items ≠ [] := by
    rw [← List.length_pos_iff, ← z.length_sizes d items main cap gap]
    exact List.length_pos_of_mem hsize
  cases z with
  | uniform =>
    rw [uniform_sizes] at hsize
    obtain ⟨m, -, rfl⟩ := List.mem_map.mp hsize
    rw [Direction.shareSize_proper_iff (meanAspect_pos hne h), share_pos_iff hne]
  | intrinsic =>
    rw [intrinsic_sizes] at hsize
    obtain ⟨m, hm, rfl⟩ := List.mem_map.mp hsize
    have hpos := (h m hm).size_pos
    rw [Size.rat_proper_iff, mul_pos_iff_of_pos_left hpos.1, mul_pos_iff_of_pos_left hpos.2,
      and_self, factor_pos_iff hne h]
  | fill =>
    rw [fill_sizes] at hsize
    obtain ⟨m, hm, rfl⟩ := List.mem_map.mp hsize
    rw [Direction.shareSize_proper_iff (h m hm).aspect_pos, share_pos_iff hne]

end Sizing

namespace Stage
variable {s : Stage Rat} {layout : Flow Rat} {items : List (Member Rat)}

/-- The gaps between `n` items leave some of the main axis, and the cap leaves some of the other. -/
def HasRoom (s : Stage Rat) (layout : Flow Rat) (n : Nat) : Prop :=
  0 < (s.contentExtent layout).main - (n - 1) * layout.gap.getD s.measures.groupGap ∧
    0 < (s.contentExtent layout).cross * s.measures.crossAxisCap

theorem proper_iff_hasRoom (hreg : ∀ m ∈ items, m.Regular) {size : Size Rat}
    (hsize : size ∈ s.groupSizes layout items) :
    size.proper = true ↔ s.HasRoom layout items.length :=
  Sizing.proper_iff_of_mem_sizes _ hreg hsize

theorem exists_arrange_eq_ok_iff (hne : items ≠ []) (hreg : ∀ m ∈ items, m.Regular) :
    (∃ fitted, s.arrange layout items = .ok fitted) ↔ s.HasRoom layout items.length := by
  have hlength : 0 < (s.groupSizes layout items).length := by
    rw [length_groupSizes]
    exact List.length_pos_iff.mpr hne
  constructor
  · intro ⟨fitted, h⟩
    have hmem := List.getElem_mem hlength
    exact (proper_iff_hasRoom hreg hmem).mp (((s.arrange_eq_ok_iff _ _ _).mp h).1 _ hmem)
  · intro h
    exact ⟨_, (s.arrange_eq_ok_iff _ _ _).mpr
      ⟨fun size hsize => (proper_iff_hasRoom hreg hsize).mpr h, rfl⟩⟩

/-- As all items collapse together, the first of them is the one that is reported. -/
theorem collapsed_of_arrange {first : Member Rat} {rest : List (Member Rat)} {f : Fault Rat}
    (hreg : ∀ m ∈ first :: rest, m.Regular) (h : s.arrange layout (first :: rest) = .error f) :
    ∃ size, f = .collapsed first.id size (s.contentSize layout) (rest.length + 1) := by
  have hno : ¬ s.HasRoom layout (first :: rest).length := by
    rw [← exists_arrange_eq_ok_iff (List.cons_ne_nil first rest) hreg, h]
    simp
  cases hsizes : s.groupSizes layout (first :: rest) with
  | nil =>
    have hlength := s.length_groupSizes layout (first :: rest)
    rw [hsizes] at hlength
    contradiction
  | cons size sizes =>
    have hsize : size.proper = false := by
      rw [← Bool.not_eq_true, proper_iff_hasRoom hreg (hsizes ▸ List.mem_cons_self)]
      exact hno
    have hfailure : some f =
        some (.collapsed first.id size (s.contentSize layout) (rest.length + 1)) := by
      have hfirst := s.failure?_arrange layout (first :: rest)
      rw [h, hsizes] at hfirst
      simpa [hsize] using hfirst
    exact ⟨size, Option.some.inj hfailure⟩

/-- A group with items fails exactly when the gaps leave nothing of its main axis or the cap leaves
nothing across it, whatever the sizes of the items and however they are sized and placed. The fault
is then about the first item. A group without items does not fail. -/
theorem placesById_fails_without_room (s : Stage Rat) (layout : Flow Rat)
    (items : List (Member Rat)) (hne : items ≠ [])
    (hreg : ∀ m ∈ items, Member.create m.id m.size = .ok m) :
    ((∃ f, s.placesById layout items = .error f) ↔
      (s.contentExtent layout).main -
          (items.length - 1) * layout.gap.getD s.measures.groupGap ≤ 0 ∨
        (s.contentExtent layout).cross * s.measures.crossAxisCap ≤ 0) ∧
    (∀ f, s.placesById layout items = .error f → f.kind = .geometry ∧
      ∃ size, f = .collapsed (items.head hne).id size (s.contentSize layout) items.length) ∧
    (∀ sizing justify align, ∀ others : List (Member Rat), others.length = items.length →
      (∀ m ∈ others, Member.create m.id m.size = .ok m) →
      ((∃ f, s.placesById { layout with sizing, justify, align } others = .error f) ↔
        ∃ f, s.placesById layout items = .error f)) ∧
    s.placesById layout [] = .ok {} := by
  have hfails (l : Flow Rat) (ms : List (Member Rat)) (hms : ms ≠ [])
      (hr : ∀ m ∈ ms, m.Regular) :
      (∃ f, s.placesById l ms = .error f) ↔ ¬ s.HasRoom l ms.length := by
    rw [← exists_arrange_eq_ok_iff hms hr, placesById]
    cases s.arrange l ms <;> simp [Except.map]
  refine ⟨?_, ?_, ?_, rfl⟩
  · rw [hfails layout items hne hreg, HasRoom, not_and_or, not_lt, not_lt]
  · intro f hf
    obtain ⟨first, rest, rfl⟩ := List.exists_cons_of_ne_nil hne
    have ha : s.arrange layout (first :: rest) = .error f := by
      rw [← failure?_eq_some_iff, ← failure?_map]
      exact failure?_eq_some_iff.mpr hf
    obtain ⟨size, rfl⟩ := collapsed_of_arrange hreg ha
    exact ⟨rfl, size, rfl⟩
  · intro sizing justify align others hlength hothers
    have hne' : others ≠ [] := by
      rw [← List.length_pos_iff, hlength]
      exact List.length_pos_iff.mpr hne
    rw [hfails _ others hne' hothers, hfails layout items hne hreg, hlength]
    rfl

theorem sky_fails_without_room :
    ∃ size, sky.1.placesById { sky.2.1 with gap := some 940 } sky.2.2 =
      .error (.collapsed "sun" size ⟨1880, 500⟩ 3) := by
  obtain ⟨hfails, hfault, -⟩ := placesById_fails_without_room sky.1
    { sky.2.1 with gap := some 940 } sky.2.2 (by decide) sky_regular
  -- the two gaps are as long as the content box
  obtain ⟨f, hf⟩ := hfails.mpr (.inl (by decide +kernel))
  obtain ⟨-, size, rfl⟩ := hfault f hf
  have hcontent : sky.1.contentSize { sky.2.1 with gap := some 940 } = ⟨1880, 500⟩ := by
    decide +kernel
  rw [hcontent] at hf
  exact ⟨size, hf⟩

end Stage
end Storyboard
