import Mathlib.Algebra.BigOperators.Ring.List
import Mathlib.Algebra.Order.BigOperators.Group.List
import Storyboard.Proofs.Arrange
import Storyboard.Proofs.Box

set_option autoImplicit false

namespace Storyboard

namespace Direction
variable {d : Direction}

theorem crossRate_pos {aspect : Rat} (h : 0 < aspect) : 0 < d.crossRate aspect := by
  cases d with
  | row => simpa [crossRate] using h
  | column => exact h

theorem extent_scale (s : Size Rat) (factor : Rat) :
    d.extent ⟨s.width * factor, s.height * factor⟩ =
      ⟨(d.extent s).main * factor, (d.extent s).cross * factor⟩ := by
  cases d <;> rfl

theorem proper_iff_extent (d : Direction) (s : Size Rat) :
    s.proper = true ↔ 0 < (d.extent s).main ∧ 0 < (d.extent s).cross := by
  rw [Size.rat_proper_iff]
  cases d with
  | row => exact Iff.rfl
  | column => exact and_comm

theorem extent_pos_of_proper (d : Direction) {s : Size Rat} (h : s.proper = true) :
    0 < (d.extent s).main ∧ 0 < (d.extent s).cross := (d.proper_iff_extent s).mp h

theorem extent_shareSize {aspect : Rat} (h : 0 < aspect) (share cap : Rat) :
    d.extent (d.shareSize aspect share cap) =
      ⟨min share (cap / d.crossRate aspect),
        min share (cap / d.crossRate aspect) * d.crossRate aspect⟩ := by
  have hr : 0 < d.crossRate aspect := crossRate_pos h
  unfold shareSize
  dsimp only
  rw [extent_size]
  split
  · rename_i hc
    have hlt : cap / d.crossRate aspect < share := (div_lt_iff₀ hr).mpr hc
    rw [min_eq_right hlt.le, div_mul_cancel₀ cap hr.ne']
  · rename_i hc
    have hle : share ≤ cap / d.crossRate aspect := (le_div_iff₀ hr).mpr (not_lt.mp hc)
    rw [min_eq_left hle]

/-- Sizes that fit, with gaps between them, and that do not pass a cap across. -/
structure Fits (d : Direction) (main cap gap : Rat) (sizes : List (Size Rat)) : Prop where
  main : (sizes.map fun size => (d.extent size).main).sum + (sizes.length - 1) * gap ≤ main
  cross : ∀ size ∈ sizes, (d.extent size).cross ≤ cap

theorem fits_of_shareSize {main cap gap : Rat} {sizes : List (Size Rat)} (hne : sizes ≠ [])
    (h : ∀ size ∈ sizes, ∃ aspect > 0,
      size = d.shareSize aspect ((main - (sizes.length - 1) * gap) / sizes.length) cap) :
    d.Fits main cap gap sizes := by
  have hn : (0 : Rat) < sizes.length := Nat.cast_pos.mpr (List.length_pos_iff.mpr hne)
  constructor
  · have hmain : ∀ x ∈ sizes.map fun size => (d.extent size).main,
        x ≤ (main - (sizes.length - 1) * gap) / sizes.length := by
      rw [List.forall_mem_map]
      intro size hsize
      obtain ⟨aspect, ha, heq⟩ := h size hsize
      rw [heq, extent_shareSize ha]
      exact min_le_left _ _
    have hsum := List.sum_le_card_nsmul _ _ hmain
    rw [List.length_map, nsmul_eq_mul, mul_div_cancel₀ _ hn.ne'] at hsum
    linarith
  · intro size hsize
    obtain ⟨aspect, ha, heq⟩ := h size hsize
    have hr : 0 < d.crossRate aspect := crossRate_pos ha
    rw [heq, extent_shareSize ha]
    exact (le_div_iff₀ hr).mp (min_le_right _ _)

end Direction

def Member.Regular (m : Member Rat) : Prop := Member.create m.id m.size = .ok m

namespace Member.Regular
variable {m : Member Rat}

theorem size_proper (h : m.Regular) : m.size.proper = true := (create_eq_ok_iff.mp h).1

theorem size_pos (h : m.Regular) : 0 < m.size.width ∧ 0 < m.size.height :=
  (Size.rat_proper_iff m.size).mp h.size_proper

theorem aspect_eq (h : m.Regular) : m.aspect = m.size.width / m.size.height :=
  congrArg Member.aspect (create_eq_ok_iff.mp h).2

theorem aspect_pos (h : m.Regular) : 0 < m.aspect := by
  rw [h.aspect_eq]
  exact div_pos h.size_pos.1 h.size_pos.2

end Member.Regular

namespace Sizing
variable {d : Direction} {items : List (Member Rat)} {main cap gap : Rat}

/-- The part of the main axis, less the gaps, that falls to one of `n` items. -/
def share (n : Nat) (main gap : Rat) : Rat := (main - (n - 1) * gap) / n

def meanAspect (items : List (Member Rat)) : Rat :=
  (items.map Member.aspect).sum / items.length

theorem uniform_sizes :
    uniform.sizes d items main cap gap =
      items.map fun _ => d.shareSize (meanAspect items) (share items.length main gap) cap := by
  simp [sizes, share, meanAspect, Scalar.rat_sum]

theorem fill_sizes :
    fill.sizes d items main cap gap =
      items.map fun m => d.shareSize m.aspect (share items.length main gap) cap := by
  simp [sizes, share]

theorem meanAspect_pos (hne : items ≠ []) (h : ∀ m ∈ items, m.Regular) : 0 < meanAspect items := by
  have hn : (0 : Rat) < items.length := Nat.cast_pos.mpr (List.length_pos_iff.mpr hne)
  refine div_pos (List.sum_pos _ ?_ (by simpa using hne)) hn
  rw [List.forall_mem_map]
  exact fun m hm => (h m hm).aspect_pos

theorem uniform_fits (hne : items ≠ []) (h : ∀ m ∈ items, m.Regular) :
    d.Fits main cap gap (uniform.sizes d items main cap gap) := by
  rw [uniform_sizes]
  apply Direction.fits_of_shareSize (by simpa using hne)
  rw [List.forall_mem_map, List.length_map]
  exact fun m hm => ⟨meanAspect items, meanAspect_pos hne h, rfl⟩

theorem fill_fits (hne : items ≠ []) (h : ∀ m ∈ items, m.Regular) :
    d.Fits main cap gap (fill.sizes d items main cap gap) := by
  rw [fill_sizes]
  apply Direction.fits_of_shareSize (by simpa using hne)
  rw [List.forall_mem_map, List.length_map]
  exact fun m hm => ⟨m.aspect, (h m hm).aspect_pos, rfl⟩

def widest (d : Direction) (items : List (Member Rat)) : Rat :=
  (items.map fun m => (d.extent m.size).cross).foldl Scalar.greatest 0

def factor (d : Direction) (items : List (Member Rat)) (main cap gap : Rat) : Rat :=
  min ((main - (items.length - 1) * gap) / (items.map fun m => (d.extent m.size).main).sum)
    (cap / widest d items)

theorem intrinsic_sizes :
    intrinsic.sizes d items main cap gap = items.map fun m =>
      ⟨m.size.width * factor d items main cap gap, m.size.height * factor d items main cap gap⟩ := by
  simp [sizes, factor, widest, Scalar.rat_least, Scalar.rat_sum, Function.comp_def]

theorem sum_main_pos (hne : items ≠ []) (h : ∀ m ∈ items, m.Regular) :
    0 < (items.map fun m => (d.extent m.size).main).sum := by
  refine List.sum_pos _ ?_ (by simpa using hne)
  rw [List.forall_mem_map]
  exact fun m hm => (d.extent_pos_of_proper (h m hm).size_proper).1

theorem cross_le_widest {m : Member Rat} (hm : m ∈ items) : (d.extent m.size).cross ≤ widest d items :=
  Scalar.le_foldl_greatest_of_mem 0 (List.mem_map_of_mem hm)

theorem widest_pos (hne : items ≠ []) (h : ∀ m ∈ items, m.Regular) : 0 < widest d items := by
  obtain ⟨m, hm⟩ := List.exists_mem_of_ne_nil items hne
  exact (d.extent_pos_of_proper (h m hm).size_proper).2.trans_le (cross_le_widest hm)

theorem factor_pos (hne : items ≠ []) (h : ∀ m ∈ items, m.Regular)
    (hproper : ∀ size ∈ intrinsic.sizes d items main cap gap, size.proper = true) :
    0 < factor d items main cap gap := by
  obtain ⟨m, hm⟩ := List.exists_mem_of_ne_nil items hne
  rw [intrinsic_sizes, List.forall_mem_map] at hproper
  have hwidth := ((Size.rat_proper_iff _).mp (hproper m hm)).1
  exact (mul_pos_iff_of_pos_left (h m hm).size_pos.1).mp hwidth

theorem intrinsic_fits (hne : items ≠ []) (h : ∀ m ∈ items, m.Regular)
    (hproper : ∀ size ∈ intrinsic.sizes d items main cap gap, size.proper = true) :
    d.Fits main cap gap (intrinsic.sizes d items main cap gap) := by
  have hf := factor_pos hne h hproper
  rw [intrinsic_sizes]
  constructor
  · have hle : factor d items main cap gap * (items.map fun m => (d.extent m.size).main).sum ≤
        main - (items.length - 1) * gap := (le_div_iff₀ (sum_main_pos hne h)).mp (min_le_left _ _)
    simp only [List.map_map, Function.comp_def, Direction.extent_scale, List.length_map]
    rw [List.sum_map_mul_right]
    linarith
  · rw [List.forall_mem_map]
    intro m hm
    have hle : factor d items main cap gap * widest d items ≤ cap :=
      (le_div_iff₀ (widest_pos hne h)).mp (min_le_right _ _)
    rw [Direction.extent_scale]
    calc (d.extent m.size).cross * factor d items main cap gap
        ≤ widest d items * factor d items main cap gap :=
          mul_le_mul_of_nonneg_right (cross_le_widest hm) hf.le
      _ ≤ cap := by rwa [mul_comm]

theorem sizes_fits (z : Sizing) (hne : items ≠ []) (h : ∀ m ∈ items, m.Regular)
    (hproper : ∀ size ∈ z.sizes d items main cap gap, size.proper = true) :
    d.Fits main cap gap (z.sizes d items main cap gap) := by
  cases z with
  | uniform => exact uniform_fits hne h
  | intrinsic => exact intrinsic_fits hne h hproper
  | fill => exact fill_fits hne h

end Sizing
end Storyboard
