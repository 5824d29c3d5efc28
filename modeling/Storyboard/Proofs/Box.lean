import Storyboard.Layout.Arrange
import Storyboard.Proofs.Rational

set_option autoImplicit false

namespace Storyboard

namespace Direction

@[simp] theorem extent_size {α : Type} (d : Direction) (e : Extent α) : d.extent (d.size e) = e := by
  cases d <;> rfl

def across : Direction → Direction
  | .row => .column
  | .column => .row

@[simp] theorem extent_across_main {α : Type} (d : Direction) (s : Size α) :
    (d.across.extent s).main = (d.extent s).cross := by
  cases d <;> rfl

def near (d : Direction) (b : Box Rat) : Rat := (d.extent ⟨b.x, b.y⟩).main

def far (d : Direction) (b : Box Rat) : Rat := d.near b + (d.extent ⟨b.width, b.height⟩).main

end Direction

namespace Box

structure Within (inner outer : Box Rat) : Prop where
  left : outer.x ≤ inner.x
  top : outer.y ≤ inner.y
  right : inner.x + inner.width ≤ outer.x + outer.width
  bottom : inner.y + inner.height ≤ outer.y + outer.height

theorem Within.trans {a b c : Box Rat} (hab : a.Within b) (hbc : b.Within c) : a.Within c where
  left := hbc.left.trans hab.left
  top := hbc.top.trans hab.top
  right := hab.right.trans hbc.right
  bottom := hab.bottom.trans hbc.bottom

theorem within_iff (d : Direction) (a b : Box Rat) :
    a.Within b ↔ (d.near b ≤ d.near a ∧ d.far a ≤ d.far b) ∧
      (d.across.near b ≤ d.across.near a ∧ d.across.far a ≤ d.across.far b) := by
  cases d with
  | row => exact ⟨fun ⟨l, t, r, b⟩ => ⟨⟨l, r⟩, ⟨t, b⟩⟩, fun ⟨⟨l, r⟩, ⟨t, b⟩⟩ => ⟨l, t, r, b⟩⟩
  | column => exact ⟨fun ⟨l, t, r, b⟩ => ⟨⟨t, b⟩, ⟨l, r⟩⟩, fun ⟨⟨t, b⟩, ⟨l, r⟩⟩ => ⟨l, t, r, b⟩⟩

theorem inset_within {margin : Rat} (h : 0 ≤ margin) (b : Box Rat) : (b.inset margin).Within b where
  left := by simpa [inset] using h
  top := by simpa [inset] using h
  right := by simp only [inset, Scalar.rat_two]; linarith
  bottom := by simp only [inset, Scalar.rat_two]; linarith

end Box

theorem Region.bounds_within {canvas : Size Rat} (hw : 0 ≤ canvas.width) (hh : 0 ≤ canvas.height)
    (r : Region) : (r.bounds canvas).Within ⟨0, 0, canvas.width, canvas.height⟩ := by
  cases r <;> constructor <;> simp only [Region.bounds] <;> norm_num <;> linarith

theorem Region.bounds_nonneg {canvas : Size Rat} (hw : 0 ≤ canvas.width) (hh : 0 ≤ canvas.height)
    (r : Region) : 0 ≤ (r.bounds canvas).width ∧ 0 ≤ (r.bounds canvas).height := by
  cases r <;> constructor <;> simp only [bounds] <;> norm_num <;> linarith

theorem Stage.region_nonneg (s : Stage Rat) (r : Region) :
    0 ≤ (s.region r).width ∧ 0 ≤ (s.region r).height :=
  r.bounds_nonneg (Nat.cast_nonneg _) (Nat.cast_nonneg _)

theorem Stage.region_within (s : Stage Rat) (r : Region) :
    (s.region r).Within ⟨0, 0, s.canvas.width.toNat, s.canvas.height.toNat⟩ :=
  r.bounds_within (Nat.cast_nonneg _) (Nat.cast_nonneg _)

end Storyboard
