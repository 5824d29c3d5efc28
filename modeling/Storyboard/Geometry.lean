import Storyboard.Scalar

set_option autoImplicit false

/-!
Sizes, points and boxes in canvas pixels. The origin is the top left corner; y grows downwards.
-/

namespace Storyboard

structure Size (α : Type) where
  width : α
  height : α
  deriving BEq, DecidableEq, Repr

structure Point (α : Type) where
  x : α
  y : α
  deriving BEq, DecidableEq, Repr

structure Box (α : Type) where
  x : α
  y : α
  width : α
  height : α
  deriving BEq, DecidableEq, Repr

structure Fitted (α : Type) where
  box : Box α
  scale : α
  deriving BEq, DecidableEq, Repr

variable {α : Type} [Scalar α]

def Point.move (p offset : Point α) : Point α := ⟨p.x + offset.x, p.y + offset.y⟩

def Point.scale (p : Point α) (factor : α) : Point α := ⟨p.x * factor, p.y * factor⟩

/-- Aspect ratios and scales of such a size are defined. -/
def Size.proper (s : Size α) : Bool := Scalar.proper s.width && Scalar.proper s.height

namespace Box

/-- The box less a margin on all sides. Its extents may become negative. -/
def inset (b : Box α) (margin : α) : Box α :=
  ⟨b.x + margin, b.y + margin, b.width - 2.0 * margin, b.height - 2.0 * margin⟩

def center (b : Box α) : Point α := ⟨b.x + b.width / 2.0, b.y + b.height / 2.0⟩

def corner (b : Box α) : Point α := ⟨b.x + b.width, b.y + b.height⟩

end Box

structure Canvas where
  width : UInt32
  height : UInt32
  deriving DecidableEq, Repr

def Canvas.isEmpty (c : Canvas) : Bool := c.width == 0 || c.height == 0

def Canvas.size (c : Canvas) : Size α := ⟨Scalar.ofNat c.width.toNat, Scalar.ofNat c.height.toNat⟩

end Storyboard
