import Storyboard.Config
import Storyboard.Font
import Storyboard.Layout

set_option autoImplicit false

/-!
The stage that layouts are brought to: a canvas, the fonts for measuring text, and the measures of
the geometry. Regions are fixed fractions of the canvas, and anchors are places in a box.
-/

namespace Storyboard

structure Stage (α : Type) where
  canvas : Canvas
  fonts : FontTable α
  measures : Measures α

variable {α : Type} [Scalar α]

def Region.bounds (canvas : Size α) : Region → Box α
  | .full => ⟨0.0, 0.0, canvas.width, canvas.height⟩
  | .topHalf => ⟨0.0, 0.0, canvas.width, canvas.height / 2.0⟩
  | .bottomHalf => ⟨0.0, canvas.height / 2.0, canvas.width, canvas.height / 2.0⟩
  | .leftHalf => ⟨0.0, 0.0, canvas.width / 2.0, canvas.height⟩
  | .rightHalf => ⟨canvas.width / 2.0, 0.0, canvas.width / 2.0, canvas.height⟩
  | .leftThird => ⟨0.0, 0.0, canvas.width / 3.0, canvas.height⟩
  | .centerThird => ⟨canvas.width / 3.0, 0.0, canvas.width / 3.0, canvas.height⟩
  | .rightThird =>
    ⟨canvas.width - canvas.width / 3.0, 0.0, canvas.width / 3.0, canvas.height⟩
  | .topThird => ⟨0.0, 0.0, canvas.width, canvas.height / 3.0⟩
  | .middleThird => ⟨0.0, canvas.height / 3.0, canvas.width, canvas.height / 3.0⟩
  | .bottomThird =>
    ⟨0.0, canvas.height - canvas.height / 3.0, canvas.width, canvas.height / 3.0⟩
  | .center => ⟨0.15 * canvas.width, 0.15 * canvas.height, 0.7 * canvas.width, 0.7 * canvas.height⟩
  | .mainContent =>
    ⟨0.1 * canvas.width, 0.15 * canvas.height, 0.8 * canvas.width, 0.7 * canvas.height⟩
  | .topBanner => ⟨0.0, 0.0, canvas.width, 0.15 * canvas.height⟩
  | .bottomBanner => ⟨0.0, 0.85 * canvas.height, canvas.width, 0.15 * canvas.height⟩

/-- The top left corner of something of the given size at an anchor of a box. The padding keeps it
from the edges that the anchor names; a centered axis has none. -/
def Anchor.place (bounds : Box α) (size : Size α) (padding : α) (a : Anchor) : Point α :=
  let centerX := bounds.x + (bounds.width - size.width) / 2.0
  let centerY := bounds.y + (bounds.height - size.height) / 2.0
  let left := bounds.x + padding
  let right := bounds.x + bounds.width - size.width - padding
  let top := bounds.y + padding
  let bottom := bounds.y + bounds.height - size.height - padding
  match a with
  | .center => ⟨centerX, centerY⟩
  | .top => ⟨centerX, top⟩
  | .bottom => ⟨centerX, bottom⟩
  | .left => ⟨left, centerY⟩
  | .right => ⟨right, centerY⟩
  | .topLeft => ⟨left, top⟩
  | .topRight => ⟨right, top⟩
  | .bottomLeft => ⟨left, bottom⟩
  | .bottomRight => ⟨right, bottom⟩

namespace Stage

def create (canvas : Canvas) (fonts : FontTable α) (measures : Measures α) : Stage α :=
  ⟨canvas, fonts.withUnlistedAdvance measures.unlistedAdvance, measures⟩

def region (s : Stage α) (r : Region) : Box α := r.bounds s.canvas.size

def pointAt (s : Stage α) (e : Endpoint) : Point α :=
  e.anchor.place (s.region e.region) ⟨0.0, 0.0⟩ 0.0

def connect (s : Stage α) (c : Connection) : Point α × Point α :=
  (s.pointAt c.source, s.pointAt c.target)

end Stage
end Storyboard
