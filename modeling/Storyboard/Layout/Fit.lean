import Storyboard.Stage
import Storyboard.Text.Units

set_option autoImplicit false

/-!
Single elements on a stage. What has a size of its own is scaled to fit its region; text takes the
room its font size asks for.
-/

namespace Storyboard

variable {α : Type} [Scalar α]

/-- The largest size of an aspect ratio within a room. Wide content goes by the width of the room
first, tall content by its height. -/
def Size.largest (aspect : α) (room : Size α) : Size α :=
  if 1.0 ≤ aspect then
    let width := Scalar.least room.width (room.height * aspect)
    ⟨width, width / aspect⟩
  else
    let height := Scalar.least room.height (room.width / aspect)
    ⟨height * aspect, height⟩

namespace Stage

def origin (s : Stage α) (layout : Placing α) (size : Size α) : Point α :=
  let region := s.region (layout.region.getD default)
  (layout.position.place region size s.measures.positionPadding).move
    (layout.offset.getD ⟨0.0, 0.0⟩)

def room (s : Stage α) (layout : Placing α) : Size α :=
  let region := s.region (layout.region.getD default)
  let ratio := (layout.size.getD default).ratio
  ⟨region.width * ratio, region.height * ratio⟩

def fit (s : Stage α) (layout : Placing α) (size : Size α) : Except (Fault α) (Fitted α) :=
  if size.proper then
    let fitted := Size.largest (size.width / size.height) (s.room layout)
    let corner := s.origin layout fitted
    .ok ⟨⟨corner.x, corner.y, fitted.width, fitted.height⟩, fitted.width / size.width⟩
  else .error (.degenerateElement size)

/-- The size of a line of text whose characters are all equally wide. -/
def textSize (s : Stage α) (text : String) (fontSize advance : α) : Size α :=
  ⟨Scalar.ofNat (Text.units16 text) * fontSize * advance, fontSize * s.measures.lineHeight⟩

def placeText (s : Stage α) (layout : Placing α) (text : String) (fontSize : α)
    (fontFamily : String) : Except (Fault α) (Box α) :=
  if Scalar.proper fontSize then
    let size := s.textSize text fontSize (s.fonts.advance fontFamily)
    let corner := s.origin layout size
    .ok ⟨corner.x, corner.y, size.width, size.height⟩
  else .error (.fontSize fontSize)

end Stage
end Storyboard
