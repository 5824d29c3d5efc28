import Storyboard.Geometry

set_option autoImplicit false

namespace Storyboard

structure Measures (α : Type) where
  /-- The margin kept by elements at an edge of their region. -/
  positionPadding : α
  groupPadding : α
  groupGap : α
  /-- The fraction of the cross axis that a group item may take. -/
  crossAxisCap : α
  /-- The height of a line as a multiple of the font size. -/
  lineHeight : α
  /-- The mean advance of a character in an unlisted font, as a fraction of the font size. -/
  unlistedAdvance : α
  deriving BEq, DecidableEq, Repr

structure Defaults (α : Type) where
  fontFamily : String
  fontSize : α
  textColor : String
  shapeColor : String
  strokeWidth : α
  arrowHeadSize : α
  volume : α
  /-- The size of an asset that declares none. -/
  assetSize : Size α
  /-- The size of an image element whose asset declares none. -/
  imageSize : Size α
  /-- The box that closed shapes are fitted as. -/
  shapeSize : Size α
  /-- The advance by which text in a group is measured, whatever its font. -/
  groupTextAdvance : α
  textAnimation : String
  imageAnimation : String
  deriving BEq, DecidableEq, Repr

structure Config (α : Type) where
  measures : Measures α
  defaults : Defaults α
  deriving BEq, DecidableEq, Repr

variable {α : Type} [Scalar α]

instance : Inhabited (Measures α) where
  default := {
    positionPadding := 50.0
    groupPadding := 50.0
    groupGap := 30.0
    crossAxisCap := 0.8
    lineHeight := 1.2
    unlistedAdvance := 0.5 }

instance : Inhabited (Defaults α) where
  default := {
    fontFamily := "CaveatBrush"
    fontSize := 72.0
    textColor := "#000000"
    shapeColor := "#000000"
    strokeWidth := 3.0
    arrowHeadSize := 15.0
    volume := 1.0
    assetSize := ⟨100.0, 100.0⟩
    imageSize := ⟨400.0, 300.0⟩
    shapeSize := ⟨100.0, 100.0⟩
    groupTextAdvance := 0.55
    textAnimation := "draw"
    imageAnimation := "fade" }

instance : Inhabited (Config α) := ⟨⟨default, default⟩⟩

end Storyboard
