import Storyboard.Spec

set_option autoImplicit false

namespace Storyboard

inductive AssetKind where
  | svg
  | video
  | audio
  | image
  deriving DecidableEq, Repr

instance : Word AssetKind where
  all := [.svg, .video, .audio, .image]
  key
    | .svg => "svg"
    | .video => "video"
    | .audio => "audio"
    | .image => "image"

structure Asset (α : Type) where
  id : String
  kind : AssetKind
  url : String
  width : Option α
  height : Option α
  deriving BEq, DecidableEq, Repr

/-- The assets by kind. A kind without assets is absent. -/
structure AssetTable (α : Type) where
  svgs : Option (List (Asset α))
  videos : Option (List (Asset α))
  audio : Option (List (Asset α))
  images : Option (List (Asset α))
  deriving BEq, DecidableEq, Repr

structure PixelPoint where
  x : Pixel
  y : Pixel
  deriving DecidableEq, Repr

structure PixelBox where
  x : Pixel
  y : Pixel
  width : Pixel
  height : Pixel
  deriving DecidableEq, Repr

/-- The box of a drawing is anchored at its top left corner. -/
structure SvgDeed (α : Type) where
  asset : String
  box : PixelBox
  scale : α
  start : α
  duration : α
  animation : Option String
  deriving BEq, DecidableEq, Repr

/-- The box of a text is anchored at its top left corner. -/
structure TextDeed (α : Type) where
  text : String
  box : PixelBox
  fontSize : α
  fontFamily : String
  color : String
  animation : String
  start : α
  duration : α
  deriving BEq, DecidableEq, Repr

/-- A closed shape stands at its center, a line or arrow at its start. -/
structure ShapeDeed (α : Type) where
  shape : Shape
  x : Pixel
  y : Pixel
  x2 : Option Pixel
  y2 : Option Pixel
  width : Option Pixel
  height : Option Pixel
  radius : Option Pixel
  points : Option (List PixelPoint)
  color : String
  fill : Bool
  strokeWidth : α
  arrowHeadSize : Option α
  start : α
  duration : α
  deriving BEq, DecidableEq, Repr

/-- The box of an image is anchored at its center. -/
structure ImageDeed (α : Type) where
  asset : String
  box : PixelBox
  scale : α
  animation : String
  start : α
  duration : α
  deriving BEq, DecidableEq, Repr

structure AudioDeed (α : Type) where
  asset : String
  volume : α
  start : α
  duration : α
  deriving BEq, DecidableEq, Repr

inductive Deed (α : Type) where
  | svg (d : SvgDeed α)
  | text (d : TextDeed α)
  | shape (d : ShapeDeed α)
  | image (d : ImageDeed α)
  | audio (d : AudioDeed α)
  deriving BEq, DecidableEq, Repr

namespace Deed
variable {α : Type}

def kind : Deed α → String
  | .svg _ => "svgAnimation"
  | .text _ => "text"
  | .shape _ => "shape"
  | .image _ => "image"
  | .audio _ => "audio"

def start : Deed α → α
  | .svg d => d.start
  | .text d => d.start
  | .shape d => d.start
  | .image d => d.start
  | .audio d => d.start

def duration : Deed α → α
  | .svg d => d.duration
  | .text d => d.duration
  | .shape d => d.duration
  | .image d => d.duration
  | .audio d => d.duration

end Deed

structure Action (α : Type) where
  id : String
  deed : Deed α
  deriving BEq, DecidableEq, Repr

structure PlayedScene (α : Type) where
  id : String
  name : String
  start : α
  duration : α
  background : Option String
  actions : List (Action α)
  deriving BEq, DecidableEq, Repr

structure ProjectInfo (α : Type) where
  title : String
  version : String
  resolution : Canvas
  fps : UInt32
  duration : α
  backgroundColor : Option String
  deriving BEq, DecidableEq, Repr

structure Project (α : Type) where
  info : ProjectInfo α
  assets : AssetTable α
  scenes : List (PlayedScene α)
  deriving BEq, DecidableEq, Repr

def Project.actions {α : Type} (p : Project α) : List (Action α) :=
  p.scenes.flatMap PlayedScene.actions

end Storyboard
