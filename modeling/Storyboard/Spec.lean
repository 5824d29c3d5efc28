import Storyboard.Layout

set_option autoImplicit false

/-!
The spec of a storyboard: scenes on a timeline and the elements in them. Nothing in it is in pixels
but the resolution and the sizes of assets; times are in seconds.
-/

namespace Storyboard

structure Heading where
  title : String
  version : String
  resolution : Canvas
  fps : UInt32
  backgroundColor : Option String
  deriving DecidableEq, Repr

structure SvgSource (α : Type) where
  id : String
  url : String
  size : Size α
  deriving DecidableEq, Repr

structure AudioSource where
  id : String
  url : String
  deriving DecidableEq, Repr

structure ImageSource (α : Type) where
  id : String
  url : String
  width : Option α
  height : Option α
  deriving DecidableEq, Repr

/-- The size of an image is known if both of its sides are. -/
def ImageSource.size? {α : Type} (i : ImageSource α) : Option (Size α) := do
  return ⟨← i.width, ← i.height⟩

structure Sources (α : Type) where
  svgs : List (SvgSource α)
  audio : List AudioSource
  images : List (ImageSource α)
  deriving DecidableEq, Repr

structure Soundtrack (α : Type) where
  asset : String
  volume : Option α
  deriving DecidableEq, Repr

structure Picture (α : Type) where
  asset : String
  layout : Placing α
  start : α
  duration : α
  animation : Option String
  deriving DecidableEq, Repr

structure TextLine (α : Type) where
  text : String
  layout : Placing α
  start : α
  duration : α
  color : Option String
  fontSize : Option α
  fontFamily : Option String
  animation : Option String
  deriving DecidableEq, Repr

inductive Shape where
  | line
  | arrow
  | circle
  | rectangle
  | ellipse
  | polygon
  deriving DecidableEq, Repr

instance : Word Shape where
  all := [.line, .arrow, .circle, .rectangle, .ellipse, .polygon]
  key
    | .line => "line"
    | .arrow => "arrow"
    | .circle => "circle"
    | .rectangle => "rectangle"
    | .ellipse => "ellipse"
    | .polygon => "polygon"

/-- Lines and arrows join two anchors; the other shapes are closed and fill a box. -/
def Shape.isOpen : Shape → Bool
  | .line | .arrow => true
  | .circle | .rectangle | .ellipse | .polygon => false

structure Figure (α : Type) where
  shape : Shape
  layout : ShapePlacing α
  start : α
  duration : α
  color : Option String
  fill : Option Bool
  strokeWidth : Option α
  arrowHeadSize : Option α
  /-- The vertices of a polygon, as offsets from its center before it is scaled. -/
  points : List (Point α)
  deriving DecidableEq, Repr

inductive ItemKind where
  | svg
  | text
  | image
  deriving DecidableEq, Repr

instance : Word ItemKind where
  all := [.svg, .text, .image]
  key
    | .svg => "svg"
    | .text => "text"
    | .image => "image"

/-- A member of a group. Its own times, where it has them, stand in for those of the group. -/
structure Item (α : Type) where
  kind : ItemKind
  asset : Option String
  text : Option String
  color : Option String
  fontSize : Option α
  fontFamily : Option String
  animation : Option String
  start : Option α
  duration : Option α
  deriving DecidableEq, Repr

structure Group (α : Type) where
  layout : Flow α
  items : List (Item α)
  start : α
  duration : α
  deriving DecidableEq, Repr

inductive Element (α : Type) where
  | svg (e : Picture α)
  | text (e : TextLine α)
  | shape (e : Figure α)
  | image (e : Picture α)
  | group (e : Group α)
  deriving DecidableEq, Repr

namespace Element
variable {α : Type}

def kind : Element α → String
  | .svg _ => "svg"
  | .text _ => "text"
  | .shape _ => "shape"
  | .image _ => "image"
  | .group _ => "group"

def start : Element α → α
  | .svg e => e.start
  | .text e => e.start
  | .shape e => e.start
  | .image e => e.start
  | .group e => e.start

def duration : Element α → α
  | .svg e => e.duration
  | .text e => e.duration
  | .shape e => e.duration
  | .image e => e.duration
  | .group e => e.duration

end Element

structure Scene (α : Type) where
  id : String
  name : String
  start : α
  duration : α
  background : Option String
  audio : Option (Soundtrack α)
  elements : List (Element α)
  deriving DecidableEq, Repr

structure Spec (α : Type) where
  heading : Heading
  assets : Sources α
  scenes : List (Scene α)
  deriving DecidableEq, Repr

def Scene.stop {α : Type} [Scalar α] (s : Scene α) : α := s.start + s.duration

end Storyboard
