import Storyboard.Scalar
import Storyboard.Word

set_option autoImplicit false

namespace Storyboard

inductive Region where
  | full
  | topHalf
  | bottomHalf
  | leftHalf
  | rightHalf
  | leftThird
  | centerThird
  | rightThird
  | topThird
  | middleThird
  | bottomThird
  | center
  | mainContent
  | topBanner
  | bottomBanner
  deriving DecidableEq, Inhabited, Repr

inductive Anchor where
  | center
  | top
  | bottom
  | left
  | right
  | topLeft
  | topRight
  | bottomLeft
  | bottomRight
  deriving DecidableEq, Inhabited, Repr

inductive SizeHint where
  | tiny
  | small
  | medium
  | large
  | xl
  | fill
  | auto
  deriving DecidableEq, Repr

inductive Direction where
  | row
  | column
  deriving DecidableEq, Inhabited, Repr

inductive Justify where
  | start
  | stop
  | center
  | spaceBetween
  | spaceAround
  | spaceEvenly
  deriving DecidableEq, Repr

/-- Where an item stands on the cross axis. Nothing is resized to it: to stretch is to center. -/
inductive Align where
  | start
  | stop
  | center
  | stretch
  deriving DecidableEq, Repr

inductive Sizing where
  /-- One size for all, of their mean aspect ratio. -/
  | uniform
  | intrinsic
  /-- Equal shares of the main axis, each item in its own aspect ratio. -/
  | fill
  deriving DecidableEq, Inhabited, Repr

instance : Inhabited SizeHint := ⟨.auto⟩
instance : Inhabited Justify := ⟨.center⟩
instance : Inhabited Align := ⟨.center⟩

instance : Keyword Region where
  all := [.full, .topHalf, .bottomHalf, .leftHalf, .rightHalf, .leftThird, .centerThird,
    .rightThird, .topThird, .middleThird, .bottomThird, .center, .mainContent, .topBanner,
    .bottomBanner]
  key
    | .full => "full"
    | .topHalf => "top-half"
    | .bottomHalf => "bottom-half"
    | .leftHalf => "left-half"
    | .rightHalf => "right-half"
    | .leftThird => "left-third"
    | .centerThird => "center-third"
    | .rightThird => "right-third"
    | .topThird => "top-third"
    | .middleThird => "middle-third"
    | .bottomThird => "bottom-third"
    | .center => "center"
    | .mainContent => "main-content"
    | .topBanner => "top-banner"
    | .bottomBanner => "bottom-banner"
  fallback := .full

instance : Keyword Anchor where
  all := [.center, .top, .bottom, .left, .right, .topLeft, .topRight, .bottomLeft, .bottomRight]
  key
    | .center => "center"
    | .top => "top"
    | .bottom => "bottom"
    | .left => "left"
    | .right => "right"
    | .topLeft => "top-left"
    | .topRight => "top-right"
    | .bottomLeft => "bottom-left"
    | .bottomRight => "bottom-right"
  fallback := .center

instance : Keyword SizeHint where
  all := [.tiny, .small, .medium, .large, .xl, .fill, .auto]
  key
    | .tiny => "tiny"
    | .small => "small"
    | .medium => "medium"
    | .large => "large"
    | .xl => "xl"
    | .fill => "fill"
    | .auto => "auto"
  fallback := .auto

/-- Only `row` is a row. -/
instance : Keyword Direction where
  all := [.row, .column]
  key
    | .row => "row"
    | .column => "column"
  fallback := .column

instance : Keyword Justify where
  all := [.start, .stop, .center, .spaceBetween, .spaceAround, .spaceEvenly]
  key
    | .start => "start"
    | .stop => "end"
    | .center => "center"
    | .spaceBetween => "space-between"
    | .spaceAround => "space-around"
    | .spaceEvenly => "space-evenly"
  fallback := .center

instance : Keyword Align where
  all := [.start, .stop, .center, .stretch]
  key
    | .start => "start"
    | .stop => "end"
    | .center => "center"
    | .stretch => "stretch"
  fallback := .center

/-- An unknown sizing fills; an absent one is uniform. -/
instance : Keyword Sizing where
  all := [.uniform, .intrinsic, .fill]
  key
    | .uniform => "uniform"
    | .intrinsic => "intrinsic"
    | .fill => "fill"
  fallback := .fill

/-- The fraction of a region's width and height that an element may take. -/
def SizeHint.ratio {α : Type} [Scalar α] : SizeHint → α
  | .tiny => 0.10
  | .small => 0.20
  | .medium | .auto => 0.35
  | .large => 0.50
  | .xl => 0.70
  | .fill => 0.90

end Storyboard
