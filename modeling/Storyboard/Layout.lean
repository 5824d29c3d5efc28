import Storyboard.Geometry
import Storyboard.Layout.Words

set_option autoImplicit false

namespace Storyboard

structure Placing (α : Type) where
  position : Anchor
  region : Option Region
  size : Option SizeHint
  offset : Option (Point α)
  deriving DecidableEq, Repr

structure Flow (α : Type) where
  direction : Direction
  region : Option Region
  justify : Option Justify
  align : Option Align
  sizing : Option Sizing
  gap : Option α
  padding : Option α
  deriving DecidableEq, Repr

structure Endpoint where
  region : Region
  anchor : Anchor
  deriving DecidableEq, Inhabited, Repr

structure Connection where
  source : Endpoint
  target : Endpoint
  deriving DecidableEq, Inhabited, Repr

inductive ShapePlacing (α : Type) where
  | between (c : Connection)
  | inside (l : Placing α)
  deriving DecidableEq, Repr

end Storyboard
