import Storyboard.Stage

set_option autoImplicit false

/-!
Groups on a stage: items side by side along a main axis. First the sizes of all items are found,
then the free room is shared out, and last each item is put in its place.
-/

namespace Storyboard

structure Member (α : Type) where
  id : String
  size : Size α
  /-- Width over height. -/
  aspect : α
  deriving DecidableEq, Repr

structure Extent (α : Type) where
  main : α
  cross : α
  deriving DecidableEq, Repr

variable {α : Type}

namespace Direction

def extent (d : Direction) (s : Size α) : Extent α :=
  match d with
  | .row => ⟨s.width, s.height⟩
  | .column => ⟨s.height, s.width⟩

def size (d : Direction) (e : Extent α) : Size α :=
  match d with
  | .row => ⟨e.main, e.cross⟩
  | .column => ⟨e.cross, e.main⟩

end Direction

variable [Scalar α]

def Member.create (id : String) (size : Size α) : Except (Fault α) (Member α) :=
  if size.proper then .ok ⟨id, size, size.width / size.height⟩ else .error (.degenerateItem id size)

/-- The cross extent that goes with one unit of main extent. -/
def Direction.crossRate (d : Direction) (aspect : α) : α :=
  match d with
  | .row => 1.0 / aspect
  | .column => aspect

/-- A size of an aspect ratio that takes its share of the main axis, or less if the cross extent
would pass its cap. -/
def Direction.shareSize (d : Direction) (aspect share cap : α) : Size α :=
  let ratio := d.crossRate aspect
  let cross := share * ratio
  d.size (if cap < cross then ⟨cap / ratio, cap⟩ else ⟨share, cross⟩)

/-- The sizes of the items. They and the gaps between them are to fill the main axis at most. -/
def Sizing.sizes (sizing : Sizing) (d : Direction) (items : List (Member α)) (main cap gap : α) :
    List (Size α) :=
  let n : α := Scalar.ofNat items.length
  let available := main - (n - 1.0) * gap
  match sizing with
  | .uniform =>
    let mean := Scalar.sum (items.map Member.aspect) / n
    let shared := d.shareSize mean (available / n) cap
    items.map fun _ => shared
  | .intrinsic =>
    let extents := items.map fun i => d.extent i.size
    let widest := (extents.map Extent.cross).foldl Scalar.greatest 0.0
    let factor := Scalar.least (available / Scalar.sum (extents.map Extent.main)) (cap / widest)
    items.map fun i => ⟨i.size.width * factor, i.size.height * factor⟩
  | .fill => items.map fun i => d.shareSize i.aspect (available / n) cap

structure Spacing (α : Type) where
  lead : α
  step : α
  deriving DecidableEq, Repr

def Justify.spacing (j : Justify) (main total gap n : α) : Spacing α :=
  let free := main - total
  match j with
  | .start => ⟨0.0, gap⟩
  | .stop => ⟨free - (n - 1.0) * gap, gap⟩
  | .center => ⟨(free - (n - 1.0) * gap) / 2.0, gap⟩
  | .spaceBetween => if 1.0 < n then ⟨0.0, free / (n - 1.0)⟩ else ⟨0.0, 0.0⟩
  | .spaceAround => ⟨free / n / 2.0, free / n⟩
  | .spaceEvenly => ⟨free / (n + 1.0), free / (n + 1.0)⟩

def Align.offset (a : Align) (cross itemCross : α) : α :=
  match a with
  | .start => 0.0
  | .stop => cross - itemCross
  | .center | .stretch => (cross - itemCross) / 2.0

/-- Puts sized items in their places, from a point on the main axis on. -/
def Member.putAll (d : Direction) (align : Align) (content : Box α) (step : α) :
    α → List (Member α × Size α) → List (Fitted α)
  | _, [] => []
  | cursor, (item, size) :: rest =>
    let extent := d.extent size
    let cross := (d.extent ⟨content.width, content.height⟩).cross
    let offset := d.size ⟨cursor, align.offset cross extent.cross⟩
    ⟨⟨content.x + offset.width, content.y + offset.height, size.width, size.height⟩,
      size.width / item.size.width⟩ ::
      putAll d align content step (cursor + (extent.main + step)) rest

namespace Stage

def content (s : Stage α) (layout : Flow α) : Box α :=
  (s.region (layout.region.getD default)).inset (layout.padding.getD s.measures.groupPadding)

def groupSizes (s : Stage α) (layout : Flow α) (items : List (Member α)) : List (Size α) :=
  let content := s.content layout
  let extent := layout.direction.extent ⟨content.width, content.height⟩
  (layout.sizing.getD default).sizes layout.direction items extent.main
    (extent.cross * s.measures.crossAxisCap) (layout.gap.getD s.measures.groupGap)

/-- The place of each item, in the order of the items. A group whose items have no usable size fails
at the first of them. -/
def arrange (s : Stage α) (layout : Flow α) (items : List (Member α)) :
    Except (Fault α) (List (Fitted α)) :=
  if items.isEmpty then .ok []
  else
    let d := layout.direction
    let content := s.content layout
    let room : Size α := ⟨content.width, content.height⟩
    let sized := items.zip (s.groupSizes layout items)
    match sized.find? fun (_, size) => !size.proper with
    | some (item, size) => .error (.collapsed item.id size room items.length)
    | none =>
      let total := Scalar.sum (sized.map fun (_, size) => (d.extent size).main)
      let spacing := (layout.justify.getD default).spacing (d.extent room).main total
        (layout.gap.getD s.measures.groupGap) (Scalar.ofNat items.length)
      .ok (Member.putAll d (layout.align.getD default) content spacing.step spacing.lead sized)

/-- The places of the items under their ids. Of items with one id, the last counts. -/
def placesById (s : Stage α) (layout : Flow α) (items : List (Member α)) :
    Except (Fault α) (Table (Fitted α)) :=
  (s.arrange layout items).map fun places => Table.ofList ((items.map Member.id).zip places)

end Stage
end Storyboard
