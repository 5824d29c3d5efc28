import Storyboard.Layout.Fit
import Storyboard.Layout.Arrange
import Storyboard.Project

set_option autoImplicit false

/-!
From a spec to a project. Scene by scene and element by element, each deed that an element stands
for becomes an action under the next id. The first element that cannot be laid out fails the whole.
-/

namespace Storyboard

variable {α : Type}

abbrev Sizes (α : Type) := String → Option (Size α)

/-- The sizes a spec declares. An image with both sides counts before an svg of the same id, and a
later declaration before an earlier one. -/
def Sources.sizes (a : Sources α) : Sizes α :=
  let images := a.images.filterMap fun i => i.size?.map (i.id, ·)
  let svgs := a.svgs.map fun s => (s.id, s.size)
  fun id => (images.reverse ++ svgs.reverse).lookup id

def AssetTable.ofSources (a : Sources α) : AssetTable α :=
  let given (assets : List (Asset α)) := if assets.isEmpty then none else some assets
  { svgs := given (a.svgs.map fun s => ⟨s.id, .svg, s.url, some s.size.width, some s.size.height⟩)
    videos := none
    audio := given (a.audio.map fun s => ⟨s.id, .audio, s.url, none, none⟩)
    images := given (a.images.map fun s => ⟨s.id, .image, s.url, s.width, s.height⟩) }

structure Compiler (α : Type) where
  stage : Stage α
  defaults : Defaults α

structure Span (α : Type) where
  start : α
  duration : α
  deriving DecidableEq, Repr

variable [Scalar α]

def Scene.span (s : Scene α) (start duration : α) : Span α := ⟨s.start + start, duration⟩

def PixelPoint.round (p : Point α) : PixelPoint := ⟨Scalar.round p.x, Scalar.round p.y⟩

def PixelBox.round (b : Box α) : PixelBox :=
  ⟨Scalar.round b.x, Scalar.round b.y, Scalar.round b.width, Scalar.round b.height⟩

def PixelBox.roundCentered (b : Box α) : PixelBox :=
  ⟨Scalar.round b.center.x, Scalar.round b.center.y, Scalar.round b.width, Scalar.round b.height⟩

def SvgDeed.place (asset : String) (f : Fitted α) (t : Span α) (animation : Option String) :
    SvgDeed α :=
  ⟨asset, .round f.box, f.scale, t.start, t.duration, animation⟩

namespace Compiler

def create (canvas : Canvas) (fonts : FontTable α) (config : Config α) : Compiler α :=
  ⟨Stage.create canvas fonts config.measures, config.defaults⟩

def plain (canvas : Canvas) : Compiler α := create canvas FontTable.standard default

def ofSpec (s : Spec α) : Except (Fault α) (Compiler α) := s.canvas.map plain

variable (c : Compiler α)

def imageDeed (asset : String) (f : Fitted α) (t : Span α) (animation : Option String) :
    ImageDeed α :=
  ⟨asset, .roundCentered f.box, f.scale, animation.getD c.defaults.imageAnimation, t.start,
    t.duration⟩

def textDeed (text : String) (box : Box α) (t : Span α) (fontSize : α)
    (fontFamily color animation : Option String) : TextDeed α :=
  { text
    box := .round box
    fontSize
    fontFamily := fontFamily.getD c.defaults.fontFamily
    color := color.getD c.defaults.textColor
    animation := animation.getD c.defaults.textAnimation
    start := t.start
    duration := t.duration }

/-- A shape at a pixel, with none of the measures that only some shapes have. -/
def shapeDeed (scene : Scene α) (e : Figure α) (p : Point α) : ShapeDeed α :=
  let t := scene.span e.start e.duration
  { shape := e.shape
    x := Scalar.round p.x
    y := Scalar.round p.y
    x2 := none
    y2 := none
    width := none
    height := none
    radius := none
    points := none
    color := e.color.getD c.defaults.shapeColor
    fill := e.fill.getD false
    strokeWidth := e.strokeWidth.getD c.defaults.strokeWidth
    arrowHeadSize := none
    start := t.start
    duration := t.duration }

/-- A line or arrow. Only an arrow has a head, which is filled. -/
def connectorDeed (scene : Scene α) (e : Figure α) (connection : Connection) : ShapeDeed α :=
  let (source, target) := c.stage.connect connection
  { c.shapeDeed scene e source with
    x2 := some (Scalar.round target.x)
    y2 := some (Scalar.round target.y)
    fill := e.shape == .arrow
    arrowHeadSize :=
      if e.shape == .arrow then some (e.arrowHeadSize.getD c.defaults.arrowHeadSize) else none }

def closedDeed (scene : Scene α) (e : Figure α) (f : Fitted α) : ShapeDeed α :=
  let deed := c.shapeDeed scene e f.box.center
  match e.shape with
  | .circle =>
    { deed with radius := some (Scalar.round (Scalar.least f.box.width f.box.height / 2.0)) }
  | .rectangle | .ellipse =>
    { deed with
      width := some (Scalar.round f.box.width)
      height := some (Scalar.round f.box.height) }
  | .polygon =>
    { deed with
      points := some (e.points.map fun p => .round (f.box.center.move (p.scale f.scale))) }
  | .line | .arrow => deed

def shape (scene : Scene α) (e : Figure α) : Except (Fault α) (ShapeDeed α) :=
  match e.layout, e.shape.isOpen with
  | .between connection, true => .ok (c.connectorDeed scene e connection)
  | .inside layout, false => (c.stage.fit layout c.defaults.shapeSize).map (c.closedDeed scene e)
  | .inside _, true => .error (.needsConnection scene.id e.shape)
  | .between _, false => .error (.needsPosition scene.id e.shape)

variable (sizes : Sizes α)

def svg (scene : Scene α) (e : Picture α) : Except (Fault α) (SvgDeed α) :=
  (c.stage.fit e.layout ((sizes e.asset).getD c.defaults.assetSize)).map fun f =>
    .place e.asset f (scene.span e.start e.duration) e.animation

def image (scene : Scene α) (e : Picture α) : Except (Fault α) (ImageDeed α) :=
  (c.stage.fit e.layout ((sizes e.asset).getD c.defaults.imageSize)).map fun f =>
    c.imageDeed e.asset f (scene.span e.start e.duration) e.animation

def text (scene : Scene α) (e : TextLine α) : Except (Fault α) (TextDeed α) :=
  let fontSize := e.fontSize.getD c.defaults.fontSize
  let family := e.fontFamily.getD c.defaults.fontFamily
  (c.stage.placeText e.layout e.text fontSize family).map fun box =>
    c.textDeed e.text box (scene.span e.start e.duration) fontSize e.fontFamily e.color e.animation

/-- The size a group item comes in. An item without the field that its kind needs has none and is
left out of its group. -/
def itemSize? (item : Item α) : Option (Size α) :=
  match item.kind with
  | .svg | .image => item.asset.map fun asset => (sizes asset).getD c.defaults.assetSize
  | .text => do
    let text ← item.text
    guard (text ≠ "")
    return c.stage.textSize text (item.fontSize.getD c.defaults.fontSize)
      c.defaults.groupTextAdvance

/-- The items of a group that count, with their sizes and the places they have in the document. -/
def members (items : List (Item α)) : List (Item α × Size α × Nat) :=
  items.zipIdx.filterMap fun (item, i) => (c.itemSize? sizes item).map (item, ·, i)

def itemDeed (scene : Scene α) (group : Group α) (item : Item α) (f : Fitted α) : Deed α :=
  let t := scene.span (item.start.getD group.start) (item.duration.getD group.duration)
  match item.kind with
  | .svg => .svg (.place (item.asset.getD "") f t item.animation)
  | .image => .image (c.imageDeed (item.asset.getD "") f t item.animation)
  | .text =>
    .text (c.textDeed (item.text.getD "") f.box t (item.fontSize.getD c.defaults.fontSize)
      item.fontFamily item.color item.animation)

def itemId (i : Nat) : String := s!"item-{i}"

def soundtrack (scene : Scene α) (t : Soundtrack α) : Deed α :=
  .audio ⟨t.asset, t.volume.getD c.defaults.volume, scene.start, scene.duration⟩

end Compiler

/-- How far a compilation has come: the number of the last id, which counts on from scene to scene,
and the actions of the scene at hand. -/
structure Progress (α : Type) where
  last : Nat
  actions : List (Action α)

abbrev Compiling (α : Type) := StateT (Progress α) (Except (Fault α))

namespace Compiling

def nextId (kind : String) : Compiling α String := do
  let last := (← get).last + 1
  modify fun p => { p with last }
  return s!"{kind}_{last}"

def emit (kind : String) (d : Deed α) : Compiling α Unit := do
  let id ← nextId kind
  modify fun p => { p with actions := p.actions ++ [⟨id, d⟩] }

end Compiling

namespace Compiler
open Compiling

variable (c : Compiler α) (sizes : Sizes α)

def playSvg (scene : Scene α) (e : Picture α) : Compiling α Unit := do
  let d ← c.svg sizes scene e
  emit "svg" (.svg d)

def playText (scene : Scene α) (e : TextLine α) : Compiling α Unit := do
  let d ← c.text scene e
  emit "text" (.text d)

def playShape (scene : Scene α) (e : Figure α) : Compiling α Unit := do
  let d ← c.shape scene e
  emit "shape" (.shape d)

def playImage (scene : Scene α) (e : Picture α) : Compiling α Unit := do
  let d ← c.image sizes scene e
  emit "image" (.image d)

def playItem (scene : Scene α) (group : Group α) (item : Item α) (f : Fitted α) :
    Compiling α Unit :=
  let d := c.itemDeed scene group item f
  match item.kind with
  | .svg => emit "svg" d
  | .image => emit "image" d
  | .text => emit "text" d

/-- The places of the items that count, all found before the first of them draws an id. -/
def places (e : Group α) : Except (Fault α) (Table (Fitted α)) := do
  let flex ← (c.members sizes e.items).mapM fun (_, size, i) => Member.create (itemId i) size
  c.stage.placesById e.layout flex

def playGroup (scene : Scene α) (e : Group α) : Compiling α Unit := do
  let places ← c.places sizes e
  (c.members sizes e.items).forM fun (item, _, i) =>
    (places.get? (itemId i)).forM (c.playItem scene e item)

def playElement (scene : Scene α) : Element α → Compiling α Unit
  | .svg e => c.playSvg sizes scene e
  | .text e => c.playText scene e
  | .shape e => c.playShape scene e
  | .image e => c.playImage sizes scene e
  | .group e => c.playGroup sizes scene e

def playElements (scene : Scene α) : Compiling α Unit := do
  scene.audio.forM fun t => emit "audio" (c.soundtrack scene t)
  scene.elements.forM (c.playElement sizes scene)

/-- Plays a scene with ids that go on from the last one drawn. -/
def playScene (scene : Scene α) : StateT Nat (Except (Fault α)) (PlayedScene α) := do
  let (_, done) ← (c.playElements sizes scene).run ⟨← get, []⟩
  set done.last
  return {
    id := scene.id
    name := scene.name
    start := scene.start
    duration := scene.duration
    background := scene.background
    actions := done.actions }

end Compiler

/-- When the latest scene ends; zero where all scenes end before that. -/
def Spec.duration (s : Spec α) : α := (s.scenes.map Scene.stop).foldl Scalar.greatest 0.0

def ProjectInfo.ofSpec (s : Spec α) : ProjectInfo α :=
  { title := s.heading.title
    version := s.heading.version
    resolution := s.heading.resolution
    fps := s.heading.fps
    duration := s.duration
    backgroundColor := s.heading.backgroundColor }

namespace Compiler

def compileWith (c : Compiler α) (sizes : Sizes α) (s : Spec α) :
    Except (Fault α) (Project α) := do
  let (scenes, _) ← (s.scenes.mapM (c.playScene sizes)).run 0
  return ⟨.ofSpec s, .ofSources s.assets, scenes⟩

def compile (c : Compiler α) (s : Spec α) : Except (Fault α) (Project α) :=
  c.compileWith s.assets.sizes s

end Compiler
end Storyboard
