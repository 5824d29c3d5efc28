import Storyboard.Decimal.Text
import Storyboard.Spec

set_option autoImplicit false

/-!
What is wrong with a spec: each issue is a problem at a node of the document. A spec without issues
plays its scenes one after another, keeps elements within their scenes, and uses only assets it
declares.
-/

namespace Storyboard

inductive Step where
  | field (name : String)
  | index (i : Nat)
  deriving DecidableEq, Repr

inductive Problem (α : Type) where
  | emptyResolution
  | zeroRate
  | sizelessSvg (id : String)
  | earlyStart
  | noDuration
  | undeclaredAudio (id : String)
  | volumeRange (volume : α)
  | overrun (scene : String)
  | undeclaredSvg (id : String)
  | undeclaredImage (id : String)
  | undeclaredItem (id : String)
  | overlap (earlier later : String)
  deriving DecidableEq, Repr

structure Issue (α : Type) where
  path : List Step
  problem : Problem α
  deriving DecidableEq, Repr

def Step.text : Step → String
  | .field name => s!".{name}"
  | .index i => s!"[{i}]"

def Problem.message : Problem Float → String
  | .emptyResolution => "width and height must be > 0"
  | .zeroRate => "must be > 0"
  | .sizelessSvg id => s!"svg '{id}' must declare width and height > 0"
  | .earlyStart => "startTime must be >= 0"
  | .noDuration => "duration must be > 0"
  | .undeclaredAudio id => s!"references undeclared audio asset '{id}'"
  | .volumeRange volume => s!"must be within [0, 1], got {Decimal.shown volume}"
  | .overrun scene => s!"element exceeds duration of scene '{scene}'"
  | .undeclaredSvg id => s!"references undeclared svg asset '{id}'"
  | .undeclaredImage id => s!"references undeclared image asset '{id}'"
  | .undeclaredItem id => s!"references undeclared asset '{id}'"
  | .overlap earlier later => s!"scenes '{earlier}' and '{later}' overlap in timeline"

namespace Issue

def pathText {α : Type} (i : Issue α) : String := String.join ("$" :: i.path.map Step.text)

def text (i : Issue Float) : String := s!"{i.pathText}: {i.problem.message}"

end Issue

variable {α : Type}

def Issue.when (broken : Bool) (path : List Step) (problem : Problem α) : List (Issue α) :=
  if broken then [⟨path, problem⟩] else []

namespace Sources

def declaresSvg (a : Sources α) (id : String) : Bool := a.svgs.any (·.id == id)
def declaresAudio (a : Sources α) (id : String) : Bool := a.audio.any (·.id == id)
def declaresImage (a : Sources α) (id : String) : Bool := a.images.any (·.id == id)

/-- Whether the asset of a group item is declared under the kind of the item. Text needs none. -/
def declares (a : Sources α) : ItemKind → String → Bool
  | .svg, id => a.declaresSvg id
  | .image, id => a.declaresImage id
  | .text, _ => true

end Sources

/-- How far the walk over a spec has come: the path to the node at hand, and the issues found. -/
structure Inspection (α : Type) where
  path : List Step
  found : List (Issue α)

abbrev Walk (α : Type) := StateM (Inspection α)

namespace Walk

def push (step : Step) : Walk α Unit := modify fun w => { w with path := w.path ++ [step] }

def pop : Walk α Unit := modify fun w => { w with path := w.path.dropLast }

def clear : Walk α Unit := modify fun w => { w with path := [] }

def report (problem : Problem α) : Walk α Unit :=
  modify fun w => { w with found := w.found ++ [⟨w.path, problem⟩] }

def onlyIf (broken : Bool) (x : Walk α Unit) : Walk α Unit := if broken then x else pure ()

end Walk

open Walk

def Heading.inspect (h : Heading) : Walk α Unit := do
  push (.field "meta")
  onlyIf h.resolution.isEmpty do
    push (.field "resolution")
    report .emptyResolution
    pop
  onlyIf (h.fps == 0) do
    push (.field "fps")
    report .zeroRate
    pop
  pop

def Item.inspect (a : Sources α) (i : Nat) (item : Item α) : Walk α Unit :=
  item.asset.forM fun id =>
    onlyIf (!a.declares item.kind id) do
      push (.index i)
      report (.undeclaredItem id)
      pop

def Element.inspectReferences (a : Sources α) : Element α → Walk α Unit
  | .svg e => onlyIf (!a.declaresSvg e.asset) (report (.undeclaredSvg e.asset))
  | .image e => onlyIf (!a.declaresImage e.asset) (report (.undeclaredImage e.asset))
  | .group e => do
    push (.field "items")
    e.items.zipIdx.forM fun (item, i) => item.inspect a i
    pop
  | .text _ | .shape _ => pure ()

variable [Scalar α]

def SvgSource.inspect (i : Nat) (svg : SvgSource α) : Walk α Unit :=
  onlyIf (!(decide (0.0 < svg.size.width) && decide (0.0 < svg.size.height))) do
    push (.index i)
    report (.sizelessSvg svg.id)
    pop

def Sources.inspect (a : Sources α) : Walk α Unit := do
  push (.field "assets")
  push (.field "svgs")
  a.svgs.zipIdx.forM fun (svg, i) => svg.inspect i
  clear

def Soundtrack.inspect (a : Sources α) (t : Soundtrack α) : Walk α Unit := do
  push (.field "audio")
  onlyIf (!a.declaresAudio t.asset) (report (.undeclaredAudio t.asset))
  t.volume.forM fun v =>
    onlyIf (!(decide (0.0 ≤ v) && decide (v ≤ 1.0))) do
      push (.field "volume")
      report (.volumeRange v)
      pop
  pop

def Element.inspect (a : Sources α) (scene : Scene α) (i : Nat) (e : Element α) : Walk α Unit := do
  push (.index i)
  onlyIf (e.start < 0.0) (report .earlyStart)
  onlyIf (e.duration ≤ 0.0) (report .noDuration)
  onlyIf (scene.duration < e.start + e.duration) (report (.overrun scene.id))
  e.inspectReferences a
  pop

def Scene.inspectElements (a : Sources α) (s : Scene α) : Walk α Unit := do
  push (.field "elements")
  s.elements.zipIdx.forM fun (e, i) => e.inspect a s i
  pop

def Scene.inspect (a : Sources α) (i : Nat) (s : Scene α) : Walk α Unit := do
  push (.index i)
  onlyIf (s.start < 0.0) (report .earlyStart)
  onlyIf (s.duration ≤ 0.0) (report .noDuration)
  s.audio.forM (Soundtrack.inspect a)
  s.inspectElements a
  pop

namespace Spec

def timeline (s : Spec α) : List (Scene α × Nat) :=
  s.scenes.zipIdx.mergeSort fun a b => Scalar.precedes a.1.start b.1.start

/-- A scene that starts before the one ahead of it on the timeline is over. -/
def overlaps (s : Spec α) : List (Issue α) :=
  (s.timeline.zip s.timeline.tail).flatMap fun ((earlier, _), (later, i)) =>
    Issue.when (later.start < earlier.stop) [.field "scenes", .index i]
      (.overlap earlier.id later.id)

def inspect (s : Spec α) : Walk α Unit := do
  s.heading.inspect
  s.assets.inspect
  push (.field "scenes")
  s.scenes.zipIdx.forM fun (scene, i) => scene.inspect s.assets i

/-- All issues: those of the walk in document order, then the overlaps in the order of the starts. -/
def issues (s : Spec α) : List (Issue α) := (s.inspect.run ⟨[], []⟩).2.found ++ s.overlaps

end Spec
end Storyboard
