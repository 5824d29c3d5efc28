import Storyboard.Json.Misread
import Storyboard.Spec.Issue

set_option autoImplicit false

namespace Storyboard

inductive Document where
  | spec
  | config
  | project
  deriving DecidableEq, Repr

def Document.name : Document → String
  | .spec => "layout spec"
  | .config => "layout config"
  | .project => "project"

inductive FaultKind where
  | validation
  | geometry
  | font
  | document
  | other
  deriving DecidableEq, Repr

/-- A report of a fault leads with its kind, unless it only passes on another one. -/
def FaultKind.report (kind : FaultKind) (detail : String) : String :=
  match kind with
  | .validation => s!"validation error: {detail}"
  | .geometry => s!"geometry error: {detail}"
  | .font => s!"font error: {detail}"
  | .document => s!"serialization error: {detail}"
  | .other => detail

inductive Fault (α : Type) where
  | emptyCanvas
  | issues (found : List (Issue α))
  /-- A line or arrow without two ends. -/
  | needsConnection (scene : String) (shape : Shape)
  /-- A closed shape between two ends. -/
  | needsPosition (scene : String) (shape : Shape)
  | degenerateElement (size : Size α)
  | degenerateItem (id : String) (size : Size α)
  | fontSize (given : α)
  /-- A group item of no usable size, for want of room. -/
  | collapsed (item : String) (size content : Size α) (count : Nat)
  | unknownFont (name : String) (known : List String)
  | misread (document : Option Document) (why : Misread)
  | unreadable (document : Document) (path cause : String)

namespace Fault

def kind {α : Type} : Fault α → FaultKind
  | .emptyCanvas | .issues _ | .needsConnection .. | .needsPosition .. => .validation
  | .degenerateElement _ | .degenerateItem .. | .fontSize _ | .collapsed .. => .geometry
  | .unknownFont .. => .font
  | .misread .. => .document
  | .unreadable .. => .other

def sizeText (s : Size Float) : String := s!"{Decimal.shown s.width}x{Decimal.shown s.height}"

def degenerateText (what : String) (s : Size Float) : String :=
  s!"{what} has degenerate intrinsic size {sizeText s}; width and height must be finite and > 0"

def detail : Fault Float → String
  | .emptyCanvas => "canvas width/height must be > 0"
  | .issues found => String.intercalate "\n" (found.map Issue.text)
  | .needsConnection scene shape =>
    s!"scene '{scene}': {Word.key shape} shape requires a from/to connection layout"
  | .needsPosition scene shape =>
    s!"scene '{scene}': {Word.key shape} shape requires a position layout, not a connection"
  | .degenerateElement size => degenerateText "element" size
  | .degenerateItem id size => degenerateText s!"flex item '{id}'" size
  | .fontSize given => s!"font size must be finite and > 0, got {Decimal.shown given}"
  | .collapsed item size content count =>
    let room := s!"content area {sizeText content} is too small for {count} items"
    s!"group item '{item}' collapsed to {sizeText size}; {room}"
  | .unknownFont name known =>
    let listed := String.intercalate ", " known
    s!"unknown font family '{name}'; registered families: [{listed}]"
  | .misread (some document) why => s!"invalid {document.name}: {why.message}"
  | .misread none why => why.message
  | .unreadable document path _ => s!"read {document.name} '{path}'"

def message (f : Fault Float) : String := f.kind.report f.detail

def cause? {α : Type} : Fault α → Option String
  | .unreadable _ _ cause => some cause
  | _ => none

end Fault

def Canvas.create {α : Type} (width height : UInt32) : Except (Fault α) Canvas :=
  let c : Canvas := ⟨width, height⟩
  if c.isEmpty then .error .emptyCanvas else .ok c

def Spec.canvas {α : Type} (s : Spec α) : Except (Fault α) Canvas :=
  Canvas.create s.heading.resolution.width s.heading.resolution.height

def Spec.check {α : Type} [Scalar α] (s : Spec α) : Except (Fault α) Unit :=
  if s.issues.isEmpty then .ok () else .error (.issues s.issues)

end Storyboard
