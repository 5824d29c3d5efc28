import Storyboard.Fault
import Storyboard.Table

set_option autoImplicit false

/-!
The font families known to a stage. Layout only asks how far a character advances, and gets an
answer for every family; the file of a family is known, or its lack is a fault.
-/

namespace Storyboard

inductive Locality where
  | remote
  | bundled
  deriving DecidableEq, Repr

instance : Word Locality where
  all := [.remote, .bundled]
  key
    | .remote => "remote"
    | .bundled => "bundled"

structure Family (α : Type) where
  url : String
  /-- The mean advance of a character as a fraction of the font size. -/
  advance : α
  locality : Locality
  deriving BEq, DecidableEq, Repr

structure FontTable (α : Type) where
  families : Table (Family α) := {}
  /-- The advance of families that are not listed, once it is set. -/
  unlistedAdvance : Option α := none
  deriving BEq, DecidableEq, Repr

namespace FontTable
variable {α : Type}

def insert (t : FontTable α) (name : String) (family : Family α) : FontTable α :=
  { t with families := t.families.insert name family }

def withUnlistedAdvance (t : FontTable α) (advance : α) : FontTable α :=
  { t with unlistedAdvance := some advance }

def get? (t : FontTable α) (name : String) : Option (Family α) := t.families.get? name

def names (t : FontTable α) : List String := t.families.names

def size (t : FontTable α) : Nat := t.families.size

def url (t : FontTable α) (name : String) : Except (Fault α) String :=
  match t.get? name with
  | some family => .ok family.url
  | none => .error (.unknownFont name t.names)

variable [Scalar α]

def advance (t : FontTable α) (name : String) : α :=
  match t.get? name with
  | some family => family.advance
  | none => t.unlistedAdvance.getD 0.5

def standard : FontTable α :=
  let web (name query : String) (advance : α) : String × Family α :=
    (name, ⟨s!"https://fonts.googleapis.com/css2?family={query}", advance, .remote⟩)
  let file (name : String) (advance : α) : String × Family α :=
    (name, ⟨s!"fonts/{name}-Regular.ttf", advance, .bundled⟩)
  { families := Table.ofList [
      web "CaveatBrush" "Caveat+Brush" 0.5,
      web "Caveat" "Caveat" 0.45,
      web "PatrickHand" "Patrick+Hand" 0.48,
      file "Inter" 0.55,
      file "Roboto" 0.55,
      web "Merriweather" "Merriweather" 0.6] }

end FontTable
end Storyboard
