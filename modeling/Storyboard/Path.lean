import Storyboard.Text.Split

set_option autoImplicit false

namespace Storyboard.Path

def parts (text : String) : List String := Text.split '/' text

def isAbsolute (text : String) : Bool := text.toList.head? == some '/'

/-- A path that can only be a folder. -/
def endsInSlash (text : String) : Bool := text.toList.getLast? == some '/'

/-- Drops the parts at the end that stay in place, but never the first, which may be the root. -/
def trimmed : List String → List String
  | [] => []
  | first :: rest => first :: (rest.reverse.dropWhile fun part => part == "" || part == ".").reverse

/-- The text of the folder a path lies in: nothing for a bare name, none for the root. -/
def parentText? (text : String) : Option String :=
  match trimmed (parts text) with
  | [] | [""] => none
  | parts =>
    match trimmed parts.dropLast with
    | [] => some ""
    | [""] => some "/"
    | above => some (String.intercalate "/" above)

/-- A path and the folders it lies in, from the inside out, for at most `n` steps. The root and the
working folder are not among them. -/
def enclosing : Nat → String → List String
  | 0, _ => []
  | n + 1, text =>
    match parentText? text with
    | none => []
    | some above => text :: enclosing n above

/-- A path and all folders it lies in, from the inside out. A step leaves out a part at least. -/
def lineage (text : String) : List String := enclosing (text.length + 1) text

end Storyboard.Path
