import Storyboard.Decimal.Text
import Storyboard.Json
import Storyboard.Json.Writer
import Storyboard.Text.Shown

set_option autoImplicit false

namespace Storyboard

inductive Found where
  | null
  | bool (b : Bool)
  | int (n : Int)
  | float (x : Float)
  | str (s : String)
  | sequence
  | map

inductive Misread where
  /-- The text is not JSON up to where reading got. -/
  | malformed
  | missingField (key : String)
  | duplicateField (key : String)
  | unknownVariant (name : String) (known : List String)
  | invalidType (found : Found) (expected : String)
  | invalidValue (found : Found) (expected : String)
  | invalidLength (length : Nat) (expected : String)
  | noVariant (name : String)

def Found.message : Found → String
  | .null => "null"
  | .bool b => s!"boolean `{b}`"
  | .int n => s!"integer `{String.ofList (Json.intChars n)}`"
  | .float x => s!"floating point `{Json.floatText x}`"
  | .str s => s!"string {Text.shown s}"
  | .sequence => "sequence"
  | .map => "map"

def Misread.choices (names : List String) : String :=
  match names.map fun name => s!"`{name}`" with
  | [] => "there are no variants"
  | [a] => s!"expected {a}"
  | [a, b] => s!"expected {a} or {b}"
  | quoted =>
    let listed := String.intercalate ", " quoted
    s!"expected one of {listed}"

def Misread.message : Misread → String
  | .malformed => "malformed JSON"
  | .missingField key => s!"missing field `{key}`"
  | .duplicateField key => s!"duplicate field `{key}`"
  | .unknownVariant name known => s!"unknown variant `{name}`, {choices known}"
  | .invalidType found expected => s!"invalid type: {found.message}, expected {expected}"
  | .invalidValue found expected => s!"invalid value: {found.message}, expected {expected}"
  | .invalidLength length expected => s!"invalid length {length}, expected {expected}"
  | .noVariant name => s!"data did not match any variant of untagged enum {name}"

/-- The complaint about a value of the wrong kind, unless it is no value at all. -/
def Json.mismatch (expected : String) : Json → Misread
  | .null => .invalidType .null expected
  | .bool b => .invalidType (.bool b) expected
  | .int n => .invalidType (.int n) expected
  | .float x => .invalidType (.float x) expected
  | .str s => .invalidType (.str s) expected
  | .arr _ => .invalidType .sequence expected
  | .obj _ => .invalidType .map expected
  | .garbled | .broken => .malformed

end Storyboard
