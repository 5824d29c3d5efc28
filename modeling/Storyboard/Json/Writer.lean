import Storyboard.Decimal.Text
import Storyboard.Json
import Storyboard.Json.Quoted

set_option autoImplicit false

namespace Storyboard.Json

def intChars (n : Int) : List Char :=
  if n < 0 then '-' :: Decimal.digitChars n.natAbs else Decimal.digitChars n.natAbs

/-- A double without a finite value has no number and is written as null. -/
def floatText (x : Float) : String := (Decimal.Style.document.text? x).getD "null"

def lineBreak (level : Nat) : List Char := '\n' :: List.replicate (2 * level) ' '

mutual
/-- A value whose closing bracket stands at the given level. -/
def prettyChars (level : Nat) : Json → List Char
  | .null | .garbled | .broken => "null".toList
  | .bool b => (if b then "true" else "false").toList
  | .int n => intChars n
  | .float x => (floatText x).toList
  | .str s => Quoted.encode s.toList
  | .arr [] => "[]".toList
  | .arr (x :: xs) =>
    '[' :: lineBreak (level + 1) ++ prettyChars (level + 1) x ++ prettyItems (level + 1) xs
      ++ lineBreak level ++ [']']
  | .obj [] => ['\x7b', '\x7d']
  | .obj ((k, x) :: es) =>
    '\x7b' :: lineBreak (level + 1) ++ Quoted.encode (k.getD "").toList ++ ':' :: ' ' ::
      prettyChars (level + 1) x ++ prettyEntries (level + 1) es ++ lineBreak level ++ ['\x7d']

def prettyItems (level : Nat) : List Json → List Char
  | [] => []
  | x :: xs => ',' :: lineBreak level ++ prettyChars level x ++ prettyItems level xs

def prettyEntries (level : Nat) : List (Option String × Json) → List Char
  | [] => []
  | (k, x) :: es =>
    ',' :: lineBreak level ++ Quoted.encode (k.getD "").toList ++ ':' :: ' ' ::
      prettyChars level x ++ prettyEntries level es
end

def pretty (j : Json) : String := String.ofList (prettyChars 0 j)

end Storyboard.Json
