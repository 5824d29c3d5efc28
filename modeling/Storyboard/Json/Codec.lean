import Storyboard.Json.Misread
import Storyboard.Json.Reader
import Storyboard.Scalar
import Storyboard.Word

set_option autoImplicit false

namespace Storyboard

/-- Where the JSON being read stands. A text is read in one pass, so a fault of its form shows where
reading meets it; a part set aside until its kind was known, and a value in memory, are sound. -/
inductive Origin where
  | document
  | kept
  | memory
  deriving DecidableEq, Repr

structure Codec (α : Type) where
  read : Origin → Json → Except Misread α
  write : α → Json

namespace Codec
variable {α β : Type}

def string : Codec String where
  read
    | _, .str s => .ok s
    | _, j => .error (j.mismatch "a string")
  write := .str

def bool : Codec Bool where
  read
    | _, .bool b => .ok b
    | _, j => .error (j.mismatch "a boolean")
  write := .bool

def real : Codec Float where
  read
    | _, .float x => .ok x
    | _, .int n => .ok (Float.ofInt n)
    | _, j => .error (j.mismatch "f64")
  write := .float

def ranged (expected : String) (low high : Int) (make : Int → α) (int : α → Int) : Codec α where
  read
    | _, .int n =>
      if low ≤ n ∧ n ≤ high then .ok (make n) else .error (.invalidValue (.int n) expected)
    | _, j => .error (j.mismatch expected)
  write a := .int (int a)

def natural32 : Codec UInt32 :=
  ranged "u32" 0 (UInt32.size - 1) (fun n => UInt32.ofNat n.toNat) fun a => a.toNat

def pixel : Codec Pixel :=
  ranged "i64" Int64.minValue.toInt Int64.maxValue.toInt Int64.ofInt Int64.toInt

def list (c : Codec α) : Codec (List α) where
  read
    | o, .arr xs => xs.mapM (c.read o)
    | _, j => .error (j.mismatch "a sequence")
  write xs := .arr (xs.map c.write)

def keyword {κ : Type} [Keyword κ] : Codec κ where
  read o j := (string.read o j).map Keyword.ofKey
  write w := .str (Word.key w)

def pick {κ : Type} [Word κ] (name : String) : Except Misread κ :=
  match Word.ofKey? name with
  | some w => .ok w
  | none => .error (.unknownVariant name (Word.keys κ))

/-- A word may carry an empty value. -/
def readNothing : Origin → Json → Except Misread Unit
  | _, .null | .kept, .obj [] => .ok ()
  | _, j => .error (j.mismatch "unit")

/-- A word of a strict set is its key, or an object with that key alone. In a text nothing else is
so much as looked at. -/
def readWord {κ : Type} [Word κ] : Origin → Json → Except Misread κ
  | _, .str s => pick s
  | o, .obj [(some k, x)] => do
    let w ← pick k
    readNothing o x
    return w
  | .document, .obj ((some k, x) :: _) => do
    let _ : κ ← pick k
    readNothing .document x
    throw .malformed
  | .document, _ => .error .malformed
  | _, .obj _ => .error (.invalidValue .map "map with a single key")
  | _, j => .error (j.mismatch "string or map")

def word {κ : Type} [Word κ] : Codec κ where
  read := readWord
  write w := .str (Word.key w)

def either (name : String) (left : Codec α) (right : Codec β) : Codec (α ⊕ β) where
  read o j :=
    match left.read o j, right.read o j with
    | .ok a, _ => .ok (.inl a)
    | .error _, .ok b => .ok (.inr b)
    | .error _, .error _ => .error (.noVariant name)
  write
    | .inl a => left.write a
    | .inr b => right.write b

def iso (c : Codec α) (there : α → β) (back : β → α) : Codec β where
  read o j := (c.read o j).map there
  write b := c.write (back b)

/-- A document is one value, with nothing but blanks after it. -/
def ofText (c : Codec α) (text : String) : Except Misread α := do
  let (root, rest) := Json.scan text.toList
  let a ← c.read .document root
  if (rest.getD []).all Json.isBlank then return a else throw .malformed

def toText (c : Codec α) (a : α) : String := (c.write a).pretty

end Codec
end Storyboard
