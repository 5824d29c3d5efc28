set_option autoImplicit false

/-!
Strings between quotes. Writing escapes a quote, a backslash and the characters below the blank;
reading takes every escape of the format, and joins two halves of a surrogate pair.
-/

namespace Storyboard.Json.Quoted

def hexDigit (n : Nat) : Char := Nat.digitChar n

def escape (c : Char) : List Char :=
  match c with
  | '"' => ['\\', '"']
  | '\\' => ['\\', '\\']
  | '\x08' => ['\\', 'b']
  | '\x0c' => ['\\', 'f']
  | '\n' => ['\\', 'n']
  | '\r' => ['\\', 'r']
  | '\t' => ['\\', 't']
  | c =>
    if c.toNat < 0x20 then
      ['\\', 'u', '0', '0', hexDigit (c.toNat / 16), hexDigit (c.toNat % 16)]
    else [c]

def encode (s : List Char) : List Char := '"' :: (s.flatMap escape ++ ['"'])

/-- A character, or one 16-bit unit given by number. -/
inductive Piece where
  | char (c : Char)
  | unit (n : Nat)
  deriving DecidableEq, Repr

def hexValue? (c : Char) : Option Nat :=
  if '0' ≤ c ∧ c ≤ '9' then some (c.toNat - '0'.toNat)
  else if 'a' ≤ c ∧ c ≤ 'f' then some (c.toNat - 'a'.toNat + 10)
  else if 'A' ≤ c ∧ c ≤ 'F' then some (c.toNat - 'A'.toNat + 10)
  else none

def unitValue? (a b c d : Char) : Option Nat := do
  return ((← hexValue? a) * 16 + (← hexValue? b)) * 256 + (← hexValue? c) * 16 + (← hexValue? d)

def unescape? : Char → Option Char
  | '"' => some '"'
  | '\\' => some '\\'
  | '/' => some '/'
  | 'b' => some '\x08'
  | 'f' => some '\x0c'
  | 'n' => some '\n'
  | 'r' => some '\r'
  | 't' => some '\t'
  | _ => none

/-- The pieces up to the closing quote, and the text after it. -/
def pieces? : List Char → Option (List Piece × List Char)
  | '"' :: r => some ([], r)
  | '\\' :: 'u' :: a :: b :: c :: d :: r => do
    let n ← unitValue? a b c d
    let (ps, rest) ← pieces? r
    return (.unit n :: ps, rest)
  | '\\' :: e :: r => do
    let c ← unescape? e
    let (ps, rest) ← pieces? r
    return (.char c :: ps, rest)
  | c :: r => do
    guard (c ≠ '\\' ∧ 0x20 ≤ c.toNat)
    let (ps, rest) ← pieces? r
    return (.char c :: ps, rest)
  | [] => none

def isHigh (n : Nat) : Bool := 0xD800 ≤ n && n < 0xDC00
def isLow (n : Nat) : Bool := 0xDC00 ≤ n && n < 0xE000

/-- The text that the pieces spell, unless half a pair stands alone. -/
def join? : List Piece → Option (List Char)
  | [] => some []
  | .char c :: r => (join? r).map (c :: ·)
  | .unit hi :: .unit lo :: r =>
    if isHigh hi && isLow lo then
      (join? r).map (Char.ofNat (0x10000 + (hi - 0xD800) * 0x400 + (lo - 0xDC00)) :: ·)
    else if isHigh hi || isLow hi then none
    else (join? (.unit lo :: r)).map (Char.ofNat hi :: ·)
  | .unit n :: r => if isHigh n || isLow n then none else (join? r).map (Char.ofNat n :: ·)

/-- Reads on from behind the opening quote: the text, none if it is garbled, and what follows. -/
def decode? (s : List Char) : Option (Option (List Char) × List Char) :=
  (pieces? s).map fun (ps, rest) => (join? ps, rest)

end Storyboard.Json.Quoted
