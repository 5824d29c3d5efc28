import Storyboard.Json
import Storyboard.Json.Number
import Storyboard.Json.Quoted

set_option autoImplicit false

/-!
Reading JSON text. Each step gives what it read and the rest of the text, or no rest where the text
broke off; no step looks past the first fault.
-/

namespace Storyboard.Json

/-- What was read, and the rest of the text unless it broke off. -/
abbrev Scan (β : Type) := β × Option (List Char)

def isBlank (c : Char) : Bool := c == ' ' || c == '\n' || c == '\t' || c == '\r'

def skipBlank (s : List Char) : List Char := s.dropWhile isBlank

def digitsValue (ds : List Char) : Nat := ds.foldl (fun n d => n * 10 + digitValue d) 0

def digits? (s : List Char) : Option (List Char × List Char) :=
  match s.span Char.isDigit with
  | ([], _) => none
  | (ds, r) => some (ds, r)

/-- The fraction of a number: absent without its point, and of one digit at least with it. -/
def fraction? : List Char → Option (List Char × List Char)
  | '.' :: r => digits? r
  | s => some ([], s)

def exponent? : List Char → Option (Option Int × List Char)
  | c :: r =>
    if c = 'e' ∨ c = 'E' then
      match r with
      | '-' :: r => (digits? r).map fun (ds, r) => (some (-digitsValue ds), r)
      | '+' :: r => (digits? r).map fun (ds, r) => (some (digitsValue ds), r)
      | r => (digits? r).map fun (ds, r) => (some (digitsValue ds), r)
    else some (none, c :: r)
  | [] => some (none, [])

def number (s : List Char) : Scan Json :=
  let (negative, unsigned) := match s with
    | '-' :: r => (true, r)
    | r => (false, r)
  let read : Option (Json × List Char) := do
    let (whole, r) ← digits? unsigned
    guard (whole.length = 1 ∨ whole.head? ≠ some '0')
    let (fraction, r) ← fraction? r
    let (exponent, r) ← exponent? r
    return (ofDigits negative whole fraction exponent, r)
  match read with
  | some (x, r) => (x, some r)
  | none => (.broken, none)

def string (s : List Char) : Scan Json :=
  match Quoted.decode? s with
  | some (some t, r) => (.str (String.ofList t), some r)
  | some (none, r) => (.garbled, some r)
  | none => (.broken, none)

mutual
/-- A value. The count bounds the steps. A character takes two of them at most, so the count never
runs out if it exceeds twice the length of the text. -/
def value : Nat → List Char → Scan Json
  | 0, _ => (.broken, none)
  | n + 1, s =>
    match skipBlank s with
    | 'n' :: 'u' :: 'l' :: 'l' :: r => (.null, some r)
    | 't' :: 'r' :: 'u' :: 'e' :: r => (.bool true, some r)
    | 'f' :: 'a' :: 'l' :: 's' :: 'e' :: r => (.bool false, some r)
    | '"' :: r => string r
    | '[' :: r => match skipBlank r with
      | ']' :: r => (.arr [], some r)
      | r => let (xs, rest) := items n r; (.arr xs, rest)
    | '\x7b' :: r => match skipBlank r with
      | '\x7d' :: r => (.obj [], some r)
      | r => let (es, rest) := entries n r; (.obj es, rest)
    | r => number r

def items : Nat → List Char → Scan (List Json)
  | 0, _ => ([.broken], none)
  | n + 1, s =>
    match value n s with
    | (x, none) => ([x], none)
    | (x, some r) => match skipBlank r with
      | ',' :: r => let (xs, rest) := items n r; (x :: xs, rest)
      | ']' :: r => ([x], some r)
      | _ => ([x, .broken], none)

def entries : Nat → List Char → Scan (List (Option String × Json))
  | 0, _ => ([(none, .broken)], none)
  | n + 1, s =>
    match skipBlank s with
    | '"' :: r => match Quoted.decode? r with
      | none => ([(none, .broken)], none)
      | some (text, r) =>
        let key := text.map String.ofList
        match skipBlank r with
        | ':' :: r => match value n r with
          | (x, none) => ([(key, x)], none)
          | (x, some r) => match skipBlank r with
            | ',' :: r => let (es, rest) := entries n r; ((key, x) :: es, rest)
            | '\x7d' :: r => ([(key, x)], some r)
            | _ => ([(key, x), (none, .broken)], none)
        | _ => ([(key, .broken)], none)
    | _ => ([(none, .broken)], none)
end

def scan (s : List Char) : Scan Json := value (2 * s.length + 1) s

end Storyboard.Json
