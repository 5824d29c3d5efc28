set_option autoImplicit false

/-!
JSON as far as a text can be read. A text need not be JSON to its end: `broken` stands where it
stops being so, always as the last thing read, and a reader of records fails only when it gets
there.
-/

namespace Storyboard

inductive Json where
  | null
  | bool (b : Bool)
  | int (n : Int)
  | float (x : Float)
  | str (s : String)
  | arr (items : List Json)
  /-- Keys in the order of the text, repeated ones too. A key without a name is `garbled` or, with
  the value `broken`, no key at all. -/
  | obj (entries : List (Option String × Json))
  /-- A number beyond the doubles or a string with half a surrogate pair: it may be passed over but
  has no value. -/
  | garbled
  | broken
  deriving Inhabited, BEq, Repr

namespace Json

def record (entries : List (String × Json)) : Json := .obj (entries.map fun (k, v) => (some k, v))

mutual
/-- The text is JSON up to the end of this value, so the value can be passed over. -/
def whole : Json → Bool
  | .arr xs => wholeItems xs
  | .obj es => wholeEntries es
  | .broken => false
  | _ => true

def wholeItems : List Json → Bool
  | [] => true
  | x :: xs => x.whole && wholeItems xs

def wholeEntries : List (Option String × Json) → Bool
  | [] => true
  | (_, x) :: es => x.whole && wholeEntries es
end

mutual
/-- The value can be set aside to be read later: all of it has a value, and its arrays and objects
are nested at most `depth` deep. -/
def keepable (depth : Nat) : Json → Bool
  | .arr xs => match depth with
    | 0 => false
    | d + 1 => keepableItems d xs
  | .obj es => match depth with
    | 0 => false
    | d + 1 => keepableEntries d es
  | .garbled | .broken => false
  | _ => true

def keepableItems (depth : Nat) : List Json → Bool
  | [] => true
  | x :: xs => x.keepable depth && keepableItems depth xs

def keepableEntries (depth : Nat) : List (Option String × Json) → Bool
  | [] => true
  | (k, x) :: es => k.isSome && x.keepable depth && keepableEntries depth es
end

end Json
end Storyboard
