import Storyboard.Decimal.Shortest

set_option autoImplicit false

/-!
How doubles are written. Documents and messages show the same shortest digits and differ in where
the point goes.
-/

namespace Storyboard.Decimal

structure Style where
  /-- Whether a number whose first digit has this place is written without an exponent. -/
  positional : Int → Bool
  whole : String
  tie : Tie

/-- Documents write 0.00001 up to 10^16 in place, and every number shows that it is no integer. -/
def Style.document : Style := ⟨fun e => -5 ≤ e ∧ e < 16, ".0", .even⟩

/-- Messages write every number in place and add nothing to a whole one. -/
def Style.message : Style := ⟨fun _ => true, "", .up⟩

def digitChars (n : Nat) : List Char := Nat.toDigits 10 n

def inPlace (whole : String) (ds : List Char) (exponent : Int) : List Char :=
  let places := (-exponent).toNat
  if 0 ≤ exponent then ds ++ List.replicate exponent.toNat '0' ++ whole.toList
  else if places < ds.length then
    ds.take (ds.length - places) ++ '.' :: ds.drop (ds.length - places)
  else "0.".toList ++ List.replicate (places - ds.length) '0' ++ ds

/-- One digit, the point, the others, and a signed exponent. -/
def withExponent (ds : List Char) (place : Int) : List Char :=
  let fraction := if ds.length ≤ 1 then [] else '.' :: ds.drop 1
  let sign := if place < 0 then '-' else '+'
  ds.take 1 ++ fraction ++ 'e' :: sign :: digitChars place.natAbs

def Style.unsigned (style : Style) (d : Decimal) : List Char :=
  let ds := digitChars d.digits
  let place := d.exponent + ds.length - 1
  if style.positional place then inPlace style.whole ds d.exponent else withExponent ds place

def Style.text? (style : Style) (x : Float) : Option String :=
  (Binary64.parts? x).map fun p =>
    let text := style.unsigned (shortest style.tie p)
    String.ofList (if p.negative then '-' :: text else text)

def shown (x : Float) : String :=
  (Style.message.text? x).getD (if 0.0 < x then "inf" else if x < 0.0 then "-inf" else "NaN")

end Storyboard.Decimal
