import Storyboard.Binary64
import Storyboard.Json

set_option autoImplicit false

/-!
Numbers in JSON text. A whole number that 64 bits hold is read exactly. Any other is read from its
leading digits, as many as 64 bits hold, and scaled in doubles. That is exact to 15 digits near the
point; with more digits or large exponents the result may lie beside the nearest double.
-/

namespace Storyboard.Json

def digitValue (d : Char) : Nat := d.toNat - '0'.toNat

/-- Goes on from a number with more digits while 64 bits hold it; counts the digits left over. -/
def takeDigits : Nat → List Char → Nat × Nat
  | n, [] => (n, 0)
  | n, d :: ds =>
    let next := n * 10 + digitValue d
    if next < UInt64.size then takeDigits next ds else (n, ds.length + 1)

def tenTo (k : Nat) : Float := (Binary64.ofDecimal? 1 k).getD 0.0

/-- The number `n * 10 ^ e` in double arithmetic, unless that is infinite. A divisor beyond the
doubles is divided by in two steps; what is left for a third is too small to be more than zero. -/
def scale? (n : Nat) (e : Int) : Option Float :=
  let x := (Binary64.ofDecimal? n 0).getD 0.0
  if n = 0 then some 0.0
  else if 308 < e then none
  else if 0 ≤ e then
    let y := x * tenTo e.toNat
    if y.isFinite then some y else none
  else if -308 ≤ e then some (x / tenTo (-e).toNat)
  else if -616 ≤ e then some (x / tenTo 308 / tenTo (-e - 308).toNat)
  else some 0.0

/-- The value of a number by its digits and its exponent. Without fraction and exponent it is an
integer if 64 bits hold it, but negative zero is a double. -/
def ofDigits (negative : Bool) (whole fraction : List Char) (exponent : Option Int) : Json :=
  let (n, skipped) := takeDigits 0 whole
  let isInt := fraction.isEmpty && exponent.isNone && skipped == 0
  if isInt && !negative then .int n
  else if isInt && 0 < n && Int64.minValue.toInt ≤ -n then .int (-n)
  else
    let (n, dropped) := takeDigits n fraction
    match scale? n (exponent.getD 0 + skipped + dropped - fraction.length) with
    | some x => .float (if negative then -x else x)
    | none => .garbled

end Storyboard.Json
