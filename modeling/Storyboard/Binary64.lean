import Storyboard.Scalar

set_option autoImplicit false

/-!
Doubles seen exactly. A finite double is a whole number times a power of two, so its floor and the
double nearest to a ratio are computed on whole numbers, with nothing rounded twice.
-/

namespace Storyboard.Binary64

/-- A finite double is `mantissa * 2 ^ exponent`, with its sign apart. -/
structure Parts where
  negative : Bool
  mantissa : Nat
  exponent : Int
  deriving DecidableEq, Repr

def parts? (x : Float) : Option Parts :=
  let bits := x.toBits.toNat
  let rank := bits / Nat.pow 2 52 % 2048
  let tail := bits % Nat.pow 2 52
  if rank = 2047 then none
  else some {
    negative := decide (Nat.pow 2 63 ≤ bits)
    mantissa := if rank = 0 then tail else Nat.pow 2 52 + tail
    exponent := (max rank 1 : Nat) - 1075 }

def Parts.signed (p : Parts) : Int := if p.negative then -p.mantissa else p.mantissa

def Parts.floor (p : Parts) : Int :=
  if 0 ≤ p.exponent then p.signed * Nat.pow 2 p.exponent.toNat
  else p.signed / Nat.pow 2 (-p.exponent).toNat

/-- The pixel below a double; an infinite one goes to the end of the range on its side. -/
def floor (x : Float) : Pixel :=
  match parts? x with
  | some p => Int64.ofIntClamp p.floor
  | none => if 0.0 < x then Int64.maxValue else if x < 0.0 then Int64.minValue else 0

/-- Doubles in order of rank are ordered by value, and negative zero comes before zero. -/
def rank (x : Float) : Int :=
  let bits := x.toBits.toNat
  if bits < Nat.pow 2 63 then bits else Int64.maxValue.toInt - bits

def scaled (num den : Nat) (q : Int) : Nat × Nat :=
  if 0 ≤ q then (num, den * Nat.pow 2 q.toNat) else (num * Nat.pow 2 (-q).toNat, den)

def binade (num den : Nat) : Int :=
  let guess : Int := num.log2 - den.log2
  let (n, d) := scaled num den guess
  if d ≤ n then guess else guess - 1

/-- The whole number nearest to `num / den`; a tie goes to the even neighbour. -/
def roundEven (num den : Nat) : Nat :=
  let (q, r) := (num / den, num % den)
  if 2 * r < den ∨ (2 * r = den ∧ q % 2 = 0) then q else q + 1

/-- The double nearest to a ratio, unless that would be infinite. The bits of a positive double are
its mantissa plus `2 ^ 52` for each step of its exponent, also where rounding carries over. -/
def nearest? (num den : Nat) : Option Float :=
  if num = 0 then some 0.0
  else
    let q := max (binade num den - 52) (-1074)
    let (n, d) := scaled num den q
    let bits := (q + 1074).toNat * Nat.pow 2 52 + roundEven n d
    if bits < 2047 * Nat.pow 2 52 then some (Float.ofBits (UInt64.ofNat bits)) else none

/-- The double nearest to `mantissa * 10 ^ exponent`, unless that would be infinite. The outer cases
are far beyond the largest and the smallest double and spare the huge powers. -/
def ofDecimal? (mantissa : Nat) (exponent : Int) : Option Float :=
  if mantissa = 0 then some 0.0
  else if 400 < exponent then none
  else if mantissa.log2 + 3 * exponent < -1101 then some 0.0
  else if 0 ≤ exponent then nearest? (mantissa * Nat.pow 10 exponent.toNat) 1
  else nearest? mantissa (Nat.pow 10 (-exponent).toNat)

end Binary64

instance : Scalar Float where
  decLt := inferInstance
  decLe := inferInstance
  ofNat := Float.ofNat
  finite := Float.isFinite
  floor := Binary64.floor
  precedes x y := decide (Binary64.rank x ≤ Binary64.rank y)

end Storyboard
