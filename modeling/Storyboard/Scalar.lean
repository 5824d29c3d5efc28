set_option autoImplicit false

/-!
The numbers geometry is computed in. Every formula of the library is written once, over a `Scalar`:
doubles run the program, and exact rationals are the reading in which its laws are stated.
-/

namespace Storyboard

abbrev Pixel := Int64

class Scalar (α : Type) extends Add α, Sub α, Mul α, Div α, LT α, LE α, OfScientific α where
  decLt : DecidableLT α
  decLe : DecidableLE α
  ofNat : Nat → α
  /-- Neither infinite nor undefined. -/
  finite : α → Bool
  /-- The largest pixel that is not above the number, or the end of the range on its side; zero for
  an undefined number. -/
  floor : α → Pixel
  /-- A total order that agrees with `≤` where that is one; documents are sorted by it. -/
  precedes : α → α → Bool

namespace Scalar
variable {α : Type} [Scalar α]

instance : DecidableLT α := fun x y => decLt x y
instance : DecidableLE α := fun x y => decLe x y

/-- Sums run from the left and start with the first summand. -/
def sum : List α → α
  | [] => 0.0
  | x :: xs => xs.foldl (· + ·) x

/-- The smaller of two numbers; an undefined one loses, and of two equal ones the second is kept. -/
def least (x y : α) : α := if x < y ∨ ¬ y ≤ y then x else y

/-- The larger of two numbers; an undefined one loses, and of two equal ones the second is kept. -/
def greatest (x y : α) : α := if y < x ∨ ¬ y ≤ y then x else y

/-- The nearest pixel; a half goes up. -/
def round (x : α) : Pixel := floor (x + 0.5)

/-- Finite and above zero: an extent that can be drawn and divided by. -/
def proper (x : α) : Bool := finite x && decide (0.0 < x)

end Scalar

instance : Scalar Rat where
  decLt := inferInstance
  decLe := inferInstance
  ofNat n := n
  finite _ := true
  floor q := Int64.ofIntClamp q.floor
  precedes p q := decide (p ≤ q)

end Storyboard
