import Storyboard.Binary64

set_option autoImplicit false

/-!
The shortest decimal of a double: of all decimals whose nearest double it is, one with the fewest
digits, and of those the nearest.
-/

namespace Storyboard

structure Decimal where
  digits : Nat
  exponent : Int
  deriving DecidableEq, Repr

/-- Which of two decimals is taken for a double halfway between them. -/
inductive Decimal.Tie where
  | even
  | up
  deriving DecidableEq, Repr

namespace Decimal
open Binary64

def scaled (num den : Nat) (k : Int) : Nat × Nat :=
  if 0 ≤ k then (num, den * Nat.pow 10 k.toNat) else (num * Nat.pow 10 (-k).toNat, den)

/-- The exponent of the largest power of ten that a positive ratio reaches. The binary exponent
gives it but for one step either way. -/
def decade (num den : Nat) : Int :=
  let guess : Int := binade num den * 30103 / 100000
  let reaches (k : Int) : Bool :=
    let (n, d) := scaled num den k
    decide (d ≤ n)
  if reaches (guess + 1) then guess + 1 else if reaches guess then guess else guess - 1

/-- The two decimals around a ratio with the given last place, the nearer one first. -/
def neighbours (tie : Tie) (num den : Nat) (k : Int) : List Decimal :=
  let (n, d) := scaled num den k
  let (q, r) := (n / d, n % d)
  let downFirst := 2 * r < d ∨ (2 * r = d ∧ tie = .even ∧ q % 2 = 0)
  if downFirst then [⟨q, k⟩, ⟨q + 1, k⟩] else [⟨q + 1, k⟩, ⟨q, k⟩]

def standsFor (p : Parts) (d : Decimal) : Bool :=
  (ofDecimal? d.digits d.exponent).bind parts? == some ⟨false, p.mantissa, p.exponent⟩

def exact (p : Parts) : Decimal :=
  if 0 ≤ p.exponent then ⟨p.mantissa * Nat.pow 2 p.exponent.toNat, 0⟩
  else ⟨p.mantissa * Nat.pow 5 (-p.exponent).toNat, p.exponent⟩

/-- The same number without zeros at the end of its digits, of which at most `n` are dropped. -/
def strip : Nat → Decimal → Decimal
  | 0, d => d
  | n + 1, d =>
    if d.digits % 10 = 0 ∧ d.digits ≠ 0 then strip n ⟨d.digits / 10, d.exponent + 1⟩ else d

def shortest (tie : Tie) (p : Parts) : Decimal :=
  if p.mantissa = 0 then ⟨0, 0⟩
  else
    let (num, den) := Binary64.scaled p.mantissa 1 (-p.exponent)
    let top := decade num den
    let found := (List.range 17).findSome? fun (n : Nat) =>
      (neighbours tie num den (top - n)).find? (standsFor p)
    strip 17 (found.getD (exact p))

end Decimal
end Storyboard
