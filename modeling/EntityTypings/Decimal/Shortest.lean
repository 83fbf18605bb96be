/-!
# The shortest decimal that reads back

A finite binary floating point number stands for every real number that rounds to it: an interval,
closed exactly when the significand is even. `Binary.shortest` is the decimal with the fewest digits
inside that interval, and of those the nearest to the number itself. Each grid of decimals has its two
neighbours of the number tested in exact arithmetic, from the coarsest grid on.
-/

namespace EntityTypings

/-- The number `coefficient * 10 ^ exponent`. -/
structure Decimal where
  coefficient : Nat
  exponent : Int
  deriving DecidableEq, Repr

namespace Decimal

/-- The positive number `significand * 2 ^ exponent`. Its upper neighbour is one unit away; so is its
lower neighbour, or half a unit if `halfBelow` holds. -/
structure Binary where
  significand : Nat
  exponent : Int
  halfBelow : Bool
  deriving DecidableEq, Repr

namespace Binary

/-- The lower end of the interval, in quarters of a unit. -/
def low (b : Binary) : Nat := 4 * b.significand - if b.halfBelow then 1 else 2

/-- The upper end of the interval, in quarters of a unit. -/
def high (b : Binary) : Nat := 4 * b.significand + 2

/-- A quarter of a unit, divided by `10 ^ k`, as a fraction. -/
def ratio (b : Binary) (k : Int) : Nat × Nat :=
  let e := b.exponent - 2
  (Nat.pow 2 e.toNat * Nat.pow 10 (-k).toNat, Nat.pow 2 (-e).toNat * Nat.pow 10 k.toNat)

/-- Whether `c * 10 ^ k` rounds to the number. -/
def admits (b : Binary) (k : Int) (c : Nat) : Bool :=
  let (num, den) := b.ratio k
  if b.significand % 2 = 0 then b.low * num ≤ c * den && c * den ≤ b.high * num
  else b.low * num < c * den && c * den < b.high * num

/-- The multiple of `10 ^ k` nearest to the number among its two neighbours, if one of them rounds to
the number; an even one if both are equally near. -/
def onGrid (b : Binary) (k : Int) : Option Nat :=
  let (num, den) := b.ratio k
  let value := 4 * b.significand * num
  let c := value / den
  match b.admits k c, b.admits k (c + 1) with
  | true, true =>
    let below := value - c * den
    let above := (c + 1) * den - value
    if below < above ∨ (below = above ∧ c % 2 = 0) then some c else some (c + 1)
  | true, false => some c
  | false, true => some (c + 1)
  | false, false => none

/-- The decimal exponent of the leading digit. -/
def leading (b : Binary) : Int :=
  let (num, den) := b.ratio 0
  let value := 4 * b.significand * num
  if den ≤ value then (Nat.toDigits 10 (value / den)).length - 1
  else -((Nat.toDigits 10 ((den + value - 1) / value - 1)).length : Int)

/-- The decimal with the fewest digits that rounds to the number. Seventeen digits always suffice. -/
def shortest (b : Binary) : Decimal :=
  let found := (List.range 17).findSome? fun (i : Nat) =>
    (b.onGrid (b.leading - i)).map fun c => Decimal.mk c (b.leading - i)
  match found with
  | none => ⟨0, 0⟩
  | some d => if d.coefficient % 10 = 0 then ⟨d.coefficient / 10, d.exponent + 1⟩ else d

end Binary

/-- A double precision number without its sign; zero is `none`. -/
def ofBits (bits : Nat) : Option Binary :=
  let fraction : Nat := bits % 0x10000000000000
  let field : Nat := bits / 0x10000000000000 % 0x800
  if field = 0 then
    if fraction = 0 then none else some ⟨fraction, -1074, false⟩
  else some ⟨fraction + 0x10000000000000, (field : Int) - 1075, fraction == 0 && decide (1 < field)⟩

example : (ofBits 0x3fb999999999999a).map Binary.shortest = some ⟨1, -1⟩ := by decide +kernel

example : (ofBits 1).map Binary.shortest = some ⟨5, -324⟩ := by decide +kernel

end Decimal

end EntityTypings
