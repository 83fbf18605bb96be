import EntityTypings.Decimal.Shortest

/-!
# Decimal layouts

A layout says which numbers are written out in full; the others have one digit before the point and a
signed exponent. A number written in full always has a digit after the point.
-/

namespace EntityTypings.Decimal

/-- The range of leading exponents that are written in full. -/
structure Layout where
  plainFrom : Int
  plainTo : Int

namespace Layout

def zeros (n : Nat) : List Char := List.replicate n '0'

/-- The digits of a number with the leading exponent `lead`, in full. -/
def plain (digits : List Char) (exponent lead : Int) : List Char :=
  if 0 ≤ exponent then digits ++ zeros exponent.toNat ++ ['.', '0']
  else if 0 ≤ lead then digits.take (lead.toNat + 1) ++ '.' :: digits.drop (lead.toNat + 1)
  else '0' :: '.' :: zeros (-lead - 1).toNat ++ digits

/-- The digits of a number with the leading exponent `lead`, with an exponent. -/
def scientific (digits : List Char) (lead : Int) : List Char :=
  let mantissa := match digits with
    | d :: e :: rest => d :: '.' :: e :: rest
    | _ => digits
  mantissa ++ 'e' :: (if 0 ≤ lead then '+' else '-') :: Nat.toDigits 10 lead.natAbs

def write (layout : Layout) (d : Decimal) : List Char :=
  let digits := Nat.toDigits 10 d.coefficient
  let lead : Int := d.exponent + digits.length - 1
  if layout.plainFrom ≤ lead ∧ lead ≤ layout.plainTo then plain digits d.exponent lead
  else scientific digits lead

/-- A double precision number, given by its bits: the shortest decimal that reads back. The sign of a
zero is kept. -/
def writeDouble (layout : Layout) (bits : Nat) : List Char :=
  (if bits / 0x8000000000000000 % 2 = 1 then ['-'] else []) ++
    match ofBits bits with
    | none => ['0', '.', '0']
    | some b => layout.write b.shortest

end Layout

end EntityTypings.Decimal
