import ScopedLisp.Decimal.Binary64
import ScopedLisp.Decimal.Shortest

set_option autoImplicit false

namespace ScopedLisp

structure Layout where
  /-- The powers of ten of the first digit, from the lowest to the highest, that need no mark. -/
  lowest : Int
  highest : Int
  wholeEnd : String
  mark : String
  width : Nat
  infinity : String
  nan : String

namespace Layout

def zeroes (count : Nat) : String :=
  String.ofList (List.replicate count '0')

/-- Digits with a point, where the first digit counts `10 ^ power`. -/
def positional (layout : Layout) (digits : List Char) (power : Int) : String :=
  if power < 0 then
    "0." ++ zeroes (-power - 1).toNat ++ String.ofList digits
  else
    let whole := power.toNat + 1
    if digits.length ≤ whole then
      String.ofList digits ++ zeroes (whole - digits.length) ++ layout.wholeEnd
    else
      String.ofList (digits.take whole) ++ "." ++ String.ofList (digits.drop whole)

/-- Digits with a mark, where the first digit counts `10 ^ power`. -/
def marked (layout : Layout) (digits : List Char) (power : Int) : String :=
  let size := toString power.natAbs
  String.ofList (digits.take 1) ++
    (if digits.length ≤ 1 then "" else "." ++ String.ofList (digits.drop 1)) ++
    layout.mark ++ (if power < 0 then "-" else "+") ++
    zeroes (layout.width - size.length) ++ size

def decimal (layout : Layout) (d : Decimal) : String :=
  let digits := (toString d.digits).toList
  let power := d.exponent + digits.length - 1
  if layout.lowest ≤ power ∧ power ≤ layout.highest then
    layout.positional digits power
  else
    layout.marked digits power

/-- The text of a number: its sign, and the shortest decimal that reads back as it. -/
def float (layout : Layout) (x : Float) : String :=
  match Binary64.ofFloat x with
  | .nan => layout.nan
  | .infinite negative => (if negative then "-" else "") ++ layout.infinity
  | .finite negative mantissa exponent =>
    (if negative then "-" else "") ++
      layout.decimal (if mantissa = 0 then ⟨0, 0⟩ else .shortest mantissa exponent)

end Layout

end ScopedLisp
