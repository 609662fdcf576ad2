import ScopedLisp.Decimal.Binary64

set_option autoImplicit false

namespace ScopedLisp

structure Decimal where
  digits : Nat
  exponent : Int
  deriving DecidableEq, Repr

namespace Decimal

/-- The distances, in quarters of a unit of the mantissa, to the lower and the upper end of the
reals that read back as the number. Below a power of two the neighbours are twice as dense. -/
def reach (mantissa : Nat) (exponent : Int) : Nat × Nat :=
  (if mantissa = Binary64.leading ∧ -1074 < exponent then 1 else 2, 2)

/-- The point of the grid of multiples of `10 ^ grid` that names `mantissa * 2 ^ exponent`, if one
does. Both sides of every comparison are scaled to whole numbers. -/
def onGrid? (mantissa : Nat) (exponent grid : Int) : Option Nat :=
  let step := Nat.pow 10 grid.toNat <<< (2 - exponent).toNat
  let quarter := Nat.pow 10 (-grid).toNat <<< (exponent - 2).toNat
  let value := 4 * mantissa * quarter
  let lower := (4 * mantissa - (reach mantissa exponent).1) * quarter
  let upper := (4 * mantissa + (reach mantissa exponent).2) * quarter
  let fits (point : Nat) : Bool :=
    if mantissa % 2 = 0 then lower ≤ point * step && point * step ≤ upper
    else lower < point * step && point * step < upper
  let below := value / step
  let above := below + 1
  match fits below, fits above with
  | false, false => none
  | true, false => some below
  | false, true => some above
  | true, true =>
    match compare (2 * value) ((below + above) * step) with
    | .lt => some below
    | .gt => some above
    | .eq => some (if below % 2 = 0 then below else above)

def search (mantissa : Nat) (exponent grid : Int) : Nat → Decimal
  | 0 => ⟨0, grid⟩
  | tries + 1 =>
    match onGrid? mantissa exponent grid with
    | some point => ⟨point, grid⟩
    | none => search mantissa exponent (grid - 1) tries

/-- The decimal with the fewest digits that reads back as `mantissa * 2 ^ exponent`, for a positive
mantissa. The first grid tried is coarser than the number itself, and the last has seventeen of its
digits. -/
def shortest (mantissa : Nat) (exponent : Int) : Decimal :=
  search mantissa exponent ((mantissa.log2 + exponent + 1) * 30103 / 100000 + 1) 20

end Decimal

end ScopedLisp
