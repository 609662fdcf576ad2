set_option autoImplicit false

namespace ScopedLisp

inductive Binary64 where
  | nan
  | infinite (negative : Bool)
  /-- The number `mantissa * 2 ^ exponent`, or its negation. -/
  | finite (negative : Bool) (mantissa : Nat) (exponent : Int)
  deriving DecidableEq, Repr

namespace Binary64

def isInfinite : Binary64 → Bool
  | infinite _ => true
  | _ => false

-- The leading bit of a normal number is not among those of the fraction.
def leading : Nat := 1 <<< 52

/-- The parts of a number, read off its bits: a sign, eleven bits of exponent and 52 of fraction. -/
def ofFloat (x : Float) : Binary64 :=
  let bits := x.toBits.toNat
  let negative := bits >>> 63 == 1
  let field : Nat := (bits >>> 52) % 2048
  let fraction := bits % leading
  if field = 2047 then
    if fraction = 0 then infinite negative else nan
  else if field = 0 then
    finite negative fraction (-1074)
  else
    finite negative (leading + fraction) ((field : Int) - 1075)

/-- The bits of a finite number that is representable: its mantissa has at most 53 bits and its
exponent is at least `-1074`. The mantissa is shifted up as far as both allow. -/
def finiteBits (negative : Bool) (mantissa : Nat) (exponent : Int) : Nat :=
  let shift := min (52 - mantissa.log2) (exponent + 1074).toNat
  let whole := mantissa <<< shift
  let field := if whole < leading then 0 else (exponent - shift + 1075).toNat
  (if negative then 1 <<< 63 else 0) + field * leading + whole % leading

/-- The number with the given parts, for parts that a binary64 number can have. -/
def toFloat : Binary64 → Float
  | nan => .ofBits 0x7FF8000000000000
  | infinite false => .ofBits 0x7FF0000000000000
  | infinite true => .ofBits 0xFFF0000000000000
  | finite negative mantissa exponent => .ofBits (finiteBits negative mantissa exponent).toUInt64

def dyadic (negative : Bool) (mantissa : Nat) (exponent : Int) : Dyadic :=
  .ofIntWithPrec (if negative then -(mantissa : Int) else mantissa) (-exponent)

/-- The exact remainder of two numbers, with the sign of the first. Both are whole multiples of the
smaller of their two powers of two, and so is the remainder. An infinite dividend has none. -/
def remainder : Binary64 → Binary64 → Binary64
  | finite negative mantissa exponent, finite _ divisor exponent' =>
    let unit := min exponent exponent'
    let left := mantissa <<< (exponent - unit).toNat
    let right := divisor <<< (exponent' - unit).toNat
    finite negative (left % right) unit
  | finite negative mantissa exponent, infinite _ => finite negative mantissa exponent
  | _, _ => nan

end Binary64

def floatRemainder (x y : Float) : Float :=
  (Binary64.remainder (.ofFloat x) (.ofFloat y)).toFloat

end ScopedLisp
