import ScopedLisp.Decimal.Binary64
import ScopedLisp.Value

set_option autoImplicit false

namespace ScopedLisp

inductive Number where
  | integer (n : Int)
  | float (x : Float)

/-- A point of the number line with both its ends, or none. -/
inductive ExactValue where
  | undefined
  | bottom
  | finite (d : Dyadic)
  | top
  deriving DecidableEq

namespace ExactValue

def ofFloat (x : Float) : ExactValue :=
  match Binary64.ofFloat x with
  | .nan => undefined
  | .infinite negative => if negative then bottom else top
  | .finite negative mantissa exponent => finite (Binary64.dyadic negative mantissa exponent)

/-- How two points lie to each other; where a value is undefined there is no answer. -/
def compare? : ExactValue → ExactValue → Option Ordering
  | undefined, _ => none
  | _, undefined => none
  | finite a, finite b => some (if a < b then .lt else if a = b then .eq else .gt)
  | bottom, bottom => some .eq
  | top, top => some .eq
  | bottom, _ => some .lt
  | _, bottom => some .gt
  | _, top => some .lt
  | top, _ => some .gt

end ExactValue

namespace Number

def exact : Number → ExactValue
  | integer n => .finite (.ofInt n)
  | float x => .ofFloat x

def isFloat : Number → Bool
  | integer _ => false
  | float _ => true

def isZero (n : Number) : Bool :=
  n.exact = .finite 0

/-- The least magnitude that is beyond all floats: half a step above the greatest of them. -/
def floatBound : Nat := (1 <<< 1024) - (1 <<< 970)

/-- The nearest float, unless the number is beyond all floats. -/
def toFloat? : Number → Option Float
  | integer n => if n.natAbs < floatBound then some (.ofInt n) else none
  | float x => some x

end Number

def Value.number? : Value → Option Number
  | .integer n _ => some (.integer n)
  | .float x _ => some (.float x)
  | _ => none

end ScopedLisp
