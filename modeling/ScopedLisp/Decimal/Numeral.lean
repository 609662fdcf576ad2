import ScopedLisp.Text.Characters

set_option autoImplicit false

namespace ScopedLisp

def splitSign : List Char → Bool × List Char
  | '+' :: rest => (false, rest)
  | '-' :: rest => (true, rest)
  | text => (false, text)

structure WholeNumeral where
  negative : Bool
  digits : List Nat
  deriving DecidableEq, Repr

namespace WholeNumeral

/-- The most digits that a whole numeral may have where its value is wanted. -/
def digitLimit : Nat := 4300

def parse? (text : List Char) : Option WholeNumeral :=
  let (negative, rest) := splitSign text
  (Text.digits? rest).map fun digits => ⟨negative, digits⟩

def value (numeral : WholeNumeral) : Int :=
  if numeral.negative then -(Text.ofDigits numeral.digits : Int) else Text.ofDigits numeral.digits

end WholeNumeral

/-- The number `digits * 10 ^ power`, or its negation. -/
structure RealNumeral where
  negative : Bool
  digits : List Nat
  power : Int
  deriving DecidableEq, Repr

namespace RealNumeral

/-- Digits with at most one point among them, and how many of them stand behind the point. -/
def parseMantissa? (text : List Char) : Option (List Nat × Nat) :=
  let whole := text.takeWhile (· ≠ '.')
  match text.dropWhile (· ≠ '.') with
  | [] => (Text.digits? whole).map fun digits => (digits, 0)
  | _ :: fraction => (Text.digits? (whole ++ fraction)).map fun digits => (digits, fraction.length)

def isMark (c : Char) : Bool :=
  c = 'e' || c = 'E'

/-- The power of ten at the end of a numeral; an empty text stands for none. -/
def parsePower? : List Char → Option Int
  | [] => some 0
  | _ :: power => (WholeNumeral.parse? power).map WholeNumeral.value

def parse? (text : List Char) : Option RealNumeral :=
  let (negative, rest) := splitSign text
  match parseMantissa? (rest.takeWhile (!isMark ·)), parsePower? (rest.dropWhile (!isMark ·)) with
  | some (digits, behind), some power => some ⟨negative, digits, power - behind⟩
  | _, _ => none

/-- The binary64 number nearest to the numeral, infinite if it is out of reach. -/
def toFloat (numeral : RealNumeral) : Float :=
  let size := Float.ofScientific (Text.ofDigits numeral.digits) (numeral.power < 0)
    numeral.power.natAbs
  if numeral.negative then -size else size

end RealNumeral

def WholeNumeral.toReal (numeral : WholeNumeral) : RealNumeral :=
  ⟨numeral.negative, numeral.digits, 0⟩

end ScopedLisp
