import ScopedLisp.Decimal.Numeral
import ScopedLisp.Error
import ScopedLisp.Value

set_option autoImplicit false

namespace ScopedLisp

/-- Why nothing could be read. A whole numeral with too many digits is no fault of the language, and
neither are lists inside each other beyond a limit: both stop the reading of the whole text. -/
inductive ReadFailure where
  | error (e : Error)
  | numeralTooLong (digits : Nat)
  | tooDeep
  deriving DecidableEq, Repr

namespace Atom

def read (word : String) (loc : Option Location) : Except ReadFailure Value :=
  match WholeNumeral.parse? word.toList with
  | some numeral =>
    if WholeNumeral.digitLimit < numeral.digits.length then
      .error (.numeralTooLong numeral.digits.length)
    else if Integer.inRange numeral.value then
      .ok (.integer numeral.value loc)
    else
      -- A whole numeral out of the range of integers is a float.
      .ok (.float numeral.toReal.toFloat loc)
  | none =>
    match RealNumeral.parse? word.toList with
    | some numeral => .ok (.float numeral.toFloat loc)
    | none =>
      if word = "true" then .ok (.bool true loc)
      else if word = "false" then .ok (.bool false loc)
      else .ok (.symbol word loc)

/-- A backslash stands for the character after it; at the end of the text it stands for itself. -/
def unescape : List Char → List Char
  | '\\' :: c :: rest => c :: unescape rest
  | c :: rest => c :: unescape rest
  | [] => []

def stringContents (token : String) : String :=
  String.ofList (unescape (token.toList.drop 1).dropLast)

end Atom

end ScopedLisp
