import ScopedLisp.Location

set_option autoImplicit false

namespace ScopedLisp

inductive ReadFault where
  | strayApostrophe
  | unterminatedString
  | unmatchedOpening
  | unexpectedClosing
  | unknownToken (kind text : String)
  | described (message : String)
  deriving DecidableEq, Repr

def ReadFault.message : ReadFault → String
  | strayApostrophe => "Unexpected character \"'\""
  | unterminatedString => "Unterminated string"
  | unmatchedOpening => "Unmatched '('"
  | unexpectedClosing => "Unexpected ')'"
  | unknownToken kind text => "Unknown token: " ++ kind ++ " " ++ text
  | described message => message

/-- What went wrong. Kinds of values and numbers of parameters appear here by their names. -/
inductive Cause where
  | unboundSymbol (name : String)
  | expectedSymbol (found : String)
  | missingBinding
  | typeMismatch (expected found : String)
  | arity (who : Option String) (expected : String) (got : Int)
  | notCallable (found : String)
  | divisionByZero
  | integerOverflow (operator : String)
  | malformedForm (form reason : String)
  | unreadable (fault : ReadFault)
  | described (message : String)
  deriving DecidableEq, Repr

def Cause.message : Cause → String
  | unboundSymbol name => "Symbol not found: " ++ name
  | expectedSymbol found => "Expected symbol but " ++ found ++ " found"
  | missingBinding => "Expected a value to bind in define"
  | typeMismatch expected found =>
    "Type mismatch: expected " ++ expected ++ " but " ++ found ++ " found"
  | arity who expected got =>
    (match who with
      | none => ""
      | some name => if name.isEmpty then "" else name ++ ": ") ++
    "expected " ++ expected ++ " argument(s) but got " ++ toString got
  | notCallable found => found ++ " is not callable"
  | divisionByZero => "Division by zero"
  | integerOverflow operator => "Integer overflow in " ++ operator
  | malformedForm form reason => "Malformed " ++ form ++ ": " ++ reason
  | unreadable fault => fault.message
  | described message => message

structure Error where
  cause : Cause
  loc : Option Location
  deriving DecidableEq, Repr

def Error.message (e : Error) : String :=
  e.cause.message

def Error.text (e : Error) : String :=
  match e.loc with
  | none => e.message
  | some place => e.message ++ " at " ++ place.text

/-- What the language cannot do with a value that no program text gives rise to. -/
inductive Misuse where
  /-- A foreign object of this kind is to blame, and has no place to name. -/
  | placeless (kind : String)
  /-- An integer outside the range of the language has no nearest float. -/
  | beyondFloats
  | unknownOperator (code : String)
  deriving DecidableEq, Repr

inductive Fault where
  | error (e : Error)
  | misuse (m : Misuse)
  deriving DecidableEq, Repr

end ScopedLisp
