import ScopedLisp.Decimal.Numeral
import ScopedLisp.Text.Characters

set_option autoImplicit false

namespace ScopedLisp.Settings

def levelVariable : String := "ETA_LOG_LEVEL"

def limitVariable : String := "ETA_RECURSION_LIMIT"

/-- The levels of the log, from the most to the least important. -/
def levels : List (String × Nat) :=
  [("CRITICAL", 50), ("FATAL", 50), ("ERROR", 40), ("WARNING", 30), ("WARN", 30), ("INFO", 20),
    ("DEBUG", 10), ("NOTSET", 0)]

def defaultLevel : Nat := 30

def debugLevel : Nat := 10

/-- The level that a text names, in letters of any size. -/
def level : Option String → Nat
  | none => defaultLevel
  | some name =>
    (levels.lookup (String.ofList (Text.capitalize (Text.strip name.toList)))).getD defaultLevel

/-- The text without single underscores between digits; other underscores stay. -/
def joinGroups : List Char → List Char
  | c :: '_' :: d :: rest =>
    if (Text.digitValue? c).isSome && (Text.digitValue? d).isSome then
      c :: joinGroups (d :: rest)
    else
      c :: '_' :: joinGroups (d :: rest)
  | c :: rest => c :: joinGroups rest
  | [] => []

/-- The limit that a text names: a positive whole numeral, perhaps in groups of digits. -/
def limit : Option String → Option Nat
  | none => none
  | some text => do
    let numeral ← WholeNumeral.parse? (joinGroups (Text.strip text.toList))
    if numeral.digits.length ≤ WholeNumeral.digitLimit && 0 < numeral.value then
      some numeral.value.toNat
    else
      none

end ScopedLisp.Settings
