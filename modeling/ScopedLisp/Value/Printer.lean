import ScopedLisp.Decimal.Layout
import ScopedLisp.Value

set_option autoImplicit false

namespace ScopedLisp

/-- What introduces the variadic parameter in a parameter list. -/
def restMarker : String := "&rest"

def Param.text (p : Param) : String :=
  if p.variadic then restMarker ++ " " ++ p.name else p.name

/-- How many levels making a text takes: those of every text, and those between the text of a value
and the texts of the values inside it. -/
structure TextCosts where
  own : Nat
  /-- From a list to its items, and from a closure to its parameters. -/
  item : Nat
  form : Nat
  deriving DecidableEq, Repr

namespace Value

/-- Floats have a point or a power of ten, and a power of ten only if the first digit counts less
than a ten thousandth or at least ten to the sixteenth. -/
def floatLayout : Layout where
  lowest := -4
  highest := 15
  wholeEnd := ".0"
  mark := "e"
  width := 2
  infinity := "inf"
  nan := "nan"

mutual

def text : Value → String
  | void _ => "void"
  | integer n _ => toString n
  | float x _ => floatLayout.float x
  | bool b _ => if b then "true" else "false"
  | string s _ => s
  | symbol name _ => name
  | list items _ => "(" ++ " ".intercalate (texts items) ++ ")"
  | program forms _ => "\n".intercalate (texts forms)
  | closure params body _ _ _ =>
    "(λ (" ++ " ".intercalate (params.map Param.text) ++ ")" ++
      String.join ((texts body).map (" " ++ ·)) ++ ")"
  | builtin code _ => "<builtin " ++ code ++ ">"
  | foreign _ text => text

def texts : List Value → List String
  | [] => []
  | v :: vs => v.text :: texts vs

end

mutual

def textLevels (costs : TextCosts) : Value → Nat
  | list items _ => costs.own + costs.item + textLevelsOfAll costs items
  | program forms _ => costs.own + costs.item + textLevelsOfAll costs forms
  | closure params body _ _ _ =>
    costs.own + max (if params.isEmpty then 0 else costs.item + costs.own)
      (costs.form + textLevelsOfAll costs body)
  | _ => costs.own

def textLevelsOfAll (costs : TextCosts) : List Value → Nat
  | [] => 0
  | v :: vs => max (v.textLevels costs) (textLevelsOfAll costs vs)

end

theorem texts_eq_map (vs : List Value) : texts vs = vs.map text := by
  induction vs with
  | nil => rfl
  | cons v vs ih => simp [texts, ih]

end Value

end ScopedLisp
