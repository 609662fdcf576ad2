set_option autoImplicit false

namespace ScopedLisp

inductive Arity where
  | exactly (count : Nat)
  | atLeast (count : Nat)
  deriving DecidableEq, Repr

namespace Arity

def accepts : Arity → Nat → Bool
  | exactly count, got => got = count
  | atLeast count, got => count ≤ got

def text : Arity → String
  | exactly count => toString count
  | atLeast count => "at least " ++ toString count

end Arity

inductive Arithmetic where
  | add
  | sub
  | mul
  | div
  | rem
  deriving DecidableEq, Repr

inductive Comparison where
  | gt
  | lt
  | eq
  | ge
  | le
  | ne
  deriving DecidableEq, Repr

inductive Operator where
  | arithmetic (a : Arithmetic)
  | comparison (c : Comparison)
  deriving DecidableEq, Repr

def Arithmetic.name : Arithmetic → String
  | add => "+"
  | sub => "-"
  | mul => "*"
  | div => "/"
  | rem => "%"

def Comparison.name : Comparison → String
  | gt => ">"
  | lt => "<"
  | eq => "="
  | ge => ">="
  | le => "<="
  | ne => "/="

namespace Operator

def name : Operator → String
  | arithmetic a => a.name
  | comparison c => c.name

/-- All operators, in the order in which a new root environment holds them. -/
def all : List Operator :=
  [.arithmetic .add, .arithmetic .sub, .arithmetic .mul, .arithmetic .div, .arithmetic .rem,
    .comparison .gt, .comparison .lt, .comparison .eq, .comparison .ge, .comparison .le,
    .comparison .ne]

def ofName? (name : String) : Option Operator :=
  all.find? fun op => op.name = name

theorem mem_all (op : Operator) : op ∈ all := by
  rcases op with a | c
  · cases a <;> decide
  · cases c <;> decide

theorem ofName?_name (op : Operator) : ofName? op.name = some op := by
  rcases op with a | c
  · cases a <;> decide
  · cases c <;> decide

/-- A sum, a difference and a product need no second argument. -/
def arity : Operator → Arity
  | arithmetic .add => .atLeast 1
  | arithmetic .sub => .atLeast 1
  | arithmetic .mul => .atLeast 1
  | _ => .atLeast 2

end Operator

end ScopedLisp
