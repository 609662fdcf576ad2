import ScopedLisp.Error
import ScopedLisp.Number
import ScopedLisp.Operator

set_option autoImplicit false

namespace ScopedLisp

/-- The numbers that the arguments are. The first argument that is none is to blame. -/
def numbers (loc : Option Location) : List Value → Except Error (List Number)
  | [] => .ok []
  | v :: rest =>
    match v.number? with
    | none => .error ⟨.typeMismatch "number" v.kind, loc⟩
    | some n => (numbers loc rest).map (n :: ·)

namespace Arithmetic

/-- The quotient, rounded toward zero. -/
def quotient (m n : Int) : Int :=
  let magnitude := Int.fdiv m.natAbs n.natAbs
  if decide (m < 0) = decide (n < 0) then magnitude else -magnitude

/-- What the quotient leaves over, with the sign of the dividend. -/
def remainder (m n : Int) : Int :=
  m - n * quotient m n

def onIntegers : Arithmetic → Int → Int → Int
  | add, m, n => m + n
  | sub, m, n => m - n
  | mul, m, n => m * n
  | div, m, n => quotient m n
  | rem, m, n => remainder m n

def onFloats : Arithmetic → Float → Float → Float
  | add, x, y => x + y
  | sub, x, y => x - y
  | mul, x, y => x * y
  | div, x, y => x / y
  | rem, x, y => floatRemainder x y

def divides : Arithmetic → Bool
  | div => true
  | rem => true
  | _ => false

def boxed (a : Arithmetic) (loc : Option Location) (n : Int) : Except Error Value :=
  if Integer.inRange n then .ok (.integer n none) else .error ⟨.integerOverflow a.name, loc⟩

def foldIntegers (a : Arithmetic) (loc : Option Location) (result : Int) :
    List Int → Except Error Value
  | [] => a.boxed loc result
  | n :: rest =>
    if a.divides && n == 0 then
      .error ⟨.divisionByZero, loc⟩
    else if Integer.inRange (a.onIntegers result n) then
      a.foldIntegers loc (a.onIntegers result n) rest
    else
      .error ⟨.integerOverflow a.name, loc⟩

/-- A step on floats. The remainder of an infinite number is nan, whatever the divisor; otherwise
the right operand must have a nearest float. -/
def stepFloat (a : Arithmetic) (x : Float) (n : Number) : Except Misuse Float :=
  if a = rem ∧ (Binary64.ofFloat x).isInfinite then
    .ok (Binary64.toFloat .nan)
  else
    match n.toFloat? with
    | none => .error .beyondFloats
    | some y => .ok (a.onFloats x y)

def foldFloats (a : Arithmetic) (loc : Option Location) (result : Float) :
    List Number → Except Fault Value
  | [] => .ok (.float result none)
  | n :: rest =>
    if a.divides && n.isZero then
      .error (.error ⟨.divisionByZero, loc⟩)
    else
      match a.stepFloat result n with
      | .error m => .error (.misuse m)
      | .ok next => a.foldFloats loc next rest

/-- The integers that the numbers are, if all of them are. -/
def integers? : List Number → Option (List Int)
  | [] => some []
  | .integer n :: rest => (integers? rest).map (n :: ·)
  | .float _ :: _ => none

def negate (loc : Option Location) : Number → Except Error Value
  | .integer n => sub.boxed loc (-n)
  | .float x => .ok (.float (-x) none)

/-- A difference with one operand is its negation. -/
def call (a : Arithmetic) (loc : Option Location) (first : Number) (rest : List Number) :
    Except Fault Value :=
  if a = sub ∧ rest.isEmpty then
    (negate loc first).mapError .error
  else
    match integers? (first :: rest) with
    | some (n :: more) => (a.foldIntegers loc n more).mapError .error
    | _ =>
      match first.toFloat? with
      | none => .error (.misuse .beyondFloats)
      | some x => a.foldFloats loc x rest

end Arithmetic

namespace Comparison

def holds : Comparison → Option Ordering → Bool
  | gt, order => order == some .gt
  | lt, order => order == some .lt
  | eq, order => order == some .eq
  | ge, order => order == some .gt || order == some .eq
  | le, order => order == some .lt || order == some .eq
  | ne, order => order != some .eq

/-- Whether the comparison holds between all neighbours. -/
def chain (c : Comparison) : List Number → Bool
  | first :: second :: rest =>
    c.holds (first.exact.compare? second.exact) && c.chain (second :: rest)
  | _ => true

end Comparison

namespace Operator

def wrongCount (op : Operator) (got : Nat) (loc : Option Location) : Error :=
  ⟨.arity (some op.name) op.arity.text got, loc⟩

def call (op : Operator) (args : List Value) (loc : Option Location) : Except Fault Value :=
  if op.arity.accepts args.length then
    match op, numbers loc args with
    | _, .error e => .error (.error e)
    | .arithmetic a, .ok (first :: rest) => a.call loc first rest
    | .arithmetic _, .ok [] => .error (.error (op.wrongCount args.length loc))
    | .comparison c, .ok operands => .ok (.bool (c.chain operands) none)
  else
    .error (.error (op.wrongCount args.length loc))

def callCode (code : String) (args : List Value) (loc : Option Location) : Except Fault Value :=
  match ofName? code with
  | some op => op.call args loc
  | none => .error (.misuse (.unknownOperator code))

@[simp] theorem callCode_name (op : Operator) (args : List Value) (loc : Option Location) :
    callCode op.name args loc = op.call args loc := by
  rw [callCode, ofName?_name]

end Operator

end ScopedLisp
