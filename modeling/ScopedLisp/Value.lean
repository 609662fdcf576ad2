import ScopedLisp.Location

set_option autoImplicit false

namespace ScopedLisp

def Integer.least : Int := -170141183460469231731687303715884105728

def Integer.greatest : Int := 170141183460469231731687303715884105727

/-- Integers have 128 bits with a sign. -/
def Integer.inRange (n : Int) : Bool :=
  least ≤ n && n ≤ greatest

theorem Integer.inRange_iff (n : Int) : inRange n = true ↔ least ≤ n ∧ n ≤ greatest := by
  simp [inRange]

/-- The place of an environment's frame in the store. -/
abbrev FrameId := Nat

/-- One parameter of a closure. A variadic parameter takes all arguments that are left. -/
structure Param where
  name : String
  variadic : Bool
  loc : Option Location
  deriving DecidableEq, Repr

inductive Value where
  | void (loc : Option Location)
  | integer (n : Int) (loc : Option Location)
  | float (x : Float) (loc : Option Location)
  | bool (b : Bool) (loc : Option Location)
  | string (s : String) (loc : Option Location)
  | symbol (name : String) (loc : Option Location)
  | list (items : List Value) (loc : Option Location)
  | program (forms : List Value) (loc : Option Location)
  | closure (params : List Param) (body : List Value) (frame : FrameId) (serial : Nat)
      (loc : Option Location)
  | builtin (code : String) (serial : Nat)
  /-- An object of the program that embeds the language: the language passes it on and otherwise
  knows only the name of its kind and its text. -/
  | foreign (kind text : String)

inductive IndexFault where
  | noList (kind : String)
  | noIndex
  | outside
  deriving DecidableEq, Repr

namespace Value

/-- The void that no text was read for. -/
def unit : Value := .void none

/-- What stands where there is no value. -/
def absent : Value := .foreign "NoneType" "None"

instance : Inhabited Value := ⟨unit⟩

def loc : Value → Option Location
  | void loc => loc
  | integer _ loc => loc
  | float _ loc => loc
  | bool _ loc => loc
  | string _ loc => loc
  | symbol _ loc => loc
  | list _ loc => loc
  | program _ loc => loc
  | closure _ _ _ _ loc => loc
  | builtin _ _ => none
  | foreign _ _ => none

def kind : Value → String
  | void _ => "Void"
  | integer _ _ => "Integer"
  | float _ _ => "Float"
  | bool _ _ => "Bool"
  | string _ _ => "String"
  | symbol _ _ => "Symbol"
  | list _ _ => "List"
  | program _ _ => "Module"
  | closure _ _ _ _ _ => "Closure"
  | builtin _ _ => "Closure"
  | foreign kind _ => kind

/-- Indices have 64 bits with a sign. -/
def leastIndex : Int := -9223372036854775808

def greatestIndex : Int := 9223372036854775807

def elements? : Value → Option (List Value)
  | list items _ => some items
  | program forms _ => some forms
  | _ => none

/-- The element of a list at an index; a negative index counts from the end. -/
def element (v : Value) (index : Int) : Except IndexFault Value :=
  match v with
  | list items _ =>
    if index < leastIndex || greatestIndex < index then
      .error .noIndex
    else
      let fromStart := if index < 0 then index + items.length else index
      match if fromStart < 0 then none else items[fromStart.toNat]? with
      | some item => .ok item
      | none => .error .outside
  | _ => .error (.noList v.kind)

mutual

/-- Whether two values are the same, places apart. Floats are compared as numbers, so that the two
zeroes are the same and a nan is not. -/
def same : Value → Value → Bool
  | void _, void _ => true
  | integer m _, integer n _ => m == n
  | float x _, float y _ => x == y
  | bool a _, bool b _ => a == b
  | string s _, string t _ => s == t
  | symbol a _, symbol b _ => a == b
  | list vs _, list ws _ => allSame vs ws
  | program vs _, program ws _ => allSame vs ws
  | closure _ _ _ i _, closure _ _ _ j _ => i == j
  | builtin _ i, builtin _ j => i == j
  | foreign k s, foreign l t => k == l && s == t
  | _, _ => false

def allSame : List Value → List Value → Bool
  | [], [] => true
  | v :: vs, w :: ws => same v w && allSame vs ws
  | _, _ => false

end

end Value

end ScopedLisp
