import ScopedLisp.Operator.Call
import ScopedLisp.Store

set_option autoImplicit false

namespace ScopedLisp

/-- The fault of a value in a form at `loc`. A value that was not read is blamed where the form
stands; a foreign object cannot be blamed at all. -/
def Value.blame (v : Value) (cause : Cause) (loc : Option Location) : Fault :=
  match v with
  | .foreign kind _ => .misuse (.placeless kind)
  | _ => .error ⟨cause, v.loc.or loc⟩

namespace Parameters

def fixed (params : List Param) : List Param :=
  params.filter (!·.variadic)

/-- The parameter that takes what is left: only the last one can. -/
def rest? (params : List Param) : Option Param :=
  params.getLast?.filter (·.variadic)

def parseItems (loc : Option Location) : List Value → Except Fault (List Param)
  | [] => .ok []
  | .symbol name place :: items =>
    if name = restMarker then
      match items with
      | [.symbol last place'] =>
        if last = restMarker then .error (.error ⟨.expectedSymbol "Symbol", place'.or place⟩)
        else .ok [⟨last, true, place'⟩]
      | [item] => .error (item.blame (.expectedSymbol item.kind) place)
      | _ =>
        .error (.error ⟨.malformedForm "lambda"
          (restMarker ++ " must be followed by exactly one name"), place⟩)
    else
      (parseItems loc items).map (⟨name, false, place⟩ :: ·)
  | item :: _ => .error (item.blame (.expectedSymbol item.kind) loc)

/-- The names that occur more than once, each once and in the order of their characters. -/
def duplicates (names : List String) : List String :=
  ((names.filter fun name => 1 < names.count name).eraseDups).mergeSort fun a b => !(b < a)

def parse (operand : Value) (form : Option Location) : Except Fault (List Param) :=
  match operand with
  | .list items loc =>
    match parseItems loc items with
    | .error fault => .error fault
    | .ok params =>
      let repeated := duplicates (params.map Param.name)
      if repeated.isEmpty then
        .ok params
      else
        .error (.error ⟨.malformedForm "lambda"
          ("duplicate parameter(s) " ++ ", ".intercalate repeated), loc.or form⟩)
  | other => .error (other.blame (.malformedForm "lambda" "parameter list must be a list") form)

def arity (params : List Param) : Arity :=
  match rest? params with
  | none => .exactly (fixed params).length
  | some _ => .atLeast (fixed params).length

/-- What each parameter is bound to, in the order of binding. The arguments that are left are a new
list. -/
def pairs (params : List Param) (args : List Value) : List (String × Value) :=
  let taken := ((fixed params).map Param.name).zip args
  match rest? params with
  | none => taken
  | some last => taken ++ [(last.name, .list (args.drop (fixed params).length) none)]

/-- The frame for a call at `loc` of a closure that was made in `outer`. -/
def bind (params : List Param) (outer : FrameId) (args : List Value) (loc : Option Location) :
    Except Error Frame :=
  if (arity params).accepts args.length then
    .ok ((Frame.empty (some outer)).setAll (pairs params args))
  else
    .error ⟨.arity none (arity params).text args.length, loc⟩

end Parameters

end ScopedLisp
