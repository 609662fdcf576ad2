import ScopedLisp.Evaluation
import ScopedLisp.Form.Reader
import ScopedLisp.Path
import ScopedLisp.Text.Utf8

set_option autoImplicit false

namespace ScopedLisp

inductive Failure where
  | error (e : Error)
  | misuse (m : Misuse)
  | tooDeep
  | numeralTooLong (digits : Nat)
  | undecodable (fault : Text.Utf8.Fault)
  | unavailable (fault : FileFault)

namespace Failure

def ofRead : ReadFailure → Failure
  | .error e => .error e
  | .numeralTooLong digits => .numeralTooLong digits
  | .tooDeep => .tooDeep

def ofFault : Fault → Failure
  | .error e => .error e
  | .misuse m => .misuse m

end Failure

/-- A limit that cannot be set, with the journal up to the attempt. -/
structure LimitFault where
  limit : Nat
  journal : List Event

/-- What a session runs in. All calls inside each other count against one limit, those of the
surroundings too, so how many levels are left to a session is for its host to say. -/
structure Host where
  /-- The limit that holds unless a higher one is wished for. -/
  limit : Nat
  -- The levels in use where a text is read, where a form is evaluated and where a text is made.
  reading : Nat
  evaluation : Nat
  printing : Nat
  text : TextCosts
  deriving DecidableEq, Repr

/-- A host with a limit of a thousand, some of which it takes for itself. -/
def Host.usual : Host where
  limit := 1000
  reading := 13
  evaluation := 12
  printing := 5
  text := ⟨2, 2, 1⟩

structure Session where
  store : Store
  root : FrameId
  limit : Nat
  host : Host

namespace Session

def highestLimit : Nat := 2147483647

def seeded (host : Host) : Session :=
  let (root, store) := Store.empty.addRoot
  ⟨store, root, host.limit, host⟩

def bare (host : Host) : Session :=
  let (root, store) := Store.empty.addFrame (.empty none)
  ⟨store, root, host.limit, host⟩

/-- How many lists may be open where a form is read. -/
def depth (s : Session) : Nat :=
  s.limit - s.host.reading

def levels (s : Session) : Nat :=
  s.limit - s.host.evaluation

def textLevels (s : Session) : Nat :=
  s.limit - s.host.printing

def record (s : Session) (event : Event) : Session :=
  { s with store := s.store.record event }

@[simp] theorem levels_record (s : Session) (event : Event) : (s.record event).levels = s.levels :=
  rfl

/-- Raises the limit to what is wished for; it is never lowered. A wish for more than the highest
limit is written down like any other before it turns out to be too much. -/
def raiseLimit (s : Session) : Option Int → Except LimitFault Session
  | none => .ok s
  | some wish =>
    if s.limit < wish then
      let s := s.record (.limitRaised wish.toNat)
      if wish ≤ highestLimit then .ok { s with limit := wish.toNat }
      else .error ⟨wish.toNat, s.store.journal⟩
    else
      .ok s

def run (s : Session) (computation : Eval Value) : Except Failure Value × Session :=
  match computation s.store with
  | (.done v, store) => (.ok v, { s with store := store })
  | (.failed f, store) => (.error (.ofFault f), { s with store := store })
  | (.tooDeep, store) => (.error .tooDeep, { s with store := store })

@[simp] theorem store_run (s : Session) (computation : Eval Value) :
    (s.run computation).2.store = (computation s.store).2 := by
  unfold run
  split <;> rename_i ended <;> rw [ended]

def evaluate (s : Session) (form : Value) : Except Failure Value × Session :=
  s.run (ScopedLisp.evaluate .usual s.levels s.root form)

def evaluateBody (s : Session) (forms : List Value) : Except Failure Value × Session :=
  s.run (ScopedLisp.evaluateBody (ScopedLisp.evaluate .usual s.levels) s.root forms)

/-- Calls a value with arguments that are evaluated already. -/
def call (s : Session) (callee : Value) (args : List Value) (loc : Option Location) :
    Except Failure Value × Session :=
  s.run (applyTo (ScopedLisp.evaluateInside .usual s.levels Costs.usual.call) callee args loc)

def read (s : Session) (source : String) (file : Option String) :
    Except ReadFailure (List Value) :=
  readWithin s.depth source file

def eval (s : Session) (source : String) (file : Option String) :
    Except Failure Value × Session :=
  match s.read source file with
  | .error failure => (.error (.ofRead failure), s)
  | .ok forms =>
    match (s.record (.evaluating forms.length file)).evaluate (.ofForms forms file) with
    | (.error (.error e), s) => (.error (.error e), s.record (.evaluationFailed e))
    | ended => ended

def evalFile (s : Session) (path : String) (contents : Except FileFault (List UInt8)) :
    Except Failure Value × Session :=
  match contents with
  | .error fault => (.error (.unavailable fault), s)
  | .ok bytes =>
    match Text.Utf8.decode bytes with
    | .error fault => (.error (.undecodable fault), s)
    | .ok text =>
      s.eval (String.ofList (Text.unifyLineEnds text.toList)) (some (Path.normalize path))

def get? (s : Session) (name : String) : Option Value :=
  s.store.get? s.root name

def lookup (s : Session) (name : String) : Except Error Value :=
  s.store.lookup s.root name none

/-- The lines of the journal, earliest first. -/
def log (s : Session) : List String :=
  logLines s.store.journal

def clearLog (s : Session) : Session :=
  { s with store := { s.store with journal := [] } }

end Session

end ScopedLisp
