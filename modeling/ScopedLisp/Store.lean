import ScopedLisp.Error
import ScopedLisp.Operator
import ScopedLisp.Value.Printer

set_option autoImplicit false

namespace ScopedLisp

inductive Event where
  | limitRaised (limit : Nat)
  | evaluating (forms : Nat) (file : Option String)
  | evaluationFailed (e : Error)
  | applied (closure : Value) (arguments : Nat)
  | limitExceeded (limit : Nat)

namespace Event

/-- The line of the log for an event. All events are of interest to those who look for mistakes
only. -/
def line : Event → String
  | limitRaised limit => "Interpreter DEBUG raising recursion limit to " ++ toString limit
  | evaluating forms file =>
    "Interpreter DEBUG evaluating " ++ toString forms ++ " form(s) from " ++ Location.fileText file
  | evaluationFailed e => "Interpreter DEBUG evaluation failed: " ++ e.text
  | applied closure arguments =>
    "Apply DEBUG apply " ++ closure.text ++ " to " ++ toString arguments ++ " argument(s)"
  | limitExceeded limit => "eta DEBUG recursion limit " ++ toString limit ++ " exceeded"

end Event

def logLines (journal : List Event) : List String :=
  journal.reverse.map Event.line

/-- The bindings of one scope, in the order in which their names were first bound. -/
structure Frame where
  bindings : List (String × Value)
  outer : Option FrameId

namespace Frame

def empty (outer : Option FrameId) : Frame :=
  ⟨[], outer⟩

def get? (frame : Frame) (name : String) : Option Value :=
  frame.bindings.lookup name

/-- Changes the value of a name in its place, or adds the name at the end. -/
def setBinding (name : String) (v : Value) : List (String × Value) → List (String × Value)
  | [] => [(name, v)]
  | (other, w) :: rest =>
    if other = name then (other, v) :: rest else (other, w) :: setBinding name v rest

def set (frame : Frame) (name : String) (v : Value) : Frame :=
  { frame with bindings := setBinding name v frame.bindings }

@[simp] theorem outer_set (frame : Frame) (name : String) (v : Value) :
    (frame.set name v).outer = frame.outer := rfl

theorem lookup_cons_eq_ite (name other : String) (v : Value) (rest : List (String × Value)) :
    List.lookup other ((name, v) :: rest) = if other = name then some v else rest.lookup other := by
  rw [List.lookup_cons]
  by_cases equal : other = name
  · simp [equal]
  · simp [beq_false_of_ne equal, equal]

theorem lookup_setBinding (name other : String) (v : Value) (bindings : List (String × Value)) :
    (setBinding name v bindings).lookup other =
      if other = name then some v else bindings.lookup other := by
  induction bindings with
  | nil => exact lookup_cons_eq_ite name other v []
  | cons pair rest ih =>
    obtain ⟨first, w⟩ := pair
    by_cases bound : first = name
    · subst bound
      simp only [setBinding, ↓reduceIte, lookup_cons_eq_ite]
      split <;> rfl
    · simp only [setBinding, bound, ↓reduceIte, lookup_cons_eq_ite, ih]
      split
      · rename_i found
        rw [if_neg (found ▸ bound)]
      · rfl

/-- A binding is seen under its own name and changes nothing under another. -/
theorem get?_set (frame : Frame) (name other : String) (v : Value) :
    (frame.set name v).get? other = if other = name then some v else frame.get? other :=
  lookup_setBinding name other v frame.bindings

def setAll (frame : Frame) (bindings : List (String × Value)) : Frame :=
  bindings.foldl (fun frame (name, v) => frame.set name v) frame

@[simp] theorem setAll_nil (frame : Frame) : frame.setAll [] = frame := rfl

@[simp] theorem setAll_cons (frame : Frame) (binding : String × Value)
    (rest : List (String × Value)) :
    frame.setAll (binding :: rest) = (frame.set binding.1 binding.2).setAll rest := rfl

theorem setAll_append (frame : Frame) (first second : List (String × Value)) :
    frame.setAll (first ++ second) = (frame.setAll first).setAll second :=
  List.foldl_append

@[simp] theorem outer_setAll (frame : Frame) (made : List (String × Value)) :
    (frame.setAll made).outer = frame.outer := by
  induction made generalizing frame with
  | nil => rfl
  | cons binding rest ih => rw [setAll_cons, ih, outer_set]

theorem get?_setAll_of_notMem (frame : Frame) (made : List (String × Value)) (name : String)
    (absent : ∀ binding ∈ made, binding.1 ≠ name) :
    (frame.setAll made).get? name = frame.get? name := by
  induction made generalizing frame with
  | nil => rfl
  | cons binding rest ih =>
    have other : name ≠ binding.1 := (absent binding List.mem_cons_self).symm
    rw [setAll_cons, ih _ fun next member => absent next (List.mem_cons_of_mem _ member),
      get?_set, if_neg other]

def text (frame : Frame) : String :=
  "\x7b" ++ ", ".intercalate (frame.bindings.map fun (name, v) => name ++ ": " ++ v.text) ++ "\x7d"

end Frame

/-- All frames there are, the number of the next closure, and the journal, latest event first. -/
structure Store where
  frames : Array Frame
  nextSerial : Nat
  journal : List Event

namespace Store

def empty : Store :=
  ⟨#[], 0, []⟩

def addFrame (s : Store) (frame : Frame) : FrameId × Store :=
  (s.frames.size, { s with frames := s.frames.push frame })

def takeSerial (s : Store) : Nat × Store :=
  (s.nextSerial, { s with nextSerial := s.nextSerial + 1 })

def record (s : Store) (event : Event) : Store :=
  { s with journal := event :: s.journal }

def set (s : Store) (frame : FrameId) (name : String) (v : Value) : Store :=
  { s with frames := s.frames.modify frame (·.set name v) }

@[simp] theorem frames_record (s : Store) (event : Event) :
    (s.record event).frames = s.frames := rfl

@[simp] theorem frames_takeSerial (s : Store) : s.takeSerial.2.frames = s.frames := rfl

@[simp] theorem frames_addFrame (s : Store) (frame : Frame) :
    (s.addFrame frame).2.frames = s.frames.push frame := rfl

@[simp] theorem addFrame_fst (s : Store) (frame : Frame) :
    (s.addFrame frame).1 = s.frames.size := rfl

theorem getElem?_set (s : Store) (frame : FrameId) (name : String) (v : Value) (id : FrameId) :
    (s.set frame name v).frames[id]? =
      if frame = id then s.frames[id]?.map (·.set name v) else s.frames[id]? :=
  Array.getElem?_modify

theorem getElem?_addFrame_of_some {s : Store} {id : FrameId} {old : Frame} (frame : Frame)
    (found : s.frames[id]? = some old) : (s.addFrame frame).2.frames[id]? = some old := by
  have inside : id < s.frames.size := (Array.getElem?_eq_some_iff.1 found).1
  rw [frames_addFrame, Array.getElem?_push_lt inside]
  exact (Array.getElem?_eq_getElem inside).symm.trans found

def local? (s : Store) (frame : FrameId) (name : String) : Option Value :=
  s.frames[frame]?.bind (·.get? name)

/-- The frame and the frames around it, from inner to outer. -/
def chain (s : Store) (frame : FrameId) : List FrameId :=
  match s.frames[frame]?.map Frame.outer with
  | none => []
  | some none => [frame]
  | some (some outer) => if outer < frame then frame :: s.chain outer else [frame]
termination_by frame

def find? (s : Store) (frame : FrameId) (name : String) : Option FrameId :=
  (s.chain frame).find? fun candidate => (s.local? candidate name).isSome

def get? (s : Store) (frame : FrameId) (name : String) : Option Value :=
  (s.find? frame name).bind fun found => s.local? found name

def root? (s : Store) (frame : FrameId) : Option FrameId :=
  (s.chain frame).getLast?

def lookup (s : Store) (frame : FrameId) (name : String) (loc : Option Location) :
    Except Error Value :=
  match s.get? frame name with
  | some v => .ok v
  | none => .error ⟨.unboundSymbol name, loc⟩

def newBuiltin (s : Store) (code : String) : Value × Store :=
  let (serial, s) := s.takeSerial
  (.builtin code serial, s)

def register (s : Store) (frame : FrameId) : Store :=
  Operator.all.foldl (fun s op =>
    let (v, s) := s.newBuiltin op.name
    s.set frame op.name v) s

def addRoot (s : Store) : FrameId × Store :=
  let (root, s) := s.addFrame (.empty none)
  (root, s.register root)

/-- The text of one frame, with a hint if there is a frame around it. -/
def frameText (s : Store) (frame : FrameId) : String :=
  match s.frames[frame]? with
  | none => ""
  | some f => f.text ++ (if f.outer.isSome then " -> ..." else "")

def chainText (s : Store) (frame : FrameId) : String :=
  "<Environment chain: " ++
    " -> ".intercalate ((s.chain frame).filterMap fun f => s.frames[f]?.map Frame.text) ++ ">"

end Store

/-- What an embedding program may offer as a name: a name, or a value by mistake. -/
inductive Key where
  | name (name : String)
  | value (v : Value)

namespace Key

def same : Key → Key → Bool
  | name a, name b => a == b
  | value v, value w => v.same w
  | _, _ => false

/-- Changes the value of a key in its place, or adds the key at the end. -/
def setPair (key : Key) (v : Value) : List (Key × Value) → List (Key × Value)
  | [] => [(key, v)]
  | (other, w) :: rest =>
    if other.same key then (other, v) :: rest else (other, w) :: setPair key v rest

/-- Every key once, in the place of its first pair and with the value of its last. -/
def collapse (pairs : List (Key × Value)) : List (Key × Value) :=
  pairs.foldl (fun merged (key, v) => setPair key v merged) []

end Key

namespace Store

def assign (s : Store) (frame : FrameId) (key : Key) (v : Value) : Except Error Store :=
  match key with
  | .name name => .ok (s.set frame name v)
  | .value offered => .error ⟨.expectedSymbol offered.kind, none⟩

/-- Binds keys one after the other up to the first that is no name; what was bound before it
stays. -/
def assignEach (s : Store) (frame : FrameId) : List (Key × Value) → Option Error × Store
  | [] => (none, s)
  | (key, v) :: rest =>
    match s.assign frame key v with
    | .ok s => s.assignEach frame rest
    | .error e => (some e, s)

def assignAll (s : Store) (frame : FrameId) (pairs : List (Key × Value)) : Option Error × Store :=
  s.assignEach frame (Key.collapse pairs)

end Store

end ScopedLisp
