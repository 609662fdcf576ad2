import ScopedLisp.Parameters

set_option autoImplicit false

namespace ScopedLisp

inductive Outcome (α : Type) where
  | done (a : α)
  | failed (f : Fault)
  | tooDeep

def Eval (α : Type) : Type :=
  Store → Outcome α × Store

namespace Eval

@[inline] def pure {α : Type} (a : α) : Eval α :=
  fun s => (.done a, s)

@[inline] def fail {α : Type} (cause : Cause) (loc : Option Location) : Eval α :=
  fun s => (.failed (.error ⟨cause, loc⟩), s)

@[inline] def tooDeep {α : Type} : Eval α :=
  fun s => (.tooDeep, s)

/-- The second computation runs only if the first one ends with a value. -/
@[inline] def bind {α β : Type} (first : Eval α) (next : α → Eval β) : Eval β :=
  fun s =>
    match first s with
    | (.done a, s) => next a s
    | (.failed f, s) => (.failed f, s)
    | (.tooDeep, s) => (.tooDeep, s)

instance : Monad Eval where
  pure := Eval.pure
  bind := Eval.bind

instance : LawfulMonad Eval := LawfulMonad.mk' Eval
  (by
    intro α m
    funext s
    show m.bind Eval.pure s = m s
    unfold bind
    cases m s with
    | mk outcome after => cases outcome <;> rfl)
  (fun _ _ => rfl)
  (by
    intro α β γ m next last
    funext s
    show (m.bind next).bind last s = m.bind (fun a => (next a).bind last) s
    unfold bind
    cases ended : m s with
    | mk outcome after => cases outcome <;> rfl)

theorem bind_of_done {α β : Type} {first : Eval α} {next : α → Eval β} {s after : Store} {a : α}
    (success : first s = (.done a, after)) : first.bind next s = next a after := by
  simp only [bind, success]

theorem bind_of_failed {α β : Type} {first : Eval α} {next : α → Eval β} {s after : Store}
    {f : Fault} (failure : first s = (.failed f, after)) :
    first.bind next s = (.failed f, after) := by
  simp only [bind, failure]

theorem bind_of_tooDeep {α β : Type} {first : Eval α} {next : α → Eval β} {s after : Store}
    (deep : first s = (.tooDeep, after)) : first.bind next s = (.tooDeep, after) := by
  simp only [bind, deep]

theorem bind_eq_bind {α β : Type} {m m' : Eval α} {next next' : α → Eval β} {s : Store}
    (first : m s = m' s) (second : ∀ a t, m' s = (.done a, t) → next a t = next' a t) :
    (m >>= next) s = (m' >>= next') s := by
  show m.bind next s = m'.bind next' s
  match ended : m' s with
  | (.done a, t) => rw [bind_of_done (first.trans ended), bind_of_done ended, second a t ended]
  | (.failed f, t) => rw [bind_of_failed (first.trans ended), bind_of_failed ended]
  | (.tooDeep, t) => rw [bind_of_tooDeep (first.trans ended), bind_of_tooDeep ended]

/-- A computation either ends where its first part ends, or goes on from there. -/
theorem bind_stops_or_goes_on {α β : Type} (m : Eval α) (next : α → Eval β) (s : Store) :
    ((m >>= next) s).2 = (m s).2 ∨
      ∃ a t, m s = (.done a, t) ∧ (m >>= next) s = next a t := by
  match ended : m s with
  | (.done a, t) => exact .inr ⟨a, t, rfl, bind_of_done ended⟩
  | (.failed f, t) => exact .inl (congrArg Prod.snd (bind_of_failed ended))
  | (.tooDeep, t) => exact .inl (congrArg Prod.snd (bind_of_tooDeep ended))

/-- What holds between the stores before and after both parts of a computation holds between those
before and after the whole. -/
theorem rel_bind {α β : Type} {R : Store → Store → Prop} (trans : ∀ {s t u}, R s t → R t u → R s u)
    {m : Eval α} {next : α → Eval β} (first : ∀ s, R s (m s).2) (second : ∀ a s, R s (next a s).2)
    (s : Store) : R s ((m >>= next) s).2 := by
  have before := first s
  rcases bind_stops_or_goes_on m next s with stopped | ⟨a, t, ended, goes⟩
  · rwa [stopped]
  · rw [ended] at before
    rw [goes]
    exact trans before (second a t)

@[inline] def ofExcept {α : Type} (result : Except Fault α) : Eval α :=
  fun s =>
    match result with
    | .ok a => (.done a, s)
    | .error f => (.failed f, s)

@[inline] def modify (change : Store → Store) : Eval Unit :=
  fun s => (.done (), change s)

/-- A part of the store's state that is changed while it is read. -/
@[inline] def take {α : Type} (change : Store → α × Store) : Eval α :=
  fun s =>
    match change s with
    | (a, s) => (.done a, s)

@[inline] def lookup (frame : FrameId) (name : String) (loc : Option Location) : Eval Value :=
  fun s =>
    match s.lookup frame name loc with
    | .ok v => (.done v, s)
    | .error e => (.failed (.error e), s)

end Eval

abbrev Evaluator := FrameId → Value → Eval Value

/-- The forms that are not calls; their names cannot be bound as such. -/
inductive SpecialForm where
  | define
  | conditional
  | lambda
  deriving DecidableEq, Repr

def SpecialForm.ofName? (name : String) : Option SpecialForm :=
  if name = "define" then some define
  else if name = "if" then some conditional
  else if name = "lambda" then some lambda
  else none

def SpecialForm.ofHead? : Value → Option SpecialForm
  | .symbol name _ => ofName? name
  | _ => none

/-- The values of forms, from left to right. -/
def evaluateEach (ev : Evaluator) (frame : FrameId) : List Value → Eval (List Value)
  | [] => Eval.pure []
  | form :: rest => do
    let v ← ev frame form
    let vs ← evaluateEach ev frame rest
    return v :: vs

/-- The value of the last of several forms, each evaluated in turn; void if there are none. -/
def evaluateBody (ev : Evaluator) (frame : FrameId) : List Value → Eval Value
  | [] => Eval.pure .unit
  | [form] => ev frame form
  | form :: rest => do
    let _ ← ev frame form
    evaluateBody ev frame rest

/-- Applies a value to arguments for a call at `loc`. The body of a closure is evaluated by `ev` in
a new frame inside the frame it was made in, whatever frame the call was made in. -/
def applyTo (ev : Evaluator) (callee : Value) (args : List Value) (loc : Option Location) :
    Eval Value :=
  match callee with
  | .builtin code _ => do
    Eval.modify (·.record (.applied callee args.length))
    Eval.ofExcept (Operator.callCode code args loc)
  | .closure params body outer _ _ => do
    Eval.modify (·.record (.applied callee args.length))
    let bound ← Eval.ofExcept ((Parameters.bind params outer args loc).mapError .error)
    let frame ← Eval.take (·.addFrame bound)
    evaluateBody ev frame body
  | _ => Eval.fail (.notCallable callee.kind) loc

theorem applyTo_closure (ev : Evaluator) {params : List Param} {body args : List Value}
    {outer : FrameId} {serial : Nat} {own loc : Option Location} {bound : Frame} (s : Store)
    (accepted : Parameters.bind params outer args loc = .ok bound) :
    applyTo ev (.closure params body outer serial own) args loc s =
      evaluateBody ev s.frames.size body
        ((s.record (.applied (.closure params body outer serial own) args.length)).addFrame
          bound).2 := by
  simp only [applyTo, accepted]
  rfl

/-- `(define name form)` binds in the frame it is evaluated in. -/
def evaluateDefine (ev : Evaluator) (frame : FrameId) (operands : List Value)
    (loc : Option Location) : Eval Value :=
  match operands with
  | [] => Eval.fail (.expectedSymbol "nothing") loc
  | .symbol name place :: rest =>
    match rest with
    | [] => Eval.fail .missingBinding (place.or loc)
    | [form] => do
      let v ← ev frame form
      Eval.modify (·.set frame name v)
      return .unit
    | _ => Eval.fail (.malformedForm "define" "expected (define <symbol> <expr>)") loc
  | other :: _ => Eval.ofExcept (.error (other.blame (.expectedSymbol other.kind) loc))

/-- Takes one of two ways by a condition, which must be a truth value. -/
def evaluateBranch (ev : Evaluator) (frame : FrameId) (loc : Option Location)
    (condition first : Value) (second : Eval Value) : Eval Value := do
  match ← ev frame condition with
  | .bool true _ => ev frame first
  | .bool false _ => second
  | other =>
    Eval.ofExcept (.error (condition.blame (.typeMismatch "boolean" other.kind) loc))

/-- `(if condition then else)`, where a missing `else` stands for void. -/
def evaluateConditional (ev : Evaluator) (frame : FrameId) (operands : List Value)
    (loc : Option Location) : Eval Value :=
  match operands with
  | [condition, first] => evaluateBranch ev frame loc condition first (Eval.pure .unit)
  | [condition, first, second] => evaluateBranch ev frame loc condition first (ev frame second)
  | _ => Eval.fail (.malformedForm "if" "expected (if <condition> <then> [<else>])") loc

/-- `(lambda parameters form ...)` makes a closure of the frame it is evaluated in. -/
def evaluateLambda (frame : FrameId) (operands : List Value) (loc : Option Location) :
    Eval Value :=
  match operands with
  | [] => Eval.fail (.malformedForm "lambda" "missing parameter list") loc
  | list :: body => do
    let params ← Eval.ofExcept (Parameters.parse list loc)
    let serial ← Eval.take Store.takeSerial
    return .closure params body frame serial loc

/-- How many levels lie between a form and the forms evaluated for it, besides the level that every
evaluation takes. The head of a call is right inside the call. -/
structure Costs where
  argument : Nat
  definition : Nat
  branch : Nat
  program : Nat
  /-- From a call to the body of the closure. -/
  call : Nat
  deriving DecidableEq, Repr

namespace Costs

/-- Only evaluations themselves count. -/
def flat : Costs := ⟨0, 0, 0, 0, 0⟩

def usual : Costs where
  argument := 1
  definition := 1
  branch := 1
  program := 1
  call := 3

end Costs

/-- How a form is evaluated, given how the forms some levels further in are. -/
def step (costs : Costs) (ev : Nat → Evaluator) (frame : FrameId) (form : Value) : Eval Value :=
  match form with
  | .symbol name loc => Eval.lookup frame name loc
  | .list [] _ => Eval.pure .unit
  | .list (head :: operands) loc =>
    match SpecialForm.ofHead? head with
    | some .define => evaluateDefine (ev costs.definition) frame operands loc
    | some .conditional => evaluateConditional (ev costs.branch) frame operands loc
    | some .lambda => evaluateLambda frame operands loc
    | none => do
      let callee ← ev 0 frame head
      let args ← evaluateEach (ev costs.argument) frame operands
      applyTo (ev costs.call) callee args loc
  | .program forms _ => evaluateBody (ev costs.program) frame forms
  | .foreign kind _ => Eval.fail (.typeMismatch "expression" kind) none
  | self => Eval.pure self

/-- Evaluates a form that lies some levels further in, with `limit` levels left from here. -/
def evaluateInside (costs : Costs) : (limit levels : Nat) → Evaluator
  | 0, _ => fun _ _ => Eval.tooDeep
  | limit + 1, levels + 1 => evaluateInside costs limit levels
  | limit + 1, 0 => step costs (evaluateInside costs limit)

def evaluate (costs : Costs) (limit : Nat) : Evaluator :=
  evaluateInside costs limit 0

/-- Levels between forms only use up the limit. -/
theorem evaluateInside_eq (costs : Costs) (limit levels : Nat) :
    evaluateInside costs limit levels = evaluate costs (limit - levels) := by
  induction levels generalizing limit with
  | zero => rfl
  | succ levels ih =>
    cases limit with
    | zero => simp [evaluate, evaluateInside]
    | succ limit => simpa [evaluateInside] using ih limit

@[simp] theorem evaluate_zero (costs : Costs) (frame : FrameId) (form : Value) :
    evaluate costs 0 frame form = Eval.tooDeep := by
  simp [evaluate, evaluateInside]

theorem evaluate_succ (costs : Costs) (limit : Nat) :
    evaluate costs (limit + 1) = step costs fun levels => evaluate costs (limit - levels) := by
  simp only [evaluate, evaluateInside]
  congr 1
  funext levels
  exact evaluateInside_eq costs limit levels

end ScopedLisp
