import ScopedLisp.Evaluation

set_option autoImplicit false

namespace ScopedLisp

structure Computations where
  Holds : {α : Type} → Eval α → Prop
  ofExcept : ∀ {α : Type} (result : Except Fault α), Holds (Eval.ofExcept result)
  lookup : ∀ (frame : FrameId) (name : String) (loc : Option Location),
    Holds (Eval.lookup frame name loc)
  record : ∀ event : Event, Holds (Eval.modify (·.record event))
  set : ∀ (frame : FrameId) (name : String) (v : Value), Holds (Eval.modify (·.set frame name v))
  takeSerial : Holds (Eval.take Store.takeSerial)
  addFrame : ∀ frame : Frame, Holds (Eval.take (·.addFrame frame))
  bind : ∀ {α β : Type} {m : Eval α} {next : α → Eval β}, Holds m → (∀ a, Holds (next a)) →
    Holds (m >>= next)

namespace Computations

variable (c : Computations)

theorem holds_pure {α : Type} (a : α) : c.Holds (Pure.pure a : Eval α) :=
  c.ofExcept (.ok a)

theorem holds_fail {α : Type} (cause : Cause) (loc : Option Location) :
    c.Holds (Eval.fail cause loc : Eval α) :=
  c.ofExcept (.error (.error ⟨cause, loc⟩))

theorem holds_evaluateLambda (frame : FrameId) (operands : List Value) (loc : Option Location) :
    c.Holds (evaluateLambda frame operands loc) := by
  unfold evaluateLambda
  split
  · exact c.holds_fail _ _
  · exact c.bind (c.ofExcept _) fun params => c.bind c.takeSerial fun serial => c.holds_pure _

section

variable {c} {ev : Evaluator} (inner : ∀ frame form, c.Holds (ev frame form))
include inner

theorem holds_evaluateEach (frame : FrameId) (forms : List Value) :
    c.Holds (evaluateEach ev frame forms) := by
  induction forms with
  | nil => exact c.holds_pure []
  | cons form rest ih =>
    exact c.bind (inner frame form) fun v => c.bind ih fun vs => c.holds_pure (v :: vs)

theorem holds_evaluateBody (frame : FrameId) (forms : List Value) :
    c.Holds (evaluateBody ev frame forms) := by
  induction forms with
  | nil => exact c.holds_pure _
  | cons form rest ih =>
    match rest with
    | [] => exact inner frame form
    | next :: more => exact c.bind (inner frame form) fun _ => ih

theorem holds_applyTo (callee : Value) (args : List Value) (loc : Option Location) :
    c.Holds (applyTo ev callee args loc) := by
  unfold applyTo
  split
  · exact c.bind (c.record _) fun _ => c.ofExcept _
  · refine c.bind (c.record _) fun _ => ?_
    refine c.bind (c.ofExcept _) fun bound => ?_
    exact c.bind (c.addFrame bound) fun frame => holds_evaluateBody inner frame _
  · exact c.holds_fail _ _

theorem holds_evaluateDefine (frame : FrameId) (operands : List Value) (loc : Option Location) :
    c.Holds (evaluateDefine ev frame operands loc) := by
  unfold evaluateDefine
  split
  · exact c.holds_fail _ _
  · split
    · exact c.holds_fail _ _
    · exact c.bind (inner frame _) fun v => c.bind (c.set frame _ v) fun _ => c.holds_pure _
    · exact c.holds_fail _ _
  · exact c.ofExcept _

theorem holds_evaluateBranch (frame : FrameId) (loc : Option Location) (condition first : Value)
    {second : Eval Value} (otherwise : c.Holds second) :
    c.Holds (evaluateBranch ev frame loc condition first second) := by
  refine c.bind (inner frame condition) fun v => ?_
  split
  · exact inner frame first
  · exact otherwise
  · exact c.ofExcept _

theorem holds_evaluateConditional (frame : FrameId) (operands : List Value)
    (loc : Option Location) : c.Holds (evaluateConditional ev frame operands loc) := by
  unfold evaluateConditional
  split
  · exact holds_evaluateBranch inner frame loc _ _ (c.holds_pure _)
  · exact holds_evaluateBranch inner frame loc _ _ (inner frame _)
  · exact c.holds_fail _ _

end

theorem holds_step (costs : Costs) {ev : Nat → Evaluator}
    (inner : ∀ levels frame form, c.Holds (ev levels frame form)) (frame : FrameId)
    (form : Value) : c.Holds (step costs ev frame form) := by
  unfold step
  split
  · exact c.lookup _ _ _
  · exact c.holds_pure _
  · split
    · exact holds_evaluateDefine (inner _) frame _ _
    · exact holds_evaluateConditional (inner _) frame _ _
    · exact c.holds_evaluateLambda frame _ _
    · refine c.bind (inner 0 frame _) fun callee => ?_
      refine c.bind (holds_evaluateEach (inner _) frame _) fun args => ?_
      exact holds_applyTo (inner _) callee args _
  · exact holds_evaluateBody (inner _) frame _
  · exact c.holds_fail _ _
  · exact c.holds_pure _

theorem holds_evaluate (tooDeep : c.Holds (Eval.tooDeep : Eval Value)) (costs : Costs)
    (limit : Nat) (frame : FrameId) (form : Value) :
    c.Holds (evaluate costs limit frame form) := by
  induction limit using Nat.strongRecOn generalizing frame form with
  | ind limit ih =>
    match limit with
    | 0 =>
      rw [evaluate_zero]
      exact tooDeep
    | limit + 1 =>
      rw [evaluate_succ]
      exact c.holds_step costs (fun levels => ih (limit - levels) (by omega)) frame form

end Computations

end ScopedLisp
