import Mathlib.Logic.Relation
import ScopedLisp.Proofs.Discipline
import ScopedLisp.Proofs.Growth

set_option autoImplicit false

namespace ScopedLisp

theorem evaluateEach_append (ev : Evaluator) (frame : FrameId) (before rest : List Value) :
    evaluateEach ev frame (before ++ rest) = do
      let values ← evaluateEach ev frame before
      let further ← evaluateEach ev frame rest
      return values ++ further := by
  induction before with
  | nil =>
    show _ = (Pure.pure [] : Eval (List Value)) >>= _
    simp
  | cons form before ih => simp [evaluateEach, ih]

theorem evaluateBody_append (ev : Evaluator) (frame : FrameId) (before rest : List Value)
    (form : Value) :
    evaluateBody ev frame (before ++ form :: rest) =
      evaluateEach ev frame before >>= fun _ => evaluateBody ev frame (form :: rest) := by
  induction before with
  | nil => rfl
  | cons first before ih =>
    have more : ∃ next further, before ++ form :: rest = next :: further := by
      cases before <;> exact ⟨_, _, rfl⟩
    obtain ⟨next, further, shape⟩ := more
    rw [shape] at ih
    simp [evaluateEach, shape, evaluateBody, ih]

/-- A body is evaluated for the value of its last form, void if there is none. -/
theorem evaluateBody_eq_last (ev : Evaluator) (frame : FrameId) (forms : List Value) :
    evaluateBody ev frame forms =
      evaluateEach ev frame forms >>= fun values => pure (values.getLastD .unit) := by
  induction forms with
  | nil => rfl
  | cons form rest ih =>
    cases rest with
    | nil =>
      have none : evaluateEach ev frame [] = Pure.pure [] := rfl
      simp [evaluateEach.eq_2, none, evaluateBody]
    | cons second rest =>
      have first : evaluateBody ev frame (form :: second :: rest) =
          ev frame form >>= fun _ => evaluateBody ev frame (second :: rest) := rfl
      rw [first, ih]
      simp only [evaluateEach, bind_assoc, pure_bind, List.getLastD_cons]

/-- One evaluation: a form and a frame to evaluate it in, the levels that are left, and the store it
starts on. -/
structure Task where
  limit : Nat
  frame : FrameId
  form : Value
  store : Store

namespace Task

def run (costs : Costs) (task : Task) : Outcome Value × Store :=
  evaluate costs task.limit task.frame task.form task.store

/-- The store at the end, however the evaluation ends. -/
def after (costs : Costs) (task : Task) : Store :=
  (task.run costs).2

/-- The tasks right inside a task. Where several forms are evaluated in turn, the forms before the
one that is meant have their values already. -/
inductive Inner (costs : Costs) : Task → Task → Prop
  | head {limit : Nat} {frame : FrameId} {head : Value} {operands : List Value}
      {loc : Option Location} {s : Store} (call : SpecialForm.ofHead? head = none) :
      Inner costs ⟨limit + 1, frame, .list (head :: operands) loc, s⟩ ⟨limit, frame, head, s⟩
  | argument {limit : Nat} {frame : FrameId} {head operand callee : Value}
      {before rest values : List Value} {loc : Option Location} {s t u : Store}
      (call : SpecialForm.ofHead? head = none)
      (called : evaluate costs limit frame head s = (.done callee, t))
      (evaluated : evaluateEach (evaluate costs (limit - costs.argument)) frame before t =
        (.done values, u)) :
      Inner costs ⟨limit + 1, frame, .list (head :: (before ++ operand :: rest)) loc, s⟩
        ⟨limit - costs.argument, frame, operand, u⟩
  | body {limit : Nat} {frame outer : FrameId} {head form : Value}
      {operands args before rest values : List Value} {params : List Param} {serial : Nat}
      {loc own : Option Location} {bound : Frame} {s t u w : Store}
      (call : SpecialForm.ofHead? head = none)
      (called : evaluate costs limit frame head s =
        (.done (.closure params (before ++ form :: rest) outer serial own), t))
      (evaluated : evaluateEach (evaluate costs (limit - costs.argument)) frame operands t =
        (.done args, u))
      (accepted : Parameters.bind params outer args loc = .ok bound)
      (entered : evaluateEach (evaluate costs (limit - costs.call)) u.frames.size before
        ((u.record (.applied (.closure params (before ++ form :: rest) outer serial own)
          args.length)).addFrame bound).2 = (.done values, w)) :
      Inner costs ⟨limit + 1, frame, .list (head :: operands) loc, s⟩
        ⟨limit - costs.call, u.frames.size, form, w⟩
  | definition {limit : Nat} {frame : FrameId} {head form : Value} {name : String}
      {loc place : Option Location} {s : Store}
      (special : SpecialForm.ofHead? head = some .define) :
      Inner costs ⟨limit + 1, frame, .list [head, .symbol name place, form] loc, s⟩
        ⟨limit - costs.definition, frame, form, s⟩
  | condition {limit : Nat} {frame : FrameId} {head condition first : Value} {rest : List Value}
      {loc : Option Location} {s : Store}
      (special : SpecialForm.ofHead? head = some .conditional) (short : rest.length ≤ 1) :
      Inner costs ⟨limit + 1, frame, .list (head :: condition :: first :: rest) loc, s⟩
        ⟨limit - costs.branch, frame, condition, s⟩
  | first {limit : Nat} {frame : FrameId} {head condition first : Value} {rest : List Value}
      {loc place : Option Location} {s t : Store}
      (special : SpecialForm.ofHead? head = some .conditional) (short : rest.length ≤ 1)
      (decided : evaluate costs (limit - costs.branch) frame condition s =
        (.done (.bool true place), t)) :
      Inner costs ⟨limit + 1, frame, .list (head :: condition :: first :: rest) loc, s⟩
        ⟨limit - costs.branch, frame, first, t⟩
  | second {limit : Nat} {frame : FrameId} {head condition first second : Value}
      {loc place : Option Location} {s t : Store}
      (special : SpecialForm.ofHead? head = some .conditional)
      (decided : evaluate costs (limit - costs.branch) frame condition s =
        (.done (.bool false place), t)) :
      Inner costs ⟨limit + 1, frame, .list [head, condition, first, second] loc, s⟩
        ⟨limit - costs.branch, frame, second, t⟩
  | form {limit : Nat} {frame : FrameId} {form : Value} {before rest values : List Value}
      {loc : Option Location} {s t : Store}
      (evaluated : evaluateEach (evaluate costs (limit - costs.program)) frame before s =
        (.done values, t)) :
      Inner costs ⟨limit + 1, frame, .program (before ++ form :: rest) loc, s⟩
        ⟨limit - costs.program, frame, form, t⟩

end Task

/-- A call evaluates its head, then its operands, and then the body. -/
theorem evaluate_call {costs : Costs} {limit : Nat} {frame : FrameId} {head : Value}
    {operands : List Value} {loc : Option Location} (call : SpecialForm.ofHead? head = none) :
    evaluate costs (limit + 1) frame (.list (head :: operands) loc) =
      evaluate costs limit frame head >>= fun callee =>
        evaluateEach (evaluate costs (limit - costs.argument)) frame operands >>= fun args =>
          applyTo (evaluate costs (limit - costs.call)) callee args loc := by
  rw [evaluate_succ]
  simp only [step, call]
  rfl

theorem evaluate_conditional {costs : Costs} {limit : Nat} {frame : FrameId}
    {head condition first : Value} {rest : List Value} {loc : Option Location}
    (special : SpecialForm.ofHead? head = some .conditional) (short : rest.length ≤ 1) :
    ∃ second : Eval Value, second.Grows ∧
      evaluate costs (limit + 1) frame (.list (head :: condition :: first :: rest) loc) =
        evaluateBranch (evaluate costs (limit - costs.branch)) frame loc condition first
          second := by
  rw [evaluate_succ]
  simp only [step, special]
  rcases rest with _ | ⟨second, _ | ⟨third, more⟩⟩
  · exact ⟨_, pure_grows Value.unit, rfl⟩
  · exact ⟨_, evaluate_grows second, rfl⟩
  · simp at short

namespace Task

theorem Inner.resumes {costs : Costs} {a b : Task} (inner : Inner costs a b) :
    ∃ m : Eval Value, (evaluate costs b.limit b.frame b.form).BeginsWith m ∧
      a.run costs = m b.store := by
  unfold run
  cases inner with
  | @head limit frame head operands loc s call =>
    rw [evaluate_call call]
    refine ⟨_, ⟨_, fun callee => ?_, rfl⟩, rfl⟩
    exact (evaluateEach_grows operands).bind fun args => applyTo_grows callee args loc
  | @argument limit frame head operand callee before rest values loc s t u call called evaluated =>
    refine ⟨evaluateEach (evaluate costs (limit - costs.argument)) frame (operand :: rest) >>=
        fun further => applyTo (evaluate costs (limit - costs.call)) callee (values ++ further) loc,
      (evaluateEach_begins operand rest).bind fun _ => applyTo_grows callee _ loc, ?_⟩
    rw [evaluate_call call]
    -- Associating to the right brings the operands before this one to the front.
    simp only [evaluateEach_append, bind_assoc, pure_bind]
    exact (Eval.bind_of_done called).trans (Eval.bind_of_done evaluated)
  | @body limit frame outer head form operands args before rest values params serial loc own bound
      s t u w call called evaluated accepted entered =>
    refine ⟨_, evaluateBody_begins form rest, ?_⟩
    rw [evaluate_call call]
    refine (Eval.bind_of_done called).trans ((Eval.bind_of_done evaluated).trans ?_)
    rw [applyTo_closure _ u accepted, evaluateBody_append]
    exact Eval.bind_of_done entered
  | @definition limit frame head form name loc place s special =>
    refine ⟨evaluateDefine (evaluate costs (limit - costs.definition)) frame
      [.symbol name place, form] loc, ⟨_, fun v => ?_, rfl⟩, ?_⟩
    · refine Eval.Grows.bind (fun t => ?_) fun _ => pure_grows _
      exact (Store.ChangedOnly.set t frame name v).grows
    · rw [evaluate_succ]
      simp only [step, special]
  | @condition limit frame head condition first rest loc s special short =>
    obtain ⟨second, grows, whole⟩ := evaluate_conditional special short
    exact ⟨_, evaluateBranch_begins loc condition first grows, congrFun whole s⟩
  | @first limit frame head condition first rest loc place s t special short decided =>
    obtain ⟨second, _, whole⟩ := evaluate_conditional special short
    refine ⟨_, ⟨pure, pure_grows, (bind_pure _).symm⟩, ?_⟩
    rw [whole]
    exact Eval.bind_of_done decided
  | @second limit frame head condition first second loc place s t special decided =>
    refine ⟨_, ⟨pure, pure_grows, (bind_pure _).symm⟩, ?_⟩
    rw [evaluate_succ]
    simp only [step, special]
    exact Eval.bind_of_done decided
  | @form limit frame form before rest values loc s t evaluated =>
    refine ⟨_, evaluateBody_begins form rest, ?_⟩
    rw [evaluate_succ]
    simp only [step, evaluateBody_append]
    exact Eval.bind_of_done evaluated

theorem Inner.grows_before {costs : Costs} {a b : Task} (inner : Inner costs a b) :
    a.store.Grows b.store := by
  cases inner with
  | head => exact .of_frames_eq rfl
  | argument call called evaluated =>
    have first := (evaluate_grows _).to called
    exact first.trans ((evaluateEach_grows _).to evaluated)
  | body call called evaluated accepted entered =>
    have first := (evaluate_grows _).to called
    have second := (evaluateEach_grows _).to evaluated
    have third := (evaluateEach_grows _).to entered
    exact first.trans (second.trans (Store.Grows.trans (.addFrame (Store.record _ _) _) third))
  | definition => exact .of_frames_eq rfl
  | condition => exact .of_frames_eq rfl
  | first special short decided => exact (evaluate_grows _).to decided
  | second special decided => exact (evaluate_grows _).to decided
  | form evaluated => exact (evaluateEach_grows _).to evaluated

theorem Inner.grows_after {costs : Costs} {a b : Task} (inner : Inner costs a b) :
    (b.after costs).Grows (a.after costs) := by
  obtain ⟨m, begins, whole⟩ := inner.resumes
  unfold after
  rw [whole]
  exact begins.grows b.store

/-- The tasks inside a task, those inside them, and so on; the task itself is one of them. -/
def Nested (costs : Costs) : Task → Task → Prop :=
  Relation.ReflTransGen (Inner costs)

/-- From the start of a task to the start of one inside it, from there to its end, and from there to
the end of the whole, stores only grow. -/
theorem Nested.grows {costs : Costs} {a b : Task} (nested : Nested costs a b) :
    a.store.Grows b.store ∧ b.store.Grows (b.after costs) ∧
      (b.after costs).Grows (a.after costs) := by
  refine ⟨?_, evaluate_grows b.form b.store, ?_⟩
  · induction nested with
    | refl => exact .of_frames_eq rfl
    | tail _ inner ih => exact ih.trans inner.grows_before
  · induction nested with
    | refl => exact .of_frames_eq rfl
    | tail _ inner ih => exact inner.grows_after.trans ih

/-- A task that may be run under a discipline. -/
structure Fit (d : Discipline) (task : Task) : Prop where
  holds : d.Holds task.store
  inside : task.frame < task.store.frames.size
  ready : d.Ready task.store task.form

namespace Fit

variable {d : Discipline} {task : Task} {t : Store}

theorem later (fit : task.Fit d) (holds : d.Holds t) (before : task.store.Precedes t) :
    Fit d ⟨task.limit, task.frame, task.form, t⟩ :=
  ⟨holds, before.inside fit.inside, fit.ready.later before⟩

theorem child (fit : task.Fit d) {child : Value} (inside : child ∈ task.form.children)
    (limit : Nat) : Fit d ⟨limit, task.frame, child, task.store⟩ :=
  ⟨fit.holds, fit.inside, fit.ready.child inside⟩

theorem ends (fit : task.Fit d) (costs : Costs) :
    d.Ends d.Sound task.store (task.run costs) :=
  d.evaluate_obeys costs task.limit task.frame task.form task.store fit.holds fit.inside fit.ready

theorem each_ends (fit : task.Fit d) (costs : Costs) (limit : Nat) {forms : List Value}
    (inside : ∀ form ∈ forms, form ∈ task.form.children) :
    d.Ends d.AllSound task.store
      (evaluateEach (evaluate costs limit) task.frame forms task.store) :=
  Discipline.evaluateEach_ends (d.evaluate_obeys costs limit) fit.holds fit.inside
    fun form member => fit.ready.child (inside form member)

end Fit

theorem Inner.fit {d : Discipline} {costs : Costs} {a b : Task} (inner : Inner costs a b)
    (fit : a.Fit d) : b.Fit d := by
  cases inner with
  | head call => exact fit.child List.mem_cons_self _
  | @argument limit frame head operand callee before rest values loc s t u call called evaluated =>
    have first := (fit.child List.mem_cons_self limit).ends costs
    simp only [run, called] at first
    have between := fit.later first.holds first.later
    have second := between.each_ends costs (limit - costs.argument)
      fun form (member : form ∈ before) => List.mem_cons_of_mem _ (List.mem_append_left _ member)
    simp only [evaluated] at second
    have last := between.later second.holds second.later
    exact last.child (List.mem_cons_of_mem _ (by simp)) _
  | @body limit frame outer head form operands args before rest values params serial loc own bound
      s t u w call called evaluated accepted entered =>
    have first := (fit.child List.mem_cons_self limit).ends costs
    simp only [run, called] at first
    have between := fit.later first.holds first.later
    have second := between.each_ends costs (limit - costs.argument)
      fun form (member : form ∈ operands) => List.mem_cons_of_mem _ member
    simp only [evaluated] at second
    -- The body starts on the store that the arguments leave, with the frame of the call added.
    obtain ⟨begun, _, ready⟩ := Discipline.enter_call second.holds
      ((first.done _ rfl).later second.later) (second.done _ rfl) accepted
      (.applied (.closure params (before ++ form :: rest) outer serial own) args.length)
    have new : u.frames.size < ((u.record (.applied (.closure params (before ++ form :: rest) outer
        serial own) args.length)).addFrame bound).2.frames.size := by simp
    have third := Discipline.evaluateEach_ends (d.evaluate_obeys costs (limit - costs.call)) begun
      new fun part member => ready part (List.mem_append_left _ member)
    rw [entered] at third
    have inside := third.later.inside new
    exact ⟨third.holds, inside, (ready form (by simp)).later third.later⟩
  | definition special => exact fit.child (List.mem_cons_of_mem _ (by simp)) _
  | condition special short => exact fit.child (List.mem_cons_of_mem _ List.mem_cons_self) _
  | @first limit frame head condition first rest loc place s t special short decided =>
    have ended := (fit.child (List.mem_cons_of_mem _ List.mem_cons_self)
      (limit - costs.branch)).ends costs
    simp only [run, decided] at ended
    exact (fit.later ended.holds ended.later).child (List.mem_cons_of_mem _ (by simp)) _
  | @second limit frame head condition first second loc place s t special decided =>
    have ended := (fit.child (List.mem_cons_of_mem _ List.mem_cons_self)
      (limit - costs.branch)).ends costs
    simp only [run, decided] at ended
    exact (fit.later ended.holds ended.later).child (List.mem_cons_of_mem _ (by simp)) _
  | @form limit frame form before rest values loc s t evaluated =>
    have ended := fit.each_ends costs (limit - costs.program)
      fun form (member : form ∈ before) => List.mem_append_left _ member
    simp only [evaluated] at ended
    have last := fit.later ended.holds ended.later
    exact last.child (show form ∈ before ++ form :: rest by simp) _

theorem Nested.fit {d : Discipline} {costs : Costs} {a b : Task} (nested : Nested costs a b)
    (fit : a.Fit d) : b.Fit d := by
  induction nested with
  | refl => exact fit
  | tail _ inner ih => exact inner.fit ih

end Task

/-- Forms are evaluated in turn, each on the store that the forms before it leave. -/
theorem evaluateEach_congr {ev ev' : Evaluator} {frame : FrameId} {forms : List Value} {s : Store}
    (agree : ∀ (before rest values : List Value) (form : Value) (t : Store),
      forms = before ++ form :: rest → evaluateEach ev' frame before s = (.done values, t) →
      ev frame form t = ev' frame form t) :
    evaluateEach ev frame forms s = evaluateEach ev' frame forms s := by
  induction forms generalizing s with
  | nil => rfl
  | cons form rest ih =>
    refine Eval.bind_eq_bind (agree [] rest [] form s rfl rfl) fun v t ended => ?_
    refine Eval.bind_eq_bind (ih ?_) fun _ _ _ => rfl
    intro before more values next u split evaluated
    refine agree (form :: before) more (v :: values) next u (by rw [split]; rfl) ?_
    exact (Eval.bind_of_done ended).trans (Eval.bind_of_done evaluated)

theorem evaluateBody_congr {ev ev' : Evaluator} {frame : FrameId} {forms : List Value} {s : Store}
    (agree : ∀ (before rest values : List Value) (form : Value) (t : Store),
      forms = before ++ form :: rest → evaluateEach ev' frame before s = (.done values, t) →
      ev frame form t = ev' frame form t) :
    evaluateBody ev frame forms s = evaluateBody ev' frame forms s := by
  rcases forms.eq_nil_or_concat with rfl | ⟨before, last, rfl⟩
  · rfl
  -- The value of the last form is returned; the values of the forms before it are not looked at.
  · rw [List.concat_eq_append] at agree ⊢
    rw [evaluateBody_append, evaluateBody_append]
    refine Eval.bind_eq_bind (evaluateEach_congr ?_) ?_
    · intro first rest values form t split evaluated
      exact agree first (rest ++ [last]) values form t (by simp [split]) evaluated
    · intro values t evaluated
      exact agree before [] values last t rfl evaluated

theorem evaluateDefine_congr {ev ev' : Evaluator} {frame : FrameId} {operands : List Value}
    {loc : Option Location} {s : Store}
    (agree : ∀ name place form, operands = [.symbol name place, form] →
      ev frame form s = ev' frame form s) :
    evaluateDefine ev frame operands loc s = evaluateDefine ev' frame operands loc s := by
  cases operands with
  | nil => rfl
  | cons target rest =>
    cases target with
    | symbol name place =>
      rcases rest with _ | ⟨form, _ | ⟨extra, more⟩⟩
      · rfl
      · exact Eval.bind_eq_bind (agree name place form rfl) fun _ _ _ => rfl
      · rfl
    | _ => rfl

theorem evaluateBranch_congr {ev ev' : Evaluator} {frame : FrameId} {loc : Option Location}
    {condition first : Value} {second second' : Eval Value} {s : Store}
    (onCondition : ev frame condition s = ev' frame condition s)
    (onFirst : ∀ place t, ev' frame condition s = (.done (.bool true place), t) →
      ev frame first t = ev' frame first t)
    (onSecond : ∀ place t, ev' frame condition s = (.done (.bool false place), t) →
      second t = second' t) :
    evaluateBranch ev frame loc condition first second s =
      evaluateBranch ev' frame loc condition first second' s := by
  refine Eval.bind_eq_bind onCondition fun v t decided => ?_
  cases v with
  | bool b place =>
    cases b with
    | true => exact onFirst place t decided
    | false => exact onSecond place t decided
  | _ => rfl

/-- The tasks right inside a task are all that its evaluation depends on: an evaluator that agrees
on them gives the same outcome and the same store. -/
theorem Task.step_eq_of_inner {costs : Costs} {limit : Nat} {frame : FrameId} {form : Value}
    {s : Store} {ev : Nat → Evaluator}
    (agree : ∀ (levels : Nat) (frame' : FrameId) (form' : Value) (t : Store),
      Inner costs ⟨limit + 1, frame, form, s⟩ ⟨limit - levels, frame', form', t⟩ →
      ev levels frame' form' t = evaluate costs (limit - levels) frame' form' t) :
    step costs ev frame form s = evaluate costs (limit + 1) frame form s := by
  rw [evaluate_succ]
  cases form with
  | list items loc =>
    cases items with
    | nil => rfl
    | cons head operands =>
      simp only [step]
      cases special : SpecialForm.ofHead? head with
      | some keyword =>
        cases keyword with
        | define =>
          refine evaluateDefine_congr ?_
          rintro name place form rfl
          exact agree costs.definition frame form s (.definition special)
        | conditional =>
          rcases operands with _ | ⟨condition, _ | ⟨first, _ | ⟨second, _ | ⟨third, rest⟩⟩⟩⟩
          · rfl
          · rfl
          · refine evaluateBranch_congr (agree costs.branch frame condition s ?_) ?_
              fun _ _ _ => rfl
            · exact .condition special (by simp)
            · intro place t decided
              exact agree costs.branch frame first t (.first special (by simp) decided)
          · refine evaluateBranch_congr (agree costs.branch frame condition s ?_) ?_ ?_
            · exact .condition special (by simp)
            · intro place t decided
              exact agree costs.branch frame first t (.first special (by simp) decided)
            · intro place t decided
              exact agree costs.branch frame second t (.second special decided)
          · rfl
        | lambda => rfl
      | none =>
        refine Eval.bind_eq_bind (agree 0 frame head s (.head special)) fun callee t called => ?_
        refine Eval.bind_eq_bind (evaluateEach_congr ?_) fun args u evaluated => ?_
        · rintro before rest values operand u rfl evaluated
          exact agree costs.argument frame operand u (.argument special called evaluated)
        · cases callee with
          | closure params body outer serial own =>
            cases accepted : Parameters.bind params outer args loc with
            | error e =>
              simp only [applyTo, accepted]
              rfl
            | ok bound =>
              rw [applyTo_closure _ u accepted, applyTo_closure _ u accepted]
              refine evaluateBody_congr ?_
              rintro before rest values form w rfl entered
              exact agree costs.call u.frames.size form w
                (.body special called evaluated accepted entered)
          | _ => rfl
  | program forms loc =>
    refine evaluateBody_congr ?_
    rintro before rest values form t rfl evaluated
    exact agree costs.program frame form t (.form evaluated)
  | _ => rfl

end ScopedLisp
