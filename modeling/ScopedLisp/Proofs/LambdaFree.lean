import ScopedLisp.Proofs.IntegerRange
import ScopedLisp.Proofs.Limit
import ScopedLisp.Proofs.ParameterGrammar

set_option autoImplicit false

namespace ScopedLisp

namespace Value

mutual

/-- How many values lie inside each other, the value itself included. -/
def depth : Value → Nat
  | list items _ => depthOfAll items + 1
  | program forms _ => depthOfAll forms + 1
  | closure _ body _ _ _ => depthOfAll body + 1
  | _ => 1

def depthOfAll : List Value → Nat
  | [] => 0
  | v :: vs => max (depth v) (depthOfAll vs)

end

theorem depth_le_depthOfAll {v : Value} {vs : List Value} (member : v ∈ vs) :
    v.depth ≤ depthOfAll vs := by
  induction vs with
  | nil => cases member
  | cons w vs ih =>
    simp only [depthOfAll]
    rcases List.mem_cons.1 member with rfl | member
    · omega
    · have := ih member
      omega

theorem depth_eq (v : Value) : v.depth = depthOfAll v.children + 1 := by
  cases v <;> rfl

theorem depth_lt_of_child {child v : Value} (inside : child ∈ v.children) :
    child.depth < v.depth := by
  have := depth_le_depthOfAll inside
  rw [depth_eq v]
  omega

theorem depth_pos (v : Value) : 0 < v.depth := by
  rw [depth_eq]
  omega

/-- Whether the value is a closure that a program made. -/
def isClosure : Value → Bool
  | closure _ _ _ _ _ => true
  | _ => false

def isLambda : Value → Bool
  | list (head :: _) _ => SpecialForm.ofHead? head = some .lambda
  | _ => false

/-- No part of the value is a closure, those of operators apart. -/
def BuiltinsOnly (v : Value) : Prop :=
  ∀ part ∈ v.parts, part.isClosure = false

/-- No part of the form is a `lambda` form or a closure, those of operators apart. -/
def LambdaFree (form : Value) : Prop :=
  ∀ part ∈ form.parts, part.isClosure = false ∧ part.isLambda = false

/-- Operators can work with the value: its integers have 128 bits, and the codes in it find them. -/
structure Usable (v : Value) : Prop where
  inRange : v.IntegersInRange
  operators : ∀ code serial, .builtin code serial ∈ v.parts → ∃ op : Operator, code = op.name

/-- The language can make the value itself: no part of it is a foreign object, and operators can work
with it. -/
structure OfLanguage (v : Value) : Prop where
  native : v.IsNative
  usable : v.Usable

theorem Usable.child {v child : Value} (usable : v.Usable) (inside : child ∈ v.children) :
    child.Usable :=
  ⟨fun n place member => usable.inRange n place (mem_parts_of_child inside member),
    fun code serial member => usable.operators code serial (mem_parts_of_child inside member)⟩

theorem IsData.usable {v : Value} (data : v.IsData) : v.Usable := by
  refine ⟨data.integersInRange, fun code serial member => ?_⟩
  rcases data.part member with part | part
  · cases part with
    | builtin op => exact ⟨op, rfl⟩
  · cases part

/-- A form that may be evaluated, and that is of the language if `native` holds. -/
structure Plain (native : Prop) (form : Value) : Prop where
  lambdaFree : form.LambdaFree
  ofLanguage : native → form.OfLanguage

/-- A value that may be bound. Foreign objects do no harm there, as only forms are blamed. -/
structure Inert (native : Prop) (v : Value) : Prop where
  builtinsOnly : v.BuiltinsOnly
  usable : native → v.Usable

variable {native : Prop}

theorem Plain.child {form child : Value} (plain : form.Plain native)
    (inside : child ∈ form.children) : child.Plain native := by
  constructor
  · intro part member
    exact plain.lambdaFree part (mem_parts_of_child inside member)
  · intro given
    have whole := plain.ofLanguage given
    exact ⟨whole.native.child inside, whole.usable.child inside⟩

theorem Plain.inert {form : Value} (plain : form.Plain native) : form.Inert native := by
  constructor
  · intro part member
    exact (plain.lambdaFree part member).1
  · intro given
    exact (plain.ofLanguage given).usable

theorem Inert.not_closure {v : Value} (inert : v.Inert native) : v.isClosure = false :=
  inert.builtinsOnly v v.self_mem_parts

theorem inert_of_parts_eq {v : Value} (alone : v.parts = [v]) (noClosure : v.isClosure = false)
    (data : v.IsData) : v.Inert native := by
  refine ⟨fun part member => ?_, fun _ => data.usable⟩
  rw [alone, List.mem_singleton] at member
  rwa [member]

theorem inert_unit : unit.Inert native :=
  inert_of_parts_eq rfl rfl (.void none)

theorem Computed.inert {v : Value} (computed : v.Computed) : v.Inert native := by
  apply inert_of_parts_eq
  · cases computed <;> rfl
  · cases computed <;> rfl
  · exact Discipline.ofTexts.computed computed

end Value

namespace Store

/-- The frames that are reached from some frames: those that closures made in them lead to. -/
def ReachesFrom (s : Store) (frames : List FrameId) : FrameId → Prop :=
  s.Reaches (frames.map fun frame => .closure [] [] frame 0 none)

theorem reachesFrom_self (s : Store) {frames : List FrameId} {frame : FrameId}
    (start : frame ∈ frames) : s.ReachesFrom frames frame :=
  .root (List.mem_map_of_mem start) (Value.self_mem_parts _)

theorem ReachesFrom.of_mem_chain {s : Store} {frames : List FrameId} {frame id : FrameId}
    (reached : s.ReachesFrom frames frame) (member : id ∈ s.chain frame) :
    s.ReachesFrom frames id := by
  fun_induction chain s frame with
  | case1 => cases member
  | case2 frame outermost =>
    rw [List.mem_singleton.1 member]
    exact reached
  | case3 frame outer linked older ih =>
    rcases List.mem_cons.1 member with rfl | member
    · exact reached
    · obtain ⟨holder, found, link⟩ := Option.map_eq_some_iff.1 linked
      exact ih (.outer reached found link) member
  | case4 frame outer linked younger =>
    rw [List.mem_singleton.1 member]
    exact reached

theorem ReachesFrom.of_later {s t : Store} {frames : List FrameId} {id : FrameId}
    (before : ∀ (id : FrameId) (new : Frame), t.frames[id]? = some new →
      ∃ old, s.frames[id]? = some old ∧ new.outer = old.outer ∧
        ∀ binding ∈ new.bindings, binding ∈ old.bindings ∨ binding.2.BuiltinsOnly)
    (reached : t.ReachesFrom frames id) : s.ReachesFrom frames id := by
  induction reached with
  | root member part => exact .root member part
  | outer _ found link ih =>
    obtain ⟨old, there, same, _⟩ := before _ _ found
    exact .outer ih there (same ▸ link)
  | bound _ found member part ih =>
    obtain ⟨old, there, _, bindings⟩ := before _ _ found
    rcases bindings _ member with kept | only
    · exact .bound ih there kept part
    · cases only _ part

/-- Every value that is bound in a frame that is reached has the property. -/
def AllReached (frames : List FrameId) (p : Value → Prop) (s : Store) : Prop :=
  ∀ (id : FrameId) (frame : Frame), s.ReachesFrom frames id → s.frames[id]? = some frame →
    ∀ binding ∈ frame.bindings, p binding.2

theorem AllBound.allReached {p : Value → Prop} {s : Store} (bound : s.AllBound p)
    (frames : List FrameId) : s.AllReached frames p :=
  fun id frame _ found => bound id frame found

namespace AllReached

variable {frames : List FrameId} {p : Value → Prop} {s : Store}

theorem imp {q : Value → Prop} (reached : s.AllReached frames p) (weaker : ∀ v, p v → q v) :
    s.AllReached frames q :=
  fun id frame here found binding member => weaker _ (reached id frame here found binding member)

theorem get? (reached : s.AllReached frames p) {frame : FrameId} (start : frame ∈ frames)
    {name : String} {v : Value} (found : s.get? frame name = some v) : p v := by
  obtain ⟨nearest, first, local?⟩ := Option.bind_eq_some_iff.1 found
  obtain ⟨holder, there, value⟩ := Option.bind_eq_some_iff.1 local?
  have onChain : nearest ∈ s.chain frame := List.mem_of_find?_eq_some first
  have here := (s.reachesFrom_self start).of_mem_chain onChain
  exact reached nearest holder here there _ (Frame.mem_of_get? value)

theorem record (reached : s.AllReached frames p) (event : Event) :
    (s.record event).AllReached frames p := by
  intro id frame here found
  refine reached id frame (here.of_later ?_) found
  intro id new there
  exact ⟨new, there, rfl, fun _ member => .inl member⟩

theorem set (reached : s.AllReached frames p) (frame : FrameId) (name : String) {v : Value}
    (only : v.BuiltinsOnly) (holds : p v) : (s.set frame name v).AllReached frames p := by
  have before : ∀ (id : FrameId) (new : Frame), (s.set frame name v).frames[id]? = some new →
      ∃ old, s.frames[id]? = some old ∧ new.outer = old.outer ∧
        ∀ binding ∈ new.bindings, binding ∈ old.bindings ∨ binding.2 = v := by
    intro id new found
    rw [getElem?_set] at found
    split at found
    · obtain ⟨old, there, rfl⟩ := Option.map_eq_some_iff.1 found
      exact ⟨old, there, rfl, fun _ => Frame.mem_setBinding⟩
    · exact ⟨new, found, rfl, fun _ member => .inl member⟩
  intro id new here found binding member
  have earlier : s.ReachesFrom frames id := by
    refine here.of_later fun id new found => ?_
    obtain ⟨old, there, same, bindings⟩ := before id new found
    refine ⟨old, there, same, fun binding member => (bindings binding member).imp_right ?_⟩
    intro made
    rwa [made]
  obtain ⟨old, there, _, bindings⟩ := before id new found
  rcases bindings binding member with kept | new
  · exact reached id old earlier there binding kept
  · rw [new]
    exact holds

end AllReached

end Store

/-- How a computation may end that reaches no closures but those of operators, if `R` is said of
what it returns. -/
structure Calculates (native : Prop) (frames : List FrameId) {α : Type} (R : α → Prop)
    (ended : Outcome α × Store) : Prop where
  reached : ended.2.AllReached frames (Value.Inert native)
  done : ∀ a, ended.1 = .done a → R a
  misuse : ∀ m, ended.1 = .failed (.misuse m) → ¬ native

namespace Calculates

variable {native : Prop} {frames : List FrameId} {α β : Type} {R : α → Prop} {S : β → Prop}
  {s : Store}

theorem of_done {a : α} (reached : s.AllReached frames (Value.Inert native)) (value : R a) :
    Calculates native frames R (.done a, s) := by
  refine ⟨reached, fun b ended => ?_, nofun⟩
  cases ended
  exact value

theorem of_fail (reached : s.AllReached frames (Value.Inert native)) (cause : Cause)
    (loc : Option Location) : Calculates native frames R (Eval.fail cause loc s) :=
  ⟨reached, nofun, nofun⟩

theorem of_tooDeep (reached : s.AllReached frames (Value.Inert native)) :
    Calculates native frames R (.tooDeep, s) :=
  ⟨reached, nofun, nofun⟩

theorem of_blame (reached : s.AllReached frames (Value.Inert native)) {v : Value}
    (plain : v.Plain native) (cause : Cause) (loc : Option Location) :
    Calculates native frames R (Eval.ofExcept (.error (v.blame cause loc)) s) := by
  refine ⟨reached, nofun, fun m failed given => ?_⟩
  have blamed := (plain.ofLanguage given).native.blame cause loc
  rw [blamed] at failed
  cases failed

theorem bind {m : Eval α} {next : α → Eval β} (first : Calculates native frames R (m s))
    (second : ∀ a t, t.AllReached frames (Value.Inert native) → R a →
      Calculates native frames S (next a t)) :
    Calculates native frames S ((m >>= next) s) := by
  show Calculates native frames S (m.bind next s)
  unfold Eval.bind
  generalize m s = ended at first
  obtain ⟨outcome, t⟩ := ended
  cases outcome with
  | done a => exact second a t first.reached (first.done a rfl)
  | failed f =>
    refine ⟨first.reached, nofun, fun m same => ?_⟩
    cases same
    exact first.misuse m rfl
  | tooDeep => exact .of_tooDeep first.reached

end Calculates

/-- The evaluator reaches no closures but those of operators. -/
def Calculating (native : Prop) (frames : List FrameId) (ev : Evaluator) : Prop :=
  ∀ (frame : FrameId) (form : Value) (s : Store), frame ∈ frames →
    s.AllReached frames (Value.Inert native) → form.Plain native →
    Calculates native frames (Value.Inert native) (ev frame form s)

section

variable {native : Prop} {frames : List FrameId} {ev : Evaluator} {frame : FrameId} {s : Store}

theorem lookup_calculates (start : frame ∈ frames)
    (reached : s.AllReached frames (Value.Inert native)) (name : String) (loc : Option Location) :
    Calculates native frames (Value.Inert native) (Eval.lookup frame name loc s) := by
  unfold Eval.lookup Store.lookup
  cases found : s.get? frame name with
  | none => exact ⟨reached, nofun, nofun⟩
  | some v => exact .of_done reached (reached.get? start found)

/-- A value that is no closure of a program is applied without evaluating anything. -/
theorem applyTo_calculates (reached : s.AllReached frames (Value.Inert native)) {callee : Value}
    (alone : callee.Inert native) {args : List Value} (inert : ∀ arg ∈ args, arg.Inert native)
    (loc : Option Location) :
    Calculates native frames (Value.Inert native) (applyTo ev callee args loc s) := by
  cases callee with
  | builtin code serial =>
    refine .bind (R := fun _ => True) (.of_done (reached.record _) trivial) ?_
    intro _ t reached _
    cases called : Operator.callCode code args loc with
    | ok v => exact .of_done reached (Operator.callCode_computed called).inert
    | error f =>
      refine ⟨reached, nofun, fun m failed given => ?_⟩
      have inRange : ∀ n place, Value.integer n place ∈ args → Integer.inRange n = true := by
        intro n place member
        apply (Integer.inRange_iff_pow n).2
        exact ((inert _ member).usable given).inRange n place (Value.self_mem_parts _)
      obtain ⟨op, rfl⟩ := (alone.usable given).operators code serial (Value.self_mem_parts _)
      rw [Operator.callCode_name] at called
      obtain ⟨cause, _, rfl⟩ := Operator.call_fault inRange called
      cases failed
  | closure => cases alone.not_closure
  | _ => exact .of_fail reached _ loc

variable (inner : Calculating native frames ev) (start : frame ∈ frames)
  (reached : s.AllReached frames (Value.Inert native))
include inner start reached

theorem evaluateEach_calculates {forms : List Value} (plain : ∀ form ∈ forms, form.Plain native) :
    Calculates native frames (fun vs => ∀ v ∈ vs, v.Inert native)
      (evaluateEach ev frame forms s) := by
  induction forms generalizing s with
  | nil => exact .of_done reached nofun
  | cons form rest ih =>
    refine .bind (inner frame form s start reached (plain form List.mem_cons_self)) ?_
    intro v t reached value
    refine .bind (ih reached fun next member => plain next (List.mem_cons_of_mem _ member)) ?_
    intro vs u reached values
    exact .of_done reached (List.forall_mem_cons.2 ⟨value, values⟩)

theorem evaluateBody_calculates {forms : List Value} (plain : ∀ form ∈ forms, form.Plain native) :
    Calculates native frames (Value.Inert native) (evaluateBody ev frame forms s) := by
  rw [evaluateBody_eq_last]
  refine .bind (evaluateEach_calculates inner start reached plain) ?_
  intro vs t reached values
  apply Calculates.of_done reached
  rcases vs.eq_nil_or_concat with rfl | ⟨before, last, rfl⟩
  · exact Value.inert_unit
  · simpa using values last (by simp)

theorem evaluateDefine_calculates {operands : List Value}
    (plain : ∀ operand ∈ operands, operand.Plain native) (loc : Option Location) :
    Calculates native frames (Value.Inert native) (evaluateDefine ev frame operands loc s) := by
  unfold evaluateDefine
  split
  · exact .of_fail reached _ loc
  · rename_i name own rest
    split
    · exact .of_fail reached _ _
    · rename_i form
      refine .bind (inner frame form s start reached (plain form (by simp))) ?_
      intro v t reached value
      refine .bind (R := fun _ => True)
        (.of_done (reached.set frame name value.builtinsOnly value) trivial) ?_
      intro _ u reached _
      exact .of_done reached Value.inert_unit
    · exact .of_fail reached _ loc
  · exact .of_blame reached (plain _ List.mem_cons_self) _ loc

theorem evaluateBranch_calculates {condition first : Value} (ofCondition : condition.Plain native)
    (ofFirst : first.Plain native) {second : Eval Value}
    (ofSecond : ∀ t, t.AllReached frames (Value.Inert native) →
      Calculates native frames (Value.Inert native) (second t)) (loc : Option Location) :
    Calculates native frames (Value.Inert native)
      (evaluateBranch ev frame loc condition first second s) := by
  refine .bind (inner frame condition s start reached ofCondition) ?_
  intro v t reached _
  split
  · exact inner frame first t start reached ofFirst
  · exact ofSecond t reached
  · exact .of_blame reached ofCondition _ loc

theorem evaluateConditional_calculates {operands : List Value}
    (plain : ∀ operand ∈ operands, operand.Plain native) (loc : Option Location) :
    Calculates native frames (Value.Inert native)
      (evaluateConditional ev frame operands loc s) := by
  unfold evaluateConditional
  split
  · rename_i condition first
    refine evaluateBranch_calculates inner start reached (plain condition (by simp))
      (plain first (by simp)) ?_ loc
    intro t reached
    exact .of_done reached Value.inert_unit
  · rename_i condition first second
    refine evaluateBranch_calculates inner start reached (plain condition (by simp))
      (plain first (by simp)) ?_ loc
    intro t reached
    exact inner frame second t start reached (plain second (by simp))
  · exact .of_fail reached _ loc

end

theorem step_calculating (costs : Costs) {native : Prop} {frames : List FrameId}
    {ev : Nat → Evaluator} (inner : ∀ levels, Calculating native frames (ev levels)) :
    Calculating native frames (step costs ev) := by
  intro frame form s start reached plain
  cases form with
  | symbol name loc => exact lookup_calculates start reached name loc
  | list items loc =>
    cases items with
    | nil => exact .of_done reached Value.inert_unit
    | cons head operands =>
      have inside : ∀ operand ∈ operands, operand.Plain native :=
        fun operand member => plain.child (List.mem_cons_of_mem _ member)
      simp only [step]
      cases special : SpecialForm.ofHead? head with
      | some keyword =>
        cases keyword with
        | define => exact evaluateDefine_calculates (inner _) start reached inside loc
        | conditional => exact evaluateConditional_calculates (inner _) start reached inside loc
        | lambda =>
          have noLambda := (plain.lambdaFree _ (Value.self_mem_parts _)).2
          simp [Value.isLambda, special] at noLambda
      | none =>
        refine .bind (inner 0 frame head s start reached (plain.child List.mem_cons_self)) ?_
        intro callee t reached ofCallee
        refine .bind (evaluateEach_calculates (inner _) start reached inside) ?_
        intro args u reached ofArgs
        exact applyTo_calculates reached ofCallee ofArgs loc
  | program forms loc =>
    exact evaluateBody_calculates (inner _) start reached fun form member => plain.child member
  | foreign kind text => exact .of_fail reached _ none
  | _ => exact .of_done reached plain.inert

theorem evaluate_calculating (costs : Costs) (limit : Nat) (native : Prop)
    (frames : List FrameId) : Calculating native frames (evaluate costs limit) := by
  induction limit using Nat.strongRecOn with
  | ind limit ih =>
    match limit with
    | 0 =>
      intro frame form s _ reached _
      rw [evaluate_zero]
      exact .of_tooDeep reached
    | limit + 1 =>
      rw [evaluate_succ]
      exact step_calculating costs fun levels => ih (limit - levels) (by omega)

/-- The most levels that lie between a form and a form right inside it. -/
def Costs.widest (costs : Costs) : Nat :=
  max (max costs.argument costs.definition) (max costs.branch costs.program)

namespace Task

/-- A task that reaches no closures but those of operators. -/
structure Calculates (native : Prop) (frames : List FrameId) (task : Task) : Prop where
  start : task.frame ∈ frames
  reached : task.store.AllReached frames (Value.Inert native)
  plain : task.form.Plain native

variable {native : Prop} {frames : List FrameId} {costs : Costs} {a b : Task}

namespace Calculates

theorem ends (calculates : a.Calculates native frames) (costs : Costs) :
    ScopedLisp.Calculates native frames (Value.Inert native) (a.run costs) :=
  evaluate_calculating costs a.limit native frames a.frame a.form a.store calculates.start
    calculates.reached calculates.plain

theorem later (calculates : a.Calculates native frames) {t : Store}
    (reached : t.AllReached frames (Value.Inert native)) :
    Calculates native frames ⟨a.limit, a.frame, a.form, t⟩ :=
  ⟨calculates.start, reached, calculates.plain⟩

theorem child (calculates : a.Calculates native frames) {child : Value}
    (inside : child ∈ a.form.children) (limit : Nat) :
    Calculates native frames ⟨limit, a.frame, child, a.store⟩ :=
  ⟨calculates.start, calculates.reached, calculates.plain.child inside⟩

theorem each_ends (calculates : a.Calculates native frames) (costs : Costs) (limit : Nat)
    {forms : List Value} (inside : ∀ form ∈ forms, form ∈ a.form.children) :
    ScopedLisp.Calculates native frames (fun vs => ∀ v ∈ vs, v.Inert native)
      (evaluateEach (evaluate costs limit) a.frame forms a.store) :=
  evaluateEach_calculates (evaluate_calculating costs limit native frames) calculates.start
    calculates.reached fun form member => calculates.plain.child (inside form member)

end Calculates

/-- What a task has evaluated for it is right inside its form, and no further away than the widest
step. -/
theorem Inner.calculates (inner : Inner costs a b) (calculates : a.Calculates native frames) :
    b.Calculates native frames ∧ b.form ∈ a.form.children ∧
      a.limit ≤ b.limit + (costs.widest + 1) := by
  unfold Costs.widest
  cases inner with
  | @head limit frame head operands loc s call =>
    have inside : head ∈ (Value.list (head :: operands) loc).children := List.mem_cons_self
    exact ⟨calculates.child inside limit, inside, by simp only; omega⟩
  | @argument limit frame head operand callee before rest values loc s t u call called evaluated =>
    have first := (calculates.child List.mem_cons_self limit).ends costs
    simp only [run, called] at first
    have between := calculates.later first.reached
    have second := between.each_ends costs (limit - costs.argument)
      fun form (member : form ∈ before) => List.mem_cons_of_mem _ (List.mem_append_left _ member)
    simp only [evaluated] at second
    have inside : operand ∈ (Value.list (head :: (before ++ operand :: rest)) loc).children :=
      List.mem_cons_of_mem _ (by simp)
    exact ⟨(between.later second.reached).child inside _, inside, by simp only; omega⟩
  | @body limit frame outer head form operands args before rest values params serial loc own bound
      s t u w call called evaluated accepted entered =>
    -- Only a closure that a program made has a body, and the value of the head is none.
    have first := (calculates.child List.mem_cons_self limit).ends costs
    simp only [run, called] at first
    cases (first.done _ rfl).not_closure
  | @definition limit frame head form name loc place s special =>
    have inside : form ∈ (Value.list [head, .symbol name place, form] loc).children :=
      List.mem_cons_of_mem _ (by simp)
    exact ⟨calculates.child inside _, inside, by simp only; omega⟩
  | @condition limit frame head condition first rest loc s special short =>
    have inside : condition ∈ (Value.list (head :: condition :: first :: rest) loc).children :=
      List.mem_cons_of_mem _ List.mem_cons_self
    exact ⟨calculates.child inside _, inside, by simp only; omega⟩
  | @first limit frame head condition first rest loc place s t special short decided =>
    have ended := (calculates.child (List.mem_cons_of_mem _ List.mem_cons_self)
      (limit - costs.branch)).ends costs
    simp only [run, decided] at ended
    have inside : first ∈ (Value.list (head :: condition :: first :: rest) loc).children :=
      List.mem_cons_of_mem _ (by simp)
    exact ⟨(calculates.later ended.reached).child inside _, inside, by simp only; omega⟩
  | @second limit frame head condition first second loc place s t special decided =>
    have ended := (calculates.child (List.mem_cons_of_mem _ List.mem_cons_self)
      (limit - costs.branch)).ends costs
    simp only [run, decided] at ended
    have inside : second ∈ (Value.list [head, condition, first, second] loc).children :=
      List.mem_cons_of_mem _ (by simp)
    exact ⟨(calculates.later ended.reached).child inside _, inside, by simp only; omega⟩
  | @form limit frame form before rest values loc s t evaluated =>
    have ended := calculates.each_ends costs (limit - costs.program)
      fun form (member : form ∈ before) => List.mem_append_left _ member
    simp only [evaluated] at ended
    have inside : form ∈ (Value.program (before ++ form :: rest) loc).children :=
      show form ∈ before ++ form :: rest by simp
    exact ⟨(calculates.later ended.reached).child inside _, inside, by simp only; omega⟩

/-- Tasks right inside each other are no more than their forms lie deep. -/
theorem Calculates.length_le_depth {tasks : List Task} (calculates : a.Calculates native frames)
    (chain : List.IsChain (Inner costs) (a :: tasks)) : tasks.length < a.form.depth := by
  induction tasks generalizing a with
  | nil => exact a.form.depth_pos
  | cons b rest ih =>
    obtain ⟨inner, further⟩ := List.isChain_cons_cons.1 chain
    obtain ⟨next, inside, _⟩ := inner.calculates calculates
    have shallower := Value.depth_lt_of_child inside
    have fewer := ih next further
    simp only [List.length_cons]
    omega

/-- Levels that are enough for a form are enough for every form that is evaluated inside it. -/
theorem Nested.enough (nested : Nested costs a b) (calculates : a.Calculates native frames)
    (enough : a.form.depth * (costs.widest + 1) ≤ a.limit) :
    b.Calculates native frames ∧ b.form.depth * (costs.widest + 1) ≤ b.limit := by
  induction nested with
  | refl => exact ⟨calculates, enough⟩
  | tail _ inner ih =>
    obtain ⟨before, left⟩ := ih
    obtain ⟨after, inside, near⟩ := inner.calculates before
    have shallower := Nat.mul_le_mul_right (costs.widest + 1) (Value.depth_lt_of_child inside)
    rw [Nat.succ_mul] at shallower
    exact ⟨after, by omega⟩

theorem Calculates.ne_tooDeep (calculates : a.Calculates native frames)
    (enough : a.form.depth * (costs.widest + 1) ≤ a.limit) : (a.run costs).1 ≠ .tooDeep := by
  intro deep
  obtain ⟨b, nested, exhausted⟩ := exists_nested_of_tooDeep deep
  obtain ⟨_, left⟩ := nested.enough calculates enough
  have positive : 0 < b.form.depth * (costs.widest + 1) :=
    Nat.mul_pos b.form.depth_pos (Nat.succ_pos costs.widest)
  omega

end Task

/-- How a program without `lambda` forms ends: with a value, with an error of the language, or with
a misuse if not all that it works with is of the language. -/
inductive Outcome.Settled (native : Prop) : Outcome Value → Prop
  | value {v : Value} (only : v.BuiltinsOnly) : Settled native (.done v)
  | error (e : Error) : Settled native (.failed (.error e))
  | misuse (m : Misuse) (handed : ¬ native) : Settled native (.failed (.misuse m))

theorem Task.Calculates.settled {native : Prop} {frames : List FrameId} {costs : Costs} {a : Task}
    (calculates : a.Calculates native frames)
    (enough : a.form.depth * (costs.widest + 1) ≤ a.limit) : (a.run costs).1.Settled native := by
  have ends := calculates.ends costs
  have shallow := calculates.ne_tooDeep enough
  cases ended : (a.run costs).1 with
  | done v => exact .value (ends.done v ended).builtinsOnly
  | failed f =>
    cases f with
    | error e => exact .error e
    | misuse m => exact .misuse m (ends.misuse m ended)
  | tooDeep => exact absurd ended shallow

/-- An evaluation that is asked for: a form, a frame to evaluate it in, and the levels that it may
take. -/
structure Request where
  limit : Nat
  frame : FrameId
  form : Value

namespace Store

/-- The store after evaluations one after the other, however each of them ends. -/
def afterEach (costs : Costs) (s : Store) (requests : List Request) : Store :=
  requests.foldl (fun s request => (evaluate costs request.limit request.frame request.form s).2) s

theorem AllReached.afterEach {native : Prop} {frames : List FrameId} {costs : Costs} {s : Store}
    (reached : s.AllReached frames (Value.Inert native)) {requests : List Request}
    (plain : ∀ request ∈ requests, request.frame ∈ frames ∧ request.form.Plain native) :
    (s.afterEach costs requests).AllReached frames (Value.Inert native) := by
  induction requests generalizing s with
  | nil => exact reached
  | cons request rest ih =>
    obtain ⟨start, form⟩ := plain request List.mem_cons_self
    have ended := evaluate_calculating costs request.limit native frames request.frame
      request.form s start reached form
    exact ih ended.reached fun next member => plain next (List.mem_cons_of_mem _ member)

end Store

theorem Session.evaluate_ne_tooDeep {s : Session} {form : Value}
    (shallow : (ScopedLisp.evaluate .usual s.levels s.root form s.store).1 ≠ .tooDeep)
    (after : Session) : s.evaluate form ≠ (.error .tooDeep, after) := by
  unfold evaluate run
  split
  · exact nofun
  · rename_i f store ended
    cases f <;> exact nofun
  · rename_i store ended
    exact absurd (congrArg Prod.fst ended) shallow

/-- From some frames no closures are reached but those of operators, and in these frames forms that
have no `lambda` form and no other closure in them are evaluated one after the other. Then each of
them ends with a value or with an error, as long as all that was handed in is of the language, if it
may take as many levels as it is deep. Levels that lie between forms add to each of these, so that
in sessions two for each are enough. No more evaluations lie inside each other than the form is
deep. Before and after it, however it ends, no other closures are reached. -/
theorem lambda_free_evaluation_ends {s : Store} {frames : List FrameId}
    (builtins : s.AllReached frames Value.BuiltinsOnly) (costs : Costs) {earlier : List Request}
    (asked : ∀ request ∈ earlier, request.frame ∈ frames ∧ request.form.LambdaFree)
    {frame : FrameId} (start : frame ∈ frames) {form : Value} (free : form.LambdaFree) :
    let t := s.afterEach costs earlier
    let native := s.AllReached frames Value.Usable ∧
      (∀ request ∈ earlier, request.form.OfLanguage) ∧ form.OfLanguage
    (∀ limit, form.depth ≤ limit → (evaluate .flat limit frame form t).1.Settled native) ∧
    (∀ limit, form.depth * (costs.widest + 1) ≤ limit →
      (evaluate costs limit frame form t).1.Settled native) ∧
    (∀ limit host, form.depth * 2 ≤ limit - host.evaluation →
      ∀ after, (Session.mk t frame limit host).evaluate form ≠ (.error .tooDeep, after)) ∧
    (∀ limit tasks, List.IsChain (Task.Inner costs) (⟨limit, frame, form, t⟩ :: tasks) →
      tasks.length + 1 ≤ form.depth) ∧
    t.AllReached frames Value.BuiltinsOnly ∧
    ∀ limit, (evaluate costs limit frame form t).2.AllReached frames Value.BuiltinsOnly := by
  intro t native
  -- At the start `native` is what it stands for; from there on it is carried along.
  have before : s.AllReached frames (Value.Inert native) := by
    intro id holder here found binding member
    refine ⟨builtins id holder here found binding member, fun given => ?_⟩
    exact given.1 id holder here found binding member
  have reached : t.AllReached frames (Value.Inert native) := by
    apply before.afterEach
    intro request member
    obtain ⟨inside, lambdaFree⟩ := asked request member
    exact ⟨inside, lambdaFree, fun given => given.2.1 request member⟩
  have calculates (limit : Nat) : Task.Calculates native frames ⟨limit, frame, form, t⟩ :=
    ⟨start, reached, free, fun given => given.2.2⟩
  refine ⟨?_, ?_, ?_, ?_, reached.imp fun _ inert => inert.builtinsOnly, ?_⟩
  · intro limit enough
    apply (calculates limit).settled
    simpa [Costs.widest, Costs.flat] using enough
  · intro limit enough
    exact (calculates limit).settled enough
  · intro limit host enough
    exact Session.evaluate_ne_tooDeep ((calculates (limit - host.evaluation)).ne_tooDeep enough)
  · intro limit tasks chain
    exact (calculates limit).length_le_depth chain
  · intro limit
    exact ((calculates limit).ends costs).reached.imp fun _ inert => inert.builtinsOnly

/-- The second form uses what the first one defines; two levels are too few for it, three are
enough. -/
theorem lambda_free_evaluation_ends_of_definition :
    let s : Store := ⟨#[⟨[("+", .builtin "+" 0)], none⟩], 1, []⟩
    let call : Value := .list [.symbol "+" none, .integer 1 none, .integer 2 none] none
    let define : Request := ⟨3, 0, .list [.symbol "define" none, .symbol "x" none, call] none⟩
    let form : Value := .list [.symbol "if" none, .bool true none,
      .list [.symbol "+" none, .symbol "x" none] none] none
    let t := s.afterEach .flat [define]
    s.AllReached [0] Value.BuiltinsOnly ∧ define.form.LambdaFree ∧ form.LambdaFree ∧
      form.depth = 3 ∧ (evaluate .flat 2 0 form t).1 = .tooDeep ∧
      (evaluate .flat 3 0 form t).1.Settled True := by
  intro s call define form t
  have bound {p : Value → Prop} (ofOperator : p (.builtin "+" 0)) :
      s.AllReached [0] p := by
    apply Store.AllBound.allReached
    intro id frame found binding member
    have first : id = 0 := Nat.lt_one_iff.1 (Array.getElem?_eq_some_iff.1 found).1
    subst first
    cases found
    rw [List.mem_singleton.1 member]
    exact ofOperator
  have builtins : s.AllReached [0] Value.BuiltinsOnly :=
    bound (by unfold Value.BuiltinsOnly; decide)
  have first : define.form.LambdaFree := by
    unfold Value.LambdaFree
    decide
  have free : form.LambdaFree := by
    unfold Value.LambdaFree
    decide
  have depth : form.depth = 3 := by decide
  have deep : (evaluate .flat 2 0 form t).1 = .tooDeep := by cbv
  have asked : ∀ request ∈ [define], request.frame ∈ [0] ∧ request.form.LambdaFree := by
    intro request member
    rw [List.mem_singleton.1 member]
    exact ⟨List.mem_singleton_self 0, first⟩
  have usable : s.AllReached [0] Value.Usable :=
    bound (Value.IsData.builtin (.arithmetic .add) 0).usable
  have ofLanguage : define.form.OfLanguage ∧ form.OfLanguage := by
    refine ⟨⟨?_, ?_, ?_⟩, ?_, ?_, ?_⟩
    · simp [define, call, Value.IsNative, Value.parts, Value.partsOfAll]
    · intro n place member
      have given : n = 1 ∧ place = none ∨ n = 2 ∧ place = none := by
        simpa [define, call, Value.parts, Value.partsOfAll] using member
      omega
    · simp [define, call, Value.parts, Value.partsOfAll]
    · simp [form, Value.IsNative, Value.parts, Value.partsOfAll]
    · simp [form, Value.IntegersInRange, Value.parts, Value.partsOfAll]
    · simp [form, Value.parts, Value.partsOfAll]
  have ends := lambda_free_evaluation_ends builtins .flat asked (List.mem_singleton_self 0) free
  have settled := ends.1 3 (Nat.le_of_eq depth)
  rw [eq_true (⟨usable, by simpa using ofLanguage.1, ofLanguage.2⟩ : _ ∧ _ ∧ _)] at settled
  exact ⟨builtins, first, free, depth, deep, settled⟩

end ScopedLisp
