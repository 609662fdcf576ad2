import ScopedLisp.Proofs.Discipline
import ScopedLisp.Proofs.References

set_option autoImplicit false

namespace ScopedLisp

namespace Frame

variable (x : String)

/-- The frame with a name left out. -/
def without (frame : Frame) : Frame :=
  { frame with bindings := frame.bindings.filter fun binding => binding.1 ≠ x }

variable {x}

theorem get?_without {name : String} (other : name ≠ x) (frame : Frame) :
    (frame.without x).get? name = frame.get? name := by
  obtain ⟨bindings, outer⟩ := frame
  simp only [without, get?]
  induction bindings with
  | nil => rfl
  | cons binding rest ih =>
    obtain ⟨first, v⟩ := binding
    by_cases own : first = x
    · rw [List.filter_cons_of_neg (by simp [own]), ih, lookup_cons_eq_ite, if_neg (own ▸ other)]
    · rw [List.filter_cons_of_pos (by simp [own]), lookup_cons_eq_ite, lookup_cons_eq_ite, ih]

theorem filter_setBinding (name : String) (v : Value) (bindings : List (String × Value)) :
    (setBinding name v bindings).filter (fun binding => binding.1 ≠ x) =
      if name = x then bindings.filter fun binding => binding.1 ≠ x
      else setBinding name v (bindings.filter fun binding => binding.1 ≠ x) := by
  induction bindings with
  | nil => by_cases own : name = x <;> simp [setBinding, own]
  | cons binding rest ih =>
    obtain ⟨first, w⟩ := binding
    by_cases same : first = name
    · subst same
      by_cases own : first = x <;> simp [setBinding, own]
    · by_cases own : first = x
      · -- The pair is left out, and the name that is bound is another one.
        have other : name ≠ x := own ▸ Ne.symm same
        simp_all [setBinding]
      · by_cases target : name = x <;> simp_all [setBinding]

theorem without_set (frame : Frame) (name : String) (v : Value) :
    (frame.set name v).without x =
      if name = x then frame.without x else (frame.without x).set name v := by
  simp only [without, set, filter_setBinding]
  split <;> rfl

theorem without_setAll (frame : Frame) (made : List (String × Value)) :
    (frame.setAll made).without x =
      (frame.without x).setAll (made.filter fun binding => binding.1 ≠ x) := by
  induction made generalizing frame with
  | nil => rfl
  | cons binding rest ih =>
    rw [setAll_cons, ih, without_set]
    by_cases own : binding.1 = x
    · rw [if_pos own, List.filter_cons_of_neg (by simp [own])]
    · rw [if_neg own, List.filter_cons_of_pos (by simp [own]), setAll_cons]

end Frame

namespace Store

variable (x : String)

/-- The store with a name left out of all frames, and without the journal. -/
def without (s : Store) : Store :=
  ⟨s.frames.map (Frame.without x), s.nextSerial, []⟩

/-- The stores agree in all bindings but those of the name. -/
def AgreeApart (s t : Store) : Prop :=
  s.without x = t.without x

/-- No closure that is bound under another name refers to the name in its body. -/
def BodiesAvoid (s : Store) : Prop :=
  (s.without x).AllBound (Value.BodiesAvoid x)

variable {x}

theorem getElem?_without (s : Store) (id : FrameId) :
    (s.without x).frames[id]? = s.frames[id]?.map (Frame.without x) :=
  Array.getElem?_map

theorem chain_without (s : Store) (frame : FrameId) :
    (s.without x).chain frame = s.chain frame := by
  induction frame using Nat.strongRecOn with
  | ind frame ih =>
    have links : (s.without x).frames[frame]?.map Frame.outer =
        s.frames[frame]?.map Frame.outer := by
      rw [getElem?_without, Option.map_map]
      rfl
    unfold chain
    rw [links]
    generalize s.frames[frame]?.map Frame.outer = link
    match link with
    | none => rfl
    | some none => rfl
    | some (some outer) =>
      by_cases older : outer < frame
      · simp only [older, ↓reduceIte, ih outer older]
      · simp only [older, ↓reduceIte]

theorem local?_without {name : String} (other : name ≠ x) (s : Store) (frame : FrameId) :
    (s.without x).local? frame name = s.local? frame name := by
  unfold local?
  rw [getElem?_without]
  cases s.frames[frame]? with
  | none => rfl
  | some found => exact Frame.get?_without other found

theorem get?_without {name : String} (other : name ≠ x) (s : Store) (frame : FrameId) :
    (s.without x).get? frame name = s.get? frame name := by
  simp only [get?, find?, chain_without, local?_without other]

theorem without_set (s : Store) (frame : FrameId) (name : String) (v : Value) :
    (s.set frame name v).without x =
      if name = x then s.without x else (s.without x).set frame name v := by
  have frames : (s.set frame name v).frames.map (Frame.without x) =
      if name = x then s.frames.map (Frame.without x)
      else (s.frames.map (Frame.without x)).modify frame (·.set name v) := by
    apply Array.ext_getElem?
    intro id
    rw [Array.getElem?_map, getElem?_set]
    by_cases own : name = x
    · by_cases here : frame = id <;> simp [here, own, Function.comp_def, Frame.without_set]
    · by_cases here : frame = id <;>
        simp [here, own, Array.getElem?_modify, Function.comp_def, Frame.without_set]
  unfold without
  rw [frames]
  split <;> rfl

theorem without_addFrame (s : Store) (frame : Frame) :
    (s.addFrame frame).2.without x = ((s.without x).addFrame (frame.without x)).2 := by
  simp [without, addFrame]

namespace AgreeApart

variable {s t : Store} (agree : s.AgreeApart x t)
include agree

theorem local? (frame : FrameId) {name : String} (other : name ≠ x) :
    s.local? frame name = t.local? frame name := by
  unfold AgreeApart at agree
  rw [← local?_without other s, agree, local?_without other]

theorem get? (frame : FrameId) {name : String} (other : name ≠ x) :
    s.get? frame name = t.get? frame name := by
  unfold AgreeApart at agree
  rw [← get?_without other s, agree, get?_without other]

theorem nextSerial : s.nextSerial = t.nextSerial := by
  have serials := congrArg Store.nextSerial agree
  exact serials

theorem size : s.frames.size = t.frames.size := by
  have sizes := congrArg (fun u : Store => u.frames.size) agree
  simpa [without] using sizes

theorem set (frame : FrameId) (name : String) (v : Value) :
    (s.set frame name v).AgreeApart x (t.set frame name v) := by
  unfold AgreeApart at *
  rw [without_set, without_set, agree]

theorem addFrame (frame : Frame) : (s.addFrame frame).2.AgreeApart x (t.addFrame frame).2 := by
  unfold AgreeApart at *
  rw [without_addFrame, without_addFrame, agree]

theorem takeSerial : s.takeSerial.2.AgreeApart x t.takeSerial.2 :=
  congrArg (fun u : Store => u.takeSerial.2) agree

end AgreeApart

namespace BodiesAvoid

variable {s : Store} (bodies : s.BodiesAvoid x)
include bodies

theorem get? {frame : FrameId} {name : String} (other : name ≠ x) {v : Value}
    (found : s.get? frame name = some v) : v.BodiesAvoid x :=
  AllBound.get? bodies ((get?_without other s frame).trans found)

theorem set (frame : FrameId) (name : String) {v : Value} (avoids : v.BodiesAvoid x) :
    (s.set frame name v).BodiesAvoid x := by
  unfold BodiesAvoid
  rw [without_set]
  split
  · exact bodies
  · exact AllBound.set bodies frame name avoids

theorem addFrame {frame : Frame} (avoid : ∀ binding ∈ frame.bindings, binding.2.BodiesAvoid x) :
    (s.addFrame frame).2.BodiesAvoid x := by
  unfold BodiesAvoid
  rw [without_addFrame]
  exact AllBound.addFrame bodies fun binding member => avoid binding (List.mem_filter.1 member).1

end BodiesAvoid

end Store

/-- Two runs end with the same outcome, on stores that agree apart from the name, and `R` is said of
what they return. -/
structure Store.SameRun {α : Type} (x : String) (R : α → Prop) (first second : Outcome α × Store) :
    Prop where
  outcome : first.1 = second.1
  agree : first.2.AgreeApart x second.2
  bodies : first.2.BodiesAvoid x
  done : ∀ a, first.1 = .done a → R a

/-- The computation cannot tell stores apart that agree apart from the name. -/
def Eval.Blind {α : Type} (x : String) (R : α → Prop) (m : Eval α) : Prop :=
  ∀ s t : Store, s.AgreeApart x t → s.BodiesAvoid x → Store.SameRun x R (m s) (m t)

namespace Eval.Blind

variable {α β : Type} {x : String} {R : α → Prop} {S : β → Prop}

theorem bind {m : Eval α} {next : α → Eval β} (first : m.Blind x R)
    (second : ∀ a, R a → (next a).Blind x S) : (m >>= next).Blind x S := by
  intro s t agree bodies
  have start := first s t agree bodies
  show Store.SameRun x S (m.bind next s) (m.bind next t)
  unfold Eval.bind
  generalize m s = ended at start
  generalize m t = ended' at start
  obtain ⟨outcome, u⟩ := ended
  obtain ⟨outcome', u'⟩ := ended'
  obtain ⟨same, agree, bodies, done⟩ := start
  cases same
  cases outcome with
  | done a => exact second a (done a rfl) u u' agree bodies
  | failed f => exact ⟨rfl, agree, bodies, nofun⟩
  | tooDeep => exact ⟨rfl, agree, bodies, nofun⟩

theorem ofExcept {result : Except Fault α} (ok : ∀ a, result = .ok a → R a) :
    (Eval.ofExcept result).Blind x R := by
  intro s t agree bodies
  cases result with
  | ok a =>
    refine ⟨rfl, agree, bodies, fun b same => ?_⟩
    cases same
    exact ok a rfl
  | error f => exact ⟨rfl, agree, bodies, nofun⟩

theorem pure {a : α} (value : R a) : (Pure.pure a : Eval α).Blind x R := by
  show (Eval.ofExcept (.ok a)).Blind x R
  exact ofExcept fun b same => Except.ok.inj same ▸ value

theorem fail (cause : Cause) (loc : Option Location) :
    (Eval.fail cause loc : Eval α).Blind x R := by
  show (Eval.ofExcept (.error (.error ⟨cause, loc⟩)) : Eval α).Blind x R
  exact ofExcept nofun

theorem lookup (frame : FrameId) {name : String} (other : name ≠ x) (loc : Option Location) :
    (Eval.lookup frame name loc).Blind x (Value.BodiesAvoid x) := by
  intro s t agree bodies
  unfold Eval.lookup Store.lookup
  rw [← agree.get? frame other]
  cases found : s.get? frame name with
  | none => exact ⟨rfl, agree, bodies, nofun⟩
  | some v =>
    refine ⟨rfl, agree, bodies, fun w same => ?_⟩
    cases same
    exact bodies.get? other found

theorem record (event : Event) : (Eval.modify (·.record event)).Blind x fun _ => True :=
  fun _ _ agree bodies => ⟨rfl, agree, bodies, fun _ _ => trivial⟩

theorem set (frame : FrameId) (name : String) {v : Value} (avoids : v.BodiesAvoid x) :
    (Eval.modify (·.set frame name v)).Blind x fun _ => True :=
  fun _ _ agree bodies =>
    ⟨rfl, agree.set frame name v, bodies.set frame name avoids, fun _ _ => trivial⟩

theorem takeSerial : (Eval.take Store.takeSerial).Blind x fun _ => True :=
  fun _ _ agree bodies =>
    ⟨congrArg Outcome.done agree.nextSerial, agree.takeSerial, bodies, fun _ _ => trivial⟩

theorem addFrame {frame : Frame} (avoid : ∀ binding ∈ frame.bindings, binding.2.BodiesAvoid x) :
    (Eval.take (·.addFrame frame)).Blind x fun _ => True :=
  fun _ _ agree bodies =>
    ⟨congrArg Outcome.done agree.size, agree.addFrame frame, bodies.addFrame avoid,
      fun _ _ => trivial⟩

end Eval.Blind

theorem Parameters.bodiesAvoid_of_bind {x : String} {params : List Param} {outer : FrameId}
    {args : List Value} {loc : Option Location} {bound : Frame}
    (avoid : ∀ arg ∈ args, arg.BodiesAvoid x) (accepted : bind params outer args loc = .ok bound) :
    ∀ binding ∈ bound.bindings, binding.2.BodiesAvoid x := by
  unfold bind at accepted
  split at accepted
  · cases accepted
    intro binding member
    rcases Frame.mem_setAll member with absent | ⟨pair, inside, same⟩
    · cases absent
    · rw [same]
      rcases Discipline.mem_pairs inside with direct | ⟨count, rest⟩
      · exact avoid _ direct
      · rw [rest]
        exact .of_children (by simp [Value.kind]) fun arg left =>
          avoid arg (List.mem_of_mem_drop left)
  · cases accepted

section Evaluation

variable {x : String}

theorem blind_evaluateLambda (frame : FrameId) {operands : List Value} (loc : Option Location)
    (avoid : ∀ form ∈ operands.tail, form.Avoids x) :
    (evaluateLambda frame operands loc).Blind x (Value.BodiesAvoid x) := by
  unfold evaluateLambda
  split
  · exact .fail _ _
  · refine .bind (R := fun _ => True) (.ofExcept fun _ _ => trivial) fun params _ => ?_
    refine .bind .takeSerial fun serial _ => ?_
    exact .pure (.closure avoid)

variable {ev : Evaluator}
  (inner : ∀ frame form, form.Avoids x → (ev frame form).Blind x (Value.BodiesAvoid x))
include inner

theorem blind_evaluateEach (frame : FrameId) {forms : List Value}
    (avoid : ∀ form ∈ forms, form.Avoids x) :
    (evaluateEach ev frame forms).Blind x fun vs => ∀ v ∈ vs, v.BodiesAvoid x := by
  induction forms with
  | nil => exact .pure nofun
  | cons form rest ih =>
    obtain ⟨first, others⟩ := List.forall_mem_cons.1 avoid
    refine .bind (inner frame form first) fun v value => ?_
    refine .bind (ih others) fun vs values => ?_
    exact .pure (List.forall_mem_cons.2 ⟨value, values⟩)

theorem blind_evaluateBody (frame : FrameId) {forms : List Value}
    (avoid : ∀ form ∈ forms, form.Avoids x) :
    (evaluateBody ev frame forms).Blind x (Value.BodiesAvoid x) := by
  induction forms with
  | nil => exact .pure .unit
  | cons form rest ih =>
    obtain ⟨first, others⟩ := List.forall_mem_cons.1 avoid
    match rest with
    | [] => exact inner frame form first
    | next :: more => exact .bind (inner frame form first) fun _ _ => ih others

theorem blind_applyTo {callee : Value} (ofCallee : callee.BodiesAvoid x) {args : List Value}
    (ofArgs : ∀ arg ∈ args, arg.BodiesAvoid x) (loc : Option Location) :
    (applyTo ev callee args loc).Blind x (Value.BodiesAvoid x) := by
  unfold applyTo
  split
  · refine .bind (.record _) fun _ _ => .ofExcept fun v success => ?_
    exact .of_computed (Operator.callCode_computed success)
  · rename_i params body outer _ _
    refine .bind (.record _) fun _ _ => ?_
    refine .bind (R := fun bound => ∀ binding ∈ bound.bindings, binding.2.BodiesAvoid x) ?_ ?_
    · refine .ofExcept fun bound success => ?_
      exact Parameters.bodiesAvoid_of_bind ofArgs (except_ok_of_mapError success)
    · intro bound avoid
      refine .bind (.addFrame avoid) fun frame _ => ?_
      exact blind_evaluateBody inner frame ofCallee.inside
  · exact .fail _ _

theorem blind_evaluateDefine (frame : FrameId) {operands : List Value} (loc : Option Location)
    (avoid : ∀ form ∈ operands.tail, form.Avoids x) :
    (evaluateDefine ev frame operands loc).Blind x (Value.BodiesAvoid x) := by
  unfold evaluateDefine
  split
  · exact .fail _ _
  · rename_i name _ _
    split
    · exact .fail _ _
    · rename_i form
      refine .bind (inner frame form (avoid form List.mem_cons_self)) fun v value => ?_
      exact .bind (.set frame name value) fun _ _ => .pure .unit
    · exact .fail _ _
  · exact .ofExcept nofun

theorem blind_evaluateBranch (frame : FrameId) (loc : Option Location) {condition first : Value}
    (ofCondition : condition.Avoids x) (ofFirst : first.Avoids x) {second : Eval Value}
    (ofSecond : second.Blind x (Value.BodiesAvoid x)) :
    (evaluateBranch ev frame loc condition first second).Blind x (Value.BodiesAvoid x) := by
  refine .bind (inner frame condition ofCondition) fun v _ => ?_
  split
  · exact inner frame first ofFirst
  · exact ofSecond
  · exact .ofExcept nofun

theorem blind_evaluateConditional (frame : FrameId) {operands : List Value} (loc : Option Location)
    (avoid : ∀ form ∈ operands, form.Avoids x) :
    (evaluateConditional ev frame operands loc).Blind x (Value.BodiesAvoid x) := by
  unfold evaluateConditional
  split
  · rename_i condition first
    exact blind_evaluateBranch inner frame loc (avoid condition (by simp)) (avoid first (by simp))
      (.pure .unit)
  · rename_i condition first second
    exact blind_evaluateBranch inner frame loc (avoid condition (by simp)) (avoid first (by simp))
      (inner frame second (avoid second (by simp)))
  · exact .fail _ _

end Evaluation

theorem blind_step {x : String} (costs : Costs) {ev : Nat → Evaluator}
    (inner : ∀ levels frame form, form.Avoids x →
      (ev levels frame form).Blind x (Value.BodiesAvoid x))
    (frame : FrameId) {form : Value} (avoids : form.Avoids x) :
    (step costs ev frame form).Blind x (Value.BodiesAvoid x) := by
  cases form with
  | symbol name loc =>
    have other : name ≠ x := fun same => avoids.references (by simp [Value.references, same])
    exact .lookup frame other loc
  | list items loc =>
    cases items with
    | nil => exact .pure .unit
    | cons head operands =>
      simp only [step]
      cases special : SpecialForm.ofHead? head with
      | some keyword =>
        have forms := avoids.special special
        cases keyword with
        | define => exact blind_evaluateDefine (inner _) frame loc forms
        | conditional => exact blind_evaluateConditional (inner _) frame loc forms
        | lambda => exact blind_evaluateLambda frame loc forms
      | none =>
        obtain ⟨ofHead, ofOperands⟩ := List.forall_mem_cons.1 (avoids.call special)
        refine .bind (inner 0 frame head ofHead) fun callee value => ?_
        refine .bind (blind_evaluateEach (inner _) frame ofOperands) fun args values => ?_
        exact blind_applyTo (inner _) value values loc
  | program forms loc => exact blind_evaluateBody (inner _) frame avoids.program
  | foreign kind text => exact .fail _ _
  | _ => exact .pure avoids.bodies

theorem blind_evaluate {x : String} (costs : Costs) (limit : Nat) (frame : FrameId) {form : Value}
    (avoids : form.Avoids x) :
    (evaluate costs limit frame form).Blind x (Value.BodiesAvoid x) := by
  induction limit using Nat.strongRecOn generalizing frame form with
  | ind limit ih =>
    match limit with
    | 0 =>
      rw [evaluate_zero]
      exact fun _ _ agree bodies => ⟨rfl, agree, bodies, nofun⟩
    | limit + 1 =>
      rw [evaluate_succ]
      refine blind_step costs (fun levels frame form avoids => ?_) frame avoids
      exact ih (limit - levels) (by omega) frame avoids

namespace Store

/-- The second store is the first with the name bound in one way: in a frame that is there, by a
definition that has been evaluated, or by a parameter of the call that a new frame is made for. -/
inductive Bound (x : String) : Store → Store → Prop
  | set (s : Store) (frame : FrameId) (v : Value) : Bound x s (s.set frame x v)
  | define (s : Store) (costs : Costs) (limit : Nat) (frame : FrameId) (definition : Value)
      (head target loc : Option Location) :
      Bound x (evaluate costs (limit - costs.definition) frame definition s).2
        (evaluate costs (limit + 1) frame
          (.list [.symbol "define" head, .symbol x target, definition] loc) s).2
  | parameter (s : Store) (params : List Param) (outer : FrameId) (args : List Value) :
      Bound x
        (s.addFrame ((Frame.empty (some outer)).setAll
          ((Parameters.pairs params args).filter fun binding => binding.1 ≠ x))).2
        (s.addFrame ((Frame.empty (some outer)).setAll (Parameters.pairs params args))).2

theorem agreeApart_set (x : String) (s : Store) (frame : FrameId) (v : Value) :
    s.AgreeApart x (s.set frame x v) := by
  unfold AgreeApart
  rw [without_set, if_pos rfl]

/-- A `define` does no more to the store than its definition does, and the binding. -/
theorem agreeApart_evaluateDefine (x : String) (ev : Evaluator) (frame : FrameId)
    (definition : Value) (target loc : Option Location) (s : Store) :
    (ev frame definition s).2.AgreeApart x
      (evaluateDefine ev frame [.symbol x target, definition] loc s).2 := by
  rcases Eval.bind_stops_or_goes_on (ev frame definition)
    (fun v => Eval.modify (·.set frame x v) >>= fun _ => Pure.pure Value.unit) s
    with stopped | ⟨v, t, ended, goes⟩
  · exact (congrArg (without x) stopped).symm
  · rw [ended]
    exact (agreeApart_set x t frame v).trans (congrArg (fun ended => ended.2.without x) goes).symm

theorem Bound.agreeApart {x : String} {s t : Store} (bound : Bound x s t) : s.AgreeApart x t := by
  cases bound with
  | set s frame v => exact agreeApart_set x s frame v
  | define s costs limit frame definition head target loc =>
    rw [evaluate_succ]
    exact agreeApart_evaluateDefine x _ frame definition target loc s
  | parameter s params outer args =>
    unfold AgreeApart
    rw [without_addFrame, without_addFrame, Frame.without_setAll, Frame.without_setAll,
      List.filter_filter]
    simp

end Store

/-- The computation has the same outcome on both stores, and the stores it leaves agree apart from
the name. -/
structure Eval.SameApart {α : Type} (x : String) (m : Eval α) (s t : Store) : Prop where
  outcome : (m s).1 = (m t).1
  agree : (m s).2.AgreeApart x (m t).2

/-- If neither a form nor a closure of the store refers to a name, then the evaluation of the form
does not depend on the bindings of the name: on a store that agrees with the first in all others, it
has the same outcome and leaves a store that agrees so too. Stores agree so if the name is bound in
one of them and not in the other, in whatever way that came about. No special form refers to the
name that it is headed by. -/
theorem unreferenced_name_inert {x : String} {s t : Store} (bodies : s.BodiesAvoid x)
    (agree : s.AgreeApart x t) (costs : Costs) (limit : Nat) (frame : FrameId) :
    (∀ form : Value, form.Avoids x → (evaluate costs limit frame form).SameApart x s t) ∧
    (∀ (keyword : SpecialForm) (operands : List Value) (head loc : Option Location),
      SpecialForm.ofName? x = some keyword →
      (∀ form ∈ keyword.forms operands, form.Avoids x) →
      (∀ operand ∈ operands, operand.BodiesAvoid x) →
      (evaluate costs limit frame (.list (.symbol x head :: operands) loc)).SameApart x s t) ∧
    (∀ u v : Store, Store.Bound x u v → u.AgreeApart x v) ∧
    ∀ u v : Store, u.AgreeApart x v → ∀ (holder : FrameId) (name : String), name ≠ x →
      u.local? holder name = v.local? holder name := by
  have same (form : Value) (avoids : form.Avoids x) :
      (evaluate costs limit frame form).SameApart x s t := by
    obtain ⟨outcome, agree, _, _⟩ := blind_evaluate costs limit frame avoids s t agree bodies
    exact ⟨outcome, agree⟩
  refine ⟨same, fun keyword operands head loc special avoid bodies => ?_, fun u v => ?_, ?_⟩
  · exact same _ (.of_keyword special avoid bodies)
  · exact Store.Bound.agreeApart
  · exact fun u v agree holder name other => agree.local? holder other

/-- A closure branches, and the name of the branching form is bound where it was made. -/
theorem unreferenced_name_inert_of_if :
    let operands : List Value := [.bool true none, .integer 1 none, .integer 2 none]
    let branching : Value := .list (.symbol "if" none :: operands) none
    let s := (Store.empty.addFrame (.empty none)).2.set 0 "f" (.closure [] [branching] 0 0 none)
    let t := s.set 0 "if" (.bool false none)
    s.BodiesAvoid "if" ∧ s.AgreeApart "if" t ∧
      (evaluate .usual 9 0 (.list [.symbol "f" none] none)).SameApart "if" s t := by
  intro operands branching s t
  have literals : ∀ form ∈ operands, form.Avoids "if" := by
    simp only [operands, List.forall_mem_cons]
    exact ⟨⟨nofun, .of_children (by decide) nofun⟩, ⟨nofun, .of_children (by decide) nofun⟩,
      ⟨nofun, .of_children (by decide) nofun⟩, nofun⟩
  have body : ∀ form ∈ [branching], form.Avoids "if" := by
    intro form member
    rw [List.mem_singleton.1 member]
    exact .of_keyword rfl literals fun operand inside => (literals operand inside).bodies
  have nothing : Store.empty.BodiesAvoid "if" := fun id frame found => by
    simp [Store.without, Store.empty] at found
  have root : (Store.empty.addFrame (.empty none)).2.BodiesAvoid "if" :=
    nothing.addFrame fun binding member => absurd member List.not_mem_nil
  have bodies : s.BodiesAvoid "if" := root.set 0 "f" (.closure body)
  have call : (Value.list [.symbol "f" none] none).Avoids "if" := by
    refine ⟨by decide, .of_children (by decide) fun child member => ?_⟩
    rw [List.mem_singleton.1 member]
    exact .of_children (by decide) nofun
  have agree : s.AgreeApart "if" t := Store.agreeApart_set "if" s 0 (.bool false none)
  exact ⟨bodies, agree, (unreferenced_name_inert bodies agree .usual 9 0).1 _ call⟩

end ScopedLisp
