import ScopedLisp.Session

set_option autoImplicit false

namespace ScopedLisp

namespace Value

mutual

/-- The names that `define` forms of a form bind, those inside `lambda` forms left out. A `define`
that is malformed binds nothing and evaluates nothing. -/
def targets : Value → List String
  | list (head :: operands) _ =>
    match SpecialForm.ofHead? head with
    | some .lambda => []
    | some .define =>
      match operands with
      | [symbol name _, _] => name :: targetsOfAll operands
      | _ => []
    | _ => targets head ++ targetsOfAll operands
  | program forms _ => targetsOfAll forms
  | _ => []

def targetsOfAll : List Value → List String
  | [] => []
  | form :: rest => targets form ++ targetsOfAll rest

end

end Value

namespace Store

/-- No frame of the first store is lost in the second, and none is changed but by bindings that are
made in `frame` under some of the `names`. -/
def ChangedOnly (frame : FrameId) (names : List String) (s t : Store) : Prop :=
  ∀ (id : FrameId) (old : Frame), s.frames[id]? = some old →
    ∃ made : List (String × Value),
      (∀ binding ∈ made, id = frame ∧ binding.1 ∈ names) ∧ t.frames[id]? = some (old.setAll made)

namespace ChangedOnly

variable {frame : FrameId} {names : List String}

theorem of_kept {s t : Store}
    (kept : ∀ (id : FrameId) (old : Frame), s.frames[id]? = some old → t.frames[id]? = some old) :
    ChangedOnly frame names s t := by
  intro id old found
  exact ⟨[], by simp, kept id old found⟩

theorem of_frames_eq {s t : Store} (same : t.frames = s.frames) : ChangedOnly frame names s t :=
  of_kept fun id old found => by rw [same, found]

theorem trans {s t u : Store} (first : ChangedOnly frame names s t)
    (second : ChangedOnly frame names t u) : ChangedOnly frame names s u := by
  intro id old found
  obtain ⟨made, allowed, between⟩ := first id old found
  obtain ⟨further, allowedToo, after⟩ := second id _ between
  refine ⟨made ++ further, ?_, ?_⟩
  · intro binding member
    rcases List.mem_append.1 member with member | member
    · exact allowed binding member
    · exact allowedToo binding member
  · rw [after, Frame.setAll_append]

theorem mono {more : List String} {s t : Store} (subset : names ⊆ more)
    (changed : ChangedOnly frame names s t) : ChangedOnly frame more s t := by
  intro id old found
  obtain ⟨made, allowed, after⟩ := changed id old found
  exact ⟨made, fun binding member =>
    ⟨(allowed binding member).1, subset (allowed binding member).2⟩, after⟩

theorem kept_of_ne {s t : Store} (changed : ChangedOnly frame names s t) {id : FrameId}
    {old : Frame} (found : s.frames[id]? = some old) (other : id ≠ frame) :
    t.frames[id]? = some old := by
  obtain ⟨made, allowed, after⟩ := changed id old found
  match made with
  | [] => exact after
  | binding :: _ => exact absurd (allowed binding List.mem_cons_self).1 other

theorem kept_of_nil {s t : Store} (changed : ChangedOnly frame [] s t) {id : FrameId} {old : Frame}
    (found : s.frames[id]? = some old) : t.frames[id]? = some old := by
  obtain ⟨made, allowed, after⟩ := changed id old found
  match made with
  | [] => exact after
  | binding :: _ =>
    have impossible := (allowed binding List.mem_cons_self).2
    cases impossible

theorem set (s : Store) (frame : FrameId) (name : String) (v : Value) :
    ChangedOnly frame [name] s (s.set frame name v) := by
  intro id old found
  by_cases here : frame = id
  · refine ⟨[(name, v)], ?_, ?_⟩
    · intro binding member
      rw [List.mem_singleton.1 member]
      exact ⟨here.symm, List.mem_singleton_self name⟩
    · rw [getElem?_set, if_pos here, found]
      rfl
  · exact ⟨[], by simp, by rw [getElem?_set, if_neg here, found]; rfl⟩

end ChangedOnly

end Store

namespace Eval

/-- Whatever store the computation starts on and however it ends, it changes that store in `frame`
under the `names` only. -/
def WritesOnly {α : Type} (frame : FrameId) (names : List String) (m : Eval α) : Prop :=
  ∀ s : Store, s.ChangedOnly frame names (m s).2

namespace WritesOnly

variable {α β : Type} {frame : FrameId} {names : List String}

theorem of_pure (a : α) : (Pure.pure a : Eval α).WritesOnly frame names :=
  fun _ => .of_frames_eq rfl

theorem of_fail (cause : Cause) (loc : Option Location) :
    (Eval.fail cause loc : Eval α).WritesOnly frame names :=
  fun _ => .of_frames_eq rfl

theorem of_tooDeep : (Eval.tooDeep : Eval α).WritesOnly frame names :=
  fun _ => .of_frames_eq rfl

theorem of_ofExcept (result : Except Fault α) : (Eval.ofExcept result).WritesOnly frame names := by
  intro s
  cases result with
  | ok a => exact .of_frames_eq rfl
  | error fault => exact .of_frames_eq rfl

theorem of_lookup (frame' : FrameId) (name : String) (loc : Option Location) :
    (Eval.lookup frame' name loc).WritesOnly frame names := by
  intro s
  apply Store.ChangedOnly.of_frames_eq
  unfold Eval.lookup
  split <;> rfl

theorem bind {m : Eval α} {next : α → Eval β} (first : m.WritesOnly frame names)
    (second : ∀ a, (next a).WritesOnly frame names) : (m >>= next).WritesOnly frame names :=
  rel_bind (R := Store.ChangedOnly frame names) .trans first second

theorem mono {more : List String} {m : Eval α} (subset : names ⊆ more)
    (writes : m.WritesOnly frame names) : m.WritesOnly frame more :=
  fun s => (writes s).mono subset

/-- What works in a frame that is made for it leaves all frames that were there before as they
were. -/
theorem of_newFrame (bound : Frame) {next : FrameId → Eval α} {made : FrameId → List String}
    (inside : ∀ new, (next new).WritesOnly new (made new)) :
    (Eval.take (·.addFrame bound) >>= next).WritesOnly frame names := by
  intro s
  apply Store.ChangedOnly.of_kept
  intro id old found
  have older : id < s.frames.size := (Array.getElem?_eq_some_iff.1 found).1
  have changed := inside s.frames.size (s.addFrame bound).2
  exact changed.kept_of_ne (Store.getElem?_addFrame_of_some bound found) (Nat.ne_of_lt older)

end WritesOnly

end Eval

section

/- The evaluations further in are assumed to write only what their own forms define. -/
variable {ev : Evaluator} (inner : ∀ frame form, (ev frame form).WritesOnly frame form.targets)
include inner

theorem evaluateEach_writesOnly (frame : FrameId) (forms : List Value) :
    (evaluateEach ev frame forms).WritesOnly frame (Value.targetsOfAll forms) := by
  induction forms with
  | nil => exact .of_pure []
  | cons form rest ih =>
    unfold evaluateEach Value.targetsOfAll
    refine .bind ((inner frame form).mono (List.subset_append_left ..)) fun v => ?_
    refine .bind (ih.mono (List.subset_append_right ..)) fun vs => ?_
    exact .of_pure (v :: vs)

theorem evaluateBody_writesOnly (frame : FrameId) (forms : List Value) :
    (evaluateBody ev frame forms).WritesOnly frame (Value.targetsOfAll forms) := by
  induction forms with
  | nil => exact .of_pure _
  | cons form rest ih =>
    have first := (inner frame form).mono
      (List.subset_append_left form.targets (Value.targetsOfAll rest))
    match rest with
    | [] => exact first
    | next :: more =>
      refine .bind first fun _ => ?_
      exact ih.mono (List.subset_append_right form.targets (Value.targetsOfAll (next :: more)))

/-- A call changes no frame that was there before it. -/
theorem applyTo_writesOnly (callee : Value) (args : List Value) (loc : Option Location)
    (frame : FrameId) (names : List String) :
    (applyTo ev callee args loc).WritesOnly frame names := by
  unfold applyTo
  split
  · refine .bind (fun _ => .of_frames_eq rfl) fun _ => ?_
    exact .of_ofExcept _
  · refine .bind (fun _ => .of_frames_eq rfl) fun _ => ?_
    refine .bind (.of_ofExcept _) fun bound => ?_
    exact .of_newFrame bound fun new => evaluateBody_writesOnly inner new _
  · exact .of_fail _ _

theorem evaluateDefine_writesOnly (head : Value) (operands : List Value) (frame : FrameId)
    (loc place : Option Location) (special : SpecialForm.ofHead? head = some .define) :
    (evaluateDefine ev frame operands loc).WritesOnly frame
      (Value.list (head :: operands) place).targets := by
  unfold evaluateDefine
  split
  · exact .of_fail _ _
  · split
    · exact .of_fail _ _
    · rename_i name at_ _ form
      have targets : (Value.list [head, .symbol name at_, form] place).targets =
          name :: form.targets := by
        simp [Value.targets, Value.targetsOfAll, special]
      rw [targets]
      refine .bind ((inner frame form).mono (List.subset_cons_self ..)) fun v => ?_
      refine .bind ?_ fun _ => .of_pure _
      intro s
      exact (Store.ChangedOnly.set s frame name v).mono (by simp)
    · exact .of_fail _ _
  · exact .of_ofExcept _

theorem evaluateBranch_writesOnly (frame : FrameId) (loc : Option Location)
    (condition first : Value) (second : Eval Value) (names : List String)
    (ofCondition : condition.targets ⊆ names) (ofFirst : first.targets ⊆ names)
    (ofSecond : second.WritesOnly frame names) :
    (evaluateBranch ev frame loc condition first second).WritesOnly frame names := by
  unfold evaluateBranch
  refine .bind ((inner frame condition).mono ofCondition) fun v => ?_
  split
  · exact (inner frame first).mono ofFirst
  · exact ofSecond
  · exact .of_ofExcept _

theorem evaluateConditional_writesOnly (frame : FrameId) (operands : List Value)
    (loc : Option Location) :
    (evaluateConditional ev frame operands loc).WritesOnly frame
      (Value.targetsOfAll operands) := by
  unfold evaluateConditional
  split
  · rename_i condition first
    apply evaluateBranch_writesOnly inner
    · simp [Value.targetsOfAll]
    · simp [Value.targetsOfAll]
    · exact .of_pure _
  · rename_i condition first second
    apply evaluateBranch_writesOnly inner
    · simp [Value.targetsOfAll]
    · simp [Value.targetsOfAll]
    · exact (inner frame second).mono (by simp [Value.targetsOfAll])
  · exact .of_fail _ _

end

theorem evaluateLambda_writesOnly (frame : FrameId) (operands : List Value)
    (loc : Option Location) (names : List String) :
    (evaluateLambda frame operands loc).WritesOnly frame names := by
  unfold evaluateLambda
  split
  · exact .of_fail _ _
  · refine .bind (.of_ofExcept _) fun params => ?_
    refine .bind (fun _ => .of_frames_eq rfl) fun serial => ?_
    exact .of_pure _

theorem step_writesOnly (costs : Costs) {ev : Nat → Evaluator}
    (inner : ∀ levels frame form, (ev levels frame form).WritesOnly frame form.targets)
    (frame : FrameId) (form : Value) :
    (step costs ev frame form).WritesOnly frame form.targets := by
  unfold step
  split
  · exact .of_lookup _ _ _
  · exact .of_pure _
  · rename_i head operands loc
    split
    · rename_i special
      exact evaluateDefine_writesOnly (inner _) head operands frame loc loc special
    · rename_i special
      simp only [Value.targets, special]
      exact (evaluateConditional_writesOnly (inner _) frame operands loc).mono
        (List.subset_append_right ..)
    · exact evaluateLambda_writesOnly _ _ _ _
    · rename_i special
      simp only [Value.targets, special]
      refine .bind ((inner 0 frame head).mono (List.subset_append_left ..)) fun callee => ?_
      refine .bind ?_ fun args => applyTo_writesOnly (inner _) _ _ _ _ _
      exact (evaluateEach_writesOnly (inner _) frame operands).mono (List.subset_append_right ..)
  · exact evaluateBody_writesOnly (inner _) frame _
  · exact .of_fail _ _
  · exact .of_pure _

/-- An evaluation writes only what its form defines, in the frame it is evaluated in. -/
theorem evaluate_writesOnly (costs : Costs) (limit : Nat) (frame : FrameId) (form : Value) :
    (evaluate costs limit frame form).WritesOnly frame form.targets := by
  induction limit using Nat.strongRecOn generalizing frame form with
  | ind limit ih =>
    match limit with
    | 0 =>
      rw [evaluate_zero]
      exact .of_tooDeep
    | limit + 1 =>
      rw [evaluate_succ]
      apply step_writesOnly
      intro levels
      exact ih (limit - levels) (by omega)

theorem evaluateInside_writesOnly (costs : Costs) (limit levels : Nat) (frame : FrameId)
    (form : Value) :
    (evaluateInside costs limit levels frame form).WritesOnly frame form.targets := by
  rw [evaluateInside_eq]
  exact evaluate_writesOnly _ _ _ _

/-- However an evaluation in `frame` ends, every other frame is as it was before, and in `frame`
bindings were made only under names that the form defines. However a call ends, every frame is as it
was before. -/
theorem evaluation_frame_law (costs : Costs) (limit : Nat) (s : Store) (id : FrameId) (old : Frame)
    (found : s.frames[id]? = some old) :
    (∀ (frame : FrameId) (form : Value),
      (id ≠ frame → (evaluate costs limit frame form s).2.frames[id]? = some old) ∧
      (id = frame → ∃ made : List (String × Value),
        (evaluate costs limit frame form s).2.frames[id]? = some (old.setAll made) ∧
        (∀ binding ∈ made, binding.1 ∈ form.targets) ∧
        ∀ name, name ∉ form.targets → (old.setAll made).get? name = old.get? name)) ∧
    (∀ (levels : Nat) (callee : Value) (args : List Value) (loc : Option Location),
      (applyTo (evaluateInside costs limit levels) callee args loc s).2.frames[id]? = some old) ∧
    ∀ (session : Session) (callee : Value) (args : List Value) (loc : Option Location),
      session.store = s → (session.call callee args loc).2.store.frames[id]? = some old := by
  have call (costs : Costs) (limit levels : Nat) (callee : Value) (args : List Value)
      (loc : Option Location) :
      (applyTo (evaluateInside costs limit levels) callee args loc s).2.frames[id]? = some old :=
    Store.ChangedOnly.kept_of_nil
      (applyTo_writesOnly (evaluateInside_writesOnly costs limit levels) callee args loc id [] s)
      found
  refine ⟨fun frame form => ?_, call costs limit, ?_⟩
  · have changed := evaluate_writesOnly costs limit frame form s
    refine ⟨changed.kept_of_ne found, fun _ => ?_⟩
    obtain ⟨made, allowed, after⟩ := changed id old found
    refine ⟨made, after, fun binding member => (allowed binding member).2, fun name undefined => ?_⟩
    apply Frame.get?_setAll_of_notMem
    rintro binding member rfl
    exact undefined (allowed binding member).2
  · rintro session callee args loc rfl
    rw [Session.call, Session.store_run]
    exact call .usual session.levels Costs.usual.call callee args loc

/-- The body of the closure defines the name that its outer frame binds, and the binding there
stays. -/
theorem evaluation_frame_law_of_shadowing :
    let outer : Frame := ⟨[("x", .integer 1 none)], none⟩
    let body : Value := .list [.symbol "define" none, .symbol "x" none, .symbol "y" none] none
    let callee : Value := .closure [⟨"y", false, none⟩] [body] 0 0 none
    let s : Store := ⟨#[outer, ⟨[("f", callee)], some 0⟩], 1, []⟩
    let form : Value := .list [.symbol "f" none, .integer 2 none] none
    s.frames[0]? = some outer ∧ (evaluate .usual 9 1 form s).2.frames[0]? = some outer := by
  intro outer body callee s form
  exact ⟨rfl, ((evaluation_frame_law .usual 9 s 0 outer rfl).1 1 form).1 (by decide)⟩

end ScopedLisp
