import ScopedLisp.Evaluation
import ScopedLisp.Proofs.OperatorCall
import ScopedLisp.Proofs.WellFormed

set_option autoImplicit false

namespace ScopedLisp

/-- The forms that are their own values. -/
def Value.isLiteral : Value → Bool
  | symbol _ _ => false
  | list _ _ => false
  | program _ _ => false
  | foreign _ _ => false
  | _ => true

structure Discipline where
  code : Value → Prop
  data : Value → Prop
  place : Option Location → Prop
  child : ∀ {v child : Value}, code v → child ∈ v.children → code child
  located : ∀ {v : Value}, code v → place v.loc
  notForeign : ∀ {kind text : String}, ¬ code (.foreign kind text)
  literal : ∀ {v : Value}, code v → v.isLiteral = true → data v
  unit : data .unit
  rest : ∀ {args : List Value}, (∀ arg ∈ args, data arg) → data (.list args none)
  computed : ∀ {v : Value}, v.Computed → data v
  closure : ∀ {head operand : Value} {body : List Value} {loc : Option Location}
    {params : List Param} (frame : FrameId) (serial : Nat),
    code (.list (head :: operand :: body) loc) → SpecialForm.ofHead? head = some .lambda →
    Parameters.parse operand loc = .ok params → data (.closure params body frame serial loc)
  body : ∀ {params : List Param} {body : List Value} {frame : FrameId} {serial : Nat}
    {loc : Option Location}, data (.closure params body frame serial loc) → ∀ form ∈ body, code form
  inRange : ∀ {n : Int} {loc : Option Location}, data (.integer n loc) → Integer.inRange n = true
  operator : ∀ {code : String} {serial : Nat}, data (.builtin code serial) →
    ∃ op : Operator, code = op.name

namespace Discipline

variable (d : Discipline)

structure Holds (s : Store) : Prop where
  wellFormed : s.WellFormed
  data : s.AllBound d.data

/-- A form that may be evaluated on the store. -/
structure Ready (s : Store) (form : Value) : Prop where
  code : d.code form
  within : form.Within s

/-- A value that may be bound in the store. -/
structure Sound (s : Store) (v : Value) : Prop where
  data : d.data v
  within : v.Within s

inductive Expects : Fault → Prop
  | error {cause : Cause} {loc : Option Location} (ofProgram : cause.OfProgram)
      (place : d.place loc) : Expects (.error ⟨cause, loc⟩)

/-- How a computation that starts on `s` may end, if `R` is said of what it returns. -/
structure Ends {α : Type} (R : Store → α → Prop) (s : Store) (ended : Outcome α × Store) :
    Prop where
  holds : d.Holds ended.2
  later : s.Precedes ended.2
  done : ∀ a, ended.1 = .done a → R ended.2 a
  failed : ∀ f, ended.1 = .failed f → d.Expects f

variable {d}

theorem Sound.later {s t : Store} {v : Value} (sound : d.Sound s v) (before : s.Precedes t) :
    d.Sound t v :=
  ⟨sound.data, before.within sound.within⟩

theorem Ready.later {s t : Store} {form : Value} (ready : d.Ready s form) (before : s.Precedes t) :
    d.Ready t form :=
  ⟨ready.code, before.within ready.within⟩

theorem Ready.child {s : Store} {form child : Value} (ready : d.Ready s form)
    (inside : child ∈ form.children) : d.Ready s child :=
  ⟨d.child ready.code inside, ready.within.child inside⟩

theorem place_or {p q : Option Location} (first : d.place p) (second : d.place q) :
    d.place (p.or q) := by
  cases p with
  | none => exact second
  | some place => exact first

theorem expects_blame {v : Value} (code : d.code v) {cause : Cause} (ofProgram : cause.OfProgram)
    {loc : Option Location} (place : d.place loc) : d.Expects (v.blame cause loc) := by
  have here := place_or (d.located code) place
  cases v with
  | foreign kind text => exact absurd code d.notForeign
  | _ => exact .error ofProgram here

namespace Ends

variable {α β : Type} {R : Store → α → Prop} {S : Store → β → Prop} {s : Store}

theorem of_done {a : α} {t : Store} (holds : d.Holds t) (later : s.Precedes t) (value : R t a) :
    d.Ends R s (.done a, t) := by
  refine ⟨holds, later, fun b ended => ?_, nofun⟩
  cases ended
  exact value

theorem of_failed {f : Fault} (holds : d.Holds s) (expected : d.Expects f) :
    d.Ends R s (.failed f, s) := by
  refine ⟨holds, .refl s, nofun, fun g ended => ?_⟩
  cases ended
  exact expected

theorem of_tooDeep (holds : d.Holds s) : d.Ends R s (.tooDeep, s) :=
  ⟨holds, .refl s, nofun, nofun⟩

theorem of_fail (holds : d.Holds s) {cause : Cause} (ofProgram : cause.OfProgram)
    {loc : Option Location} (place : d.place loc) : d.Ends R s (Eval.fail cause loc s) :=
  of_failed holds (.error ofProgram place)

theorem of_result (holds : d.Holds s) {result : Except Fault α} (ok : ∀ a, result = .ok a → R s a)
    (error : ∀ f, result = .error f → d.Expects f) : d.Ends R s (Eval.ofExcept result s) := by
  cases result with
  | ok a => exact of_done holds (.refl s) (ok a rfl)
  | error f => exact of_failed holds (error f rfl)

theorem earlier {t : Store} {ended : Outcome α × Store} (before : s.Precedes t)
    (ends : d.Ends R t ended) : d.Ends R s ended :=
  ⟨ends.holds, before.trans ends.later, ends.done, ends.failed⟩

/-- What comes after may use that the store holds, and what is known of the first result on it. -/
theorem bind {m : Eval α} {next : α → Eval β} (first : d.Ends R s (m s))
    (second : ∀ a t, d.Holds t → s.Precedes t → R t a → d.Ends S t (next a t)) :
    d.Ends S s ((m >>= next) s) := by
  show d.Ends S s (m.bind next s)
  unfold Eval.bind
  generalize m s = ended at first
  obtain ⟨outcome, t⟩ := ended
  cases outcome with
  | done a => exact (second a t first.holds first.later (first.done a rfl)).earlier first.later
  | failed f =>
    refine ⟨first.holds, first.later, nofun, fun g same => ?_⟩
    cases same
    exact first.failed f rfl
  | tooDeep => exact ⟨first.holds, first.later, nofun, nofun⟩

end Ends

section Parameters

theorem expects_parseItems {items : List Value} (code : ∀ item ∈ items, d.code item)
    {loc : Option Location} (place : d.place loc) {f : Fault}
    (failure : Parameters.parseItems loc items = .error f) : d.Expects f := by
  fun_induction Parameters.parseItems loc items with
  | case1 => cases failure
  | case2 own own' =>
    cases failure
    have first : d.place own := d.located (code _ List.mem_cons_self)
    have second : d.place own' := d.located (code _ (List.mem_cons_of_mem _ List.mem_cons_self))
    exact .error trivial (place_or second first)
  | case3 => cases failure
  | case4 own item _ =>
    cases failure
    have first : d.place own := d.located (code _ List.mem_cons_self)
    exact expects_blame (code item (List.mem_cons_of_mem _ List.mem_cons_self)) (by trivial) first
  | case5 name own items marked =>
    cases failure
    exact .error trivial (d.located (code _ List.mem_cons_self))
  | case6 name own items other ih =>
    cases remaining : Parameters.parseItems loc items with
    | ok params =>
      rw [remaining] at failure
      cases failure
    | error g =>
      rw [remaining] at failure
      cases failure
      exact ih (fun item member => code item (List.mem_cons_of_mem _ member)) remaining
  | case7 item items =>
    cases failure
    exact expects_blame (code item List.mem_cons_self) (by trivial) place

theorem expects_parse {operand : Value} (code : d.code operand) {loc : Option Location}
    (place : d.place loc) {f : Fault} (failure : Parameters.parse operand loc = .error f) :
    d.Expects f := by
  unfold Parameters.parse at failure
  split at failure
  · rename_i items own
    have here : d.place own := d.located code
    split at failure
    · rename_i refused
      cases failure
      exact expects_parseItems (fun item member => d.child code member) here refused
    · simp only at failure
      split at failure
      · cases failure
      · cases failure
        exact .error trivial (place_or here place)
  · cases failure
    exact expects_blame code (by trivial) place

theorem mem_pairs {params : List Param} {args : List Value} {binding : String × Value}
    (member : binding ∈ Parameters.pairs params args) :
    binding.2 ∈ args ∨ ∃ count, binding.2 = .list (args.drop count) none := by
  have taken : binding ∈ ((Parameters.fixed params).map Param.name).zip args →
      binding.2 ∈ args := fun inside => (List.of_mem_zip inside).2
  unfold Parameters.pairs at member
  split at member
  · exact .inl (taken member)
  · rcases List.mem_append.1 member with inside | last
    · exact .inl (taken inside)
    · rw [List.mem_singleton.1 last]
      exact .inr ⟨_, rfl⟩

theorem sound_of_bind {s : Store} {params : List Param} {outer : FrameId} {args : List Value}
    {loc : Option Location} {bound : Frame} (sound : ∀ arg ∈ args, d.Sound s arg)
    (success : Parameters.bind params outer args loc = .ok bound) :
    bound.outer = some outer ∧ ∀ binding ∈ bound.bindings, d.Sound s binding.2 := by
  unfold Parameters.bind at success
  split at success
  · cases success
    refine ⟨Frame.outer_setAll _ _, fun binding member => ?_⟩
    rcases Frame.mem_setAll member with absent | ⟨pair, inside, same⟩
    · cases absent
    · rw [same]
      rcases mem_pairs inside with direct | ⟨count, rest⟩
      · exact sound _ direct
      · have left : ∀ arg ∈ args.drop count, d.Sound s arg :=
          fun arg member => sound arg (List.mem_of_mem_drop member)
        rw [rest]
        refine ⟨d.rest fun arg member => (left arg member).data, Value.within_iff.2 ⟨trivial, ?_⟩⟩
        exact fun arg member => (left arg member).within
  · cases success

end Parameters

variable (d) in
/-- The evaluator keeps to the discipline on every store that holds it. -/
def Obeys (ev : Evaluator) : Prop :=
  ∀ (frame : FrameId) (form : Value) (s : Store), d.Holds s → frame < s.frames.size →
    d.Ready s form → d.Ends d.Sound s (ev frame form s)

variable (d) in
def AllSound (s : Store) (vs : List Value) : Prop :=
  ∀ v ∈ vs, d.Sound s v

section Evaluation

variable {ev : Evaluator} {s : Store} {frame : FrameId}

theorem sound_unit : d.Sound s .unit :=
  ⟨d.unit, Value.within_iff.2 ⟨trivial, nofun⟩⟩

theorem evaluateEach_ends (obeys : d.Obeys ev) (holds : d.Holds s) (inside : frame < s.frames.size)
    {forms : List Value} (ready : ∀ form ∈ forms, d.Ready s form) :
    d.Ends d.AllSound s (evaluateEach ev frame forms s) := by
  induction forms generalizing s with
  | nil => exact .of_done holds (.refl s) nofun
  | cons form rest ih =>
    refine .bind (obeys frame form s holds inside (ready form List.mem_cons_self)) ?_
    intro v t holds before value
    have later : ∀ next ∈ rest, d.Ready t next :=
      fun next member => (ready next (List.mem_cons_of_mem _ member)).later before
    refine .bind (ih holds (before.inside inside) later) ?_
    intro vs u holds before values
    refine .of_done holds (.refl u) fun w member => ?_
    rcases List.mem_cons.1 member with rfl | member
    · exact value.later before
    · exact values w member

theorem evaluateBody_ends (obeys : d.Obeys ev) (holds : d.Holds s) (inside : frame < s.frames.size)
    {forms : List Value} (ready : ∀ form ∈ forms, d.Ready s form) :
    d.Ends d.Sound s (evaluateBody ev frame forms s) := by
  induction forms generalizing s with
  | nil => exact .of_done holds (.refl s) sound_unit
  | cons form rest ih =>
    have first := obeys frame form s holds inside (ready form List.mem_cons_self)
    match rest with
    | [] => exact first
    | second :: more =>
      refine .bind first fun v t holds before _ => ?_
      have later : ∀ next ∈ second :: more, d.Ready t next :=
        fun next member => (ready next (List.mem_cons_of_mem _ member)).later before
      exact ih holds (before.inside inside) later

theorem Holds.record (holds : d.Holds s) (event : Event) : d.Holds (s.record event) :=
  ⟨holds.wellFormed.record event, holds.data⟩

theorem Holds.takeSerial (holds : d.Holds s) : d.Holds s.takeSerial.2 :=
  ⟨holds.wellFormed.takeSerial, holds.data⟩

theorem Holds.set (holds : d.Holds s) (frame : FrameId) (name : String) {v : Value}
    (sound : d.Sound s v) : d.Holds (s.set frame name v) :=
  ⟨holds.wellFormed.set frame name sound.within, holds.data.set frame name sound.data⟩

theorem Holds.addFrame (holds : d.Holds s) {bound : Frame} {outer : FrameId}
    (known : outer < s.frames.size) (link : bound.outer = some outer)
    (sound : ∀ binding ∈ bound.bindings, d.Sound s binding.2) : d.Holds (s.addFrame bound).2 := by
  refine ⟨holds.wellFormed.addFrame ?_ fun binding member => (sound binding member).within,
    holds.data.addFrame fun binding member => (sound binding member).data⟩
  intro o same
  rw [link] at same
  cases same
  exact known

theorem evaluateLambda_ends (holds : d.Holds s) (inside : frame < s.frames.size) {head : Value}
    {operands : List Value} {loc : Option Location}
    (special : SpecialForm.ofHead? head = some .lambda)
    (ready : d.Ready s (.list (head :: operands) loc)) :
    d.Ends d.Sound s (evaluateLambda frame operands loc s) := by
  have place : d.place loc := d.located ready.code
  cases operands with
  | nil => exact .of_fail holds (by trivial) place
  | cons operand body =>
    have parameters : d.Ready s operand := ready.child (List.mem_cons_of_mem _ List.mem_cons_self)
    refine .bind (R := fun _ params => Parameters.parse operand loc = .ok params)
      (.of_result holds (fun _ => id) fun _ => expects_parse parameters.code place) ?_
    intro params t holds before parsed
    have known := before.inside inside
    refine .bind (R := fun u serial => serial < u.nextSerial ∧ frame < u.frames.size)
      (.of_done holds.takeSerial (.takeSerial t) ⟨Nat.lt_succ_self _, known⟩) ?_
    intro serial u holds later fresh
    refine .of_done holds (.refl u) ⟨d.closure frame serial ready.code special parsed, ?_⟩
    refine Value.within_iff.2 ⟨⟨fresh.2, fresh.1⟩, fun form member => ?_⟩
    have within := (ready.later before).later later
    exact within.within.child (List.mem_cons_of_mem _ (List.mem_cons_of_mem _ member))

theorem AllSound.later {t : Store} {vs : List Value} (sound : d.AllSound s vs)
    (before : s.Precedes t) : d.AllSound t vs :=
  fun v member => (sound v member).later before

theorem Ends.of_record (holds : d.Holds s) (event : Event) :
    d.Ends (fun _ _ => True) s (Eval.modify (·.record event) s) :=
  .of_done (holds.record event) (.record s event) trivial

theorem expects_bind {params : List Param} {outer : FrameId} {args : List Value}
    {loc : Option Location} (place : d.place loc) {e : Error}
    (failure : Parameters.bind params outer args loc = .error e) : d.Expects (.error e) := by
  unfold Parameters.bind at failure
  split at failure
  · cases failure
  · cases failure
    exact .error trivial place

theorem sound_of_computed {v : Value} (computed : v.Computed) : d.Sound s v := by
  refine ⟨d.computed computed, ?_⟩
  cases computed <;> exact Value.within_iff.2 ⟨trivial, nofun⟩

/-- Once the frame of a call is added to the store, the body may be evaluated. -/
theorem enter_call (holds : d.Holds s) {params : List Param} {body args : List Value}
    {outer : FrameId} {serial : Nat} {own loc : Option Location} {bound : Frame}
    (callee : d.Sound s (.closure params body outer serial own)) (values : d.AllSound s args)
    (accepted : Parameters.bind params outer args loc = .ok bound) (event : Event) :
    d.Holds ((s.record event).addFrame bound).2 ∧ s.Precedes ((s.record event).addFrame bound).2 ∧
      ∀ form ∈ body, d.Ready ((s.record event).addFrame bound).2 form := by
  have recorded := Store.Precedes.record s event
  have later := recorded.trans (.addFrame (s.record event) bound)
  obtain ⟨link, bindings⟩ := sound_of_bind (values.later recorded) accepted
  have known : outer < s.frames.size := (callee.within _ (Value.self_mem_parts _)).1
  refine ⟨(holds.record event).addFrame known link bindings, later, fun form member => ?_⟩
  exact ⟨d.body callee.data form member, (callee.later later).within.child member⟩

theorem applyTo_ends (obeys : d.Obeys ev) (holds : d.Holds s) {callee : Value}
    (sound : d.Sound s callee) {args : List Value} (values : d.AllSound s args)
    {loc : Option Location} (place : d.place loc) :
    d.Ends d.Sound s (applyTo ev callee args loc s) := by
  cases callee with
  | builtin code serial =>
    obtain ⟨op, rfl⟩ := d.operator sound.data
    refine .bind (.of_record holds _) fun _ t holds before _ => ?_
    rw [Operator.callCode_name]
    refine .of_result holds (fun v success => ?_) fun f failure => ?_
    · exact sound_of_computed (Operator.call_computed success)
    · obtain ⟨cause, ofProgram, rfl⟩ :=
        Operator.call_fault (fun n place member => d.inRange (values _ member).data) failure
      exact .error ofProgram place
  | closure params body outer serial own =>
    cases accepted : Parameters.bind params outer args loc with
    | ok bound =>
      rw [applyTo_closure ev s accepted]
      obtain ⟨holds, later, ready⟩ := enter_call holds sound values accepted _
      exact (evaluateBody_ends obeys holds (by simp) ready).earlier later
    | error e =>
      refine .bind (.of_record holds _) fun _ t holds _ _ => ?_
      rw [accepted]
      exact .of_failed holds (expects_bind place accepted)
  | _ => exact .of_fail holds (by trivial) place

theorem evaluateDefine_ends (obeys : d.Obeys ev) (holds : d.Holds s)
    (inside : frame < s.frames.size) {operands : List Value}
    (ready : ∀ operand ∈ operands, d.Ready s operand) {loc : Option Location}
    (place : d.place loc) : d.Ends d.Sound s (evaluateDefine ev frame operands loc s) := by
  unfold evaluateDefine
  split
  · exact .of_fail holds (by trivial) place
  · rename_i name own rest
    have here : d.place own := d.located (ready _ List.mem_cons_self).code
    split
    · exact .of_fail holds (by trivial) (place_or here place)
    · rename_i form
      have code := ready form (List.mem_cons_of_mem _ List.mem_cons_self)
      refine .bind (obeys frame form s holds inside code) fun v t holds before sound => ?_
      refine .bind (R := fun _ _ => True)
        (.of_done (holds.set frame name sound) (.set t frame name v) trivial) ?_
      intro _ u holds before _
      exact .of_done holds (.refl u) sound_unit
    · exact .of_fail holds (by trivial) place
  · rename_i other _ _
    exact .of_failed holds (expects_blame (ready other List.mem_cons_self).code (by trivial) place)

theorem evaluateBranch_ends (obeys : d.Obeys ev) (holds : d.Holds s)
    (inside : frame < s.frames.size) {loc : Option Location} (place : d.place loc)
    {condition first : Value} (ofCondition : d.Ready s condition) (ofFirst : d.Ready s first)
    {second : Eval Value}
    (ofSecond : ∀ t, d.Holds t → s.Precedes t → d.Ends d.Sound t (second t)) :
    d.Ends d.Sound s (evaluateBranch ev frame loc condition first second s) := by
  refine .bind (obeys frame condition s holds inside ofCondition) fun v t holds before _ => ?_
  split
  · exact obeys frame first t holds (before.inside inside) (ofFirst.later before)
  · exact ofSecond t holds before
  · exact .of_failed holds (expects_blame ofCondition.code (by exact .inr rfl) place)

theorem evaluateConditional_ends (obeys : d.Obeys ev) (holds : d.Holds s)
    (inside : frame < s.frames.size) {operands : List Value}
    (ready : ∀ operand ∈ operands, d.Ready s operand) {loc : Option Location}
    (place : d.place loc) : d.Ends d.Sound s (evaluateConditional ev frame operands loc s) := by
  unfold evaluateConditional
  split
  · rename_i condition first
    refine evaluateBranch_ends obeys holds inside place (ready condition (by simp))
      (ready first (by simp)) fun t holds _ => ?_
    exact .of_done holds (.refl t) sound_unit
  · rename_i condition first second
    refine evaluateBranch_ends obeys holds inside place (ready condition (by simp))
      (ready first (by simp)) fun t holds before => ?_
    have later : d.Ready t second := (ready second (by simp)).later before
    exact obeys frame second t holds (before.inside inside) later
  · exact .of_fail holds (by trivial) place

theorem lookup_ends (holds : d.Holds s) (frame : FrameId) (name : String) {loc : Option Location}
    (place : d.place loc) : d.Ends d.Sound s (Eval.lookup frame name loc s) := by
  unfold Eval.lookup Store.lookup
  cases found : s.get? frame name with
  | none => exact .of_failed holds (.error trivial place)
  | some v =>
    exact .of_done holds (.refl s) ⟨holds.data.get? found, holds.wellFormed.values.get? found⟩

end Evaluation

theorem step_obeys (costs : Costs) {ev : Nat → Evaluator} (obeys : ∀ levels, d.Obeys (ev levels)) :
    d.Obeys (step costs ev) := by
  intro frame form s holds inside ready
  have place : d.place form.loc := d.located ready.code
  cases form with
  | symbol name loc => exact lookup_ends holds frame name place
  | list items loc =>
    cases items with
    | nil => exact .of_done holds (.refl s) sound_unit
    | cons head operands =>
      have operand : ∀ form ∈ operands, d.Ready s form :=
        fun form member => ready.child (List.mem_cons_of_mem _ member)
      simp only [step]
      cases special : SpecialForm.ofHead? head with
      | some keyword =>
        cases keyword with
        | define => exact evaluateDefine_ends (obeys _) holds inside operand place
        | conditional => exact evaluateConditional_ends (obeys _) holds inside operand place
        | lambda => exact evaluateLambda_ends holds inside special ready
      | none =>
        refine .bind (obeys 0 frame head s holds inside (ready.child List.mem_cons_self)) ?_
        intro callee t holds before sound
        have later : ∀ form ∈ operands, d.Ready t form :=
          fun form member => (operand form member).later before
        refine .bind (evaluateEach_ends (obeys _) holds (before.inside inside) later) ?_
        intro args u holds before values
        exact applyTo_ends (obeys _) holds (sound.later before) values place
  | program forms loc =>
    exact evaluateBody_ends (obeys _) holds inside fun form member => ready.child member
  | foreign kind text => exact absurd ready.code d.notForeign
  | _ => exact .of_done holds (.refl s) ⟨d.literal ready.code rfl, ready.within⟩

theorem evaluate_obeys (d : Discipline) (costs : Costs) (limit : Nat) :
    d.Obeys (evaluate costs limit) := by
  induction limit using Nat.strongRecOn with
  | ind limit ih =>
    match limit with
    | 0 =>
      intro frame form s holds _ _
      rw [evaluate_zero]
      exact .of_tooDeep holds
    | limit + 1 =>
      rw [evaluate_succ]
      exact step_obeys costs fun levels => ih (limit - levels) (by omega)

end Discipline

end ScopedLisp
