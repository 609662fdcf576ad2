import ScopedLisp.Proofs.Nested
import ScopedLisp.Proofs.Spelling

set_option autoImplicit false

namespace ScopedLisp

section

variable {ev : Evaluator} {frame : FrameId} {before values : List Value} {form : Value}
  {s t u : Store}

theorem evaluateEach_of_failed (evaluated : evaluateEach ev frame before s = (.done values, t))
    {f : Fault} (failed : ev frame form t = (.failed f, u)) (rest : List Value) :
    evaluateEach ev frame (before ++ form :: rest) s = (.failed f, u) := by
  rw [evaluateEach_append]
  refine (Eval.bind_of_done evaluated).trans (Eval.bind_of_failed ?_)
  exact Eval.bind_of_failed failed

theorem evaluateEach_of_tooDeep (evaluated : evaluateEach ev frame before s = (.done values, t))
    (deep : ev frame form t = (.tooDeep, u)) (rest : List Value) :
    evaluateEach ev frame (before ++ form :: rest) s = (.tooDeep, u) := by
  rw [evaluateEach_append]
  refine (Eval.bind_of_done evaluated).trans (Eval.bind_of_tooDeep ?_)
  exact Eval.bind_of_tooDeep deep

end

/-- Either all forms have values, or there is a first one that has none. -/
theorem evaluateEach_done_or_first (ev : Evaluator) (frame : FrameId) (forms : List Value)
    (s : Store) :
    (∃ values t, evaluateEach ev frame forms s = (.done values, t)) ∨
      ∃ before form rest values t, forms = before ++ form :: rest ∧
        evaluateEach ev frame before s = (.done values, t) ∧
        ∀ v u, ev frame form t ≠ (.done v, u) := by
  induction forms generalizing s with
  | nil => exact .inl ⟨[], s, rfl⟩
  | cons form rest ih =>
    by_cases valued : ∃ v t, ev frame form s = (.done v, t)
    · obtain ⟨v, t, first⟩ := valued
      rcases ih t with ⟨values, u, others⟩ |
        ⟨before, next, after, values, u, split, evaluated, none⟩
      · refine .inl ⟨v :: values, u, ?_⟩
        exact (Eval.bind_of_done first).trans (Eval.bind_of_done others)
      · refine .inr ⟨form :: before, next, after, v :: values, u, by simp [split], ?_, none⟩
        exact (Eval.bind_of_done first).trans (Eval.bind_of_done evaluated)
    · refine .inr ⟨[], form, rest, [], s, rfl, rfl, fun v t first => ?_⟩
      exact valued ⟨v, t, first⟩

/-- Only closures can be called. -/
def Value.isCallable : Value → Bool
  | closure _ _ _ _ _ => true
  | builtin _ _ => true
  | _ => false

theorem applyTo_of_not_callable (ev : Evaluator) {callee : Value}
    (other : callee.isCallable = false) (args : List Value) (loc : Option Location) :
    applyTo ev callee args loc = Eval.fail (.notCallable callee.kind) loc := by
  cases callee with
  | closure => cases other
  | builtin => cases other
  | _ => rfl

/-- How a call at `loc` ends that cannot be made, where `callee` is the value of its head and `s` is
the store that the head leaves. The operands are evaluated all the same. -/
inductive CallRefused (ev : Evaluator) (frame : FrameId) (callee : Value) (loc : Option Location)
    (operands : List Value) (s : Store) : Outcome Value × Store → Prop
  | notCallable {args : List Value} {t : Store}
      (evaluated : evaluateEach ev frame operands s = (.done args, t)) :
      CallRefused ev frame callee loc operands s
        (.failed (.error ⟨.notCallable callee.kind, loc⟩), t)
  | failed {before rest args : List Value} {operand : Value} {t u : Store} {f : Fault}
      (split : operands = before ++ operand :: rest)
      (evaluated : evaluateEach ev frame before s = (.done args, t))
      (failed : ev frame operand t = (.failed f, u)) :
      CallRefused ev frame callee loc operands s (.failed f, u)
  | tooDeep {before rest args : List Value} {operand : Value} {t u : Store}
      (split : operands = before ++ operand :: rest)
      (evaluated : evaluateEach ev frame before s = (.done args, t))
      (deep : ev frame operand t = (.tooDeep, u)) :
      CallRefused ev frame callee loc operands s (.tooDeep, u)

namespace CallRefused

variable {ev : Evaluator} {frame : FrameId} {callee : Value} {loc : Option Location}
  {operands : List Value} {s : Store} {ended : Outcome Value × Store}

theorem ended_eq (refused : CallRefused ev frame callee loc operands s ended) :
    (evaluateEach ev frame operands >>= fun _ =>
      (Eval.fail (.notCallable callee.kind) loc : Eval Value)) s = ended := by
  cases refused with
  | notCallable evaluated => exact Eval.bind_of_done evaluated
  | failed split evaluated failed =>
    rw [split]
    exact Eval.bind_of_failed (evaluateEach_of_failed evaluated failed _)
  | tooDeep split evaluated deep =>
    rw [split]
    exact Eval.bind_of_tooDeep (evaluateEach_of_tooDeep evaluated deep _)

theorem exists_ended (ev : Evaluator) (frame : FrameId) (callee : Value) (loc : Option Location)
    (operands : List Value) (s : Store) :
    ∃ ended, CallRefused ev frame callee loc operands s ended := by
  rcases evaluateEach_done_or_first ev frame operands s with ⟨args, t, evaluated⟩ |
    ⟨before, operand, rest, args, t, split, evaluated, none⟩
  · exact ⟨_, .notCallable evaluated⟩
  · match ended : ev frame operand t with
    | (.done v, u) => exact absurd ended (none v u)
    | (.failed f, u) => exact ⟨_, .failed split evaluated ended⟩
    | (.tooDeep, u) => exact ⟨_, .tooDeep split evaluated ended⟩

theorem no_value (refused : CallRefused ev frame callee loc operands s ended) (v : Value) :
    ended.1 ≠ .done v := by
  cases refused <;> exact nofun

end CallRefused

/-- The head of a call has a value that cannot be called, and the operands are any forms. The call
never has a value. It ends with the error for such values, at the place of the call, exactly if all
operands have values, and leaves the store as they leave it; otherwise it ends as the first operand
does that has none. Without operands the store is as the head leaves it. -/
theorem non_callable_head_outcome (costs : Costs) {limit : Nat} {frame : FrameId}
    {head callee : Value} (operands : List Value) (loc : Option Location) {s t : Store}
    (call : SpecialForm.ofHead? head = none)
    (evaluated : evaluate costs limit frame head s = (.done callee, t))
    (other : callee.isCallable = false) :
    (∀ ended, evaluate costs (limit + 1) frame (.list (head :: operands) loc) s = ended ↔
      CallRefused (evaluate costs (limit - costs.argument)) frame callee loc operands t ended) ∧
    (∀ v, (evaluate costs (limit + 1) frame (.list (head :: operands) loc) s).1 ≠ .done v) ∧
    evaluate costs (limit + 1) frame (.list [head] loc) s =
      (.failed (.error ⟨.notCallable callee.kind, loc⟩), t) := by
  have outcome (operands : List Value) (ended : Outcome Value × Store)
      (refused : CallRefused (evaluate costs (limit - costs.argument)) frame callee loc operands t
        ended) :
      evaluate costs (limit + 1) frame (.list (head :: operands) loc) s = ended := by
    rw [← refused.ended_eq, evaluate_call call]
    refine (Eval.bind_of_done evaluated).trans (Eval.bind_eq_bind rfl fun args u _ => ?_)
    rw [applyTo_of_not_callable _ other]
  -- Some way out is always taken, and the one that is taken is how the call ends.
  obtain ⟨ended, refused⟩ := CallRefused.exists_ended (evaluate costs (limit - costs.argument))
    frame callee loc operands t
  have ends := outcome operands ended refused
  refine ⟨fun ended' => ⟨?_, outcome operands ended'⟩, ?_, outcome [] _ (.notCallable rfl)⟩
  · rintro rfl
    rwa [ends]
  · rw [ends]
    exact refused.no_value

/-- The operand defines a name, and the name stays bound. -/
theorem non_callable_head_outcome_of_definition :
    let s : Store := ⟨#[⟨[], none⟩], 0, []⟩
    let operand : Value :=
      .list [.symbol "define" none, .symbol "x" none, .integer 2 none] none
    evaluate .usual 5 0 (.list [.integer 1 none, operand] none) s =
      (.failed (.error ⟨.notCallable "Integer", none⟩), s.set 0 "x" (.integer 2 none)) := by
  intro s operand
  have evaluated : evaluate .usual 4 0 (.integer 1 none) s = (.done (.integer 1 none), s) := rfl
  have bound : evaluateEach (evaluate .usual 3) 0 [operand] s =
      (.done [.unit], s.set 0 "x" (.integer 2 none)) := by rfl
  have outcome := non_callable_head_outcome .usual [operand] none rfl evaluated rfl
  exact (outcome.1 _).2 (.notCallable bound)

/-- If it were asked first whether the head can be called, the text would end with the error for
such values at the place of the call, and would define nothing. -/
theorem operands_precede_callable_check :
    ((Session.seeded .usual).eval "(1 (define x 2) y)" none).1 =
        .error (.error ⟨.unboundSymbol "y", some ⟨none, 1, 17⟩⟩) ∧
      (Session.seeded .usual).get? "x" = none ∧
      ((Session.seeded .usual).eval "(1 (define x 2) y)" none).2.get? "x" =
        some (.integer 2 (some ⟨none, 1, 14⟩)) := by
  have tokens : TokenStream.ofSource "(1 (define x 2) y)" none =
      ⟨[⟨.opening, "(", some ⟨none, 1, 1⟩⟩, ⟨.symbol, "1", some ⟨none, 1, 2⟩⟩,
        ⟨.opening, "(", some ⟨none, 1, 4⟩⟩, ⟨.symbol, "define", some ⟨none, 1, 5⟩⟩,
        ⟨.symbol, "x", some ⟨none, 1, 12⟩⟩, ⟨.symbol, "2", some ⟨none, 1, 14⟩⟩,
        ⟨.closing, ")", some ⟨none, 1, 15⟩⟩, ⟨.symbol, "y", some ⟨none, 1, 17⟩⟩,
        ⟨.closing, ")", some ⟨none, 1, 18⟩⟩], none⟩ := by decide +kernel
  have room : (TokenStream.ofSource "(1 (define x 2) y)" none).tokens.length ≤
      (Session.seeded .usual).depth := by
    rw [tokens]
    decide
  have read : (Session.seeded .usual).read "(1 (define x 2) y)" none =
      .ok [.list [.integer 1 (some ⟨none, 1, 2⟩),
        .list [.symbol "define" (some ⟨none, 1, 5⟩), .symbol "x" (some ⟨none, 1, 12⟩),
          .integer 2 (some ⟨none, 1, 14⟩)] (some ⟨none, 1, 4⟩), .symbol "y" (some ⟨none, 1, 17⟩)]
        (some ⟨none, 1, 1⟩)] := by
    rw [Session.read, readWithin_of_length room, readProgram_eq_ok_iff, tokens]
    exact ⟨rfl, .cons (.opening rfl) <| .cons (.word rfl rfl) <| .cons (.opening rfl) <|
      .cons (.word rfl rfl) <| .cons (.word rfl rfl) <| .cons (.word rfl rfl) <|
      .cons (.closing rfl) <| .cons (.word rfl rfl) <| .cons (.closing rfl) .nil⟩
  simp only [Session.eval, read]
  refine ⟨?_, ?_, ?_⟩
  · with_unfolding_all rfl
  · decide +kernel
  · with_unfolding_all rfl

end ScopedLisp
