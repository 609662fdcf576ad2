import ScopedLisp.Proofs.Computations
import ScopedLisp.Proofs.ReachableSession

set_option autoImplicit false

namespace ScopedLisp

/-- A computation ends where the first thing that it does is too deep. -/
theorem Eval.BeginsWith.of_tooDeep {α β : Type} {first : Eval α} {m : Eval β}
    (begins : first.BeginsWith m) {s : Store} (deep : (first s).1 = .tooDeep) :
    m s = (.tooDeep, (first s).2) := by
  obtain ⟨rest, _, rfl⟩ := begins
  exact bind_of_tooDeep (Prod.ext deep rfl)

namespace Task

variable {costs : Costs}

theorem Inner.run_of_tooDeep {a b : Task} (inner : Inner costs a b)
    (deep : (b.run costs).1 = .tooDeep) : a.run costs = (.tooDeep, b.after costs) := by
  obtain ⟨m, begins, whole⟩ := inner.resumes
  rw [whole]
  exact begins.of_tooDeep deep

/-- Nothing recovers from an evaluation that is too deep, and nothing is done after it. -/
theorem Nested.run_of_tooDeep {a b : Task} (nested : Nested costs a b)
    (deep : (b.run costs).1 = .tooDeep) : a.run costs = (.tooDeep, b.after costs) := by
  induction nested with
  | refl => exact Prod.ext deep rfl
  | tail _ inner ih =>
    have between := inner.run_of_tooDeep deep
    rw [ih (congrArg Prod.fst between), after, between]

end Task

/-- The computations that are too deep on no store. -/
def Computations.finishing : Computations where
  Holds := fun m => ∀ s, (m s).1 ≠ .tooDeep
  ofExcept := fun result s => by cases result <;> exact nofun
  lookup := fun frame name loc s => by
    unfold Eval.lookup
    split <;> exact nofun
  record := fun _ _ => nofun
  set := fun _ _ _ _ => nofun
  takeSerial := fun _ => nofun
  addFrame := fun _ _ => nofun
  bind := by
    intro α β m next first second s
    show (m.bind next s).1 ≠ .tooDeep
    match ended : m s with
    | (.done a, t) =>
      rw [Eval.bind_of_done ended]
      exact second a t
    | (.failed f, t) =>
      rw [Eval.bind_of_failed ended]
      exact nofun
    | (.tooDeep, t) => exact absurd (congrArg Prod.fst ended) (first s)

namespace Eval

/-- The computation, with void as its value where it is too deep. -/
def finishing (m : Eval Value) : Eval Value :=
  fun s =>
    match m s with
    | (.tooDeep, t) => (.done .unit, t)
    | ended => ended

theorem holds_finishing (m : Eval Value) : Computations.finishing.Holds m.finishing := by
  intro s
  unfold finishing
  split
  · exact nofun
  · rename_i other
    intro deep
    exact other (m s).2 (Prod.ext deep rfl)

theorem finishing_of_ne_tooDeep {m : Eval Value} {s : Store} (ended : (m s).1 ≠ .tooDeep) :
    m.finishing s = m s := by
  unfold finishing
  split
  · rename_i deep
    exact absurd (congrArg Prod.fst deep) ended
  · rfl

end Eval

namespace Task

variable {costs : Costs}

theorem Inner.limit_lt {a b : Task} (inner : Inner costs a b) : b.limit < a.limit := by
  cases inner <;> simp only <;> omega

/-- A task with levels left is too deep only because of a task right inside it. -/
theorem exists_inner_of_tooDeep {a : Task} (positive : a.limit ≠ 0)
    (deep : (a.run costs).1 = .tooDeep) : ∃ b, Inner costs a b ∧ (b.run costs).1 = .tooDeep := by
  obtain ⟨limit, frame, form, s⟩ := a
  obtain ⟨limit, rfl⟩ := Nat.exists_eq_succ_of_ne_zero positive
  by_contra shallow
  let ev (levels : Nat) : Evaluator := fun frame form =>
    (evaluate costs (limit - levels) frame form).finishing
  -- No task right inside is too deep, so evaluators that cannot be make no difference.
  have same : step costs ev frame form s = evaluate costs (limit + 1) frame form s := by
    apply step_eq_of_inner
    intro levels frame' form' t inner
    apply Eval.finishing_of_ne_tooDeep
    exact fun deep => shallow ⟨_, inner, deep⟩
  have finishes : Computations.finishing.Holds (step costs ev frame form) :=
    Computations.finishing.holds_step costs (fun _ _ _ => Eval.holds_finishing _) frame form
  exact finishes s ((congrArg Prod.fst same).trans deep)

/-- Where a task is too deep, some task inside it is left no levels. -/
theorem exists_nested_of_tooDeep {a : Task} (deep : (a.run costs).1 = .tooDeep) :
    ∃ b, Nested costs a b ∧ b.limit = 0 := by
  induction limit : a.limit using Nat.strongRecOn generalizing a with
  | ind limit ih =>
    by_cases zero : a.limit = 0
    · exact ⟨a, .refl, zero⟩
    · obtain ⟨b, inner, deeper⟩ := exists_inner_of_tooDeep zero deep
      obtain ⟨c, nested, exhausted⟩ := ih b.limit (limit ▸ inner.limit_lt) deeper rfl
      exact ⟨c, .head inner nested, exhausted⟩

end Task

/-- An evaluation that ends within a limit ends in the same way within every higher one. -/
theorem evaluate_of_le {costs : Costs} {limit limit' : Nat} (le : limit ≤ limit') {frame : FrameId}
    {form : Value} {s : Store} (ended : (evaluate costs limit frame form s).1 ≠ .tooDeep) :
    evaluate costs limit' frame form s = evaluate costs limit frame form s := by
  induction limit using Nat.strongRecOn generalizing limit' frame form s with
  | ind limit ih =>
    match limit, limit' with
    | 0, _ =>
      rw [evaluate_zero] at ended
      exact absurd rfl ended
    | limit + 1, 0 => exact absurd le (Nat.not_succ_le_zero limit)
    | limit + 1, limit' + 1 =>
      rw [evaluate_succ costs limit']
      apply Task.step_eq_of_inner
      intro levels frame' form' t inner
      refine ih (limit - levels) (by omega) (by omega) fun deep => ended ?_
      exact congrArg Prod.fst (inner.run_of_tooDeep deep)

theorem evaluateBody_of_tooDeep {costs : Costs} {limit : Nat} {frame : FrameId}
    {before values : List Value} {form : Value} {s t : Store}
    (evaluated : evaluateEach (evaluate costs limit) frame before s = (.done values, t))
    (deep : (evaluate costs limit frame form t).1 = .tooDeep) (rest : List Value) :
    evaluateBody (evaluate costs limit) frame (before ++ form :: rest) s =
      (.tooDeep, (evaluate costs limit frame form t).2) := by
  rw [evaluateBody_append]
  exact (Eval.bind_of_done evaluated).trans ((evaluateBody_begins form rest).of_tooDeep deep)

theorem evaluateBody_of_le {costs : Costs} {limit limit' : Nat} (le : limit ≤ limit')
    {frame : FrameId} {forms : List Value} {s : Store}
    (ended : (evaluateBody (evaluate costs limit) frame forms s).1 ≠ .tooDeep) :
    evaluateBody (evaluate costs limit') frame forms s =
      evaluateBody (evaluate costs limit) frame forms s := by
  apply evaluateBody_congr
  rintro before rest values form t rfl evaluated
  refine evaluate_of_le le fun deep => ended ?_
  rw [evaluateBody_of_tooDeep evaluated deep]

theorem applyTo_of_tooDeep {costs : Costs} {limit : Nat} {params : List Param} {form : Value}
    {before rest values args : List Value} {outer : FrameId} {serial : Nat}
    {own loc : Option Location} {bound : Frame} {s t : Store}
    (accepted : Parameters.bind params outer args loc = .ok bound)
    (entered : evaluateEach (evaluate costs limit) s.frames.size before
      ((s.record (.applied (.closure params (before ++ form :: rest) outer serial own)
        args.length)).addFrame bound).2 = (.done values, t))
    (deep : (evaluate costs limit s.frames.size form t).1 = .tooDeep) :
    applyTo (evaluate costs limit) (.closure params (before ++ form :: rest) outer serial own) args
      loc s = (.tooDeep, (evaluate costs limit s.frames.size form t).2) := by
  rw [applyTo_closure _ s accepted]
  exact evaluateBody_of_tooDeep entered deep rest

theorem applyTo_of_le {costs : Costs} {limit limit' : Nat} (le : limit ≤ limit') {callee : Value}
    {args : List Value} {loc : Option Location} {s : Store}
    (ended : (applyTo (evaluate costs limit) callee args loc s).1 ≠ .tooDeep) :
    applyTo (evaluate costs limit') callee args loc s =
      applyTo (evaluate costs limit) callee args loc s := by
  cases callee with
  | closure params body outer serial own =>
    cases accepted : Parameters.bind params outer args loc with
    | error e =>
      simp only [applyTo, accepted]
      rfl
    | ok bound =>
      rw [applyTo_closure _ s accepted] at ended ⊢
      rw [applyTo_closure _ s accepted]
      exact evaluateBody_of_le le ended
  | _ => rfl

/-- A text that is not too deep for a session ends in the same way under a higher limit. -/
theorem Session.eval_of_le {s : Session} {limit : Nat} (le : s.limit ≤ limit) {source : String}
    {file : Option String} (ended : ∀ t, s.eval source file ≠ (.error .tooDeep, t)) :
    { s with limit := limit }.eval source file =
      ((s.eval source file).1, { (s.eval source file).2 with limit := limit }) := by
  unfold eval at ended ⊢
  have again : { s with limit := limit }.read source file = s.read source file := by
    obtain deep | same := readWithin_of_le (Nat.sub_le_sub_right le s.host.reading) source file
    · rw [read, depth, deep] at ended
      exact absurd rfl (ended s)
    · exact same
  rw [again]
  cases read : s.read source file with
  | error failure => rfl
  | ok forms =>
    rw [read] at ended
    have more : s.levels ≤ { s with limit := limit }.levels :=
      Nat.sub_le_sub_right le s.host.evaluation
    simp only [evaluate, levels_record, run] at ended ⊢
    simp only [record] at ended ⊢
    rw [evaluate_of_le more]
    · generalize ScopedLisp.evaluate .usual s.levels s.root _ _ = ran
      obtain ⟨outcome, store⟩ := ran
      cases outcome with
      | done v => rfl
      | failed f => cases f <;> rfl
      | tooDeep => rfl
    · intro deep
      generalize ScopedLisp.evaluate .usual s.levels s.root _ _ = ran at ended deep
      obtain ⟨outcome, store⟩ := ran
      cases deep
      exact ended _ rfl

/-- What ends within a limit ends within every higher one with the same value or the same fault, and
leaves the same store: an evaluation, the forms of a body, a call, and a text in a session. Being
too deep is never turned into a value or a fault: an evaluation inside which another one is too deep
is too deep itself and does nothing after it, and so are a body and a call of which a form is too
deep. And none is too deep unless one inside it is left no levels. -/
theorem higher_limit_conservative (costs : Costs) {limit limit' : Nat} (le : limit ≤ limit') :
    (∀ frame form s, (evaluate costs limit frame form s).1 ≠ .tooDeep →
      evaluate costs limit' frame form s = evaluate costs limit frame form s) ∧
    (∀ frame forms s, (evaluateBody (evaluate costs limit) frame forms s).1 ≠ .tooDeep →
      evaluateBody (evaluate costs limit') frame forms s =
        evaluateBody (evaluate costs limit) frame forms s) ∧
    (∀ levels callee args loc s,
      (applyTo (evaluateInside costs limit levels) callee args loc s).1 ≠ .tooDeep →
      applyTo (evaluateInside costs limit' levels) callee args loc s =
        applyTo (evaluateInside costs limit levels) callee args loc s) ∧
    (∀ (session : Session) source file, session.limit = limit →
      (∀ after, session.eval source file ≠ (.error .tooDeep, after)) →
      { session with limit := limit' }.eval source file =
        ((session.eval source file).1, { (session.eval source file).2 with limit := limit' })) ∧
    (∀ a b : Task, a.Nested costs b → (b.run costs).1 = .tooDeep →
      a.run costs = (.tooDeep, b.after costs)) ∧
    (∀ frame before values form rest s t,
      evaluateEach (evaluate costs limit) frame before s = (.done values, t) →
      (evaluate costs limit frame form t).1 = .tooDeep →
      evaluateBody (evaluate costs limit) frame (before ++ form :: rest) s =
        (.tooDeep, (evaluate costs limit frame form t).2)) ∧
    (∀ params form before rest values args outer serial own loc bound s t,
      Parameters.bind params outer args loc = .ok bound →
      evaluateEach (evaluate costs limit) s.frames.size before
        ((s.record (.applied (.closure params (before ++ form :: rest) outer serial own)
          args.length)).addFrame bound).2 = (.done values, t) →
      (evaluate costs limit s.frames.size form t).1 = .tooDeep →
      applyTo (evaluate costs limit) (.closure params (before ++ form :: rest) outer serial own)
        args loc s = (.tooDeep, (evaluate costs limit s.frames.size form t).2)) ∧
    ∀ a : Task, (a.run costs).1 = .tooDeep → ∃ b, a.Nested costs b ∧ b.limit = 0 := by
  refine ⟨?_, ?_, ?_, ?_, ?_, ?_, ?_, ?_⟩
  · intro frame form s ended
    exact evaluate_of_le le ended
  · intro frame forms s ended
    exact evaluateBody_of_le le ended
  · intro levels callee args loc s ended
    rw [evaluateInside_eq] at ended ⊢
    rw [evaluateInside_eq]
    exact applyTo_of_le (Nat.sub_le_sub_right le levels) ended
  · rintro session source file rfl ended
    exact session.eval_of_le le ended
  · intro a b nested deep
    exact nested.run_of_tooDeep deep
  · intro frame before values form rest s t evaluated deep
    exact evaluateBody_of_tooDeep evaluated deep rest
  · intro params form before rest values args outer serial own loc bound s t
    exact applyTo_of_tooDeep
  · intro a deep
    exact Task.exists_nested_of_tooDeep deep

/-- The argument of the call is a call too, and seven levels are just enough for both. -/
theorem higher_limit_conservative_of_calls :
    let callee : Value := .closure [⟨"x", false, none⟩] [.symbol "x" none] 0 0 none
    let s : Store := ⟨#[⟨[("f", callee)], none⟩], 1, []⟩
    let form : Value :=
      .list [.symbol "f" none, .list [.symbol "f" none, .integer 1 none] none] none
    (evaluate .usual 6 0 form s).1 = .tooDeep ∧ (evaluate .usual 7 0 form s).1 ≠ .tooDeep ∧
      evaluate .usual 1000 0 form s = evaluate .usual 7 0 form s := by
  have deep : (evaluate .usual 6 0 (.list [.symbol "f" none,
      .list [.symbol "f" none, .integer 1 none] none] none) ⟨#[⟨[("f",
        .closure [⟨"x", false, none⟩] [.symbol "x" none] 0 0 none)], none⟩], 1, []⟩).1 =
      .tooDeep := by with_unfolding_all rfl
  have value : (evaluate .usual 7 0 (.list [.symbol "f" none,
      .list [.symbol "f" none, .integer 1 none] none] none) ⟨#[⟨[("f",
        .closure [⟨"x", false, none⟩] [.symbol "x" none] 0 0 none)], none⟩], 1, []⟩).1 =
      .done (.integer 1 none) := by with_unfolding_all rfl
  intro callee s form
  have ended : (evaluate .usual 7 0 form s).1 ≠ .tooDeep := by
    intro deep
    cases deep.symm.trans value
  have le : 7 ≤ 1000 := by decide
  exact ⟨deep, ended, (higher_limit_conservative .usual le).1 0 form s ended⟩

end ScopedLisp
