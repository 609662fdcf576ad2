import Mathlib.Data.Fintype.EquivFin
import ScopedLisp.Proofs.JoinedText
import ScopedLisp.Proofs.ReachableSession

set_option autoImplicit false

namespace ScopedLisp

/-- The parameters of a closure; other values have none. -/
def Value.params : Value → List Param
  | closure params _ _ _ _ => params
  | _ => []

/-- The places of the value itself and of its parameters, without those of the values inside it. -/
def Value.ownPlaces (v : Value) : List Location :=
  v.loc.toList ++ v.params.filterMap Param.loc

/-- All places in a value. -/
def Value.places (v : Value) : List Location :=
  v.parts.flatMap Value.ownPlaces

/-- All places in the values that are bound. -/
def Store.places (s : Store) : List Location :=
  s.frames.toList.flatMap fun frame => frame.bindings.flatMap fun binding => binding.2.places

/-- No bound value has a place in the text of this name. -/
def Store.Avoids (s : Store) (file : Option String) : Prop :=
  ∀ place ∈ s.places, place.file ≠ file

theorem Store.exists_avoids (s : Store) : ∃ file, s.Avoids file := by
  obtain ⟨file, new⟩ := Infinite.exists_notMem_finset (s.places.map Location.file).toFinset
  refine ⟨file, ?_⟩
  rintro place member rfl
  exact new (List.mem_toFinset.2 (List.mem_map_of_mem member))

namespace Relocation

variable {r : Relocation}

/-- The relocation changes none of these places. -/
def Fixes (r : Relocation) (places : List Location) : Prop :=
  ∀ place ∈ places, r.place (some place) = some place

theorem fixes_embed {s : Store} {mark : Option String} (avoids : s.Avoids mark)
    (file : Option String) (lines : Nat) : (embed mark file lines).Fixes s.places := by
  intro place member
  simp only [embed, place_ofMap, Option.map_some, if_neg (avoids place member)]

theorem place_eq_self {loc : Option Location} (fixes : r.Fixes loc.toList) : r.place loc = loc := by
  cases loc with
  | none => exact r.place_none
  | some place => exact fixes place (List.mem_singleton_self place)

theorem relocate_params_eq_self {params : List Param}
    (fixes : r.Fixes (params.filterMap Param.loc)) :
    params.map (Param.relocate r) = params := by
  have each : ∀ param ∈ params, param.relocate r = param := by
    intro param member
    have own : r.place param.loc = param.loc := by
      apply place_eq_self
      intro place here
      exact fixes place (List.mem_filterMap.2 ⟨param, member, Option.mem_toList.1 here⟩)
    rw [Param.relocate, own]
  rw [List.map_congr_left each, List.map_id']

theorem relocate_eq_self {v : Value} (fixes : r.Fixes v.places) : v.relocate r = v := by
  induction v using Value.induction_on_children with
  | ascend v ih =>
    have own : r.Fixes v.ownPlaces := by
      intro place member
      exact fixes place (List.mem_flatMap.2 ⟨v, v.self_mem_parts, member⟩)
    have here : r.place v.loc = v.loc :=
      place_eq_self fun place member => own place (List.mem_append_left _ member)
    have parameters : v.params.map (Param.relocate r) = v.params :=
      relocate_params_eq_self fun place member => own place (List.mem_append_right _ member)
    have inside : v.children.map (Value.relocate r) = v.children := by
      have each : ∀ child ∈ v.children, child.relocate r = child := by
        intro child member
        apply ih child member
        intro place placed
        obtain ⟨part, within, found⟩ := List.mem_flatMap.1 placed
        exact fixes place (List.mem_flatMap.2 ⟨part, Value.mem_parts_of_child member within, found⟩)
      rw [List.map_congr_left each, List.map_id']
    cases v with
    | list items loc =>
      rw [Value.relocate_list]
      exact congrArg₂ Value.list inside here
    | program forms loc =>
      rw [Value.relocate_program]
      exact congrArg₂ Value.program inside here
    | closure params body frame serial loc =>
      rw [Value.relocate_closure, show params.map (Param.relocate r) = params from parameters]
      exact congrArg₂ (Value.closure params · frame serial ·) inside here
    | builtin op serial => rfl
    | foreign kind text => rfl
    | void loc => exact congrArg Value.void here
    | integer n loc => exact congrArg (Value.integer n) here
    | float x loc => exact congrArg (Value.float x) here
    | bool b loc => exact congrArg (Value.bool b) here
    | string s loc => exact congrArg (Value.string s) here
    | symbol name loc => exact congrArg (Value.symbol name) here

/-- A relocation that leaves all bound values alone does nothing to the store. -/
theorem relocate_store_eq {s : Store} (fixes : r.Fixes s.places) :
    s.relocate r = { s with journal := [] } := by
  have each : ∀ frame ∈ s.frames, frame.relocate r = frame := by
    intro frame member
    have bindings : ∀ binding ∈ frame.bindings,
        (binding.1, binding.2.relocate r) = binding := by
      intro binding bound
      have value : binding.2.relocate r = binding.2 := by
        apply relocate_eq_self
        intro place found
        apply fixes
        exact List.mem_flatMap.2 ⟨frame, Array.mem_toList_iff.2 member,
          List.mem_flatMap.2 ⟨binding, bound, found⟩⟩
      exact Prod.ext rfl value
    rw [Frame.relocate, List.map_congr_left bindings, List.map_id']
  rw [Store.relocate, Array.map_congr_left each, Array.map_id']

theorem relocate_stay (v : Value) : v.relocate stay = v :=
  relocate_eq_self fun _ _ => rfl

end Relocation

/-- Whether all values are kept or only the last one, what comes next starts from the same store. -/
theorem evaluateEach_bind_eq (ev : Evaluator) (frame : FrameId) (forms : List Value)
    (next : Eval Value) :
    (evaluateEach ev frame forms >>= fun _ => next) =
      evaluateBody ev frame forms >>= fun _ => next := by
  rw [evaluateBody_eq_last]
  simp only [bind_assoc, pure_bind]

/-- Forms that are evaluated as one program are evaluated as two, one after the other, if the second
has a form. Where the programs stand makes no difference. -/
theorem evaluate_program_append {before rest : List Value} (nonempty : rest ≠ []) (costs : Costs)
    (limit : Nat) (frame : FrameId) (whole first second : Option Location) :
    evaluate costs limit frame (.program (before ++ rest) whole) =
      evaluate costs limit frame (.program before first) >>= fun _ =>
        evaluate costs limit frame (.program rest second) := by
  cases limit with
  | zero =>
    simp only [evaluate_zero]
    rfl
  | succ limit =>
    obtain ⟨form, further, rfl⟩ := List.exists_cons_of_ne_nil nonempty
    simp only [evaluate_succ, step, evaluateBody_append, evaluateEach_bind_eq]

def Failure.relocate (r : Relocation) : Failure → Failure
  | error e => error (e.relocate r)
  | failure => failure

namespace Session

/-- The session with all places in its store relocated, without the journal. -/
def relocate (r : Relocation) (s : Session) : Session :=
  { s with store := s.store.relocate r }

/-- An answer and the session after it, with all places relocated and without the journal. -/
def relocateEnd (r : Relocation) :
    Except Failure Value × Session → Except Failure Value × Session
  | (.ok v, s) => (.ok (v.relocate r), s.relocate r)
  | (.error failure, s) => (.error (failure.relocate r), s.relocate r)

/-- An answer and the session after it, without the journal. -/
def forgetLog (ended : Except Failure Value × Session) : Except Failure Value × Session :=
  (ended.1, ended.2.clearLog)

variable {r r' : Relocation}

theorem relocate_of_fixes {s : Session} (fixes : r.Fixes s.store.places) :
    s.relocate r = s.clearLog := by
  rw [relocate, Relocation.relocate_store_eq fixes]
  rfl

theorem relocateEnd_stay (ended : Except Failure Value × Session) :
    relocateEnd .stay ended = forgetLog ended := by
  obtain ⟨answer, s⟩ := ended
  have after : s.relocate .stay = s.clearLog := relocate_of_fixes fun _ _ => rfl
  cases answer with
  | ok v => rw [relocateEnd, Relocation.relocate_stay, after, forgetLog]
  | error failure =>
    have same : failure.relocate .stay = failure := by cases failure <;> rfl
    rw [relocateEnd, same, after, forgetLog]

/-- The answer of a session to a computation that ended so. -/
def answer : Outcome Value → Except Failure Value
  | .done v => .ok v
  | .failed f => .error (.ofFault f)
  | .tooDeep => .error .tooDeep

theorem relocateEnd_run (s : Session) (computation : Eval Value) :
    relocateEnd r (s.run computation) = (answer ((computation s.store).1.relocate r),
      { s with store := (computation s.store).2.relocate r }) := by
  unfold run
  split <;> rename_i ended <;> rw [ended]
  · rfl
  · rename_i f _
    cases f <;> rfl
  · rfl

/-- Sessions that are the same after relocation end the same after it. -/
theorem relocateEnd_evaluate {s t : Session} {form form' : Value}
    (sessions : s.relocate r = t.relocate r') (forms : form.relocate r = form'.relocate r') :
    relocateEnd r (s.evaluate form) = relocateEnd r' (t.evaluate form') := by
  obtain ⟨store, root, limit, host⟩ := s
  obtain ⟨store', root', limit', host'⟩ := t
  simp only [relocate, mk.injEq] at sessions
  obtain ⟨stores, rfl, rfl, rfl⟩ := sessions
  obtain ⟨outcomes, after⟩ :=
    Relocation.evaluate_relocate forms stores .usual (limit - host.evaluation) root
  rw [evaluate, evaluate, relocateEnd_run, relocateEnd_run]
  simp only [levels, outcomes, after]

/-- Up to the journal, a text that can be read is the evaluation of its forms. -/
theorem relocateEnd_eval (s : Session) {source : String} {file : Option String}
    {forms : List Value} (read : s.read source file = .ok forms) :
    relocateEnd r (s.eval source file) = relocateEnd r (s.evaluate (.ofForms forms file)) := by
  -- What is written down before and after the evaluation is gone after relocation.
  have started : relocateEnd r
      ((s.record (.evaluating forms.length file)).evaluate (.ofForms forms file)) =
        relocateEnd r (s.evaluate (.ofForms forms file)) :=
    relocateEnd_evaluate rfl rfl
  rw [← started, eval, read]
  simp only
  split
  · rename_i ended
    rw [ended]
    rfl
  · rfl

theorem forgetLog_eval (s : Session) {source : String} {file : Option String}
    {forms : List Value} (read : s.read source file = .ok forms) :
    forgetLog (s.eval source file) = forgetLog (s.evaluate (.ofForms forms file)) := by
  rw [← relocateEnd_stay, ← relocateEnd_stay]
  exact s.relocateEnd_eval read

/-- The evaluation of the forms of a text ends as the text does, with the same environments. -/
theorem exists_evaluated (s : Session) {source : String} {file : Option String}
    {forms : List Value} (read : s.read source file = .ok forms) :
    ∃ t, s.evaluate (.ofForms forms file) = ((s.eval source file).1, t) ∧
      t.clearLog = (s.eval source file).2.clearLog := by
  have same := s.forgetLog_eval read
  simp only [forgetLog, Prod.mk.injEq] at same
  obtain ⟨answers, sessions⟩ := same
  exact ⟨(s.evaluate (.ofForms forms file)).2, Prod.ext answers.symm rfl, sessions.symm⟩

/-- A computation that follows one that returned runs in the session after it. -/
theorem run_bind_of_ok {s t : Session} {first : Eval Value} {v : Value} (next : Value → Eval Value)
    (returned : s.run first = (.ok v, t)) :
    t.root = s.root ∧ t.levels = s.levels ∧ s.run (first >>= next) = t.run (next v) := by
  unfold run at returned ⊢
  split at returned <;> rename_i ended <;> cases returned
  refine ⟨rfl, rfl, ?_⟩
  rw [show (first >>= next) s.store = _ from Eval.bind_of_done ended]

theorem run_bind_of_error {s t : Session} {first : Eval Value} {failure : Failure}
    (next : Value → Eval Value) (failed : s.run first = (.error failure, t)) :
    s.run (first >>= next) = (.error failure, t) := by
  unfold run at failed ⊢
  split at failed <;> rename_i ended <;> cases failed
  · rw [show (first >>= next) s.store = _ from Eval.bind_of_failed ended]
  · rw [show (first >>= next) s.store = _ from Eval.bind_of_tooDeep ended]

section Joined

variable {s t : Session} {before rest : List Value} {whole : Option Location}

/-- Forms after a program that returned are evaluated in the session that it leaves. -/
theorem evaluate_append_of_ok {first : Option Location} {v : Value} (nonempty : rest ≠ [])
    (returned : s.evaluate (.program before first) = (.ok v, t)) (second : Option Location) :
    s.evaluate (.program (before ++ rest) whole) = t.evaluate (.program rest second) := by
  obtain ⟨root, levels, goes⟩ := run_bind_of_ok
    (fun _ => ScopedLisp.evaluate .usual s.levels s.root (.program rest second)) returned
  rw [evaluate, evaluate,
    evaluate_program_append nonempty .usual s.levels s.root whole first second, goes, root, levels]

theorem evaluate_append_of_error {first : Option Location} {failure : Failure}
    (nonempty : rest ≠ []) (failed : s.evaluate (.program before first) = (.error failure, t)) :
    s.evaluate (.program (before ++ rest) whole) = (.error failure, t) := by
  rw [evaluate, evaluate_program_append nonempty .usual s.levels s.root whole first none]
  exact run_bind_of_error _ failed

/-- Forms that were moved are evaluated as those of the text that they are from, under a name that is
new to the session. -/
theorem forgetLog_evaluate_embedded {source : String} {mark : Option String} {forms : List Value}
    (read : t.read source mark = .ok forms) (avoids : t.store.Avoids mark)
    (same : s.clearLog = t.clearLog) (file : Option String) (lines : Nat) :
    forgetLog (s.evaluate (.program (forms.map (Value.relocate (.embed mark file lines)))
        (some (.ofPosition file (Position.start.below lines))))) =
      relocateEnd (.embed mark file lines) (t.eval source mark) := by
  rw [relocateEnd_eval t read, ← relocateEnd_stay]
  apply relocateEnd_evaluate
  · rw [relocate_of_fixes (r := .stay) fun _ _ => rfl, same,
      relocate_of_fixes (Relocation.fixes_embed avoids file lines)]
  · rw [Relocation.relocate_stay, Value.ofForms, Value.relocate_program,
      Relocation.place_embed_ofPosition]

/-- What a text comes to does not depend on its name, but for the name in its places. -/
theorem forgetLog_eval_under {source : String} {file mark : Option String} {forms : List Value}
    (read : t.read source file = .ok forms) (avoids : t.store.Avoids mark) :
    forgetLog (t.eval source file) =
      relocateEnd (.embed mark file 0) (t.eval source mark) := by
  obtain ⟨marked, again, rfl⟩ := exists_read_of_read read mark
  rw [t.forgetLog_eval read]
  exact forgetLog_evaluate_embedded again avoids rfl file 0

variable {first second : String} {file : Option String} {forms : List Value}

/-- Up to the journal, joined texts are the evaluation of the forms of both. -/
theorem forgetLog_eval_joined {mark : Option String} {marked : List Value} (s : Session)
    (read : s.read first file = .ok forms) (readable : s.read second mark = .ok marked) :
    forgetLog (s.eval (first ++ "\n" ++ second) file) = forgetLog (s.evaluate (.ofForms
      (forms ++ marked.map (Value.relocate (.embed mark file (1 + first.toList.count '\n'))))
      file)) := by
  have both : s.read (first ++ "\n" ++ second) file = _ := readWithin_joined read second mark
  rw [show readWithin s.depth second mark = _ from readable] at both
  exact s.forgetLog_eval both

theorem forgetLog_eval_joined_of_error {more : List Value} {failure : Failure}
    (read : s.read first file = .ok forms) (readable : s.read second file = .ok more)
    (nonempty : more ≠ []) (failed : (s.eval first file).1 = .error failure) :
    forgetLog (s.eval (first ++ "\n" ++ second) file) = forgetLog (s.eval first file) := by
  obtain ⟨t, ended, after⟩ := s.exists_evaluated read
  rw [failed] at ended
  rw [s.forgetLog_eval_joined read readable, Value.ofForms,
    evaluate_append_of_error (by simpa using nonempty) ended]
  exact Prod.ext failed.symm after

theorem forgetLog_eval_joined_of_ok {mark : Option String} {marked : List Value} {v : Value}
    (read : s.read first file = .ok forms) (readable : s.read second mark = .ok marked)
    (nonempty : marked ≠ []) (returned : (s.eval first file).1 = .ok v)
    (avoids : (s.eval first file).2.store.Avoids mark) :
    forgetLog (s.eval (first ++ "\n" ++ second) file) =
      relocateEnd (.embed mark file (1 + first.toList.count '\n'))
        ((s.eval first file).2.eval second mark) := by
  obtain ⟨t, ended, after⟩ := s.exists_evaluated read
  rw [returned] at ended
  rw [s.forgetLog_eval_joined read readable, Value.ofForms,
    evaluate_append_of_ok (by simpa using nonempty) ended]
  rw [← s.read_eval first file] at readable
  exact forgetLog_evaluate_embedded readable avoids after file _

theorem eval_joined_of_unreadable {failure : ReadFailure} (s : Session)
    (read : s.read first file = .ok forms) (unreadable : s.read second file = .error failure) :
    s.eval (first ++ "\n" ++ second) file = (.error (.ofRead
      (failure.relocate (.embed file file (1 + first.toList.count '\n')))), s) := by
  have both : s.read (first ++ "\n" ++ second) file = _ := readWithin_joined read second file
  rw [show readWithin s.depth second file = _ from unreadable] at both
  rw [eval, both]
  rfl

end Joined

end Session

/-- A text that can be read and another text, given to a session one after the other or joined by the
end of a line. If the first fails, the joined text fails with it and leaves the same environments. If
it returns, the joined text ends as the second one does in the session after the first, but the
places of the second text are further down, by one line more than the first text has line ends: both
ends come from one evaluation of the second text, under a name that is new to the session, by moving
the places of this name alone. If the second text cannot be read, nothing is evaluated. -/
theorem eval_joined_texts (s : Session) {first : String} {file : Option String}
    {forms : List Value} (read : s.read first file = .ok forms) (second : String) :
    let joined := first ++ "\n" ++ second
    let lines := 1 + first.toList.count '\n'
    let alone := s.eval first file
    (∀ more, s.read second file = .ok more → more ≠ [] →
      (∀ failure, alone.1 = .error failure →
        Session.forgetLog (s.eval joined file) = Session.forgetLog alone) ∧
      ∀ v, alone.1 = .ok v →
        (∃ mark, alone.2.store.Avoids mark) ∧
        ∀ mark, alone.2.store.Avoids mark →
          let marked := alone.2.eval second mark
          Session.forgetLog (alone.2.eval second file) =
              Session.relocateEnd (.embed mark file 0) marked ∧
            Session.forgetLog (s.eval joined file) =
              Session.relocateEnd (.embed mark file lines) marked) ∧
    ∀ failure, s.read second file = .error failure →
      s.eval joined file =
        (.error (.ofRead (failure.relocate (.embed file file lines))), s) := by
  intro joined lines alone
  refine ⟨fun more readable nonempty => ⟨?_, ?_⟩, ?_⟩
  · intro failure failed
    exact Session.forgetLog_eval_joined_of_error read readable nonempty failed
  · intro v returned
    refine ⟨alone.2.store.exists_avoids, fun mark avoids => ?_⟩
    obtain ⟨marked, again, rfl⟩ := exists_read_of_read readable mark
    have some : marked ≠ [] := by simpa using nonempty
    rw [← s.read_eval first file] at readable
    exact ⟨Session.forgetLog_eval_under readable avoids,
      Session.forgetLog_eval_joined_of_ok read again some returned avoids⟩
  · intro failure unreadable
    exact s.eval_joined_of_unreadable read unreadable

/-- A comment with a parenthesis stands right before the second text, and the session knows a place
that the second text has too. The blame moves down with the text; the place known before stays. -/
theorem eval_joined_texts_of_comment :
    let root : Frame := ⟨[("a", .bool true (some ⟨none, 1, 1⟩))], none⟩
    let s : Session := ⟨⟨#[root], 0, []⟩, 0, 20, .usual⟩
    let blame (line : Int) : Failure := .error ⟨.unboundSymbol "x", some ⟨none, line, 1⟩⟩
    s.read "1;\n;(" none = .ok [.integer 1 (some ⟨none, 1, 1⟩)] ∧
      ((s.eval "1;\n;(" none).2.eval "x" none).1 = .error (blame 1) ∧
      (s.eval "1;\n;(\nx" none).1 = .error (blame 3) ∧
      (s.eval "1;\n;(\nx" none).2.store.frames = #[root] := by
  intro root s blame
  have read : s.read "1;\n;(" none = .ok [.integer 1 (some ⟨none, 1, 1⟩)] := by
    with_unfolding_all rfl
  have readable : s.read "x" none = .ok [.symbol "x" (some ⟨none, 1, 1⟩)] := by
    with_unfolding_all rfl
  have marked : s.read "x" (some "new") = .ok [.symbol "x" (some ⟨some "new", 1, 1⟩)] := by
    with_unfolding_all rfl
  have returned : s.eval "1;\n;(" none = (.ok (.integer 1 (some ⟨none, 1, 1⟩)),
      s.record (.evaluating 1 none)) := by
    rw [Session.eval, read]
    rfl
  have failed : (s.record (.evaluating 1 none)).eval "x" (some "new") =
      (.error (.error ⟨.unboundSymbol "x", some ⟨some "new", 1, 1⟩⟩),
        ((s.record (.evaluating 1 none)).record (.evaluating 1 (some "new"))).record
          (.evaluationFailed ⟨.unboundSymbol "x", some ⟨some "new", 1, 1⟩⟩)) := by
    rw [Session.eval, show (s.record _).read "x" _ = _ from marked]
    with_unfolding_all rfl
  have avoids : (s.record (.evaluating 1 none)).store.Avoids (some "new") := by
    intro place member
    have known : (s.record (.evaluating 1 none)).store.places = [⟨none, 1, 1⟩] := by decide
    rw [known] at member
    rw [List.mem_singleton.1 member]
    decide
  obtain ⟨readably, _⟩ := eval_joined_texts s read "x"
  obtain ⟨_, returns⟩ := readably _ readable (by simp)
  rw [returned] at returns
  obtain ⟨_, ends⟩ := returns _ rfl
  obtain ⟨alone, joined⟩ := ends _ avoids
  rw [failed] at alone joined
  have left := congrArg (fun ended => ended.2.store.frames) joined
  rw [returned]
  refine ⟨read, congrArg Prod.fst alone, congrArg Prod.fst joined, left.trans ?_⟩
  with_unfolding_all rfl

end ScopedLisp
