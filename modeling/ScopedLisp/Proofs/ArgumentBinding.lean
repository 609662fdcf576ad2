import Mathlib.Data.List.Nodup
import ScopedLisp.Proofs.Data

set_option autoImplicit false

namespace ScopedLisp

namespace Frame

theorem setBinding_of_notMem {name : String} {bindings : List (String × Value)}
    (new : name ∉ bindings.map Prod.fst) (v : Value) :
    setBinding name v bindings = bindings ++ [(name, v)] := by
  induction bindings with
  | nil => rfl
  | cons binding rest ih =>
    rw [List.map_cons, List.mem_cons, not_or] at new
    rw [setBinding, if_neg (Ne.symm new.1), ih new.2, List.cons_append]

theorem bindings_setAll (frame : Frame) {made : List (String × Value)}
    (distinct : ((frame.bindings ++ made).map Prod.fst).Nodup) :
    (frame.setAll made).bindings = frame.bindings ++ made := by
  induction made generalizing frame with
  | nil => exact (List.append_nil _).symm
  | cons binding rest ih =>
    obtain ⟨name, v⟩ := binding
    have new : name ∉ frame.bindings.map Prod.fst := by
      intro member
      rw [List.map_append, List.nodup_append] at distinct
      exact distinct.2.2 name member name (by simp) rfl
    have added : (frame.set name v).bindings = frame.bindings ++ [(name, v)] :=
      setBinding_of_notMem new v
    rw [setAll_cons, ih, added, List.append_assoc, List.singleton_append]
    -- The names of the larger frame and of what is left are distinct as well.
    rw [added, List.append_assoc, List.singleton_append]
    exact distinct

theorem get?_of_mem {frame : Frame} (distinct : (frame.bindings.map Prod.fst).Nodup) {name : String}
    {v : Value} (member : (name, v) ∈ frame.bindings) : frame.get? name = some v := by
  obtain ⟨before, after, split⟩ := List.append_of_mem member
  refine List.lookup_eq_some_iff.2 ⟨before, after, split, fun binding earlier => ?_⟩
  rw [split, List.map_append, List.nodup_append] at distinct
  have other := distinct.2.2 binding.1 (List.mem_map_of_mem earlier) name (by simp)
  simpa using Ne.symm other

end Frame

namespace Parameters

/-- The frame has exactly the parameters, and every argument is the value of one of them or an item
of the variadic one. -/
structure Takes (params : List Param) (args : List Value) (bound : Frame) : Prop where
  names : bound.bindings.map Prod.fst = params.map Param.name
  distinct : (params.map Param.name).Nodup
  each : ∀ (i : Nat) (p : Param), (fixed params)[i]? = some p →
    ∃ arg, args[i]? = some arg ∧ bound.get? p.name = some arg
  all : (∀ p ∈ params, p.variadic = false) → bound.bindings.map Prod.snd = args
  rest : ∀ p ∈ params, p.variadic = true → ∃ first items,
    bound.bindings.map Prod.snd = first ++ [.list items none] ∧
      bound.get? p.name = some (.list items none) ∧ first ++ items = args

theorem eq_fixed_append_rest {params : List Param}
    (leading : ∀ p ∈ params.dropLast, p.variadic = false) :
    params = fixed params ++ (rest? params).toList := by
  rcases List.eq_nil_or_concat params with rfl | ⟨front, last, rfl⟩
  · rfl
  · rw [List.concat_eq_append, List.dropLast_concat] at leading
    have kept : front.filter (!·.variadic) = front := by
      rw [List.filter_eq_self]
      intro p member
      rw [leading p member]
      rfl
    rw [List.concat_eq_append, fixed, List.filter_append, kept, rest?, List.getLast?_concat]
    cases variadic : last.variadic <;> simp [variadic, Option.filter]

theorem rest?_eq_some_iff {params : List Param}
    (leading : ∀ p ∈ params.dropLast, p.variadic = false) {p : Param} :
    rest? params = some p ↔ p ∈ params ∧ p.variadic = true := by
  constructor
  · intro found
    obtain ⟨last, variadic⟩ := Option.filter_eq_some_iff.1 found
    exact ⟨List.mem_of_getLast? last, variadic⟩
  · rintro ⟨member, variadic⟩
    rw [eq_fixed_append_rest leading, List.mem_append] at member
    rcases member with inside | last
    · have plain := (List.mem_filter.1 inside).2
      rw [variadic] at plain
      cases plain
    · exact Option.mem_toList.1 last

theorem rest?_eq_none_iff {params : List Param}
    (leading : ∀ p ∈ params.dropLast, p.variadic = false) :
    rest? params = none ↔ ∀ p ∈ params, p.variadic = false := by
  rw [Option.eq_none_iff_forall_ne_some]
  simp only [ne_eq, rest?_eq_some_iff leading, not_and, Bool.not_eq_true]

section Pairs

variable {params : List Param} {args : List Value}

theorem length_fixed_le (accepted : (arity params).accepts args.length = true) :
    (fixed params).length ≤ args.length := by
  unfold arity at accepted
  split at accepted <;> simp only [Arity.accepts, decide_eq_true_eq] at accepted <;> omega

theorem map_fst_pairs (enough : (fixed params).length ≤ args.length) :
    (pairs params args).map Prod.fst =
      (fixed params ++ (rest? params).toList).map Param.name := by
  have taken : (((fixed params).map Param.name).zip args).map Prod.fst =
      (fixed params).map Param.name := List.map_fst_zip (by simpa using enough)
  unfold pairs
  cases rest? params with
  | none => simpa using taken
  | some last => simp [taken]

theorem map_snd_pairs_of_none (none : rest? params = none)
    (accepted : (arity params).accepts args.length = true) :
    (pairs params args).map Prod.snd = args := by
  simp only [arity, none, Arity.accepts, decide_eq_true_eq] at accepted
  simp only [pairs, none]
  exact List.map_snd_zip (by simp [accepted])

theorem map_snd_zip_eq_take {α β : Type} (xs : List α) (ys : List β) :
    (xs.zip ys).map Prod.snd = ys.take xs.length := by
  induction xs generalizing ys with
  | nil => rfl
  | cons x xs ih =>
    cases ys with
    | nil => rfl
    | cons y ys => rw [List.zip_cons_cons, List.map_cons, ih, List.length_cons, List.take_succ_cons]

theorem map_snd_pairs_of_some {last : Param} (some : rest? params = some last) :
    (pairs params args).map Prod.snd = args.take (fixed params).length ++
      [.list (args.drop (fixed params).length) none] := by
  simp only [pairs, some, List.map_append, List.map_cons, List.map_nil, map_snd_zip_eq_take,
    List.length_map]

end Pairs

/-- The bindings of a call are those of the pairs, none of which undoes another. -/
theorem takes_of_accepts {params : List Param} {args : List Value} (outer : FrameId)
    (distinct : (params.map Param.name).Nodup)
    (leading : ∀ p ∈ params.dropLast, p.variadic = false)
    (accepted : (arity params).accepts args.length = true) :
    Takes params args ((Frame.empty (some outer)).setAll (pairs params args)) := by
  have enough := length_fixed_le accepted
  have names : (pairs params args).map Prod.fst = params.map Param.name := by
    rw [map_fst_pairs enough, ← eq_fixed_append_rest leading]
  have bindings : ((Frame.empty (some outer)).setAll (pairs params args)).bindings =
      pairs params args := Frame.bindings_setAll (.empty (some outer)) (names ▸ distinct)
  have found {name : String} {v : Value} (member : (name, v) ∈ pairs params args) :
      ((Frame.empty (some outer)).setAll (pairs params args)).get? name = some v := by
    apply Frame.get?_of_mem
    · rw [bindings, names]
      exact distinct
    · rw [bindings]
      exact member
  refine ⟨by rw [bindings, names], distinct, fun i p at_i => ?_, fun plain => ?_,
    fun p member variadic => ?_⟩
  · have inside : i < args.length := by
      have := (List.getElem?_eq_some_iff.1 at_i).1
      omega
    have here : args[i]? = some args[i] := List.getElem?_eq_getElem inside
    refine ⟨args[i], here, found ?_⟩
    have taken : (p.name, args[i]) ∈ ((fixed params).map Param.name).zip args := by
      refine List.mem_of_getElem? (i := i) (List.getElem?_zip_eq_some.2 ⟨?_, here⟩)
      rw [List.getElem?_map, at_i, Option.map_some]
    unfold pairs
    split
    · exact taken
    · exact List.mem_append_left _ taken
  · rw [bindings, map_snd_pairs_of_none ((rest?_eq_none_iff leading).2 plain) accepted]
  · have last := (rest?_eq_some_iff leading).2 ⟨member, variadic⟩
    refine ⟨args.take (fixed params).length, args.drop (fixed params).length, ?_, found ?_,
      List.take_append_drop _ _⟩
    · rw [bindings, map_snd_pairs_of_some last]
    · simp [pairs, last]

section Arity

variable {params : List Param} {outer : FrameId} {args : List Value} {loc : Option Location}

theorem arity_of_fixed (leading : ∀ p ∈ params.dropLast, p.variadic = false)
    (none : ¬ ∃ p ∈ params, p.variadic = true) : arity params = .exactly (fixed params).length := by
  have plain : ∀ p ∈ params, p.variadic = false := by simpa using none
  rw [arity, (rest?_eq_none_iff leading).2 plain]

theorem arity_of_variadic (leading : ∀ p ∈ params.dropLast, p.variadic = false)
    (some : ∃ p ∈ params, p.variadic = true) : arity params = .atLeast (fixed params).length := by
  obtain ⟨p, member, variadic⟩ := some
  rw [arity, (rest?_eq_some_iff leading).2 ⟨member, variadic⟩]

theorem accepts_iff (leading : ∀ p ∈ params.dropLast, p.variadic = false) (count : Nat) :
    (arity params).accepts count = true ↔
      ((¬ ∃ p ∈ params, p.variadic = true) → count = (fixed params).length) ∧
        ((∃ p ∈ params, p.variadic = true) → (fixed params).length ≤ count) := by
  by_cases some : ∃ p ∈ params, p.variadic = true
  · rw [arity_of_variadic leading some]
    simp [Arity.accepts, some]
  · rw [arity_of_fixed leading some]
    simp [Arity.accepts, some]

theorem bind_of_accepts (accepted : (arity params).accepts args.length = true) :
    bind params outer args loc = .ok ((Frame.empty (some outer)).setAll (pairs params args)) :=
  if_pos accepted

theorem bind_eq_error_iff (e : Error) :
    bind params outer args loc = .error e ↔ ¬ (arity params).accepts args.length = true ∧
      e = ⟨.arity none (arity params).text args.length, loc⟩ := by
  unfold bind
  split
  · rename_i accepted
    exact ⟨nofun, fun refused => absurd accepted refused.1⟩
  · rename_i refused
    exact ⟨fun same => ⟨refused, (Except.error.inj same).symm⟩, fun same => by rw [same.2]⟩

end Arity

end Parameters

theorem evaluate_lambda (costs : Costs) (limit : Nat) (frame : FrameId) (mark : Option Location)
    (operands : List Value) (loc : Option Location) :
    evaluate costs (limit + 1) frame (.list (.symbol "lambda" mark :: operands) loc) =
      evaluateLambda frame operands loc := by
  rw [evaluate_succ]
  rfl

theorem evaluateLambda_of_parse {operand : Value} {loc : Option Location} {params : List Param}
    (parsed : Parameters.parse operand loc = .ok params) (frame : FrameId) (body : List Value)
    (s : Store) :
    evaluateLambda frame (operand :: body) loc s =
      (.done (.closure params body frame s.nextSerial loc), s.takeSerial.2) := by
  simp only [evaluateLambda, parsed]
  rfl

theorem parse_of_evaluate_lambda {costs : Costs} {limit : Nat} {frame : FrameId}
    {mark loc : Option Location} {operands : List Value} {s t : Store} {v : Value}
    (made : evaluate costs limit frame (.list (.symbol "lambda" mark :: operands) loc) s =
      (.done v, t)) :
    ∃ operand body params, operands = operand :: body ∧
      Parameters.parse operand loc = .ok params ∧
      v = .closure params body frame s.nextSerial loc := by
  cases limit with
  | zero =>
    rw [evaluate_zero] at made
    cases made
  | succ limit =>
    rw [evaluate_lambda] at made
    cases operands with
    | nil => cases made
    | cons operand body =>
      cases parsed : Parameters.parse operand loc with
      | error f =>
        simp only [evaluateLambda, parsed] at made
        cases made
      | ok params =>
        rw [evaluateLambda_of_parse parsed] at made
        cases made
        exact ⟨operand, body, params, rfl, parsed, rfl⟩

/-- A `lambda` form that is evaluated in a frame makes a closure of that frame. A call of the
closure is refused exactly if the number of arguments is not that of the fixed parameters, or is
less than that if there is a variadic one, and the error at the place of the call says so. Otherwise
a frame inside that frame binds the parameters and nothing else, each once and in their order, the
fixed ones to the first arguments and the variadic one to a list of all that are left. -/
theorem argument_binding {costs : Costs} {limit : Nat} {frame : FrameId}
    {mark place : Option Location} {operands : List Value} {s t : Store} {callee : Value}
    (made : evaluate costs limit frame (.list (.symbol "lambda" mark :: operands) place) s =
      (.done callee, t)) :
    ∃ params body serial, callee = .closure params body frame serial place ∧
      ∀ (args : List Value) (loc : Option Location),
        let count := (Parameters.fixed params).length
        let variadic := ∃ p ∈ params, p.variadic = true
        (∀ e, Parameters.bind params frame args loc = .error e ↔
          ¬ variadic ∧ args.length ≠ count ∧
              e = ⟨.arity none (toString count) args.length, loc⟩ ∨
            variadic ∧ args.length < count ∧
              e = ⟨.arity none ("at least " ++ toString count) args.length, loc⟩) ∧
        ((¬ variadic → args.length = count) → (variadic → count ≤ args.length) →
          ∃ bound, Parameters.bind params frame args loc = .ok bound ∧
            bound.outer = some frame ∧ Parameters.Takes params args bound) := by
  obtain ⟨operand, body, params, _, parsed, rfl⟩ := parse_of_evaluate_lambda made
  obtain ⟨distinct, leading⟩ := Parameters.parse_ok parsed
  refine ⟨params, body, s.nextSerial, rfl, fun args loc => ?_⟩
  intro count variadic
  refine ⟨fun e => ?_, fun equal enough => ?_⟩
  · rw [Parameters.bind_eq_error_iff]
    by_cases some : variadic
    · rw [Parameters.arity_of_variadic leading some]
      simp [Arity.accepts, Arity.text, some, count]
    · rw [Parameters.arity_of_fixed leading some]
      simp [Arity.accepts, Arity.text, some, count]
  · have accepted : (Parameters.arity params).accepts args.length = true :=
      (Parameters.accepts_iff leading args.length).2 ⟨equal, enough⟩
    exact ⟨_, Parameters.bind_of_accepts accepted, Frame.outer_setAll _ _,
      Parameters.takes_of_accepts frame distinct leading accepted⟩

/-- One fixed parameter and a variadic one refuse to go without an argument, and take three. -/
theorem argument_binding_of_rest :
    let form : Value := .list [.symbol "lambda" none,
      .list [.symbol "a" none, .symbol "&rest" none, .symbol "r" none] none] none
    let params : List Param := [⟨"a", false, none⟩, ⟨"r", true, none⟩]
    let args : List Value := [.integer 1 none, .integer 2 none, .integer 3 none]
    evaluate .usual 1 0 form .empty = (.done (.closure params [] 0 0 none), ⟨#[], 1, []⟩) ∧
      Parameters.bind params 0 [] none = .error ⟨.arity none "at least 1" 0, none⟩ ∧
      ∃ bound, Parameters.bind params 0 args none = .ok bound ∧ bound.outer = some 0 ∧
        Parameters.Takes params args bound := by
  have made : evaluate .usual 1 0 (.list [.symbol "lambda" none,
      .list [.symbol "a" none, .symbol "&rest" none, .symbol "r" none] none] none) .empty =
      (.done (.closure [⟨"a", false, none⟩, ⟨"r", true, none⟩] [] 0 0 none), ⟨#[], 1, []⟩) := by
    cbv
  have wanted : "at least 1" = "at least " ++ toString 1 := by decide
  intro form params args
  obtain ⟨params', body, serial, same, calls⟩ := argument_binding made
  cases same
  have some : ∃ p ∈ params, p.variadic = true := by decide
  refine ⟨made, ((calls [] none).1 _).2 (.inr ⟨some, by decide, by rw [wanted]; rfl⟩), ?_⟩
  exact (calls args none).2 (fun none => absurd some none) fun _ => by decide

end ScopedLisp
