import ScopedLisp.Proofs.Provenance

set_option autoImplicit false

namespace ScopedLisp

/-- The items of a parameter list write out these parameters. -/
inductive Parameters.Written : List Value → List Param → Prop
  | nil : Written [] []
  | fixed {name : String} {place : Option Location} {items : List Value} {params : List Param}
      (plain : name ≠ "&rest") (further : Written items params) :
      Written (.symbol name place :: items) (⟨name, false, place⟩ :: params)
  | rest {name : String} (mark place : Option Location) (plain : name ≠ "&rest") :
      Written [.symbol "&rest" mark, .symbol name place] [⟨name, true, place⟩]

theorem Parameters.written_of_parseItems {loc : Option Location} {items : List Value}
    {params : List Param} (success : parseItems loc items = .ok params) : Written items params := by
  fun_induction parseItems loc items generalizing params with
  | case1 =>
    cases success
    exact .nil
  | case2 => cases success
  | case3 mark last place plain =>
    cases success
    exact .rest mark place plain
  | case4 => cases success
  | case5 => cases success
  | case6 name place items plain ih =>
    cases remaining : parseItems loc items with
    | error f =>
      rw [remaining] at success
      cases success
    | ok more =>
      rw [remaining] at success
      cases success
      exact .fixed plain (ih remaining)
  | case7 => cases success

theorem Parameters.written_of_parse {operand : Value} {form : Option Location} {params : List Param}
    (success : parse operand form = .ok params) :
    ∃ items loc, operand = .list items loc ∧ Written items params := by
  unfold parse at success
  split at success
  · rename_i items loc
    split at success
    · cases success
    · rename_i parsed
      simp only at success
      split at success
      · cases success
        exact ⟨items, loc, rfl, written_of_parseItems parsed⟩
      · cases success
  · cases success

theorem SpecialForm.eq_symbol_of_lambda {head : Value} (special : ofHead? head = some .lambda) :
    ∃ place, head = .symbol "lambda" place := by
  cases head with
  | symbol name place =>
    simp only [ofHead?, ofName?] at special
    split at special
    · cases special
    · split at special
      · cases special
      · split at special
        · rename_i same
          exact ⟨place, by rw [same]⟩
        · cases special
  | _ => cases special

/-- The kinds of values that are written as they are. -/
inductive Value.IsConstant : Value → Prop
  | integer (n : Int) (loc : Option Location) : IsConstant (.integer n loc)
  | float (x : Float) (loc : Option Location) : IsConstant (.float x loc)
  | bool (b : Bool) (loc : Option Location) : IsConstant (.bool b loc)
  | string (text : String) (loc : Option Location) : IsConstant (.string text loc)

/-- What a value at a place can be: a literal that was read there, or a closure that a `lambda` form
which was read there made. -/
inductive Value.WrittenAt (depth : Nat) (texts : List (String × Option String))
    (place : Location) : Value → Prop
  | literal {v : Value} (constant : v.IsConstant) (form : ReadFrom depth texts v)
      (located : v.loc = some place) : WrittenAt depth texts place v
  | closure {mark around : Option Location} {items body : List Value} {params : List Param}
      (frame : FrameId) (serial : Nat)
      (form : ReadFrom depth texts
        (.list (.symbol "lambda" mark :: .list items around :: body) (some place)))
      (parameters : Parameters.Written items params) :
      WrittenAt depth texts place (.closure params body frame serial (some place))

/-- A value has a place only if it was written there; voids and lists have none. -/
structure Value.PlacedRight (depth : Nat) (texts : List (String × Option String)) (v : Value) :
    Prop where
  written : ∀ place, v.loc = some place → v.WrittenAt depth texts place
  void : ∀ loc, v = .void loc → loc = none
  list : ∀ items loc, v = .list items loc → loc = none

/-- The value itself, if it is a list its items, their items and so on. -/
inductive Value.Contains : Value → Value → Prop
  | self (v : Value) : Contains v v
  | item {items : List Value} {loc : Option Location} {item v : Value} (member : item ∈ items)
      (inside : Contains item v) : Contains (.list items loc) v

/-- The value and all items in it have the right places. -/
def Value.AllPlacedRight (depth : Nat) (texts : List (String × Option String)) (v : Value) :
    Prop :=
  ∀ w, v.Contains w → w.PlacedRight depth texts

namespace Value

variable {depth : Nat} {texts : List (String × Option String)} {v : Value}

theorem IsCode.constant_of_literal (code : v.IsCode) (literal : v.isLiteral = true) :
    v.IsConstant := by
  cases code with
  | integer => exact .integer _ _
  | float => exact .float _ _
  | bool => exact .bool _ _
  | string => exact .string _ _
  | symbol => cases literal
  | list => cases literal
  | program => cases literal

theorem placedRight_of_constant (constant : v.IsConstant)
    (written : ∀ place, v.loc = some place → v.WrittenAt depth texts place) :
    v.PlacedRight depth texts := by
  cases constant <;> exact ⟨written, nofun, nofun⟩

theorem MadeOf.placedRight (made : v.MadeOf (ReadFrom depth texts)) :
    v.PlacedRight depth texts := by
  cases made with
  | literal form literal =>
    have constant := form.isCode.constant_of_literal literal
    exact placedRight_of_constant constant fun place located => .literal constant form located
  | unit => exact ⟨nofun, fun loc same => (Value.void.inj same).symm, nofun⟩
  | rest => exact ⟨nofun, nofun, fun items loc same => (Value.list.inj same).2.symm⟩
  | computed computed => cases computed <;> exact ⟨nofun, nofun, nofun⟩
  | @closure head operand body loc params frame serial form special parsed =>
    obtain ⟨mark, rfl⟩ := SpecialForm.eq_symbol_of_lambda special
    obtain ⟨items, around, rfl, parameters⟩ := Parameters.written_of_parse parsed
    refine ⟨fun place located => ?_, nofun, nofun⟩
    cases located
    exact .closure frame serial form parameters
  | builtin => exact ⟨nofun, nofun, nofun⟩

/-- The items of a list that a program made were made by the program. -/
theorem MadeOf.item {items : List Value} {loc : Option Location} {item : Value}
    (made : MadeOf (ReadFrom depth texts) (.list items loc)) (member : item ∈ items) :
    item.MadeOf (ReadFrom depth texts) := by
  cases made with
  | literal _ literal => cases literal
  | rest made => exact made item member
  | computed computed => cases computed

theorem MadeOf.allPlacedRight (made : v.MadeOf (ReadFrom depth texts)) :
    v.AllPlacedRight depth texts := by
  intro w contained
  induction contained with
  | self => exact made.placedRight
  | item member _ ih => exact ih (made.item member)

end Value

namespace Session

theorem fit_of_inner {d : Discipline} {s : Session} (holds : d.Holds s.store)
    (root : s.root < s.store.frames.size) {forms : List Value}
    (ready : ∀ form ∈ forms, d.Ready s.store form) {file : Option String} {task : Task}
    (inner : Task.Inner .usual (s.task forms file) task) : task.Fit d := by
  have recorded := Store.Precedes.record s.store (.evaluating forms.length file)
  have begun := holds.record (.evaluating forms.length file)
  generalize whole : s.task forms file = outer at inner
  have shape := congrArg Task.form whole
  cases inner with
  | @form limit frame form before rest values loc t u evaluated =>
    simp only [Session.task, Value.ofForms, Task.mk.injEq, Value.program.injEq] at whole
    obtain ⟨_, rfl, ⟨rfl, _⟩, rfl⟩ := whole
    have later : ∀ next ∈ before ++ form :: rest, d.Ready (s.store.record _) next :=
      fun next member => (ready next member).later recorded
    have ends := Discipline.evaluateEach_ends
      (d.evaluate_obeys .usual (limit - Costs.usual.program)) begun root
      fun next (member : next ∈ before) => later next (List.mem_append_left _ member)
    rw [evaluated] at ends
    exact ⟨ends.holds, ends.later.inside root, (later form (by simp)).later ends.later⟩
  | _ => cases shape

/-- All tasks that a text comes to start, end and return as every discipline has it that its forms
keep to. -/
theorem nested_ends {d : Discipline} {s : Session} (holds : d.Holds s.store)
    (root : s.root < s.store.frames.size) {forms : List Value}
    (ready : ∀ form ∈ forms, d.Ready s.store form) {file : Option String} {task : Task}
    (nested : Task.Nested .usual (s.task forms file) task) :
    d.Holds task.store ∧ ∃ before, d.Ends d.Sound before (task.run .usual) := by
  rcases Relation.ReflTransGen.cases_head nested with rfl | ⟨part, inner, further⟩
  · exact ⟨holds.record _, s.store, task_ends holds root ready file⟩
  · have fit := Task.Nested.fit further (fit_of_inner holds root ready inner)
    exact ⟨fit.holds, task.store, fit.ends .usual⟩

/-- The evaluations that a further text comes to keep to what was read up to this text. -/
theorem ends_of_runs {host : Host} {wish : Option Int} {first : Session}
    (started : (seeded host).raiseLimit wish = .ok first)
    {texts : List (String × Option String)} {source : String} {file : Option String} {task : Task}
    (runs : (first.evalAll texts).Runs source file task) :
    let d := Discipline.ofReading first.depth (texts ++ [(source, file)])
    d.Holds task.store ∧ ∃ before, d.Ends d.Sound before (task.run .usual) := by
  have reachable : (first.evalAll texts).Reachable :=
    ⟨host, wish, first, started, first.leads_evalAll texts⟩
  have holds := Discipline.ofReading_mono (List.subset_append_left texts [(source, file)])
    (holds_evalAll started texts)
  obtain ⟨forms, read, nested⟩ := runs
  exact nested_ends holds reachable.holds.root (ready_of_read texts read _) nested

end Session

/-- The list of the arguments that are left is bound without a place. -/
theorem Parameters.get?_rest {params : List Param} {outer : FrameId} {args : List Value}
    {loc : Option Location} {bound : Frame} {last : Param}
    (accepted : bind params outer args loc = .ok bound) (variadic : rest? params = some last) :
    bound.get? last.name = some (.list (args.drop (fixed params).length) none) := by
  unfold bind at accepted
  split at accepted
  · cases accepted
    simp only [pairs, variadic, Frame.setAll_append, Frame.setAll_cons, Frame.setAll_nil,
      Frame.get?_set, ↓reduceIte]
  · cases accepted

/-- A session that was started on some host with the operators bound in its root is given some texts
and then one more. What is bound after the texts, what is bound at the start and at the end of every
evaluation that the last text comes to, and what these evaluations and the text return has a place
only if it is a literal that was read there, or the closure of a `lambda` form that was read there,
with its parameters and its body; and the same of the items of lists. Voids and lists have no place,
and neither has what an operator returns or what a variadic parameter is bound to. -/
theorem value_places {host : Host} {wish : Option Int} {first : Session}
    (started : (Session.seeded host).raiseLimit wish = .ok first)
    (texts : List (String × Option String)) (source : String) (file : Option String) :
    (first.evalAll texts).store.AllBound (Value.AllPlacedRight first.depth texts) ∧
    (∀ v, ((first.evalAll texts).eval source file).1 = .ok v →
      v.AllPlacedRight first.depth (texts ++ [(source, file)])) ∧
    (∀ task, (first.evalAll texts).Runs source file task →
      task.store.AllBound (Value.AllPlacedRight first.depth (texts ++ [(source, file)])) ∧
      (task.after .usual).AllBound (Value.AllPlacedRight first.depth (texts ++ [(source, file)])) ∧
      ∀ v, (task.run .usual).1 = .done v → v.AllPlacedRight first.depth (texts ++ [(source, file)])) ∧
    (∀ (op : Operator) args loc v, op.call args loc = .ok v → v.loc = none) ∧
    ∀ params outer args loc bound last, Parameters.bind params outer args loc = .ok bound →
      Parameters.rest? params = some last →
      ∃ items, bound.get? last.name = some (.list items none) := by
  have known := Session.holds_evalAll started texts
  refine ⟨known.data.imp fun _ => Value.MadeOf.allPlacedRight, ?_, ?_, ?_, ?_⟩
  · intro v returned
    have ends := (first.evalAll texts).eval_ends source file
    generalize (first.evalAll texts).eval source file = ended at ends returned
    cases ends with
    | @returned forms _ store read ended =>
      cases returned
      obtain ⟨_, start, ends⟩ := Session.ends_of_runs started ⟨forms, read, .refl⟩
      rw [ended] at ends
      exact (ends.done v rfl).data.allPlacedRight
    | _ => cases returned
  · intro task runs
    obtain ⟨holds, start, ends⟩ := Session.ends_of_runs started runs
    refine ⟨holds.data.imp fun _ => Value.MadeOf.allPlacedRight,
      ends.holds.data.imp fun _ => Value.MadeOf.allPlacedRight, fun v returned => ?_⟩
    exact (ends.done v returned).data.allPlacedRight
  · intro op args loc v returned
    cases Operator.call_computed returned with
    | integer => rfl
    | float => rfl
    | bool => rfl
  · intro params outer args loc bound last accepted variadic
    exact ⟨_, Parameters.get?_rest accepted variadic⟩

/-- The second text has a closure of the first one return the arguments that are left: the list has
no place, and the number in it is the one that was read. -/
theorem value_places_of_rest :
    let texts := [("(define f (lambda (x &rest r) r))", some "lib")]
    let number : Value := .integer 8 (some ⟨none, 1, 6⟩)
    (((Session.seeded .usual).evalAll texts).eval "(f 7 8)" none).1 = .ok (.list [number] none) ∧
      number.WrittenAt (Session.seeded .usual).depth (texts ++ [("(f 7 8)", none)]) ⟨none, 1, 6⟩ := by
  have tokens : TokenStream.ofSource "(define f (lambda (x &rest r) r))" (some "lib") =
      ⟨[⟨.opening, "(", some ⟨some "lib", 1, 1⟩⟩, ⟨.symbol, "define", some ⟨some "lib", 1, 2⟩⟩,
        ⟨.symbol, "f", some ⟨some "lib", 1, 9⟩⟩, ⟨.opening, "(", some ⟨some "lib", 1, 11⟩⟩,
        ⟨.symbol, "lambda", some ⟨some "lib", 1, 12⟩⟩, ⟨.opening, "(", some ⟨some "lib", 1, 19⟩⟩,
        ⟨.symbol, "x", some ⟨some "lib", 1, 20⟩⟩, ⟨.symbol, "&rest", some ⟨some "lib", 1, 22⟩⟩,
        ⟨.symbol, "r", some ⟨some "lib", 1, 28⟩⟩, ⟨.closing, ")", some ⟨some "lib", 1, 29⟩⟩,
        ⟨.symbol, "r", some ⟨some "lib", 1, 31⟩⟩, ⟨.closing, ")", some ⟨some "lib", 1, 32⟩⟩,
        ⟨.closing, ")", some ⟨some "lib", 1, 33⟩⟩], none⟩ := by decide +kernel
  have room : (TokenStream.ofSource "(define f (lambda (x &rest r) r))"
      (some "lib")).tokens.length ≤ (Session.seeded .usual).depth := by
    rw [tokens]
    decide
  have library : (Session.seeded .usual).read "(define f (lambda (x &rest r) r))" (some "lib") =
      .ok [.list [.symbol "define" (some ⟨some "lib", 1, 2⟩), .symbol "f" (some ⟨some "lib", 1, 9⟩),
        .list [.symbol "lambda" (some ⟨some "lib", 1, 12⟩),
          .list [.symbol "x" (some ⟨some "lib", 1, 20⟩), .symbol "&rest" (some ⟨some "lib", 1, 22⟩),
            .symbol "r" (some ⟨some "lib", 1, 28⟩)] (some ⟨some "lib", 1, 19⟩),
          .symbol "r" (some ⟨some "lib", 1, 31⟩)] (some ⟨some "lib", 1, 11⟩)]
        (some ⟨some "lib", 1, 1⟩)] := by
    rw [Session.read, readWithin_of_length room, readProgram_eq_ok_iff, tokens]
    exact ⟨rfl, .cons (.opening rfl) <| .cons (.word rfl rfl) <| .cons (.word rfl rfl) <|
      .cons (.opening rfl) <| .cons (.word rfl rfl) <| .cons (.opening rfl) <|
      .cons (.word rfl rfl) <| .cons (.word rfl rfl) <| .cons (.word rfl rfl) <|
      .cons (.closing rfl) <| .cons (.word rfl rfl) <| .cons (.closing rfl) <|
      .cons (.closing rfl) .nil⟩
  have call : (Session.seeded .usual).read "(f 7 8)" none =
      .ok [.list [.symbol "f" (some ⟨none, 1, 2⟩), .integer 7 (some ⟨none, 1, 4⟩),
        .integer 8 (some ⟨none, 1, 6⟩)] (some ⟨none, 1, 1⟩)] := by with_unfolding_all rfl
  have returned : (((Session.seeded .usual).evalAll
      [("(define f (lambda (x &rest r) r))", some "lib")]).eval "(f 7 8)" none).1 =
        .ok (.list [.integer 8 (some ⟨none, 1, 6⟩)] none) := by
    rw [Session.eval, Session.read_evalAll, call]
    simp only [Session.evalAll, List.foldl_cons, List.foldl_nil, Session.eval, library]
    with_unfolding_all rfl
  have started : (Session.seeded .usual).raiseLimit none = .ok (Session.seeded .usual) := rfl
  intro texts number
  obtain ⟨_, places, _⟩ := value_places started texts "(f 7 8)" none
  have placed := places _ returned number (.item List.mem_cons_self (.self number))
  exact ⟨returned, placed.written ⟨none, 1, 6⟩ rfl⟩

end ScopedLisp
