import ScopedLisp.Proofs.ReachableSession
import ScopedLisp.Proofs.SourcePlaces

set_option autoImplicit false

namespace ScopedLisp

theorem Value.mem_parts_trans {v part child : Value} (member : part ∈ v.parts)
    (inside : child ∈ part.children) : child ∈ v.parts := by
  induction v using induction_on_children with
  | ascend v ih =>
    rcases mem_parts.1 member with rfl | ⟨between, here, below⟩
    · exact mem_parts_of_child inside child.self_mem_parts
    · exact mem_parts_of_child here (ih between here below)

/-- What running programs make of some forms. -/
inductive Value.MadeOf (forms : Value → Prop) : Value → Prop
  | literal {v : Value} (form : forms v) (literal : v.isLiteral = true) : MadeOf forms v
  | unit : MadeOf forms .unit
  | rest {items : List Value} (made : ∀ item ∈ items, MadeOf forms item) :
      MadeOf forms (.list items none)
  | computed {v : Value} (computed : v.Computed) : MadeOf forms v
  | closure {head operand : Value} {body : List Value} {loc : Option Location}
      {params : List Param} (frame : FrameId) (serial : Nat)
      (form : forms (.list (head :: operand :: body) loc))
      (special : SpecialForm.ofHead? head = some .lambda)
      (parsed : Parameters.parse operand loc = .ok params) :
      MadeOf forms (.closure params body frame serial loc)
  | builtin (op : Operator) (serial : Nat) : MadeOf forms (.builtin op.name serial)

theorem Value.MadeOf.mono {forms more : Value → Prop} (subset : ∀ v, forms v → more v) {v : Value}
    (made : v.MadeOf forms) : v.MadeOf more := by
  induction made with
  | literal form literal => exact .literal (subset _ form) literal
  | unit => exact .unit
  | rest _ ih => exact .rest ih
  | computed computed => exact .computed computed
  | closure frame serial form special parsed =>
    exact .closure frame serial (subset _ form) special parsed
  | builtin op serial => exact .builtin op serial

/-- Only the given forms are evaluated, and faults are at the places of these forms. -/
def Discipline.ofForms (forms : Value → Prop) (code : ∀ {v : Value}, forms v → v.IsCode)
    (child : ∀ {v child : Value}, forms v → child ∈ v.children → forms child) : Discipline where
  code := forms
  data := Value.MadeOf forms
  place := fun place => ∃ form, forms form ∧ form.loc = place
  child := child
  located := fun form => ⟨_, form, rfl⟩
  notForeign := fun form => nomatch code form
  literal := .literal
  unit := .unit
  rest := .rest
  computed := .computed
  closure := .closure
  body := by
    intro params body frame serial loc made form member
    cases made with
    | literal form => cases code form
    | computed computed => cases computed
    | closure _ _ form special parsed =>
      exact child form (List.mem_cons_of_mem _ (List.mem_cons_of_mem _ member))
  inRange := by
    intro n loc made
    cases made with
    | literal form =>
      cases code form with
      | integer inRange => exact inRange
    | computed computed =>
      cases computed with
      | integer inRange => exact inRange
  operator := by
    intro written serial made
    cases made with
    | literal form => cases code form
    | computed computed => cases computed
    | builtin op => exact ⟨op, rfl⟩

/-- The forms of a text, with those inside them; none if the text cannot be read within `depth`
lists. -/
def formsOf (depth : Nat) (source : String) (file : Option String) : List Value :=
  match readWithin depth source file with
  | .ok forms => Value.partsOfAll forms
  | .error _ => []

theorem mem_formsOf {depth : Nat} {source : String} {file : Option String} {v : Value} :
    v ∈ formsOf depth source file ↔
      ∃ forms, readWithin depth source file = .ok forms ∧ v ∈ Value.partsOfAll forms := by
  unfold formsOf
  cases readWithin depth source file with
  | ok forms => simp
  | error failure => simp

/-- One of the texts, which come with their names, has the form in it. -/
def ReadFrom (depth : Nat) (texts : List (String × Option String)) (v : Value) : Prop :=
  ∃ text ∈ texts, v ∈ formsOf depth text.1 text.2

namespace ReadFrom

variable {depth : Nat} {texts : List (String × Option String)} {v : Value}

theorem isCode (form : ReadFrom depth texts v) : v.IsCode := by
  obtain ⟨text, _, member⟩ := form
  obtain ⟨forms, read, inside⟩ := mem_formsOf.1 member
  obtain ⟨form, here, below⟩ := Value.mem_partsOfAll.1 inside
  exact ((readProgram_isCode (readProgram_of_readWithin read)).child here).part below

theorem child {child : Value} (form : ReadFrom depth texts v) (inside : child ∈ v.children) :
    ReadFrom depth texts child := by
  obtain ⟨text, given, member⟩ := form
  obtain ⟨forms, read, part⟩ := mem_formsOf.1 member
  obtain ⟨form, here, below⟩ := Value.mem_partsOfAll.1 part
  refine ⟨text, given, mem_formsOf.2 ⟨forms, read, ?_⟩⟩
  exact Value.mem_partsOfAll.2 ⟨form, here, Value.mem_parts_trans below inside⟩

end ReadFrom

/-- The discipline of programs that were read from these texts. -/
def Discipline.ofReading (depth : Nat) (texts : List (String × Option String)) : Discipline :=
  .ofForms (ReadFrom depth texts) ReadFrom.isCode ReadFrom.child

theorem Discipline.ofReading_mono {depth : Nat} {texts more : List (String × Option String)}
    (subset : texts ⊆ more) {s : Store} (holds : (ofReading depth texts).Holds s) :
    (ofReading depth more).Holds s := by
  refine ⟨holds.wellFormed, holds.data.imp fun v made => Value.MadeOf.mono ?_ made⟩
  rintro form ⟨text, given, member⟩
  exact ⟨text, subset given, member⟩

namespace Session

/-- The session after some texts, each evaluated or failed. -/
def evalAll (s : Session) (texts : List (String × Option String)) : Session :=
  texts.foldl (fun s text => (s.eval text.1 text.2).2) s

theorem evalAll_append_singleton (s : Session) (texts : List (String × Option String))
    (text : String × Option String) :
    s.evalAll (texts ++ [text]) = ((s.evalAll texts).eval text.1 text.2).2 :=
  List.foldl_append

theorem leads_evalAll (s : Session) (texts : List (String × Option String)) :
    s.Leads (s.evalAll texts) := by
  induction texts using List.reverseRecOn with
  | nil => exact .refl
  | append_singleton texts text ih =>
    rw [evalAll_append_singleton]
    exact ih.tail ⟨text.1, text.2, rfl⟩

theorem read_evalAll (s : Session) (texts : List (String × Option String)) (source : String)
    (file : Option String) : (s.evalAll texts).read source file = s.read source file := by
  induction texts using List.reverseRecOn with
  | nil => rfl
  | append_singleton texts text ih => rw [evalAll_append_singleton, read_eval, ih]

theorem ready_of_read {first : Session} (texts : List (String × Option String)) {source : String}
    {file : Option String} {forms : List Value}
    (read : (first.evalAll texts).read source file = .ok forms) (s : Store) :
    ∀ form ∈ forms,
      (Discipline.ofReading first.depth (texts ++ [(source, file)])).Ready s form := by
  intro form member
  rw [read_evalAll] at read
  have known : ReadFrom first.depth (texts ++ [(source, file)]) form := by
    refine ⟨(source, file), by simp, mem_formsOf.2 ⟨forms, read, ?_⟩⟩
    exact Value.mem_partsOfAll.2 ⟨form, member, form.self_mem_parts⟩
  exact ⟨known, known.isCode.within s⟩

/-- In a session everything comes from the texts that it was given. -/
theorem holds_evalAll {host : Host} {wish : Option Int} {first : Session}
    (started : (seeded host).raiseLimit wish = .ok first)
    (texts : List (String × Option String)) :
    (Discipline.ofReading first.depth texts).Holds (first.evalAll texts).store := by
  induction texts using List.reverseRecOn with
  | nil => exact (holds_started Value.MadeOf.builtin started).1
  | append_singleton texts text ih =>
    have reachable : (first.evalAll texts).Reachable :=
      ⟨host, wish, first, started, first.leads_evalAll texts⟩
    have before := Discipline.ofReading_mono (List.subset_append_left texts [text]) ih
    rw [evalAll_append_singleton]
    exact (holds_eval before reachable.holds.root fun forms read =>
      ready_of_read texts read _).1

end Session

/-- An error that comes up while the last of the texts is evaluated is at a form of the texts. -/
theorem Session.exists_form_of_failed {host : Host} {wish : Option Int} {first : Session}
    (started : (seeded host).raiseLimit wish = .ok first)
    (texts : List (String × Option String)) {source : String} {file : Option String}
    {forms : List Value} {e : Error} {store : Store}
    (read : (first.evalAll texts).read source file = .ok forms)
    (ended : ((first.evalAll texts).task forms file).run .usual = (.failed (.error e), store)) :
    ∃ form, ReadFrom first.depth (texts ++ [(source, file)]) form ∧ form.loc = e.loc := by
  have reachable : (first.evalAll texts).Reachable :=
    ⟨host, wish, first, started, first.leads_evalAll texts⟩
  have before := Discipline.ofReading_mono (List.subset_append_left texts [(source, file)])
    (holds_evalAll started texts)
  have ends := task_ends before reachable.holds.root (ready_of_read texts read _) file
  rw [ended] at ends
  obtain ⟨_, place⟩ := ends.failed _ rfl
  exact place

/-- A session that was started on some host with the operators bound in its root is given some texts
and then one more, which fails with an error. The error has a place. If the text could not be read,
it is an error of reading, at a character of the text. If it could, the place is that of a form that
was read from this text or from one before, and what the form begins with stands there. -/
theorem failure_points_into_source {host : Host} {wish : Option Int} {first : Session}
    (started : (Session.seeded host).raiseLimit wish = .ok first)
    (texts : List (String × Option String)) (source : String) (file : Option String) {e : Error}
    (failed : ((first.evalAll texts).eval source file).1 = .error (.error e)) :
    ∃ place, e.loc = some place ∧
      ((first.read source file = .error (.error e) ∧ (∃ fault, e.cause = .unreadable fault) ∧
          place.file = file ∧ ∃ c, StandsAt source file [c] place) ∨
        ((∃ forms, first.read source file = .ok forms) ∧
          ∃ text ∈ texts ++ [(source, file)], ∃ form ∈ formsOf first.depth text.1 text.2,
            form.loc = some place ∧ place.file = text.2 ∧
            ∃ token : Token, token.Gives form.firstMark ∧ token.text ≠ "" ∧
              StandsAt text.1 text.2 token.text.toList place)) := by
  have ends := (first.evalAll texts).eval_ends source file
  generalize (first.evalAll texts).eval source file = ended at ends failed
  cases ends with
  | @unreadable failure read =>
    rw [Session.read_evalAll] at read
    cases failure with
    | numeralTooLong digits => cases failed
    | tooDeep => cases failed
    | error e' =>
      cases failed
      have unread := readProgram_of_error read nofun
      obtain ⟨c, place, located, before, rest, split, rfl⟩ := readProgram_error_standsAt unread
      cases readProgram_error unread with
      | unreadable fault _ =>
        exact ⟨_, located, .inl ⟨read, ⟨fault, rfl⟩, rfl, c, before, rest, split, rfl⟩⟩
  | failed read ended =>
    cases failed
    obtain ⟨form, ⟨text, given, member⟩, same⟩ :=
      Session.exists_form_of_failed started texts read ended
    obtain ⟨forms, readToo, inside⟩ := mem_formsOf.1 member
    obtain ⟨token, place, gives, nonempty, located, before, rest, split, rfl⟩ :=
      readProgram_standsAt (readProgram_of_readWithin readToo) inside
    rw [Session.read_evalAll] at read
    exact ⟨_, same.symm.trans located, .inr ⟨⟨_, read⟩, text, given, form, member, located, rfl,
      token, gives, nonempty, before, rest, split, rfl⟩⟩
  | returned => cases failed
  | misused => cases failed
  | tooDeep => cases failed

/-- The second text calls a closure of the first one, and the error is in the closure's body. -/
theorem failure_points_into_source_of_body :
    let texts := [("(define f (lambda ()\n g))", some "lib")]
    let place : Location := ⟨some "lib", 2, 2⟩
    (((Session.seeded .usual).evalAll texts).eval "(f)" none).1 =
        .error (.error ⟨.unboundSymbol "g", some place⟩) ∧
      ∃ text ∈ texts ++ [("(f)", none)],
        ∃ form ∈ formsOf (Session.seeded .usual).depth text.1 text.2,
        form.loc = some place ∧
        ∃ token : Token, token.Gives form.firstMark ∧
          StandsAt text.1 text.2 token.text.toList place := by
  have tokens : TokenStream.ofSource "(define f (lambda ()\n g))" (some "lib") =
      ⟨[⟨.opening, "(", some ⟨some "lib", 1, 1⟩⟩, ⟨.symbol, "define", some ⟨some "lib", 1, 2⟩⟩,
        ⟨.symbol, "f", some ⟨some "lib", 1, 9⟩⟩, ⟨.opening, "(", some ⟨some "lib", 1, 11⟩⟩,
        ⟨.symbol, "lambda", some ⟨some "lib", 1, 12⟩⟩, ⟨.opening, "(", some ⟨some "lib", 1, 19⟩⟩,
        ⟨.closing, ")", some ⟨some "lib", 1, 20⟩⟩, ⟨.symbol, "g", some ⟨some "lib", 2, 2⟩⟩,
        ⟨.closing, ")", some ⟨some "lib", 2, 3⟩⟩, ⟨.closing, ")", some ⟨some "lib", 2, 4⟩⟩],
        none⟩ := by decide +kernel
  have room : (TokenStream.ofSource "(define f (lambda ()\n g))" (some "lib")).tokens.length ≤
      (Session.seeded .usual).depth := by
    rw [tokens]
    decide
  have library : (Session.seeded .usual).read "(define f (lambda ()\n g))" (some "lib") =
      .ok [.list [.symbol "define" (some ⟨some "lib", 1, 2⟩), .symbol "f" (some ⟨some "lib", 1, 9⟩),
        .list [.symbol "lambda" (some ⟨some "lib", 1, 12⟩), .list [] (some ⟨some "lib", 1, 19⟩),
          .symbol "g" (some ⟨some "lib", 2, 2⟩)] (some ⟨some "lib", 1, 11⟩)]
        (some ⟨some "lib", 1, 1⟩)] := by
    rw [Session.read, readWithin_of_length room, readProgram_eq_ok_iff, tokens]
    exact ⟨rfl, .cons (.opening rfl) <| .cons (.word rfl rfl) <| .cons (.word rfl rfl) <|
      .cons (.opening rfl) <| .cons (.word rfl rfl) <| .cons (.opening rfl) <|
      .cons (.closing rfl) <| .cons (.word rfl rfl) <| .cons (.closing rfl) <|
      .cons (.closing rfl) .nil⟩
  have call : (Session.seeded .usual).read "(f)" none =
      .ok [.list [.symbol "f" (some ⟨none, 1, 2⟩)] (some ⟨none, 1, 1⟩)] := by with_unfolding_all rfl
  have failed : (((Session.seeded .usual).evalAll
      [("(define f (lambda ()\n g))", some "lib")]).eval "(f)" none).1 =
        .error (.error ⟨.unboundSymbol "g", some ⟨some "lib", 2, 2⟩⟩) := by
    rw [Session.eval, Session.read_evalAll, call]
    simp only [Session.evalAll, List.foldl_cons, List.foldl_nil, Session.eval, library]
    with_unfolding_all rfl
  have started : (Session.seeded .usual).raiseLimit none = .ok (Session.seeded .usual) := rfl
  intro texts place
  obtain ⟨_, located, ⟨unread, _⟩ | ⟨_, text, given, form, member, same, _, token, gives, _,
    stands⟩⟩ := failure_points_into_source started texts "(f)" none failed
  · rw [call] at unread
    cases unread
  · cases located
    exact ⟨failed, text, given, form, member, same, token, gives, stands⟩

end ScopedLisp
