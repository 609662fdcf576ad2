import ScopedLisp.Proofs.ArgumentBinding
import ScopedLisp.Proofs.ParameterGrammar
import ScopedLisp.Proofs.ReadBack
import ScopedLisp.Proofs.Tiling

set_option autoImplicit false

namespace ScopedLisp

/-- Neither a string, which has no marks around it in the text of a list, nor a float. -/
def Value.isBare : Value → Bool
  | .string _ _ | .float _ _ => false
  | _ => true

theorem Atom.isName_of_read {word name : String} {loc place : Option Location}
    (lexeme : Lexer.Lexeme .symbol word.toList)
    (success : read word loc = .ok (.symbol name place)) : IsName name := by
  cases lexeme with
  | word nonempty inWord =>
    unfold read at success
    split at success
    · split at success
      · cases success
      · split at success <;> cases success
    · rename_i notWhole
      split at success
      · cases success
      · rename_i notReal
        split at success
        · cases success
        · rename_i notTrue
          split at success
          · cases success
          · rename_i notFalse
            cases success
            exact ⟨by simpa using nonempty, inWord, notWhole, notReal, notTrue, notFalse⟩

section Reading

variable {source : String} {file : Option String} {forms : List Value}

theorem isName_of_readProgram (read : readProgram source file = .ok forms) {name : String}
    {loc : Option Location} (inside : .symbol name loc ∈ Value.partsOfAll forms) : IsName name := by
  obtain ⟨token, given, gives⟩ := exists_token_of_part read inside
  have lexeme := Lexer.lexeme_of_token given
  cases gives with
  | word kind success =>
    rw [kind] at lexeme
    exact Atom.isName_of_read lexeme success

theorem not_program_of_readProgram (read : readProgram source file = .ok forms)
    {inner : List Value} {loc : Option Location} :
    .program inner loc ∉ Value.partsOfAll forms := by
  intro inside
  obtain ⟨token, _, gives⟩ := exists_token_of_part read inside
  cases gives with
  | word _ success => cases Atom.read_reads success

theorem writable_of_readProgram (read : readProgram source file = .ok forms) {v : Value}
    (inside : v ∈ Value.partsOfAll forms) (noFloats : ∀ x loc, .float x loc ∉ v.parts) :
    v.Writable := by
  induction v using Value.induction_on_children with
  | ascend v ih =>
    obtain ⟨form, member, within⟩ := Value.mem_partsOfAll.1 inside
    have code : v.IsCode := ((readProgram_isCode read).child member).part within
    have children : ∀ child ∈ v.children, child.Writable := by
      intro child below
      refine ih child below ?_ fun x loc part => ?_
      · exact Value.mem_partsOfAll.2 ⟨form, member, Value.mem_parts_trans within below⟩
      · exact noFloats x loc (Value.mem_parts_of_child below part)
    cases code with
    | integer inRange place => exact .integer inRange _
    | float x place => exact absurd (Value.self_mem_parts _) (noFloats x _)
    | bool b place => exact .bool b _
    | string text place => exact .string text _
    | symbol name place => exact .symbol (isName_of_readProgram read inside) _
    | list _ place => exact .list children _
    | program _ place => exact absurd inside (not_program_of_readProgram read)

end Reading

/-- A text that reads back as some forms is a program of forms that are the same. -/
theorem Lexer.ReadsBack.readProgram {text : String} {forms : List Value}
    (readsBack : ReadsBack text.toList forms) (file : Option String) :
    ∃ again, readProgram text file = .ok again ∧ Value.allSame again forms = true := by
  obtain ⟨tokens, again, spelled, same, scanned⟩ := readsBack file .start [] nofun
  have stream : TokenStream.ofSource text file = ⟨tokens, none⟩ := by
    rw [ofSource_eq_scan, ← List.append_nil text.toList, scanned, scan_nil]
    exact congrArg (TokenStream.mk · none) (List.append_nil tokens)
  refine ⟨again, ?_, same⟩
  rw [readProgram_eq_ok_iff, stream]
  exact ⟨rfl, spelled⟩

section Text

theorem intercalate_cons_eq_join (first : String) (others : List String) :
    " ".intercalate (first :: others) = first ++ String.join (others.map (" " ++ ·)) := by
  induction others generalizing first with
  | nil => simp
  | cons next others ih =>
    rw [String.intercalate_cons_cons, ih, List.map_cons, String.join_cons, String.append_assoc,
      String.append_assoc]

theorem Parameters.Written.text_eq {items : List Value} {params : List Param}
    (written : Written items params) :
    " ".intercalate (params.map Param.text) = " ".intercalate (items.map Value.text) := by
  induction written with
  | nil => rfl
  | fixed _ further ih =>
    cases further with
    | nil => rfl
    | fixed | rest =>
      simp only [List.map_cons, List.map_nil, String.intercalate_cons_cons] at ih ⊢
      rw [ih]
      rfl
  | rest mark place => simp [Value.text, Param.text, restMarker]

/-- The text of a closure and the text of the form that made it differ in the first word only. -/
theorem closure_text_eq {items : List Value} {params : List Param}
    (written : Parameters.Written items params) (body : List Value) (frame : FrameId) (serial : Nat)
    (mark around loc loc' : Option Location) :
    ∃ rest, (Value.closure params body frame serial loc).text = "(λ" ++ rest ∧
      (Value.list (.symbol "lambda" mark :: .list items around :: body) loc').text =
        "(lambda" ++ rest := by
  refine ⟨" (" ++ " ".intercalate (items.map Value.text) ++ ")" ++
    String.join ((Value.texts body).map (" " ++ ·)) ++ ")", ?_, ?_⟩
  · rw [Value.text, written.text_eq]
    simp only [← String.append_assoc]
    rfl
  · rw [Value.text, Value.texts, intercalate_cons_eq_join, Value.texts, List.map_cons,
      String.join_cons, Value.text, Value.text, Value.texts_eq_map]
    simp only [← String.append_assoc]
    rfl

end Text

section Same

theorem Value.eq_symbol_of_same {v : Value} {name : String} {loc : Option Location}
    (same : v.same (.symbol name loc) = true) : ∃ place, v = .symbol name place := by
  cases v with
  | symbol other place =>
    rw [Value.same, beq_iff_eq] at same
    exact ⟨place, by rw [same]⟩
  | _ => cases same

theorem Value.eq_list_of_same {v : Value} {items : List Value} {loc : Option Location}
    (same : v.same (.list items loc) = true) :
    ∃ others place, v = .list others place ∧ allSame others items = true := by
  cases v with
  | list others place => exact ⟨others, place, rfl, same⟩
  | _ => cases same

theorem Value.eq_cons_of_allSame {vs ws : List Value} {w : Value}
    (same : allSame vs (w :: ws) = true) :
    ∃ v others, vs = v :: others ∧ v.same w = true ∧ allSame others ws = true := by
  cases vs with
  | nil => cases same
  | cons v others =>
    rw [allSame, Bool.and_eq_true] at same
    exact ⟨v, others, rfl, same.1, same.2⟩

theorem Value.eq_nil_of_allSame {vs : List Value} (same : allSame vs [] = true) : vs = [] := by
  cases vs with
  | nil => rfl
  | cons => cases same

/-- Items that differ in places only write out parameters that differ in places only. -/
theorem Parameters.Written.of_allSame {items others : List Value} {params : List Param}
    (written : Written items params) (same : Value.allSame others items = true) :
    ∃ params', Written others params' ∧
      params'.map (fun p => (p.name, p.variadic)) = params.map fun p => (p.name, p.variadic) := by
  induction written generalizing others with
  | nil =>
    rw [Value.eq_nil_of_allSame same]
    exact ⟨[], .nil, rfl⟩
  | @fixed name place items params plain _ ih =>
    obtain ⟨first, rest, rfl, here, further⟩ := Value.eq_cons_of_allSame same
    obtain ⟨place', rfl⟩ := Value.eq_symbol_of_same here
    obtain ⟨params', written, alike⟩ := ih further
    exact ⟨⟨name, false, place'⟩ :: params', .fixed plain written, by simp [alike]⟩
  | @rest name mark place plain =>
    obtain ⟨first, rest, rfl, here, further⟩ := Value.eq_cons_of_allSame same
    obtain ⟨second, none, rfl, next, nothing⟩ := Value.eq_cons_of_allSame further
    obtain ⟨mark', rfl⟩ := Value.eq_symbol_of_same here
    obtain ⟨place', rfl⟩ := Value.eq_symbol_of_same next
    rw [Value.eq_nil_of_allSame nothing]
    exact ⟨[⟨name, true, place'⟩], .rest mark' place' plain, rfl⟩

end Same

/-- A form that differs in places only makes a closure that differs in places and number only. -/
theorem evaluate_of_same {again operand : Value} {body : List Value}
    {mark place loc : Option Location} {params : List Param}
    (parsed : Parameters.parse operand loc = .ok params)
    (same : again.same (.list (.symbol "lambda" mark :: operand :: body) place) = true)
    (costs : Costs) {limit : Nat} (levels : 0 < limit) (frame : FrameId) (s : Store) :
    ∃ params' body' serial loc' t,
      evaluate costs limit frame again s = (.done (.closure params' body' frame serial loc'), t) ∧
      params'.map (fun p => (p.name, p.variadic)) = params.map (fun p => (p.name, p.variadic)) ∧
      Value.allSame body' body = true := by
  obtain ⟨items, around, rfl, written, distinct⟩ := Parameters.parse_eq_ok_iff.1 parsed
  obtain ⟨parts, loc', rfl, alike⟩ := Value.eq_list_of_same same
  obtain ⟨head, operands, rfl, keyword, further⟩ := Value.eq_cons_of_allSame alike
  obtain ⟨list, body', rfl, parameters, bodies⟩ := Value.eq_cons_of_allSame further
  obtain ⟨mark', rfl⟩ := Value.eq_symbol_of_same keyword
  obtain ⟨items', around', rfl, symbols⟩ := Value.eq_list_of_same parameters
  obtain ⟨params', written', equal⟩ := written.of_allSame symbols
  have names : params'.map Param.name = params.map Param.name := by
    simpa [Function.comp_def] using congrArg (List.map Prod.fst) equal
  have parsed' : Parameters.parse (.list items' around') loc' = .ok params' :=
    Parameters.parse_eq_ok_iff.2 ⟨items', around', rfl, written', names ▸ distinct⟩
  obtain ⟨limit, rfl⟩ := Nat.exists_eq_add_of_lt levels
  refine ⟨params', body', s.nextSerial, loc', s.takeSerial.2, ?_, equal, bodies⟩
  rw [Nat.zero_add, evaluate_lambda, evaluateLambda_of_parse parsed']

theorem Parameters.Written.symbols {items : List Value} {params : List Param}
    (written : Written items params) :
    ∀ item ∈ items, ∃ name place, item = .symbol name place := by
  induction written with
  | nil => nofun
  | fixed _ _ ih =>
    intro item member
    rcases List.mem_cons.1 member with rfl | member
    · exact ⟨_, _, rfl⟩
    · exact ih item member
  | rest mark place =>
    intro item member
    rcases List.mem_cons.1 member with rfl | member
    · exact ⟨_, _, rfl⟩
    · rw [List.mem_singleton.1 member]
      exact ⟨_, _, rfl⟩

theorem isBare_of_body (mark around loc : Option Location) {items body : List Value}
    {params : List Param} (written : Parameters.Written items params)
    (bare : ∀ part ∈ Value.partsOfAll body, part.isBare = true) :
    ∀ part ∈ (Value.list (.symbol "lambda" mark :: .list items around :: body) loc).parts,
      part.isBare = true := by
  intro part member
  rcases Value.mem_parts.1 member with rfl | ⟨child, inside, below⟩
  · rfl
  rcases List.mem_cons.1 inside with rfl | inside
  · rw [List.mem_singleton.1 below]
    rfl
  rcases List.mem_cons.1 inside with rfl | inside
  · rcases Value.mem_parts.1 below with rfl | ⟨item, symbol, below⟩
    · rfl
    · obtain ⟨name, place, rfl⟩ := written.symbols item symbol
      rw [List.mem_singleton.1 below]
      rfl
  · exact bare part (Value.mem_partsOfAll.2 ⟨child, inside, below⟩)

/-- A closure that a form which was read made in some environment, if there are neither strings nor
floats in its body. The text of the closure, with the first word of the form put back, is read as
one form. Wherever there are levels left for it, evaluating that form in the same environment makes
a closure with the same parameters, the same body and the same environment. -/
theorem closure_text_reads_back {source : String} {file : Option String} {forms : List Value}
    (read : readProgram source file = .ok forms) {mark loc : Option Location} {operand : Value}
    {body : List Value}
    (inside : .list (.symbol "lambda" mark :: operand :: body) loc ∈ Value.partsOfAll forms)
    (bare : ∀ part ∈ Value.partsOfAll body, part.isBare = true)
    {costs : Costs} {limit : Nat} {frame : FrameId} {s t : Store} {v : Value}
    (made : evaluate costs limit frame (.list (.symbol "lambda" mark :: operand :: body) loc) s =
      (.done v, t)) (file' : Option String) :
    ∃ params serial rest again, v = .closure params body frame serial loc ∧
      v.text = "(λ" ++ rest ∧ readProgram ("(lambda" ++ rest) file' = .ok [again] ∧
      ∀ (costs' : Costs) (limit' : Nat) (s' : Store), 0 < limit' →
        ∃ params' body' serial' loc' t',
          evaluate costs' limit' frame again s' =
            (.done (.closure params' body' frame serial' loc'), t') ∧
          params'.map (fun p => (p.name, p.variadic)) = params.map (fun p => (p.name, p.variadic)) ∧
          Value.allSame body' body = true := by
  obtain ⟨operand, body, params, same, parsed, rfl⟩ := parse_of_evaluate_lambda made
  cases same
  obtain ⟨items, around, rfl, written, distinct⟩ := Parameters.parse_eq_ok_iff.1 parsed
  obtain ⟨rest, text, formText⟩ :=
    closure_text_eq written body frame s.nextSerial mark around loc loc
  -- The form can be written, and what is written is its text, because there are no strings in it.
  have bareForm := isBare_of_body mark around loc written bare
  have writable := writable_of_readProgram read inside fun x place float =>
    Bool.false_ne_true (bareForm (.float x place) float)
  have asText := Value.written_eq_text fun text place string =>
    Bool.false_ne_true (bareForm (.string text place) string)
  have readsBack := writable.readsBack
  rw [asText, formText] at readsBack
  obtain ⟨again, reads, alike⟩ := readsBack.readProgram file'
  obtain ⟨form, others, rfl, equal, nothing⟩ := Value.eq_cons_of_allSame alike
  cases Value.eq_nil_of_allSame nothing
  exact ⟨params, s.nextSerial, rest, form, rfl, text, reads,
    fun costs' limit' s' levels => evaluate_of_same parsed equal costs' levels frame s'⟩

/-- The closure has a variadic parameter and an empty list in its body. -/
theorem closure_text_reads_back_of_rest :
    let body : List Value := [.list [.symbol "f" (some ⟨none, 1, 22⟩),
      .list [] (some ⟨none, 1, 24⟩), .integer 7 (some ⟨none, 1, 27⟩)] (some ⟨none, 1, 21⟩)]
    let form : Value := .list (.symbol "lambda" (some ⟨none, 1, 2⟩) ::
      .list [.symbol "x" (some ⟨none, 1, 10⟩), .symbol "&rest" (some ⟨none, 1, 12⟩),
        .symbol "r" (some ⟨none, 1, 18⟩)] (some ⟨none, 1, 9⟩) :: body) (some ⟨none, 1, 1⟩)
    readProgram "(lambda (x &rest r) (f () 7))" none = .ok [form] ∧
      (∀ part ∈ Value.partsOfAll body, part.isBare = true) ∧
      ∃ v t rest again, evaluate .usual 1 0 form .empty = (.done v, t) ∧ v.text = "(λ" ++ rest ∧
        readProgram ("(lambda" ++ rest) none = .ok [again] ∧
        ∃ params' body' serial' loc' t', evaluate .usual 1 0 again t =
            (.done (.closure params' body' 0 serial' loc'), t') ∧
          params'.map (fun p => (p.name, p.variadic)) = [("x", false), ("r", true)] ∧
          Value.allSame body' body = true := by
  have tokens : TokenStream.ofSource "(lambda (x &rest r) (f () 7))" none =
      ⟨[⟨.opening, "(", some ⟨none, 1, 1⟩⟩, ⟨.symbol, "lambda", some ⟨none, 1, 2⟩⟩,
        ⟨.opening, "(", some ⟨none, 1, 9⟩⟩, ⟨.symbol, "x", some ⟨none, 1, 10⟩⟩,
        ⟨.symbol, "&rest", some ⟨none, 1, 12⟩⟩, ⟨.symbol, "r", some ⟨none, 1, 18⟩⟩,
        ⟨.closing, ")", some ⟨none, 1, 19⟩⟩, ⟨.opening, "(", some ⟨none, 1, 21⟩⟩,
        ⟨.symbol, "f", some ⟨none, 1, 22⟩⟩, ⟨.opening, "(", some ⟨none, 1, 24⟩⟩,
        ⟨.closing, ")", some ⟨none, 1, 25⟩⟩, ⟨.symbol, "7", some ⟨none, 1, 27⟩⟩,
        ⟨.closing, ")", some ⟨none, 1, 28⟩⟩, ⟨.closing, ")", some ⟨none, 1, 29⟩⟩], none⟩ := by
    decide +kernel
  intro body form
  have read : readProgram "(lambda (x &rest r) (f () 7))" none = .ok [form] := by
    rw [readProgram_eq_ok_iff, tokens]
    exact ⟨rfl, .cons (.opening rfl) <| .cons (.word rfl rfl) <| .cons (.opening rfl) <|
      .cons (.word rfl rfl) <| .cons (.word rfl rfl) <| .cons (.word rfl rfl) <|
      .cons (.closing rfl) <| .cons (.opening rfl) <| .cons (.word rfl rfl) <|
      .cons (.opening rfl) <| .cons (.closing rfl) <| .cons (.word rfl rfl) <|
      .cons (.closing rfl) <| .cons (.closing rfl) .nil⟩
  have parsed : Parameters.parse (.list [.symbol "x" (some ⟨none, 1, 10⟩),
      .symbol "&rest" (some ⟨none, 1, 12⟩), .symbol "r" (some ⟨none, 1, 18⟩)] (some ⟨none, 1, 9⟩))
      (some ⟨none, 1, 1⟩) =
        .ok [⟨"x", false, some ⟨none, 1, 10⟩⟩, ⟨"r", true, some ⟨none, 1, 18⟩⟩] := by decide +kernel
  have made := evaluateLambda_of_parse parsed 0 body .empty
  rw [← evaluate_lambda .usual 0 0 (some ⟨none, 1, 2⟩)] at made
  have bare : ∀ part ∈ Value.partsOfAll body, part.isBare = true := by decide
  have inside : form ∈ Value.partsOfAll [form] :=
    Value.mem_partsOfAll.2 ⟨form, List.mem_singleton_self form, form.self_mem_parts⟩
  obtain ⟨params, serial, rest, again, same, text, reads, evaluates⟩ :=
    closure_text_reads_back read inside bare made none
  cases same
  exact ⟨read, bare, _, _, rest, again, made, text, reads, evaluates .usual 1 _ (by decide)⟩

end ScopedLisp
