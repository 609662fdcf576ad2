import ScopedLisp.Proofs.Lexing
import ScopedLisp.Proofs.Spelling

set_option autoImplicit false

namespace ScopedLisp

/-- The parentheses that are open after one more token, the innermost first. There is no answer if
the token closes what was never opened. -/
def Token.nest (opened : List (Option Location)) (token : Token) :
    Option (List (Option Location)) :=
  match token.kind, opened with
  | .opening, opened => some (token.loc :: opened)
  | .closing, [] => none
  | .closing, _ :: outer => some outer
  | _, opened => some opened

/-- The parentheses that are open after all of the tokens. -/
def nesting (opened : List (Option Location)) : List Token → Option (List (Option Location))
  | [] => some opened
  | token :: rest => (token.nest opened).bind fun inner => nesting inner rest

theorem Token.nest_eq_none_iff {opened : List (Option Location)} {token : Token} :
    token.nest opened = none ↔ token.kind = .closing ∧ opened = [] := by
  unfold nest
  split <;> simp_all

/-- Where there is no answer, a parenthesis is closed while none is open. -/
theorem exists_closing_of_nesting {opened : List (Option Location)} {tokens : List Token}
    (unbalanced : nesting opened tokens = none) :
    ∃ before token after, tokens = before ++ token :: after ∧ nesting opened before = some [] ∧
      token.kind = .closing := by
  induction tokens generalizing opened with
  | nil => cases unbalanced
  | cons token rest ih =>
    cases nested : token.nest opened with
    | none =>
      obtain ⟨closing, rfl⟩ := Token.nest_eq_none_iff.1 nested
      exact ⟨[], token, rest, rfl, rfl, closing⟩
    | some inner =>
      rw [nesting, nested] at unbalanced
      obtain ⟨before, last, after, rfl, balanced, closing⟩ := ih unbalanced
      refine ⟨token :: before, last, after, rfl, ?_, closing⟩
      rw [nesting, nested]
      exact balanced

/-- A token of a text that stands for something: a whole numeral among them is not too long. -/
structure Token.Meant (token : Token) : Prop where
  kind : ∀ name, token.kind ≠ .other name
  short : token.kind = .symbol → ∀ numeral, WholeNumeral.parse? token.text.toList = some numeral →
    numeral.digits.length ≤ WholeNumeral.digitLimit

theorem Atom.exists_read {word : String}
    (short : ∀ numeral, WholeNumeral.parse? word.toList = some numeral →
      numeral.digits.length ≤ WholeNumeral.digitLimit) (loc : Option Location) :
    ∃ v, read word loc = .ok v := by
  unfold read
  split
  · rename_i numeral parsed
    rw [if_neg (Nat.not_lt.2 (short numeral parsed))]
    split <;> exact ⟨_, rfl⟩
  · repeat' split
    all_goals exact ⟨_, rfl⟩

namespace Reader

def Progress.opened : Progress → List OpenList
  | done _ => []
  | within opened => opened

theorem locs_place (v : Value) (opened : List OpenList) :
    (place v opened).opened.map OpenList.loc = opened.map OpenList.loc := by
  cases opened <;> rfl

/-- The reader takes every token that the parentheses allow, and has the same lists open. -/
theorem take_of_nest {opened : List OpenList} {token : Token} {inner : List (Option Location)}
    (meant : token.Meant) (nested : token.nest (opened.map OpenList.loc) = some inner) :
    ∃ progress, take opened token = .ok progress ∧
      progress.opened.map OpenList.loc = inner := by
  cases kind : token.kind with
  | opening =>
    simp only [Token.nest, kind, Option.some.injEq] at nested
    exact ⟨.within (⟨token.loc, []⟩ :: opened), by simp only [take, kind], nested⟩
  | closing =>
    cases opened with
    | nil => simp [Token.nest, kind] at nested
    | cons innermost outer =>
      simp only [Token.nest, kind, List.map_cons, Option.some.injEq] at nested
      exact ⟨place innermost.close outer, by simp only [take, kind],
        (locs_place _ outer).trans nested⟩
  | string =>
    simp only [Token.nest, kind, Option.some.injEq] at nested
    exact ⟨_, take_of_leaf (.string kind) opened, (locs_place _ opened).trans nested⟩
  | symbol =>
    simp only [Token.nest, kind, Option.some.injEq] at nested
    obtain ⟨v, read⟩ := Atom.exists_read (meant.short kind) token.loc
    exact ⟨_, take_of_leaf (.word kind read) opened, (locs_place v opened).trans nested⟩
  | other name => exact absurd kind (meant.kind name)

/-- Over tokens that the parentheses allow the reader comes to where the parentheses say: it has
forms to its credit, and goes on with the lists that are open. -/
theorem resume_of_nesting {tokens : List Token} (meant : ∀ token ∈ tokens, token.Meant)
    {opened : List OpenList} {inner : List (Option Location)}
    (nested : nesting (opened.map OpenList.loc) tokens = some inner) :
    ∃ (forms : List Value) (still : List OpenList), still.map OpenList.loc = inner ∧
      ∀ failure rest, resume failure opened (tokens ++ rest) =
        (resume failure still rest).map (forms ++ ·) := by
  induction tokens generalizing opened with
  | nil =>
    refine ⟨[], opened, Option.some.inj nested, fun failure rest => ?_⟩
    rw [map_nil_append]
    rfl
  | cons token tokens ih =>
    rw [nesting, Option.bind_eq_some_iff] at nested
    obtain ⟨between, here, further⟩ := nested
    obtain ⟨progress, taken, same⟩ := take_of_nest (meant token List.mem_cons_self) here
    rw [← same] at further
    obtain ⟨forms, still, locs, goes⟩ :=
      ih (fun next member => meant next (List.mem_cons_of_mem token member)) further
    cases progress with
    | within wider =>
      refine ⟨forms, still, locs, fun failure rest => ?_⟩
      rw [List.cons_append, resume_cons, taken]
      exact goes failure rest
    | done v =>
      refine ⟨v :: forms, still, locs, fun failure rest => ?_⟩
      rw [List.cons_append, resume_cons, taken]
      show (resume failure [] (tokens ++ rest)).map (v :: ·) = _
      rw [show resume failure [] (tokens ++ rest) = _ from goes failure rest]
      cases resume failure still rest <;> rfl

end Reader

/-- Of the tokens before one that closes what is not open only the parentheses matter, and of those
after it nothing does. -/
theorem TokenStream.forms_of_closing {before after : List Token} {token : Token}
    {failure : Option Error} (meant : ∀ token ∈ before, token.Meant)
    (balanced : nesting [] before = some []) (closing : token.kind = .closing) :
    TokenStream.forms ⟨before ++ token :: after, failure⟩ =
      .error (.error ⟨.unreadable .unexpectedClosing, token.loc⟩) := by
  have nested : nesting (List.map OpenList.loc []) before = some [] := balanced
  obtain ⟨forms, still, locs, goes⟩ := Reader.resume_of_nesting meant nested
  cases List.map_eq_nil_iff.1 locs
  rw [Reader.forms_eq_resume, goes, Reader.resume_cons]
  simp only [Reader.take, closing]
  rfl

/-- Where no parenthesis is closed too often, what comes at the end of the tokens decides. -/
theorem TokenStream.forms_of_nesting {tokens : List Token} (failure : Option Error)
    {inner : List (Option Location)} (meant : ∀ token ∈ tokens, token.Meant)
    (nested : nesting [] tokens = some inner) :
    ∃ forms, TokenStream.forms ⟨tokens, failure⟩ =
      match failure, inner with
      | some e, _ => .error (.error e)
      | none, innermost :: _ => .error (.error ⟨.unreadable .unmatchedOpening, innermost⟩)
      | none, [] => .ok forms := by
  have start : nesting (List.map OpenList.loc []) tokens = some inner := nested
  obtain ⟨forms, still, rfl, goes⟩ := Reader.resume_of_nesting meant start
  have ended := goes failure []
  rw [List.append_nil] at ended
  refine ⟨forms, ?_⟩
  rw [Reader.forms_eq_resume, ended]
  cases failure with
  | some e => rfl
  | none =>
    cases still with
    | nil => exact congrArg Except.ok (List.append_nil forms)
    | cons innermost outer => rfl

/-- A text is read exactly if it can be cut into tokens and its parentheses are balanced. The first
parenthesis that closes what is not open is reported, whatever comes after it; else what stops the
tokens; else, of the parentheses that are not closed, the one that was opened last. What is read has
all tokens in it, each once and in order, and nothing else; every part of it is code with a place.
Whole numerals must not be too long. -/
theorem read_reports_first_problem (source : String) (file : Option String)
    (short : ∀ token ∈ (TokenStream.ofSource source file).tokens, token.kind = .symbol →
      ∀ numeral, WholeNumeral.parse? token.text.toList = some numeral →
        numeral.digits.length ≤ 4300) :
    let s := TokenStream.ofSource source file
    (∀ before token after, s.tokens = before ++ token :: after → nesting [] before = some [] →
      token.kind = .closing → readProgram source file =
        .error (.error ⟨.unreadable .unexpectedClosing, token.loc⟩)) ∧
    (nesting [] s.tokens = none → ∃ before token after, s.tokens = before ++ token :: after ∧
      nesting [] before = some [] ∧ token.kind = .closing) ∧
    (∀ opened e, nesting [] s.tokens = some opened → s.failure = some e →
      readProgram source file = .error (.error e)) ∧
    (∀ innermost outer, nesting [] s.tokens = some (innermost :: outer) → s.failure = none →
      readProgram source file = .error (.error ⟨.unreadable .unmatchedOpening, innermost⟩)) ∧
    (nesting [] s.tokens = some [] → s.failure = none →
      ∃ forms, readProgram source file = .ok forms ∧ Spells s.tokens forms ∧
        ∀ form ∈ forms, form.IsCode) ∧
    ReadFault.unexpectedClosing.message = "Unexpected ')'" ∧
    ReadFault.unmatchedOpening.message = "Unmatched '('" := by
  intro s
  have meant : ∀ token ∈ s.tokens, token.Meant := by
    intro token member
    exact ⟨Lexer.kind_ne_other member, short token member⟩
  have read : readProgram source file = TokenStream.forms ⟨s.tokens, s.failure⟩ :=
    readProgram_eq source file
  refine ⟨?_, exists_closing_of_nesting, ?_, ?_, ?_, rfl, rfl⟩
  · intro before token after shape balanced closing
    rw [shape] at meant
    rw [read, shape]
    refine TokenStream.forms_of_closing (fun other member => ?_) balanced closing
    exact meant other (List.mem_append_left _ member)
  · intro opened e nested stopped
    obtain ⟨_, ended⟩ := TokenStream.forms_of_nesting s.failure meant nested
    rw [← read, stopped] at ended
    exact ended
  · intro innermost outer nested complete
    obtain ⟨_, ended⟩ := TokenStream.forms_of_nesting s.failure meant nested
    rw [← read, complete] at ended
    exact ended
  · intro nested complete
    obtain ⟨forms, ended⟩ := TokenStream.forms_of_nesting s.failure meant nested
    rw [← read, complete] at ended
    refine ⟨forms, ended, (readProgram_eq_ok_iff.1 ended).2, ?_⟩
    intro form member
    exact (readProgram_isCode ended).child member

/-- Of two parentheses that are not closed, the inner one is reported. The one in the string is
none. -/
theorem read_reports_first_problem_of_open :
    let source := "(+ 1\n  (f \")\""
    nesting [] (TokenStream.ofSource source none).tokens =
        some [some ⟨none, 2, 3⟩, some ⟨none, 1, 1⟩] ∧
      readProgram source none =
        .error (.error ⟨.unreadable .unmatchedOpening, some ⟨none, 2, 3⟩⟩) := by
  intro source
  have nested : nesting [] (TokenStream.ofSource "(+ 1\n  (f \")\"" none).tokens =
      some [some ⟨none, 2, 3⟩, some ⟨none, 1, 1⟩] := by decide +kernel
  have complete : (TokenStream.ofSource "(+ 1\n  (f \")\"" none).failure = none := by decide +kernel
  have counted : (TokenStream.ofSource "(+ 1\n  (f \")\"" none).tokens.all (fun token =>
      (WholeNumeral.parse? token.text.toList).all (·.digits.length ≤ 4300)) = true := by
    decide +kernel
  have short : ∀ token ∈ (TokenStream.ofSource source none).tokens, token.kind = .symbol →
      ∀ numeral, WholeNumeral.parse? token.text.toList = some numeral →
        numeral.digits.length ≤ 4300 := by
    intro token member _ numeral parsed
    have few := List.all_eq_true.1 counted token member
    rw [parsed] at few
    exact of_decide_eq_true few
  obtain ⟨_, _, _, reported, _⟩ := read_reports_first_problem source none short
  exact ⟨nested, reported _ _ nested complete⟩

end ScopedLisp
