import Mathlib.Data.List.Forall2
import ScopedLisp.Proofs.Code

set_option autoImplicit false

namespace ScopedLisp

/-- What is met on the way through a form. The end of a list has no place that the list keeps. -/
inductive Mark where
  | opening (loc : Option Location)
  | closing
  | leaf (v : Value)

namespace Value

mutual

def marks : Value → List Mark
  | list items loc => .opening loc :: (marksOfAll items ++ [.closing])
  | v => [.leaf v]

def marksOfAll : List Value → List Mark
  | [] => []
  | v :: vs => marks v ++ marksOfAll vs

end

theorem marksOfAll_append (vs ws : List Value) :
    marksOfAll (vs ++ ws) = marksOfAll vs ++ marksOfAll ws := by
  induction vs with
  | nil => rfl
  | cons v vs ih => simp only [List.cons_append, marksOfAll, ih, List.append_assoc]

theorem marksOfAll_singleton (v : Value) : marksOfAll [v] = v.marks :=
  List.append_nil v.marks

end Value

/-- The mark that a token gives. A word gives what it stands for, and a string its contents. -/
inductive Token.Gives (token : Token) : Mark → Prop
  | opening (kind : token.kind = .opening) : Gives token (.opening token.loc)
  | closing (kind : token.kind = .closing) : Gives token .closing
  | string (kind : token.kind = .string) :
      Gives token (.leaf (.string (Atom.stringContents token.text) token.loc))
  | word {v : Value} (kind : token.kind = .symbol)
      (read : Atom.read token.text token.loc = .ok v) : Gives token (.leaf v)

/-- The tokens give the marks of the forms, in order and each once. -/
def Spells (tokens : List Token) (forms : List Value) : Prop :=
  List.Forall₂ Token.Gives tokens (Value.marksOfAll forms)

theorem Spells.append {first second : List Token} {vs ws : List Value} (spelled : Spells first vs)
    (further : Spells second ws) : Spells (first ++ second) (vs ++ ws) := by
  unfold Spells
  rw [Value.marksOfAll_append]
  exact List.rel_append spelled further

theorem forall₂_append_right {α β : Type} {R : α → β → Prop} {xs : List α} {first second : List β}
    (related : List.Forall₂ R xs (first ++ second)) :
    ∃ ys zs, xs = ys ++ zs ∧ List.Forall₂ R ys first ∧ List.Forall₂ R zs second :=
  ⟨_, _, (List.take_append_drop first.length xs).symm, List.forall₂_take_append _ _ _ related,
    List.forall₂_drop_append _ _ _ related⟩

theorem map_nil_append (read : Except ReadFailure (List Value)) : read.map ([] ++ ·) = read := by
  cases read <;> rfl

namespace Reader

/-- What is read when some lists are open already: the form that they are part of, and the forms
after it. -/
def resume (failure : Option Error) (opened : List OpenList) (tokens : List Token) :
    Except ReadFailure (List Value) :=
  resumeWithin ⊤ failure opened tokens

/-- What is read after a token that brought the reader this far. -/
def proceed (failure : Option Error) (rest : List Token) :
    Progress → Except ReadFailure (List Value)
  | .done v => (resume failure [] rest).map (v :: ·)
  | .within opened => resume failure opened rest

theorem forms_eq_resume (s : TokenStream) : s.forms = resume s.failure [] s.tokens := rfl

theorem resume_cons (failure : Option Error) (opened : List OpenList) (token : Token)
    (rest : List Token) :
    resume failure opened (token :: rest) = (take opened token).bind (proceed failure rest) := by
  rw [resume, resumeWithin, if_neg (not_beyond_top opened token)]
  cases take opened token with
  | error f => rfl
  | ok progress => cases progress <;> rfl

theorem resume_nil : resume none [] [] = .ok [] := rfl

/-- The marks of lists that are open, up to where the reader stands. -/
def marksOfOpen : List OpenList → List Mark
  | [] => []
  | innermost :: outer =>
    marksOfOpen outer ++ .opening innermost.loc :: Value.marksOfAll innermost.items.reverse

def Progress.marks : Progress → List Mark
  | done v => v.marks
  | within opened => marksOfOpen opened

theorem marks_place (v : Value) (opened : List OpenList) :
    (place v opened).marks = marksOfOpen opened ++ v.marks := by
  cases opened with
  | nil => rfl
  | cons innermost outer =>
    simp [place, Progress.marks, marksOfOpen, OpenList.push, Value.marksOfAll_append,
      Value.marksOfAll_singleton]

theorem take_marks {opened : List OpenList} {token : Token} {progress : Progress}
    (taken : take opened token = .ok progress) :
    ∃ mark, token.Gives mark ∧ progress.marks = marksOfOpen opened ++ [mark] := by
  unfold take at taken
  split at taken
  · rename_i kind
    cases taken
    exact ⟨_, .opening kind, rfl⟩
  · rename_i kind
    split at taken
    · cases taken
    · cases taken
      refine ⟨_, .closing kind, ?_⟩
      simp [marks_place, OpenList.close, Value.marks, marksOfOpen]
  · rename_i kind
    cases taken
    exact ⟨_, .string kind, marks_place _ opened⟩
  · rename_i kind
    cases read : Atom.read token.text token.loc with
    | error f =>
      rw [read] at taken
      cases taken
    | ok v =>
      rw [read] at taken
      cases taken
      have single : v.marks = [.leaf v] := by cases Atom.read_reads read <;> rfl
      exact ⟨_, .word kind read, single ▸ marks_place v opened⟩
  · cases taken

theorem take_of_leaf {token : Token} {v : Value} (gives : token.Gives (.leaf v))
    (opened : List OpenList) : take opened token = .ok (place v opened) := by
  cases gives with
  | string kind => simp only [take, kind]
  | word kind read =>
    simp only [take, kind, read]
    rfl

/-- What is read is spelled by the tokens: those before stand for the lists that are open. -/
theorem spelled_of_resume {failure : Option Error} {opened : List OpenList} {tokens : List Token}
    {forms : List Value} (read : resume failure opened tokens = .ok forms) :
    failure = none ∧ ∃ marks, List.Forall₂ Token.Gives tokens marks ∧
      Value.marksOfAll forms = marksOfOpen opened ++ marks := by
  induction tokens generalizing opened forms with
  | nil =>
    cases failure with
    | some e => cases read
    | none =>
      cases opened with
      | cons innermost outer => cases read
      | nil =>
        cases read
        exact ⟨rfl, [], .nil, rfl⟩
  | cons token rest ih =>
    rw [resume_cons] at read
    cases taken : take opened token with
    | error f =>
      rw [taken] at read
      cases read
    | ok progress =>
      obtain ⟨mark, gives, added⟩ := take_marks taken
      rw [taken] at read
      cases progress with
      | within wider =>
        obtain ⟨complete, marks, spelled, same⟩ := ih read
        refine ⟨complete, mark :: marks, .cons gives spelled, ?_⟩
        rw [same, show marksOfOpen wider = _ from added, List.append_assoc]
        rfl
      | done v =>
        change (resume failure [] rest).map (v :: ·) = .ok forms at read
        cases further : resume failure [] rest with
        | error f =>
          rw [further] at read
          cases read
        | ok more =>
          rw [further] at read
          cases read
          obtain ⟨complete, marks, spelled, same⟩ := ih further
          refine ⟨complete, mark :: marks, .cons gives spelled, ?_⟩
          rw [Value.marksOfAll, same, show v.marks = _ from added, List.append_assoc]
          rfl

/-- Tokens that spell items bring them into the innermost open list, if each item's tokens do. -/
theorem resume_of_items (failure : Option Error) {items : List Value}
    (each : ∀ item ∈ items, ∀ {tokens}, List.Forall₂ Token.Gives tokens item.marks →
      ∀ opened rest, resume failure opened (tokens ++ rest) =
        proceed failure rest (place item opened))
    {tokens : List Token} (spelled : Spells tokens items) (innermost : OpenList)
    (outer : List OpenList) (rest : List Token) :
    resume failure (innermost :: outer) (tokens ++ rest) =
      resume failure (⟨innermost.loc, items.reverse ++ innermost.items⟩ :: outer) rest := by
  induction items generalizing tokens innermost with
  | nil =>
    cases spelled
    rfl
  | cons item items ih =>
    obtain ⟨first, others, rfl, here, further⟩ := forall₂_append_right spelled
    have later := ih (fun next member => each next (List.mem_cons_of_mem item member)) further
      (innermost.push item)
    rw [List.append_assoc, each item List.mem_cons_self here]
    show resume failure (innermost.push item :: outer) (others ++ rest) = _
    rw [later]
    simp [OpenList.push]

/-- Tokens that spell a form bring the reader past it, whatever comes after them. -/
theorem resume_of_spelled (failure : Option Error) (v : Value) {tokens : List Token}
    (spelled : List.Forall₂ Token.Gives tokens v.marks) (opened : List OpenList)
    (rest : List Token) :
    resume failure opened (tokens ++ rest) = proceed failure rest (place v opened) := by
  induction v using Value.induction_on_children generalizing tokens opened rest with
  | ascend v ih =>
    cases v with
    | list items loc =>
      obtain ⟨first, others, opens, after, rfl⟩ := List.forall₂_cons_right_iff.1 spelled
      obtain ⟨inner, last, rfl, inside, ends⟩ := forall₂_append_right after
      obtain ⟨final, none, closes, nothing, rfl⟩ := List.forall₂_cons_right_iff.1 ends
      cases nothing
      have opening : take opened first = .ok (.within (⟨loc, []⟩ :: opened)) := by
        cases opens with
        | opening kind => simp only [take, kind]
      have closing : take (⟨loc, items.reverse⟩ :: opened) final =
          .ok (place (.list items loc) opened) := by
        cases closes with
        | closing kind => simp only [take, kind, OpenList.close, List.reverse_reverse]
      have within := resume_of_items failure ih inside ⟨loc, []⟩ opened (final :: rest)
      rw [List.append_nil] at within
      calc resume failure opened (first :: (inner ++ [final]) ++ rest)
          = resume failure (⟨loc, []⟩ :: opened) (inner ++ final :: rest) := by
            rw [List.cons_append, resume_cons, opening, List.append_assoc]
            rfl
        _ = resume failure (⟨loc, items.reverse⟩ :: opened) (final :: rest) := within
        _ = proceed failure rest (place (.list items loc) opened) := by
            rw [resume_cons, closing]
            rfl
    | _ =>
      obtain ⟨token, others, gives, none, rfl⟩ := List.forall₂_cons_right_iff.1 spelled
      cases none
      rw [List.cons_append, resume_cons, take_of_leaf gives]
      rfl

end Reader

namespace TokenStream

theorem forms_of_spelled {tokens : List Token} {forms : List Value} (spelled : Spells tokens forms)
    (rest : List Token) (failure : Option Error) :
    TokenStream.forms ⟨tokens ++ rest, failure⟩ =
      (TokenStream.forms ⟨rest, failure⟩).map (forms ++ ·) := by
  rw [Reader.forms_eq_resume, Reader.forms_eq_resume]
  induction forms generalizing tokens with
  | nil =>
    cases spelled
    rw [map_nil_append]
    rfl
  | cons v forms ih =>
    obtain ⟨first, others, rfl, here, further⟩ := forall₂_append_right spelled
    have later : Reader.resume failure [] (others ++ rest) =
      (Reader.resume failure [] rest).map (forms ++ ·) := ih further
    rw [List.append_assoc, Reader.resume_of_spelled failure v here]
    show (Reader.resume failure [] (others ++ rest)).map (v :: ·) = _
    rw [later]
    cases Reader.resume failure [] rest <;> rfl

/-- A stream is read as the forms that its tokens spell, if it does not fail. -/
theorem forms_eq_ok_iff (s : TokenStream) (forms : List Value) :
    s.forms = .ok forms ↔ s.failure = none ∧ Spells s.tokens forms := by
  constructor
  · intro read
    rw [Reader.forms_eq_resume] at read
    obtain ⟨complete, marks, spelled, same⟩ := Reader.spelled_of_resume read
    have all : Value.marksOfAll forms = marks := same
    exact ⟨complete, by rw [Spells, all]; exact spelled⟩
  · rintro ⟨complete, spelled⟩
    have read := forms_of_spelled spelled [] s.failure
    rw [List.append_nil, complete, Reader.forms_eq_resume ⟨[], none⟩, Reader.resume_nil] at read
    obtain ⟨tokens, failure⟩ := s
    cases complete
    rw [read]
    simp [Except.map]

end TokenStream

theorem readProgram_eq_ok_iff {source : String} {file : Option String} {forms : List Value} :
    readProgram source file = .ok forms ↔
      (TokenStream.ofSource source file).failure = none ∧
        Spells (TokenStream.ofSource source file).tokens forms := by
  rw [readProgram_eq]
  exact TokenStream.forms_eq_ok_iff _ forms

end ScopedLisp
