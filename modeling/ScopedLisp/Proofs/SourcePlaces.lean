import Mathlib.Data.List.Induction
import ScopedLisp.Proofs.Lexing
import ScopedLisp.Proofs.Spelling

set_option autoImplicit false

namespace ScopedLisp

/-- The place of what comes after `before` in the text of this name: one line further down for every
line feed, and one column further on for every character since the last one. -/
def Location.after (file : Option String) (before : List Char) : Location :=
  ⟨file, before.count '\n' + 1, (before.reverse.takeWhile (· ≠ '\n')).length + 1⟩

theorem Position.advanceAll_start (before : List Char) :
    start.advanceAll before =
      ⟨before.count '\n' + 1, (before.reverse.takeWhile (· ≠ '\n')).length + 1⟩ := by
  induction before using List.reverseRecOn with
  | nil => rfl
  | append_singleton before c ih =>
    rw [advanceAll_append, ih, List.count_append, List.reverse_append]
    by_cases feed : c = '\n'
    · simp [feed, advance]
    · simp [feed, advance]

theorem Location.ofPosition_advanceAll (file : Option String) (before : List Char) :
    ofPosition file (Position.start.advanceAll before) = after file before := by
  rw [Position.advanceAll_start]
  simp [ofPosition, after]

/-- In the source of this name, the text stands at this place. -/
def StandsAt (source : String) (file : Option String) (text : List Char) (place : Location) :
    Prop :=
  ∃ before rest, source.toList = before ++ (text ++ rest) ∧ place = .after file before

namespace Lexer

variable {file : Option String}

/-- Every token is a stretch of the text, and its place is where the stretch begins. -/
theorem exists_stretch_of_token {p : Position} {source : List Char} {token : Token}
    (member : token ∈ (scan file p source).tokens) :
    ∃ before text rest, source = before ++ (text ++ rest) ∧ text ≠ [] ∧
      token.text = String.ofList text ∧
      token.loc = some (.ofPosition file (p.advanceAll before)) := by
  induction source using tile.induct generalizing p with
  | case1 =>
    rw [scan_nil] at member
    cases member
  | case2 c rest fault cut =>
    rw [scan_of_fault cut] at member
    cases member
  | case3 c rest piece after cut ih =>
    have whole := nextPiece_append cut
    rw [scan_of_piece cut] at member
    rcases List.mem_append.1 member with here | later
    · cases piece with
      | gap text => cases here
      | token kind text =>
        rw [List.mem_singleton.1 here]
        refine ⟨[], text, after, whole.symm, ?_, rfl, rfl⟩
        rintro rfl
        cases cut_of_nextPiece cut
    · obtain ⟨before, text, more, split, nonempty, same, place⟩ := ih later
      refine ⟨piece.text ++ before, text, more, ?_, nonempty, same, ?_⟩
      · rw [← whole, split, List.append_assoc]
      · rw [place, Position.advanceAll_append]

/-- What cannot be cut into tokens has a first character, and the failure is there. -/
theorem exists_character_of_failure {p : Position} {source : List Char} {e : Error}
    (failed : (scan file p source).failure = some e) :
    ∃ before c rest, source = before ++ c :: rest ∧
      e.loc = some (.ofPosition file (p.advanceAll before)) := by
  induction source using tile.induct generalizing p with
  | case1 =>
    rw [scan_nil] at failed
    cases failed
  | case2 c rest fault cut =>
    rw [scan_of_fault cut] at failed
    cases failed
    exact ⟨[], c, rest, rfl, rfl⟩
  | case3 c rest piece after cut ih =>
    rw [scan_of_piece cut] at failed
    obtain ⟨before, d, more, split, place⟩ := ih failed
    refine ⟨piece.text ++ before, d, more, ?_, ?_⟩
    · rw [← nextPiece_append cut, split, List.append_assoc]
    · rw [place, Position.advanceAll_append]

end Lexer

namespace TokenStream

variable {source : String} {file : Option String}

theorem standsAt_of_token {token : Token} (member : token ∈ (ofSource source file).tokens) :
    token.text ≠ "" ∧
      ∃ place, token.loc = some place ∧ StandsAt source file token.text.toList place := by
  obtain ⟨before, text, rest, split, nonempty, same, place⟩ := Lexer.exists_stretch_of_token member
  rw [Location.ofPosition_advanceAll] at place
  refine ⟨?_, _, place, before, rest, ?_, rfl⟩
  · rw [same]
    simpa using nonempty
  · rw [same, String.toList_ofList, split]

theorem standsAt_of_failure {e : Error} (failed : (ofSource source file).failure = some e) :
    ∃ c place, e.loc = some place ∧ StandsAt source file [c] place := by
  obtain ⟨before, c, rest, split, place⟩ := Lexer.exists_character_of_failure failed
  rw [Location.ofPosition_advanceAll] at place
  exact ⟨c, _, place, before, rest, split, rfl⟩

/-- The first character of a token is a character of the text at the place of the token. -/
theorem character_of_token {token : Token} (member : token ∈ (ofSource source file).tokens) :
    ∃ c place, token.loc = some place ∧ StandsAt source file [c] place := by
  obtain ⟨nonempty, place, located, before, rest, split, rfl⟩ := standsAt_of_token member
  have characters : token.text.toList ≠ [] := by simpa using nonempty
  obtain ⟨c, more, shape⟩ := List.exists_cons_of_ne_nil characters
  rw [shape] at split
  exact ⟨c, _, located, before, more ++ rest, split, rfl⟩

end TokenStream

namespace Reader

section

/- What is known of the places of tokens, of open lists and of the failure after the tokens is known
of the place of every error. -/
variable {P : Option Location → Prop}

theorem take_error_place {opened : List OpenList} {token : Token} (ofToken : P token.loc)
    {e : Error} (failed : take opened token = .error (.error e)) : P e.loc := by
  unfold take at failed
  split at failed
  · cases failed
  · split at failed
    · cases failed
      exact ofToken
    · cases failed
  · cases failed
  · cases read : Atom.read token.text token.loc with
    | error failure =>
      rw [read] at failed
      cases failed
      exact absurd read (Atom.read_ne_error _ _ e)
    | ok v =>
      rw [read] at failed
      cases failed
  · cases failed
    exact ofToken

theorem place_within {v : Value} {opened wider : List OpenList} (ofOpen : ∀ l ∈ opened, P l.loc)
    (within : place v opened = .within wider) : ∀ l ∈ wider, P l.loc := by
  cases opened with
  | nil => cases within
  | cons innermost outer =>
    cases within
    intro l member
    rcases List.mem_cons.1 member with rfl | member
    · exact ofOpen innermost List.mem_cons_self
    · exact ofOpen l (List.mem_cons_of_mem _ member)

theorem take_within {opened wider : List OpenList} {token : Token} (ofToken : P token.loc)
    (ofOpen : ∀ l ∈ opened, P l.loc) (taken : take opened token = .ok (.within wider)) :
    ∀ l ∈ wider, P l.loc := by
  unfold take at taken
  split at taken
  · cases taken
    intro l member
    rcases List.mem_cons.1 member with rfl | member
    · exact ofToken
    · exact ofOpen l member
  · split at taken
    · cases taken
    · rename_i innermost outer
      exact place_within (fun l member => ofOpen l (List.mem_cons_of_mem _ member))
        (Except.ok.inj taken)
  · exact place_within ofOpen (Except.ok.inj taken)
  · cases read : Atom.read token.text token.loc with
    | error failure =>
      rw [read] at taken
      cases taken
    | ok v =>
      rw [read] at taken
      exact place_within ofOpen (Except.ok.inj taken)
  · cases taken

theorem resume_error_place {failure : Option Error} {tokens : List Token}
    (ofTokens : ∀ token ∈ tokens, P token.loc) (ofFailure : ∀ e, failure = some e → P e.loc)
    {opened : List OpenList} (ofOpen : ∀ l ∈ opened, P l.loc) {e : Error}
    (failed : resume failure opened tokens = .error (.error e)) : P e.loc := by
  induction tokens generalizing opened with
  | nil =>
    cases failure with
    | some stop =>
      cases failed
      exact ofFailure e rfl
    | none =>
      cases opened with
      | nil => cases failed
      | cons innermost outer =>
        cases failed
        exact ofOpen innermost List.mem_cons_self
  | cons token rest ih =>
    have here := ofTokens token List.mem_cons_self
    have further : ∀ next ∈ rest, P next.loc :=
      fun next member => ofTokens next (List.mem_cons_of_mem token member)
    rw [resume_cons] at failed
    cases taken : take opened token with
    | error f =>
      rw [taken] at failed
      cases failed
      exact take_error_place here taken
    | ok progress =>
      rw [taken] at failed
      cases progress with
      | within wider => exact ih further (take_within here ofOpen taken) failed
      | done v =>
        change (resume failure [] rest).map (v :: ·) = .error (.error e) at failed
        cases left : resume failure [] rest with
        | ok forms =>
          rw [left] at failed
          cases failed
        | error f =>
          rw [left] at failed
          cases failed
          exact ih further (by simp) left

end

end Reader

/-- An error of reading is at a character of the text. -/
theorem readProgram_error_standsAt {source : String} {file : Option String} {e : Error}
    (failed : readProgram source file = .error (.error e)) :
    ∃ c place, e.loc = some place ∧ StandsAt source file [c] place := by
  rw [readProgram_eq, Reader.forms_eq_resume] at failed
  exact Reader.resume_error_place (P := fun loc => ∃ c place, loc = some place ∧
    StandsAt source file [c] place) (fun token => TokenStream.character_of_token)
    (fun e => TokenStream.standsAt_of_failure) (by simp) failed

/-- The first mark of a form: the opening parenthesis of a list, or else the form itself. -/
def Value.firstMark : Value → Mark
  | list _ loc => .opening loc
  | v => .leaf v

theorem Value.marks_subset_marksOfAll {v : Value} {vs : List Value} (member : v ∈ vs) :
    v.marks ⊆ marksOfAll vs := by
  induction vs with
  | nil => cases member
  | cons first rest ih =>
    rcases List.mem_cons.1 member with rfl | member
    · exact List.subset_append_left v.marks (marksOfAll rest)
    · exact List.Subset.trans (ih member) (List.subset_append_right first.marks (marksOfAll rest))

/-- All forms inside a form are met on the way through it, unless they are inside a leaf. -/
theorem Value.firstMark_mem_marks {v node : Value}
    (leaves : ∀ leaf, Mark.leaf leaf ∈ v.marks → leaf.children = []) (inside : node ∈ v.parts) :
    node.firstMark ∈ v.marks := by
  induction v using induction_on_children with
  | ascend v ih =>
    cases v with
    | list items loc =>
      have deeper : marksOfAll items ⊆ (list items loc).marks := fun mark member =>
        List.mem_cons_of_mem _ (List.mem_append_left _ member)
      rcases mem_parts.1 inside with rfl | ⟨item, member, below⟩
      · exact List.mem_cons_self
      · have within := List.Subset.trans (marks_subset_marksOfAll member) deeper
        exact within (ih item member (fun leaf met => leaves leaf (within met)) below)
    | _ =>
      have single := leaves _ List.mem_cons_self
      rw [parts_eq, single] at inside
      rw [List.mem_singleton.1 inside]
      exact List.mem_cons_self

theorem Token.Gives.children_of_leaf {token : Token} {v : Value} (gives : token.Gives (.leaf v)) :
    v.children = [] := by
  cases gives with
  | string => rfl
  | word kind read => cases Atom.read_reads read <;> rfl

theorem Token.Gives.loc_of_firstMark {token : Token} {node : Value}
    (gives : token.Gives node.firstMark) : node.loc = token.loc := by
  generalize mark : node.firstMark = given at gives
  cases gives with
  | opening kind =>
    cases node <;> cases mark
    rfl
  | closing kind => cases node <;> cases mark
  | string kind =>
    cases node <;> cases mark
    rfl
  | word kind read => cases Atom.read_reads read <;> cases node <;> cases mark <;> rfl

theorem exists_of_forall₂_right {α β : Type} {R : α → β → Prop} {xs : List α} {ys : List β}
    (related : List.Forall₂ R xs ys) {y : β} (member : y ∈ ys) : ∃ x ∈ xs, R x y := by
  induction related with
  | nil => cases member
  | cons first _ ih =>
    rcases List.mem_cons.1 member with rfl | member
    · exact ⟨_, List.mem_cons_self, first⟩
    · obtain ⟨x, inside, holds⟩ := ih member
      exact ⟨x, List.mem_cons_of_mem _ inside, holds⟩

/-- A form that was read, or a form inside it, begins with a token of the text. -/
theorem exists_token_of_part {source : String} {file : Option String} {forms : List Value}
    (read : readProgram source file = .ok forms) {node : Value}
    (inside : node ∈ Value.partsOfAll forms) :
    ∃ token ∈ (TokenStream.ofSource source file).tokens, token.Gives node.firstMark := by
  obtain ⟨_, spelled⟩ := readProgram_eq_ok_iff.1 read
  obtain ⟨form, member, within⟩ := Value.mem_partsOfAll.1 inside
  have met := Value.marks_subset_marksOfAll member
  have leaves : ∀ leaf, Mark.leaf leaf ∈ form.marks → leaf.children = [] := by
    intro leaf here
    obtain ⟨token, _, gives⟩ := exists_of_forall₂_right spelled (met here)
    exact gives.children_of_leaf
  exact exists_of_forall₂_right spelled (met (Value.firstMark_mem_marks leaves within))

theorem readProgram_standsAt {source : String} {file : Option String} {forms : List Value}
    (read : readProgram source file = .ok forms) {node : Value}
    (inside : node ∈ Value.partsOfAll forms) :
    ∃ (token : Token) (place : Location), token.Gives node.firstMark ∧ token.text ≠ "" ∧
      node.loc = some place ∧ StandsAt source file token.text.toList place := by
  obtain ⟨token, given, gives⟩ := exists_token_of_part read inside
  obtain ⟨nonempty, place, located, stands⟩ := TokenStream.standsAt_of_token given
  exact ⟨token, place, gives, nonempty, gives.loc_of_firstMark.trans located, stands⟩

end ScopedLisp
