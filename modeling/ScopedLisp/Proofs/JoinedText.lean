import ScopedLisp.Proofs.Lexing
import ScopedLisp.Proofs.Relocation
import ScopedLisp.Proofs.Spelling

set_option autoImplicit false

namespace ScopedLisp

def Token.relocate (r : Relocation) (token : Token) : Token :=
  { token with loc := r.place token.loc }

def TokenStream.relocate (r : Relocation) (s : TokenStream) : TokenStream :=
  ⟨s.tokens.map (Token.relocate r), s.failure.map (Error.relocate r)⟩

def ReadFailure.relocate (r : Relocation) : ReadFailure → ReadFailure
  | error e => error (e.relocate r)
  | numeralTooLong digits => numeralTooLong digits
  | tooDeep => tooDeep

/-- What was read, with all places in it relocated by `move`, or why nothing was. -/
def Relocation.ofRead {α : Type} (r : Relocation) (move : α → α) :
    Except ReadFailure α → Except ReadFailure α
  | .error failure => .error (failure.relocate r)
  | .ok a => .ok (move a)

variable {r : Relocation}

theorem Atom.read_relocate (word : String) (loc : Option Location) :
    Atom.read word (r.place loc) = r.ofRead (Value.relocate r) (Atom.read word loc) := by
  unfold Atom.read
  split
  · split
    · rfl
    · split <;> rfl
  · split
    · rfl
    · split
      · rfl
      · split <;> rfl

def OpenList.relocate (r : Relocation) (l : OpenList) : OpenList :=
  ⟨r.place l.loc, l.items.map (Value.relocate r)⟩

namespace Reader

def Progress.relocate (r : Relocation) : Progress → Progress
  | done v => done (v.relocate r)
  | within opened => within (opened.map (OpenList.relocate r))

theorem place_relocate (v : Value) (opened : List OpenList) :
    place (v.relocate r) (opened.map (OpenList.relocate r)) = (place v opened).relocate r := by
  cases opened <;> rfl

theorem take_relocate (opened : List OpenList) (token : Token) :
    take (opened.map (OpenList.relocate r)) (token.relocate r) =
      r.ofRead (Progress.relocate r) (take opened token) := by
  obtain ⟨kind, text, loc⟩ := token
  cases kind with
  | opening => rfl
  | closing =>
    cases opened with
    | nil => rfl
    | cons innermost outer =>
      have closed : (innermost.relocate r).close = innermost.close.relocate r := by
        rw [OpenList.close, OpenList.close, Value.relocate_list, List.map_reverse]
        rfl
      show Except.ok (place (innermost.relocate r).close _) = _
      rw [closed, place_relocate]
      rfl
  | string =>
    exact congrArg Except.ok (place_relocate (.string (Atom.stringContents text) loc) opened)
  | symbol =>
    show (Atom.read text (r.place loc)).map _ = r.ofRead _ ((Atom.read text loc).map _)
    rw [Atom.read_relocate]
    cases Atom.read text loc with
    | error failure => rfl
    | ok v => exact congrArg Except.ok (place_relocate v opened)
  | other name => rfl

theorem beyond_relocate {depth : ℕ∞} {opened : List OpenList} {token : Token} :
    Beyond depth (opened.map (OpenList.relocate r)) (token.relocate r) ↔
      Beyond depth opened token := by
  rw [Beyond, Beyond, List.length_map]
  rfl

/-- Tokens at other places are read as the same forms at other places. -/
theorem resumeWithin_relocate (depth : ℕ∞) (failure : Option Error) (opened : List OpenList)
    (tokens : List Token) :
    resumeWithin depth (failure.map (Error.relocate r)) (opened.map (OpenList.relocate r))
        (tokens.map (Token.relocate r)) =
      r.ofRead (List.map (Value.relocate r)) (resumeWithin depth failure opened tokens) := by
  induction tokens generalizing opened with
  | nil =>
    cases failure with
    | some e => rfl
    | none => cases opened <;> rfl
  | cons token rest ih =>
    rw [List.map_cons, resumeWithin, resumeWithin, take_relocate]
    by_cases beyond : Beyond depth opened token
    · rw [if_pos (beyond_relocate.2 beyond), if_pos beyond]
      rfl
    · rw [if_neg (mt beyond_relocate.1 beyond), if_neg beyond]
      cases take opened token with
      | error f => rfl
      | ok progress =>
        cases progress with
        | within wider => exact ih wider
        | done v =>
          show (resumeWithin _ _ [] _).map (v.relocate r :: ·) =
            r.ofRead _ ((resumeWithin depth failure [] rest).map (v :: ·))
          rw [show resumeWithin _ _ [] _ = _ from ih []]
          cases resumeWithin depth failure [] rest <;> rfl

end Reader

theorem TokenStream.forms_relocate (s : TokenStream) :
    (s.relocate r).forms = r.ofRead (List.map (Value.relocate r)) s.forms :=
  Reader.resumeWithin_relocate ⊤ s.failure [] s.tokens

/-- The same text from another position on: what follows from the places of its positions alone. -/
theorem Lexer.scan_relocate {file file' : Option String} {p p' : Position}
    (moved : ∀ text, r.place (some (.ofPosition file (p.advanceAll text))) =
      some (.ofPosition file' (p'.advanceAll text)))
    (source : List Char) : (scan file p source).relocate r = scan file' p' source := by
  have here := moved []
  induction source using tile.induct generalizing p p' with
  | case1 =>
    rw [scan_nil, scan_nil]
    rfl
  | case2 c rest fault cut =>
    rw [scan_of_fault cut, scan_of_fault cut]
    exact congrArg (fun loc => TokenStream.mk [] (some ⟨.unreadable fault, loc⟩)) here
  | case3 c rest piece after cut ih =>
    have further : ∀ text,
        r.place (some (.ofPosition file ((p.advanceAll piece.text).advanceAll text))) =
          some (.ofPosition file' ((p'.advanceAll piece.text).advanceAll text)) := by
      intro text
      rw [← Position.advanceAll_append, ← Position.advanceAll_append]
      exact moved _
    have first : (piece.tokens file p).map (Token.relocate r) = piece.tokens file' p' := by
      cases piece with
      | gap text => rfl
      | token kind text =>
        exact congrArg (fun loc => [Token.mk kind (String.ofList text) loc]) here
    rw [scan_of_piece cut, scan_of_piece cut, ← ih further (further []), ← first]
    simp [TokenStream.relocate, TokenStream.prepend]

namespace Position

/-- The position some lines further down. -/
def below (lines : Nat) (p : Position) : Position :=
  ⟨p.line + lines, p.column⟩

theorem advanceAll_below (lines : Nat) (p : Position) (text : List Char) :
    (p.below lines).advanceAll text = (p.advanceAll text).below lines := by
  induction text generalizing p with
  | nil => rfl
  | cons c text ih =>
    have step : (p.below lines).advance c = (p.advance c).below lines := by
      unfold advance
      split
      · simp only [below, Nat.add_right_comm]
      · rfl
    rw [advanceAll_cons, step, ih]
    rfl

theorem line_advanceAll (p : Position) (text : List Char) :
    (p.advanceAll text).line = p.line + text.count '\n' := by
  induction text generalizing p with
  | nil => rfl
  | cons c text ih =>
    rw [advanceAll_cons, ih, List.count_cons]
    unfold advance
    split
    · subst_vars
      simp [Nat.add_assoc, Nat.add_comm 1]
    · simp [*]

theorem advanceAll_line_end (text : List Char) :
    start.advanceAll (text ++ ['\n']) = start.below (1 + text.count '\n') := by
  have line := line_advanceAll start text
  rw [advanceAll_append]
  show Position.mk ((start.advanceAll text).line + 1) 1 = _
  rw [line, below]
  simp [start, Nat.add_comm, Nat.add_left_comm]

end Position

/-- The text with the name `mark` becomes part of another text, where it begins that many lines
down; all other places stay. -/
def Relocation.embed (mark file : Option String) (lines : Nat) : Relocation :=
  .ofMap fun place =>
    if place.file = mark then ⟨file, place.line + lines, place.column⟩ else place

theorem Relocation.place_embed_ofPosition (mark file : Option String) (lines : Nat) (p : Position) :
    (embed mark file lines).place (some (.ofPosition mark p)) =
      some (.ofPosition file (p.below lines)) := by
  simp [embed, Location.ofPosition, Position.below]

theorem Lexer.scan_embed (mark file : Option String) (lines : Nat) (source : List Char) :
    (scan mark .start source).relocate (.embed mark file lines) =
      scan file (Position.start.below lines) source := by
  apply scan_relocate
  intro text
  rw [Relocation.place_embed_ofPosition, Position.advanceAll_below]

variable {depth : Nat}

theorem readWithin_embed (depth : Nat) (mark file : Option String) (source : String) :
    readWithin depth source file = (Relocation.embed mark file 0).ofRead
      (List.map (Value.relocate (.embed mark file 0))) (readWithin depth source mark) := by
  have same := Lexer.scan_embed mark file 0 source.toList
  rw [readWithin_eq, readWithin_eq, Lexer.ofSource_eq_scan, Lexer.ofSource_eq_scan]
  simp only
  rw [← Reader.resumeWithin_relocate]
  exact congrArg (fun s => Reader.resumeWithin depth s.failure [] s.tokens) same.symm

theorem exists_read_of_read {source : String} {file : Option String} {forms : List Value}
    (read : readWithin depth source file = .ok forms) (mark : Option String) :
    ∃ marked, readWithin depth source mark = .ok marked ∧
      forms = marked.map (Value.relocate (.embed mark file 0)) := by
  have same := readWithin_embed depth mark file source
  rw [read] at same
  cases marked : readWithin depth source mark with
  | error failure =>
    rw [marked] at same
    cases same
  | ok marked' =>
    rw [marked] at same
    exact ⟨marked', rfl, Except.ok.inj same⟩

/-- A text that can be read has its forms first, whatever text comes in the lines after it, and that
text is read as it is alone, but further down. -/
theorem readWithin_joined {first : String} {file : Option String} {forms : List Value}
    (read : readWithin depth first file = .ok forms) (second : String) (mark : Option String) :
    readWithin depth (first ++ "\n" ++ second) file =
      ((Relocation.embed mark file (1 + first.toList.count '\n')).ofRead
        (List.map (Value.relocate (.embed mark file (1 + first.toList.count '\n'))))
        (readWithin depth second mark)).map (forms ++ ·) := by
  have characters : (first ++ "\n" ++ second).toList =
      first.toList ++ '\n' :: second.toList := by
    simp
  -- The first text can be cut to its end, so nothing in it is open where the second text begins.
  have complete := (readProgram_eq_ok_iff.1 (readProgram_of_readWithin read)).1
  rw [readWithin_eq] at read ⊢
  simp only [Lexer.ofSource_eq_scan] at read complete ⊢
  rw [complete] at read
  rw [characters, Lexer.scan_append _ complete, Position.advanceAll_line_end,
    ← Lexer.scan_embed mark, TokenStream.prepend, Reader.resumeWithin_append read, readWithin_eq]
  exact congrArg _ (Reader.resumeWithin_relocate depth _ [] _)

end ScopedLisp
