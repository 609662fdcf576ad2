import ScopedLisp.Proofs.Tiling

set_option autoImplicit false

namespace ScopedLisp

namespace Lexer

/-- What one pass over a text has to know of the characters before. -/
inductive Mode where
  | code
  | comment
  /-- In the string with the opening quote at this offset, maybe right after a backslash that takes
  the next character with it. -/
  | string (quote : Nat) (escaped : Bool)
  deriving DecidableEq, Repr

/-- What is wrong, and how many characters stand before it. -/
structure FoundFault where
  fault : ReadFault
  offset : Nat
  deriving DecidableEq, Repr

def Mode.step (offset : Nat) : Mode → Char → Except FoundFault Mode
  | code, c =>
    if c = ';' then .ok comment
    else if c = '"' then .ok (string offset false)
    else if c = '\'' then .error ⟨.strayApostrophe, offset⟩
    else .ok code
  | comment, c => .ok (if c = '\n' then code else comment)
  | string quote true, c =>
    if c = '\n' then .error ⟨.unterminatedString, quote⟩ else .ok (string quote false)
  | string quote false, c => .ok (if c = '"' then code else string quote (c = '\\'))

/-- A string that is still open at the end of the text has no end. -/
def Mode.finish : Mode → Option FoundFault
  | string quote _ => some ⟨.unterminatedString, quote⟩
  | _ => none

/-- The first fault of a text that begins at this offset. -/
def firstFault (mode : Mode) (offset : Nat) : List Char → Option FoundFault
  | [] => mode.finish
  | c :: rest =>
    match mode.step offset c with
    | .error found => some found
    | .ok next => firstFault next (offset + 1) rest

theorem firstFault_cons {mode next : Mode} {offset : Nat} {c : Char}
    (step : mode.step offset c = .ok next) (rest : List Char) :
    firstFault mode offset (c :: rest) = firstFault next (offset + 1) rest := by
  rw [firstFault, step]

theorem add_length_cons (offset : Nat) (c : Char) (text : List Char) :
    offset + (c :: text).length = offset + 1 + text.length := by
  rw [List.length_cons]
  omega

section Passes

variable {text after : List Char}

/-- In code nothing happens at white space, at parentheses and in words. -/
theorem firstFault_plain (plain : ∀ c ∈ text, c ≠ ';' ∧ c ≠ '"' ∧ c ≠ '\'') (offset : Nat)
    (after : List Char) :
    firstFault .code offset (text ++ after) = firstFault .code (offset + text.length) after := by
  induction text generalizing offset with
  | nil => rfl
  | cons c text ih =>
    obtain ⟨here, further⟩ := List.forall_mem_cons.1 plain
    have step : Mode.step offset .code c = .ok .code := by
      simp only [Mode.step, here, ↓reduceIte]
    rw [List.cons_append, firstFault_cons step, ih further, add_length_cons]

theorem firstFault_comment (oneLine : '\n' ∉ text) (ends : ∀ c ∈ after.head?, c = '\n')
    (offset : Nat) :
    firstFault .comment offset (text ++ after) =
      firstFault .code (offset + text.length) after := by
  induction text generalizing offset with
  | nil =>
    cases after with
    | nil => rfl
    | cons c after =>
      cases ends c rfl
      rfl
  | cons c text ih =>
    obtain ⟨here, further⟩ := not_or.1 (List.mem_cons.not.1 oneLine)
    have step : Mode.step offset .comment c = .ok .comment := by
      simp only [Mode.step, Ne.symm here, ↓reduceIte]
    rw [List.cons_append, firstFault_cons step, ih further, add_length_cons]

theorem step_plain {c : Char} (notQuote : c ≠ '"') (notBackslash : c ≠ '\\')
    (quote offset : Nat) :
    Mode.step offset (.string quote false) c = .ok (.string quote false) := by
  simp only [Mode.step, notQuote, notBackslash, ↓reduceIte, decide_false]

theorem step_escaped {c : Char} (notFeed : c ≠ '\n') (quote offset : Nat) :
    Mode.step offset (.string quote true) c = .ok (.string quote false) := by
  simp only [Mode.step, notFeed, ↓reduceIte]

theorem firstFault_enclosed (enclosed : Enclosed text) (quote offset : Nat) (after : List Char) :
    firstFault (.string quote false) offset (text ++ '"' :: after) =
      firstFault .code (offset + text.length + 1) after := by
  induction enclosed generalizing offset with
  | nil => rfl
  | @plain c text notQuote notBackslash _ ih =>
    rw [List.cons_append, firstFault_cons (step_plain notQuote notBackslash _ _), ih,
      add_length_cons]
  | @escaped c text notFeed _ ih =>
    have backslash : Mode.step offset (.string quote false) '\\' = .ok (.string quote true) := rfl
    rw [List.cons_append, List.cons_append, firstFault_cons backslash,
      firstFault_cons (step_escaped notFeed _ _), ih, add_length_cons, add_length_cons]

/-- Where a string has no closing quote, the fault is at its opening one. -/
theorem firstFault_unterminated (missing : splitString text = none) (quote offset : Nat) :
    firstFault (.string quote false) offset text = some ⟨.unterminatedString, quote⟩ := by
  fun_induction splitString text generalizing offset with
  | case1 => rfl
  | case2 => cases missing
  | case3 => rfl
  | case4 rest => rfl
  | case5 c rest notFeed ih =>
    have backslash : Mode.step offset (.string quote false) '\\' = .ok (.string quote true) := rfl
    rw [firstFault_cons backslash, firstFault_cons (step_escaped notFeed _ _)]
    exact ih (Option.map_eq_none_iff.1 missing) _
  | case6 c rest notQuote notLast notEscape ih =>
    rw [firstFault_cons (step_plain notQuote (ne_backslash notLast notEscape) _ _)]
    exact ih (Option.map_eq_none_iff.1 missing) _

/-- There is no fault in a piece, and the pass is back in code after it. -/
theorem firstFault_past_piece {piece : Piece} (longest : piece.Longest after) (offset : Nat) :
    firstFault .code offset (piece.text ++ after) =
      firstFault .code (offset + piece.text.length) after := by
  cases longest with
  | blanks _ blank =>
    refine firstFault_plain (fun c member => ?_) offset after
    refine ⟨?_, ?_, ?_⟩ <;> rintro rfl <;> exact absurd (blank _ member) (by decide)
  | @comment text _ oneLine ends =>
    have opened : Mode.step offset .code ';' = .ok .comment := rfl
    rw [Piece.text_gap, add_length_cons, ← firstFault_comment oneLine ends,
      ← firstFault_cons opened, List.cons_append]
  | token lexeme =>
    cases lexeme with
    | opening | closing => exact firstFault_plain (by simp) offset after
    | @string contents enclosed =>
      have opened : Mode.step offset .code '"' = .ok (.string offset false) := rfl
      rw [Piece.text_token, add_length_cons, List.length_append, List.cons_append,
        List.append_assoc, firstFault_cons opened]
      exact firstFault_enclosed enclosed offset (offset + 1) after
    | word _ inWord =>
      refine firstFault_plain (fun c member => ?_) offset after
      refine ⟨?_, ?_, ?_⟩ <;> rintro rfl <;> exact absurd (inWord _ member) (by decide)

end Passes

theorem firstFault_of_nextPiece {c : Char} {rest : List Char} {fault : ReadFault}
    (cut : nextPiece c rest = .error fault) (offset : Nat) :
    firstFault .code offset (c :: rest) = some ⟨fault, offset⟩ := by
  rcases fault_of_nextPiece cut with ⟨rfl, rfl⟩ | ⟨rfl, rfl, missing⟩
  · rfl
  · have opened : Mode.step offset .code '"' = .ok (.string offset false) := rfl
    rw [firstFault_cons opened]
    exact firstFault_unterminated missing offset (offset + 1)

theorem Tiles.firstFault_eq {pieces : List Piece} {source rest : List Char}
    (tiles : Tiles pieces source rest) (offset : Nat) :
    firstFault .code offset source =
      firstFault .code (offset + (pieces.flatMap Piece.text).length) rest := by
  induction tiles generalizing offset with
  | done rest => rfl
  | next longest further ih =>
    rw [firstFault_past_piece longest, ih, List.flatMap_cons, List.length_append, Nat.add_assoc]

end Lexer

/-- The lexer fails exactly where one pass over the text finds an apostrophe in code or a string
without an end, and it fails with this fault, at the apostrophe or at the opening quote. Up to there
the text has the tokens that came before the failure, and no fault. -/
theorem lexical_faults_exact (source : String) (file : Option String) :
    let s := TokenStream.ofSource source file
    (Lexer.firstFault .code 0 source.toList = none ↔ s.failure = none) ∧
    (∀ found, Lexer.firstFault .code 0 source.toList = some found →
      let before := source.toList.take found.offset
      ∃ c rest, source.toList = before ++ c :: rest ∧
        (found.fault = .strayApostrophe ∧ c = '\'' ∨ found.fault = .unterminatedString ∧ c = '"') ∧
        s.failure = some ⟨.unreadable found.fault, some (.after file before)⟩ ∧
        TokenStream.ofSource (String.ofList before) file = ⟨s.tokens, none⟩) ∧
    ReadFault.strayApostrophe.message = "Unexpected character \"'\"" ∧
    ReadFault.unterminatedString.message = "Unterminated string" := by
  intro s
  obtain ⟨rest, tiles, ended⟩ := Lexer.exists_tiles source.toList
  have pass := tiles.firstFault_eq 0
  have stream : s = _ := Lexer.locate_eq file _ .start _
  rcases ended with ⟨unfailing, rfl⟩ | ⟨fault, c, more, failing, rfl, cut⟩
  · have found : Lexer.firstFault .code 0 source.toList = none := pass
    rw [unfailing] at stream
    rw [stream]
    refine ⟨⟨fun _ => rfl, fun _ => found⟩, ?_, rfl, rfl⟩
    intro other met
    rw [found] at met
    cases met
  · rw [Lexer.firstFault_of_nextPiece cut] at pass
    have which : fault = .strayApostrophe ∧ c = '\'' ∨ fault = .unterminatedString ∧ c = '"' :=
      (Lexer.fault_of_nextPiece cut).imp_right fun unterminated => ⟨unterminated.1, unterminated.2.1⟩
    rw [failing] at stream
    rw [stream, pass]
    refine ⟨⟨nofun, nofun⟩, ?_, rfl, rfl⟩
    intro found met before
    have front : before = (Lexer.tile source.toList).pieces.flatMap Piece.text := by
      cases met
      show source.toList.take (0 + _) = _
      rw [Nat.zero_add, tiles.take_source]
    cases met
    rw [front]
    refine ⟨c, more, tiles.whole.symm, which, ?_, ?_⟩
    · rw [← Location.ofPosition_advanceAll]
      rfl
    · rw [TokenStream.ofSource, String.toList_ofList, tiles.alone.tile_eq_self, Lexer.locate_eq]
      rfl

/-- The apostrophe and the quote in the comment are no faults. The string would end in a backslash
that takes the end of the line, so it has no end, and the apostrophe after that is not reached. -/
theorem lexical_faults_exact_of_escape :
    let source := "f ;'\"\n\"a\\\n'"
    Lexer.firstFault .code 0 source.toList = some ⟨.unterminatedString, 6⟩ ∧
      (TokenStream.ofSource source none).failure =
        some ⟨.unreadable .unterminatedString, some ⟨none, 2, 1⟩⟩ := by
  intro source
  have pass : Lexer.firstFault .code 0 source.toList = some ⟨.unterminatedString, 6⟩ := by decide
  obtain ⟨_, located, _⟩ := lexical_faults_exact source none
  obtain ⟨c, rest, _, _, failed, _⟩ := located _ pass
  exact ⟨pass, failed.trans (by decide)⟩

end ScopedLisp
