import ScopedLisp.Token.Lexer

set_option autoImplicit false

namespace ScopedLisp

/-- The stream with further tokens before its own. -/
def TokenStream.prepend (tokens : List Token) (s : TokenStream) : TokenStream :=
  ⟨tokens ++ s.tokens, s.failure⟩

theorem TokenStream.prepend_append (first second : List Token) (s : TokenStream) :
    s.prepend (first ++ second) = (s.prepend second).prepend first := by
  simp only [prepend, List.append_assoc]

/-- The token that a piece is, if it is one, where the piece begins at `p`. -/
def Piece.tokens (file : Option String) (p : Position) : Piece → List Token
  | gap _ => []
  | token kind text => [⟨kind, String.ofList text, some (.ofPosition file p)⟩]

namespace Lexer

/-- The tokens of a text that begins at `p`. -/
def scan (file : Option String) (p : Position) (source : List Char) : TokenStream :=
  locate file (tile source).fault p (tile source).pieces

theorem ofSource_eq_scan (source : String) (file : Option String) :
    TokenStream.ofSource source file = scan file .start source.toList := rfl

variable {file : Option String} {p : Position} {c : Char} {text rest after : List Char}

theorem scan_nil : scan file p [] = .finished := by
  rw [scan, tile]
  rfl

theorem tile_of_fault {fault : ReadFault} (cut : nextPiece c rest = .error fault) :
    tile (c :: rest) = ⟨[], some fault⟩ := by
  rw [tile]
  split <;> rename_i cut' <;> rw [cut] at cut' <;> cases cut'
  rfl

theorem scan_of_fault {fault : ReadFault} (cut : nextPiece c rest = .error fault) :
    scan file p (c :: rest) = ⟨[], some ⟨.unreadable fault, some (.ofPosition file p)⟩⟩ := by
  rw [scan, tile_of_fault cut]
  rfl

theorem tile_of_piece {piece : Piece} (cut : nextPiece c rest = .ok (piece, after)) :
    tile (c :: rest) = ⟨piece :: (tile after).pieces, (tile after).fault⟩ := by
  rw [tile]
  split <;> rename_i cut' <;> rw [cut] at cut' <;> cases cut'
  rfl

theorem scan_of_piece {piece : Piece} (cut : nextPiece c rest = .ok (piece, after)) :
    scan file p (c :: rest) =
      (scan file (p.advanceAll piece.text) after).prepend (piece.tokens file p) := by
  rw [scan, tile_of_piece cut]
  cases piece <;> rfl

section Pieces

theorem nextPiece_blank (blank : Text.isBlank c = true) (rest : List Char) :
    nextPiece c rest =
      .ok (.gap (c :: rest.takeWhile Text.isBlank), rest.dropWhile Text.isBlank) := by
  rw [nextPiece, if_pos blank]

theorem nextPiece_comment (rest : List Char) :
    nextPiece ';' rest =
      .ok (.gap (';' :: rest.takeWhile (· ≠ '\n')), rest.dropWhile (· ≠ '\n')) := rfl

theorem nextPiece_opening (rest : List Char) :
    nextPiece '(' rest = .ok (.token .opening ['('], rest) := rfl

theorem nextPiece_closing (rest : List Char) :
    nextPiece ')' rest = .ok (.token .closing [')'], rest) := rfl

theorem nextPiece_string {inside : List Char} (found : splitString rest = some (inside, after)) :
    nextPiece '"' rest = .ok (.token .string ('"' :: inside), after) := by
  rw [nextPiece, if_neg (by decide), if_neg (by decide), if_neg (by decide), if_neg (by decide),
    if_pos rfl, found]

theorem nextPiece_word (inWord : isDelimiter c = false) (rest : List Char) :
    nextPiece c rest = .ok (.token .symbol (c :: rest.takeWhile (!isDelimiter ·)),
      rest.dropWhile (!isDelimiter ·)) := by
  simp only [isDelimiter, Bool.or_eq_false_iff, decide_eq_false_iff_not] at inWord
  obtain ⟨⟨⟨⟨⟨blank, opening⟩, closing⟩, quote⟩, apostrophe⟩, comment⟩ := inWord
  simp only [nextPiece, blank, opening, closing, quote, apostrophe, comment, ↓reduceIte,
    Bool.false_eq_true]

/-- Every piece is one of these. -/
inductive Cut : Char → List Char → Piece → List Char → Prop
  | blank {c : Char} (blank : Text.isBlank c = true) (rest : List Char) :
      Cut c rest (.gap (c :: rest.takeWhile Text.isBlank)) (rest.dropWhile Text.isBlank)
  | comment (rest : List Char) :
      Cut ';' rest (.gap (';' :: rest.takeWhile (· ≠ '\n'))) (rest.dropWhile (· ≠ '\n'))
  | opening (rest : List Char) : Cut '(' rest (.token .opening ['(']) rest
  | closing (rest : List Char) : Cut ')' rest (.token .closing [')']) rest
  | string {rest inside after : List Char} (found : splitString rest = some (inside, after)) :
      Cut '"' rest (.token .string ('"' :: inside)) after
  | word {c : Char} (inWord : isDelimiter c = false) (rest : List Char) :
      Cut c rest (.token .symbol (c :: rest.takeWhile (!isDelimiter ·)))
        (rest.dropWhile (!isDelimiter ·))

theorem cut_of_nextPiece {piece : Piece} (cut : nextPiece c rest = .ok (piece, after)) :
    Cut c rest piece after := by
  unfold nextPiece at cut
  split at cut
  · rename_i blank
    cases cut
    exact .blank blank rest
  rename_i blank
  split at cut
  · rename_i comment
    cases cut
    cases comment
    exact .comment rest
  rename_i comment
  split at cut
  · rename_i opening
    cases cut
    cases opening
    exact .opening rest
  rename_i opening
  split at cut
  · rename_i closing
    cases cut
    cases closing
    exact .closing rest
  rename_i closing
  split at cut
  · rename_i quote
    cases quote
    split at cut
    · rename_i found
      cases cut
      exact .string found
    · cases cut
  rename_i quote
  split at cut
  · cases cut
  · rename_i apostrophe
    cases cut
    refine .word ?_ rest
    simp only [isDelimiter, blank, comment, opening, closing, quote, apostrophe, decide_false,
      Bool.or_false]

/-- No piece begins at an apostrophe, nor at a quote that no other closes. -/
theorem fault_of_nextPiece {fault : ReadFault} (cut : nextPiece c rest = .error fault) :
    fault = .strayApostrophe ∧ c = '\'' ∨
      fault = .unterminatedString ∧ c = '"' ∧ splitString rest = none := by
  unfold nextPiece at cut
  split at cut
  · cases cut
  split at cut
  · cases cut
  split at cut
  · cases cut
  split at cut
  · cases cut
  split at cut
  · rename_i quote
    split at cut
    · cases cut
    · rename_i missing
      cases cut
      exact .inr ⟨rfl, quote, missing⟩
  split at cut
  · rename_i apostrophe
    cases cut
    exact .inl ⟨rfl, apostrophe⟩
  · cases cut

end Pieces

/-- White space only moves the position, one character after another. -/
theorem scan_blank (blank : Text.isBlank c = true) (rest : List Char) :
    scan file p (c :: rest) = scan file (p.advance c) rest := by
  have absorbed : scan file ((p.advance c).advanceAll (rest.takeWhile Text.isBlank))
      (rest.dropWhile Text.isBlank) = scan file (p.advance c) rest := by
    cases rest with
    | nil => rfl
    | cons d rest =>
      by_cases further : Text.isBlank d = true
      · rw [List.takeWhile_cons_of_pos further, List.dropWhile_cons_of_pos further]
        exact (scan_of_piece (nextPiece_blank further rest)).symm
      · rw [List.takeWhile_cons_of_neg further, List.dropWhile_cons_of_neg further]
        rfl
  rw [scan_of_piece (nextPiece_blank blank rest)]
  exact absorbed

theorem scan_blanks (blanks : ∀ c ∈ text, Text.isBlank c = true) (rest : List Char) :
    scan file p (text ++ rest) = scan file (p.advanceAll text) rest := by
  induction text generalizing p with
  | nil => rfl
  | cons c text ih =>
    rw [List.cons_append, scan_blank (blanks c List.mem_cons_self),
      ih fun d member => blanks d (List.mem_cons_of_mem c member)]
    rfl

/-- The text is at its end, or a character comes that no word holds. -/
def Stops (rest : List Char) : Prop :=
  ∀ c ∈ rest.head?, isDelimiter c = true

theorem scan_word (nonempty : text ≠ []) (inWord : ∀ c ∈ text, isDelimiter c = false)
    (stops : Stops rest) :
    scan file p (text ++ rest) = (scan file (p.advanceAll text) rest).prepend
      [⟨.symbol, String.ofList text, some (.ofPosition file p)⟩] := by
  obtain ⟨c, word, rfl⟩ := List.exists_cons_of_ne_nil nonempty
  have further : ∀ d ∈ word, (!isDelimiter d) = true := by
    intro d member
    rw [inWord d (List.mem_cons_of_mem c member)]
    rfl
  have front : rest.takeWhile (!isDelimiter ·) = [] ∧ rest.dropWhile (!isDelimiter ·) = rest := by
    cases rest with
    | nil => exact ⟨rfl, rfl⟩
    | cons d rest =>
      have stop := stops d rfl
      simp [stop]
  have cut := nextPiece_word (inWord c List.mem_cons_self) (word ++ rest)
  rw [List.takeWhile_append_of_pos further, List.dropWhile_append_of_pos further, front.1,
    front.2, List.append_nil] at cut
  exact scan_of_piece cut

/-- What stops a word or a comment does so whatever comes after it. -/
theorem takeWhile_append_stop (inPiece : Char → Bool) (stop : Char) (stops : inPiece stop = false)
    (text more : List Char) :
    (text ++ stop :: more).takeWhile inPiece = text.takeWhile inPiece ∧
      (text ++ stop :: more).dropWhile inPiece = text.dropWhile inPiece ++ stop :: more := by
  induction text with
  | nil => simp [stops]
  | cons c text ih =>
    by_cases inside : inPiece c = true
    · simp only [List.cons_append, List.takeWhile_cons_of_pos inside,
        List.dropWhile_cons_of_pos inside, ih, and_self]
    · simp only [List.cons_append, List.takeWhile_cons_of_neg inside,
        List.dropWhile_cons_of_neg inside, and_self]

theorem splitString_plain (notQuote : c ≠ '"') (notBackslash : c ≠ '\\') (rest : List Char) :
    splitString (c :: rest) =
      (splitString rest).map fun (inside, after) => (c :: inside, after) := by
  rw [splitString]
  · exact notQuote
  · exact fun backslash _ => notBackslash backslash
  · exact fun _ _ backslash _ => notBackslash backslash

/-- A backslash is the last character of a text or takes the one after it. -/
theorem ne_backslash (notLast : c = '\\' → rest = [] → False)
    (notEscape : ∀ d more, c = '\\' → rest = d :: more → False) : c ≠ '\\' := by
  intro backslash
  cases rest with
  | nil => exact notLast backslash rfl
  | cons d more => exact notEscape d more backslash rfl

theorem splitString_append_right {inside : List Char}
    (found : splitString text = some (inside, after)) (more : List Char) :
    splitString (text ++ more) = some (inside, after ++ more) := by
  fun_induction splitString text generalizing inside after with
  | case1 => cases found
  | case2 rest =>
    cases found
    rfl
  | case3 => cases found
  | case4 => cases found
  | case5 c rest other ih =>
    obtain ⟨⟨further, behind⟩, split, same⟩ := Option.map_eq_some_iff.1 found
    cases same
    simp only [List.cons_append, splitString, other, ↓reduceIte, ih split, Option.map_some]
  | case6 c rest notQuote notLast notEscape ih =>
    obtain ⟨⟨further, behind⟩, split, same⟩ := Option.map_eq_some_iff.1 found
    cases same
    rw [List.cons_append, splitString_plain notQuote (ne_backslash notLast notEscape), ih split,
      Option.map_some]

/-- A piece ends where it ended before, if a line ends after the text that it was cut from. White
space may take that end of the line with it, which makes no difference. -/
theorem scan_past_piece {piece : Piece} (cut : nextPiece c rest = .ok (piece, after))
    (more : List Char) :
    scan file p (c :: rest ++ '\n' :: more) =
      (scan file (p.advanceAll piece.text) (after ++ '\n' :: more)).prepend
        (piece.tokens file p) := by
  have whole := nextPiece_append cut
  cases cut_of_nextPiece cut with
  | blank blank =>
    have blanks : ∀ d ∈ c :: rest.takeWhile Text.isBlank, Text.isBlank d = true := by
      intro d member
      rcases List.mem_cons.1 member with rfl | member
      · exact blank
      · exact List.all_eq_true.1 List.all_takeWhile d member
    rw [← whole, List.append_assoc]
    exact scan_blanks blanks _
  | comment =>
    obtain ⟨taken, left⟩ := takeWhile_append_stop (· ≠ '\n') '\n' rfl rest more
    have cut := nextPiece_comment (rest ++ '\n' :: more)
    rw [taken, left] at cut
    exact scan_of_piece cut
  | opening => exact scan_of_piece (nextPiece_opening _)
  | closing => exact scan_of_piece (nextPiece_closing _)
  | string found => exact scan_of_piece (nextPiece_string (splitString_append_right found _))
  | word inWord =>
    obtain ⟨taken, left⟩ := takeWhile_append_stop (!isDelimiter ·) '\n' rfl rest more
    have cut := nextPiece_word inWord (rest ++ '\n' :: more)
    rw [taken, left] at cut
    exact scan_of_piece cut

/-- Texts with the end of a line between them are lexed one after the other, if the first of them
can be. -/
theorem scan_append (second : List Char) {first : List Char}
    (complete : (scan file p first).failure = none) :
    scan file p (first ++ '\n' :: second) =
      (scan file (p.advanceAll (first ++ ['\n'])) second).prepend (scan file p first).tokens := by
  -- The induction is on the pieces of the first text, and the position goes along with them.
  induction first using tile.induct generalizing p with
  | case1 =>
    rw [scan_nil]
    exact scan_blank (by decide) second
  | case2 c rest fault cut =>
    rw [scan_of_fault cut] at complete
    cases complete
  | case3 c rest piece after cut ih =>
    have whole : piece.text ++ (after ++ ['\n']) = c :: rest ++ ['\n'] := by
      rw [← List.append_assoc, nextPiece_append cut]
    have position : p.advanceAll (c :: rest ++ ['\n']) =
        (p.advanceAll piece.text).advanceAll (after ++ ['\n']) := by
      rw [← whole, Position.advanceAll_append]
    rw [scan_of_piece cut] at complete ⊢
    rw [scan_past_piece cut, ih complete, position, ← TokenStream.prepend_append]
    rfl

/-- Only a stream that is made by hand has tokens of other kinds. -/
theorem kind_ne_other {source : List Char} {token : Token}
    (member : token ∈ (scan file p source).tokens) (name : String) : token.kind ≠ .other name := by
  induction source using tile.induct generalizing p with
  | case1 =>
    rw [scan_nil] at member
    cases member
  | case2 c rest fault cut =>
    rw [scan_of_fault cut] at member
    cases member
  | case3 c rest piece after cut ih =>
    rw [scan_of_piece cut] at member
    rcases List.mem_append.1 member with here | later
    · cases cut_of_nextPiece cut with
      | blank => cases here
      | comment => cases here
      | opening | closing | string | word =>
        rw [List.mem_singleton.1 here]
        exact nofun
    · exact ih later

end Lexer

end ScopedLisp
