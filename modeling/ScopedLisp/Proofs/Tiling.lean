import ScopedLisp.Proofs.Lexing
import ScopedLisp.Proofs.SourcePlaces

set_option autoImplicit false

namespace ScopedLisp

namespace Lexer

/-- What can stand between the quotes of a string. A backslash takes the next character with it,
which is not a line feed. -/
inductive Enclosed : List Char → Prop
  | nil : Enclosed []
  | plain {c : Char} {rest : List Char} (notQuote : c ≠ '"') (notBackslash : c ≠ '\\')
      (further : Enclosed rest) : Enclosed (c :: rest)
  | escaped {c : Char} {rest : List Char} (notFeed : c ≠ '\n') (further : Enclosed rest) :
      Enclosed ('\\' :: c :: rest)

/-- The texts of the tokens of each kind. -/
inductive Lexeme : TokenKind → List Char → Prop
  | opening : Lexeme .opening ['(']
  | closing : Lexeme .closing [')']
  | string {contents : List Char} (enclosed : Enclosed contents) :
      Lexeme .string ('"' :: (contents ++ ['"']))
  | word {text : List Char} (nonempty : text ≠ []) (inWord : ∀ c ∈ text, isDelimiter c = false) :
      Lexeme .symbol text

theorem splitString_of_enclosed {contents : List Char} (enclosed : Enclosed contents)
    (after : List Char) :
    splitString (contents ++ '"' :: after) = some (contents ++ ['"'], after) := by
  induction enclosed with
  | nil => rfl
  | plain notQuote notBackslash _ ih =>
    rw [List.cons_append, splitString_plain notQuote notBackslash, ih]
    rfl
  | escaped notFeed _ ih =>
    simp only [List.cons_append, splitString, notFeed, ↓reduceIte, ih, Option.map_some]

theorem exists_enclosed {text inside after : List Char}
    (found : splitString text = some (inside, after)) :
    ∃ contents, Enclosed contents ∧ inside = contents ++ ['"'] := by
  fun_induction splitString text generalizing inside after with
  | case1 => cases found
  | case2 rest =>
    cases found
    exact ⟨[], .nil, rfl⟩
  | case3 => cases found
  | case4 => cases found
  | case5 c rest notFeed ih =>
    obtain ⟨⟨further, behind⟩, split, same⟩ := Option.map_eq_some_iff.1 found
    cases same
    obtain ⟨contents, enclosed, rfl⟩ := ih split
    exact ⟨'\\' :: c :: contents, .escaped notFeed enclosed, rfl⟩
  | case6 c rest notQuote notLast notEscape ih =>
    obtain ⟨⟨further, behind⟩, split, same⟩ := Option.map_eq_some_iff.1 found
    cases same
    obtain ⟨contents, enclosed, rfl⟩ := ih split
    exact ⟨c :: contents, .plain notQuote (ne_backslash notLast notEscape) enclosed, rfl⟩

end Lexer

open Lexer

/-- A piece of the language, as long as it can be where `after` comes next. -/
inductive Piece.Longest : Piece → List Char → Prop
  | blanks {text after : List Char} (nonempty : text ≠ [])
      (blank : ∀ c ∈ text, Text.isBlank c = true)
      (ends : ∀ c ∈ after.head?, Text.isBlank c = false) : Longest (.gap text) after
  | comment {text after : List Char} (oneLine : '\n' ∉ text) (ends : ∀ c ∈ after.head?, c = '\n') :
      Longest (.gap (';' :: text)) after
  | token {kind : TokenKind} {text after : List Char} (lexeme : Lexeme kind text)
      (ends : kind = .symbol → Stops after) : Longest (.token kind text) after

/-- A piece that cannot go on into a text cannot go on into the front of it. -/
theorem Piece.Longest.of_append {piece : Piece} {after more : List Char}
    (longest : piece.Longest (after ++ more)) : piece.Longest after := by
  have front : ∀ c ∈ after.head?, c ∈ (after ++ more).head? := by
    intro c head
    cases after with
    | nil => cases head
    | cons d after => exact head
  cases longest with
  | blanks nonempty blank ends => exact .blanks nonempty blank fun c head => ends c (front c head)
  | comment oneLine ends => exact .comment oneLine fun c head => ends c (front c head)
  | token lexeme ends => exact .token lexeme fun symbol c head => ends symbol c (front c head)

namespace Lexer

/-- Of a text that goes on with something else, exactly the front is taken. -/
theorem span_append {inPiece : Char → Bool} {text after : List Char}
    (inside : ∀ c ∈ text, inPiece c = true) (ends : ∀ c ∈ after.head?, inPiece c = false) :
    (text ++ after).takeWhile inPiece = text ∧ (text ++ after).dropWhile inPiece = after := by
  rw [List.takeWhile_append_of_pos inside, List.dropWhile_append_of_pos inside]
  cases after with
  | nil => exact ⟨List.append_nil text, rfl⟩
  | cons d after =>
    have stop := ends d rfl
    simp [stop]

theorem dropWhile_ends (inPiece : Char → Bool) (text : List Char) :
    ∀ c ∈ (text.dropWhile inPiece).head?, inPiece c = false := by
  intro c front
  have stop := List.head?_dropWhile_not inPiece text
  rw [front] at stop
  exact stop

theorem takeWhile_inside (inPiece : Char → Bool) (text : List Char) :
    ∀ c ∈ text.takeWhile inPiece, inPiece c = true :=
  List.all_eq_true.1 List.all_takeWhile

theorem inLine_of_notMem {text : List Char} (oneLine : '\n' ∉ text) :
    ∀ c ∈ text, decide (c ≠ '\n') = true := by
  intro c member
  apply decide_eq_true
  rintro rfl
  exact oneLine member

theorem longest_of_nextPiece {c : Char} {rest after : List Char} {piece : Piece}
    (cut : nextPiece c rest = .ok (piece, after)) : piece.Longest after := by
  cases cut_of_nextPiece cut with
  | blank blank =>
    refine .blanks (List.cons_ne_nil _ _) ?_ (dropWhile_ends _ rest)
    exact List.forall_mem_cons.2 ⟨blank, takeWhile_inside _ rest⟩
  | comment =>
    refine .comment ?_ ?_
    · intro feed
      have inside := takeWhile_inside (· ≠ '\n') rest '\n' feed
      simp at inside
    · intro d front
      have stop := dropWhile_ends (· ≠ '\n') rest d front
      simpa using stop
  | opening => exact .token .opening nofun
  | closing => exact .token .closing nofun
  | string found =>
    obtain ⟨contents, enclosed, rfl⟩ := exists_enclosed found
    exact .token (.string enclosed) nofun
  | word inWord =>
    refine .token (.word (List.cons_ne_nil _ _) ?_) fun _ => ?_
    · refine List.forall_mem_cons.2 ⟨inWord, fun d member => ?_⟩
      simpa using takeWhile_inside (!isDelimiter ·) rest d member
    · intro d front
      simpa using dropWhile_ends (!isDelimiter ·) rest d front

theorem nextPiece_of_longest {piece : Piece} {after : List Char} (longest : piece.Longest after) :
    ∃ c rest, piece.text ++ after = c :: rest ∧ nextPiece c rest = .ok (piece, after) := by
  cases longest with
  | @blanks text _ nonempty blank ends =>
    obtain ⟨c, text, rfl⟩ := List.exists_cons_of_ne_nil nonempty
    obtain ⟨first, further⟩ := List.forall_mem_cons.1 blank
    obtain ⟨taken, left⟩ := span_append further ends
    refine ⟨c, text ++ after, rfl, ?_⟩
    rw [nextPiece_blank first, taken, left]
  | @comment text _ oneLine ends =>
    have stop : ∀ c ∈ after.head?, decide (c ≠ '\n') = false := by
      intro c front
      simp [ends c front]
    obtain ⟨taken, left⟩ := span_append (inLine_of_notMem oneLine) stop
    refine ⟨';', text ++ after, rfl, ?_⟩
    rw [nextPiece_comment, taken, left]
  | token lexeme ends =>
    cases lexeme with
    | opening => exact ⟨'(', after, rfl, nextPiece_opening after⟩
    | closing => exact ⟨')', after, rfl, nextPiece_closing after⟩
    | @string contents enclosed =>
      refine ⟨'"', contents ++ '"' :: after, by simp, ?_⟩
      exact nextPiece_string (splitString_of_enclosed enclosed after)
    | @word text nonempty inWord =>
      obtain ⟨c, text, rfl⟩ := List.exists_cons_of_ne_nil nonempty
      obtain ⟨first, further⟩ := List.forall_mem_cons.1 inWord
      have inside : ∀ d ∈ text, (!isDelimiter d) = true := by
        intro d member
        simp [further d member]
      have stop : ∀ d ∈ after.head?, (!isDelimiter d) = false := by
        intro d front
        simp [ends rfl d front]
      obtain ⟨taken, left⟩ := span_append inside stop
      refine ⟨c, text ++ after, rfl, ?_⟩
      rw [nextPiece_word first, taken, left]

theorem scan_of_longest {piece : Piece} {after : List Char} (longest : piece.Longest after)
    (file : Option String) (p : Position) :
    scan file p (piece.text ++ after) =
      (scan file (p.advanceAll piece.text) after).prepend (piece.tokens file p) := by
  obtain ⟨c, rest, shape, cut⟩ := nextPiece_of_longest longest
  rw [shape]
  exact scan_of_piece cut

/-- The text is these pieces, one after the other, and then `rest`; each piece is as long as it can
be. -/
inductive Tiles : List Piece → List Char → List Char → Prop
  | done (rest : List Char) : Tiles [] rest rest
  | next {piece : Piece} {pieces : List Piece} {after rest : List Char}
      (longest : piece.Longest after) (further : Tiles pieces after rest) :
      Tiles (piece :: pieces) (piece.text ++ after) rest

namespace Tiles

variable {pieces : List Piece} {source rest : List Char}

theorem whole (tiles : Tiles pieces source rest) : pieces.flatMap Piece.text ++ rest = source := by
  induction tiles with
  | done rest => rfl
  | next longest further ih => rw [List.flatMap_cons, List.append_assoc, ih]

theorem take_source (tiles : Tiles pieces source rest) :
    source.take (pieces.flatMap Piece.text).length = pieces.flatMap Piece.text := by
  rw [← tiles.whole, List.take_left]

/-- What comes after a piece is the text of the pieces after it, and then the rest. -/
theorem longest {before after : List Piece} {piece : Piece}
    (tiles : Tiles (before ++ piece :: after) source rest) :
    piece.Longest (after.flatMap Piece.text ++ rest) := by
  induction before generalizing source with
  | nil =>
    cases tiles with
    | next longest further =>
      rw [further.whole]
      exact longest
  | cons first before ih =>
    cases tiles with
    | next _ further => exact ih further

theorem tile_eq (tiles : Tiles pieces source rest) :
    tile source = ⟨pieces ++ (tile rest).pieces, (tile rest).fault⟩ := by
  induction tiles with
  | done rest => rfl
  | @next piece pieces after rest longest further ih =>
    obtain ⟨c, more, shape, cut⟩ := nextPiece_of_longest longest
    rw [shape, tile_of_piece cut, ih]
    rfl

theorem tile_eq_self (tiles : Tiles pieces source []) : tile source = ⟨pieces, none⟩ := by
  rw [tiles.tile_eq, tile, List.append_nil]

theorem alone (tiles : Tiles pieces source rest) : Tiles pieces (pieces.flatMap Piece.text) [] := by
  induction tiles with
  | done rest => exact .done []
  | next longest further ih =>
    rw [← further.whole] at longest
    rw [List.flatMap_cons]
    exact .next longest.of_append ih

end Tiles

/-- The lexer stops at the end of the text or where no piece begins. -/
theorem exists_tiles (source : List Char) :
    ∃ rest, Tiles (tile source).pieces source rest ∧
      ((tile source).fault = none ∧ rest = [] ∨ ∃ fault c more, (tile source).fault = some fault ∧
        rest = c :: more ∧ nextPiece c more = .error fault) := by
  induction source using tile.induct with
  | case1 =>
    rw [tile]
    exact ⟨[], .done [], .inl ⟨rfl, rfl⟩⟩
  | case2 c rest fault cut =>
    rw [tile_of_fault cut]
    exact ⟨c :: rest, .done _, .inr ⟨fault, c, rest, rfl, rfl, cut⟩⟩
  | case3 c rest piece after cut ih =>
    obtain ⟨left, tiles, stops⟩ := ih
    rw [tile_of_piece cut, ← nextPiece_append cut]
    exact ⟨left, .next (longest_of_nextPiece cut) tiles, stops⟩

theorem lexeme_of_token {file : Option String} {p : Position} {source : List Char} {token : Token}
    (member : token ∈ (scan file p source).tokens) : Lexeme token.kind token.text.toList := by
  induction source using tile.induct generalizing p with
  | case1 =>
    rw [scan_nil] at member
    cases member
  | case2 c rest fault cut =>
    rw [scan_of_fault cut] at member
    cases member
  | case3 c rest piece after cut ih =>
    rw [scan_of_piece cut] at member
    rcases List.mem_append.1 member with here | later
    · cases longest_of_nextPiece cut with
      | blanks | comment => cases here
      | token lexeme =>
        rw [List.mem_singleton.1 here, String.toList_ofList]
        exact lexeme
    · exact ih later

theorem Lexeme.nonempty {kind : TokenKind} {text : List Char} (lexeme : Lexeme kind text) :
    text ≠ [] := by
  cases lexeme with
  | opening | closing | string => exact List.cons_ne_nil _ _
  | word nonempty => exact nonempty

theorem Lexeme.last_not_blank {kind : TokenKind} {text : List Char} (lexeme : Lexeme kind text) :
    ∀ c ∈ text.getLast?, Text.isBlank c = false := by
  intro c last
  cases lexeme with
  | opening | closing =>
    cases last
    decide
  | string enclosed =>
    rw [← List.cons_append, List.getLast?_concat] at last
    cases last
    decide
  | word nonempty inWord =>
    have inside := inWord c (List.mem_of_getLast? last)
    simp only [isDelimiter, Bool.or_eq_false_iff] at inside
    exact inside.1.1.1.1.1

end Lexer

theorem Piece.Longest.nonempty {piece : Piece} {after : List Char} (longest : piece.Longest after) :
    piece.text ≠ [] := by
  cases longest with
  | blanks nonempty => exact nonempty
  | comment => exact List.cons_ne_nil _ _
  | token lexeme => exact lexeme.nonempty

/-- The text is these pieces put together, and none of them could be longer: not on its right, and
white space not on its left either. Only a comment can end in white space that more white space
comes after, because its line ends there. -/
structure Lexer.CutInto (source : List Char) (pieces : List Piece) : Prop where
  whole : pieces.flatMap Piece.text = source
  nonempty : ∀ piece ∈ pieces, piece.text ≠ []
  longest : ∀ before piece after, pieces = before ++ piece :: after →
    piece.Longest (after.flatMap Piece.text)
  blanksApart : ∀ before previous text after, pieces = before ++ previous :: .gap text :: after →
    (∀ c ∈ text, Text.isBlank c = true) →
      ∀ c ∈ previous.text.getLast?, Text.isBlank c = true → ∃ words, previous = .gap (';' :: words)

theorem Lexer.Tiles.cutInto {pieces : List Piece} {source : List Char}
    (tiles : Tiles pieces source []) : CutInto source pieces := by
  have longest : ∀ before piece after, pieces = before ++ piece :: after →
      piece.Longest (after.flatMap Piece.text) := by
    rintro before piece after rfl
    simpa using tiles.longest
  refine ⟨by simpa using tiles.whole, fun piece member => ?_, longest, ?_⟩
  · obtain ⟨before, after, shape⟩ := List.append_of_mem member
    exact (longest before piece after shape).nonempty
  · intro before previous text after shape blank c last blankLast
    have here : (Piece.gap text).Longest (after.flatMap Piece.text) :=
      longest (before ++ [previous]) _ after (by simp [shape])
    obtain ⟨d, more, rfl⟩ := List.exists_cons_of_ne_nil (show text ≠ [] from here.nonempty)
    cases longest before previous (.gap (d :: more) :: after) shape with
    | blanks _ _ ends =>
      -- Two stretches of white space would have been cut as one.
      have stop := ends d rfl
      rw [blank d List.mem_cons_self] at stop
      cases stop
    | comment => exact ⟨_, rfl⟩
    | token lexeme =>
      rw [lexeme.last_not_blank c last] at blankLast
      cases blankLast

def Piece.isToken : Piece → Bool
  | gap _ => false
  | token _ _ => true

namespace Lexer

variable (file : Option String) (fault : Option ReadFault) (p : Position)

/-- The tokens among the first pieces come first, and the other pieces begin after their text. -/
theorem locate_append (before after : List Piece) :
    locate file fault p (before ++ after) =
      (locate file fault (p.advanceAll (before.flatMap Piece.text)) after).prepend
        (locate file none p before).tokens := by
  induction before generalizing p with
  | nil => rfl
  | cons piece before ih =>
    have position : p.advanceAll ((piece :: before).flatMap Piece.text) =
        (p.advanceAll piece.text).advanceAll (before.flatMap Piece.text) := by
      rw [List.flatMap_cons, Position.advanceAll_append]
    rw [position]
    cases piece with
    | gap text => exact ih (p.advanceAll text)
    | token kind text =>
      show TokenStream.prepend [_] (locate file fault (p.advanceAll text) (before ++ after)) = _
      rw [ih, ← TokenStream.prepend_append]
      rfl

/-- The tokens do not depend on what stops the lexer after the last piece. -/
theorem locate_eq (pieces : List Piece) :
    locate file fault p pieces = ⟨(locate file none p pieces).tokens, fault.map fun f =>
      ⟨.unreadable f, some (.ofPosition file (p.advanceAll (pieces.flatMap Piece.text)))⟩⟩ := by
  have stream := locate_append file fault p pieces []
  rw [List.append_nil] at stream
  rw [stream, locate, TokenStream.prepend, List.append_nil]

theorem length_tokens_locate (pieces : List Piece) :
    (locate file fault p pieces).tokens.length = pieces.countP Piece.isToken := by
  induction pieces generalizing p with
  | nil => rfl
  | cons piece pieces ih =>
    cases piece with
    | gap text => exact ih (p.advanceAll text)
    | token kind text =>
      rw [List.countP_cons_of_pos rfl, ← ih (p.advanceAll text)]
      rfl

/-- A token has as many tokens before it as there are among the pieces before it. -/
theorem getElem?_tokens_locate (before after : List Piece) (kind : TokenKind) (text : List Char) :
    (locate file fault p (before ++ .token kind text :: after)).tokens[before.countP
        Piece.isToken]? = some ⟨kind, String.ofList text,
      some (.ofPosition file (p.advanceAll (before.flatMap Piece.text)))⟩ := by
  rw [locate_append, TokenStream.prepend, ← length_tokens_locate file none p before,
    List.getElem?_append_right (Nat.le_refl _), Nat.sub_self]
  rfl

end Lexer

/-- The place of what comes after `before` in the text of this name. Lines are counted by their line
feeds; columns are counted from the last line feed, or from the start of the text. -/
structure Location.Follows (place : Location) (file : Option String) (before : List Char) :
    Prop where
  name : place.file = file
  line : place.line = 1 + before.count '\n'
  column : ∀ lines line, before = lines ++ '\n' :: line → '\n' ∉ line →
    place.column = before.length - lines.length
  firstColumn : '\n' ∉ before → place.column = before.length + 1

theorem Location.after_follows (file : Option String) (before : List Char) :
    (after file before).Follows file before := by
  have inLine : ∀ {line : List Char}, '\n' ∉ line →
      ∀ c ∈ line.reverse, decide (c ≠ '\n') = true := by
    intro line oneLine
    apply Lexer.inLine_of_notMem
    rwa [List.mem_reverse]
  refine ⟨rfl, ?_, ?_, ?_⟩
  · exact Int.add_comm _ _
  · rintro lines line rfl oneLine
    have stretch : (lines ++ '\n' :: line).reverse.takeWhile (· ≠ '\n') = line.reverse := by
      rw [List.reverse_append, List.reverse_cons, List.append_assoc]
      exact (Lexer.span_append (inLine oneLine) (by simp)).1
    simp only [after, stretch, List.length_reverse, List.length_append, List.length_cons]
    omega
  · intro oneLine
    have stretch : before.reverse.takeWhile (· ≠ '\n') = before.reverse := by
      have whole : (before.reverse ++ []).takeWhile (· ≠ '\n') = before.reverse :=
        (Lexer.span_append (inLine oneLine) (by simp)).1
      rwa [List.append_nil] at whole
    simp only [after, stretch, List.length_reverse]

/-- A text without faults is its pieces put together: white space, comments and tokens, each as long
as it can be. The tokens of the text are the tokens among the pieces, in their order, with their
texts, and each has the place that the text before it gives, whatever pieces that is. -/
theorem tokens_tile_source {source : String} {file : Option String}
    (complete : (TokenStream.ofSource source file).failure = none) :
    let tokens := (TokenStream.ofSource source file).tokens
    ∃ pieces : List Piece, Lexer.CutInto source.toList pieces ∧
      tokens.length = pieces.countP Piece.isToken ∧
      ∀ before kind text after, pieces = before ++ .token kind text :: after →
        ∃ place, tokens[before.countP Piece.isToken]? =
            some ⟨kind, String.ofList text, some place⟩ ∧
          place.Follows file (before.flatMap Piece.text) := by
  intro tokens
  have unfailing : (Lexer.tile source.toList).fault = none := by
    rw [TokenStream.ofSource, Lexer.locate_eq, Option.map_eq_none_iff] at complete
    exact complete
  obtain ⟨rest, tiles, ended⟩ := Lexer.exists_tiles source.toList
  rcases ended with ⟨_, rfl⟩ | ⟨fault, _, _, failed, _⟩
  · refine ⟨_, tiles.cutInto, Lexer.length_tokens_locate .., ?_⟩
    intro before kind text after shape
    refine ⟨.after file (before.flatMap Piece.text), ?_, Location.after_follows ..⟩
    show (Lexer.locate file _ .start (Lexer.tile source.toList).pieces).tokens[_]? = _
    rw [shape, Lexer.getElem?_tokens_locate, Location.ofPosition_advanceAll]
  · rw [unfailing] at failed
    cases failed

/-- The comment ends in a blank, and the string goes over two lines. -/
theorem tokens_tile_source_of_lines :
    let source := "(f ; x \n \"a\nb\"y)"
    (TokenStream.ofSource source none).tokens[3]? = some ⟨.symbol, "y", some ⟨none, 3, 3⟩⟩ ∧
      ∃ pieces : List Piece,
        Lexer.CutInto source.toList pieces ∧ pieces.countP Piece.isToken = 5 := by
  intro source
  have stream : TokenStream.ofSource source none =
      ⟨[⟨.opening, "(", some ⟨none, 1, 1⟩⟩, ⟨.symbol, "f", some ⟨none, 1, 2⟩⟩,
        ⟨.string, "\"a\nb\"", some ⟨none, 2, 2⟩⟩, ⟨.symbol, "y", some ⟨none, 3, 3⟩⟩,
        ⟨.closing, ")", some ⟨none, 3, 4⟩⟩], none⟩ := by decide +kernel
  obtain ⟨pieces, cut, counted, _⟩ :=
    tokens_tile_source (show (TokenStream.ofSource source none).failure = none by rw [stream])
  rw [stream] at counted ⊢
  exact ⟨rfl, pieces, cut, counted.symm⟩

end ScopedLisp
