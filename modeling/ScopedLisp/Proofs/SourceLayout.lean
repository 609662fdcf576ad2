import ScopedLisp.Proofs.JoinedText
import ScopedLisp.Proofs.ReadBack
import ScopedLisp.Proofs.ReadFloats
import ScopedLisp.Proofs.Tiling

set_option autoImplicit false

namespace ScopedLisp

namespace Lexer

/-- White space and comments, each comment with the end of its line. -/
inductive Gap : List Char → Prop
  | nil : Gap []
  | blank {c : Char} {rest : List Char} (blank : Text.isBlank c = true) (further : Gap rest) :
      Gap (c :: rest)
  | comment {words rest : List Char} (oneLine : '\n' ∉ words) (further : Gap rest) :
      Gap (';' :: (words ++ '\n' :: rest))

/-- What may stand after the last token: the line of the last comment need not end. -/
inductive FinalGap : List Char → Prop
  | gap {text : List Char} (gap : Gap text) : FinalGap text
  | comment {text words : List Char} (gap : Gap text) (oneLine : '\n' ∉ words) :
      FinalGap (text ++ ';' :: words)

variable {text rest : List Char}

theorem isDelimiter_of_isBlank {c : Char} (blank : Text.isBlank c = true) :
    isDelimiter c = true := by
  simp only [isDelimiter, blank, Bool.true_or]

theorem stops_cons {c : Char} (delimiter : isDelimiter c = true) (rest : List Char) :
    Stops (c :: rest) := by
  intro d front
  cases front
  exact delimiter

theorem Gap.stops (gap : Gap text) (stops : text = [] → Stops rest) : Stops (text ++ rest) := by
  cases gap with
  | nil => exact stops rfl
  | blank blank => exact stops_cons (isDelimiter_of_isBlank blank) _
  | comment => exact stops_cons (by decide) _

theorem FinalGap.stops (final : FinalGap text) : Stops text := by
  cases final with
  | gap gap =>
    have whole : Stops (text ++ []) := gap.stops fun _ => nofun
    rwa [List.append_nil] at whole
  | comment gap => exact gap.stops fun _ => stops_cons (by decide) _

theorem Lexeme.stops {kind : TokenKind} (lexeme : Lexeme kind text) (notWord : kind ≠ .symbol)
    (rest : List Char) : Stops (text ++ rest) := by
  cases lexeme with
  | opening | closing | string => exact stops_cons (by decide) _
  | word => exact absurd rfl notWord

theorem scan_comment {words : List Char} (oneLine : '\n' ∉ words)
    (ends : ∀ c ∈ rest.head?, c = '\n') (file : Option String) (p : Position) :
    scan file p (';' :: (words ++ rest)) = scan file (p.advanceAll (';' :: words)) rest :=
  scan_of_longest (.comment oneLine ends) file p

theorem Gap.scan_eq (gap : Gap text) (file : Option String) (p : Position) (rest : List Char) :
    scan file p (text ++ rest) = scan file (p.advanceAll text) rest := by
  induction gap generalizing p with
  | nil => rfl
  | blank blank _ ih =>
    rw [List.cons_append, scan_blank blank, ih]
    rfl
  | @comment words further oneLine _ ih =>
    have position : p.advanceAll (';' :: (words ++ '\n' :: further)) =
        ((p.advanceAll (';' :: words)).advance '\n').advanceAll further := by
      rw [← List.cons_append, Position.advanceAll_append]
      rfl
    rw [List.cons_append, List.append_assoc, List.cons_append, scan_comment oneLine (by simp),
      scan_blank (by decide), ih, position]

theorem FinalGap.scan_eq (final : FinalGap text) (file : Option String) (p : Position) :
    scan file p text = .finished := by
  cases final with
  | gap gap =>
    have whole := gap.scan_eq file p []
    rwa [List.append_nil, scan_nil] at whole
  | @comment text words gap oneLine =>
    have ended : ∀ c ∈ [].head?, c = '\n' := nofun
    have line := scan_comment oneLine ended file (p.advanceAll text)
    rw [List.append_nil, scan_nil] at line
    rw [gap.scan_eq, line]

end Lexer

/-- A token as it stands in a text. -/
structure SourceToken where
  kind : TokenKind
  text : List Char
  lexeme : Lexer.Lexeme kind text

/-- The token that is read, without its place. -/
def SourceToken.unplaced (t : SourceToken) : Token :=
  ⟨t.kind, String.ofList t.text, none⟩

/-- A token and the gap before it. -/
structure SpacedToken where
  gap : List Char
  token : SourceToken
  isGap : Lexer.Gap gap

namespace SpacedToken

def text (item : SpacedToken) : List Char :=
  item.gap ++ item.token.text

/-- Only symbols run together. -/
def Apart (first second : SpacedToken) : Prop :=
  first.token.kind = .symbol → second.token.kind = .symbol → second.gap ≠ []

end SpacedToken

/-- Tokens and gaps that make up a text. -/
structure SourceLayout where
  items : List SpacedToken
  last : List Char
  apart : items.IsChain SpacedToken.Apart
  isFinal : Lexer.FinalGap last

namespace SourceLayout

def source (l : SourceLayout) : String :=
  String.ofList (l.items.flatMap SpacedToken.text ++ l.last)

def tokens (l : SourceLayout) : List SourceToken :=
  l.items.map SpacedToken.token

end SourceLayout

namespace Lexer

variable {items : List SpacedToken} {last : List Char}

theorem stops_of_apart {item : SpacedToken} (apart : (item :: items).IsChain SpacedToken.Apart)
    (isFinal : FinalGap last) (symbol : item.token.kind = .symbol) :
    Stops (items.flatMap SpacedToken.text ++ last) := by
  cases items with
  | nil => exact isFinal.stops
  | cons next items =>
    rw [List.flatMap_cons, SpacedToken.text, List.append_assoc, List.append_assoc]
    refine next.isGap.stops fun empty => ?_
    have notSymbol : next.token.kind ≠ .symbol := by
      intro alike
      exact (List.isChain_cons_cons.1 apart).1 symbol alike empty
    exact next.token.lexeme.stops notSymbol _

/-- The tokens of a text that is laid out are those of the layout. -/
theorem scan_layout (apart : items.IsChain SpacedToken.Apart) (isFinal : FinalGap last)
    (file : Option String) (p : Position) :
    (scan file p (items.flatMap SpacedToken.text ++ last)).relocate .nowhere =
      ⟨items.map fun item => item.token.unplaced, none⟩ := by
  induction items generalizing p with
  | nil =>
    rw [List.flatMap_nil, List.nil_append, isFinal.scan_eq]
    rfl
  | cons item items ih =>
    have longest : (Piece.token item.token.kind item.token.text).Longest
        (items.flatMap SpacedToken.text ++ last) :=
      .token item.token.lexeme (stops_of_apart apart isFinal)
    have first := scan_of_longest longest file (p.advanceAll item.gap)
    have others := ih apart.tail ((p.advanceAll item.gap).advanceAll item.token.text)
    rw [List.flatMap_cons, SpacedToken.text, List.append_assoc, List.append_assoc,
      item.isGap.scan_eq, show scan file _ (item.token.text ++ _) = _ from first]
    exact congrArg (TokenStream.prepend [item.token.unplaced]) others

end Lexer

namespace SourceLayout

theorem relocate_ofSource (l : SourceLayout) (file : Option String) :
    (TokenStream.ofSource l.source file).relocate .nowhere =
      ⟨l.tokens.map SourceToken.unplaced, none⟩ := by
  rw [Lexer.ofSource_eq_scan, source, String.toList_ofList, Lexer.scan_layout l.apart l.isFinal,
    tokens, List.map_map]
  rfl

theorem failure_ofSource (l : SourceLayout) (file : Option String) :
    (TokenStream.ofSource l.source file).failure = none := by
  have stream := congrArg TokenStream.failure (l.relocate_ofSource file)
  exact Option.map_eq_none_iff.1 stream

theorem tokens_ofSource (l : SourceLayout) (file : Option String) :
    (TokenStream.ofSource l.source file).tokens.map (fun token => (token.kind, token.text)) =
      l.tokens.map fun t => (t.kind, String.ofList t.text) := by
  have stream := congrArg TokenStream.tokens (l.relocate_ofSource file)
  have texts := congrArg (List.map fun token : Token => (token.kind, token.text)) stream
  simpa [TokenStream.relocate, Token.relocate, SourceToken.unplaced, Function.comp_def] using texts

theorem ofRead_readProgram {l m : SourceLayout} (alike : l.tokens = m.tokens)
    (file file' : Option String) :
    Relocation.nowhere.ofRead (List.map (Value.relocate .nowhere)) (readProgram l.source file) =
      Relocation.nowhere.ofRead (List.map (Value.relocate .nowhere))
        (readProgram m.source file') := by
  rw [readProgram_eq, readProgram_eq, ← TokenStream.forms_relocate, ← TokenStream.forms_relocate,
    relocate_ofSource, relocate_ofSource, alike]

end SourceLayout

/-- Both texts are read, as programs that are the same and differ in places only; or neither is, and
for the same reason. -/
inductive ReadAlike (source source' : String) (file file' : Option String) : Prop
  | read {forms forms' : List Value} (first : readProgram source file = .ok forms)
      (second : readProgram source' file' = .ok forms')
      (same : (Value.ofForms forms file).same (Value.ofForms forms' file') = true)
      (apart : (Value.ofForms forms file).relocate .nowhere =
        (Value.ofForms forms' file').relocate .nowhere)
  | unread {failure failure' : ReadFailure} (first : readProgram source file = .error failure)
      (second : readProgram source' file' = .error failure')
      (apart : failure.relocate .nowhere = failure'.relocate .nowhere)

theorem SourceLayout.readAlike {l m : SourceLayout} (alike : l.tokens = m.tokens)
    (file file' : Option String) : ReadAlike l.source m.source file file' := by
  have same := ofRead_readProgram alike file file'
  cases first : readProgram l.source file with
  | error failure =>
    cases second : readProgram m.source file' with
    | error failure' =>
      rw [first, second] at same
      exact .unread first second (Except.error.inj same)
    | ok forms' =>
      rw [first, second] at same
      cases same
  | ok forms =>
    cases second : readProgram m.source file' with
    | error failure' =>
      rw [first, second] at same
      cases same
    | ok forms' =>
      rw [first, second] at same
      have apart : (Value.ofForms forms file).relocate .nowhere =
          (Value.ofForms forms' file').relocate .nowhere := by
        rw [Value.ofForms, Value.ofForms, Value.relocate_program, Value.relocate_program,
          Except.ok.inj same]
        rfl
      refine .read first second (Value.same_of_relocate_eq apart fun x loc member => ?_) apart
      rw [Value.ofForms, Value.parts_eq, List.mem_cons] at member
      rcases member with whole | inside
      · cases whole
      · exact readProgram_float_beq_self first inside

/-- The layout of a text does not matter: its tokens are those that were laid out, in order, and
every other layout of the same tokens is read alike. -/
theorem layout_immaterial (l : SourceLayout) (file : Option String) :
    (TokenStream.ofSource l.source file).failure = none ∧
    (TokenStream.ofSource l.source file).tokens.map (fun token => (token.kind, token.text)) =
      l.tokens.map (fun t => (t.kind, String.ofList t.text)) ∧
    ∀ (m : SourceLayout) (file' : Option String), l.tokens = m.tokens →
      ReadAlike l.source m.source file file' := by
  refine ⟨l.failure_ofSource file, l.tokens_ofSource file, ?_⟩
  intro m file' alike
  exact SourceLayout.readAlike alike file file'

/-- The first text has a gap only where two symbols would run together. In the second text there are
a quote and a symbol in comments, and the last comment has no end. -/
theorem layout_immaterial_of_comments :
    ∃ l m : SourceLayout, l.source = "a\"b\"c 0.5" ∧ m.source = " a;\"\n\"b\"\nc\t;d\n0.5;" ∧
      l.tokens = m.tokens ∧ (TokenStream.ofSource m.source none).tokens.length = 4 ∧
      ReadAlike l.source m.source none none := by
  let a : SourceToken := ⟨.symbol, ['a'], .word (by decide) (Lexer.inWord_of_all (by decide))⟩
  let b : SourceToken := ⟨.string, ['"', 'b', '"'],
    .string (.plain (by decide) (by decide) .nil)⟩
  let c : SourceToken := ⟨.symbol, ['c'], .word (by decide) (Lexer.inWord_of_all (by decide))⟩
  let half : SourceToken := ⟨.symbol, ['0', '.', '5'],
    .word (by decide) (Lexer.inWord_of_all (by decide))⟩
  let l : SourceLayout :=
    { items := [⟨[], a, .nil⟩, ⟨[], b, .nil⟩, ⟨[], c, .nil⟩,
        ⟨[' '], half, .blank (by decide) .nil⟩]
      last := []
      apart := by simp [SpacedToken.Apart, a, b, c, half]
      isFinal := .gap .nil }
  let m : SourceLayout :=
    { items := [⟨[' '], a, .blank (by decide) .nil⟩,
        ⟨[';', '"', '\n'], b, .comment (show '\n' ∉ ['"'] by decide) .nil⟩,
        ⟨['\n'], c, .blank (by decide) .nil⟩,
        ⟨['\t', ';', 'd', '\n'], half,
          .blank (by decide) (.comment (show '\n' ∉ ['d'] by decide) .nil)⟩]
      last := [';']
      apart := by simp [SpacedToken.Apart, a, b, c, half]
      isFinal := .comment .nil (show '\n' ∉ [] by decide) }
  have counted := congrArg List.length (layout_immaterial m none).2.1
  rw [List.length_map, List.length_map] at counted
  exact ⟨l, m, by rfl, by rfl, rfl, counted, (layout_immaterial l none).2.2 m none rfl⟩

end ScopedLisp
