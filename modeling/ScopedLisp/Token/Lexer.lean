import ScopedLisp.Text.Characters
import ScopedLisp.Token

set_option autoImplicit false

namespace ScopedLisp

/-- A stretch of source text that is one token, or one run of white space, or one comment. -/
inductive Piece where
  | gap (text : List Char)
  | token (kind : TokenKind) (text : List Char)
  deriving DecidableEq, Repr

namespace Piece

def text : Piece → List Char
  | gap text => text
  | token _ text => text

@[simp] theorem text_gap (text : List Char) : (gap text).text = text := rfl

@[simp] theorem text_token (kind : TokenKind) (text : List Char) : (token kind text).text = text :=
  rfl

end Piece

namespace Lexer

def isDelimiter (c : Char) : Bool :=
  Text.isBlank c || c = '(' || c = ')' || c = '"' || c = '\'' || c = ';'

/-- What stands between an opening quote and the end of its string, that end included, and what
comes after. A backslash takes the next character with it, unless that is a line feed. -/
def splitString : List Char → Option (List Char × List Char)
  | [] => none
  | '"' :: rest => some (['"'], rest)
  | '\\' :: [] => none
  | '\\' :: c :: rest =>
    if c = '\n' then none
    else (splitString rest).map fun (inside, after) => ('\\' :: c :: inside, after)
  | c :: rest => (splitString rest).map fun (inside, after) => (c :: inside, after)

/-- The longest piece at the front of a text, and the text after it. -/
def nextPiece (c : Char) (rest : List Char) : Except ReadFault (Piece × List Char) :=
  if Text.isBlank c then
    .ok (.gap (c :: rest.takeWhile Text.isBlank), rest.dropWhile Text.isBlank)
  else if c = ';' then
    .ok (.gap (c :: rest.takeWhile (· ≠ '\n')), rest.dropWhile (· ≠ '\n'))
  else if c = '(' then
    .ok (.token .opening [c], rest)
  else if c = ')' then
    .ok (.token .closing [c], rest)
  else if c = '"' then
    match splitString rest with
    | some (inside, after) => .ok (.token .string (c :: inside), after)
    | none => .error .unterminatedString
  else if c = '\'' then
    .error .strayApostrophe
  else
    .ok (.token .symbol (c :: rest.takeWhile (!isDelimiter ·)), rest.dropWhile (!isDelimiter ·))

theorem splitString_append {text inside after : List Char}
    (found : splitString text = some (inside, after)) : inside ++ after = text := by
  fun_induction splitString text generalizing inside after with
  | case1 => simp at found
  | case2 rest => cases found; rfl
  | case3 => simp at found
  | case4 => simp at found
  | case5 c rest _ ih =>
    obtain ⟨⟨_, _⟩, split, equal⟩ := Option.map_eq_some_iff.1 found
    simp only [Prod.mk.injEq] at equal
    simp [← equal.1, ← equal.2, ih split]
  | case6 c rest _ _ _ ih =>
    obtain ⟨⟨_, _⟩, split, equal⟩ := Option.map_eq_some_iff.1 found
    simp only [Prod.mk.injEq] at equal
    simp [← equal.1, ← equal.2, ih split]

theorem nextPiece_append {c : Char} {rest after : List Char} {piece : Piece}
    (cut : nextPiece c rest = .ok (piece, after)) : piece.text ++ after = c :: rest := by
  unfold nextPiece at cut
  split at cut
  · cases cut; simp
  split at cut
  · cases cut; simp
  split at cut
  · cases cut; simp
  split at cut
  · cases cut; simp
  split at cut
  · split at cut
    · rename_i inside _ found
      cases cut
      simp [splitString_append found]
    · cases cut
  split at cut
  · cases cut
  · cases cut; simp

theorem nextPiece_length {c : Char} {rest after : List Char} {piece : Piece}
    (cut : nextPiece c rest = .ok (piece, after)) : after.length < (c :: rest).length := by
  have whole := congrArg List.length (nextPiece_append cut)
  have nonempty : piece.text ≠ [] := by
    unfold nextPiece at cut
    grind [Piece.text]
  have := List.length_pos_iff.2 nonempty
  simp only [List.length_append] at whole
  omega

/-- The pieces of a text, up to the first place that starts none. -/
structure Tiling where
  pieces : List Piece
  fault : Option ReadFault
  deriving DecidableEq, Repr

def tile : List Char → Tiling
  | [] => ⟨[], none⟩
  | c :: rest =>
    match _cut : nextPiece c rest with
    | .error fault => ⟨[], some fault⟩
    | .ok (piece, after) =>
      let further := tile after
      ⟨piece :: further.pieces, further.fault⟩
termination_by source => source.length
decreasing_by exact nextPiece_length _cut

/-- The tokens among the pieces of a text, where the first piece begins at `p`. -/
def locate (file : Option String) (fault : Option ReadFault) (p : Position) :
    List Piece → TokenStream
  | [] => ⟨[], fault.map fun f => ⟨.unreadable f, some (.ofPosition file p)⟩⟩
  | .gap text :: rest => locate file fault (p.advanceAll text) rest
  | .token kind text :: rest =>
    let further := locate file fault (p.advanceAll text) rest
    ⟨⟨kind, String.ofList text, some (.ofPosition file p)⟩ :: further.tokens, further.failure⟩

end Lexer

def TokenStream.ofSource (source : String) (file : Option String) : TokenStream :=
  let tiling := Lexer.tile source.toList
  Lexer.locate file tiling.fault .start tiling.pieces

end ScopedLisp
