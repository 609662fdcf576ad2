import ScopedLisp.Form.Atom
import ScopedLisp.Token.Lexer

set_option autoImplicit false

namespace ScopedLisp

/-- What reading one form comes to, and what is left of the stream. A form takes tokens, and at the
end of a stream there are none. -/
inductive Reading (s : BufferedStream) where
  | form (v : Value) (rest : BufferedStream) (fewer : rest.left < s.left)
  | finished (rest : BufferedStream) (used : rest.left = 0)
  | stopped (why : ReadFailure) (rest : BufferedStream)

/-- The same reading, seen from where the stream had more tokens. -/
def Reading.earlier {s later : BufferedStream} (fewer : later.left ≤ s.left) :
    Reading later → Reading s
  | form v rest shorter => form v rest (Nat.lt_of_lt_of_le shorter fewer)
  | finished rest used => finished rest used
  | stopped why rest => stopped why rest

namespace Reader

/-- Reads the items of a list at `loc` up to its closing parenthesis, where `next` reads one of them
and `taken` has those so far, the latest first. An item that is missing leaves a gap. -/
def items (next : (s : BufferedStream) → Reading s) (loc : Option Location) (taken : List Value)
    (s : BufferedStream) : Reading s :=
  match looked : s.peek with
  | (.error e, rest) => .stopped (.error e) rest
  | (.ok none, rest) => .stopped (.error ⟨.unreadable .unmatchedOpening, loc⟩) rest
  | (.ok (some token), rest) =>
    if token.kind = .closing then
      .form (.list taken.reverse loc) rest.advance.2 (BufferedStream.left_of_looked looked)
    else
      match next rest with
      | .stopped why after => .stopped why after
      | .form v after fewer =>
        (items next loc (v :: taken) after).earlier
          (Nat.le_of_lt (BufferedStream.lt_of_looked looked (.inl fewer)))
      | .finished after used =>
        (items next loc (.absent :: taken) after).earlier
          (Nat.le_of_lt (BufferedStream.lt_of_looked looked (.inr used)))
termination_by s.left
decreasing_by
  · exact BufferedStream.lt_of_looked looked (.inl fewer)
  · exact BufferedStream.lt_of_looked looked (.inr used)

/-- Reads the next form in at most `levels` calls inside each other. -/
def parse : (levels : Nat) → (s : BufferedStream) → Reading s
  | 0, s => .stopped .tooDeep s
  | levels + 1, s =>
    match took : s.advance with
    | (.error e, rest) => .stopped (.error e) rest
    | (.ok none, rest) => .finished rest (BufferedStream.left_of_end took)
    | (.ok (some token), rest) =>
      have fewer := BufferedStream.left_of_taken took
      match token.kind with
      | .symbol =>
        match Atom.read token.text token.loc with
        | .error failure => .stopped failure rest
        | .ok v => .form v rest fewer
      | .string => .form (.string (Atom.stringContents token.text) token.loc) rest fewer
      | .opening => (items (parse levels) token.loc [] rest).earlier (Nat.le_of_lt fewer)
      | .closing => .stopped (.error ⟨.unreadable .unexpectedClosing, token.loc⟩) rest
      | .other kind =>
        .stopped (.error ⟨.unreadable (.unknownToken kind token.text), token.loc⟩) rest

/-- Reads all forms of a stream. The first failure takes the place of all of them. -/
def parseAll (levels : Nat) (s : BufferedStream) :
    Except ReadFailure (List Value) × BufferedStream :=
  match parse levels s with
  | .finished rest _ => (.ok [], rest)
  | .stopped why rest => (.error why, rest)
  | .form v rest _ =>
    let further := parseAll levels rest
    (further.1.map (v :: ·), further.2)
termination_by s.left

end Reader

/-- Reads a whole source text, whose forms may lie inside `depth` lists. -/
def readWithin (depth : Nat) (source : String) (file : Option String) :
    Except ReadFailure (List Value) :=
  (Reader.parseAll (depth + 1) (.ofStream (.ofSource source file))).1

/-- Reads a whole source text, however deep its lists go: no more of them are open than there are
tokens. -/
def readProgram (source : String) (file : Option String) : Except ReadFailure (List Value) :=
  readWithin (TokenStream.ofSource source file).tokens.length source file

def Value.ofForms (forms : List Value) (file : Option String) : Value :=
  .program forms (some (.ofPosition file .start))

end ScopedLisp
