set_option autoImplicit false

namespace ScopedLisp

/-- A line and a column, both counted from one. -/
structure Position where
  line : Nat
  column : Nat
  deriving DecidableEq, Repr

namespace Position

def start : Position := ⟨1, 1⟩

def advance (p : Position) (c : Char) : Position :=
  if c = '\n' then ⟨p.line + 1, 1⟩ else ⟨p.line, p.column + 1⟩

def advanceAll (p : Position) (text : List Char) : Position :=
  text.foldl advance p

@[simp] theorem advanceAll_nil (p : Position) : p.advanceAll [] = p := rfl

@[simp] theorem advanceAll_cons (p : Position) (c : Char) (text : List Char) :
    p.advanceAll (c :: text) = (p.advance c).advanceAll text := rfl

theorem advanceAll_append (p : Position) (first second : List Char) :
    p.advanceAll (first ++ second) = (p.advanceAll first).advanceAll second :=
  List.foldl_append

end Position

/-- The place of a form: the text it was read from, if that text has a name, and the position of
its first character. A program that embeds the language may make up places of its own, so the
numbers need not be those of a position. -/
structure Location where
  file : Option String
  line : Int
  column : Int
  deriving DecidableEq, Repr

namespace Location

def ofPosition (file : Option String) (p : Position) : Location :=
  ⟨file, p.line, p.column⟩

/-- How a text is called in messages; one without a name, or with an empty one, is input. -/
def fileText : Option String → String
  | none => "<input>"
  | some name => if name.isEmpty then "<input>" else name

def text (l : Location) : String :=
  fileText l.file ++ ":" ++ toString l.line ++ ":" ++ toString l.column

end Location

end ScopedLisp
