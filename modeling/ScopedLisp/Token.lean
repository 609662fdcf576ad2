import ScopedLisp.Error

set_option autoImplicit false

namespace ScopedLisp

inductive TokenKind where
  | opening
  | closing
  | string
  | symbol
  | other (name : String)
  deriving DecidableEq, Repr

structure Token where
  kind : TokenKind
  text : String
  loc : Option Location
  deriving DecidableEq, Repr

/-- Tokens that are made one by one, as they are asked for. What follows the last one may be no
token at all: that failure is met by whoever asks for a token then, and only once. -/
structure TokenStream where
  tokens : List Token
  failure : Option Error
  deriving DecidableEq, Repr

namespace TokenStream

def ofTokens (tokens : List Token) : TokenStream :=
  ⟨tokens, none⟩

def finished : TokenStream :=
  ⟨[], none⟩

/-- Asks for the next token; there is none at the end. -/
def next : TokenStream → Except Error (Option Token) × TokenStream
  | ⟨[], some e⟩ => (.error e, finished)
  | ⟨[], none⟩ => (.ok none, finished)
  | ⟨token :: rest, failure⟩ => (.ok (some token), ⟨rest, failure⟩)

end TokenStream

/-- A stream, and the tokens that it was asked for but that nobody has taken yet. -/
structure BufferedStream where
  buffer : List Token
  source : TokenStream
  deriving DecidableEq, Repr

namespace BufferedStream

def ofStream (source : TokenStream) : BufferedStream :=
  ⟨[], source⟩

/-- How many tokens can still be taken. -/
def left (s : BufferedStream) : Nat :=
  s.buffer.length + s.source.tokens.length

/-- Looks at the next token, which stays to be taken. The source is asked only if no token is in the
buffer. -/
def peek (s : BufferedStream) : Except Error (Option Token) × BufferedStream :=
  match s.buffer with
  | token :: _ => (.ok (some token), s)
  | [] =>
    match s.source.next with
    | (.ok (some token), source) => (.ok (some token), ⟨s.buffer ++ [token], source⟩)
    | (.ok none, source) => (.ok none, ⟨s.buffer, source⟩)
    | (.error e, source) => (.error e, ⟨s.buffer, source⟩)

def advance (s : BufferedStream) : Except Error (Option Token) × BufferedStream :=
  match s.buffer with
  | token :: rest => (.ok (some token), ⟨rest, s.source⟩)
  | [] =>
    match s.source.next with
    | (answer, source) => (answer, ⟨s.buffer, source⟩)

/-- A token that was looked at is left, and nothing else has changed. -/
theorem left_of_peek {s rest : BufferedStream} {token : Token}
    (looked : s.peek = (.ok (some token), rest)) : rest.left = s.left ∧ 0 < s.left := by
  obtain ⟨buffer, tokens, failure⟩ := s
  cases buffer with
  | cons first more =>
    cases looked
    refine ⟨rfl, ?_⟩
    simp only [left, List.length_cons]
    omega
  | nil =>
    cases tokens with
    | cons first more =>
      cases looked
      simp [left, Nat.add_comm]
    | nil => cases failure <;> cases looked

theorem left_advance (s : BufferedStream) : s.advance.2.left = s.left - 1 := by
  obtain ⟨buffer, tokens, failure⟩ := s
  cases buffer with
  | cons first more =>
    simp only [advance, left, List.length_cons]
    omega
  | nil =>
    cases tokens with
    | cons first more => simp [advance, TokenStream.next, left]
    | nil => cases failure <;> rfl

theorem lt_of_looked {s rest after : BufferedStream} {token : Token}
    (looked : s.peek = (.ok (some token), rest)) (fewer : after.left < rest.left ∨ after.left = 0) :
    after.left < s.left := by
  have kept := left_of_peek looked
  omega

theorem left_of_looked {s rest : BufferedStream} {token : Token}
    (looked : s.peek = (.ok (some token), rest)) : rest.advance.2.left < s.left := by
  have kept := left_of_peek looked
  have taken := rest.left_advance
  omega

theorem left_of_taken {s rest : BufferedStream} {token : Token}
    (taken : s.advance = (.ok (some token), rest)) : rest.left < s.left := by
  obtain ⟨buffer, tokens, failure⟩ := s
  cases buffer with
  | cons first more =>
    cases taken
    simp [left]
  | nil =>
    cases tokens with
    | cons first more =>
      cases taken
      simp [left]
    | nil => cases failure <;> cases taken

theorem left_of_end {s rest : BufferedStream} (ended : s.advance = (.ok none, rest)) :
    rest.left = 0 := by
  obtain ⟨buffer, tokens, failure⟩ := s
  cases buffer with
  | cons first more => cases ended
  | nil =>
    cases tokens with
    | cons first more => cases ended
    | nil =>
      cases failure <;> cases ended
      rfl

end BufferedStream

end ScopedLisp
