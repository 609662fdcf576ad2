import Mathlib.Data.ENat.Basic
import ScopedLisp.Form.Reader

set_option autoImplicit false

namespace ScopedLisp

namespace TokenStream

variable {s : TokenStream}

theorem eq_of_next_error {e : Error} (asked : s.next.1 = .error e) : s = ⟨[], some e⟩ := by
  match s with
  | ⟨[], some _⟩ =>
    cases asked
    rfl
  | ⟨[], none⟩ => cases asked
  | ⟨_ :: _, _⟩ => cases asked

theorem eq_of_next_none (asked : s.next.1 = .ok none) : s = .finished := by
  match s with
  | ⟨[], some _⟩ => cases asked
  | ⟨[], none⟩ => rfl
  | ⟨_ :: _, _⟩ => cases asked

theorem eq_of_next_some {token : Token} (asked : s.next.1 = .ok (some token)) :
    ∃ rest failure, s = ⟨token :: rest, failure⟩ := by
  match s with
  | ⟨[], some _⟩ => cases asked
  | ⟨[], none⟩ => cases asked
  | ⟨_ :: rest, failure⟩ =>
    cases asked
    exact ⟨rest, failure, rfl⟩

theorem next_of_cons {token : Token} {rest : List Token} (shape : s.tokens = token :: rest) :
    s.next = (.ok (some token), ⟨rest, s.failure⟩) := by
  obtain ⟨tokens, failure⟩ := s
  cases shape
  rfl

end TokenStream

namespace BufferedStream

/-- What can still be taken, as a stream without a buffer. -/
def pending (s : BufferedStream) : TokenStream :=
  ⟨s.buffer ++ s.source.tokens, s.source.failure⟩

/-- Taking a token is asking the stream that is still to come, and so is looking at it, but a token
that was looked at stays. -/
theorem requests_pending (s : BufferedStream) :
    s.advance.1 = s.pending.next.1 ∧ s.advance.2.pending = s.pending.next.2 ∧
      s.peek.1 = s.pending.next.1 ∧
      s.peek.2.pending = if s.pending.tokens = [] then .finished else s.pending := by
  obtain ⟨buffer, tokens, failure⟩ := s
  cases buffer with
  | cons token rest => exact ⟨rfl, rfl, rfl, rfl⟩
  | nil =>
    cases tokens with
    | cons token rest => exact ⟨rfl, rfl, rfl, rfl⟩
    | nil => cases failure <;> exact ⟨rfl, rfl, rfl, rfl⟩

theorem pending_of_peek {s rest : BufferedStream} {answer : Except Error (Option Token)}
    (looked : s.peek = (answer, rest)) : answer = s.pending.next.1 ∧
      rest.pending = if s.pending.tokens = [] then .finished else s.pending := by
  obtain ⟨_, _, here, left⟩ := s.requests_pending
  rw [looked] at here left
  exact ⟨here, left⟩

theorem pending_of_advance {s rest : BufferedStream} {answer : Except Error (Option Token)}
    (taken : s.advance = (answer, rest)) :
    answer = s.pending.next.1 ∧ rest.pending = s.pending.next.2 := by
  obtain ⟨here, left, _⟩ := s.requests_pending
  rw [taken] at here left
  exact ⟨here, left⟩

theorem pending_of_looked {s rest : BufferedStream} {token : Token}
    (looked : s.peek = (.ok (some token), rest)) :
    rest.pending = s.pending ∧ ∃ more, s.pending.tokens = token :: more := by
  obtain ⟨here, left⟩ := pending_of_peek looked
  obtain ⟨more, failure, shape⟩ := TokenStream.eq_of_next_some here.symm
  rw [shape] at left ⊢
  exact ⟨left, more, rfl⟩

theorem pending_of_taken {s rest : BufferedStream} {token : Token}
    (taken : s.advance = (.ok (some token), rest)) :
    ∃ more, s.pending.tokens = token :: more ∧ rest.pending = ⟨more, s.pending.failure⟩ := by
  obtain ⟨here, left⟩ := pending_of_advance taken
  obtain ⟨more, failure, shape⟩ := TokenStream.eq_of_next_some here.symm
  rw [shape] at left ⊢
  exact ⟨more, rfl, left⟩

end BufferedStream

/-- A list whose closing parenthesis has not been read yet, with the items so far, latest first. -/
structure OpenList where
  loc : Option Location
  items : List Value

namespace OpenList

def push (l : OpenList) (item : Value) : OpenList :=
  { l with items := item :: l.items }

def close (l : OpenList) : Value :=
  .list l.items.reverse l.loc

end OpenList

/-- What a stream has to offer next: a form, nothing more, or a reason why there is no form. -/
inductive Parsed where
  | form (v : Value)
  | finished
  | failed (f : ReadFailure)

namespace Reader

/-- How far one more token brings the reader: to the end of a form, or into lists that are open. -/
inductive Progress where
  | done (v : Value)
  | within (opened : List OpenList)

/-- Puts a form where it belongs: at the end of the innermost open list. -/
def place (v : Value) : List OpenList → Progress
  | [] => .done v
  | innermost :: outer => .within (innermost.push v :: outer)

def take (opened : List OpenList) (token : Token) : Except ReadFailure Progress :=
  match token.kind with
  | .opening => .ok (.within (⟨token.loc, []⟩ :: opened))
  | .closing =>
    match opened with
    | [] => .error (.error ⟨.unreadable .unexpectedClosing, token.loc⟩)
    | innermost :: outer => .ok (place innermost.close outer)
  | .string => .ok (place (.string (Atom.stringContents token.text) token.loc) opened)
  | .symbol => (Atom.read token.text token.loc).map fun v => place v opened
  | .other kind => .error (.error ⟨.unreadable (.unknownToken kind token.text), token.loc⟩)

/-- What there is to say when the tokens are used up: the failure after them comes first, then the
innermost list that is still open. -/
def atEnd : Option Error → List OpenList → Parsed
  | some e, _ => .failed (.error e)
  | none, [] => .finished
  | none, innermost :: _ => .failed (.error ⟨.unreadable .unmatchedOpening, innermost.loc⟩)

/-- Whether the token belongs to a form that lies inside more than `depth` lists. -/
def Beyond (depth : ℕ∞) (opened : List OpenList) (token : Token) : Prop :=
  token.kind ≠ .closing ∧ depth < opened.length

instance Beyond.decidable (depth : ℕ∞) (opened : List OpenList) (token : Token) :
    Decidable (Beyond depth opened token) :=
  inferInstanceAs (Decidable (_ ∧ _))

theorem not_beyond_top (opened : List OpenList) (token : Token) : ¬ Beyond ⊤ opened token :=
  fun beyond => not_top_lt beyond.2

theorem not_beyond_nil (depth : ℕ∞) (token : Token) : ¬ Beyond depth [] token :=
  fun beyond => not_lt_zero beyond.2

/-- Reads until the outermost of the open lists is closed, or one form if no list is open. -/
def consume (depth : ℕ∞) (failure : Option Error) (opened : List OpenList) :
    List Token → Parsed × TokenStream
  | [] => (atEnd failure opened, .finished)
  | token :: rest =>
    if Beyond depth opened token then (.failed .tooDeep, ⟨token :: rest, failure⟩)
    else
      match take opened token with
      | .error f => (.failed f, ⟨rest, failure⟩)
      | .ok (.done v) => (.form v, ⟨rest, failure⟩)
      | .ok (.within wider) => consume depth failure wider rest

/-- Goes on after one form inside the lists that are open. -/
def goOn (depth : ℕ∞) (opened : List OpenList) : Parsed × TokenStream → Parsed × TokenStream
  | (.form v, rest) =>
    match place v opened with
    | .done w => (.form w, rest)
    | .within wider => consume depth rest.failure wider rest.tokens
  | ended => ended

@[simp] theorem goOn_nil (depth : ℕ∞) (ended : Parsed × TokenStream) :
    goOn depth [] ended = ended := by
  obtain ⟨parsed, rest⟩ := ended
  cases parsed <;> rfl

variable {depth : ℕ∞} {failure : Option Error} {opened outer : List OpenList} {token : Token}
  {rest : List Token}

theorem consume_of_error {f : ReadFailure} (allowed : ¬ Beyond depth opened token)
    (refused : take opened token = .error f) :
    consume depth failure opened (token :: rest) = (.failed f, ⟨rest, failure⟩) := by
  rw [consume, if_neg allowed, refused]

theorem consume_of_place {v : Value} (allowed : ¬ Beyond depth opened token)
    (taken : take opened token = .ok (place v outer)) :
    consume depth failure opened (token :: rest) = goOn depth outer (.form v, ⟨rest, failure⟩) := by
  rw [consume, if_neg allowed, taken, goOn]
  cases place v outer <;> rfl

theorem length_of_place {v : Value} {wider : List OpenList}
    (within : place v opened = .within wider) :
    0 < wider.length ∧ wider.length = opened.length := by
  cases opened <;> cases within
  exact ⟨Nat.succ_pos _, rfl⟩

/-- One token opens at most one list, and some list is open if there is no form yet. -/
theorem length_of_take {wider : List OpenList} (taken : take opened token = .ok (.within wider)) :
    0 < wider.length ∧ wider.length ≤ opened.length + 1 := by
  unfold take at taken
  split at taken
  · cases taken
    exact ⟨Nat.succ_pos _, Nat.le_refl _⟩
  · split at taken
    · cases taken
    · have placed := length_of_place (Except.ok.inj taken)
      simp only [List.length_cons]
      omega
  · have placed := length_of_place (Except.ok.inj taken)
    omega
  · cases read : Atom.read token.text token.loc with
    | error f =>
      rw [read] at taken
      cases taken
    | ok v =>
      rw [read] at taken
      have placed := length_of_place (Except.ok.inj taken)
      omega
  · cases taken

theorem consume_ne_finished (inside : opened ≠ []) (tokens : List Token) :
    (consume depth failure opened tokens).1 ≠ .finished := by
  fun_induction consume depth failure opened tokens with
  | case1 opened =>
    cases failure with
    | some e => exact nofun
    | none =>
      cases opened with
      | nil => exact absurd rfl inside
      | cons innermost outer => exact nofun
  | case2 => exact nofun
  | case3 => exact nofun
  | case4 => exact nofun
  | case5 _ _ _ _ _ taken ih => exact ih (List.length_pos_iff.1 (length_of_take taken).1)

end Reader

namespace Reading

variable {s : BufferedStream}

def parsed : Reading s → Parsed
  | form v _ _ => .form v
  | finished _ _ => .finished
  | stopped why _ => .failed why

def rest : Reading s → BufferedStream
  | form _ rest _ => rest
  | finished rest _ => rest
  | stopped _ rest => rest

/-- What a reading has to say and what it leaves, however that is spread over a buffer. -/
def ended (reading : Reading s) : Parsed × TokenStream :=
  (reading.parsed, reading.rest.pending)

theorem ended_form (v : Value) (rest : BufferedStream) (fewer : rest.left < s.left) :
    (form v rest fewer).ended = (.form v, rest.pending) := rfl

theorem ended_finished (rest : BufferedStream) (used : rest.left = 0) :
    (finished rest used : Reading s).ended = (.finished, rest.pending) := rfl

theorem ended_stopped (why : ReadFailure) (rest : BufferedStream) :
    (stopped why rest : Reading s).ended = (.failed why, rest.pending) := rfl

@[simp] theorem ended_earlier {later : BufferedStream} (fewer : later.left ≤ s.left)
    (reading : Reading later) : (reading.earlier fewer : Reading s).ended = reading.ended := by
  cases reading <;> rfl

end Reading

namespace Reader

variable {depth : ℕ∞}

/-- The items of a list are read as its open list takes them, if each of them is. -/
theorem consume_items {next : (s : BufferedStream) → Reading s} (loc : Option Location)
    (outer : List OpenList)
    (each : ∀ (s : BufferedStream) (taken : List Value) (token : Token) (rest : List Token),
      s.pending.tokens = token :: rest → token.kind ≠ .closing →
      consume depth s.pending.failure (⟨loc, taken⟩ :: outer) s.pending.tokens =
        goOn depth (⟨loc, taken⟩ :: outer) (next s).ended)
    (taken : List Value) (s : BufferedStream) :
    consume depth s.pending.failure (⟨loc, taken⟩ :: outer) s.pending.tokens =
      goOn depth outer (items next loc taken s).ended := by
  fun_induction items next loc taken s with
  | case1 taken s e rest looked =>
    obtain ⟨here, left⟩ := BufferedStream.pending_of_peek looked
    rw [TokenStream.eq_of_next_error here.symm] at left ⊢
    rw [Reading.ended_stopped, left]
    rfl
  | case2 taken s rest looked =>
    obtain ⟨here, left⟩ := BufferedStream.pending_of_peek looked
    rw [TokenStream.eq_of_next_none here.symm] at left ⊢
    rw [Reading.ended_stopped, left]
    rfl
  | case3 taken s token rest looked closing =>
    obtain ⟨same, more, shape⟩ := BufferedStream.pending_of_looked looked
    have after := rest.requests_pending.2.1
    rw [same, TokenStream.next_of_cons shape] at after
    rw [shape, Reading.ended_form, after]
    apply consume_of_place (fun beyond => beyond.1 closing)
    simp only [take, closing]
    rfl
  | case4 taken s token rest looked opens why after stopped =>
    obtain ⟨same, more, shape⟩ := BufferedStream.pending_of_looked looked
    have item := each rest taken token more (same ▸ shape) opens
    rw [stopped, same] at item
    exact item
  | case5 taken s token rest looked opens v after fewer read ih =>
    obtain ⟨same, more, shape⟩ := BufferedStream.pending_of_looked looked
    have item := each rest taken token more (same ▸ shape) opens
    rw [read, same] at item
    rw [item, Reading.ended_earlier, ← ih]
    rfl
  | case6 taken s token rest looked opens after used read ih =>
    obtain ⟨same, more, shape⟩ := BufferedStream.pending_of_looked looked
    have item := each rest taken token more (same ▸ shape) opens
    rw [read] at item
    exact absurd (congrArg Prod.fst item) (consume_ne_finished (List.cons_ne_nil _ _) _)

/-- A form is read as the open lists around it take it. -/
theorem consume_parse {levels depth : Nat} (around : List OpenList)
    (room : around.length + levels = depth + 1) (s : BufferedStream)
    (ready : around = [] ∨ ∃ token rest, s.pending.tokens = token :: rest ∧
      token.kind ≠ .closing) :
    consume depth s.pending.failure around s.pending.tokens =
      goOn depth around (parse levels s).ended := by
  induction levels generalizing s around with
  | zero =>
    -- All levels are in use by the lists around, so the token goes beyond the last of them.
    have deep : depth < around.length := by omega
    obtain rfl | ⟨token, rest, shape, opens⟩ := ready
    · cases deep
    · have beyond : Beyond depth around token := ⟨opens, Nat.cast_lt.2 deep⟩
      rw [shape, consume, if_pos beyond, ← shape]
      rfl
  | succ levels ih =>
    have allowed (token : Token) : ¬ Beyond depth around token := by
      intro beyond
      have deep := Nat.cast_lt.1 beyond.2
      omega
    unfold parse
    split
    next e rest took =>
      obtain ⟨here, left⟩ := BufferedStream.pending_of_advance took
      rw [TokenStream.eq_of_next_error here.symm] at left ⊢
      rw [Reading.ended_stopped, left]
      rfl
    next rest took =>
      obtain ⟨here, left⟩ := BufferedStream.pending_of_advance took
      have used := TokenStream.eq_of_next_none here.symm
      rw [used] at left ready ⊢
      obtain rfl | ⟨token, more, shape, _⟩ := ready
      · rw [Reading.ended_finished, left]
        rfl
      · cases shape
    next token rest took =>
      obtain ⟨more, shape, left⟩ := BufferedStream.pending_of_taken took
      rw [shape]
      cases kind : token.kind with
      | symbol =>
        cases read : Atom.read token.text token.loc with
        | error f =>
          rw [Reading.ended_stopped, left]
          apply consume_of_error (allowed token)
          simp only [take, kind, read]
          rfl
        | ok v =>
          rw [Reading.ended_form, left]
          apply consume_of_place (allowed token)
          simp only [take, kind, read]
          rfl
      | string =>
        rw [Reading.ended_form, left]
        apply consume_of_place (allowed token)
        simp only [take, kind]
      | opening =>
        have inside := consume_items token.loc around
          (fun s taken first further begins opens =>
            ih _ (by simp only [List.length_cons]; omega) s (.inr ⟨first, further, begins, opens⟩))
          [] rest
        rw [left] at inside
        simp only [Reading.ended_earlier]
        rw [← inside, consume, if_neg (allowed token)]
        simp only [take, kind]
      | closing =>
        obtain rfl | ⟨first, further, begins, opens⟩ := ready
        · rw [Reading.ended_stopped, left]
          apply consume_of_error (allowed token)
          simp only [take, kind]
        · cases shape.symm.trans begins
          exact absurd kind opens
      | other name =>
        rw [Reading.ended_stopped, left]
        apply consume_of_error (allowed token)
        simp only [take, kind]

/-- Reading one form over a buffer comes to what the open lists come to, and leaves as much. -/
theorem ended_parse (depth : Nat) (s : BufferedStream) :
    (parse (depth + 1) s).ended = consume depth s.pending.failure [] s.pending.tokens := by
  have same := consume_parse [] (Nat.zero_add (depth + 1)) s (.inl rfl)
  rw [same, goOn_nil]

/-- Reads all forms, where the lists that are open have been begun already. -/
def resumeWithin (depth : ℕ∞) (failure : Option Error) (opened : List OpenList) :
    List Token → Except ReadFailure (List Value)
  | [] =>
    match atEnd failure opened with
    | .failed f => .error f
    | _ => .ok []
  | token :: rest =>
    if Beyond depth opened token then .error .tooDeep
    else
      match take opened token with
      | .error f => .error f
      | .ok (.done v) => (resumeWithin depth failure [] rest).map (v :: ·)
      | .ok (.within wider) => resumeWithin depth failure wider rest

theorem resumeWithin_eq (depth : ℕ∞) (failure : Option Error) (opened : List OpenList)
    (tokens : List Token) : resumeWithin depth failure opened tokens =
      match consume depth failure opened tokens with
      | (.finished, _) => .ok []
      | (.failed f, _) => .error f
      | (.form v, rest) => (resumeWithin depth rest.failure [] rest.tokens).map (v :: ·) := by
  fun_induction consume depth failure opened tokens with
  | case1 opened =>
    rw [resumeWithin]
    cases failure <;> cases opened <;> rfl
  | case2 opened token rest beyond => rw [resumeWithin, if_pos beyond]
  | case3 opened token rest allowed f refused => rw [resumeWithin, if_neg allowed, refused]
  | case4 opened token rest allowed v taken => rw [resumeWithin, if_neg allowed, taken]
  | case5 opened token rest allowed wider taken ih =>
    rw [resumeWithin, if_neg allowed, taken]
    exact ih

theorem parseAll_eq (depth : Nat) (s : BufferedStream) :
    (parseAll (depth + 1) s).1 = resumeWithin depth s.pending.failure [] s.pending.tokens := by
  fun_induction parseAll (depth + 1) s with
  | case1 s rest used read =>
    rw [resumeWithin_eq, ← ended_parse, read]
    rfl
  | case2 s why rest read =>
    rw [resumeWithin_eq, ← ended_parse, read]
    rfl
  | case3 s v rest fewer read further ih =>
    rw [resumeWithin_eq, ← ended_parse, read, ih]
    rfl

variable {failure : Option Error} {opened : List OpenList} {tokens : List Token}

theorem resumeWithin_of_length {depth : Nat} (room : opened.length + tokens.length ≤ depth) :
    resumeWithin depth failure opened tokens = resumeWithin ⊤ failure opened tokens := by
  induction tokens generalizing opened with
  | nil => rfl
  | cons token rest ih =>
    rw [List.length_cons] at room
    have allowed : ¬ Beyond depth opened token := by
      intro beyond
      have deep := Nat.cast_lt.1 beyond.2
      omega
    rw [resumeWithin, resumeWithin, if_neg allowed, if_neg (not_beyond_top opened token)]
    cases taken : take opened token with
    | error f => rfl
    | ok progress =>
      cases progress with
      | done v =>
        have further : resumeWithin depth failure [] rest = resumeWithin ⊤ failure [] rest :=
          ih (by simp only [List.length_nil]; omega)
        simp only [further]
      | within wider =>
        have longer := (length_of_take taken).2
        exact ih (by omega)

/-- A higher limit makes a difference only where the lower one is reached. -/
theorem resumeWithin_of_le {more : ℕ∞} (le : depth ≤ more) (failure : Option Error)
    (opened : List OpenList) (tokens : List Token) :
    resumeWithin depth failure opened tokens = .error .tooDeep ∨
      resumeWithin more failure opened tokens = resumeWithin depth failure opened tokens := by
  induction tokens generalizing opened with
  | nil => exact .inr rfl
  | cons token rest ih =>
    by_cases beyond : Beyond depth opened token
    · rw [resumeWithin, if_pos beyond]
      exact .inl rfl
    · have allowed : ¬ Beyond more opened token :=
        fun deeper => beyond ⟨deeper.1, lt_of_le_of_lt le deeper.2⟩
      rw [resumeWithin, resumeWithin, if_neg beyond, if_neg allowed]
      cases take opened token with
      | error f => exact .inr rfl
      | ok progress =>
        cases progress with
        | done v =>
          obtain deep | same := ih []
          · simp only [deep]
            exact .inl rfl
          · exact .inr (by simp only [same])
        | within wider => exact ih wider

/-- What is read to its end is read first, whatever follows. -/
theorem resumeWithin_append {forms : List Value}
    (read : resumeWithin depth none opened tokens = .ok forms) (failure : Option Error)
    (rest : List Token) : resumeWithin depth failure opened (tokens ++ rest) =
      (resumeWithin depth failure [] rest).map (forms ++ ·) := by
  induction tokens generalizing opened forms with
  | nil =>
    cases opened with
    | cons innermost outer => cases read
    | nil =>
      cases read
      rw [List.nil_append]
      cases resumeWithin depth failure [] rest <;> rfl
  | cons token tokens ih =>
    rw [List.cons_append, resumeWithin]
    rw [resumeWithin] at read
    split at read
    · cases read
    next allowed =>
      rw [if_neg allowed]
      cases taken : take opened token with
      | error f =>
        rw [taken] at read
        cases read
      | ok progress =>
        rw [taken] at read
        cases progress with
        | done v =>
          cases further : resumeWithin depth none [] tokens with
          | error f =>
            simp only [further] at read
            cases read
          | ok others =>
            simp only [further] at read
            cases read
            simp only [ih further]
            cases resumeWithin depth failure [] rest <;> rfl
        | within wider => exact ih read

end Reader

/-- All forms of a stream, however deep their lists go. -/
def TokenStream.forms (s : TokenStream) : Except ReadFailure (List Value) :=
  Reader.resumeWithin ⊤ s.failure [] s.tokens

theorem readWithin_eq (depth : Nat) (source : String) (file : Option String) :
    readWithin depth source file =
      let s := TokenStream.ofSource source file
      Reader.resumeWithin depth s.failure [] s.tokens :=
  Reader.parseAll_eq depth (.ofStream (.ofSource source file))

theorem readProgram_eq (source : String) (file : Option String) :
    readProgram source file = (TokenStream.ofSource source file).forms := by
  rw [readProgram, readWithin_eq]
  exact Reader.resumeWithin_of_length (Nat.le_of_eq (Nat.zero_add _))

variable {depth : Nat} {source : String} {file : Option String}

theorem readWithin_of_length (room : (TokenStream.ofSource source file).tokens.length ≤ depth) :
    readWithin depth source file = readProgram source file := by
  rw [readWithin_eq, readProgram_eq]
  exact Reader.resumeWithin_of_length ((Nat.zero_add _).trans_le room)

/-- A text is read to the same end within every depth that is enough for it. -/
theorem readWithin_of_le {more : Nat} (le : depth ≤ more) (source : String)
    (file : Option String) : readWithin depth source file = .error .tooDeep ∨
      readWithin more source file = readWithin depth source file := by
  rw [readWithin_eq, readWithin_eq]
  exact Reader.resumeWithin_of_le (Nat.cast_le.2 le) _ _ _

theorem readWithin_eq_readProgram (depth : Nat) (source : String) (file : Option String) :
    readWithin depth source file = .error .tooDeep ∨
      readWithin depth source file = readProgram source file := by
  rw [readWithin_eq, readProgram_eq, TokenStream.forms]
  obtain deep | same := Reader.resumeWithin_of_le (le_top : (depth : ℕ∞) ≤ ⊤)
    (TokenStream.ofSource source file).failure [] (TokenStream.ofSource source file).tokens
  · exact .inl deep
  · exact .inr same.symm

theorem readProgram_of_error {failure : ReadFailure}
    (failed : readWithin depth source file = .error failure) (shallow : failure ≠ .tooDeep) :
    readProgram source file = .error failure := by
  obtain deep | same := readWithin_eq_readProgram depth source file
  · cases deep.symm.trans failed
    exact absurd rfl shallow
  · exact same.symm.trans failed

theorem readProgram_of_readWithin {forms : List Value}
    (read : readWithin depth source file = .ok forms) : readProgram source file = .ok forms := by
  obtain deep | same := readWithin_eq_readProgram depth source file
  · cases deep.symm.trans read
  · exact same.symm.trans read

end ScopedLisp
