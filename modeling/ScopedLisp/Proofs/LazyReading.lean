import Mathlib.Data.List.ReduceOption
import ScopedLisp.Proofs.Lexing
import ScopedLisp.Proofs.OpenLists

set_option autoImplicit false

namespace ScopedLisp

namespace BufferedStream

theorem buffer_advance (s : BufferedStream) : s.advance.2.buffer = s.buffer.tail := by
  obtain ⟨buffer, source⟩ := s
  cases buffer <;> rfl

theorem length_buffer_peek {s : BufferedStream} (few : s.buffer.length ≤ 1) :
    s.peek.2.buffer.length ≤ 1 := by
  obtain ⟨buffer, tokens, failure⟩ := s
  cases buffer with
  | cons token rest => exact few
  | nil =>
    cases tokens with
    | cons token rest => exact Nat.le_refl 1
    | nil => cases failure <;> exact Nat.zero_le 1

theorem eq_ofStream {s : BufferedStream} (unbuffered : s.buffer = []) :
    s = ofStream s.pending := by
  obtain ⟨buffer, source⟩ := s
  cases unbuffered
  rfl

end BufferedStream

/-- Whatever was looked at is in the buffer, and nothing is once a form has been read. -/
structure Reading.Tidy {s : BufferedStream} (reading : Reading s) : Prop where
  few : reading.rest.buffer.length ≤ 1
  form : ∀ v, reading.parsed = .form v → reading.rest.buffer = []

namespace Reading.Tidy

variable {s later rest : BufferedStream}

theorem earlier {reading : Reading later} (tidy : reading.Tidy) (fewer : later.left ≤ s.left) :
    (reading.earlier fewer : Reading s).Tidy := by
  cases reading <;> exact ⟨tidy.few, tidy.form⟩

theorem of_form {v : Value} {fewer : rest.left < s.left} (empty : rest.buffer = []) :
    (Reading.form v rest fewer).Tidy where
  few := by
    show rest.buffer.length ≤ 1
    rw [empty]
    exact Nat.zero_le 1
  form _ _ := empty

theorem of_finished {used : rest.left = 0} (few : rest.buffer.length ≤ 1) :
    (Reading.finished rest used : Reading s).Tidy where
  few := few
  form _ same := by cases same

theorem of_stopped {why : ReadFailure} (few : rest.buffer.length ≤ 1) :
    (Reading.stopped why rest : Reading s).Tidy where
  few := few
  form _ same := by cases same

end Reading.Tidy

namespace Reader

theorem tidy_items {next : (s : BufferedStream) → Reading s}
    (each : ∀ s : BufferedStream, s.buffer.length ≤ 1 → (next s).Tidy) (loc : Option Location)
    (taken : List Value) {s : BufferedStream} (few : s.buffer.length ≤ 1) :
    (items next loc taken s).Tidy := by
  have looks {s rest : BufferedStream} {answer : Except Error (Option Token)}
      (few : s.buffer.length ≤ 1) (looked : s.peek = (answer, rest)) : rest.buffer.length ≤ 1 := by
    have kept := BufferedStream.length_buffer_peek few
    rwa [looked] at kept
  fun_induction items next loc taken s with
  | case1 taken s e rest looked => exact .of_stopped (looks few looked)
  | case2 taken s rest looked => exact .of_stopped (looks few looked)
  | case3 taken s token rest looked closing =>
    apply Reading.Tidy.of_form
    rw [BufferedStream.buffer_advance]
    apply List.eq_nil_of_length_eq_zero
    have kept := looks few looked
    rw [List.length_tail]
    omega
  | case4 taken s token rest looked opens why after stopped =>
    have item := each rest (looks few looked)
    rw [stopped] at item
    exact .of_stopped item.few
  | case5 taken s token rest looked opens v after fewer read ih =>
    have item := each rest (looks few looked)
    rw [read] at item
    exact (ih item.few).earlier _
  | case6 taken s token rest looked opens after used read ih =>
    have item := each rest (looks few looked)
    rw [read] at item
    exact (ih item.few).earlier _

theorem tidy_parse (levels : Nat) {s : BufferedStream} (few : s.buffer.length ≤ 1) :
    (parse levels s).Tidy := by
  induction levels generalizing s with
  | zero => exact .of_stopped few
  | succ levels ih =>
    have takes {answer : Except Error (Option Token)} {rest : BufferedStream}
        (took : s.advance = (answer, rest)) : rest.buffer = [] ∧ rest.buffer.length ≤ 1 := by
      have left := s.buffer_advance
      rw [took] at left
      have none_left : rest.buffer.length = 0 := by
        rw [left, List.length_tail]
        omega
      exact ⟨List.eq_nil_of_length_eq_zero none_left, by omega⟩
    unfold parse
    split
    next e rest took => exact .of_stopped (takes took).2
    next rest took => exact .of_finished (takes took).2
    next token rest took =>
      obtain ⟨empty, few⟩ := takes took
      split
      · split
        · exact .of_stopped few
        · exact .of_form empty
      · exact .of_form empty
      · exact (tidy_items (fun s few => ih few) token.loc [] few).earlier _
      · exact .of_stopped few
      · exact .of_stopped few

variable {depth : ℕ∞} {failure : Option Error} {opened : List OpenList}

/-- The tokens that gave a form give it before any other tokens and any other failure, and these are
left as they are. -/
theorem exists_taken_of_form {tokens : List Token} {v : Value} {rest : TokenStream}
    (read : consume depth failure opened tokens = (.form v, rest)) :
    ∃ taken, taken ≠ [] ∧ tokens = taken ++ rest.tokens ∧ rest.failure = failure ∧
      ∀ other : TokenStream,
        consume depth other.failure opened (taken ++ other.tokens) = (.form v, other) := by
  induction tokens generalizing opened with
  | nil =>
    cases failure with
    | some e => cases read
    | none => cases opened <;> cases read
  | cons token tokens ih =>
    rw [consume] at read
    split at read
    · cases read
    next allowed =>
      cases step : take opened token with
      | error f =>
        rw [step] at read
        cases read
      | ok progress =>
        rw [step] at read
        cases progress with
        | done w =>
          cases read
          refine ⟨[token], List.cons_ne_nil _ _, rfl, rfl, fun other => ?_⟩
          rw [List.singleton_append, consume, if_neg allowed, step]
        | within wider =>
          obtain ⟨taken, _, rfl, same, elsewhere⟩ := ih read
          refine ⟨token :: taken, List.cons_ne_nil _ _, rfl, same, fun other => ?_⟩
          rw [List.cons_append, consume, if_neg allowed, step]
          exact elsewhere other

theorem exists_taken (depth : ℕ∞) (failure : Option Error) (opened : List OpenList)
    (tokens : List Token) :
    ∃ taken, tokens = taken ++ (consume depth failure opened tokens).2.tokens := by
  fun_induction consume depth failure opened tokens with
  | case1 => exact ⟨[], rfl⟩
  | case2 opened token rest => exact ⟨[], rfl⟩
  | case3 opened token rest => exact ⟨[token], rfl⟩
  | case4 opened token rest => exact ⟨[token], rfl⟩
  | case5 opened token rest _ wider _ ih =>
    obtain ⟨taken, split⟩ := ih
    refine ⟨token :: taken, ?_⟩
    rw [List.cons_append, ← split]

/-- A token that no list is around of is taken, whatever comes of it. -/
theorem exists_taken_of_cons (depth : ℕ∞) (failure : Option Error) (token : Token)
    (rest : List Token) : ∃ taken, taken ≠ [] ∧
      token :: rest = taken ++ (consume depth failure [] (token :: rest)).2.tokens := by
  rw [consume, if_neg (not_beyond_nil depth token)]
  cases take [] token with
  | error f => exact ⟨[token], List.cons_ne_nil _ _, rfl⟩
  | ok progress =>
    cases progress with
    | done v => exact ⟨[token], List.cons_ne_nil _ _, rfl⟩
    | within wider =>
      obtain ⟨taken, split⟩ := exists_taken depth failure wider rest
      exact ⟨token :: taken, List.cons_ne_nil _ _, congrArg (token :: ·) split⟩

theorem failure_consume (unfailing : failure = none) (opened : List OpenList)
    (tokens : List Token) : (consume depth failure opened tokens).2.failure = none := by
  fun_induction consume depth failure opened tokens with
  | case1 => rfl
  | case2 => exact unfailing
  | case3 => exact unfailing
  | case4 => exact unfailing
  | case5 _ _ _ _ _ _ ih => exact ih

end Reader

namespace BufferedStream

/-- What can be asked of a stream. A form may lie inside `depth` lists. -/
inductive Request where
  | peek
  | advance
  | form (depth : Nat)
  deriving DecidableEq, Repr

inductive Answer where
  | token (found : Except Error (Option Token))
  | form (found : Parsed)

def serve (s : BufferedStream) : Request → Answer × BufferedStream
  | .peek => (.token s.peek.1, s.peek.2)
  | .advance => (.token s.advance.1, s.advance.2)
  | .form depth =>
    let reading := Reader.parse (depth + 1) s
    (.form reading.parsed, reading.rest)

/-- The answers to requests, one after the other, and the stream after them. -/
def serveAll (s : BufferedStream) : List Request → List Answer × BufferedStream
  | [] => ([], s)
  | request :: requests =>
    let next := s.serve request
    let further := next.2.serveAll requests
    (next.1 :: further.1, further.2)

theorem pending_form (s : BufferedStream) (depth : Nat) : (s.serve (.form depth)).2.pending =
    (Reader.consume depth s.pending.failure [] s.pending.tokens).2 :=
  congrArg Prod.snd (Reader.ended_parse depth s)

theorem length_buffer_serve {s : BufferedStream} (few : s.buffer.length ≤ 1) (request : Request) :
    (s.serve request).2.buffer.length ≤ 1 := by
  cases request with
  | peek => exact length_buffer_peek few
  | advance =>
    have left : (s.serve .advance).2.buffer = s.buffer.tail := s.buffer_advance
    rw [left, List.length_tail]
    omega
  | form depth => exact (Reader.tidy_parse (depth + 1) few).few

/-- No sequence of requests leaves more than one token in the buffer. -/
theorem length_buffer_serveAll {s : BufferedStream} (few : s.buffer.length ≤ 1)
    (requests : List Request) : (s.serveAll requests).2.buffer.length ≤ 1 := by
  induction requests generalizing s with
  | nil => exact few
  | cons request requests ih => exact ih (length_buffer_serve few request)

/-- Answers depend on what is still to come only, and so does what is then left, however much of it
is in the buffer. -/
theorem serve_congr {s t : BufferedStream} (same : s.pending = t.pending) (request : Request) :
    (s.serve request).1 = (t.serve request).1 ∧
      (s.serve request).2.pending = (t.serve request).2.pending := by
  cases request with
  | peek =>
    obtain ⟨_, _, found, left⟩ := s.requests_pending
    obtain ⟨_, _, found', left'⟩ := t.requests_pending
    rw [same] at found left
    exact ⟨congrArg Answer.token (found.trans found'.symm), left.trans left'.symm⟩
  | advance =>
    obtain ⟨found, left, _⟩ := s.requests_pending
    obtain ⟨found', left', _⟩ := t.requests_pending
    rw [same] at found left
    exact ⟨congrArg Answer.token (found.trans found'.symm), left.trans left'.symm⟩
  | form depth =>
    have ended := Reader.ended_parse depth s
    rw [same, ← Reader.ended_parse depth t] at ended
    exact ⟨congrArg Answer.form (congrArg Prod.fst ended), congrArg Prod.snd ended⟩

theorem serveAll_congr {s t : BufferedStream} (same : s.pending = t.pending)
    (requests : List Request) : (s.serveAll requests).1 = (t.serveAll requests).1 ∧
      (s.serveAll requests).2.pending = (t.serveAll requests).2.pending := by
  induction requests generalizing s t with
  | nil => exact ⟨rfl, same⟩
  | cons request requests ih =>
    obtain ⟨found, left⟩ := serve_congr same request
    obtain ⟨answers, after⟩ := ih left
    exact ⟨by rw [serveAll, serveAll, found, answers], after⟩

theorem pending_peek {s : BufferedStream} (unfailing : s.pending.failure = none) :
    s.peek.2.pending = s.pending := by
  rw [s.requests_pending.2.2.2]
  split
  next used =>
    generalize s.pending = stream at used unfailing
    obtain ⟨tokens, failure⟩ := stream
    cases used
    cases unfailing
    rfl
  · rfl

theorem failure_serve {s : BufferedStream} (unfailing : s.pending.failure = none)
    (request : Request) : (s.serve request).2.pending.failure = none := by
  cases request with
  | peek =>
    have kept : (s.serve .peek).2.pending = s.pending := pending_peek unfailing
    rw [kept, unfailing]
  | advance =>
    have left : (s.serve .advance).2.pending = s.pending.next.2 := s.requests_pending.2.1
    rw [left]
    generalize s.pending = stream at unfailing
    obtain ⟨tokens, failure⟩ := stream
    cases unfailing
    cases tokens <;> rfl
  | form depth =>
    rw [pending_form]
    exact Reader.failure_consume unfailing _ _

theorem failure_serveAll {s : BufferedStream} (unfailing : s.pending.failure = none)
    (requests : List Request) : (s.serveAll requests).2.pending.failure = none := by
  induction requests generalizing s with
  | nil => exact unfailing
  | cons request requests ih => exact ih (failure_serve unfailing request)

/-- The answers to the requests that are marked as such. -/
def answersTo (marked : List (Option Request)) (answers : List Answer) : List Answer :=
  (marked.zip answers).filterMap fun pair => pair.1.map fun _ => pair.2

/-- Where nothing is marked, the stream is only looked at. The other requests have the answers that
they would have had without that. -/
theorem serveAll_looks {s : BufferedStream} (unfailing : s.pending.failure = none)
    (marked : List (Option Request)) :
    let looking := s.serveAll (marked.map fun mark => mark.getD .peek)
    let plain := s.serveAll marked.reduceOption
    answersTo marked looking.1 = plain.1 ∧ looking.2.pending = plain.2.pending := by
  induction marked generalizing s with
  | nil => exact ⟨rfl, rfl⟩
  | cons mark marked ih =>
    cases mark with
    | none =>
      have kept := pending_peek unfailing
      obtain ⟨answers, left⟩ := ih (s := s.peek.2) (kept ▸ unfailing)
      obtain ⟨answers', left'⟩ := serveAll_congr kept marked.reduceOption
      rw [List.reduceOption_cons_of_none, List.map_cons, Option.getD_none, serveAll]
      exact ⟨answers.trans answers', left.trans left'⟩
    | some request =>
      obtain ⟨answers, left⟩ := ih (failure_serve unfailing request)
      rw [List.reduceOption_cons_of_some, List.map_cons, Option.getD_some, serveAll, serveAll]
      exact ⟨congrArg ((s.serve request).1 :: ·) answers, left⟩

theorem exists_taken {s : BufferedStream} (unused : s.pending.tokens ≠ []) (depth : Nat) :
    ∃ taken, taken ≠ [] ∧
      s.pending.tokens = taken ++ (s.serve (.form depth)).2.pending.tokens := by
  obtain ⟨token, rest, shape⟩ := List.exists_cons_of_ne_nil unused
  rw [pending_form, shape]
  exact Reader.exists_taken_of_cons depth s.pending.failure token rest

theorem length_form_le (s : BufferedStream) (depth : Nat) :
    (s.serve (.form depth)).2.pending.tokens.length ≤ s.pending.tokens.length - 1 := by
  by_cases used : s.pending.tokens = []
  · rw [pending_form, used]
    exact Nat.le_refl 0
  · obtain ⟨taken, nonempty, split⟩ := exists_taken used depth
    have length := congrArg List.length split
    have positive := List.length_pos_iff.2 nonempty
    rw [List.length_append] at length
    omega

theorem pending_form_of_used {s : BufferedStream} (used : s.pending.tokens = []) (depth : Nat) :
    (s.serve (.form depth)).2.pending = .finished := by
  rw [pending_form, used]
  rfl

/-- Readings that take a token each use up a stream that does not fail. -/
theorem pending_forms {s : BufferedStream} {depths : List Nat}
    (unfailing : s.pending.failure = none) (enough : s.pending.tokens.length ≤ depths.length) :
    (s.serveAll (depths.map .form)).2.pending = .finished := by
  induction depths generalizing s with
  | nil =>
    have used := List.eq_nil_of_length_eq_zero (Nat.le_zero.1 enough)
    show s.pending = .finished
    generalize s.pending = stream at used unfailing
    obtain ⟨tokens, failure⟩ := stream
    cases used
    cases unfailing
    rfl
  | cons depth depths ih =>
    have fewer := s.length_form_le depth
    rw [List.length_cons] at enough
    exact ih (failure_serve unfailing (.form depth)) (by omega)

theorem pending_forms_of_lt {s : BufferedStream} {depths : List Nat}
    (enough : s.pending.tokens.length < depths.length) :
    (s.serveAll (depths.map .form)).2.pending = .finished := by
  induction depths generalizing s with
  | nil => cases enough
  | cons depth depths ih =>
    by_cases used : s.pending.tokens = []
    · have ended := pending_form_of_used used depth
      have nothing : (s.serve (.form depth)).2.pending.tokens.length = 0 := by
        rw [ended]
        rfl
      exact pending_forms (s := (s.serve (.form depth)).2) (by rw [ended]; rfl) (by omega)
    · have fewer := s.length_form_le depth
      have some := List.length_pos_iff.2 used
      rw [List.length_cons] at enough
      exact ih (by omega)

end BufferedStream

namespace Reader

variable {depth : Nat}

/-- A form is read from tokens that would give it before anything else too, and of what comes after
them nothing has been asked for. -/
theorem exists_taken_of_parse {s : BufferedStream} (few : s.buffer.length ≤ 1) {v : Value}
    (read : (parse (depth + 1) s).parsed = .form v) :
    ∃ taken rest, taken ≠ [] ∧ s.pending = rest.prepend taken ∧
      (parse (depth + 1) s).rest = .ofStream rest ∧
      ∀ other : TokenStream,
        consume depth other.failure [] (taken ++ other.tokens) = (.form v, other) := by
  have left := BufferedStream.eq_ofStream ((tidy_parse (depth + 1) few).form v read)
  have ended : consume depth s.pending.failure [] s.pending.tokens =
      (.form v, (parse (depth + 1) s).rest.pending) := by
    rw [← ended_parse, Reading.ended, read]
  obtain ⟨taken, nonempty, split, same, elsewhere⟩ := exists_taken_of_form ended
  refine ⟨taken, (parse (depth + 1) s).rest.pending, nonempty, ?_, left, elsewhere⟩
  rw [TokenStream.prepend, ← split, same]

theorem parse_of_consume {t : BufferedStream} (few : t.buffer.length ≤ 1) {v : Value}
    {rest : TokenStream}
    (read : consume depth t.pending.failure [] t.pending.tokens = (.form v, rest)) :
    (parse (depth + 1) t).parsed = .form v ∧ (parse (depth + 1) t).rest = .ofStream rest := by
  rw [← ended_parse] at read
  have parsed : (parse (depth + 1) t).parsed = .form v := congrArg Prod.fst read
  have left : (parse (depth + 1) t).rest.pending = rest := congrArg Prod.snd read
  refine ⟨parsed, ?_⟩
  rw [BufferedStream.eq_ofStream ((tidy_parse (depth + 1) few).form v parsed), left]

theorem parse_of_finished {s : BufferedStream} (used : s.pending = .finished) :
    (parse (depth + 1) s).parsed = .finished ∧ (parse (depth + 1) s).rest = s := by
  obtain ⟨buffer, tokens, failure⟩ := s
  cases buffer with
  | cons token rest => cases used
  | nil =>
    cases used
    exact ⟨rfl, rfl⟩

end Reader

/-- Whatever was asked of a stream before, a form is read from tokens that would give it before
anything else too, even before a failure; what comes after them is left as it is, and none of it has
been asked for. Every reading takes at least one token if there is one, also if it fails, so the
stream is used up after as many readings as there are tokens, and after one more if it ends in a
failure. If it does not, looking at the next token changes no answer to any other request. -/
theorem form_reads_locally (source : TokenStream) (before : List BufferedStream.Request)
    (depth : Nat) :
    let s := ((BufferedStream.ofStream source).serveAll before).2
    let reading := Reader.parse (depth + 1) s
    (∀ v, reading.parsed = .form v → ∃ taken rest, taken ≠ [] ∧
      s.pending = rest.prepend taken ∧ reading.rest = .ofStream rest ∧
      ∀ (other : TokenStream) (t : BufferedStream), t.buffer.length ≤ 1 →
        t.pending = other.prepend taken →
        let again := Reader.parse (depth + 1) t
        again.parsed = .form v ∧ again.rest = .ofStream other) ∧
    (s.pending.tokens ≠ [] →
      ∃ taken, taken ≠ [] ∧ s.pending.tokens = taken ++ reading.rest.pending.tokens) ∧
    (∀ depths : List Nat, s.pending.failure = none → s.pending.tokens.length ≤ depths.length →
      (s.serveAll (depths.map .form)).2.pending = .finished) ∧
    (∀ depths : List Nat, s.pending.tokens.length < depths.length →
      (s.serveAll (depths.map .form)).2.pending = .finished) ∧
    (s.pending = .finished → reading.parsed = .finished ∧ reading.rest = s) ∧
    (source.failure = none → ∀ marked : List (Option BufferedStream.Request),
      let looking := s.serveAll (marked.map fun mark => mark.getD .peek)
      let plain := s.serveAll marked.reduceOption
      BufferedStream.answersTo marked looking.1 = plain.1 ∧
        looking.2.pending = plain.2.pending) := by
  intro s reading
  have few : s.buffer.length ≤ 1 :=
    BufferedStream.length_buffer_serveAll (s := .ofStream source) (Nat.zero_le 1) before
  refine ⟨fun v read => ?_, fun unused => BufferedStream.exists_taken unused depth,
    fun depths => BufferedStream.pending_forms, fun depths => BufferedStream.pending_forms_of_lt,
    Reader.parse_of_finished, fun unfailing => BufferedStream.serveAll_looks ?_⟩
  · obtain ⟨taken, rest, nonempty, split, left, elsewhere⟩ := Reader.exists_taken_of_parse few read
    refine ⟨taken, rest, nonempty, split, left, fun other t fewToo shape => ?_⟩
    apply Reader.parse_of_consume fewToo
    rw [shape]
    exact elsewhere other
  · exact BufferedStream.failure_serveAll (s := .ofStream source) unfailing before

/-- After one look, an empty list is read before a parenthesis that closes nothing, which is then
still in the source, and the list would be read before a failure. -/
theorem form_reads_locally_of_failure :
    let opening : Token := ⟨.opening, "(", none⟩
    let closing : Token := ⟨.closing, ")", none⟩
    let e : Error := ⟨.unreadable .strayApostrophe, none⟩
    let s := ((BufferedStream.ofStream (.ofTokens [opening, closing, closing])).serveAll [.peek]).2
    s = ⟨[opening], .ofTokens [closing, closing]⟩ ∧
      (Reader.parse 1 s).rest = .ofStream (.ofTokens [closing]) ∧
      (Reader.parse 1 (.ofStream ⟨[opening, closing], some e⟩)).parsed = .form (.list [] none) ∧
      (Reader.parse 1 (.ofStream ⟨[opening, closing], some e⟩)).rest = .ofStream ⟨[], some e⟩ ∧
      (s.serveAll [.form 0, .form 5, .form 0]).2.pending = .finished := by
  intro opening closing e s
  have read : (Reader.parse 1 s).parsed = .form (.list [] none) := by with_unfolding_all rfl
  have left : (Reader.parse 1 s).rest = .ofStream (.ofTokens [closing]) := by decide +kernel
  obtain ⟨taking, _, ends, _⟩ :=
    form_reads_locally (.ofTokens [opening, closing, closing]) [.peek] 0
  obtain ⟨taken, rest, _, split, remains, elsewhere⟩ := taking _ read
  cases left.symm.trans remains
  have tokens : [opening, closing] ++ [closing] = taken ++ [closing] :=
    congrArg TokenStream.tokens split
  cases List.append_cancel_right tokens
  obtain ⟨form, after⟩ := elsewhere ⟨[], some e⟩ (.ofStream ⟨[opening, closing], some e⟩)
    (Nat.zero_le 1) rfl
  exact ⟨rfl, left, form, after, ends [0, 5, 0] rfl (Nat.le_refl 3)⟩

end ScopedLisp
