import ScopedLisp.CommandLine.Report
import ScopedLisp.Proofs.Lexing
import ScopedLisp.Proofs.Numeral
import ScopedLisp.Proofs.ReachableSession
import ScopedLisp.Proofs.Spelling

set_option autoImplicit false

namespace ScopedLisp

theorem Eval.bind_pure_eq_done_iff {α β : Type} {m : Eval α} {f : α → β} {s t : Store} {b : β} :
    (m >>= fun a => Pure.pure (f a)) s = (.done b, t) ↔ ∃ a, m s = (.done a, t) ∧ f a = b := by
  show m.bind _ s = _ ↔ _
  cases ended : m s with
  | mk outcome u =>
    cases outcome with
    | done a =>
      rw [Eval.bind_of_done ended]
      constructor
      · intro same
        cases same
        exact ⟨a, rfl, rfl⟩
      · rintro ⟨_, same, rfl⟩
        cases same
        rfl
    | failed f => simp [Eval.bind_of_failed ended]
    | tooDeep => simp [Eval.bind_of_tooDeep ended]

section Reading

theorem Atom.numeral_of_read {word : String} {loc : Option Location} {digits : Nat}
    (failed : read word loc = .error (.numeralTooLong digits)) :
    ∃ numeral, WholeNumeral.parse? word.toList = some numeral ∧
      numeral.digits.length = digits ∧ WholeNumeral.digitLimit < digits := by
  unfold read at failed
  split at failed
  · rename_i numeral parsed
    split at failed
    · rename_i long
      cases failed
      exact ⟨numeral, parsed, rfl, long⟩
    · split at failed <;> cases failed
  · repeat' split at failed
    all_goals cases failed

theorem Reader.word_of_take {opened : List OpenList} {token : Token} {digits : Nat}
    (failed : take opened token = .error (.numeralTooLong digits)) :
    token.kind = .symbol ∧ Atom.read token.text token.loc = .error (.numeralTooLong digits) := by
  unfold take at failed
  split at failed
  · cases failed
  · split at failed <;> cases failed
  · cases failed
  · rename_i kind
    cases word : Atom.read token.text token.loc with
    | error f =>
      rw [word] at failed
      cases failed
      exact ⟨kind, rfl⟩
    | ok v =>
      rw [word] at failed
      cases failed
  · cases failed

/-- What fails after a token fails with some lists open, or with none. -/
theorem Reader.exists_resume_of_proceed {failure : Option Error} {rest : List Token}
    {progress : Progress} {f : ReadFailure} (failed : proceed failure rest progress = .error f) :
    ∃ opened, resume failure opened rest = .error f := by
  cases progress with
  | within opened => exact ⟨opened, failed⟩
  | done v =>
    simp only [proceed] at failed
    cases further : resume failure [] rest with
    | ok vs =>
      rw [further] at failed
      cases failed
    | error g =>
      rw [further] at failed
      cases failed
      exact ⟨[], further⟩

theorem Reader.exists_numeral_of_resume {failure : Option Error} {opened : List OpenList}
    {tokens : List Token} {digits : Nat}
    (failed : resume failure opened tokens = .error (.numeralTooLong digits)) :
    ∃ token ∈ tokens, token.kind = .symbol ∧
      Atom.read token.text token.loc = .error (.numeralTooLong digits) := by
  induction tokens generalizing opened with
  | nil =>
    cases failure with
    | some e => cases failed
    | none => cases opened <;> cases failed
  | cons token rest ih =>
    rw [resume_cons] at failed
    cases taken : take opened token with
    | error f =>
      rw [taken] at failed
      cases failed
      exact ⟨token, List.mem_cons_self, word_of_take taken⟩
    | ok progress =>
      rw [taken] at failed
      obtain ⟨inner, later⟩ := exists_resume_of_proceed failed
      obtain ⟨found, member, word⟩ := ih later
      exact ⟨found, List.mem_cons_of_mem token member, word⟩

theorem numeral_of_readWithin {depth : Nat} {source : String} {name : Option String} {digits : Nat}
    (failed : readWithin depth source name = .error (.numeralTooLong digits)) :
    WholeNumeral.digitLimit < digits ∧
      ∃ token ∈ (TokenStream.ofSource source name).tokens, token.kind = .symbol ∧
        ∃ numeral, WholeNumeral.parse? token.text.toList = some numeral ∧
          numeral.digits.length = digits := by
  have unread := readProgram_of_error failed nofun
  rw [readProgram_eq, Reader.forms_eq_resume] at unread
  obtain ⟨token, member, kind, word⟩ := Reader.exists_numeral_of_resume unread
  obtain ⟨numeral, parsed, length, long⟩ := Atom.numeral_of_read word
  exact ⟨long, token, member, kind, numeral, parsed, length⟩

/-- A text that is one numeral and nothing else is not read if the numeral is too long. -/
theorem readWithin_of_digits (depth : Nat) {text : List Char}
    (digits : ∀ c ∈ text, c.isDigit = true) (long : WholeNumeral.digitLimit < text.length)
    (name : Option String) :
    readWithin depth (String.ofList text) name = .error (.numeralTooLong text.length) := by
  have nonempty : text ≠ [] := by
    rintro rfl
    cases long
  have stops : Lexer.Stops [] := nofun
  have lexed : Lexer.scan name .start (text ++ []) = _ := Lexer.scan_word nonempty
    (fun c member => Lexer.isDelimiter_of_isDigit (digits c member)) stops
  have word (loc : Option Location) :
      Atom.read (String.ofList text) loc = .error (.numeralTooLong text.length) := by
    simp [Atom.read, WholeNumeral.parse?, splitSign_of_isDigit digits,
      Text.digits?_of_isDigit nonempty digits, long]
  rw [List.append_nil, Lexer.scan_nil] at lexed
  rw [readWithin_eq, Lexer.ofSource_eq_scan, String.toList_ofList, lexed]
  simp only [TokenStream.prepend, List.cons_append]
  rw [Reader.resumeWithin, if_neg (Reader.not_beyond_nil depth _)]
  simp only [Reader.take, word]
  rfl

end Reading

theorem Text.Utf8.decodeFrom_ascii (position : Nat) (decoded : List Char) {bytes : List UInt8}
    (ascii : ∀ byte ∈ bytes, byte < 0x80) :
    decodeFrom position decoded bytes =
      .ok (decoded.reverse ++ bytes.map fun byte => Char.ofNat byte.toNat) := by
  induction bytes generalizing position decoded with
  | nil => simp [decodeFrom]
  | cons byte bytes ih =>
    have single : lead? byte = some (byte.toNat, []) := if_pos (ascii byte List.mem_cons_self)
    have further := ih (position + 1) (Char.ofNat byte.toNat :: decoded)
      fun next member => ascii next (List.mem_cons_of_mem byte member)
    rw [decodeFrom]
    simp only [single, follow, List.length_nil, Nat.add_zero, further]
    simp

theorem Text.unifyLineEnds_of_notMem {text : List Char} (none : '\r' ∉ text) :
    unifyLineEnds text = text := by
  fun_induction unifyLineEnds text with
  | case1 => simp at none
  | case2 => simp at none
  | case3 c rest _ _ ih => rw [ih fun member => none (List.mem_cons_of_mem c member)]
  | case4 => rfl

namespace Session

theorem host_evalFile (s : Session) (file : String) (contents : Except FileFault (List UInt8)) :
    (s.evalFile file contents).2.limit = s.limit ∧ (s.evalFile file contents).2.host = s.host := by
  unfold evalFile
  split
  · exact ⟨rfl, rfl⟩
  · split
    · exact ⟨rfl, rfl⟩
    · exact s.host_eval _ _

/-- The text can be read, there is a level left to begin with, and the forms have these values, each
evaluated on what the forms before it leave. -/
def Completes (s : Session) (source : String) (file : Option String) (values : List Value) : Prop :=
  ∃ forms store, s.read source file = .ok forms ∧ 0 < s.levels ∧
    evaluateEach (ScopedLisp.evaluate .usual (s.levels - 1 - Costs.usual.program)) s.root forms
      (s.task forms file).store = (.done values, store)

theorem task_done_iff {s : Session} {forms : List Value} {file : Option String} {v : Value}
    {store : Store} :
    (s.task forms file).run .usual = (.done v, store) ↔ 0 < s.levels ∧
      ∃ values, evaluateEach (ScopedLisp.evaluate .usual (s.levels - 1 - Costs.usual.program))
        s.root forms (s.task forms file).store = (.done values, store) ∧
        values.getLastD .unit = v := by
  rw [← Eval.bind_pure_eq_done_iff, ← evaluateBody_eq_last]
  cases levels : s.levels with
  | zero =>
    simp only [Task.run, task, levels, evaluate_zero, Nat.lt_irrefl, false_and, iff_false]
    intro ended
    cases ended
  | succ limit =>
    simp only [Task.run, task, levels, evaluate_succ, Nat.succ_pos, true_and]
    exact Iff.rfl

/-- A text returns a value exactly if its forms have values, and then that of the last form. -/
theorem eval_eq_ok_iff {s : Session} {source : String} {file : Option String} {v : Value} :
    (s.eval source file).1 = .ok v ↔
      ∃ values, s.Completes source file values ∧ values.getLastD .unit = v := by
  have ends := s.eval_ends source file
  generalize s.eval source file = ended at ends
  constructor
  · intro returned
    cases ends with
    | @returned forms _ store read ended =>
      cases returned
      obtain ⟨levels, values, evaluated, last⟩ := task_done_iff.1 ended
      exact ⟨values, ⟨forms, store, read, levels, evaluated⟩, last⟩
    | _ => cases returned
  · rintro ⟨values, ⟨forms, store, read, levels, evaluated⟩, last⟩
    have done := task_done_iff.2 ⟨levels, values, evaluated, last⟩
    cases ends with
    | unreadable unread =>
      rw [read] at unread
      cases unread
    | returned again ended =>
      rw [read] at again
      cases again
      rw [done] at ended
      cases ended
      rfl
    | failed again ended | misused again ended | tooDeep again ended =>
      rw [read] at again
      cases again
      rw [done] at ended
      cases ended

theorem read_of_numeralTooLong {s : Session} {source : String} {file : Option String} {digits : Nat}
    (failed : (s.eval source file).1 = .error (.numeralTooLong digits)) :
    s.read source file = .error (.numeralTooLong digits) := by
  have ends := s.eval_ends source file
  generalize s.eval source file = ended at ends failed
  cases ends with
  | @unreadable failure read =>
    cases failure with
    | error e => cases failed
    | tooDeep => cases failed
    | numeralTooLong digits =>
      cases failed
      exact read
  | _ => cases failed

end Session

/-- The line that is printed for a value; there is none for void. -/
def Value.line : Value → String
  | void _ => ""
  | v => v.text ++ "\n"

/-- The host has levels enough for the text of the value. Nothing is printed for void. -/
def Session.Fits (s : Session) (v : Value) : Prop :=
  (∃ loc, v = .void loc) ∨ v.textLevels s.host.text ≤ s.textLevels

namespace CommandLine

theorem request_of_plain {file : String} (plain : file.toList.head? ≠ some '-') :
    request [file] = .run file false := by
  have noDashes : file ≠ "--" := by
    rintro rfl
    exact plain rfl
  have understood : meaning file = .ok .plain := by
    unfold meaning
    split
    · rename_i characters
      exact absurd (by rw [characters]; rfl) plain
    · rename_i characters
      exact absurd (by rw [characters]; rfl) plain
    · rfl
  simp [request, noDashes, meanings, understood, Except.map, takeAll, Progress.take,
    Progress.takePlain, Progress.finish]

theorem request_of_taken {file : String} {m : Meaning} (argument : file ≠ "--")
    (understood : meaning file = .ok m) :
    (∀ p, Progress.take ⟨none, false, false, []⟩ file m = .ok p → request [file] = p.finish) ∧
      ∀ asked, Progress.take ⟨none, false, false, []⟩ file m = .error asked →
        request [file] = asked := by
  constructor <;> intro _ taken <;>
    simp [request, argument, meanings, understood, Except.map, takeAll, taken]

/-- One argument is the file, or else it asks for help or is refused. -/
theorem request_singleton (file : String) : request [file] = .run file false ∨
    request [file] = .help ∨ ∃ refusal, request [file] = .refuse refusal := by
  by_cases argument : file = "--"
  · subst argument
    exact .inr (.inr ⟨.fileMissing, by decide⟩)
  cases understood : meaning file with
  | error refusal =>
    right; right
    exact ⟨refusal, by simp [request, argument, meanings, understood]⟩
  | ok m =>
    obtain ⟨goes_on, ends⟩ := request_of_taken argument understood
    -- A switch is either refused, or asks for help, or leaves the file missing.
    have switched (taken : Progress.take ⟨none, false, false, []⟩ file m =
        (m.switches.mapError Request.refuse).bind fun switches =>
          if switches.contains .help then .error .help else .ok ⟨none, false, true, []⟩) :
        request [file] = .help ∨ ∃ refusal, request [file] = .refuse refusal := by
      cases found : m.switches with
      | error refusal =>
        rw [found] at taken
        exact .inr ⟨refusal, ends _ taken⟩
      | ok switches =>
        rw [found] at taken
        by_cases help : switches.contains .help
        · exact .inl (ends _ (taken.trans (if_pos help)))
        · exact .inr ⟨.fileMissing, goes_on _ (taken.trans (if_neg help))⟩
    cases m with
    | plain => exact .inl (goes_on _ rfl)
    | unknown => exact .inr (.inr ⟨.fileMissing, goes_on _ rfl⟩)
    | long s value =>
      apply Or.inr (switched _)
      simp only [Progress.take]
      cases Meaning.switches (.long s value) <;> rfl
    | short s value =>
      apply Or.inr (switched _)
      simp only [Progress.take]
      cases Meaning.switches (.short s value) <;> rfl

/-- The file can be read and decoded, and this is its text. -/
def Opens (contents : Except FileFault (List UInt8)) (source : String) : Prop :=
  ∃ bytes text, contents = .ok bytes ∧ Text.Utf8.decode bytes = .ok text ∧
    source = String.ofList (Text.unifyLineEnds text.toList)

/-- The name under which the text of a file is evaluated. -/
def textName (file : String) : Option String :=
  some (Path.normalize file)

theorem evalFile_of_opens {contents : Except FileFault (List UInt8)} {source : String}
    (opens : Opens contents source) (s : Session) (file : String) :
    s.evalFile file contents = s.eval source (textName file) := by
  obtain ⟨bytes, text, rfl, decoded, rfl⟩ := opens
  simp only [Session.evalFile, decoded]
  rfl

/-- Why there can be no value for a file in a session. -/
inductive Fails (s : Session) (file : String) (contents : Except FileFault (List UInt8)) :
    Failure → Prop
  | unavailable {fault : FileFault} (unread : contents = .error fault) :
      Fails s file contents (.unavailable fault)
  | undecodable (fault : Text.Utf8.Fault) : Fails s file contents (.undecodable fault)
  | error (e : Error) : Fails s file contents (.error e)
  | tooDeep : Fails s file contents .tooDeep
  | numeralTooLong {source : String} {digits : Nat} (opens : Opens contents source)
      (read : s.read source (textName file) = .error (.numeralTooLong digits)) :
      Fails s file contents (.numeralTooLong digits)

theorem opens_or_fails (s : Session) (file : String) (contents : Except FileFault (List UInt8)) :
    (∃ source, Opens contents source) ∨
      ∃ failure, (s.evalFile file contents).1 = .error failure ∧ Fails s file contents failure := by
  cases contents with
  | error fault => exact .inr ⟨.unavailable fault, rfl, .unavailable rfl⟩
  | ok bytes =>
    cases decoded : Text.Utf8.decode bytes with
    | error fault =>
      exact .inr ⟨.undecodable fault, by simp only [Session.evalFile, decoded], .undecodable fault⟩
    | ok text => exact .inl ⟨_, bytes, text, rfl, decoded, rfl⟩

/-- What is not reported of a file. -/
inductive Unreported (s : Session) (file : String) (contents : Except FileFault (List UInt8)) :
    Crash → Prop
  | path (unread : contents = .error .zeroInPath) :
      Unreported s file contents (.failure (.unavailable .zeroInPath))
  | numeral {source : String} {digits : Nat} (opens : Opens contents source)
      (read : s.read source (textName file) = .error (.numeralTooLong digits)) :
      Unreported s file contents (.failure (.numeralTooLong digits))
  | depth {source : String} {values : List Value} (opens : Opens contents source)
      (completes : s.Completes source (textName file) values)
      (deep : ¬ s.Fits (values.getLastD .unit)) : Unreported s file contents (.failure .tooDeep)

section Run

variable {s : Session} {file : String} {contents : Except FileFault (List UInt8)}

/-- In a session that texts alone have led to, a misuse cannot be the reason. -/
theorem fails_of_evalFile (reachable : s.Reachable) {failure : Failure}
    (failed : (s.evalFile file contents).1 = .error failure) : Fails s file contents failure := by
  rcases opens_or_fails s file contents with ⟨source, opens⟩ | ⟨other, ended, fails⟩
  · rw [evalFile_of_opens opens] at failed
    cases reachable.holds.failed failed with
    | reading ofReading => exact .error _
    | program ofProgram place => exact .error _
    | tooDeep => exact .tooDeep
    | numeralTooLong digits => exact .numeralTooLong opens (Session.read_of_numeralTooLong failed)
  · rw [ended] at failed
    cases failed
    exact fails

theorem shown_of_fits {v : Value} (fits : s.Fits v) : shown s v = .ok v.line := by
  rcases fits with ⟨loc, rfl⟩ | enough
  · rfl
  · cases v with
    | void => rfl
    | _ => simp only [shown, Value.line, enough, ↓reduceIte]

theorem shown_of_not_fits {v : Value} (deep : ¬ s.Fits v) :
    shown s v = .error (.failure .tooDeep) := by
  obtain ⟨printed, tooMany⟩ := not_or.1 deep
  cases v with
  | void loc => exact absurd ⟨loc, rfl⟩ printed
  | _ => simp only [shown, tooMany, ↓reduceIte]

theorem shown_evalFile (v : Value) : shown (s.evalFile file contents).2 v = shown s v := by
  obtain ⟨limit, host⟩ := s.host_evalFile file contents
  have same : (s.evalFile file contents).2.textLevels = s.textLevels := by
    rw [Session.textLevels, Session.textLevels, limit, host]
  unfold shown
  rw [same, host]

theorem runFile_of_ok {v : Value} (returned : (s.evalFile file contents).1 = .ok v) :
    runFile s false file contents = (shown s v).map fun output => ⟨0, output, ""⟩ := by
  simp [runFile, returned, shown_evalFile]

theorem runFile_of_error {failure : Failure}
    (failed : (s.evalFile file contents).1 = .error failure) :
    runFile s false file contents = (complaint file s.limit failure).map fun said =>
      ⟨1, "", "error: " ++ said.1 ++ "\n"⟩ := by
  simp [runFile, failed, (s.host_evalFile file contents).1]

/-- A file that opens and whose forms all have values comes to the value of the last one. -/
theorem evalFile_eq_ok_iff {v : Value} :
    (s.evalFile file contents).1 = .ok v ↔ ∃ source values, Opens contents source ∧
      s.Completes source (textName file) values ∧ values.getLastD .unit = v := by
  constructor
  · intro returned
    rcases opens_or_fails s file contents with ⟨source, opens⟩ | ⟨failure, ended, _⟩
    · rw [evalFile_of_opens opens, Session.eval_eq_ok_iff] at returned
      obtain ⟨values, completes, last⟩ := returned
      exact ⟨source, values, opens, completes, last⟩
    · rw [ended] at returned
      cases returned
  · rintro ⟨source, values, opens, completes, last⟩
    rw [evalFile_of_opens opens, Session.eval_eq_ok_iff]
    exact ⟨values, completes, last⟩

theorem evalFile_of_unread {source : String} {failure : ReadFailure} (opens : Opens contents source)
    (unread : s.read source (textName file) = .error failure) :
    (s.evalFile file contents).1 = .error (.ofRead failure) := by
  rw [evalFile_of_opens opens, Session.eval, unread]

theorem complaint_of_fails {failure : Failure} (fails : Fails s file contents failure)
    (limit : Nat) :
    (∃ said, complaint file limit failure = .ok said) ∨
      ∃ crash, complaint file limit failure = .error crash ∧ Unreported s file contents crash := by
  cases fails with
  | @unavailable fault unread =>
    cases fault with
    | zeroInPath => exact .inr ⟨_, rfl, .path unread⟩
    | _ => exact .inl ⟨_, rfl⟩
  | undecodable => exact .inl ⟨_, rfl⟩
  | error => exact .inl ⟨_, rfl⟩
  | tooDeep => exact .inl ⟨_, rfl⟩
  | numeralTooLong opens read => exact .inr ⟨_, rfl, .numeral opens read⟩

theorem runFile_of_unreported {crash : Crash} (unreported : Unreported s file contents crash) :
    runFile s false file contents = .error crash := by
  cases unreported with
  | path unread =>
    have failed : (s.evalFile file contents).1 = .error (.unavailable .zeroInPath) := by
      rw [unread]
      rfl
    rw [runFile_of_error failed]
    rfl
  | numeral opens read =>
    rw [runFile_of_error (evalFile_of_unread opens read)]
    rfl
  | depth opens completes deep =>
    rw [runFile_of_ok (evalFile_eq_ok_iff.2 ⟨_, _, opens, completes, rfl⟩), shown_of_not_fits deep]
    rfl

theorem runFile_outcome (reachable : s.Reachable) (file : String)
    (contents : Except FileFault (List UInt8)) :
    (∃ v, (s.evalFile file contents).1 = .ok v ∧
        runFile s false file contents = .ok ⟨0, v.line, ""⟩) ∨
      (∃ failure said, (s.evalFile file contents).1 = .error failure ∧
        runFile s false file contents = .ok ⟨1, "", "error: " ++ said ++ "\n"⟩) ∨
      ∃ crash, Unreported s file contents crash := by
  cases ended : (s.evalFile file contents).1 with
  | ok v =>
    by_cases fits : s.Fits v
    · refine .inl ⟨v, rfl, ?_⟩
      rw [runFile_of_ok ended, shown_of_fits fits]
      rfl
    · obtain ⟨source, values, opens, completes, rfl⟩ := evalFile_eq_ok_iff.1 ended
      exact .inr (.inr ⟨_, .depth opens completes fits⟩)
  | error failure =>
    rcases complaint_of_fails (fails_of_evalFile reachable ended) s.limit with
      ⟨said, reports⟩ | ⟨crash, _, unreported⟩
    · refine .inr (.inl ⟨failure, said.1, rfl, ?_⟩)
      rw [runFile_of_error ended, reports]
      rfl
    · exact .inr (.inr ⟨crash, unreported⟩)

end Run

section Arguments

variable {host : Host} {read : String → Except FileFault (List UInt8)} {file : String}

theorem run_file (asked : request [file] = .run file false) :
    run host (fun _ => none) read [file] =
      runFile (Session.seeded host) false file (read file) := by
  have started : session host (fun _ => none) = .ok (Session.seeded host) := rfl
  have silent : showsLog (fun _ => none) false = false := rfl
  simp only [run, asked, started, silent]

/-- An argument that is not taken as a file is answered with the usage. -/
theorem run_of_no_file (asked : request [file] ≠ .run file false) (environment : Variables) :
    run host environment read [file] = .ok ⟨0, helpText, ""⟩ ∨
      ∃ said, run host environment read [file] =
        .ok ⟨2, "", usage ++ "eta: error: " ++ said ++ "\n"⟩ := by
  rcases request_singleton file with same | help | ⟨refusal, refused⟩
  · exact absurd same asked
  · exact .inl (by simp only [run, help])
  · exact .inr ⟨refusal.message, by simp only [run, refused]⟩

end Arguments

/-- A file of characters below 0x80 without carriage returns opens as it is. -/
theorem opens_of_ascii {bytes : List UInt8} (ascii : ∀ byte ∈ bytes, byte < 0x80)
    (noReturn : '\r' ∉ bytes.map fun byte => Char.ofNat byte.toNat) :
    Opens (.ok bytes) (String.ofList (bytes.map fun byte => Char.ofNat byte.toNat)) := by
  have decoded : Text.Utf8.decode bytes =
      .ok (String.ofList (bytes.map fun byte => Char.ofNat byte.toNat)) := by
    rw [Text.Utf8.decode, Text.Utf8.decodeFrom_ascii 0 [] ascii]
    rfl
  refine ⟨bytes, _, rfl, decoded, ?_⟩
  rw [String.toList_ofList, Text.unifyLineEnds_of_notMem noReturn]

/-- A file of digits is not reported if they are too many. -/
theorem unreported_of_digits (s : Session) (file : String) {bytes : List UInt8}
    (digits : ∀ byte ∈ bytes, 0x30 ≤ byte.toNat ∧ byte.toNat ≤ 0x39)
    (long : WholeNumeral.digitLimit < bytes.length) :
    Unreported s file (.ok bytes) (.failure (.numeralTooLong bytes.length)) := by
  have ascii : ∀ byte ∈ bytes, byte < 0x80 := by
    intro byte member
    have upper := (digits byte member).2
    rw [UInt8.lt_iff_toNat_lt]
    exact Nat.lt_of_le_of_lt upper (by decide)
  have isDigit : ∀ c ∈ bytes.map fun byte => Char.ofNat byte.toNat, c.isDigit = true := by
    intro c member
    obtain ⟨byte, inside, rfl⟩ := List.mem_map.1 member
    obtain ⟨lower, upper⟩ := digits byte inside
    have each : ∀ n < 10, (Char.ofNat (0x30 + n)).isDigit = true := by decide
    have digit := each (byte.toNat - 0x30) (by omega)
    rwa [Nat.add_sub_cancel' lower] at digit
  have noReturn : '\r' ∉ bytes.map fun byte => Char.ofNat byte.toNat :=
    fun member => absurd (isDigit '\r' member) (by decide)
  have failed := readWithin_of_digits s.depth isDigit (by simpa using long) (textName file)
  rw [List.length_map] at failed
  exact .numeral (opens_of_ascii ascii noReturn) failed

end CommandLine

open CommandLine in
/-- The command line is given one argument and no settings, on any host. If the argument is a file
which opens and each of whose forms has a value, the line of the last value is printed and the code
is 0, as long as the host has levels enough for the text of the value. A run ends without a report
exactly for one of three reasons, of which the second is a word that is a whole numeral with more
digits than the limit. In all other cases nothing is printed, an error is written, and the code is
1; so it is with a text that is nested too deep to be read. An argument that does not begin with a
dash is a file, and one that is none is answered with the usage. -/
theorem command_line_reports (host : Host) (read : String → Except FileFault (List UInt8))
    (file : String) :
    let s := Session.seeded host
    let ended := run host (fun _ => none) read [file]
    (request [file] = .run file false →
      (∀ source values, Opens (read file) source → s.Completes source (textName file) values →
        s.Fits (values.getLastD .unit) → ended = .ok ⟨0, (values.getLastD .unit).line, ""⟩) ∧
      (∀ crash, ended = .error crash ↔ Unreported s file (read file) crash) ∧
      (∀ source, Opens (read file) source → s.read source (textName file) = .error .tooDeep →
        ended = .ok ⟨1, "", "error: maximum recursion depth exceeded\n"⟩) ∧
      ((∀ source values, Opens (read file) source →
          ¬ s.Completes source (textName file) values) →
        (∀ crash, ¬ Unreported s file (read file) crash) →
        ∃ said, ended = .ok ⟨1, "", "error: " ++ said ++ "\n"⟩)) ∧
    (∀ source digits, s.read source (textName file) = .error (.numeralTooLong digits) →
      4300 < digits ∧ ∃ token ∈ (TokenStream.ofSource source (textName file)).tokens,
        token.kind = .symbol ∧ ∃ numeral, WholeNumeral.parse? token.text.toList = some numeral ∧
          numeral.digits.length = digits) ∧
    (file.toList.head? ≠ some '-' → request [file] = .run file false) ∧
    (request [file] ≠ .run file false → ended = .ok ⟨0, helpText, ""⟩ ∨
      ∃ said, ended = .ok ⟨2, "", usage ++ "eta: error: " ++ said ++ "\n"⟩) := by
  intro s ended
  have reachable : s.Reachable := ⟨host, none, s, rfl, .refl⟩
  refine ⟨fun asked => ?_, fun source digits => numeral_of_readWithin, request_of_plain,
    fun other => run_of_no_file other _⟩
  rw [show ended = _ from run_file asked]
  refine ⟨?_, fun crash => ⟨fun crashed => ?_, runFile_of_unreported⟩, ?_, ?_⟩
  · intro source values opens completes fits
    have returned := evalFile_eq_ok_iff.2 ⟨source, values, opens, completes, rfl⟩
    rw [runFile_of_ok returned, shown_of_fits fits]
    rfl
  · rcases runFile_outcome reachable file (read file) with
      ⟨_, _, reports⟩ | ⟨_, _, _, reports⟩ | ⟨other, unreported⟩
    · rw [crashed] at reports
      cases reports
    · rw [crashed] at reports
      cases reports
    · rw [runFile_of_unreported unreported] at crashed
      cases crashed
      exact unreported
  · intro source opens unread
    rw [runFile_of_error (evalFile_of_unread opens unread)]
    rfl
  · intro incomplete reported
    rcases runFile_outcome reachable file (read file) with
      ⟨v, returned, _⟩ | ⟨_, said, _, reports⟩ | ⟨crash, unreported⟩
    · obtain ⟨source, values, opens, completes, _⟩ := evalFile_eq_ok_iff.1 returned
      exact absurd completes (incomplete source values opens)
    · exact ⟨said, reports⟩
    · exact absurd unreported (reported crash)

open CommandLine in
/-- The value of the last form is printed. On a host that leaves room for one list only, the same
file is read no further than to the list inside. -/
theorem command_line_reports_of_sum :
    let contents : Except FileFault (List UInt8) :=
      .ok [0x28, 0x2B, 0x20, 0x33, 0x20, 0x28, 0x2B, 0x20, 0x34, 0x29, 0x29]
    let narrow : Host := { Host.usual with limit := 14 }
    run .usual (fun _ => none) (fun _ => contents) ["p.eta"] = .ok ⟨0, "7\n", ""⟩ ∧
      run narrow (fun _ => none) (fun _ => contents) ["p.eta"] =
        .ok ⟨1, "", "error: maximum recursion depth exceeded\n"⟩ := by
  intro contents narrow
  have opens : Opens contents "(+ 3 (+ 4))" := ⟨_, "(+ 3 (+ 4))", rfl, by decide +kernel, rfl⟩
  have tokens (name : Option String) : TokenStream.ofSource "(+ 3 (+ 4))" name =
      ⟨[⟨.opening, "(", some ⟨name, 1, 1⟩⟩, ⟨.symbol, "+", some ⟨name, 1, 2⟩⟩,
        ⟨.symbol, "3", some ⟨name, 1, 4⟩⟩, ⟨.opening, "(", some ⟨name, 1, 6⟩⟩,
        ⟨.symbol, "+", some ⟨name, 1, 7⟩⟩, ⟨.symbol, "4", some ⟨name, 1, 9⟩⟩,
        ⟨.closing, ")", some ⟨name, 1, 10⟩⟩, ⟨.closing, ")", some ⟨name, 1, 11⟩⟩], none⟩ := by
    with_unfolding_all rfl
  have plus (loc : Option Location) : Atom.read "+" loc = .ok (.symbol "+" loc) := rfl
  have three (loc : Option Location) : Atom.read "3" loc = .ok (.integer 3 loc) := rfl
  have four (loc : Option Location) : Atom.read "4" loc = .ok (.integer 4 loc) := rfl
  have room (name : Option String) : (TokenStream.ofSource "(+ 3 (+ 4))" name).tokens.length ≤
      (Session.seeded .usual).depth := by
    rw [tokens]
    show 8 ≤ (Session.seeded .usual).depth
    decide
  have read (name : Option String) : (Session.seeded .usual).read "(+ 3 (+ 4))" name =
      .ok [.list [.symbol "+" (some ⟨name, 1, 2⟩), .integer 3 (some ⟨name, 1, 4⟩),
        .list [.symbol "+" (some ⟨name, 1, 7⟩), .integer 4 (some ⟨name, 1, 9⟩)]
          (some ⟨name, 1, 6⟩)] (some ⟨name, 1, 1⟩)] := by
    rw [Session.read, readWithin_of_length (room name), readProgram_eq_ok_iff, tokens]
    exact ⟨rfl, .cons (.opening rfl) <| .cons (.word rfl (plus _)) <|
      .cons (.word rfl (three _)) <| .cons (.opening rfl) <| .cons (.word rfl (plus _)) <|
      .cons (.word rfl (four _)) <| .cons (.closing rfl) <| .cons (.closing rfl) .nil⟩
  have completes (name : Option String) :
      (Session.seeded .usual).Completes "(+ 3 (+ 4))" name [.integer 7 none] :=
    ⟨_, _, read name, by decide, Prod.ext (by with_unfolding_all rfl) rfl⟩
  have deep (name : Option String) :
      (Session.seeded narrow).read "(+ 3 (+ 4))" name = .error .tooDeep := by
    have once : (Session.seeded narrow).depth = 1 := by decide
    rw [Session.read, readWithin_eq, tokens, once]
    simp [Reader.resumeWithin, Reader.Beyond, Reader.take, Reader.place, Except.map, plus, three]
  have asked : request ["p.eta"] = .run "p.eta" false := request_of_plain (by decide)
  have wide := (command_line_reports .usual (fun _ => contents) "p.eta").1 asked
  have close := (command_line_reports narrow (fun _ => contents) "p.eta").1 asked
  refine ⟨?_, close.2.2.1 _ opens (deep _)⟩
  rw [wide.1 "(+ 3 (+ 4))" [.integer 7 none] opens (completes _) (.inr (by decide))]
  rfl

open CommandLine in
/-- A file that has one numeral in it, with one digit more than the limit. -/
theorem long_numeral_not_reported :
    run .usual (fun _ => none) (fun _ => .ok (List.replicate 4301 0x31)) ["p.eta"] =
      .error (.failure (.numeralTooLong 4301)) := by
  have digits : ∀ byte ∈ List.replicate 4301 (0x31 : UInt8),
      0x30 ≤ byte.toNat ∧ byte.toNat ≤ 0x39 := by
    intro byte member
    rw [List.eq_of_mem_replicate member]
    decide
  have length : (List.replicate 4301 (0x31 : UInt8)).length = 4301 := List.length_replicate
  have unreported := unreported_of_digits (.seeded .usual) "p.eta" digits (by rw [length]; decide)
  rw [length] at unreported
  rw [run_file (request_of_plain (by decide))]
  exact runFile_of_unreported unreported

end ScopedLisp
