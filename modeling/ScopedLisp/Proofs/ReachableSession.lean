import ScopedLisp.Proofs.Data
import ScopedLisp.Proofs.Nested

set_option autoImplicit false

namespace ScopedLisp

/-- Binding the operators keeps to a discipline that allows for them. -/
theorem Store.holds_register {d : Discipline}
    (builtins : ∀ (op : Operator) (serial : Nat), d.data (.builtin op.name serial)) {s : Store}
    (holds : d.Holds s) (frame : FrameId) :
    d.Holds (s.register frame) ∧ s.Precedes (s.register frame) := by
  apply List.foldlRecOn (motive := fun t => d.Holds t ∧ s.Precedes t)
  · exact ⟨holds, .refl s⟩
  · intro t ⟨holds, later⟩ op _
    have known : t.nextSerial < t.takeSerial.2.nextSerial := Nat.lt_succ_self t.nextSerial
    have sound : d.Sound t.takeSerial.2 (.builtin op.name t.nextSerial) :=
      ⟨builtins op t.nextSerial, Value.within_iff.2 ⟨known, nofun⟩⟩
    have bound : t.Precedes (t.takeSerial.2.set frame op.name (.builtin op.name t.nextSerial)) :=
      (Store.Precedes.takeSerial t).trans (.set t.takeSerial.2 frame op.name _)
    exact ⟨holds.takeSerial.set frame op.name sound, later.trans bound⟩

/-- How a text can fail: it cannot be read, it has a fault with its place, or it goes too deep. -/
inductive Failure.OfText : Failure → Prop
  | reading {e : Error} (ofReading : e.OfReading) : OfText (.error e)
  | numeralTooLong (digits : Nat) : OfText (.numeralTooLong digits)
  | program {cause : Cause} (ofProgram : cause.OfProgram) (place : Location) :
      OfText (.error ⟨cause, some place⟩)
  | tooDeep : OfText .tooDeep

/-- The error for values that are no forms is not an error of programs. -/
theorem Cause.not_ofProgram_expression (kind : String) :
    ¬ (typeMismatch "expression" kind).OfProgram := by
  rintro (same | same)
  · exact absurd same (by decide)
  · exact absurd same (by decide)

theorem Failure.OfText.ne_expression {failure : Failure} (ofText : failure.OfText) (kind : String)
    (place : Option Location) : failure ≠ .error ⟨.typeMismatch "expression" kind, place⟩ := by
  rintro rfl
  cases ofText with
  | reading ofReading => cases ofReading
  | program ofProgram _ => exact Cause.not_ofProgram_expression kind ofProgram

namespace Session

/-- The evaluation of the forms of a text. -/
def task (s : Session) (forms : List Value) (file : Option String) : Task :=
  ⟨s.levels, s.root, .ofForms forms file, s.store.record (.evaluating forms.length file)⟩

/-- The tasks that evaluating a text comes to. -/
def Runs (s : Session) (source : String) (file : Option String) (task : Task) : Prop :=
  ∃ forms, s.read source file = .ok forms ∧ Task.Nested .usual (s.task forms file) task

def Next (s t : Session) : Prop :=
  ∃ source file, t = (s.eval source file).2

/-- The second session is the first after any number of texts, each evaluated or failed. -/
def Leads : Session → Session → Prop :=
  Relation.ReflTransGen Next

/-- A session that was started on some host with the operators bound in its root, after any number of
texts. -/
def Reachable (s : Session) : Prop :=
  ∃ host wish first, (seeded host).raiseLimit wish = .ok first ∧ first.Leads s

/-- How a text can end. Only an error of the program is written down, and a text that cannot be read
leaves no trace. -/
inductive Ends (s : Session) (source : String) (file : Option String) :
    Except Failure Value × Session → Prop
  | unreadable {failure : ReadFailure} (read : s.read source file = .error failure) :
      Ends s source file (.error (.ofRead failure), s)
  | returned {forms : List Value} {v : Value} {store : Store}
      (read : s.read source file = .ok forms)
      (ended : (s.task forms file).run .usual = (.done v, store)) :
      Ends s source file (.ok v, { s with store := store })
  | failed {forms : List Value} {e : Error} {store : Store}
      (read : s.read source file = .ok forms)
      (ended : (s.task forms file).run .usual = (.failed (.error e), store)) :
      Ends s source file
        (.error (.error e), { s with store := store.record (.evaluationFailed e) })
  | misused {forms : List Value} {m : Misuse} {store : Store}
      (read : s.read source file = .ok forms)
      (ended : (s.task forms file).run .usual = (.failed (.misuse m), store)) :
      Ends s source file (.error (.misuse m), { s with store := store })
  | tooDeep {forms : List Value} {store : Store} (read : s.read source file = .ok forms)
      (ended : (s.task forms file).run .usual = (.tooDeep, store)) :
      Ends s source file (.error .tooDeep, { s with store := store })

theorem eval_ends (s : Session) (source : String) (file : Option String) :
    s.Ends source file (s.eval source file) := by
  unfold eval
  cases read : s.read source file with
  | error failure => exact .unreadable read
  | ok forms =>
    have started : ScopedLisp.evaluate .usual s.levels s.root (.ofForms forms file)
        (s.store.record (.evaluating forms.length file)) = (s.task forms file).run .usual := rfl
    simp only [evaluate, levels_record, run]
    simp only [record, started]
    cases ended : (s.task forms file).run .usual with
    | mk outcome store =>
      cases outcome with
      | done v => exact .returned read ended
      | failed f =>
        cases f with
        | error e => exact .failed read ended
        | misuse m => exact .misused read ended
      | tooDeep => exact .tooDeep read ended

/-- Up to the journal, the store after a text is the store after its evaluation. -/
theorem store_eval (s : Session) {source : String} {file : Option String} {forms : List Value}
    (read : s.read source file = .ok forms) :
    (s.eval source file).2.store = (s.task forms file).after .usual ∨
      ∃ event, (s.eval source file).2.store = ((s.task forms file).after .usual).record event := by
  have ends := s.eval_ends source file
  generalize s.eval source file = ended at ends
  cases ends with
  | unreadable unread =>
    rw [read] at unread
    cases unread
  | returned again ended | misused again ended | tooDeep again ended =>
    rw [read] at again
    cases again
    exact .inl (by rw [Task.after, ended])
  | failed again ended =>
    rw [read] at again
    cases again
    exact .inr ⟨_, by rw [Task.after, ended]⟩

theorem eval_of_unreadable (s : Session) {source : String} {file : Option String}
    {failure : ReadFailure} (read : s.read source file = .error failure) :
    (s.eval source file).2 = s := by
  unfold eval
  rw [read]

theorem root_eval (s : Session) (source : String) (file : Option String) :
    (s.eval source file).2.root = s.root := by
  have ends := s.eval_ends source file
  generalize s.eval source file = ended at ends
  cases ends <;> rfl

theorem host_eval (s : Session) (source : String) (file : Option String) :
    (s.eval source file).2.limit = s.limit ∧ (s.eval source file).2.host = s.host := by
  have ends := s.eval_ends source file
  generalize s.eval source file = ended at ends
  cases ends <;> exact ⟨rfl, rfl⟩

theorem read_eval (s : Session) (before : String) (name : Option String) (source : String)
    (file : Option String) : (s.eval before name).2.read source file = s.read source file := by
  obtain ⟨limit, host⟩ := s.host_eval before name
  rw [read, read, depth, depth, limit, host]

structure Holds (s : Session) : Prop where
  store : Discipline.ofTexts.Holds s.store
  root : s.root < s.store.frames.size

theorem Holds.fit {s : Session} (holds : s.Holds) {source : String} {file : Option String}
    {forms : List Value} (read : s.read source file = .ok forms) :
    (s.task forms file).Fit Discipline.ofTexts := by
  have code := readProgram_isCode (readProgram_of_readWithin read)
  exact ⟨holds.store.record _, holds.root, code, code.within _⟩

/-- The evaluation of a text keeps to every discipline that its forms keep to. -/
theorem task_ends {d : Discipline} {s : Session} (holds : d.Holds s.store)
    (root : s.root < s.store.frames.size) {forms : List Value}
    (ready : ∀ form ∈ forms, d.Ready s.store form) (file : Option String) :
    d.Ends d.Sound s.store ((s.task forms file).run .usual) := by
  have recorded := Store.Precedes.record s.store (.evaluating forms.length file)
  have holds := holds.record (.evaluating forms.length file)
  apply Discipline.Ends.earlier recorded
  unfold Task.run task
  match s.levels with
  | 0 =>
    rw [evaluate_zero]
    exact .of_tooDeep holds
  | limit + 1 =>
    rw [evaluate_succ]
    exact Discipline.evaluateBody_ends (d.evaluate_obeys .usual _) holds root
      fun form member => (ready form member).later recorded

theorem holds_eval {d : Discipline} {s : Session} (holds : d.Holds s.store)
    (root : s.root < s.store.frames.size) {source : String} {file : Option String}
    (ready : ∀ forms, s.read source file = .ok forms →
      ∀ form ∈ forms, d.Ready s.store form) :
    d.Holds (s.eval source file).2.store ∧ s.store.Precedes (s.eval source file).2.store := by
  cases read : s.read source file with
  | error failure =>
    rw [s.eval_of_unreadable read]
    exact ⟨holds, .refl s.store⟩
  | ok forms =>
    have ends := task_ends holds root (ready forms read) file
    rcases s.store_eval read with same | ⟨event, same⟩
    · rw [same]
      exact ⟨ends.holds, ends.later⟩
    · rw [same]
      exact ⟨ends.holds.record event, ends.later.trans (.record _ event)⟩

theorem Holds.eval {s : Session} (holds : s.Holds) (source : String) (file : Option String) :
    (s.eval source file).2.Holds := by
  have ready : ∀ forms, s.read source file = .ok forms →
      ∀ form ∈ forms, Discipline.ofTexts.Ready s.store form := by
    intro forms read form member
    have code := (readProgram_isCode (readProgram_of_readWithin read)).child member
    exact ⟨code, code.within s.store⟩
  obtain ⟨store, later⟩ := holds_eval holds.store holds.root ready
  refine ⟨store, ?_⟩
  rw [root_eval]
  exact later.inside holds.root

theorem Runs.grows {s : Session} {source : String} {file : Option String} {task : Task}
    (runs : s.Runs source file task) :
    s.store.Grows task.store ∧ task.store.Grows (task.after .usual) ∧
      (task.after .usual).Grows (s.eval source file).2.store := by
  obtain ⟨forms, read, nested⟩ := runs
  obtain ⟨before, during, after⟩ := nested.grows
  refine ⟨before, during, ?_⟩
  rcases s.store_eval read with same | ⟨event, same⟩
  · rwa [same]
  · rw [same]
    exact after

theorem grows_eval (s : Session) (source : String) (file : Option String) :
    s.store.Grows (s.eval source file).2.store := by
  cases read : s.read source file with
  | error failure =>
    rw [s.eval_of_unreadable read]
    exact .of_frames_eq rfl
  | ok forms =>
    obtain ⟨before, during, after⟩ := Runs.grows ⟨forms, read, .refl⟩
    exact before.trans (during.trans after)

/-- A session that was just started keeps to every discipline that allows for the operators. -/
theorem holds_store_seeded {d : Discipline}
    (builtins : ∀ (op : Operator) (serial : Nat), d.data (.builtin op.name serial)) (host : Host) :
    d.Holds (seeded host).store ∧ (seeded host).root < (seeded host).store.frames.size := by
  have nothing : ∀ (id : FrameId) (frame : Frame), Store.empty.frames[id]? ≠ some frame := by
    simp [Store.empty]
  have empty : d.Holds Store.empty :=
    ⟨⟨fun found => absurd found (nothing _ _),
      fun id frame found => absurd found (nothing id frame)⟩,
      fun id frame found => absurd found (nothing id frame)⟩
  have rooted : d.Holds (Store.empty.addFrame (.empty none)).2 :=
    ⟨empty.wellFormed.addFrame nofun nofun, empty.data.addFrame nofun⟩
  obtain ⟨holds, later⟩ := Store.holds_register builtins rooted 0
  exact ⟨holds, later.frames⟩

/-- Raising the limit leaves the store as it is, up to the journal. -/
theorem store_raiseLimit {s t : Session} {wish : Option Int}
    (raised : s.raiseLimit wish = .ok t) :
    t.root = s.root ∧ (t.store = s.store ∨ ∃ event, t.store = s.store.record event) := by
  unfold Session.raiseLimit at raised
  split at raised
  · cases raised
    exact ⟨rfl, .inl rfl⟩
  · split at raised
    · simp only at raised
      split at raised
      · cases raised
        exact ⟨rfl, .inr ⟨_, rfl⟩⟩
      · cases raised
    · cases raised
      exact ⟨rfl, .inl rfl⟩

theorem holds_started {d : Discipline}
    (builtins : ∀ (op : Operator) (serial : Nat), d.data (.builtin op.name serial)) {host : Host}
    {wish : Option Int} {first : Session} (started : (seeded host).raiseLimit wish = .ok first) :
    d.Holds first.store ∧ first.root < first.store.frames.size := by
  obtain ⟨holds, root⟩ := holds_store_seeded builtins host
  obtain ⟨sameRoot, same | ⟨event, same⟩⟩ := store_raiseLimit started
  · rw [sameRoot, same]
    exact ⟨holds, root⟩
  · rw [sameRoot, same]
    exact ⟨holds.record event, root⟩

theorem Reachable.holds {s : Session} (reachable : s.Reachable) : s.Holds := by
  obtain ⟨host, wish, first, started, leads⟩ := reachable
  induction leads with
  | refl =>
    obtain ⟨store, root⟩ := holds_started (d := Discipline.ofTexts) Value.IsData.builtin started
    exact ⟨store, root⟩
  | tail _ next holds =>
    obtain ⟨source, file, rfl⟩ := next
    exact holds.eval source file

theorem Leads.grows {s t : Session} (leads : s.Leads t) : s.store.Grows t.store := by
  induction leads with
  | refl => exact .of_frames_eq rfl
  | tail _ next grown =>
    obtain ⟨source, file, rfl⟩ := next
    exact grown.trans (grows_eval _ source file)

theorem Reachable.leads {s t : Session} (reachable : s.Reachable) (leads : s.Leads t) :
    t.Reachable := by
  obtain ⟨host, wish, first, started, before⟩ := reachable
  exact ⟨host, wish, first, started, before.trans leads⟩

theorem Holds.fit_of_runs {s : Session} (holds : s.Holds) {source : String} {file : Option String}
    {task : Task} (runs : s.Runs source file task) : task.Fit Discipline.ofTexts := by
  obtain ⟨forms, read, nested⟩ := runs
  exact nested.fit (holds.fit read)

theorem Holds.returned {s : Session} (holds : s.Holds) {source : String} {file : Option String}
    {v : Value} (returned : (s.eval source file).1 = .ok v) :
    Discipline.ofTexts.Sound (s.eval source file).2.store v := by
  have ends := s.eval_ends source file
  generalize s.eval source file = ended at ends returned
  cases ends with
  | returned read ended =>
    cases returned
    have sound := (holds.fit read).ends .usual
    rw [ended] at sound
    exact sound.done v rfl
  | _ => cases returned

theorem Holds.failed {s : Session} (holds : s.Holds) {source : String} {file : Option String}
    {failure : Failure} (failed : (s.eval source file).1 = .error failure) : failure.OfText := by
  have ends := s.eval_ends source file
  generalize s.eval source file = ended at ends failed
  cases ends with
  | @unreadable unread read =>
    cases failed
    cases unread with
    | error e => exact .reading (readProgram_error (readProgram_of_error read nofun))
    | numeralTooLong digits => exact .numeralTooLong digits
    | tooDeep => exact .tooDeep
  | returned => cases failed
  | @failed forms e store read ended =>
    cases failed
    have sound := (holds.fit read).ends .usual
    rw [ended] at sound
    obtain ⟨ofProgram, located⟩ := sound.failed _ rfl
    obtain ⟨place, rfl⟩ := Option.isSome_iff_exists.1 located
    exact .program ofProgram place
  | @misused forms m store read ended =>
    have sound := (holds.fit read).ends .usual
    rw [ended] at sound
    cases sound.failed _ rfl
  | tooDeep =>
    cases failed
    exact .tooDeep

end Session

end ScopedLisp
