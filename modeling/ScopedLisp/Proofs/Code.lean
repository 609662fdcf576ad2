import ScopedLisp.Proofs.OpenLists
import ScopedLisp.Proofs.Parts

set_option autoImplicit false

namespace ScopedLisp

/-- A form that can be read, or a program of such forms. -/
inductive Value.IsCode : Value → Prop
  | integer {n : Int} (inRange : Integer.inRange n = true) (place : Location) :
      IsCode (.integer n (some place))
  | float (x : Float) (place : Location) : IsCode (.float x (some place))
  | bool (b : Bool) (place : Location) : IsCode (.bool b (some place))
  | string (text : String) (place : Location) : IsCode (.string text (some place))
  | symbol (name : String) (place : Location) : IsCode (.symbol name (some place))
  | list {items : List Value} (code : ∀ item ∈ items, IsCode item) (place : Location) :
      IsCode (.list items (some place))
  | program {forms : List Value} (code : ∀ form ∈ forms, IsCode form) (place : Location) :
      IsCode (.program forms (some place))

/-- The errors of texts that cannot be read. -/
inductive Error.OfReading : Error → Prop
  | unreadable (fault : ReadFault) (place : Location) : OfReading ⟨.unreadable fault, some place⟩

theorem Value.IsCode.child {v child : Value} (code : v.IsCode) (inside : child ∈ v.children) :
    child.IsCode := by
  cases code with
  | list items _ => exact items child inside
  | program forms _ => exact forms child inside
  | _ => cases inside

theorem Value.IsCode.part {v part : Value} (code : v.IsCode) (member : part ∈ v.parts) :
    part.IsCode := by
  induction v using induction_on_children with
  | ascend v ih =>
    rcases mem_parts.1 member with rfl | ⟨child, inside, below⟩
    · exact code
    · exact ih child inside (code.child inside) below

theorem Value.IsCode.located {v : Value} (code : v.IsCode) : v.loc.isSome = true := by
  cases code <;> rfl

/-- What a word can be. A numeral out of range is no integer but a float. -/
inductive Atom.Reads (loc : Option Location) : Value → Prop
  | integer {n : Int} (inRange : Integer.inRange n = true) : Reads loc (.integer n loc)
  | float (x : Float) : Reads loc (.float x loc)
  | bool (b : Bool) : Reads loc (.bool b loc)
  | symbol (name : String) : Reads loc (.symbol name loc)

theorem Atom.read_reads {word : String} {loc : Option Location} {v : Value}
    (success : read word loc = .ok v) : Reads loc v := by
  unfold read at success
  split at success
  · split at success
    · cases success
    · split at success
      · rename_i inRange
        cases success
        exact .integer inRange
      · cases success
        exact .float _
  · split at success
    · cases success
      exact .float _
    · split at success
      · cases success
        exact .bool true
      · split at success
        · cases success
          exact .bool false
        · cases success
          exact .symbol word

theorem Atom.Reads.isCode {place : Location} {v : Value} (reads : Reads (some place) v) :
    v.IsCode := by
  cases reads with
  | integer inRange => exact .integer inRange place
  | float x => exact .float x place
  | bool b => exact .bool b place
  | symbol name => exact .symbol name place

theorem Atom.read_ne_error (word : String) (loc : Option Location) (e : Error) :
    read word loc ≠ .error (.error e) := by
  unfold read
  repeat' split
  all_goals nofun

/-- Tokens have places, and so does what stands in the way of further tokens. -/
structure TokenStream.Located (s : TokenStream) : Prop where
  tokens : ∀ token ∈ s.tokens, token.loc.isSome = true
  failure : ∀ e, s.failure = some e → e.OfReading

namespace Reader

/-- A list that is open has a place, and its items so far are code. -/
structure OpenCode (opened : OpenList) : Prop where
  located : opened.loc.isSome = true
  items : ∀ item ∈ opened.items, item.IsCode

inductive Progress.IsCode : Progress → Prop
  | done {v : Value} (code : v.IsCode) : IsCode (.done v)
  | within {opened : List OpenList} (code : ∀ l ∈ opened, OpenCode l) : IsCode (.within opened)

theorem OpenCode.close {opened : OpenList} (code : OpenCode opened) : opened.close.IsCode := by
  obtain ⟨place, located⟩ := Option.isSome_iff_exists.1 code.located
  unfold OpenList.close
  rw [located]
  refine .list (fun item member => ?_) place
  exact code.items item (List.mem_reverse.1 member)

theorem place_isCode {v : Value} (code : v.IsCode) {opened : List OpenList}
    (before : ∀ l ∈ opened, OpenCode l) : (place v opened).IsCode := by
  cases opened with
  | nil => exact .done code
  | cons innermost outer =>
    have old := before innermost List.mem_cons_self
    have new : OpenCode (innermost.push v) := by
      refine ⟨old.located, fun item member => ?_⟩
      rcases List.mem_cons.1 member with rfl | member
      · exact code
      · exact old.items item member
    refine .within fun l member => ?_
    rcases List.mem_cons.1 member with rfl | member
    · exact new
    · exact before l (List.mem_cons_of_mem _ member)

theorem take_isCode {opened : List OpenList} (before : ∀ l ∈ opened, OpenCode l) {token : Token}
    (located : token.loc.isSome = true) {progress : Progress}
    (taken : take opened token = .ok progress) : progress.IsCode := by
  obtain ⟨here, located⟩ := Option.isSome_iff_exists.1 located
  unfold take at taken
  rw [located] at taken
  split at taken
  · cases taken
    refine .within fun l member => ?_
    rcases List.mem_cons.1 member with rfl | member
    · exact ⟨rfl, nofun⟩
    · exact before l member
  · split at taken
    · cases taken
    · rename_i innermost outer
      cases taken
      have closed := (before innermost List.mem_cons_self).close
      exact place_isCode closed fun l member => before l (List.mem_cons_of_mem _ member)
  · cases taken
    exact place_isCode (.string _ here) before
  · cases read : Atom.read token.text (some here) with
    | error failure =>
      rw [read] at taken
      cases taken
    | ok v =>
      rw [read] at taken
      cases taken
      exact place_isCode ((Atom.read_reads read).isCode) before
  · cases taken

theorem take_error {opened : List OpenList} {token : Token} (located : token.loc.isSome = true)
    {e : Error} (failed : take opened token = .error (.error e)) : e.OfReading := by
  obtain ⟨here, located⟩ := Option.isSome_iff_exists.1 located
  unfold take at failed
  rw [located] at failed
  split at failed
  · cases failed
  · split at failed
    · cases failed
      exact .unreadable _ here
    · cases failed
  · cases failed
  · cases read : Atom.read token.text (some here) with
    | error failure =>
      rw [read] at failed
      cases failed
      exact absurd read (Atom.read_ne_error _ _ e)
    | ok v =>
      rw [read] at failed
      cases failed
  · cases failed
    exact .unreadable _ here

theorem atEnd_error {failure : Option Error} (ofReading : ∀ e, failure = some e → e.OfReading)
    {opened : List OpenList} (before : ∀ l ∈ opened, OpenCode l) {e : Error}
    (failed : atEnd failure opened = .failed (.error e)) : e.OfReading := by
  cases failure with
  | some =>
    cases failed
    exact ofReading e rfl
  | none =>
    cases opened with
    | nil => cases failed
    | cons innermost outer =>
      cases failed
      obtain ⟨place, located⟩ :=
        Option.isSome_iff_exists.1 (before innermost List.mem_cons_self).located
      rw [located]
      exact .unreadable _ place

/-- Whatever is read from tokens that have places is code, as long as open lists hold code only. -/
theorem resumeWithin_ofCode {depth : ℕ∞} {failure : Option Error} {opened : List OpenList}
    {tokens : List Token} (before : ∀ l ∈ opened, OpenCode l)
    (located : TokenStream.Located ⟨tokens, failure⟩) :
    (∀ forms, resumeWithin depth failure opened tokens = .ok forms →
        ∀ form ∈ forms, form.IsCode) ∧
      ∀ e, resumeWithin depth failure opened tokens = .error (.error e) → e.OfReading := by
  induction tokens generalizing opened with
  | nil =>
    rw [resumeWithin]
    split
    next f failed =>
      refine ⟨by simp, fun e same => ?_⟩
      cases same
      exact atEnd_error located.failure before failed
    next =>
      refine ⟨fun forms same => ?_, by simp⟩
      cases same
      simp
  | cons token rest ih =>
    have further : TokenStream.Located ⟨rest, failure⟩ :=
      ⟨fun next member => located.tokens next (List.mem_cons_of_mem _ member), located.failure⟩
    have here := located.tokens token List.mem_cons_self
    rw [resumeWithin]
    split
    · exact ⟨by simp, by simp⟩
    · cases taken : take opened token with
      | error f =>
        refine ⟨by simp, fun e same => ?_⟩
        cases same
        exact take_error here taken
      | ok progress =>
        cases take_isCode before here taken with
        | within code => exact ih code further
        | done code =>
          have others := @ih [] (by simp) further
          cases read : resumeWithin depth failure [] rest with
          | error f =>
            refine ⟨by simp [Except.map], fun e failed => ?_⟩
            cases failed
            exact others.2 e read
          | ok more =>
            refine ⟨fun forms same => ?_, by simp [Except.map]⟩
            cases same
            intro form member
            rcases List.mem_cons.1 member with rfl | member
            · exact code
            · exact others.1 more read form member

end Reader

theorem TokenStream.forms_ofCode {s : TokenStream} (located : s.Located) :
    (∀ forms, s.forms = .ok forms → ∀ form ∈ forms, form.IsCode) ∧
      ∀ e, s.forms = .error (.error e) → e.OfReading :=
  Reader.resumeWithin_ofCode (by simp) located

theorem Lexer.locate_located (file : Option String) (fault : Option ReadFault) (p : Position)
    (pieces : List Piece) : (locate file fault p pieces).Located := by
  fun_induction locate file fault p pieces with
  | case1 p =>
    refine ⟨nofun, fun e same => ?_⟩
    obtain ⟨f, _, rfl⟩ := Option.map_eq_some_iff.1 same
    exact .unreadable f _
  | case2 p text rest ih => exact ih
  | case3 p kind text rest further ih =>
    refine ⟨fun token member => ?_, ih.failure⟩
    rcases List.mem_cons.1 member with rfl | member
    · rfl
    · exact ih.tokens token member

theorem readProgram_isCode {source : String} {file : Option String} {forms : List Value}
    (read : readProgram source file = .ok forms) : (Value.ofForms forms file).IsCode := by
  rw [readProgram_eq] at read
  exact .program ((TokenStream.forms_ofCode (Lexer.locate_located file _ _ _)).1 forms read) _

theorem readProgram_error {source : String} {file : Option String} {e : Error}
    (failed : readProgram source file = .error (.error e)) : e.OfReading := by
  rw [readProgram_eq] at failed
  exact (TokenStream.forms_ofCode (Lexer.locate_located file _ _ _)).2 e failed

end ScopedLisp
