import ScopedLisp.Proofs.Lexing
import ScopedLisp.Proofs.Numeral
import ScopedLisp.Proofs.Spelling
import ScopedLisp.Value.Printer

set_option autoImplicit false

namespace ScopedLisp

/-- The text with a backslash before every backslash and every quote. -/
def Text.escape : List Char → List Char
  | [] => []
  | c :: rest => if c = '\\' ∨ c = '"' then '\\' :: c :: escape rest else c :: escape rest

namespace Value

mutual

/-- The text of a value as a program writes it: strings stand between quotes. -/
def written : Value → String
  | string s _ => "\"" ++ String.ofList (Text.escape s.toList) ++ "\""
  | list items _ => "(" ++ " ".intercalate (writtenAll items) ++ ")"
  | program forms _ => "\n".intercalate (writtenAll forms)
  | v => v.text

def writtenAll : List Value → List String
  | [] => []
  | v :: vs => v.written :: writtenAll vs

end

theorem writtenAll_eq_map (vs : List Value) : writtenAll vs = vs.map written := by
  induction vs with
  | nil => rfl
  | cons v vs ih => rw [writtenAll, ih, List.map_cons]

theorem written_eq_text {v : Value} (noStrings : ∀ s loc, .string s loc ∉ v.parts) :
    v.written = v.text := by
  induction v using induction_on_children with
  | ascend v ih =>
    have inside : v.children.map written = v.children.map text := by
      refine List.map_congr_left fun child below => ih child below fun s loc part => ?_
      exact noStrings s loc (mem_parts_of_child below part)
    cases v with
    | string s loc => exact absurd (self_mem_parts _) (noStrings s loc)
    | list items loc =>
      rw [written, text, writtenAll_eq_map, texts_eq_map, show items.map written = _ from inside]
      rfl
    | program forms loc =>
      rw [written, text, writtenAll_eq_map, texts_eq_map, show forms.map written = _ from inside]
      rfl
    | _ => rfl

end Value

theorem Lexer.inWord_of_all {text : List Char} (all : text.all (!isDelimiter ·) = true) :
    ∀ c ∈ text, isDelimiter c = false := by
  simpa using all

/-- A symbol's name that is read as that symbol: a word that stands for nothing else. -/
structure IsName (name : String) : Prop where
  nonempty : name ≠ ""
  inWord : ∀ c ∈ name.toList, Lexer.isDelimiter c = false
  notWhole : WholeNumeral.parse? name.toList = none
  notReal : RealNumeral.parse? name.toList = none
  notTrue : name ≠ "true"
  notFalse : name ≠ "false"

/-- The forms that have a written form of their own. -/
inductive Value.Writable : Value → Prop
  | integer {n : Int} (inRange : Integer.inRange n = true) (loc : Option Location) :
      Writable (.integer n loc)
  | bool (b : Bool) (loc : Option Location) : Writable (.bool b loc)
  | string (s : String) (loc : Option Location) : Writable (.string s loc)
  | symbol {name : String} (isName : IsName name) (loc : Option Location) :
      Writable (.symbol name loc)
  | list {items : List Value} (writable : ∀ item ∈ items, Writable item) (loc : Option Location) :
      Writable (.list items loc)

theorem Value.allSame_append {vs vs' ws ws' : List Value} (first : allSame vs ws = true)
    (second : allSame vs' ws' = true) : allSame (vs ++ vs') (ws ++ ws') = true := by
  induction vs generalizing ws with
  | nil =>
    cases ws with
    | nil => exact second
    | cons w ws => cases first
  | cons v vs ih =>
    cases ws with
    | nil => cases first
    | cons w ws =>
      simp only [allSame, Bool.and_eq_true] at first
      simp only [List.cons_append, allSame, Bool.and_eq_true]
      exact ⟨first.1, ih first.2⟩

namespace Lexer

/-- Wherever the text stands, its tokens spell forms that are the same as these, if no word goes on
after it. -/
def ReadsBack (text : List Char) (forms : List Value) : Prop :=
  ∀ file p rest, Stops rest → ∃ tokens again, Spells tokens again ∧
    Value.allSame again forms = true ∧
    scan file p (text ++ rest) = (scan file (p.advanceAll text) rest).prepend tokens

namespace ReadsBack

theorem nil : ReadsBack [] [] :=
  fun _ _ _ _ => ⟨[], [], .nil, rfl, rfl⟩

theorem blank_between {first second : List Char} {forms further : List Value} {c : Char}
    (before : ReadsBack first forms) (blank : Text.isBlank c = true)
    (after : ReadsBack second further) : ReadsBack (first ++ c :: second) (forms ++ further) := by
  intro file p rest stops
  have between : Stops (c :: second ++ rest) := by
    intro d front
    cases front
    simp only [isDelimiter, blank, Bool.true_or]
  obtain ⟨tokens, again, spelled, same, scanned⟩ := before file p _ between
  obtain ⟨tokens', again', spelled', same', scanned'⟩ :=
    after file ((p.advanceAll first).advance c) rest stops
  refine ⟨tokens ++ tokens', again ++ again', spelled.append spelled',
    Value.allSame_append same same', ?_⟩
  rw [List.append_assoc, scanned, List.cons_append, scan_blank blank, scanned',
    ← TokenStream.prepend_append, Position.advanceAll_append]
  rfl

/-- Texts with white space between them read back as all of their forms. -/
theorem intercalate {c : Char} (blank : Text.isBlank c = true) {text : Value → List Char}
    {vs : List Value} (each : ∀ v ∈ vs, ReadsBack (text v) [v]) :
    ReadsBack ([c].intercalate (vs.map text)) vs := by
  induction vs with
  | nil => exact nil
  | cons v vs ih =>
    have first := each v List.mem_cons_self
    have others := ih fun w member => each w (List.mem_cons_of_mem v member)
    cases vs with
    | nil => simpa using first
    | cons w vs =>
      have whole := first.blank_between blank others
      simpa [List.intercalate_cons_cons] using whole

theorem parenthesized {text : List Char} {items : List Value} (inside : ReadsBack text items)
    (loc : Option Location) : ReadsBack ('(' :: (text ++ [')'])) [.list items loc] := by
  intro file p rest stops
  have closed : Stops (')' :: rest) := by
    intro d front
    cases front
    decide
  obtain ⟨tokens, again, spelled, same, scanned⟩ := inside file (p.advance '(') _ closed
  let first : Token := ⟨.opening, "(", some (.ofPosition file p)⟩
  let last : Token := ⟨.closing, ")", some (.ofPosition file ((p.advance '(').advanceAll text))⟩
  refine ⟨first :: (tokens ++ [last]), [.list again first.loc], ?_, ?_, ?_⟩
  · rw [Spells, Value.marksOfAll_singleton]
    exact .cons (.opening rfl) (List.rel_append spelled (.cons (.closing rfl) .nil))
  · simpa [Value.allSame, Value.same] using same
  · have position : p.advanceAll ('(' :: (text ++ [')'])) =
        ((p.advance '(').advanceAll text).advance ')' := by
      rw [Position.advanceAll_cons, Position.advanceAll_append]
      rfl
    calc scan file p ('(' :: (text ++ [')']) ++ rest)
        = (scan file (p.advance '(') (text ++ ')' :: rest)).prepend [first] := by
          rw [List.cons_append, List.append_assoc]
          exact scan_of_piece (nextPiece_opening _)
      _ = ((scan file ((p.advance '(').advanceAll text) (')' :: rest)).prepend tokens).prepend
            [first] := by rw [scanned]
      _ = (scan file (((p.advance '(').advanceAll text).advance ')') rest).prepend
            (first :: (tokens ++ [last])) := by
          rw [scan_of_piece (nextPiece_closing rest), ← TokenStream.prepend_append,
            ← TokenStream.prepend_append]
          rfl
      _ = _ := by rw [position]

/-- A word reads back as what it stands for, wherever that is read. -/
theorem word {text : List Char} {v : Value} (nonempty : text ≠ [])
    (inWord : ∀ c ∈ text, isDelimiter c = false)
    (meaning : ∀ loc, ∃ again, Atom.read (String.ofList text) loc = .ok again ∧
      again.marks = [.leaf again] ∧ again.same v = true) : ReadsBack text [v] := by
  intro file p rest stops
  obtain ⟨again, read, single, same⟩ := meaning (some (.ofPosition file p))
  refine ⟨[⟨.symbol, String.ofList text, some (.ofPosition file p)⟩], [again], ?_, ?_, ?_⟩
  · rw [Spells, Value.marksOfAll_singleton, single]
    exact .cons (.word rfl read) .nil
  · simpa [Value.allSame] using same
  · exact scan_word nonempty inWord stops

/-- Quotes and backslashes end no string if a backslash stands before them. -/
theorem splitString_escape (text rest : List Char) :
    splitString (Text.escape text ++ '"' :: rest) = some (Text.escape text ++ ['"'], rest) := by
  induction text with
  | nil => rfl
  | cons c text ih =>
    by_cases special : c = '\\' ∨ c = '"'
    · have notEnd : c ≠ '\n' := by rcases special with rfl | rfl <;> decide
      simp only [Text.escape, special, ↓reduceIte, List.cons_append, splitString, notEnd, ih,
        Option.map_some]
    · have plain := not_or.1 special
      simp only [Text.escape, special, ↓reduceIte, List.cons_append,
        splitString_plain plain.2 plain.1, ih, Option.map_some]

theorem unescape_escape (text : List Char) : Atom.unescape (Text.escape text) = text := by
  induction text with
  | nil => rfl
  | cons c text ih =>
    by_cases special : c = '\\' ∨ c = '"'
    · simp only [Text.escape, special, ↓reduceIte, Atom.unescape, ih]
    · have plain : c ≠ '\\' := (not_or.1 special).1
      simp only [Text.escape, special, ↓reduceIte]
      rw [Atom.unescape, ih]
      exact fun _ _ backslash _ => plain backslash

theorem quoted (s : String) (loc : Option Location) :
    ReadsBack ('"' :: (Text.escape s.toList ++ ['"'])) [.string s loc] := by
  intro file p rest stops
  let text := '"' :: (Text.escape s.toList ++ ['"'])
  let token : Token := ⟨.string, String.ofList text, some (.ofPosition file p)⟩
  have contents : Atom.stringContents token.text = s := by
    simp [Atom.stringContents, token, text, unescape_escape]
  refine ⟨[token], [.string s token.loc], ?_, ?_, ?_⟩
  · rw [Spells, Value.marksOfAll_singleton, ← contents]
    exact .cons (.string rfl) .nil
  · simp [Value.allSame, Value.same]
  · have cut := nextPiece_string (splitString_escape s.toList rest)
    rw [List.cons_append, List.append_assoc]
    exact scan_of_piece cut

end ReadsBack

end Lexer

theorem Value.Writable.readsBack {v : Value} (writable : v.Writable) :
    Lexer.ReadsBack v.written.toList [v] := by
  induction writable with
  | @integer n inRange loc =>
    refine .word (Integer.toString_ne_empty n) (Integer.inWord_toString n) fun place => ?_
    rw [String.ofList_toList]
    exact ⟨_, Atom.read_toString inRange place, rfl, by simp [same]⟩
  | bool b loc =>
    cases b with
    | true =>
      show Lexer.ReadsBack "true".toList _
      exact .word (by decide) (Lexer.inWord_of_all (by decide)) fun place =>
        ⟨.bool true place, by rfl, rfl, rfl⟩
    | false =>
      show Lexer.ReadsBack "false".toList _
      exact .word (by decide) (Lexer.inWord_of_all (by decide)) fun place =>
        ⟨.bool false place, by rfl, rfl, rfl⟩
  | string s loc =>
    have shape : (Value.string s loc).written.toList =
        '"' :: (Text.escape s.toList ++ ['"']) := by
      simp [written]
    rw [shape]
    exact .quoted s loc
  | @symbol name isName loc =>
    have nonempty : name.toList ≠ [] := by simpa using isName.nonempty
    refine .word nonempty isName.inWord fun place => ?_
    have read : Atom.read name place = .ok (.symbol name place) := by
      simp only [Atom.read, isName.notWhole, isName.notReal, isName.notTrue, isName.notFalse,
        ↓reduceIte]
    rw [String.ofList_toList]
    exact ⟨_, read, rfl, by simp [same]⟩
  | @list items writable loc ih =>
    have shape : (Value.list items loc).written.toList =
        '(' :: ([' '].intercalate (items.map fun item => item.written.toList) ++ [')']) := by
      simp [written, writtenAll_eq_map, String.toList_intercalate, Function.comp_def]
    rw [shape]
    exact .parenthesized (.intercalate (by decide) ih) loc

/-- Forms that are written one a line are read as the same forms, whatever text they are said to be
from. Where there are no strings, what is written is the text of the forms as a program. -/
theorem written_reads_back {forms : List Value} (writable : ∀ form ∈ forms, form.Writable)
    (loc : Option Location) (file : Option String) :
    let program := Value.program forms loc
    (∃ again, readProgram program.written file = .ok again ∧
      (Value.ofForms again file).same program = true) ∧
      ((∀ s place, .string s place ∉ program.parts) → program.written = program.text) := by
  intro program
  have shape : program.written.toList = ['\n'].intercalate (forms.map (·.written.toList)) := by
    simp [program, Value.written, Value.writtenAll_eq_map, String.toList_intercalate,
      Function.comp_def]
  have readsBack : Lexer.ReadsBack program.written.toList forms := by
    rw [shape]
    exact .intercalate (by decide) fun form member => (writable form member).readsBack
  obtain ⟨tokens, again, spelled, same, scanned⟩ := readsBack file .start [] nofun
  refine ⟨⟨again, ?_, same⟩, Value.written_eq_text⟩
  have stream : TokenStream.ofSource program.written file = ⟨tokens, none⟩ := by
    rw [Lexer.ofSource_eq_scan, ← List.append_nil program.written.toList, scanned, Lexer.scan_nil]
    exact congrArg (TokenStream.mk · none) (List.append_nil tokens)
  rw [readProgram_eq_ok_iff, stream]
  exact ⟨rfl, spelled⟩

/-- The string has a quote, a backslash, the end of a line, and what would be a comment and the start
of a list outside it. -/
theorem written_reads_back_of_escapes :
    let forms : List Value :=
      [.list [.symbol "-x" none, .string "\"\\\n;(" none, .list [] none] none,
        .integer (-170141183460469231731687303715884105728) none]
    (Value.program forms none).written =
        "(-x \"\\\"\\\\\n;(\" ())\n-170141183460469231731687303715884105728" ∧
      ∃ again, readProgram (Value.program forms none).written none = .ok again ∧
        (Value.ofForms again none).same (.program forms none) = true := by
  intro forms
  have isName : IsName "-x" :=
    ⟨by decide, Lexer.inWord_of_all (by decide), by decide, by decide, by decide, by decide⟩
  have writable : ∀ form ∈ forms, form.Writable := by
    intro form member
    rcases List.mem_cons.1 member with rfl | member
    · refine .list (fun item inside => ?_) none
      simp only [List.mem_cons, List.not_mem_nil, or_false] at inside
      rcases inside with rfl | rfl | rfl
      · exact .symbol isName none
      · exact .string _ none
      · exact .list (by simp) none
    · rw [List.mem_singleton.1 member]
      exact .integer (by decide) none
  exact ⟨by rfl, (written_reads_back writable none none).1⟩

end ScopedLisp
