import Mathlib.Data.List.Sort
import Mathlib.Data.String.Basic
import ScopedLisp.Proofs.ValueOrigins

set_option autoImplicit false

namespace ScopedLisp

/-- No part of the value is a foreign object, so the language knows what all of it is. -/
def Value.IsNative (v : Value) : Prop :=
  ∀ part ∈ v.parts, ∀ kind text, part ≠ .foreign kind text

theorem Value.IsNative.child {v child : Value} (native : v.IsNative) (inside : child ∈ v.children) :
    child.IsNative :=
  fun part member => native part (mem_parts_of_child inside member)

theorem Value.IsNative.blame {v : Value} (native : v.IsNative) (cause : Cause)
    (loc : Option Location) : v.blame cause loc = .error ⟨cause, v.loc.or loc⟩ := by
  cases v with
  | foreign kind text => exact absurd rfl (native _ (self_mem_parts _) kind text)
  | _ => rfl

namespace Parameters

/-- Symbols that stand for one argument each. -/
def ArePlain (items : List Value) : Prop :=
  ∀ item ∈ items, ∃ name place, item = .symbol name place ∧ name ≠ "&rest"

/-- The error of the first item from the left, in a parameter list at `loc`, that is out of order:
it is no symbol, or it is the marker and no single name comes after it. -/
inductive Blamed (loc : Option Location) : List Value → Error → Prop
  | noSymbol {before : List Value} {item : Value} (plain : ArePlain before)
      (noSymbol : ∀ name place, item ≠ .symbol name place) (after : List Value) :
      Blamed loc (before ++ item :: after) ⟨.expectedSymbol item.kind, item.loc.or loc⟩
  | marker {before after : List Value} (plain : ArePlain before) (mark : Option Location)
      (notOne : after.length ≠ 1) :
      Blamed loc (before ++ .symbol "&rest" mark :: after)
        ⟨.malformedForm "lambda" "&rest must be followed by exactly one name", mark⟩
  | last {before : List Value} {item : Value} (plain : ArePlain before) (mark : Option Location)
      (noName : ∀ name place, item = .symbol name place → name = "&rest") :
      Blamed loc (before ++ [.symbol "&rest" mark, item])
        ⟨.expectedSymbol item.kind, item.loc.or mark⟩

/-- The error that a `lambda` form at `form` is refused for because of its first operand. -/
inductive Refused (form : Option Location) : Value → Error → Prop
  | noList {operand : Value} (noList : ∀ items loc, operand ≠ .list items loc) :
      Refused form operand
        ⟨.malformedForm "lambda" "parameter list must be a list", operand.loc.or form⟩
  | item {items : List Value} {loc : Option Location} {e : Error} (blamed : Blamed loc items e) :
      Refused form (.list items loc) e
  | repeated {items : List Value} {params : List Param} {names : List String}
      (written : Written items params) (loc : Option Location) (nonempty : names ≠ [])
      (sorted : names.Pairwise (· < ·))
      (exact : ∀ name, name ∈ names ↔ 1 < (params.map Param.name).count name) :
      Refused form (.list items loc)
        ⟨.malformedForm "lambda" ("duplicate parameter(s) " ++ ", ".intercalate names),
          loc.or form⟩

section Duplicates

theorem nodup_eraseDups (names : List String) : names.eraseDups.Nodup := by
  induction length : names.length using Nat.strong_induction_on generalizing names with
  | h n ih =>
    cases names with
    | nil => simp
    | cons name names =>
      have shorter : (names.filter fun other => !other == name).length < n := by
        have := List.length_filter_le (fun other => !other == name) names
        simp only [List.length_cons] at length
        omega
      rw [List.eraseDups_cons, List.nodup_cons]
      exact ⟨by simp, ih _ shorter _ rfl⟩

theorem mem_duplicates {names : List String} {name : String} :
    name ∈ duplicates names ↔ 1 < names.count name := by
  simp only [duplicates, List.mem_mergeSort, List.mem_eraseDups, List.mem_filter,
    decide_eq_true_eq, and_iff_right_iff_imp]
  intro repeated
  exact List.count_pos_iff.1 (by omega)

theorem sorted_duplicates (names : List String) : (duplicates names).Pairwise (· < ·) := by
  have before_iff (a b : String) : (!decide (b < a)) = true ↔ a ≤ b := by
    rw [Bool.not_eq_true', decide_eq_false_iff_not, not_lt]
  have ordered : (duplicates names).Pairwise fun a b => (!decide (b < a)) = true := by
    apply List.pairwise_mergeSort
    · intro a b c first second
      rw [before_iff] at first second ⊢
      exact le_trans first second
    · intro a b
      rw [Bool.or_eq_true, before_iff, before_iff]
      exact le_total a b
  have distinct : (duplicates names).Nodup :=
    (List.mergeSort_perm _ _).nodup_iff.2 (nodup_eraseDups _)
  refine (ordered.and distinct).imp fun {a b} both => ?_
  exact lt_of_le_of_ne ((before_iff a b).1 both.1) both.2

theorem eq_duplicates {names repeated : List String} (sorted : repeated.Pairwise (· < ·))
    (exact : ∀ name, name ∈ repeated ↔ 1 < names.count name) : repeated = duplicates names := by
  have same : repeated.Perm (duplicates names) := by
    refine (List.perm_ext_iff_of_nodup (sorted.imp ne_of_lt) ?_).2 fun name => ?_
    · exact (sorted_duplicates names).imp ne_of_lt
    · rw [exact, mem_duplicates]
  exact same.eq_of_pairwise' sorted (sorted_duplicates names)

end Duplicates

section Items

variable {loc : Option Location}

theorem parseItems_fixed {name : String} (place : Option Location) (items : List Value)
    (plain : name ≠ "&rest") :
    parseItems loc (.symbol name place :: items) =
      (parseItems loc items).map (⟨name, false, place⟩ :: ·) := by
  conv_lhs => unfold parseItems
  exact if_neg plain

theorem parseItems_noSymbol {item : Value} (after : List Value)
    (noSymbol : ∀ name place, item ≠ .symbol name place) :
    parseItems loc (item :: after) = .error (item.blame (.expectedSymbol item.kind) loc) := by
  cases item with
  | symbol name place => exact absurd rfl (noSymbol name place)
  | _ => rfl

theorem parseItems_marker (mark : Option Location) {after : List Value}
    (notOne : after.length ≠ 1) :
    parseItems loc (.symbol "&rest" mark :: after) =
      .error (.error ⟨.malformedForm "lambda" "&rest must be followed by exactly one name",
        mark⟩) := by
  match after with
  | [] => rfl
  | [item] => exact absurd rfl notOne
  | first :: second :: more => cases first <;> rfl

theorem parseItems_last {name : String} (mark place : Option Location) (plain : name ≠ "&rest") :
    parseItems loc [.symbol "&rest" mark, .symbol name place] = .ok [⟨name, true, place⟩] :=
  if_neg plain

theorem parseItems_noName {item : Value} (mark : Option Location)
    (noName : ∀ name place, item = .symbol name place → name = "&rest") :
    parseItems loc [.symbol "&rest" mark, item] =
      .error (item.blame (.expectedSymbol item.kind) mark) := by
  cases item with
  | symbol name place =>
    rw [noName name place rfl]
    rfl
  | _ => rfl

variable {items before : List Value} {params : List Param}

theorem parseItems_eq_ok_iff : parseItems loc items = .ok params ↔ Written items params := by
  refine ⟨written_of_parseItems, fun written => ?_⟩
  induction written with
  | nil => rfl
  | fixed plain _ ih =>
    rw [parseItems_fixed _ _ plain, ih]
    rfl
  | rest mark place plain => exact parseItems_last mark place plain

theorem parseItems_append {f : Fault} {after : List Value} (plain : ArePlain before)
    (failed : parseItems loc after = .error f) : parseItems loc (before ++ after) = .error f := by
  induction before with
  | nil => exact failed
  | cons item before ih =>
    obtain ⟨name, place, rfl, other⟩ := plain item List.mem_cons_self
    rw [List.cons_append, parseItems_fixed _ _ other,
      ih fun next member => plain next (List.mem_cons_of_mem _ member)]
    rfl

theorem ArePlain.cons {name : String} (other : name ≠ "&rest") (place : Option Location)
    (plain : ArePlain before) : ArePlain (.symbol name place :: before) := by
  intro item member
  rcases List.mem_cons.1 member with rfl | member
  · exact ⟨name, place, rfl, other⟩
  · exact plain item member

theorem Blamed.cons {name : String} {e : Error} (other : name ≠ "&rest") (place : Option Location)
    (blamed : Blamed loc items e) : Blamed loc (.symbol name place :: items) e := by
  cases blamed with
  | noSymbol plain noSymbol after => exact .noSymbol (plain.cons other place) noSymbol after
  | marker plain mark notOne => exact .marker (plain.cons other place) mark notOne
  | last plain mark noName => exact .last (plain.cons other place) mark noName

theorem blamed_of_parseItems {f : Fault} (native : ∀ item ∈ items, item.IsNative)
    (failed : parseItems loc items = .error f) : ∃ e, f = .error e ∧ Blamed loc items e := by
  have empty : ArePlain [] := nofun
  fun_induction parseItems loc items with
  | case1 => cases failed
  | case2 mark place =>
    cases failed
    refine ⟨_, rfl, .last empty mark ?_⟩
    rintro name place ⟨⟩
    rfl
  | case3 => cases failed
  | case4 mark item noSymbol =>
    cases failed
    refine ⟨_, (native item (by simp)).blame _ _, .last empty mark ?_⟩
    rintro name place rfl
    exact absurd rfl (noSymbol name place)
  | case5 mark items single several =>
    cases failed
    refine ⟨_, rfl, .marker empty mark ?_⟩
    intro one
    obtain ⟨item, rfl⟩ := List.length_eq_one_iff.1 one
    exact several item rfl
  | case6 name place items other ih =>
    cases further : parseItems loc items with
    | ok params =>
      rw [further] at failed
      cases failed
    | error g =>
      rw [further] at failed
      cases failed
      obtain ⟨e, rfl, blamed⟩ :=
        ih (fun item member => native item (List.mem_cons_of_mem _ member)) further
      exact ⟨e, rfl, blamed.cons other place⟩
  | case7 item after noSymbol =>
    cases failed
    exact ⟨_, (native item List.mem_cons_self).blame _ _, .noSymbol empty noSymbol after⟩

theorem parseItems_of_blamed {e : Error} (native : ∀ item ∈ items, item.IsNative)
    (blamed : Blamed loc items e) : parseItems loc items = .error (.error e) := by
  cases blamed with
  | @noSymbol before item plain noSymbol after =>
    rw [← (native item (by simp)).blame]
    exact parseItems_append plain (parseItems_noSymbol after noSymbol)
  | marker plain mark notOne => exact parseItems_append plain (parseItems_marker mark notOne)
  | @last before item plain mark noName =>
    rw [← (native item (by simp)).blame]
    exact parseItems_append plain (parseItems_noName mark noName)

end Items

section Operands

variable {items : List Value} {loc form : Option Location} {params : List Param}

theorem parse_of_noList {operand : Value} (noList : ∀ items loc, operand ≠ .list items loc) :
    parse operand form =
      .error (operand.blame (.malformedForm "lambda" "parameter list must be a list") form) := by
  cases operand with
  | list items loc => exact absurd rfl (noList items loc)
  | _ => rfl

theorem parse_of_parseItems_error {f : Fault} (failed : parseItems loc items = .error f) :
    parse (.list items loc) form = .error f := by
  simp only [parse, failed]

theorem parse_of_written (written : Written items params) :
    parse (.list items loc) form =
      if duplicates (params.map Param.name) = [] then .ok params
      else .error (.error ⟨.malformedForm "lambda" ("duplicate parameter(s) " ++
        ", ".intercalate (duplicates (params.map Param.name))), loc.or form⟩) := by
  simp only [parse, parseItems_eq_ok_iff.2 written, List.isEmpty_iff]

theorem duplicates_eq_nil_iff {names : List String} : duplicates names = [] ↔ names.Nodup := by
  refine ⟨nodup_of_duplicates_eq_nil, fun distinct => ?_⟩
  rw [List.eq_nil_iff_forall_not_mem]
  intro name member
  have few := List.nodup_iff_count_le_one.1 distinct name
  have many := mem_duplicates.1 member
  omega

theorem parse_eq_ok_iff {operand : Value} :
    parse operand form = .ok params ↔ ∃ items loc, operand = .list items loc ∧
      Written items params ∧ (params.map Param.name).Nodup := by
  constructor
  · intro success
    obtain ⟨items, loc, same, written⟩ := written_of_parse success
    exact ⟨items, loc, same, written, (parse_ok success).1⟩
  · rintro ⟨items, loc, rfl, written, distinct⟩
    rw [parse_of_written written, if_pos (duplicates_eq_nil_iff.2 distinct)]

theorem refused_of_parse {operand : Value} {f : Fault} (native : operand.IsNative)
    (failed : parse operand form = .error f) : ∃ e, f = .error e ∧ Refused form operand e := by
  by_cases isList : ∃ items loc, operand = .list items loc
  · obtain ⟨items, loc, rfl⟩ := isList
    cases parsed : parseItems loc items with
    | error g =>
      rw [parse_of_parseItems_error parsed] at failed
      cases failed
      obtain ⟨e, same, blamed⟩ := blamed_of_parseItems (fun item => native.child) parsed
      exact ⟨e, same, .item blamed⟩
    | ok params =>
      have written := parseItems_eq_ok_iff.1 parsed
      rw [parse_of_written written] at failed
      split at failed
      · cases failed
      · rename_i nonempty
        cases failed
        exact ⟨_, rfl, .repeated written loc nonempty (sorted_duplicates _) fun _ => mem_duplicates⟩
  · have noList : ∀ items loc, operand ≠ .list items loc :=
      fun items loc same => isList ⟨items, loc, same⟩
    rw [parse_of_noList noList, native.blame] at failed
    cases failed
    exact ⟨_, rfl, .noList noList⟩

theorem parse_of_refused {operand : Value} {e : Error} (native : operand.IsNative)
    (refused : Refused form operand e) : parse operand form = .error (.error e) := by
  cases refused with
  | noList noList => rw [parse_of_noList noList, native.blame]
  | item blamed =>
    exact parse_of_parseItems_error (parseItems_of_blamed (fun item => native.child) blamed)
  | repeated written loc nonempty sorted exact =>
    have all := eq_duplicates sorted exact
    rw [all] at nonempty ⊢
    rw [parse_of_written written, if_neg nonempty]

end Operands

end Parameters

/-- A parameter list is accepted exactly if it is a list of symbols other than the marker, of which
the last may have the marker before it, and all names are distinct; the parameters are then those
symbols, in order and at their places. What is refused is refused for the first of these faults that
it has: it is no list, an item is out of order, names occur more than once. -/
theorem parameter_grammar {operand : Value} (native : operand.IsNative) (form : Option Location) :
    (∀ params, Parameters.parse operand form = .ok params ↔
      ∃ items loc, operand = .list items loc ∧ Parameters.Written items params ∧
        (params.map Param.name).Nodup) ∧
    ∀ fault, Parameters.parse operand form = .error fault ↔
      ∃ e, fault = .error e ∧ Parameters.Refused form operand e := by
  refine ⟨fun params => Parameters.parse_eq_ok_iff,
    fun fault => ⟨Parameters.refused_of_parse native, ?_⟩⟩
  rintro ⟨e, rfl, refused⟩
  exact Parameters.parse_of_refused native refused

/-- Of three faults, the number is blamed: the marker at the end comes later, and the name that
occurs twice is not looked for. -/
theorem parameter_grammar_of_three_faults :
    let operand : Value := .list [.symbol "a" none, .symbol "a" none,
      .integer 7 (some ⟨none, 1, 14⟩), .symbol "&rest" none] (some ⟨none, 1, 9⟩)
    operand.IsNative ∧ Parameters.parse operand none =
      .error (.error ⟨.expectedSymbol "Integer", some ⟨none, 1, 14⟩⟩) := by
  intro operand
  have native : operand.IsNative := by
    rintro part member kind text rfl
    simp [operand, Value.parts, Value.partsOfAll] at member
  have plain : Parameters.ArePlain [.symbol "a" none, .symbol "a" none] := by
    simp [Parameters.ArePlain]
  have number : ∀ name place, Value.integer 7 (some ⟨none, 1, 14⟩) ≠ .symbol name place := by
    intro name place same
    cases same
  have refused : Parameters.Refused none operand ⟨.expectedSymbol "Integer", some ⟨none, 1, 14⟩⟩ :=
    .item (.noSymbol plain number [.symbol "&rest" none])
  exact ⟨native, ((parameter_grammar native none).2 _).2 ⟨_, rfl, refused⟩⟩

end ScopedLisp
