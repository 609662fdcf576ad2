import Mathlib.Data.Nat.Digits.Defs
import ScopedLisp.Proofs.ExactTotals
import ScopedLisp.Proofs.Numeral
import ScopedLisp.Proofs.Tiling

set_option autoImplicit false

namespace ScopedLisp

namespace Text

/-- A decimal digit of some script. -/
def isDecimal (c : Char) : Bool :=
  (digitValue? c).isSome

/-- What a digit counts. -/
def decimalValue (c : Char) : Nat :=
  (digitValue? c).getD 0

/-- One digit or more, and nothing else. -/
structure IsDigits (text : List Char) : Prop where
  nonempty : text ≠ []
  decimal : ∀ c ∈ text, isDecimal c = true

/-- The number that digits stand for by their positions, the last one counting ones. -/
def positional (digits : List Char) : Nat :=
  Nat.ofDigits 10 (digits.map decimalValue).reverse

end Text

open Text

/-- An optional sign, and the factor that it stands for. -/
inductive IsSign : List Char → Int → Prop
  | absent : IsSign [] 1
  | plus : IsSign ['+'] 1
  | minus : IsSign ['-'] (-1)

/-- An optional sign and digits stand for an integer. -/
inductive IsWhole : List Char → Int → Prop
  | signed {sign digits : List Char} {factor : Int} (isSign : IsSign sign factor)
      (isDigits : IsDigits digits) : IsWhole (sign ++ digits) (factor * positional digits)

/-- Digits, which may have a point among them, before them or after them. -/
inductive IsMantissa : List Char → Prop
  | whole {digits : List Char} (isDigits : IsDigits digits) : IsMantissa digits
  | point {digits fraction : List Char} (isDigits : IsDigits digits)
      (decimal : ∀ c ∈ fraction, isDecimal c = true) : IsMantissa (digits ++ '.' :: fraction)
  | fraction {fraction : List Char} (isDigits : IsDigits fraction) :
      IsMantissa ('.' :: fraction)

/-- An optional power of ten: a mark, an optional sign and digits. -/
inductive IsPower : List Char → Prop
  | absent : IsPower []
  | present {mark : Char} {sign digits : List Char} {factor : Int}
      (isMark : mark = 'e' ∨ mark = 'E') (isSign : IsSign sign factor)
      (isDigits : IsDigits digits) : IsPower (mark :: (sign ++ digits))

/-- A numeral that may have a point and a power of ten. -/
inductive IsReal : List Char → Prop
  | signed {sign mantissa power : List Char} {factor : Int} (isSign : IsSign sign factor)
      (isMantissa : IsMantissa mantissa) (isPower : IsPower power) :
      IsReal (sign ++ (mantissa ++ power))

namespace Text

theorem mapM_of_decimal {text : List Char} (decimal : ∀ c ∈ text, isDecimal c = true) :
    text.mapM digitValue? = some (text.map decimalValue) := by
  induction text with
  | nil => rfl
  | cons c text ih =>
    obtain ⟨value, digit⟩ := Option.isSome_iff_exists.1 (decimal c List.mem_cons_self)
    have here : decimalValue c = value := by rw [decimalValue, digit, Option.getD_some]
    rw [List.mapM_cons, ih fun d member => decimal d (List.mem_cons_of_mem c member), digit,
      List.map_cons, here]
    rfl

theorem decimal_of_mapM {text : List Char} {values : List Nat}
    (found : text.mapM digitValue? = some values) : ∀ c ∈ text, isDecimal c = true := by
  induction text generalizing values with
  | nil => nofun
  | cons c text ih =>
    rw [List.mapM_cons] at found
    obtain ⟨value, digit, found⟩ := Option.bind_eq_some_iff.1 found
    obtain ⟨rest, further, _⟩ := Option.bind_eq_some_iff.1 found
    intro d member
    rcases List.mem_cons.1 member with rfl | member
    · rw [isDecimal, digit, Option.isSome_some]
    · exact ih further d member

theorem digits?_eq_some_iff {text : List Char} {values : List Nat} :
    digits? text = some values ↔ IsDigits text ∧ values = text.map decimalValue := by
  unfold digits?
  constructor
  · intro found
    split at found
    · cases found
    · rename_i nonempty
      have decimal := decimal_of_mapM found
      rw [mapM_of_decimal decimal] at found
      exact ⟨⟨by simpa using nonempty, decimal⟩, (Option.some.inj found).symm⟩
  · rintro ⟨isDigits, rfl⟩
    rw [if_neg (by simpa using isDigits.nonempty), mapM_of_decimal isDigits.decimal]

theorem digits?_isSome_iff {text : List Char} : (digits? text).isSome = true ↔ IsDigits text := by
  simp only [Option.isSome_iff_exists, digits?_eq_some_iff, exists_and_left, exists_eq, and_true]

theorem positional_eq (digits : List Char) :
    positional digits = ofDigits (digits.map decimalValue) := by
  rw [positional, Nat.ofDigits_eq_foldr, List.foldr_reverse, ofDigits]
  congr 1
  funext value digit
  exact Nat.add_comm digit (10 * value)

theorem ne_of_decimal {c d : Char} (decimal : isDecimal c = true) (other : isDecimal d = false) :
    c ≠ d := by
  rintro rfl
  rw [decimal] at other
  cases other

theorem IsDigits.head {digits : List Char} (isDigits : IsDigits digits) :
    ∀ c ∈ digits.head?, isDecimal c = true :=
  fun c front => isDigits.decimal c (List.mem_of_mem_head? front)

end Text

section Sign

theorem exists_sign (text : List Char) :
    ∃ sign factor, IsSign sign factor ∧ text = sign ++ (splitSign text).2 ∧
      (splitSign text).1 = decide (factor < 0) := by
  unfold splitSign
  split
  · exact ⟨['+'], 1, .plus, rfl, rfl⟩
  · exact ⟨['-'], -1, .minus, rfl, rfl⟩
  · exact ⟨[], 1, .absent, rfl, rfl⟩

theorem splitSign_append {sign rest : List Char} {factor : Int} (isSign : IsSign sign factor)
    (unsigned : ∀ c ∈ rest.head?, c ≠ '+' ∧ c ≠ '-') :
    splitSign (sign ++ rest) = (decide (factor < 0), rest) := by
  cases isSign with
  | plus | minus => rfl
  | absent =>
    rw [List.nil_append]
    unfold splitSign
    split
    · exact absurd rfl (unsigned '+' rfl).1
    · exact absurd rfl (unsigned '-' rfl).2
    · rfl

theorem unsigned_of_decimal {text : List Char} (decimal : ∀ c ∈ text.head?, isDecimal c = true) :
    ∀ c ∈ text.head?, c ≠ '+' ∧ c ≠ '-' :=
  fun c front => ⟨ne_of_decimal (decimal c front) (by decide),
    ne_of_decimal (decimal c front) (by decide)⟩

end Sign

namespace WholeNumeral

theorem parse?_eq_map (text : List Char) :
    parse? text =
      (digits? (splitSign text).2).map fun digits => ⟨(splitSign text).1, digits⟩ := rfl

theorem parse?_eq_some_iff {text : List Char} {numeral : WholeNumeral} :
    parse? text = some numeral ↔ ∃ sign factor digits, text = sign ++ digits ∧
      IsSign sign factor ∧ IsDigits digits ∧
      numeral = ⟨decide (factor < 0), digits.map decimalValue⟩ := by
  constructor
  · intro parsed
    rw [parse?_eq_map] at parsed
    obtain ⟨values, found, rfl⟩ := Option.map_eq_some_iff.1 parsed
    obtain ⟨isDigits, rfl⟩ := digits?_eq_some_iff.1 found
    obtain ⟨sign, factor, isSign, whole, negative⟩ := exists_sign text
    exact ⟨sign, factor, _, whole, isSign, isDigits, by rw [negative]⟩
  · rintro ⟨sign, factor, digits, rfl, isSign, isDigits, rfl⟩
    have split := splitSign_append isSign (unsigned_of_decimal isDigits.head)
    have found := digits?_eq_some_iff.2 ⟨isDigits, rfl⟩
    rw [parse?_eq_map, split, found, Option.map_some]

theorem value_mk {sign : List Char} {factor : Int} (isSign : IsSign sign factor)
    (digits : List Char) :
    value ⟨decide (factor < 0), digits.map decimalValue⟩ = factor * positional digits := by
  rw [positional_eq]
  cases isSign <;> simp [value]

theorem isWhole_iff {text : List Char} {n : Int} :
    IsWhole text n ↔ ∃ numeral, parse? text = some numeral ∧ numeral.value = n := by
  constructor
  · rintro ⟨isSign, isDigits⟩
    exact ⟨_, parse?_eq_some_iff.2 ⟨_, _, _, rfl, isSign, isDigits, rfl⟩, value_mk isSign _⟩
  · rintro ⟨numeral, parsed, rfl⟩
    obtain ⟨sign, factor, digits, rfl, isSign, isDigits, rfl⟩ := parse?_eq_some_iff.1 parsed
    rw [value_mk isSign]
    exact .signed isSign isDigits

theorem parse?_eq_none_iff {text : List Char} : parse? text = none ↔ ∀ n, ¬ IsWhole text n := by
  simp only [isWhole_iff, Option.eq_none_iff_forall_not_mem, Option.mem_def]
  grind

theorem length_digits_le {text : List Char} {numeral : WholeNumeral}
    (parsed : parse? text = some numeral) :
    numeral.digits.length ≤ text.countP isDecimal := by
  obtain ⟨sign, factor, digits, rfl, isSign, isDigits, rfl⟩ := parse?_eq_some_iff.1 parsed
  have all : digits.countP isDecimal = digits.length := List.countP_eq_length.2 isDigits.decimal
  rw [List.length_map, List.countP_append, all]
  omega

end WholeNumeral

namespace RealNumeral

theorem isSome_parseMantissa? {text : List Char} (parsed : (parseMantissa? text).isSome = true) :
    IsMantissa text := by
  have whole := List.takeWhile_append_dropWhile (p := (· ≠ '.')) (l := text)
  have ends := Lexer.dropWhile_ends (· ≠ '.') text
  unfold parseMantissa? at parsed
  split at parsed
  · rename_i ended
    rw [Option.isSome_map, digits?_isSome_iff] at parsed
    rw [ended, List.append_nil] at whole
    rw [whole] at parsed
    exact .whole parsed
  · rename_i c fraction rest
    rw [Option.isSome_map, digits?_isSome_iff] at parsed
    rw [rest] at ends
    have point : c = '.' := by simpa using ends c rfl
    have decimal : ∀ d ∈ fraction, isDecimal d = true :=
      fun d member => parsed.decimal d (List.mem_append_right _ member)
    rw [← whole, rest, point]
    -- Only both sides together must have a digit, so there may be none before the point.
    by_cases front : text.takeWhile (· ≠ '.') = []
    · rw [front, List.nil_append] at parsed ⊢
      exact .fraction parsed
    · refine .point ⟨front, fun d member => ?_⟩ decimal
      exact parsed.decimal d (List.mem_append_left _ member)

theorem parseMantissa?_of_digits {digits : List Char} (isDigits : IsDigits digits) :
    (parseMantissa? digits).isSome = true := by
  have inside : ∀ c ∈ digits, decide (c ≠ '.') = true := fun c member =>
    decide_eq_true (ne_of_decimal (isDigits.decimal c member) (by decide))
  have ends : ∀ c ∈ ([] : List Char).head?, decide (c ≠ '.') = false := nofun
  obtain ⟨taken, left⟩ := Lexer.span_append inside ends
  rw [List.append_nil] at taken left
  simp only [parseMantissa?, taken, left, Option.isSome_map, digits?_isSome_iff]
  exact isDigits

theorem parseMantissa?_of_point (digits fraction : List Char)
    (isDigits : IsDigits (digits ++ fraction)) :
    (parseMantissa? (digits ++ '.' :: fraction)).isSome = true := by
  have inside : ∀ c ∈ digits, decide (c ≠ '.') = true := fun c member =>
    decide_eq_true (ne_of_decimal (isDigits.decimal c (List.mem_append_left _ member)) (by decide))
  have ends : ∀ c ∈ ('.' :: fraction).head?, decide (c ≠ '.') = false := by
    rintro c ⟨⟩
    rfl
  obtain ⟨taken, left⟩ := Lexer.span_append inside ends
  simp only [parseMantissa?, taken, left, Option.isSome_map, digits?_isSome_iff]
  exact isDigits

theorem parseMantissa?_of_isMantissa {text : List Char} (isMantissa : IsMantissa text) :
    (parseMantissa? text).isSome = true := by
  cases isMantissa with
  | whole isDigits => exact parseMantissa?_of_digits isDigits
  | @point digits fraction isDigits decimal =>
    refine parseMantissa?_of_point digits fraction ⟨by simp [isDigits.nonempty], fun c member => ?_⟩
    rcases List.mem_append.1 member with whole | behind
    · exact isDigits.decimal c whole
    · exact decimal c behind
  | @fraction fraction isDigits => exact parseMantissa?_of_point [] fraction isDigits

theorem decimal_or_point {mantissa : List Char} (isMantissa : IsMantissa mantissa) :
    ∀ c ∈ mantissa, isDecimal c = true ∨ c = '.' := by
  intro c member
  cases isMantissa with
  | whole isDigits => exact .inl (isDigits.decimal c member)
  | point isDigits decimal =>
    rcases List.mem_append.1 member with whole | behind
    · exact .inl (isDigits.decimal c whole)
    · rcases List.mem_cons.1 behind with point | behind
      · exact .inr point
      · exact .inl (decimal c behind)
  | fraction isDigits =>
    rcases List.mem_cons.1 member with point | behind
    · exact .inr point
    · exact .inl (isDigits.decimal c behind)

theorem mantissa_ne_nil {mantissa : List Char} (isMantissa : IsMantissa mantissa) :
    mantissa ≠ [] := by
  cases isMantissa with
  | whole isDigits => exact isDigits.nonempty
  | point => simp
  | fraction => simp

theorem isMark_iff {c : Char} : isMark c = true ↔ c = 'e' ∨ c = 'E' := by
  simp [isMark]

theorem parsePower?_isSome_iff {text : List Char} (marked : ∀ c ∈ text.head?, isMark c = true) :
    (parsePower? text).isSome = true ↔ IsPower text := by
  cases text with
  | nil => exact ⟨fun _ => .absent, fun _ => rfl⟩
  | cons mark power =>
    rw [parsePower?, Option.isSome_map, Option.isSome_iff_exists]
    constructor
    · rintro ⟨numeral, parsed⟩
      obtain ⟨sign, factor, digits, rfl, isSign, isDigits, _⟩ :=
        WholeNumeral.parse?_eq_some_iff.1 parsed
      exact .present (isMark_iff.1 (marked mark rfl)) isSign isDigits
    · rintro (_ | ⟨_, isSign, isDigits⟩)
      exact ⟨_, WholeNumeral.parse?_eq_some_iff.2 ⟨_, _, _, rfl, isSign, isDigits, rfl⟩⟩

theorem isSome_parse? (text : List Char) :
    (parse? text).isSome =
      ((parseMantissa? ((splitSign text).2.takeWhile (!isMark ·))).isSome &&
        (parsePower? ((splitSign text).2.dropWhile (!isMark ·))).isSome) := by
  unfold parse?
  cases splitSign text with
  | mk negative rest =>
    dsimp only
    cases parseMantissa? (rest.takeWhile (!isMark ·)) <;>
      cases parsePower? (rest.dropWhile (!isMark ·)) <;> rfl

theorem isReal_iff {text : List Char} : IsReal text ↔ (parse? text).isSome = true := by
  rw [isSome_parse?, Bool.and_eq_true]
  constructor
  · rintro @⟨sign, mantissa, power, factor, isSign, isMantissa, isPower⟩
    have unmarked : ∀ c ∈ mantissa, (!isMark c) = true := by
      intro c member
      rcases decimal_or_point isMantissa c member with decimal | rfl
      · simp [isMark, ne_of_decimal decimal (d := 'e') (by decide),
          ne_of_decimal decimal (d := 'E') (by decide)]
      · decide
    have marked : ∀ c ∈ power.head?, isMark c = true := by
      cases isPower with
      | absent => nofun
      | present mark =>
        rintro c ⟨⟩
        exact isMark_iff.2 mark
    have unsigned : ∀ c ∈ (mantissa ++ power).head?, c ≠ '+' ∧ c ≠ '-' := by
      intro c front
      rw [List.head?_append_of_ne_nil _ (mantissa_ne_nil isMantissa)] at front
      rcases decimal_or_point isMantissa c (List.mem_of_mem_head? front) with decimal | rfl
      · exact ⟨ne_of_decimal decimal (by decide), ne_of_decimal decimal (by decide)⟩
      · decide
    have ends : ∀ c ∈ power.head?, (!isMark c) = false := by
      intro c front
      rw [marked c front]
      rfl
    obtain ⟨taken, left⟩ := Lexer.span_append unmarked ends
    rw [splitSign_append isSign unsigned, taken, left, parsePower?_isSome_iff marked]
    exact ⟨parseMantissa?_of_isMantissa isMantissa, isPower⟩
  · rintro ⟨mantissa, power⟩
    obtain ⟨sign, factor, isSign, whole, _⟩ := exists_sign text
    have marked : ∀ c ∈ ((splitSign text).2.dropWhile (!isMark ·)).head?, isMark c = true := by
      intro c front
      simpa using Lexer.dropWhile_ends _ _ c front
    rw [whole, ← List.takeWhile_append_dropWhile (p := (!isMark ·)) (l := (splitSign text).2)]
    exact .signed isSign (isSome_parseMantissa? mantissa) ((parsePower?_isSome_iff marked).1 power)

end RealNumeral

namespace Atom

variable {word : String} (loc : Option Location)

theorem read_of_isWhole {n : Int} (whole : IsWhole word.toList n)
    (few : word.toList.countP isDecimal ≤ 4300) :
    ∃ x, read word loc =
      .ok (if Integer.inRange n = true then .integer n loc else .float x loc) := by
  obtain ⟨numeral, parsed, rfl⟩ := WholeNumeral.isWhole_iff.1 whole
  have short : ¬ WholeNumeral.digitLimit < numeral.digits.length :=
    Nat.not_lt.2 (Nat.le_trans (WholeNumeral.length_digits_le parsed) few)
  refine ⟨numeral.toReal.toFloat, ?_⟩
  simp only [read, parsed, short, ↓reduceIte]
  split <;> rfl

theorem read_of_isReal (notWhole : ∀ n, ¬ IsWhole word.toList n) (real : IsReal word.toList) :
    ∃ x, read word loc = .ok (.float x loc) := by
  obtain ⟨numeral, parsed⟩ := Option.isSome_iff_exists.1 (RealNumeral.isReal_iff.1 real)
  refine ⟨numeral.toFloat, ?_⟩
  simp only [read, WholeNumeral.parse?_eq_none_iff.2 notWhole, parsed]

theorem read_of_no_numeral (notWhole : ∀ n, ¬ IsWhole word.toList n)
    (notReal : ¬ IsReal word.toList) :
    read word loc = .ok (if word = "true" then .bool true loc
      else if word = "false" then .bool false loc else .symbol word loc) := by
  have unparsed : RealNumeral.parse? word.toList = none := by
    rw [RealNumeral.isReal_iff] at notReal
    simpa using notReal
  simp only [read, WholeNumeral.parse?_eq_none_iff.2 notWhole, unparsed]
  split
  · rfl
  · split <;> rfl

/-- What a word stands for by the grammar. -/
inductive Means (word : String) (loc : Option Location) : Value → Prop
  | integer {n : Int} (whole : IsWhole word.toList n) (inRange : Integer.inRange n = true) :
      Means word loc (.integer n loc)
  | large {n : Int} (x : Float) (whole : IsWhole word.toList n)
      (outside : ¬ Integer.inRange n = true) : Means word loc (.float x loc)
  | real (x : Float) (notWhole : ∀ n, ¬ IsWhole word.toList n) (real : IsReal word.toList) :
      Means word loc (.float x loc)
  | bool {b : Bool} (spelled : word = if b then "true" else "false") : Means word loc (.bool b loc)
  | symbol (notWhole : ∀ n, ¬ IsWhole word.toList n) (notReal : ¬ IsReal word.toList)
      (notTrue : word ≠ "true") (notFalse : word ≠ "false") : Means word loc (.symbol word loc)

theorem Means.loc_eq {v : Value} (means : Means word loc v) : v.loc = loc := by
  cases means <;> rfl

theorem exists_means (few : word.toList.countP isDecimal ≤ 4300) :
    ∃ v, read word loc = .ok v ∧ Means word loc v := by
  by_cases whole : ∃ n, IsWhole word.toList n
  · obtain ⟨n, whole⟩ := whole
    obtain ⟨x, read⟩ := read_of_isWhole loc whole few
    refine ⟨_, read, ?_⟩
    split
    · rename_i inRange
      exact .integer whole inRange
    · rename_i outside
      exact .large x whole outside
  · have notWhole : ∀ n, ¬ IsWhole word.toList n := not_exists.1 whole
    by_cases real : IsReal word.toList
    · obtain ⟨x, read⟩ := read_of_isReal loc notWhole real
      exact ⟨_, read, .real x notWhole real⟩
    · refine ⟨_, read_of_no_numeral loc notWhole real, ?_⟩
      split
      · rename_i spelled
        exact .bool (b := true) spelled
      · rename_i notTrue
        split
        · rename_i spelled
          exact .bool (b := false) spelled
        · rename_i notFalse
          exact .symbol notWhole real notTrue notFalse

end Atom

/-- What a word stands for, if it has at most 4300 digits: a whole numeral in range is an integer, a
whole numeral out of range and any other numeral are floats, `true` and `false` are truth values,
and all else is a symbol of that name. There is a value in every case, and it has the place of the
word. The text of an integer in range is read as that integer. -/
theorem word_classification (word : String) (loc : Option Location)
    (few : word.toList.countP Text.isDecimal ≤ 4300) :
    (∀ n, Atom.read word loc = .ok (.integer n loc) ↔
      IsWhole word.toList n ∧ -2 ^ 127 ≤ n ∧ n ≤ 2 ^ 127 - 1) ∧
    ((∃ x, Atom.read word loc = .ok (.float x loc)) ↔
      (∃ n, IsWhole word.toList n ∧ ¬ (-2 ^ 127 ≤ n ∧ n ≤ 2 ^ 127 - 1)) ∨
        IsReal word.toList ∧ ∀ n, ¬ IsWhole word.toList n) ∧
    (∀ b, Atom.read word loc = .ok (.bool b loc) ↔ word = if b then "true" else "false") ∧
    (∀ name, Atom.read word loc = .ok (.symbol name loc) ↔
      name = word ∧ (∀ n, ¬ IsWhole word.toList n) ∧ ¬ IsReal word.toList ∧
        word ≠ "true" ∧ word ≠ "false") ∧
    (∃ v, Atom.read word loc = .ok v ∧ v.loc = loc) ∧
    ∀ n : Int, -2 ^ 127 ≤ n ∧ n ≤ 2 ^ 127 - 1 →
      Atom.read (toString n) loc = .ok (.integer n loc) := by
  simp only [← Integer.inRange_iff_pow]
  obtain ⟨v, read, means⟩ := Atom.exists_means loc few
  have meaning {w : Value} (same : Atom.read word loc = .ok w) : Atom.Means word loc w := by
    rw [read] at same
    exact Except.ok.inj same ▸ means
  refine ⟨fun n => ⟨fun same => ?_, ?_⟩, ⟨?_, ?_⟩, fun b => ⟨fun same => ?_, ?_⟩,
    fun name => ⟨fun same => ?_, ?_⟩, ⟨v, read, means.loc_eq⟩,
    fun n inRange => Atom.read_toString inRange loc⟩
  · cases meaning same with
    | integer whole inRange => exact ⟨whole, inRange⟩
  · rintro ⟨whole, inRange⟩
    obtain ⟨x, here⟩ := Atom.read_of_isWhole loc whole few
    rw [here, if_pos inRange]
  · rintro ⟨x, same⟩
    cases meaning same with
    | large _ whole outside => exact .inl ⟨_, whole, outside⟩
    | real _ notWhole real => exact .inr ⟨real, notWhole⟩
  · rintro (⟨n, whole, outside⟩ | ⟨real, notWhole⟩)
    · obtain ⟨x, here⟩ := Atom.read_of_isWhole loc whole few
      rw [if_neg outside] at here
      exact ⟨x, here⟩
    · exact Atom.read_of_isReal loc notWhole real
  · cases meaning same with
    | bool spelled => exact spelled
  · rintro rfl
    cases b <;> rfl
  · cases meaning same with
    | symbol notWhole notReal notTrue notFalse =>
      exact ⟨rfl, notWhole, notReal, notTrue, notFalse⟩
  · rintro ⟨rfl, notWhole, notReal, notTrue, notFalse⟩
    rw [Atom.read_of_no_numeral loc notWhole notReal, if_neg notTrue, if_neg notFalse]

/-- A leading zero and a digit of another script count with their values. A power of ten without
digits makes a symbol of what would be a float. -/
theorem word_classification_of_near_misses :
    "-0٣".toList.countP Text.isDecimal ≤ 4300 ∧
      Atom.read "-0٣" none = .ok (.integer (-3) none) ∧
      "-.5e+".toList.countP Text.isDecimal ≤ 4300 ∧
      Atom.read "-.5e+" none = .ok (.symbol "-.5e+" none) ∧ ¬ IsReal "-.5e+".toList := by
  have few : "-0٣".toList.countP Text.isDecimal ≤ 4300 := by decide +kernel
  have few' : "-.5e+".toList.countP Text.isDecimal ≤ 4300 := by decide +kernel
  have digits : Text.IsDigits ['0', '٣'] := ⟨by decide, List.all_eq_true.1 (by decide +kernel)⟩
  have value : -1 * (Text.positional ['0', '٣'] : Int) = -3 := by decide +kernel
  have whole : IsWhole "-0٣".toList (-3) := value ▸ .signed .minus digits
  obtain ⟨integers, _⟩ := word_classification "-0٣" none few
  obtain ⟨_, _, _, symbols, _⟩ := word_classification "-.5e+" none few'
  have symbol : Atom.read "-.5e+" none = .ok (.symbol "-.5e+" none) := by cbv
  exact ⟨few, (integers (-3)).2 ⟨whole, by decide⟩, few', symbol, ((symbols _).1 symbol).2.2.1⟩

end ScopedLisp
