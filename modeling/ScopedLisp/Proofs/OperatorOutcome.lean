import ScopedLisp.Proofs.OperatorCall

set_option autoImplicit false

namespace ScopedLisp

/-- Integers and floats are numbers, truth values are not. -/
def Value.isNumber : Value → Bool
  | integer _ _ => true
  | float _ _ => true
  | _ => false

theorem Value.isSome_number? (v : Value) : v.number?.isSome = v.isNumber := by
  cases v <;> rfl

theorem Value.number?_eq_none_iff {v : Value} : v.number? = none ↔ v.isNumber = false := by
  rw [← isSome_number?, Option.isSome_eq_false_iff, Option.isNone_iff_eq_none]

/-- A sum, a difference and a product need one argument, the other operators need two. -/
def Operator.least (op : Operator) : Nat :=
  if op.name ∈ ["+", "-", "*"] then 1 else 2

theorem Operator.arity_eq_atLeast (op : Operator) : op.arity = .atLeast op.least := by
  rcases op with a | c
  · cases a <;> decide
  · cases c <;> decide

section Numbers

variable {loc : Option Location}

theorem numbers_eq_ok_iff {args : List Value} {operands : List Number} :
    numbers loc args = .ok operands ↔ args.map Value.number? = operands.map some := by
  induction args generalizing operands with
  | nil => cases operands <;> simp [numbers]
  | cons v rest ih =>
    unfold numbers
    cases number : v.number? with
    | none => cases operands <;> simp [number]
    | some n =>
      cases remaining : numbers loc rest with
      | error e =>
        have never (more : List Number) : rest.map Value.number? ≠ more.map some := by
          intro same
          rw [ih.2 same] at remaining
          cases remaining
        cases operands with
        | nil => simp [Except.map]
        | cons m more => simp [Except.map, number, never more]
      | ok found =>
        have same := ih.1 remaining
        cases operands with
        | nil => simp [Except.map]
        | cons m more =>
          have injective : found.map some = more.map some ↔ found = more :=
            List.map_inj_right fun _ _ => Option.some.inj
          simp [Except.map, number, same, injective]

/-- The first argument that is no number is to blame. -/
theorem numbers_of_first {before rest : List Value} {v : Value}
    (numeric : ∀ w ∈ before, w.isNumber = true) (other : v.isNumber = false) :
    numbers loc (before ++ v :: rest) = .error ⟨.typeMismatch "number" v.kind, loc⟩ := by
  induction before with
  | nil =>
    have none := Value.number?_eq_none_iff.2 other
    simp only [List.nil_append, numbers, none]
  | cons w before ih =>
    have first : w.number?.isSome = true := by
      rw [Value.isSome_number?]
      exact numeric w List.mem_cons_self
    obtain ⟨n, number⟩ := Option.isSome_iff_exists.1 first
    have further := ih fun next member => numeric next (List.mem_cons_of_mem w member)
    simp only [List.cons_append, numbers, number, further]
    rfl

theorem exists_first_other {args : List Value} (some : ∃ v ∈ args, v.isNumber = false) :
    ∃ before v rest, args = before ++ v :: rest ∧ (∀ w ∈ before, w.isNumber = true) ∧
      v.isNumber = false := by
  induction args with
  | nil => simp at some
  | cons w args ih =>
    cases numeric : w.isNumber with
    | false => exact ⟨[], w, args, rfl, by simp, numeric⟩
    | true =>
      have further : ∃ v ∈ args, v.isNumber = false := by
        obtain ⟨v, member, other⟩ := some
        rcases List.mem_cons.1 member with rfl | member
        · rw [numeric] at other
          cases other
        · exact ⟨v, member, other⟩
      obtain ⟨before, v, rest, rfl, allNumeric, other⟩ := ih further
      refine ⟨w :: before, v, rest, rfl, ?_, other⟩
      intro next member
      rcases List.mem_cons.1 member with rfl | member
      · exact numeric
      · exact allNumeric next member

end Numbers

section Zero

theorem float_eq_of_toBits {x y : Float} (same : x.toBits = y.toBits) : x = y := by
  obtain ⟨⟨bits, valid⟩⟩ := x
  obtain ⟨⟨bits', valid'⟩⟩ := y
  have equal : bits = bits' := same
  subst equal
  rfl

theorem ofIntWithPrec_eq_zero_iff {n prec : Int} : Dyadic.ofIntWithPrec n prec = 0 ↔ n = 0 := by
  unfold Dyadic.ofIntWithPrec
  split
  · rename_i zero
    exact ⟨fun _ => zero, fun _ => rfl⟩
  · rename_i nonzero
    exact ⟨nofun, fun zero => absurd zero nonzero⟩

theorem Binary64.dyadic_eq_zero_iff {negative : Bool} {mantissa : Nat} {exponent : Int} :
    dyadic negative mantissa exponent = 0 ↔ mantissa = 0 := by
  unfold dyadic
  rw [ofIntWithPrec_eq_zero_iff]
  cases negative
  · simp
  · simp

theorem Binary64.toBits_of_ofFloat {x : Float} {negative : Bool} {exponent : Int}
    (parts : ofFloat x = .finite negative 0 exponent) :
    x.toBits.toNat = 0 ∨ x.toBits.toNat = 9223372036854775808 := by
  have bound : x.toBits.toNat < 18446744073709551616 := x.toBits.toNat_lt
  have shift : x.toBits.toNat >>> 52 = x.toBits.toNat / 4503599627370496 :=
    Nat.shiftRight_eq_div_pow _ 52
  have hidden : leading = 4503599627370496 := rfl
  simp only [ofFloat, shift, hidden] at parts
  split at parts
  · split at parts <;> cases parts
  · split at parts
    · have mantissa := (Binary64.finite.inj parts).2.1
      omega
    · have mantissa := (Binary64.finite.inj parts).2.1
      omega

theorem Number.toBits_of_isZero {x : Float} (zero : (float x).isZero = true) :
    x.toBits.toNat = 0 ∨ x.toBits.toNat = 9223372036854775808 := by
  have exact : ExactValue.ofFloat x = .finite 0 := of_decide_eq_true zero
  unfold ExactValue.ofFloat at exact
  split at exact
  · cases exact
  · split at exact <;> cases exact
  · rename_i negative mantissa exponent parts
    have none := Binary64.dyadic_eq_zero_iff.1 (ExactValue.finite.inj exact)
    rw [none] at parts
    exact Binary64.toBits_of_ofFloat parts

theorem Number.isZero_iff {n : Number} :
    n.isZero = true ↔ n = .integer 0 ∨ n = .float 0.0 ∨ n = .float (-0.0) := by
  constructor
  · intro zero
    cases n with
    | integer n =>
      have exact : ExactValue.finite (.ofInt n) = .finite 0 := of_decide_eq_true zero
      have same : n = 0 := ofIntWithPrec_eq_zero_iff.1 (ExactValue.finite.inj exact)
      exact .inl (by rw [same])
    | float x =>
      rcases toBits_of_isZero zero with positive | negative
      · have same : x = 0.0 := float_eq_of_toBits (UInt64.toNat_inj.1 (positive.trans (by decide)))
        exact .inr (.inl (by rw [same]))
      · have same : x = -0.0 := float_eq_of_toBits (UInt64.toNat_inj.1 (negative.trans (by decide)))
        exact .inr (.inr (by rw [same]))
  · rintro (rfl | rfl | rfl)
    · decide
    · decide
    · decide

end Zero

theorem Number.integers_or_float (operands : List Number) :
    (∃ ns : List Int, operands = ns.map .integer) ∨ ∃ n ∈ operands, n.isFloat = true := by
  induction operands with
  | nil => exact .inl ⟨[], rfl⟩
  | cons n rest ih =>
    cases n with
    | float x => exact .inr ⟨.float x, List.mem_cons_self, rfl⟩
    | integer n =>
      rcases ih with ⟨ns, rfl⟩ | ⟨m, member, float⟩
      · exact .inl ⟨n :: ns, rfl⟩
      · exact .inr ⟨m, List.mem_cons_of_mem _ member, float⟩

namespace Arithmetic

section Integers

variable {a : Arithmetic} {loc : Option Location}

/-- The steps over the operands succeed: there is no zero divisor among them, and the result of
every step is in range. -/
def Clear (a : Arithmetic) (first : Int) (operands : List Int) : Prop :=
  (a.divides = true → 0 ∉ operands) ∧
    ∀ taken, taken <+: operands → taken ≠ [] →
      Integer.inRange (taken.foldl a.onIntegers first) = true

theorem clear_nil (first : Int) : a.Clear first [] := by
  refine ⟨by simp, fun taken before nonempty => ?_⟩
  exact absurd (List.prefix_nil.1 before) nonempty

theorem clear_cons_iff {first n : Int} {rest : List Int} :
    a.Clear first (n :: rest) ↔
      (a.divides = true → n ≠ 0) ∧ Integer.inRange (a.onIntegers first n) = true ∧
        a.Clear (a.onIntegers first n) rest := by
  constructor
  · rintro ⟨divisors, steps⟩
    refine ⟨fun divides zero => divisors divides (by simp [zero]), ?_, ?_, ?_⟩
    · exact steps [n] (by simp) (by simp)
    · exact fun divides zero => divisors divides (List.mem_cons_of_mem n zero)
    · intro taken before _
      exact steps (n :: taken) ((List.prefix_cons_inj n).2 before) (by simp)
  · rintro ⟨divisor, inRange, divisors, steps⟩
    refine ⟨fun divides zero => ?_, fun taken before nonempty => ?_⟩
    · rcases List.mem_cons.1 zero with here | later
      · exact divisor divides here.symm
      · exact divisors divides later
    · cases taken with
      | nil => exact absurd rfl nonempty
      | cons m more =>
        obtain ⟨rfl, further⟩ := List.cons_prefix_cons.1 before
        by_cases last : more = []
        · subst last
          exact inRange
        · exact steps more further last

theorem foldIntegers_append {first : Int} {before : List Int} (clear : a.Clear first before)
    (rest : List Int) :
    a.foldIntegers loc first (before ++ rest) =
      a.foldIntegers loc (before.foldl a.onIntegers first) rest := by
  induction before generalizing first with
  | nil => rfl
  | cons n before ih =>
    obtain ⟨divisor, inRange, further⟩ := clear_cons_iff.1 clear
    have step : (a.divides && n == 0) = false := by
      cases divides : a.divides with
      | false => rfl
      | true => simpa using divisor divides
    rw [List.cons_append, foldIntegers, step, inRange]
    exact ih further

theorem clear_or_exists_first (first : Int) (operands : List Int) :
    a.Clear first operands ∨
      ∃ before n rest, operands = before ++ n :: rest ∧ a.Clear first before ∧
        (a.divides = true ∧ n = 0 ∨ (a.divides = true → n ≠ 0) ∧
          Integer.inRange (a.onIntegers (before.foldl a.onIntegers first) n) = false) := by
  induction operands generalizing first with
  | nil => exact .inl (clear_nil first)
  | cons n rest ih =>
    by_cases zero : a.divides = true ∧ n = 0
    · exact .inr ⟨[], n, rest, rfl, clear_nil first, .inl zero⟩
    · have divisor : a.divides = true → n ≠ 0 := fun divides same => zero ⟨divides, same⟩
      cases inRange : Integer.inRange (a.onIntegers first n) with
      | false => exact .inr ⟨[], n, rest, rfl, clear_nil first, .inr ⟨divisor, inRange⟩⟩
      | true =>
        rcases ih (a.onIntegers first n) with clear | ⟨before, m, after, rfl, clear, stops⟩
        · exact .inl (clear_cons_iff.2 ⟨divisor, inRange, clear⟩)
        · exact .inr ⟨n :: before, m, after, rfl,
            clear_cons_iff.2 ⟨divisor, inRange, clear⟩, stops⟩

/-- From left to right the steps come to a zero divisor, and all results before it are in range. -/
def MeetsZero (a : Arithmetic) (first : Int) (operands : List Int) : Prop :=
  ∃ before rest, operands = before ++ 0 :: rest ∧ a.divides = true ∧ a.Clear first before

/-- From left to right the steps come to a result out of range, and there is no zero divisor up to
it. The only step of a difference with one operand is the negation. -/
def MeetsOverflow (a : Arithmetic) (first : Int) (operands : List Int) : Prop :=
  (a = sub ∧ operands = [] ∧ Integer.inRange (-first) = false) ∨
    ∃ before n rest, operands = before ++ n :: rest ∧ a.Clear first before ∧
      (a.divides = true → n ≠ 0) ∧
      Integer.inRange (a.onIntegers (before.foldl a.onIntegers first) n) = false

/-- What all steps come to. -/
def result (a : Arithmetic) (first : Int) (operands : List Int) : Int :=
  if a = sub ∧ operands = [] then -first else operands.foldl a.onIntegers first

theorem foldIntegers_of_clear {first : Int} {operands : List Int}
    (inRange : Integer.inRange first = true) (clear : a.Clear first operands) :
    a.foldIntegers loc first operands =
      .ok (.integer (operands.foldl a.onIntegers first) none) := by
  have whole : a.foldIntegers loc first (operands ++ []) = _ := foldIntegers_append clear []
  have last : Integer.inRange (operands.foldl a.onIntegers first) = true := by
    by_cases none : operands = []
    · subst none
      exact inRange
    · exact clear.2 operands (List.prefix_refl operands) none
  rw [List.append_nil] at whole
  simp only [whole, foldIntegers, boxed, last, ↓reduceIte]

theorem integers?_map (ns : List Int) : integers? (ns.map .integer) = some ns := by
  induction ns with
  | nil => rfl
  | cons n ns ih => simp [integers?, ih]

theorem call_integers (a : Arithmetic) (loc : Option Location) (first : Int) (operands : List Int) :
    a.call loc (.integer first) (operands.map .integer) =
      if a = sub ∧ operands = [] then (sub.boxed loc (-first)).mapError .error
      else (a.foldIntegers loc first operands).mapError .error := by
  have known : integers? (.integer first :: operands.map .integer) = some (first :: operands) :=
    integers?_map (first :: operands)
  simp only [call, known, List.isEmpty_iff, List.map_eq_nil_iff]
  rfl

theorem call_of_meetsZero {first : Int} {operands : List Int} (meets : a.MeetsZero first operands) :
    a.call loc (.integer first) (operands.map .integer) = .error (.error ⟨.divisionByZero, loc⟩) := by
  obtain ⟨before, rest, rfl, divides, clear⟩ := meets
  have several : ¬ (a = sub ∧ before ++ 0 :: rest = []) := by simp
  rw [call_integers, if_neg several, foldIntegers_append clear]
  simp only [foldIntegers, divides, BEq.rfl, Bool.and_self, ↓reduceIte]
  rfl

theorem call_of_meetsOverflow {first : Int} {operands : List Int}
    (meets : a.MeetsOverflow first operands) :
    a.call loc (.integer first) (operands.map .integer) =
      .error (.error ⟨.integerOverflow a.name, loc⟩) := by
  rcases meets with ⟨rfl, rfl, outside⟩ | ⟨before, n, rest, rfl, clear, divisor, outside⟩
  · rw [call_integers, if_pos ⟨rfl, rfl⟩, boxed, outside]
    rfl
  · have several : ¬ (a = sub ∧ before ++ n :: rest = []) := by simp
    have step : (a.divides && n == 0) = false := by
      cases divides : a.divides with
      | false => rfl
      | true => simpa using divisor divides
    rw [call_integers, if_neg several, foldIntegers_append clear, foldIntegers, step, outside]
    rfl

theorem call_of_meets_nothing {first : Int} {operands : List Int}
    (inRange : Integer.inRange first = true) (noZero : ¬ a.MeetsZero first operands)
    (noOverflow : ¬ a.MeetsOverflow first operands) :
    a.call loc (.integer first) (operands.map .integer) =
      .ok (.integer (a.result first operands) none) := by
  rw [call_integers]
  by_cases single : a = sub ∧ operands = []
  · have fits : Integer.inRange (-first) = true := by
      apply Bool.of_not_eq_false
      intro outside
      exact noOverflow (.inl ⟨single.1, single.2, outside⟩)
    simp only [single, result, boxed, fits, and_self, ↓reduceIte]
    rfl
  · have clear : a.Clear first operands := by
      rcases clear_or_exists_first (a := a) first operands with clear |
        ⟨before, n, rest, split, clear, ⟨divides, rfl⟩ | ⟨divisor, outside⟩⟩
      · exact clear
      · exact absurd ⟨before, rest, split, divides, clear⟩ noZero
      · exact absurd (.inr ⟨before, n, rest, split, clear, divisor, outside⟩) noOverflow
    rw [if_neg single, foldIntegers_of_clear inRange clear, result, if_neg single]
    rfl

/-- The three ways in which a call on integers ends. -/
theorem call_integers_outcome (a : Arithmetic) (loc : Option Location) {first : Int}
    (inRange : Integer.inRange first = true) (operands : List Int) :
    (a.MeetsZero first operands ∧ a.call loc (.integer first) (operands.map .integer) =
        .error (.error ⟨.divisionByZero, loc⟩)) ∨
      (a.MeetsOverflow first operands ∧ a.call loc (.integer first) (operands.map .integer) =
        .error (.error ⟨.integerOverflow a.name, loc⟩)) ∨
      a.call loc (.integer first) (operands.map .integer) =
        .ok (.integer (a.result first operands) none) := by
  by_cases zero : a.MeetsZero first operands
  · exact .inl ⟨zero, call_of_meetsZero zero⟩
  · by_cases overflow : a.MeetsOverflow first operands
    · exact .inr (.inl ⟨overflow, call_of_meetsOverflow overflow⟩)
    · exact .inr (.inr (call_of_meets_nothing inRange zero overflow))

theorem call_integers_eq_divisionByZero_iff {first : Int} {operands : List Int}
    (inRange : Integer.inRange first = true) :
    a.call loc (.integer first) (operands.map .integer) = .error (.error ⟨.divisionByZero, loc⟩) ↔
      a.MeetsZero first operands := by
  constructor
  · intro failed
    rcases a.call_integers_outcome loc inRange operands with ⟨zero, _⟩ | ⟨_, ended⟩ | ended
    · exact zero
    · rw [ended] at failed
      cases failed
    · rw [ended] at failed
      cases failed
  · exact call_of_meetsZero

theorem call_integers_eq_overflow_iff {first : Int} {operands : List Int}
    (inRange : Integer.inRange first = true) :
    a.call loc (.integer first) (operands.map .integer) =
        .error (.error ⟨.integerOverflow a.name, loc⟩) ↔ a.MeetsOverflow first operands := by
  constructor
  · intro failed
    rcases a.call_integers_outcome loc inRange operands with ⟨_, ended⟩ | ⟨overflow, _⟩ | ended
    · rw [ended] at failed
      cases failed
    · exact overflow
    · rw [ended] at failed
      cases failed
  · exact call_of_meetsOverflow

end Integers

section Floats

variable {a : Arithmetic} {loc : Option Location}

theorem foldFloats_of_zero {x : Float} {operands : List Number}
    (inRange : ∀ n ∈ operands, n.InRange) (divides : a.divides = true)
    (zero : ∃ n ∈ operands, n.isZero = true) :
    a.foldFloats loc x operands = .error (.error ⟨.divisionByZero, loc⟩) := by
  induction operands generalizing x with
  | nil => simp at zero
  | cons n rest ih =>
    cases isZero : n.isZero with
    | true => simp only [foldFloats, divides, isZero, Bool.and_self, ↓reduceIte]
    | false =>
      have later : ∃ m ∈ rest, m.isZero = true := by
        simpa [isZero] using zero
      have further : ∀ m ∈ rest, m.InRange := fun m member =>
        inRange m (List.mem_cons_of_mem n member)
      cases stepped : a.stepFloat x n with
      | error m => exact absurd stepped (stepFloat_ne_error (inRange n List.mem_cons_self))
      | ok next =>
        simp only [foldFloats, isZero, Bool.and_false, Bool.false_eq_true, ↓reduceIte, stepped]
        exact ih further later

theorem foldFloats_of_no_zero {x : Float} {operands : List Number}
    (inRange : ∀ n ∈ operands, n.InRange)
    (noZero : ¬ (a.divides = true ∧ ∃ n ∈ operands, n.isZero = true)) :
    ∃ y, a.foldFloats loc x operands = .ok (.float y none) := by
  induction operands generalizing x with
  | nil => exact ⟨x, rfl⟩
  | cons n rest ih =>
    have step : (a.divides && n.isZero) = false := by
      apply Bool.eq_false_iff.2
      intro both
      obtain ⟨divides, zero⟩ := Bool.and_eq_true_iff.1 both
      exact noZero ⟨divides, n, List.mem_cons_self, zero⟩
    have further : ∀ m ∈ rest, m.InRange := fun m member =>
      inRange m (List.mem_cons_of_mem n member)
    have later : ¬ (a.divides = true ∧ ∃ m ∈ rest, m.isZero = true) := by
      rintro ⟨divides, m, member, zero⟩
      exact noZero ⟨divides, m, List.mem_cons_of_mem n member, zero⟩
    cases stepped : a.stepFloat x n with
    | error m => exact absurd stepped (stepFloat_ne_error (inRange n List.mem_cons_self))
    | ok next =>
      simp only [foldFloats, step, Bool.false_eq_true, ↓reduceIte, stepped]
      exact ih further later

theorem integers?_of_float {operands : List Number} (some : ∃ n ∈ operands, n.isFloat = true) :
    integers? operands = none := by
  induction operands with
  | nil => simp at some
  | cons n rest ih =>
    cases n with
    | float x => rfl
    | integer n =>
      have later : ∃ m ∈ rest, m.isFloat = true := by
        simpa [Number.isFloat] using some
      simp [integers?, ih later]

/-- With a float among the operands, a call that is no negation of one number folds floats. -/
theorem call_floats {first : Number} {rest : List Number} (several : ¬ (a = sub ∧ rest = []))
    (inRange : first.InRange) (some : ∃ n ∈ first :: rest, n.isFloat = true) :
    ∃ x, a.call loc first rest = a.foldFloats loc x rest := by
  have mixed := integers?_of_float some
  obtain ⟨x, near⟩ := Option.ne_none_iff_exists'.1 (Number.toFloat?_ne_none inRange)
  refine ⟨x, ?_⟩
  simp only [call, mixed, near, List.isEmpty_iff, several, ↓reduceIte]

theorem call_of_float_zero {first : Number} {rest : List Number}
    (inRange : ∀ n ∈ first :: rest, n.InRange) (some : ∃ n ∈ first :: rest, n.isFloat = true)
    (divides : a.divides = true) (zero : ∃ n ∈ rest, n.isZero = true) :
    a.call loc first rest = .error (.error ⟨.divisionByZero, loc⟩) := by
  have several : ¬ (a = sub ∧ rest = []) := by
    rintro ⟨rfl, _⟩
    cases divides
  obtain ⟨x, folds⟩ := call_floats several (inRange first List.mem_cons_self) some
  rw [folds]
  exact foldFloats_of_zero (fun n member => inRange n (List.mem_cons_of_mem first member))
    divides zero

theorem call_of_float_no_zero {first : Number} {rest : List Number}
    (inRange : ∀ n ∈ first :: rest, n.InRange) (some : ∃ n ∈ first :: rest, n.isFloat = true)
    (noZero : ¬ (a.divides = true ∧ ∃ n ∈ rest, n.isZero = true)) :
    ∃ x, a.call loc first rest = .ok (.float x none) := by
  by_cases single : a = sub ∧ rest = []
  · obtain ⟨rfl, rfl⟩ := single
    cases first with
    | float x => exact ⟨-x, rfl⟩
    | integer n => simp [Number.isFloat] at some
  · obtain ⟨x, folds⟩ := call_floats single (inRange first List.mem_cons_self) some
    rw [folds]
    exact foldFloats_of_no_zero (fun n member => inRange n (List.mem_cons_of_mem first member))
      noZero

theorem call_floats_eq_divisionByZero_iff {first : Number} {rest : List Number}
    (inRange : ∀ n ∈ first :: rest, n.InRange) (some : ∃ n ∈ first :: rest, n.isFloat = true) :
    a.call loc first rest = .error (.error ⟨.divisionByZero, loc⟩) ↔
      a.divides = true ∧ ∃ n ∈ rest, n.isZero = true := by
  constructor
  · intro failed
    by_cases zero : a.divides = true ∧ ∃ n ∈ rest, n.isZero = true
    · exact zero
    · obtain ⟨x, returned⟩ := call_of_float_no_zero inRange some zero
      rw [returned] at failed
      cases failed
  · rintro ⟨divides, zero⟩
    exact call_of_float_zero inRange some divides zero

end Floats

/-- On numbers in range a call fails at a zero divisor or at an overflow only. -/
theorem fault_of_call {a : Arithmetic} {loc : Option Location} {first : Number}
    {rest : List Number} (inRange : ∀ n ∈ first :: rest, n.InRange) {f : Fault}
    (failed : a.call loc first rest = .error f) :
    f = .error ⟨.divisionByZero, loc⟩ ∨ f = .error ⟨.integerOverflow a.name, loc⟩ := by
  rcases Number.integers_or_float (first :: rest) with ⟨ns, integers⟩ | float
  · obtain ⟨n, ns, rfl⟩ := List.exists_cons_of_ne_nil (l := ns) (by rintro rfl; cases integers)
    obtain ⟨rfl, rfl⟩ := List.cons.inj integers
    have first := inRange _ List.mem_cons_self
    rcases a.call_integers_outcome loc first ns with ⟨_, ended⟩ | ⟨_, ended⟩ | ended
    · rw [ended] at failed
      exact .inl (Except.error.inj failed).symm
    · rw [ended] at failed
      exact .inr (Except.error.inj failed).symm
    · rw [ended] at failed
      cases failed
  · by_cases zero : a.divides = true ∧ ∃ n ∈ rest, n.isZero = true
    · rw [call_of_float_zero inRange float zero.1 zero.2] at failed
      exact .inl (Except.error.inj failed).symm
    · obtain ⟨x, returned⟩ := call_of_float_no_zero inRange float zero
      rw [returned] at failed
      cases failed

end Arithmetic

namespace Operator

variable {op : Operator} {args : List Value} {loc : Option Location}

theorem accepts_iff (op : Operator) (count : Nat) :
    op.arity.accepts count = true ↔ op.least ≤ count := by
  rw [arity_eq_atLeast, Arity.accepts]
  exact decide_eq_true_iff

theorem call_of_few (few : args.length < op.least) :
    op.call args loc = .error (.error ⟨.arity (some op.name) ("at least " ++ toString op.least)
      args.length, loc⟩) := by
  have refused : ¬ op.arity.accepts args.length = true := by
    rw [accepts_iff]
    omega
  unfold call
  rw [if_neg refused, wrongCount, arity_eq_atLeast]
  rfl

theorem call_of_other (enough : op.least ≤ args.length) {before rest : List Value} {v : Value}
    (split : args = before ++ v :: rest) (numeric : ∀ w ∈ before, w.isNumber = true)
    (other : v.isNumber = false) :
    op.call args loc = .error (.error ⟨.typeMismatch "number" v.kind, loc⟩) := by
  have blamed : numbers loc args = .error ⟨.typeMismatch "number" v.kind, loc⟩ := by
    rw [split]
    exact numbers_of_first numeric other
  have accepted := (op.accepts_iff args.length).2 enough
  unfold call
  rw [if_pos accepted, blamed]

theorem call_comparison {c : Comparison} (enough : (comparison c).least ≤ args.length)
    {operands : List Number} (given : args.map Value.number? = operands.map some) :
    (comparison c).call args loc = .ok (.bool (c.chain operands) none) := by
  have found : numbers loc args = .ok operands := numbers_eq_ok_iff.2 given
  have accepted := ((comparison c).accepts_iff args.length).2 enough
  simp only [call, accepted, ↓reduceIte, found]

theorem call_arithmetic {a : Arithmetic} (enough : (arithmetic a).least ≤ args.length)
    {first : Number} {operands : List Number}
    (given : args.map Value.number? = (first :: operands).map some) :
    (arithmetic a).call args loc = a.call loc first operands := by
  have found : numbers loc args = .ok (first :: operands) := numbers_eq_ok_iff.2 given
  have accepted := ((arithmetic a).accepts_iff args.length).2 enough
  simp only [call, accepted, ↓reduceIte, found]

theorem exists_numbers (numeric : ∀ v ∈ args, v.isNumber = true) :
    ∃ operands : List Number, args.map Value.number? = operands.map some := by
  induction args with
  | nil => exact ⟨[], rfl⟩
  | cons v rest ih =>
    obtain ⟨more, given⟩ := ih fun w member => numeric w (List.mem_cons_of_mem v member)
    have isSome : v.number?.isSome = true := by
      rw [Value.isSome_number?]
      exact numeric v List.mem_cons_self
    obtain ⟨n, number⟩ := Option.isSome_iff_exists.1 isSome
    exact ⟨n :: more, by simp [given, number]⟩

theorem inRange_of_given (allowed : ∀ n place, Value.integer n place ∈ args →
      Integer.inRange n = true) {operands : List Number}
    (given : args.map Value.number? = operands.map some) : ∀ n ∈ operands, n.InRange := by
  have found : numbers none args = .ok operands := numbers_eq_ok_iff.2 given
  exact numbers_inRange allowed found

theorem fault_of_numbers (allowed : ∀ n place, Value.integer n place ∈ args →
      Integer.inRange n = true) (enough : op.least ≤ args.length) {operands : List Number}
    (given : args.map Value.number? = operands.map some) {f : Fault}
    (failed : op.call args loc = .error f) :
    f = .error ⟨.divisionByZero, loc⟩ ∨ f = .error ⟨.integerOverflow op.name, loc⟩ := by
  cases op with
  | comparison c =>
    rw [call_comparison enough given] at failed
    cases failed
  | arithmetic a =>
    cases operands with
    | nil =>
      have none : args = [] := by simpa using given
      have least : 1 ≤ (arithmetic a).least := by cases a <;> decide
      simp only [none, List.length_nil] at enough
      omega
    | cons first rest =>
      rw [call_arithmetic enough given] at failed
      exact Arithmetic.fault_of_call (inRange_of_given allowed given) failed

/-- Enough arguments fail for the kind of the first that is no number, or as arithmetic fails. -/
theorem fault_of_enough (allowed : ∀ n place, Value.integer n place ∈ args →
      Integer.inRange n = true) (enough : op.least ≤ args.length) {f : Fault}
    (failed : op.call args loc = .error f) :
    (∃ before v rest, args = before ++ v :: rest ∧ (∀ w ∈ before, w.isNumber = true) ∧
      v.isNumber = false ∧ f = .error ⟨.typeMismatch "number" v.kind, loc⟩) ∨
      f = .error ⟨.divisionByZero, loc⟩ ∨ f = .error ⟨.integerOverflow op.name, loc⟩ := by
  by_cases other : ∃ v ∈ args, v.isNumber = false
  · obtain ⟨before, v, rest, split, numeric, other⟩ := exists_first_other other
    rw [call_of_other enough split numeric other] at failed
    exact .inl ⟨before, v, rest, split, numeric, other, (Except.error.inj failed).symm⟩
  · have numeric : ∀ v ∈ args, v.isNumber = true := by
      intro v member
      apply Bool.of_not_eq_false
      intro isOther
      exact other ⟨v, member, isOther⟩
    obtain ⟨operands, given⟩ := exists_numbers numeric
    exact .inr (fault_of_numbers allowed enough given failed)

theorem call_eq_arity_iff (allowed : ∀ n place, Value.integer n place ∈ args →
      Integer.inRange n = true) :
    op.call args loc = .error (.error ⟨.arity (some op.name) ("at least " ++ toString op.least)
      args.length, loc⟩) ↔ args.length < op.least := by
  constructor
  · intro failed
    apply Nat.lt_of_not_le
    intro enough
    rcases fault_of_enough allowed enough failed with ⟨_, _, _, _, _, _, same⟩ | same | same
    · cases same
    · cases same
    · cases same
  · exact call_of_few

theorem call_eq_typeMismatch_iff (allowed : ∀ n place, Value.integer n place ∈ args →
      Integer.inRange n = true) {kind : String} :
    op.call args loc = .error (.error ⟨.typeMismatch "number" kind, loc⟩) ↔
      op.least ≤ args.length ∧ ∃ before v rest, args = before ++ v :: rest ∧
        (∀ w ∈ before, w.isNumber = true) ∧ v.isNumber = false ∧ v.kind = kind := by
  constructor
  · intro failed
    have enough : op.least ≤ args.length := by
      apply Nat.le_of_not_lt
      intro few
      rw [call_of_few few] at failed
      cases failed
    refine ⟨enough, ?_⟩
    rcases fault_of_enough allowed enough failed with
      ⟨before, v, rest, split, numeric, other, same⟩ | same | same
    · cases same
      exact ⟨before, v, rest, split, numeric, other, rfl⟩
    · cases same
    · cases same
  · rintro ⟨enough, before, v, rest, split, numeric, other, rfl⟩
    exact call_of_other enough split numeric other

end Operator

/-- How a call of an operator ends, if the integers among its arguments are in range. It is refused
for their number exactly if there are too few of them. Otherwise, it is refused for the kind of
the first argument that is no number, whatever comes before that argument. If all are numbers, a
comparison returns a truth value. Arithmetic on integers fails at what it meets first from left to
right, a zero divisor or a result out of range, and else returns an integer in range; with a float
among the numbers it fails exactly if a divisor is zero, and else returns a float. Faults name the
place of the call, results have no place, and nothing else can happen. -/
theorem operator_call_outcome (op : Operator) (args : List Value) (loc : Option Location)
    (allowed : ∀ n place, Value.integer n place ∈ args → Integer.inRange n = true) :
    (op.call args loc = .error (.error ⟨.arity (some op.name) ("at least " ++ toString op.least)
        args.length, loc⟩) ↔ args.length < op.least) ∧
    (∀ kind, op.call args loc = .error (.error ⟨.typeMismatch "number" kind, loc⟩) ↔
      op.least ≤ args.length ∧ ∃ before v rest, args = before ++ v :: rest ∧
        (∀ w ∈ before, w.isNumber = true) ∧ v.isNumber = false ∧ v.kind = kind) ∧
    (op.least ≤ args.length → (∀ v ∈ args, v.isNumber = true) →
      (∀ c, op = .comparison c → ∃ b, op.call args loc = .ok (.bool b none)) ∧
      (∀ a first rest, op = .arithmetic a →
        args.map Value.number? = (.integer first :: rest.map .integer).map some →
        (op.call args loc = .error (.error ⟨.divisionByZero, loc⟩) ↔ a.MeetsZero first rest) ∧
        (op.call args loc = .error (.error ⟨.integerOverflow op.name, loc⟩) ↔
          a.MeetsOverflow first rest) ∧
        (¬ a.MeetsZero first rest → ¬ a.MeetsOverflow first rest →
          op.call args loc = .ok (.integer (a.result first rest) none) ∧
            Integer.inRange (a.result first rest) = true)) ∧
      (∀ a first rest, op = .arithmetic a → args.map Value.number? = (first :: rest).map some →
        (∃ n ∈ first :: rest, n.isFloat = true) →
        (op.call args loc = .error (.error ⟨.divisionByZero, loc⟩) ↔
          a.divides = true ∧ ∃ n ∈ rest, n = .integer 0 ∨ n = .float 0.0 ∨ n = .float (-0.0)) ∧
        (op.call args loc ≠ .error (.error ⟨.divisionByZero, loc⟩) →
          ∃ x, op.call args loc = .ok (.float x none)))) ∧
    (∀ f, op.call args loc = .error f → ∃ cause, f = .error ⟨cause, loc⟩) ∧
    ∀ v, op.call args loc = .ok v → v.loc = none := by
  refine ⟨Operator.call_eq_arity_iff allowed, fun kind => Operator.call_eq_typeMismatch_iff allowed,
    fun enough numeric => ⟨?_, ?_, ?_⟩, ?_, ?_⟩
  · rintro c rfl
    obtain ⟨operands, given⟩ := Operator.exists_numbers numeric
    exact ⟨c.chain operands, Operator.call_comparison enough given⟩
  · rintro a first rest rfl given
    have inRange : Integer.inRange first = true :=
      Operator.inRange_of_given allowed given (.integer first) List.mem_cons_self
    rw [Operator.call_arithmetic enough given]
    refine ⟨Arithmetic.call_integers_eq_divisionByZero_iff inRange,
      Arithmetic.call_integers_eq_overflow_iff inRange, fun noZero noOverflow => ?_⟩
    have returned : a.call loc (.integer first) (rest.map .integer) = _ :=
      Arithmetic.call_of_meets_nothing inRange noZero noOverflow
    cases Arithmetic.call_computed returned with
    | integer fits => exact ⟨returned, fits⟩
  · rintro a first rest rfl given float
    have inRange := Operator.inRange_of_given allowed given
    rw [Operator.call_arithmetic enough given]
    constructor
    · simp only [Arithmetic.call_floats_eq_divisionByZero_iff inRange float, Number.isZero_iff]
    · intro noError
      have noZero := mt (Arithmetic.call_floats_eq_divisionByZero_iff inRange float).2 noError
      exact Arithmetic.call_of_float_no_zero inRange float noZero
  · intro f failed
    obtain ⟨cause, _, same⟩ := Operator.call_fault allowed failed
    exact ⟨cause, same⟩
  · intro v returned
    cases Operator.call_computed returned with
    | integer => rfl
    | float => rfl
    | bool => rfl

/-- A string is to blame although the product is out of range before it, and negative zero is a zero
divisor. Among integers, what comes first from the left is met: a zero divisor after a quotient that
is in range, or a product out of range before a factor of zero. -/
theorem operator_call_outcome_of_mixed :
    (Operator.arithmetic .mul).call
        [.integer Integer.greatest none, .integer 2 none, .string "x" none, .bool true none] none =
      .error (.error ⟨.typeMismatch "number" "String", none⟩) ∧
    (Operator.arithmetic .div).call
        [.integer 1 none, .float 2.5 none, .float (-0.0) none] none =
      .error (.error ⟨.divisionByZero, none⟩) ∧
    (Operator.arithmetic .div).call [.integer 7 none, .integer 2 none, .integer 0 none] none =
      .error (.error ⟨.divisionByZero, none⟩) ∧
    (Operator.arithmetic .mul).call
        [.integer Integer.greatest none, .integer 2 none, .integer 0 none] none =
      .error (.error ⟨.integerOverflow "*", none⟩) := by
  have extreme : Integer.inRange Integer.greatest = true := by decide
  have small : Integer.inRange 7 = true ∧ Integer.inRange 2 = true ∧ Integer.inRange 0 = true := by
    decide
  refine ⟨?_, ?_, ?_, ?_⟩
  · have outcome := operator_call_outcome (.arithmetic .mul) [.integer Integer.greatest none,
      .integer 2 none, .string "x" none, .bool true none] none (by grind)
    exact (outcome.2.1 "String").2 ⟨by decide, [.integer Integer.greatest none, .integer 2 none],
      .string "x" none, [.bool true none], rfl, by simp [Value.isNumber], rfl, rfl⟩
  · have outcome := operator_call_outcome (.arithmetic .div)
      [.integer 1 none, .float 2.5 none, .float (-0.0) none] none (by simp +decide)
    have numbers := outcome.2.2.1 (by decide) (by simp [Value.isNumber])
    have division := numbers.2.2 .div (.integer 1) [.float 2.5, .float (-0.0)] rfl rfl
      ⟨.float 2.5, by simp, rfl⟩
    exact division.1.2 ⟨rfl, .float (-0.0), by simp, .inr (.inr rfl)⟩
  · have outcome := operator_call_outcome (.arithmetic .div)
      [.integer 7 none, .integer 2 none, .integer 0 none] none (by grind)
    have numbers := outcome.2.2.1 (by decide) (by simp [Value.isNumber])
    have division := numbers.2.1 .div 7 [2, 0] rfl rfl
    have clear : Arithmetic.div.Clear 7 [2] :=
      Arithmetic.clear_cons_iff.2 ⟨by decide, by decide, Arithmetic.clear_nil _⟩
    exact division.1.2 ⟨[2], [], rfl, rfl, clear⟩
  · have outcome := operator_call_outcome (.arithmetic .mul)
      [.integer Integer.greatest none, .integer 2 none, .integer 0 none] none (by grind)
    have numbers := outcome.2.2.1 (by decide) (by simp [Value.isNumber])
    have product := numbers.2.1 .mul Integer.greatest [2, 0] rfl rfl
    exact product.2.1.2 (.inr ⟨[], 2, [0], rfl, Arithmetic.clear_nil _, by decide, by decide⟩)

end ScopedLisp
