import Mathlib.Algebra.Order.Field.Rat
import Mathlib.Data.List.Chain
import Mathlib.Data.List.Forall2
import Mathlib.Tactic.NormNum
import ScopedLisp.Proofs.OperatorOutcome

set_option autoImplicit false

namespace ScopedLisp

/-- The rational that a finite binary number is. -/
def Binary64.rational? : Binary64 → Option ℚ
  | finite negative mantissa exponent =>
    some ((if negative then -1 else 1) * mantissa * 2 ^ exponent)
  | _ => none

/-- The rational that a number is, if it is finite. An integer is that integer. -/
def Number.rational? : Number → Option ℚ
  | integer n => some n
  | float x => (Binary64.ofFloat x).rational?

/-- The arguments are numbers with these values, wherever they were read or made. -/
def Value.AreRationals (args : List Value) (values : List ℚ) : Prop :=
  List.Forall₂ (fun v q => v.number?.bind Number.rational? = some q) args values

theorem Binary64.toRat_dyadic (negative : Bool) (mantissa : Nat) (exponent : Int) :
    (dyadic negative mantissa exponent).toRat =
      (if negative then -1 else 1) * mantissa * 2 ^ exponent := by
  rw [dyadic, Dyadic.toRat_ofIntWithPrec_eq_mul_two_pow, neg_neg]
  cases negative
  · simp
  · simp

theorem Number.exact_of_rational? {n : Number} {q : ℚ} (value : n.rational? = some q) :
    ∃ d : Dyadic, n.exact = .finite d ∧ d.toRat = q := by
  cases n with
  | integer n =>
    refine ⟨.ofInt n, rfl, ?_⟩
    cases value
    rw [Dyadic.ofInt, Dyadic.toRat_ofIntWithPrec_eq_mul_two_pow]
    simp
  | float x =>
    unfold rational? at value
    cases parts : Binary64.ofFloat x with
    | nan => simp [parts, Binary64.rational?] at value
    | infinite negative => simp [parts, Binary64.rational?] at value
    | finite negative mantissa exponent =>
      refine ⟨Binary64.dyadic negative mantissa exponent, ?_, ?_⟩
      · simp only [exact, ExactValue.ofFloat, parts]
      · simp only [parts, Binary64.rational?, Option.some.injEq] at value
        rw [Binary64.toRat_dyadic, value]

theorem dyadic_eq_iff {d e : Dyadic} : d = e ↔ d.toRat = e.toRat := by
  constructor
  · rintro rfl
    rfl
  · intro equal
    exact Dyadic.le_antisymm (Dyadic.toRat_le_toRat_iff.1 equal.le)
      (Dyadic.toRat_le_toRat_iff.1 equal.ge)

theorem ExactValue.compare?_finite (d e : Dyadic) :
    compare? (finite d) (finite e) = some (cmp d.toRat e.toRat) := by
  generalize order : cmp d.toRat e.toRat = expected
  simp only [compare?, ← Dyadic.toRat_lt_toRat_iff, dyadic_eq_iff]
  rcases lt_trichotomy d.toRat e.toRat with less | equal | greater
  · rw [if_pos less, ← order, (cmp_eq_lt_iff _ _).2 less]
  · rw [if_neg equal.not_lt, if_pos equal, ← order, (cmp_eq_eq_iff _ _).2 equal]
  · rw [if_neg greater.not_gt, if_neg greater.ne', ← order, (cmp_eq_gt_iff _ _).2 greater]

namespace Comparison

/-- What a comparison says about two rationals. -/
def Relates : Comparison → ℚ → ℚ → Prop
  | gt, x, y => x > y
  | lt, x, y => x < y
  | eq, x, y => x = y
  | ge, x, y => x ≥ y
  | le, x, y => x ≤ y
  | ne, x, y => x ≠ y

theorem holds_cmp_iff (c : Comparison) (x y : ℚ) :
    c.holds (some (cmp x y)) = true ↔ c.Relates x y := by
  have below := cmp_eq_lt_iff x y
  have equal := cmp_eq_eq_iff x y
  have above := cmp_eq_gt_iff x y
  generalize cmp x y = order at below equal above ⊢
  cases c with
  | gt => simp [holds, Relates, above]
  | lt => simp [holds, Relates, below]
  | eq => simp [holds, Relates, equal]
  | ge => simp [holds, Relates, above, equal, le_iff_lt_or_eq, @eq_comm _ y x]
  | le => simp [holds, Relates, below, equal, le_iff_lt_or_eq]
  | ne => simp [holds, Relates, equal]

/-- A comparison of two numbers that are not infinite compares rationals. -/
theorem holds_iff (c : Comparison) {m n : Number} {x y : ℚ} (left : m.rational? = some x)
    (right : n.rational? = some y) :
    c.holds (m.exact.compare? n.exact) = true ↔ c.Relates x y := by
  obtain ⟨d, exactLeft, rfl⟩ := Number.exact_of_rational? left
  obtain ⟨e, exactRight, rfl⟩ := Number.exact_of_rational? right
  rw [exactLeft, exactRight, ExactValue.compare?_finite]
  exact c.holds_cmp_iff d.toRat e.toRat

theorem chain_iff (c : Comparison) {operands : List Number} {values : List ℚ}
    (given : List.Forall₂ (fun n q => n.rational? = some q) operands values) :
    c.chain operands = true ↔ values.IsChain c.Relates := by
  induction given with
  | nil => simp [chain]
  | cons first rest ih =>
    cases rest with
    | nil => simp [chain]
    | cons second rest =>
      rw [chain, Bool.and_eq_true, c.holds_iff first second, ih, List.isChain_cons_cons]

/-- All comparisons but inequality carry over from neighbours to any two operands. -/
theorem relates_trans {c : Comparison} (ordered : c ≠ ne) {x y z : ℚ} (left : c.Relates x y)
    (right : c.Relates y z) : c.Relates x z := by
  cases c with
  | gt => exact lt_trans right left
  | lt => exact lt_trans left right
  | eq => exact Eq.trans left right
  | ge => exact le_trans right left
  | le => exact le_trans left right
  | ne => exact absurd rfl ordered

theorem isChain_iff_pairwise {c : Comparison} (ordered : c ≠ ne) {values : List ℚ} :
    values.IsChain c.Relates ↔ values.Pairwise c.Relates := by
  have transitive : Trans c.Relates c.Relates c.Relates := ⟨relates_trans ordered⟩
  exact List.isChain_iff_pairwise

end Comparison

namespace Value.AreRationals

variable {args : List Value} {values : List ℚ}

theorem exists_numbers (given : AreRationals args values) :
    ∃ operands : List Number, args.map Value.number? = operands.map some ∧
      List.Forall₂ (fun n q => n.rational? = some q) operands values := by
  induction given with
  | nil => exact ⟨[], rfl, .nil⟩
  | cons value _ ih =>
    obtain ⟨n, number, rational⟩ := Option.bind_eq_some_iff.1 value
    obtain ⟨operands, numbers, rationals⟩ := ih
    exact ⟨n :: operands, by simp [number, numbers], .cons rational rationals⟩

end Value.AreRationals

/-- What a comparison of two or more integers and finite floats returns. The five comparisons that
order or equate return whether they hold between the exact values of any two operands in their
order, and inequality returns whether it holds between neighbours. -/
theorem comparison_exact (c : Comparison) {args : List Value} {values : List ℚ}
    (loc : Option Location) (several : 2 ≤ args.length) (given : Value.AreRationals args values) :
    ∃ b, (Operator.comparison c).call args loc = .ok (.bool b none) ∧
      (c ≠ .ne → (b = true ↔ values.Pairwise c.Relates)) ∧
      (c = .ne → (b = true ↔ values.IsChain (· ≠ ·))) := by
  obtain ⟨operands, numbers, rationals⟩ := given.exists_numbers
  have least : (Operator.comparison c).least = 2 := by cases c <;> decide
  refine ⟨c.chain operands, Operator.call_comparison (by omega) numbers, ?_, ?_⟩
  · intro ordered
    rw [c.chain_iff rationals, Comparison.isChain_iff_pairwise ordered]
  · rintro rfl
    exact Comparison.chain_iff .ne rationals

/-- The integer between two neighbouring floats lies strictly between them and equals neither, though
the float nearest to it is the lower one. -/
theorem comparison_exact_of_neighbours :
    (Operator.comparison .lt).call [.float 9007199254740992.0 none,
        .integer 9007199254740993 none, .float 9007199254740994.0 none] none =
      .ok (.bool true none) ∧
    (Operator.comparison .eq).call [.float 9007199254740992.0 none,
        .integer 9007199254740993 none, .float 9007199254740994.0 none] none =
      .ok (.bool false none) := by
  have lower : (Number.float 9007199254740992.0).rational? = some 9007199254740992 := by
    have parts : Binary64.ofFloat 9007199254740992.0 = .finite false 4503599627370496 1 := by decide
    norm_num [Number.rational?, parts, Binary64.rational?]
  have upper : (Number.float 9007199254740994.0).rational? = some 9007199254740994 := by
    have parts : Binary64.ofFloat 9007199254740994.0 = .finite false 4503599627370497 1 := by decide
    norm_num [Number.rational?, parts, Binary64.rational?]
  have given : Value.AreRationals [.float 9007199254740992.0 none,
      .integer 9007199254740993 none, .float 9007199254740994.0 none]
      [9007199254740992, 9007199254740993, 9007199254740994] :=
    .cons lower (.cons rfl (.cons upper .nil))
  constructor
  · obtain ⟨b, returned, ordered, _⟩ := comparison_exact .lt none (by decide) given
    have increasing : b = true := (ordered (by decide)).2 (by norm_num [Comparison.Relates])
    rw [returned, increasing]
  · obtain ⟨b, returned, ordered, _⟩ := comparison_exact .eq none (by decide) given
    have different : b = false := by
      apply Bool.eq_false_iff.2
      intro equal
      have pairs := (ordered (by decide)).1 equal
      norm_num [Comparison.Relates] at pairs
    rw [returned, different]

end ScopedLisp
