import Mathlib.Data.Rat.Floor
import ScopedLisp.Proofs.ExactTotals

set_option autoImplicit false

namespace ScopedLisp

/-- The last whole number on the way from zero to a rational. -/
def towardZero (x : ℚ) : ℤ :=
  if 0 ≤ x then ⌊x⌋ else ⌈x⌉

theorem towardZero_neg (x : ℚ) : towardZero (-x) = -towardZero x := by
  unfold towardZero
  rcases lt_trichotomy x 0 with negative | rfl | positive
  · have flipped : 0 ≤ -x := neg_nonneg.2 negative.le
    rw [if_pos flipped, if_neg negative.not_ge, Int.floor_neg]
  · simp
  · have flipped : ¬ 0 ≤ -x := (neg_neg_of_pos positive).not_ge
    rw [if_neg flipped, if_pos positive.le, Int.ceil_neg]

/-- The exact quotient of two integers, rounded toward zero. -/
theorem towardZero_div (m n : ℤ) : towardZero (m / n) = m.tdiv n := by
  have natural (k l : ℕ) : towardZero (k / l) = (k : ℤ).tdiv l := by
    have nonneg : (0 : ℚ) ≤ k / l := by positivity
    rw [towardZero, if_pos nonneg, Rat.floor_natCast_div_natCast]
    rfl
  obtain ⟨k, rfl | rfl⟩ := m.eq_nat_or_neg <;> obtain ⟨l, rfl | rfl⟩ := n.eq_nat_or_neg <;>
    simp only [Int.cast_neg, Int.cast_natCast, neg_div, div_neg, neg_neg, towardZero_neg, natural,
      Int.neg_tdiv, Int.tdiv_neg]

theorem tdiv_tdiv (m n k : Int) : (m.tdiv n).tdiv k = m.tdiv (n * k) := by
  obtain ⟨a, rfl | rfl⟩ := m.eq_nat_or_neg <;> obtain ⟨b, rfl | rfl⟩ := n.eq_nat_or_neg <;>
    obtain ⟨c, rfl | rfl⟩ := k.eq_nat_or_neg <;>
    simp only [Int.neg_tdiv, Int.tdiv_neg, Int.neg_mul, Int.mul_neg, neg_neg, ← Int.ofNat_tdiv,
      ← Int.natCast_mul, Nat.div_div_eq_div_mul]

/-- A divisor keeps the dividend, changes its sign, or leaves at most half of it. -/
theorem tdiv_keeps_or_halves (m : Int) {n : Int} (nonzero : n ≠ 0) :
    (n = 1 ∧ m.tdiv n = m) ∨ (n = -1 ∧ m.tdiv n = -m) ∨
      (n ≠ 1 ∧ n ≠ -1 ∧ 2 * (m.tdiv n).natAbs ≤ m.natAbs) := by
  by_cases one : n = 1
  · exact .inl ⟨one, by rw [one, Int.tdiv_one]⟩
  · by_cases minusOne : n = -1
    · exact .inr (.inl ⟨minusOne, by rw [minusOne, Int.tdiv_neg, Int.tdiv_one]⟩)
    · have size : (m.tdiv n).natAbs = m.natAbs / n.natAbs := Int.natAbs_tdiv m n
      have half : m.natAbs / n.natAbs ≤ m.natAbs / 2 := Nat.div_le_div_left (by omega) (by decide)
      exact .inr (.inr ⟨one, minusOne, by omega⟩)

namespace Arithmetic

/-- The floor of the magnitudes' quotient, with the quotient's sign, is the quotient rounded
toward zero. -/
theorem quotient_eq_tdiv (m n : Int) : quotient m n = m.tdiv n := by
  have magnitude : Int.fdiv m.natAbs n.natAbs = (m.tdiv n).natAbs := by
    rw [Int.fdiv_eq_tdiv_of_nonneg (Int.natCast_nonneg _) (Int.natCast_nonneg _), Int.natAbs_tdiv]
    rfl
  rw [quotient, magnitude]
  by_cases dividend : m < 0 <;> by_cases divisor : n < 0 <;>
    simp only [dividend, divisor, decide_true, decide_false, reduceCtorEq, ↓reduceIte]
  · have nonneg := Int.tdiv_nonneg_of_nonpos_of_nonpos dividend.le divisor.le
    omega
  · have nonneg : 0 ≤ (-m).tdiv n := Int.tdiv_nonneg (by omega) (by omega)
    rw [Int.neg_tdiv] at nonneg
    omega
  · have nonpos : m.tdiv n ≤ 0 := Int.tdiv_nonpos_of_nonneg_of_nonpos (by omega) divisor.le
    omega
  · have nonneg : 0 ≤ m.tdiv n := Int.tdiv_nonneg (by omega) (by omega)
    omega

theorem remainder_eq_tmod (m n : Int) : remainder m n = m.tmod n := by
  rw [remainder, quotient_eq_tdiv, Int.tmod_def]

section Quotient

variable {m n : Int}

theorem inRange_tdiv_iff (inRange : Integer.inRange m = true) (nonzero : n ≠ 0) :
    Integer.inRange (m.tdiv n) = true ↔ ¬ (m = -2 ^ 127 ∧ n = -1) := by
  rw [Integer.inRange_iff_pow] at inRange ⊢
  have parts := tdiv_keeps_or_halves m nonzero
  omega

theorem tdiv_eq_least_iff (inRange : Integer.inRange m = true) (nonzero : n ≠ 0) :
    m.tdiv n = -2 ^ 127 ↔ m = -2 ^ 127 ∧ n = 1 := by
  rw [Integer.inRange_iff_pow] at inRange
  have parts := tdiv_keeps_or_halves m nonzero
  omega

/-- The dividend is the least integer, and the first divisor other than one is minus one. -/
def QuotientOverflows (m : Int) (divisors : List Int) : Prop :=
  m = -2 ^ 127 ∧ divisors.find? (· ≠ 1) = some (-1)

instance QuotientOverflows.decidable (m : Int) (divisors : List Int) :
    Decidable (QuotientOverflows m divisors) :=
  inferInstanceAs (Decidable (_ ∧ _))

/-- Past the first divisor a quotient overflows for the same reason. -/
theorem quotientOverflows_cons_iff (inRange : Integer.inRange m = true) (nonzero : n ≠ 0)
    (fits : Integer.inRange (m.tdiv n) = true) (rest : List Int) :
    QuotientOverflows m (n :: rest) ↔ QuotientOverflows (m.tdiv n) rest := by
  unfold QuotientOverflows
  rw [tdiv_eq_least_iff inRange nonzero]
  by_cases one : n = 1
  · simp [one]
  · have first : (n :: rest).find? (· ≠ 1) = some n := by simp [one]
    have stays := (inRange_tdiv_iff inRange nonzero).1 fits
    constructor
    · rintro ⟨least, found⟩
      exact absurd ⟨least, Option.some.inj (first.symm.trans found)⟩ stays
    · rintro ⟨⟨_, isOne⟩, _⟩
      exact absurd isOne one

/-- How a chain of divisions ends. The whole quotient is rounded once, although every step rounds. -/
theorem foldIntegers_div (loc : Option Location) (inRange : Integer.inRange m = true)
    (rest : List Int) :
    div.foldIntegers loc m rest =
      if QuotientOverflows m rest then .error ⟨.integerOverflow "/", loc⟩
      else if 0 ∈ rest then .error ⟨.divisionByZero, loc⟩
      else .ok (.integer (m.tdiv rest.prod) none) := by
  induction rest generalizing m with
  | nil => simp [foldIntegers, boxed, inRange, QuotientOverflows]
  | cons n rest ih =>
    by_cases zero : n = 0
    · simp [foldIntegers, divides, zero, QuotientOverflows]
    · have step : (div.divides && n == 0) = false := by simpa [divides] using zero
      rw [foldIntegers, step]
      -- The induction is on the divisors. What is left to divide is again in range, and it is the
      -- least integer only if nothing has changed yet.
      cases fits : Integer.inRange (m.tdiv n) with
      | true =>
        have further := quotientOverflows_cons_iff inRange zero fits rest
        have later : 0 ∈ n :: rest ↔ 0 ∈ rest := by simp [Ne.symm zero]
        simp only [onIntegers, quotient_eq_tdiv, fits, ih fits, further, later, List.prod_cons,
          tdiv_tdiv]
        rfl
      | false =>
        have edge : m = -2 ^ 127 ∧ n = -1 := by
          have leaves := (inRange_tdiv_iff inRange zero).not.1 (Bool.eq_false_iff.1 fits)
          exact not_not.1 leaves
        have overflows : QuotientOverflows m (n :: rest) := by simp [QuotientOverflows, edge]
        simp only [onIntegers, quotient_eq_tdiv, fits, overflows]
        rfl

end Quotient

section Remainder

theorem onIntegers_rem : rem.onIntegers = Int.tmod := by
  funext m n
  exact remainder_eq_tmod m n

/-- A remainder is what the exact quotient, rounded toward zero, leaves over. -/
theorem sub_towardZero_eq : (fun m n : ℤ => m - n * towardZero (m / n)) = Int.tmod := by
  funext m n
  rw [towardZero_div, Int.tmod_def]

theorem tmod_between (m n : Int) :
    (0 ≤ m.tmod n ∧ m.tmod n ≤ m) ∨ (m ≤ m.tmod n ∧ m.tmod n ≤ 0) := by
  have size : (m.tmod n).natAbs ≤ m.natAbs := by
    rw [Int.natAbs_tmod]
    exact Nat.mod_le _ _
  rcases Int.le_total 0 m with nonneg | nonpos
  · have same := Int.tmod_nonneg n nonneg
    omega
  · have same := Int.tmod_nonneg n (Int.neg_nonneg_of_nonpos nonpos)
    rw [Int.neg_tmod] at same
    omega

theorem foldl_tmod_between (m : Int) (rest : List Int) :
    (0 ≤ rest.foldl Int.tmod m ∧ rest.foldl Int.tmod m ≤ m) ∨
      (m ≤ rest.foldl Int.tmod m ∧ rest.foldl Int.tmod m ≤ 0) := by
  induction rest generalizing m with
  | nil =>
    rw [List.foldl_nil]
    omega
  | cons n rest ih =>
    have step := tmod_between m n
    have further := ih (m.tmod n)
    rw [List.foldl_cons]
    omega

theorem foldl_tmod_sign (m : Int) (rest : List Int) :
    rest.foldl Int.tmod m = 0 ∨ (rest.foldl Int.tmod m).sign = m.sign := by
  by_cases zero : rest.foldl Int.tmod m = 0
  · exact .inl zero
  · right
    rcases foldl_tmod_between m rest with ⟨nonneg, le⟩ | ⟨ge, nonpos⟩
    · rw [Int.sign_eq_one_of_pos (by omega), Int.sign_eq_one_of_pos (by omega)]
    · rw [Int.sign_eq_neg_one_of_neg (by omega), Int.sign_eq_neg_one_of_neg (by omega)]

/-- The last remainder is less than every divisor, also than those of earlier steps. -/
theorem natAbs_foldl_tmod_lt (m : Int) {rest : List Int} (nonzero : 0 ∉ rest) {n : Int}
    (member : n ∈ rest) : (rest.foldl Int.tmod m).natAbs < n.natAbs := by
  induction rest generalizing m with
  | nil => cases member
  | cons k rest ih =>
    obtain ⟨divisor, later⟩ := not_or.1 (mt List.mem_cons.2 nonzero)
    rw [List.foldl_cons]
    rcases List.mem_cons.1 member with rfl | member
    · have step : (m.tmod n).natAbs < n.natAbs := by
        rw [Int.natAbs_tmod]
        exact Nat.mod_lt _ (by omega)
      -- Later steps never make the remainder greater again.
      have further := foldl_tmod_between (m.tmod n) rest
      omega
    · exact ih _ later member

/-- A chain of remainders by divisors that are not zero always has a result. -/
theorem foldIntegers_rem (loc : Option Location) {m : Int} (inRange : Integer.inRange m = true)
    {rest : List Int} (nonzero : 0 ∉ rest) :
    rem.foldIntegers loc m rest = .ok (.integer (rest.foldl Int.tmod m) none) := by
  have clear : rem.Clear m rest := by
    refine ⟨fun _ => nonzero, fun taken _ _ => ?_⟩
    have between := foldl_tmod_between m taken
    rw [Integer.inRange_iff_pow] at inRange ⊢
    rw [onIntegers_rem]
    omega
  rw [foldIntegers_of_clear inRange clear, onIntegers_rem]

end Remainder

end Arithmetic

/-- What dividing an integer in range by one or more others, from left to right, comes to. It
overflows exactly if the dividend is the least integer and the first divisor other than one is minus
one, whatever comes later. Otherwise a divisor that is zero makes it fail, and without one it returns
the exact quotient by the product of all divisors, rounded toward zero once. -/
theorem integer_division_chain {args : List Value} {first : Int} {rest : List Int}
    (loc : Option Location) (given : Value.AreIntegers args (first :: rest)) (nonempty : rest ≠ [])
    (inRange : ∀ n ∈ first :: rest, -2 ^ 127 ≤ n ∧ n ≤ 2 ^ 127 - 1) :
    ((Operator.arithmetic .div).call args loc = .error (.error ⟨.integerOverflow "/", loc⟩) ↔
      first = -2 ^ 127 ∧ rest.find? (· ≠ 1) = some (-1)) ∧
    (¬ (first = -2 ^ 127 ∧ rest.find? (· ≠ 1) = some (-1)) →
      ((Operator.arithmetic .div).call args loc = .error (.error ⟨.divisionByZero, loc⟩) ↔
        0 ∈ rest) ∧
      (0 ∉ rest → (Operator.arithmetic .div).call args loc =
        .ok (.integer (towardZero (first / rest.prod)) none))) := by
  have fits := (Integer.inRange_iff_pow first).2 (inRange first List.mem_cons_self)
  have exact : towardZero (first / rest.prod) = first.tdiv rest.prod := towardZero_div _ _
  rw [Operator.call_of_several given nonempty, Arithmetic.foldIntegers_div loc fits, exact]
  change (_ ↔ Arithmetic.QuotientOverflows first rest) ∧
    (¬ Arithmetic.QuotientOverflows first rest → _)
  by_cases overflows : Arithmetic.QuotientOverflows first rest
  · simp [overflows, Except.mapError]
  · by_cases zero : 0 ∈ rest
    · simp [overflows, zero, Except.mapError]
    · simp [overflows, zero, Except.mapError]

/-- Ones keep the least integer, and minus one then leads out of range before the zero is met. After
a two the zero is met. Divisors of both signs are one division by their product. -/
theorem integer_division_chain_of_signs :
    (Operator.arithmetic .div).call [.integer (-2 ^ 127) none, .integer 1 none, .integer (-1) none,
        .integer 0 none] none = .error (.error ⟨.integerOverflow "/", none⟩) ∧
    (Operator.arithmetic .div).call [.integer (-2 ^ 127) none, .integer 2 none, .integer (-1) none,
        .integer 0 none] none = .error (.error ⟨.divisionByZero, none⟩) ∧
    (Operator.arithmetic .div).call [.integer (-29) none, .integer 3 none, .integer (-4) none] none =
      .ok (.integer 2 none) := by
  refine ⟨?_, ?_, ?_⟩
  · have given : Value.AreIntegers [.integer (-2 ^ 127) none, .integer 1 none, .integer (-1) none,
        .integer 0 none] [-2 ^ 127, 1, -1, 0] :=
      .cons ⟨none, rfl⟩ (.cons ⟨none, rfl⟩ (.cons ⟨none, rfl⟩ (.cons ⟨none, rfl⟩ .nil)))
    have chain := integer_division_chain none given (by simp) (by simp)
    exact chain.1.2 ⟨rfl, by decide⟩
  · have given : Value.AreIntegers [.integer (-2 ^ 127) none, .integer 2 none, .integer (-1) none,
        .integer 0 none] [-2 ^ 127, 2, -1, 0] :=
      .cons ⟨none, rfl⟩ (.cons ⟨none, rfl⟩ (.cons ⟨none, rfl⟩ (.cons ⟨none, rfl⟩ .nil)))
    have chain := integer_division_chain none given (by simp) (by simp)
    exact (chain.2 (by simp)).1.2 (by simp)
  · have given : Value.AreIntegers [.integer (-29) none, .integer 3 none, .integer (-4) none]
        [-29, 3, -4] :=
      .cons ⟨none, rfl⟩ (.cons ⟨none, rfl⟩ (.cons ⟨none, rfl⟩ .nil))
    have chain := integer_division_chain none given (by simp) (by simp)
    rw [(chain.2 (by simp)).2 (by simp), towardZero_div]
    rfl

/-- What the remainder of an integer in range by one or more others, from left to right, comes to, if
no divisor is zero. It always returns. Every step leaves over what the exact quotient, rounded toward
zero, does not take away. The magnitude of the last remainder is less than that of every divisor, and
it is zero or has the sign of the dividend. With one divisor it makes up the dividend with the
quotient, also where the quotient overflows. -/
theorem integer_remainder {args : List Value} {first : Int} {rest : List Int}
    (loc : Option Location) (given : Value.AreIntegers args (first :: rest)) (nonempty : rest ≠ [])
    (inRange : ∀ n ∈ first :: rest, -2 ^ 127 ≤ n ∧ n ≤ 2 ^ 127 - 1) (nonzero : 0 ∉ rest) :
    ∃ r, (Operator.arithmetic .rem).call args loc = .ok (.integer r none) ∧
      r = rest.foldl (fun m n : ℤ => m - n * towardZero (m / n)) first ∧
      (∀ n ∈ rest, |r| < |n|) ∧ (r = 0 ∨ r.sign = first.sign) ∧
      (∀ n, rest = [n] → first = n * towardZero (first / n) + r) ∧
      (first = -2 ^ 127 → rest = [-1] → r = 0 ∧
        (Operator.arithmetic .div).call args loc = .error (.error ⟨.integerOverflow "/", loc⟩)) := by
  have fits := (Integer.inRange_iff_pow first).2 (inRange first List.mem_cons_self)
  refine ⟨rest.foldl Int.tmod first, ?_, ?_, ?_, ?_, ?_, ?_⟩
  · rw [Operator.call_of_several given nonempty, Arithmetic.foldIntegers_rem loc fits nonzero]
    rfl
  · rw [Arithmetic.sub_towardZero_eq]
  · intro n member
    have less := Arithmetic.natAbs_foldl_tmod_lt first nonzero member
    rw [Int.abs_eq_natAbs, Int.abs_eq_natAbs]
    exact Int.ofNat_lt.2 less
  · exact Arithmetic.foldl_tmod_sign first rest
  · rintro n rfl
    rw [towardZero_div, List.foldl_cons, List.foldl_nil]
    exact (Int.mul_tdiv_add_tmod first n).symm
  · rintro rfl rfl
    refine ⟨by decide, ?_⟩
    have overflows : Arithmetic.QuotientOverflows (-2 ^ 127) [-1] := ⟨rfl, by decide⟩
    rw [Operator.call_of_several given nonempty, Arithmetic.foldIntegers_div loc fits,
      if_pos overflows]
    rfl

/-- The remainder of the least integer by minus one is zero, where the quotient overflows. -/
theorem integer_remainder_of_least :
    (Operator.arithmetic .rem).call [.integer (-2 ^ 127) none, .integer (-1) none] none =
        .ok (.integer 0 none) ∧
      (Operator.arithmetic .div).call [.integer (-2 ^ 127) none, .integer (-1) none] none =
        .error (.error ⟨.integerOverflow "/", none⟩) := by
  have given : Value.AreIntegers [.integer (-2 ^ 127) none, .integer (-1) none] [-2 ^ 127, -1] :=
    .cons ⟨none, rfl⟩ (.cons ⟨none, rfl⟩ .nil)
  obtain ⟨r, returned, _, _, _, _, edge⟩ :=
    integer_remainder none given (by simp) (by simp) (by simp)
  obtain ⟨rfl, overflow⟩ := edge rfl rfl
  exact ⟨returned, overflow⟩

end ScopedLisp
