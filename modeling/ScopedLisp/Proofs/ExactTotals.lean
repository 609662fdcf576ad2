import Mathlib.Algebra.BigOperators.Group.List.Basic
import Mathlib.Algebra.Ring.Int.Defs
import Mathlib.Data.List.Perm.Basic
import ScopedLisp.Proofs.OperatorOutcome

set_option autoImplicit false

namespace ScopedLisp

theorem Integer.inRange_iff_pow (n : Int) :
    inRange n = true ↔ -2 ^ 127 ≤ n ∧ n ≤ 2 ^ 127 - 1 := by
  rw [inRange_iff]
  exact Iff.rfl

/-- The arguments are these integers, wherever they were read or made. -/
def Value.AreIntegers (args : List Value) (ns : List Int) : Prop :=
  List.Forall₂ (fun v n => ∃ place, v = .integer n place) args ns

namespace Value.AreIntegers

variable {args : List Value} {ns : List Int}

theorem map_number? (given : AreIntegers args ns) :
    args.map Value.number? = (ns.map Number.integer).map some := by
  induction given with
  | nil => rfl
  | cons same _ ih =>
    obtain ⟨place, rfl⟩ := same
    rw [List.map_cons, List.map_cons, List.map_cons, ih]
    rfl

/-- Arguments in another order are the same integers in another order. -/
theorem exists_perm (given : AreIntegers args ns) {args' : List Value} (reordered : args'.Perm args) :
    ∃ ns', AreIntegers args' ns' ∧ ns'.Perm ns :=
  List.perm_comp_forall₂ reordered given

end Value.AreIntegers

theorem Operator.call_of_integers {args : List Value} {first : Int} {rest : List Int}
    (given : Value.AreIntegers args (first :: rest)) {a : Arithmetic}
    (enough : (arithmetic a).least ≤ rest.length + 1) (loc : Option Location) :
    (arithmetic a).call args loc = a.call loc (.integer first) (rest.map .integer) := by
  have count : args.length = rest.length + 1 := List.Forall₂.length_eq given
  apply call_arithmetic
  · rw [count]
    exact enough
  · exact given.map_number?

theorem Operator.call_of_several {args : List Value} {first : Int} {rest : List Int}
    (given : Value.AreIntegers args (first :: rest)) (nonempty : rest ≠ []) (a : Arithmetic)
    (loc : Option Location) :
    (arithmetic a).call args loc = (a.foldIntegers loc first rest).mapError .error := by
  have count : 0 < rest.length := List.length_pos_of_ne_nil nonempty
  have enough : (arithmetic a).least ≤ rest.length + 1 := by
    have two : (arithmetic a).least ≤ 2 := by cases a <;> decide
    omega
  have noNegation : ¬ (a = .sub ∧ rest = []) := fun ⟨_, isEmpty⟩ => nonempty isEmpty
  rw [call_of_integers given enough, Arithmetic.call_integers, if_neg noNegation]

namespace Arithmetic

/-- The operators that come to a sum, a difference or a product of integers, each with its result in
unbounded arithmetic. -/
inductive Exact : Arithmetic → (Int → List Int → Int) → Prop
  | sum : Exact add fun first rest => first + rest.sum
  | difference : Exact sub fun first rest => first - rest.sum
  | product : Exact mul fun first rest => first * rest.prod

/-- With the first operand and one or more of those after it, in their order, the result has 128
bits. -/
def StaysInRange (total : Int → List Int → Int) (first : Int) (rest : List Int) : Prop :=
  ∀ taken, taken <+: rest → taken ≠ [] →
    -2 ^ 127 ≤ total first taken ∧ total first taken ≤ 2 ^ 127 - 1

section Exact

variable {a : Arithmetic} {total : Int → List Int → Int} {first : Int} {rest : List Int}
  {loc : Option Location}

theorem Exact.not_divides (exact : a.Exact total) : ¬ a.divides = true := by
  cases exact <;> decide

theorem Exact.operator_call (exact : a.Exact total) {args : List Value}
    (given : Value.AreIntegers args (first :: rest)) (loc : Option Location) :
    (Operator.arithmetic a).call args loc = a.call loc (.integer first) (rest.map .integer) := by
  have one : (Operator.arithmetic a).least = 1 := by cases exact <;> decide
  have enough : (Operator.arithmetic a).least ≤ rest.length + 1 := by omega
  exact Operator.call_of_integers given enough loc

/-- Taking in one operand after the other comes to the whole result. -/
theorem Exact.foldl_eq (exact : a.Exact total) (first : Int) (rest : List Int) :
    rest.foldl a.onIntegers first = total first rest := by
  induction rest generalizing first with
  | nil => cases exact <;> simp
  | cons n rest ih =>
    rw [List.foldl_cons, ih]
    cases exact with
    | sum =>
      simp only [onIntegers, List.sum_cons]
      omega
    | difference =>
      simp only [onIntegers, List.sum_cons]
      omega
    | product =>
      simp only [onIntegers, List.prod_cons]
      exact Int.mul_assoc first n rest.prod

theorem Exact.clear_iff (exact : a.Exact total) :
    a.Clear first rest ↔ StaysInRange total first rest := by
  have fits (taken : List Int) : Integer.inRange (taken.foldl a.onIntegers first) = true ↔
      -2 ^ 127 ≤ total first taken ∧ total first taken ≤ 2 ^ 127 - 1 := by
    rw [exact.foldl_eq, Integer.inRange_iff_pow]
  constructor
  · intro clear taken before nonempty
    exact (fits taken).1 (clear.2 taken before nonempty)
  · intro stays
    refine ⟨fun divides => absurd divides exact.not_divides, fun taken before nonempty => ?_⟩
    exact (fits taken).2 (stays taken before nonempty)

theorem Exact.call_of_stays (exact : a.Exact total) (several : a = sub → rest ≠ [])
    (inRange : Integer.inRange first = true) (stays : StaysInRange total first rest) :
    a.call loc (.integer first) (rest.map .integer) = .ok (.integer (total first rest) none) := by
  have noNegation : ¬ (a = sub ∧ rest = []) := fun ⟨isSub, isEmpty⟩ => several isSub isEmpty
  rw [call_integers, if_neg noNegation, foldIntegers_of_clear inRange (exact.clear_iff.2 stays),
    exact.foldl_eq]
  rfl

theorem Exact.call_of_leaves (exact : a.Exact total) (leaves : ¬ StaysInRange total first rest) :
    a.call loc (.integer first) (rest.map .integer) =
      .error (.error ⟨.integerOverflow a.name, loc⟩) := by
  apply call_of_meetsOverflow
  rcases clear_or_exists_first (a := a) first rest with clear |
    ⟨before, n, after, split, clear, ⟨divides, _⟩ | ⟨divisor, outside⟩⟩
  · exact absurd (exact.clear_iff.1 clear) leaves
  · exact absurd divides exact.not_divides
  · exact .inr ⟨before, n, after, split, clear, divisor, outside⟩

theorem Exact.eq_of_call (exact : a.Exact total) (several : a = sub → rest ≠ [])
    (inRange : Integer.inRange first = true) {v : Value}
    (returned : a.call loc (.integer first) (rest.map .integer) = .ok v) :
    v = .integer (total first rest) none := by
  by_cases stays : StaysInRange total first rest
  · rw [exact.call_of_stays several inRange stays] at returned
    exact (Except.ok.inj returned).symm
  · rw [exact.call_of_leaves stays] at returned
    cases returned

/-- The order of the operands does not matter to a sum or a product. -/
theorem Exact.total_eq_of_perm (exact : a.Exact total) (symmetric : a ≠ sub) {first' : Int}
    {rest' : List Int} (reordered : (first' :: rest').Perm (first :: rest)) :
    total first' rest' = total first rest := by
  cases exact with
  | sum => simpa only [List.sum_cons] using reordered.sum_eq
  | difference => exact absurd rfl symmetric
  | product => simpa only [List.prod_cons] using reordered.prod_eq

/-- The negation of an integer in range is in range, but for the least one. -/
theorem call_negation (loc : Option Location) (inRange : Integer.inRange first = true) :
    sub.call loc (.integer first) [] =
      if first = -2 ^ 127 then .error (.error ⟨.integerOverflow "-", loc⟩)
      else .ok (.integer (-first) none) := by
  have negated : sub.call loc (.integer first) [] = _ := call_integers sub loc first []
  rw [negated, if_pos ⟨rfl, rfl⟩, boxed]
  have bounds := (Integer.inRange_iff_pow first).1 inRange
  have fits : Integer.inRange (-first) = true ↔ first ≠ -2 ^ 127 := by
    rw [Integer.inRange_iff_pow]
    omega
  by_cases least : first = -2 ^ 127
  · rw [if_pos least, if_neg (mt fits.1 (not_not.2 least))]
    rfl
  · rw [if_neg least, if_pos (fits.2 least)]
    rfl

end Exact

end Arithmetic

/-- A sum or a product returns the exact result of its operands, whatever their order. -/
theorem Operator.eq_of_reordered {a : Arithmetic} {total : Int → List Int → Int}
    (exact : a.Exact total) (symmetric : a ≠ .sub) {first : Int} {rest : List Int}
    (inRange : ∀ n ∈ first :: rest, Integer.inRange n = true) {args : List Value} {ns : List Int}
    (given : Value.AreIntegers args ns) (reordered : ns.Perm (first :: rest))
    {loc : Option Location} {v : Value} (returned : (arithmetic a).call args loc = .ok v) :
    v = .integer (total first rest) none := by
  cases ns with
  | nil => exact absurd reordered (List.not_perm_nil_cons first rest)
  | cons first' rest' =>
    have fits : Integer.inRange first' = true := inRange first' (reordered.subset List.mem_cons_self)
    rw [exact.operator_call given] at returned
    rw [exact.eq_of_call (fun isSub => absurd isSub symmetric) fits returned,
      exact.total_eq_of_perm symmetric reordered]

/-- What sums, differences and products of integers in range come to. If the results on the way from
left to right all have 128 bits, the call returns the result of unbounded arithmetic, and otherwise
it overflows, even if the last result has 128 bits again. A single integer is negated by a
difference, which fails for the least one only. Sums and products that succeed on the same operands
in two orders return the same integer. -/
theorem exact_totals {args : List Value} {first : Int} {rest : List Int} (loc : Option Location)
    (given : Value.AreIntegers args (first :: rest))
    (inRange : ∀ n ∈ first :: rest, -2 ^ 127 ≤ n ∧ n ≤ 2 ^ 127 - 1) :
    (∀ a total, Arithmetic.Exact a total → (a = .sub → rest ≠ []) →
      (Arithmetic.StaysInRange total first rest →
        (Operator.arithmetic a).call args loc = .ok (.integer (total first rest) none)) ∧
      (¬ Arithmetic.StaysInRange total first rest →
        (Operator.arithmetic a).call args loc = .error (.error ⟨.integerOverflow a.name, loc⟩))) ∧
    (rest = [] →
      (first ≠ -2 ^ 127 →
        (Operator.arithmetic .sub).call args loc = .ok (.integer (-first) none)) ∧
      (first = -2 ^ 127 →
        (Operator.arithmetic .sub).call args loc = .error (.error ⟨.integerOverflow "-", loc⟩))) ∧
    ∀ a, a = .add ∨ a = .mul → ∀ args' loc' v v', args'.Perm args →
      (Operator.arithmetic a).call args loc = .ok v →
      (Operator.arithmetic a).call args' loc' = .ok v' → v' = v := by
  have fits : ∀ n ∈ first :: rest, Integer.inRange n = true := fun n member =>
    (Integer.inRange_iff_pow n).2 (inRange n member)
  have firstFits := fits first List.mem_cons_self
  refine ⟨?_, ?_, ?_⟩
  · intro a total exact several
    rw [exact.operator_call given]
    exact ⟨exact.call_of_stays several firstFits, exact.call_of_leaves⟩
  · rintro rfl
    rw [Operator.call_of_integers given (by decide), List.map_nil,
      Arithmetic.call_negation loc firstFits]
    exact ⟨fun other => if_neg other, fun least => if_pos least⟩
  · intro a symmetric args' loc' v v' reordered returned returned'
    obtain ⟨ns, given', same⟩ := given.exists_perm reordered
    have one {total : Int → List Int → Int} (exact : a.Exact total) (notSub : a ≠ .sub) :
        v' = v := by
      rw [Operator.eq_of_reordered exact notSub fits given (List.Perm.refl _) returned,
        Operator.eq_of_reordered exact notSub fits given' same returned']
    rcases symmetric with rfl | rfl
    · exact one .sum (by decide)
    · exact one .product (by decide)

/-- A sum is out of range after its second operand, and the third does not undo that. The least
integer minus a negative one has a result. -/
theorem exact_totals_of_edges :
    (Operator.arithmetic .add).call
        [.integer (2 ^ 127 - 1) none, .integer 1 none, .integer (-1) none] none =
      .error (.error ⟨.integerOverflow "+", none⟩) ∧
    (Operator.arithmetic .sub).call [.integer (-2 ^ 127) none, .integer (-1) none] none =
      .ok (.integer (-2 ^ 127 + 1) none) := by
  constructor
  · have given : Value.AreIntegers
        [.integer (2 ^ 127 - 1) none, .integer 1 none, .integer (-1) none] [2 ^ 127 - 1, 1, -1] :=
      .cons ⟨none, rfl⟩ (.cons ⟨none, rfl⟩ (.cons ⟨none, rfl⟩ .nil))
    have totals := exact_totals none given (by simp)
    refine (totals.1 .add _ .sum (by decide)).2 fun stays => ?_
    have second := stays [1] (by simp) (by simp)
    simp at second
  · have given : Value.AreIntegers
        [.integer (-2 ^ 127) none, .integer (-1) none] [-2 ^ 127, -1] :=
      .cons ⟨none, rfl⟩ (.cons ⟨none, rfl⟩ .nil)
    have totals := exact_totals none given (by simp)
    refine (totals.1 .sub _ .difference (by simp)).1 fun taken before nonempty => ?_
    obtain ⟨n, more, rfl⟩ := List.exists_cons_of_ne_nil nonempty
    obtain ⟨rfl, none⟩ := List.cons_prefix_cons.1 before
    simp [List.prefix_nil.1 none]

end ScopedLisp
