import ScopedLisp.Proofs.ExactTotals
import ScopedLisp.Proofs.ReachableSession

set_option autoImplicit false

namespace ScopedLisp

namespace Value

/-- Every integer in the value has 128 bits, those in bodies of closures included. -/
def IntegersInRange (v : Value) : Prop :=
  ∀ n place, .integer n place ∈ v.parts → -2 ^ 127 ≤ n ∧ n ≤ 2 ^ 127 - 1

theorem IsCode.integersInRange {v : Value} (code : v.IsCode) : v.IntegersInRange := by
  intro n place member
  cases code.part member with
  | integer inRange => exact (Integer.inRange_iff_pow n).1 inRange

theorem IsData.integersInRange {v : Value} (data : v.IsData) : v.IntegersInRange := by
  intro n place member
  rcases data.part member with part | part
  · cases part with
    | integer inRange => exact (Integer.inRange_iff_pow n).1 inRange
  · cases part with
    | integer inRange => exact (Integer.inRange_iff_pow n).1 inRange

end Value

theorem Atom.Reads.integersInRange {loc : Option Location} {v : Value} (reads : Reads loc v) :
    v.IntegersInRange := by
  intro n place member
  have single : v.parts = [v] := by cases reads <;> rfl
  rw [single, List.mem_singleton] at member
  subst member
  cases reads with
  | integer inRange => exact (Integer.inRange_iff_pow n).1 inRange

/-- Where steps on integers succeed, the result of each step is in range. -/
theorem Arithmetic.foldIntegers_steps {a : Arithmetic} {loc : Option Location} {first : Int}
    {rest : List Int} {v : Value} (success : a.foldIntegers loc first rest = .ok v)
    {taken : List Int} (before : taken <+: rest) (nonempty : taken ≠ []) :
    Integer.inRange (taken.foldl a.onIntegers first) = true := by
  fun_induction foldIntegers a loc first rest generalizing taken with
  | case1 first => exact absurd (List.prefix_nil.1 before) nonempty
  | case2 => cases success
  | case3 first n rest divisor inRange ih =>
    cases taken with
    | nil => exact absurd rfl nonempty
    | cons m more =>
      obtain ⟨rfl, further⟩ := List.cons_prefix_cons.1 before
      cases more with
      | nil => exact inRange
      | cons next more => exact ih success further (List.cons_ne_nil next more)
  | case4 => cases success

/-- In every session that was started with the operators bound in its root and was given any texts,
each integer that is read, bound or returned has 128 bits, wherever it stands: in a list, in the
body of a closure, between texts or in the middle of one. No word is read as another integer, no
operator returns one on any arguments, and no step of an operator that succeeds has one as its
result. -/
theorem session_integers_in_range {s : Session} (reachable : s.Reachable) (source : String)
    (file : Option String) :
    (∀ forms, readProgram source file = .ok forms → ∀ form ∈ forms, form.IntegersInRange) ∧
    s.store.AllBound Value.IntegersInRange ∧
    (s.eval source file).2.store.AllBound Value.IntegersInRange ∧
    (∀ v, (s.eval source file).1 = .ok v → v.IntegersInRange) ∧
    (∀ task, s.Runs source file task →
      task.form.IntegersInRange ∧ task.store.AllBound Value.IntegersInRange ∧
      (task.after .usual).AllBound Value.IntegersInRange ∧
      ∀ v, (task.run .usual).1 = .done v → v.IntegersInRange) ∧
    (∀ word place v, Atom.read word place = .ok v → v.IntegersInRange) ∧
    (∀ (op : Operator) args place v, op.call args place = .ok v → v.IntegersInRange) ∧
    ∀ (a : Arithmetic) place first rest v, a.foldIntegers place first rest = .ok v →
      ∀ taken, taken <+: rest → taken ≠ [] →
        -2 ^ 127 ≤ taken.foldl a.onIntegers first ∧
          taken.foldl a.onIntegers first ≤ 2 ^ 127 - 1 := by
  have holds := reachable.holds
  have bound {t : Store} (held : Discipline.ofTexts.Holds t) : t.AllBound Value.IntegersInRange :=
    held.data.imp fun _ => Value.IsData.integersInRange
  refine ⟨?_, bound holds.store, bound (holds.eval source file).store, ?_, ?_, ?_, ?_, ?_⟩
  · intro forms read form member
    exact ((readProgram_isCode read).child member).integersInRange
  · intro v returned
    exact (holds.returned returned).data.integersInRange
  · intro task runs
    have fit := holds.fit_of_runs runs
    have ends := fit.ends .usual
    refine ⟨Value.IsCode.integersInRange fit.ready.code, bound fit.holds, bound ends.holds, ?_⟩
    intro v returned
    exact Value.IsData.integersInRange (ends.done v returned).data
  · intro word place v success
    exact (Atom.read_reads success).integersInRange
  · intro op args place v success
    have data : v.IsData := Discipline.ofTexts.computed (Operator.call_computed success)
    exact data.integersInRange
  · intro a place first rest v success taken before nonempty
    exact (Integer.inRange_iff_pow _).1 (Arithmetic.foldIntegers_steps success before nonempty)

/-- The text adds one to the greatest integer there is. -/
theorem session_integers_in_range_of_overflow :
    let s := ((Session.seeded .usual).eval
      "(define top 170141183460469231731687303715884105727)" none).2
    s.Reachable ∧ s.store.AllBound Value.IntegersInRange ∧
      (s.eval "(define over (+ top 1))" none).2.store.AllBound Value.IntegersInRange := by
  intro s
  have reachable : s.Reachable := ⟨.usual, none, _, rfl, .single ⟨_, _, rfl⟩⟩
  obtain ⟨_, before, after, _⟩ :=
    session_integers_in_range reachable "(define over (+ top 1))" none
  exact ⟨reachable, before, after⟩

end ScopedLisp
