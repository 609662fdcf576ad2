import ScopedLisp.Operator.Call

set_option autoImplicit false

namespace ScopedLisp

/-- The causes that running a program can have, given that only forms are evaluated. -/
def Cause.OfProgram : Cause → Prop
  | typeMismatch expected _ => expected = "number" ∨ expected = "boolean"
  | unreadable _ => False
  | described _ => False
  | _ => True

/-- A value that an operator makes. -/
inductive Value.Computed : Value → Prop
  | integer {n : Int} (inRange : Integer.inRange n = true) : Computed (.integer n none)
  | float (x : Float) : Computed (.float x none)
  | bool (b : Bool) : Computed (.bool b none)

theorem Arithmetic.boxed_computed {a : Arithmetic} {loc : Option Location} {n : Int} {v : Value}
    (success : a.boxed loc n = .ok v) : v.Computed := by
  unfold boxed at success
  split at success
  · rename_i inRange
    cases success
    exact .integer inRange
  · cases success

theorem Arithmetic.foldIntegers_computed {a : Arithmetic} {loc : Option Location} {result : Int}
    {rest : List Int} {v : Value} (success : a.foldIntegers loc result rest = .ok v) :
    v.Computed := by
  fun_induction foldIntegers a loc result rest with
  | case1 result => exact boxed_computed success
  | case2 => cases success
  | case3 result n rest divisor inRange ih => exact ih success
  | case4 => cases success

theorem Arithmetic.foldFloats_computed {a : Arithmetic} {loc : Option Location} {result : Float}
    {rest : List Number} {v : Value} (success : a.foldFloats loc result rest = .ok v) :
    v.Computed := by
  fun_induction foldFloats a loc result rest with
  | case1 result =>
    cases success
    exact .float result
  | case2 => cases success
  | case3 => cases success
  | case4 result n rest divisor next stepped ih => exact ih success

theorem Arithmetic.negate_computed {loc : Option Location} {n : Number} {v : Value}
    (success : negate loc n = .ok v) : v.Computed := by
  cases n with
  | integer n => exact boxed_computed success
  | float x =>
    cases success
    exact .float (-x)

theorem except_ok_of_mapError {ε ε' α : Type} {f : ε → ε'} {result : Except ε α} {a : α}
    (success : result.mapError f = .ok a) : result = .ok a := by
  cases result with
  | ok b => exact congrArg Except.ok (Except.ok.inj success)
  | error e => cases success

theorem Arithmetic.call_computed {a : Arithmetic} {loc : Option Location} {first : Number}
    {rest : List Number} {v : Value} (success : a.call loc first rest = .ok v) : v.Computed := by
  unfold call at success
  split at success
  · exact negate_computed (except_ok_of_mapError success)
  · split at success
    · exact foldIntegers_computed (except_ok_of_mapError success)
    · split at success
      · cases success
      · exact foldFloats_computed success

/-- The result of an operator is a new number in range or a new truth value, whatever the arguments
are. -/
theorem Operator.call_computed {op : Operator} {args : List Value} {loc : Option Location}
    {v : Value} (success : op.call args loc = .ok v) : v.Computed := by
  unfold call at success
  split at success
  · split at success
    · cases success
    · exact Arithmetic.call_computed success
    · cases success
    · cases success
      exact .bool _
  · cases success

/-- The same fault at another place; a misuse has none. -/
def Fault.movedTo (loc : Option Location) : Fault → Fault
  | .error e => .error ⟨e.cause, loc⟩
  | .misuse m => .misuse m

/-- All that an operator sees of an argument. -/
def Value.operand (v : Value) : Option Number × String :=
  (v.number?, v.kind)

theorem numbers_moved {args args' : List Value}
    (same : args.map Value.operand = args'.map Value.operand) (loc loc' : Option Location) :
    numbers loc' args' = (numbers loc args).mapError fun e => ⟨e.cause, loc'⟩ := by
  induction args generalizing args' with
  | nil =>
    cases args' with
    | nil => rfl
    | cons => cases same
  | cons v rest ih =>
    cases args' with
    | nil => cases same
    | cons w rest' =>
      obtain ⟨operand, tail⟩ := List.cons.inj same
      obtain ⟨number, kind⟩ := Prod.mk.inj operand
      unfold numbers
      rw [← number, ← kind, ih tail]
      cases v.number? with
      | none => rfl
      | some n => cases numbers loc rest <;> rfl

namespace Arithmetic

theorem boxed_moved (a : Arithmetic) (loc loc' : Option Location) (n : Int) :
    a.boxed loc' n = (a.boxed loc n).mapError fun e => ⟨e.cause, loc'⟩ := by
  unfold boxed
  split <;> rfl

theorem foldIntegers_moved (a : Arithmetic) (loc loc' : Option Location) (result : Int)
    (rest : List Int) :
    a.foldIntegers loc' result rest =
      (a.foldIntegers loc result rest).mapError fun e => ⟨e.cause, loc'⟩ := by
  induction rest generalizing result with
  | nil => exact a.boxed_moved loc loc' result
  | cons n rest ih =>
    unfold foldIntegers
    split
    · rfl
    · split
      · exact ih _
      · rfl

theorem foldFloats_moved (a : Arithmetic) (loc loc' : Option Location) (result : Float)
    (rest : List Number) :
    a.foldFloats loc' result rest =
      (a.foldFloats loc result rest).mapError (Fault.movedTo loc') := by
  induction rest generalizing result with
  | nil => rfl
  | cons n rest ih =>
    unfold foldFloats
    split
    · rfl
    · split
      · rfl
      · exact ih _

theorem mapError_error_moved {α : Type} (result : Except Error α) (loc : Option Location) :
    (result.mapError fun e => ⟨e.cause, loc⟩).mapError Fault.error =
      (result.mapError Fault.error).mapError (Fault.movedTo loc) := by
  cases result <;> rfl

theorem call_moved (a : Arithmetic) (loc loc' : Option Location) (first : Number)
    (rest : List Number) :
    a.call loc' first rest = (a.call loc first rest).mapError (Fault.movedTo loc') := by
  unfold call
  split
  · cases first with
    | integer n =>
      rw [negate, negate, boxed_moved sub loc loc', mapError_error_moved]
    | float x => rfl
  · split
    · rw [foldIntegers_moved a loc loc', mapError_error_moved]
    · split
      · rfl
      · exact foldFloats_moved a loc loc' _ rest

end Arithmetic

/-- An operator looks at the numbers and kinds of its arguments only, and its faults are those of
the call. -/
theorem Operator.call_moved (op : Operator) {args args' : List Value}
    (same : args.map Value.operand = args'.map Value.operand) (loc loc' : Option Location) :
    op.call args' loc' = (op.call args loc).mapError (Fault.movedTo loc') := by
  have count : args.length = args'.length := by simpa using congrArg List.length same
  unfold call
  rw [← count, numbers_moved same loc loc']
  split
  · cases numbers loc args with
    | error e => cases op <;> rfl
    | ok operands =>
      cases op with
      | arithmetic a =>
        cases operands with
        | nil => rfl
        | cons first rest => exact a.call_moved loc loc' first rest
      | comparison c => cases operands <;> rfl
  · rfl

theorem Integer.natAbs_lt_floatBound {n : Int} (inRange : Integer.inRange n = true) :
    n.natAbs < Number.floatBound := by
  have bounds := (Integer.inRange_iff n).1 inRange
  have small : n.natAbs ≤ 170141183460469231731687303715884105728 := by
    unfold Integer.least Integer.greatest at bounds
    omega
  have enough : 170141183460469231731687303715884105728 < Number.floatBound := by decide
  omega

/-- An integer among the numbers is in range. -/
def Number.InRange : Number → Prop
  | integer n => Integer.inRange n = true
  | float _ => True

theorem Number.toFloat?_ne_none {n : Number} (inRange : n.InRange) : n.toFloat? ≠ none := by
  cases n with
  | integer n =>
    have bound := Integer.natAbs_lt_floatBound inRange
    simp [toFloat?, bound]
  | float x => simp [toFloat?]

theorem numbers_inRange {loc : Option Location} {args : List Value} {operands : List Number}
    (allowed : ∀ n place, Value.integer n place ∈ args → Integer.inRange n = true)
    (success : numbers loc args = .ok operands) : ∀ n ∈ operands, n.InRange := by
  induction args generalizing operands with
  | nil =>
    cases success
    simp
  | cons v rest ih =>
    unfold numbers at success
    split at success
    · cases success
    · rename_i n number
      cases remaining : numbers loc rest with
      | error e =>
        rw [remaining] at success
        cases success
      | ok more =>
        rw [remaining] at success
        cases success
        have tail :=
          ih (fun n place member => allowed n place (List.mem_cons_of_mem _ member)) remaining
        intro m member
        rcases List.mem_cons.1 member with rfl | member
        · cases v with
          | integer k place =>
            cases number
            exact allowed k place List.mem_cons_self
          | float x place =>
            cases number
            trivial
          | _ => cases number
        · exact tail m member

/-- The fault is one of the program. -/
def Fault.OfProgram : Fault → Prop
  | .error e => e.cause.OfProgram
  | .misuse _ => False

theorem numbers_fault {loc : Option Location} {args : List Value} {e : Error}
    (failure : numbers loc args = .error e) : e.cause.OfProgram := by
  induction args with
  | nil => cases failure
  | cons v rest ih =>
    unfold numbers at failure
    split at failure
    · cases failure
      exact .inl rfl
    · cases remaining : numbers loc rest with
      | error e' =>
        rw [remaining] at failure
        cases failure
        exact ih remaining
      | ok more =>
        rw [remaining] at failure
        cases failure

theorem fault_of_mapError {α : Type} {result : Except Error α} {f : Fault}
    (failure : result.mapError Fault.error = .error f)
    (expected : ∀ e, result = .error e → e.cause.OfProgram) : f.OfProgram := by
  cases result with
  | ok a => cases failure
  | error e =>
    cases failure
    exact expected e rfl

namespace Arithmetic

theorem boxed_fault {a : Arithmetic} {loc : Option Location} {n : Int} {e : Error}
    (failure : a.boxed loc n = .error e) : e.cause.OfProgram := by
  unfold boxed at failure
  split at failure
  · cases failure
  · cases failure
    trivial

theorem foldIntegers_fault {a : Arithmetic} {loc : Option Location} {result : Int} {rest : List Int}
    {e : Error} (failure : a.foldIntegers loc result rest = .error e) : e.cause.OfProgram := by
  fun_induction foldIntegers a loc result rest with
  | case1 result => exact boxed_fault failure
  | case2 =>
    cases failure
    trivial
  | case3 result n rest divisor inRange ih => exact ih failure
  | case4 =>
    cases failure
    trivial

theorem stepFloat_ne_error {a : Arithmetic} {x : Float} {n : Number} {m : Misuse}
    (inRange : n.InRange) : a.stepFloat x n ≠ .error m := by
  unfold stepFloat
  split
  · simp
  · split
    · rename_i beyond
      exact absurd beyond (Number.toFloat?_ne_none inRange)
    · simp

theorem foldFloats_fault {a : Arithmetic} {loc : Option Location} {result : Float}
    {rest : List Number} {f : Fault} (inRange : ∀ n ∈ rest, n.InRange)
    (failure : a.foldFloats loc result rest = .error f) : f.OfProgram := by
  fun_induction foldFloats a loc result rest with
  | case1 => cases failure
  | case2 =>
    cases failure
    trivial
  | case3 result n rest divisor m stepped =>
    exact absurd stepped (stepFloat_ne_error (inRange n List.mem_cons_self))
  | case4 result n rest divisor next stepped ih =>
    exact ih (fun m member => inRange m (List.mem_cons_of_mem _ member)) failure

theorem call_fault {a : Arithmetic} {loc : Option Location} {first : Number} {rest : List Number}
    {f : Fault} (inRange : ∀ n ∈ first :: rest, n.InRange)
    (failure : a.call loc first rest = .error f) : f.OfProgram := by
  unfold call at failure
  split at failure
  · refine fault_of_mapError failure fun e failure => ?_
    cases first with
    | integer n => exact boxed_fault failure
    | float x => cases failure
  · split at failure
    · exact fault_of_mapError failure fun e => foldIntegers_fault
    · split at failure
      · rename_i beyond
        exact absurd beyond (Number.toFloat?_ne_none (inRange first List.mem_cons_self))
      · exact foldFloats_fault (fun n member => inRange n (List.mem_cons_of_mem _ member)) failure

end Arithmetic

theorem Operator.callCode_computed {code : String} {args : List Value} {loc : Option Location}
    {v : Value} (success : callCode code args loc = .ok v) : v.Computed := by
  unfold callCode at success
  split at success
  · exact call_computed success
  · cases success

/-- On integers in range an operator fails only for reasons that a program can have, and at the
place of the call. -/
theorem Operator.call_fault {op : Operator} {args : List Value} {loc : Option Location} {f : Fault}
    (allowed : ∀ n place, Value.integer n place ∈ args → Integer.inRange n = true)
    (failure : op.call args loc = .error f) :
    ∃ cause, cause.OfProgram ∧ f = .error ⟨cause, loc⟩ := by
  have ofProgram : f.OfProgram := by
    unfold call at failure
    split at failure
    · split at failure
      · rename_i unfit _
        cases failure
        exact numbers_fault unfit
      · rename_i fit _
        exact Arithmetic.call_fault (numbers_inRange allowed fit) failure
      · cases failure
        trivial
      · cases failure
    · cases failure
      trivial
  have moved : op.call args loc = (op.call args loc).mapError (Fault.movedTo loc) :=
    op.call_moved rfl loc loc
  rw [failure] at moved
  cases f with
  | error e =>
    have here : e.loc = loc := congrArg Error.loc (Fault.error.inj (Except.error.inj moved))
    exact ⟨e.cause, ofProgram, by rw [← here]⟩
  | misuse m => cases ofProgram

end ScopedLisp
