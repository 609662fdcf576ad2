import ScopedLisp.Proofs.Likeness
import ScopedLisp.Proofs.WellFormed

set_option autoImplicit false

namespace ScopedLisp

/-- The stores hold the values, and agree on all frames that the values lead to. -/
structure Agreement (s t : Store) (roots : List Value) : Prop where
  first : s.WellFormed
  second : t.WellFormed
  withinFirst : ∀ v ∈ roots, v.Within s
  withinSecond : ∀ v ∈ roots, v.Within t
  frames : ∀ id : FrameId, s.Reaches roots id → s.frames[id]? = t.frames[id]?

namespace Agreement

variable {s t : Store} {roots : List Value}

theorem known_of_reaches (agreement : Agreement s t roots) {id : Nat}
    (reached : s.Reaches roots id) : id < s.frames.size ∧ id < t.frames.size := by
  induction reached with
  | root member part =>
    exact ⟨(agreement.withinFirst _ member _ part).1, (agreement.withinSecond _ member _ part).1⟩
  | outer inner found link ih =>
    have older := agreement.first.outer found link
    exact ⟨Nat.lt_trans older ih.1, Nat.lt_trans older ih.2⟩
  | bound holder found member part _ =>
    have foundToo := (agreement.frames _ holder).symm.trans found
    exact ⟨(agreement.first.values _ _ found _ member _ part).1,
      (agreement.second.values _ _ foundToo _ member _ part).1⟩

/-- Frames that can be reached stand for themselves, and new frames and closures of one run for
those of the other. -/
def likeness (agreement : Agreement s t roots) : Likeness where
  frame (i j : Nat) := (s.Reaches roots i ∧ i = j) ∨
    ∃ k, i = s.frames.size + k ∧ j = t.frames.size + k
  serial m n := (m < s.nextSerial ∧ m < t.nextSerial ∧ m = n) ∨
    ∃ k, m = s.nextSerial + k ∧ n = t.nextSerial + k
  place p q := p = q
  frame_lt := by
    intro i i' j j' first second
    rcases first with ⟨reached, same⟩ | ⟨k, new, new'⟩
    · have known := agreement.known_of_reaches reached
      rcases second with ⟨_, same'⟩ | ⟨k, new, new'⟩
      · omega
      · omega
    · rcases second with ⟨reached, same⟩ | ⟨k', newer, newer'⟩
      · have known := agreement.known_of_reaches reached
        omega
      · omega
  place_none := rfl
  place_or := by
    rintro p _ q _ rfl rfl
    rfl

/-- A value of both stores stands for itself if what its closures lead to can be reached. -/
theorem alike_self (agreement : Agreement s t roots) {v : Value} (first : v.Within s)
    (second : v.Within t)
    (reached : ∀ params body id serial loc, Value.closure params body id serial loc ∈ v.parts →
      s.Reaches roots id) : agreement.likeness.Alike v v := by
  apply Likeness.alike_refl
  · intro p
    rfl
  · intro params body id serial loc part
    refine ⟨.inl ⟨reached params body id serial loc part, rfl⟩, ?_⟩
    exact .inl ⟨(first _ part).2, (second _ part).2, rfl⟩
  · intro op serial part
    exact .inl ⟨first _ part, second _ part, rfl⟩

theorem alike_roots (agreement : Agreement s t roots) {v : Value} (member : v ∈ roots) :
    agreement.likeness.Alike v v :=
  agreement.alike_self (agreement.withinFirst v member) (agreement.withinSecond v member)
    fun _ _ _ _ _ part => .root member part

theorem alikeFrame_self (agreement : Agreement s t roots) {id : FrameId} {frame : Frame}
    (reached : s.Reaches roots id) (found : s.frames[id]? = some frame) :
    agreement.likeness.AlikeFrame frame frame := by
  have foundToo : t.frames[id]? = some frame := (agreement.frames id reached).symm.trans found
  refine ⟨List.forall₂_same.2 fun binding member => ⟨rfl, ?_⟩, ?_⟩
  · exact agreement.alike_self (agreement.first.values id frame found binding member)
      (agreement.second.values id frame foundToo binding member) fun _ _ _ _ _ part =>
        .bound reached found member part
  · cases link : frame.outer with
    | none => exact .none
    | some o => exact .some (.inl ⟨.outer reached found link, rfl⟩)

theorem alikeStore (agreement : Agreement s t roots) : agreement.likeness.AlikeStore s t := by
  refine ⟨?_, fun k => .inr ⟨k, rfl, rfl⟩, fun k => .inr ⟨k, rfl, rfl⟩⟩
  rintro i j (⟨reached, rfl⟩ | ⟨k, rfl, rfl⟩)
  · rw [← agreement.frames i reached]
    cases found : s.frames[i]? with
    | none => exact .none
    | some frame => exact .some (agreement.alikeFrame_self reached found)
  · rw [Array.getElem?_eq_none (Nat.le_add_right _ k),
      Array.getElem?_eq_none (Nat.le_add_right _ k)]
    exact .none

theorem alike_applyTo (agreement : Agreement s t roots) {callee : Value} {args : List Value}
    (same : roots = callee :: args) (costs : Costs) (limit levels : Nat) (loc : Option Location) :
    agreement.likeness.AlikeRuns agreement.likeness.Alike
      (applyTo (evaluateInside costs limit levels) callee args loc)
      (applyTo (evaluateInside costs limit levels) callee args loc) := by
  subst same
  refine Likeness.alike_applyTo (Likeness.alike_evaluateInside costs limit levels) ?_ ?_ rfl
  · exact agreement.alike_roots List.mem_cons_self
  · exact List.forall₂_same.2 fun arg member =>
      agreement.alike_roots (List.mem_cons_of_mem callee member)

theorem eq_of_alikeFault (agreement : Agreement s t roots) {f g : Fault}
    (alike : agreement.likeness.AlikeFault f g) : f = g :=
  Likeness.eq_of_alikeFault (fun _ _ => id) alike

end Agreement

/-- A call has the same outcome on two stores that agree on the frames which the callee and the
arguments lead to: the same fault, or values that differ only in the numbers of the frames and
closures that the calls made, and what is bound in those frames differs no more than that. -/
theorem call_noninterference {s t : Store} {callee : Value} {args : List Value}
    (agreement : Agreement s t (callee :: args)) (costs : Costs) (limit levels : Nat)
    (loc : Option Location) :
    let first := applyTo (evaluateInside costs limit levels) callee args loc s
    let second := applyTo (evaluateInside costs limit levels) callee args loc t
    agreement.likeness.AlikeOutcome agreement.likeness.Alike first.1 second.1 ∧
      agreement.likeness.AlikeStore first.2 second.2 ∧
      ∀ fault, first.1 = .failed fault ↔ second.1 = .failed fault := by
  intro first second
  obtain ⟨outcomes, stores⟩ := agreement.alike_applyTo rfl costs limit levels loc s t
    agreement.alikeStore
  refine ⟨outcomes, stores, fun fault => ?_⟩
  change agreement.likeness.AlikeOutcome agreement.likeness.Alike first.1 second.1 at outcomes
  generalize first.1 = ended at outcomes
  generalize second.1 = ended' at outcomes
  cases outcomes with
  | done values => exact ⟨nofun, nofun⟩
  | failed faults => rw [agreement.eq_of_alikeFault faults]
  | tooDeep => exact ⟨nofun, nofun⟩

/-- The caller binds the name that the closure refers to, and so do frames that come later. -/
theorem call_noninterference_of_caller :
    let callee : Value := .closure [] [.symbol "x" none] 0 0 none
    let root : Frame := ⟨[("x", .integer 1 none)], none⟩
    let s : Store := ⟨#[root, ⟨[("x", .integer 10 none)], some 0⟩], 1, []⟩
    let t : Store := ⟨#[root, ⟨[("x", .integer 20 none)], some 0⟩, ⟨[("x", callee)], none⟩], 5, []⟩
    ∃ agreement : Agreement s t [callee],
      agreement.likeness.AlikeOutcome agreement.likeness.Alike
        (applyTo (evaluateInside .usual 9 0) callee [] none s).1
        (applyTo (evaluateInside .usual 9 0) callee [] none t).1 := by
  intro callee root s t
  have reached : ∀ id : FrameId, s.Reaches [callee] id → id = 0 := by
    intro id reached
    induction reached with
    | root member part =>
      rw [List.mem_singleton.1 member] at part
      simp only [callee, Value.parts, Value.partsOfAll, List.append_nil, List.mem_cons,
        Value.closure.injEq, reduceCtorEq, List.not_mem_nil, or_false] at part
      exact part.2.2.1
    | outer inner found link ih =>
      subst ih
      cases found
      cases link
    | bound holder found member part ih =>
      subst ih
      cases found
      rw [List.mem_singleton.1 member] at part
      simp [Value.parts] at part
  have known : ∀ u : Store, 0 < u.frames.size → 0 < u.nextSerial → callee.Within u := by
    intro u frames serials
    simp [callee, Value.Within, Value.parts, Value.partsOfAll, Value.NamesKnown, frames, serials]
  have number : ∀ (u : Store) (n : Int), (Value.integer n none).Within u := by
    intro u n part member
    rw [List.mem_singleton.1 member]
    trivial
  have empty : ∀ serials, (⟨#[], serials, []⟩ : Store).WellFormed :=
    fun _ => ⟨fun found => by simp at found, fun _ _ found => by simp at found⟩
  have two : ∀ (serials : Nat) (n : Int),
      (⟨#[root, ⟨[("x", .integer n none)], some 0⟩], serials, []⟩ : Store).WellFormed := by
    intro serials n
    have outermost : ∀ o : FrameId, root.outer = some o → o < 0 := by
      intro o link
      cases link
    have one := (empty serials).addFrame outermost
      fun binding member => by rw [List.mem_singleton.1 member]; exact number _ 1
    refine one.addFrame (fun o link => ?_) fun binding member => ?_
    · cases link
      exact Nat.zero_lt_one
    · rw [List.mem_singleton.1 member]
      exact number _ n
  have agreement : Agreement s t [callee] := by
    refine ⟨two 1 10, (two 5 20).addFrame ?_ ?_, ?_, ?_, ?_⟩
    · intro o link
      cases link
    · intro binding member
      rw [List.mem_singleton.1 member]
      exact known _ (by decide) (by decide)
    · intro v member
      rw [List.mem_singleton.1 member]
      exact known s (by decide) (by decide)
    · intro v member
      rw [List.mem_singleton.1 member]
      exact known t (by decide) (by decide)
    · intro id found
      rw [reached id found]
      rfl
  exact ⟨agreement, (call_noninterference agreement .usual 9 0 none).1⟩

end ScopedLisp
