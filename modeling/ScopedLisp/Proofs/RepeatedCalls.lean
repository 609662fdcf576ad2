import Mathlib.Logic.Relation
import ScopedLisp.Proofs.Computations
import ScopedLisp.Proofs.Likeness
import ScopedLisp.Proofs.ReachableSession
import ScopedLisp.Proofs.Relocation

set_option autoImplicit false

namespace ScopedLisp

theorem eq_of_forall₂ {α : Type} {R : α → α → Prop} {xs ys : List α}
    (same : ∀ x ∈ xs, ∀ y, R x y → x = y) (related : List.Forall₂ R xs ys) : xs = ys := by
  induction related with
  | nil => rfl
  | cons first _ ih =>
    rw [same _ List.mem_cons_self _ first,
      ih fun x member => same x (List.mem_cons_of_mem _ member)]

/-- The numbers below `m` stand for themselves, and those from `m` on for those from `n` on. -/
def Renumbered (m n i j : Nat) : Prop :=
  (i < m ∧ i = j) ∨ ∃ k, i = m + k ∧ j = n + k

namespace Renumbered

variable {m n i j : Nat}

theorem of_lt (known : i < m) : Renumbered m n i i :=
  .inl ⟨known, rfl⟩

theorem of_next (k : Nat) : Renumbered m n (m + k) (n + k) :=
  .inr ⟨k, rfl, rfl⟩

theorem eq_of_lt (known : i < m) (renumbered : Renumbered m n i j) : i = j := by
  rcases renumbered with ⟨_, same⟩ | ⟨k, new, _⟩
  · exact same
  · omega

theorem lt_iff (le : m ≤ n) {i' j' : Nat} (first : Renumbered m n i i')
    (second : Renumbered m n j j') : i < j ↔ i' < j' := by
  rcases first with ⟨old, same⟩ | ⟨k, new, new'⟩
  · rcases second with ⟨old', same'⟩ | ⟨k, new, new'⟩
    · omega
    · omega
  · rcases second with ⟨old', same'⟩ | ⟨k', newer, newer'⟩
    · omega
    · omega

end Renumbered

/-- The computations that take no frame and no number of a closure back. -/
def Computations.growing : Computations where
  Holds := fun m => ∀ s : Store, s.Precedes (m s).2
  ofExcept := fun result s => by cases result <;> exact .refl s
  lookup := fun frame name loc s => by
    unfold Eval.lookup
    split <;> exact .refl s
  record := fun event s => .record s event
  set := fun frame name v s => .set s frame name v
  takeSerial := fun s => .takeSerial s
  addFrame := fun frame s => .addFrame s frame
  bind := fun first second => Eval.rel_bind (R := Store.Precedes) .trans first second

theorem applyTo_precedes (costs : Costs) (limit levels : Nat) (callee : Value) (args : List Value)
    (loc : Option Location) (s : Store) :
    s.Precedes (applyTo (evaluateInside costs limit levels) callee args loc s).2 := by
  rw [evaluateInside_eq]
  have tooDeep : Computations.growing.Holds (Eval.tooDeep : Eval Value) :=
    fun s => Store.Precedes.refl s
  have inner := Computations.growing.holds_evaluate tooDeep costs (limit - levels)
  exact Computations.holds_applyTo inner callee args loc s

namespace Store

/-- The second store has all frames of the first as they are there, and perhaps more. -/
structure Extends (s t : Store) : Prop where
  later : s.Precedes t
  kept : ∀ (id : FrameId) (frame : Frame), s.frames[id]? = some frame → t.frames[id]? = some frame

theorem Extends.refl (s : Store) : s.Extends s :=
  ⟨.refl s, fun _ _ found => found⟩

theorem Extends.trans {s t u : Store} (first : s.Extends t) (second : t.Extends u) : s.Extends u :=
  ⟨first.later.trans second.later, fun id frame found =>
    second.kept id frame (first.kept id frame found)⟩

theorem extends_applyTo (costs : Costs) (limit levels : Nat) (callee : Value) (args : List Value)
    (loc : Option Location) (s : Store) :
    s.Extends (applyTo (evaluateInside costs limit levels) callee args loc s).2 := by
  refine ⟨applyTo_precedes costs limit levels callee args loc s, fun id frame found => ?_⟩
  have writes := applyTo_writesOnly (evaluateInside_writesOnly costs limit levels) callee args loc
    id [] s
  exact writes.kept_of_nil found

/-- The second store is the first after a call of some value. -/
def Called (s t : Store) : Prop :=
  ∃ (costs : Costs) (limit levels : Nat) (callee : Value) (args : List Value)
    (loc : Option Location),
    t = (applyTo (evaluateInside costs limit levels) callee args loc s).2

/-- The second store is the first after any number of calls. -/
def AfterCalls : Store → Store → Prop :=
  Relation.ReflTransGen Called

theorem AfterCalls.extends {s t : Store} (calls : s.AfterCalls t) : s.Extends t := by
  induction calls with
  | refl => exact .refl s
  | tail _ call ih =>
    obtain ⟨costs, limit, levels, callee, args, loc, rfl⟩ := call
    exact ih.trans (extends_applyTo costs limit levels callee args loc _)

/-- What is in the first store stands for itself, and what a run makes on the first store for what
another makes on the second. Places stay as they are. -/
def Precedes.likeness {s t : Store} (before : s.Precedes t) : Likeness :=
  { Relocation.likeness .stay .stay with
    frame := Renumbered s.frames.size t.frames.size
    serial := Renumbered s.nextSerial t.nextSerial
    frame_lt := Renumbered.lt_iff before.frames }

namespace Precedes

variable {s t : Store} (before : s.Precedes t)

theorem eq_of_place {p q : Option Location} (alike : before.likeness.place p q) : p = q :=
  alike

theorem alike_self {v : Value} (within : v.Within s) : before.likeness.Alike v v := by
  apply Likeness.alike_refl
  · intro p
    rfl
  · intro params body i m p part
    have known := within _ part
    exact ⟨.of_lt known.1, .of_lt known.2⟩
  · intro op m part
    exact .of_lt (within _ part)

theorem eq_of_alikeParam {p q : Param} (alike : before.likeness.AlikeParam p q) : p = q := by
  obtain ⟨name, variadic, loc⟩ := p
  obtain ⟨rfl, rfl, place⟩ := alike
  obtain rfl : loc = q.loc := before.eq_of_place place
  rfl

theorem eq_of_alike {v w : Value} (within : v.Within s) (alike : before.likeness.Alike v w) :
    v = w := by
  induction v using Value.induction_on_children generalizing w with
  | ascend v ih =>
    have inside {ws : List Value} (items : before.likeness.AllAlike v.children ws) :
        v.children = ws :=
      eq_of_forall₂ (fun child member w alike => ih child member (within.child member) alike) items
    cases alike with
    | void place | integer _ place | float _ place | bool _ place | string _ place
    | symbol _ place => rw [before.eq_of_place place]
    | list items place =>
      rw [before.eq_of_place place]
      exact congrArg (Value.list · _) (inside items)
    | program forms place =>
      rw [before.eq_of_place place]
      exact congrArg (Value.program · _) (inside forms)
    | closure parameters forms frame serial place =>
      obtain ⟨known, given⟩ := within _ (Value.self_mem_parts _)
      rw [eq_of_forall₂ (fun _ _ _ => before.eq_of_alikeParam) parameters,
        frame.eq_of_lt known, serial.eq_of_lt given, before.eq_of_place place]
      exact congrArg (Value.closure _ · _ _ _) (inside forms)
    | builtin op serial => rw [serial.eq_of_lt (within _ (Value.self_mem_parts _))]
    | foreign kind text => rfl

end Precedes

theorem Extends.alikeStore {s t : Store} (extension : s.Extends t) (wellFormed : s.WellFormed) :
    extension.later.likeness.AlikeStore s t := by
  refine ⟨?_, Renumbered.of_next, Renumbered.of_next⟩
  rintro i j (⟨old, rfl⟩ | ⟨k, rfl, rfl⟩)
  · obtain ⟨frame, found⟩ : ∃ frame, s.frames[i]? = some frame :=
      ⟨_, Array.getElem?_eq_getElem old⟩
    rw [found, extension.kept i frame found]
    refine .some ⟨List.forall₂_same.2 fun binding member => ⟨rfl, ?_⟩, ?_⟩
    · exact extension.later.alike_self (wellFormed.values i frame found binding member)
    · cases link : frame.outer with
      | none => exact .none
      | some o => exact .some (.of_lt (Nat.lt_trans (wellFormed.outer found link) old))
  · rw [Array.getElem?_eq_none (Nat.le_add_right _ k),
      Array.getElem?_eq_none (Nat.le_add_right _ k)]
    exact .none

end Store

/-- A call on a store is made again after any number of other calls, which may end in any way. It
ends in the same way: with the same fault, or with a value that differs only in the numbers of the
frames and closures that the calls made, and what is bound in those frames differs no more than
that. A value with none of these in it, and so every value without closures, is the same value. All
stores that sessions come to are well-formed. -/
theorem calls_repeat {s t : Store} (wellFormed : s.WellFormed) {callee : Value} {args : List Value}
    (known : ∀ v ∈ callee :: args, v.Within s) (costs : Costs) (limit levels : Nat)
    (loc : Option Location)
    (between : Store.AfterCalls
      (applyTo (evaluateInside costs limit levels) callee args loc s).2 t) :
    let first := applyTo (evaluateInside costs limit levels) callee args loc s
    let again := applyTo (evaluateInside costs limit levels) callee args loc t
    (∃ before : s.Precedes t,
      before.likeness.AlikeOutcome before.likeness.Alike first.1 again.1 ∧
      before.likeness.AlikeStore first.2 again.2) ∧
    (∀ fault, first.1 = .failed fault ↔ again.1 = .failed fault) ∧
    (∀ v, first.1 = .done v → v.Within s → again.1 = .done v) ∧
    (∀ v, first.1 = .done v → (∀ part ∈ v.parts, part.kind ≠ "Closure") → again.1 = .done v) ∧
    ∀ session : Session, session.Reachable → session.store.WellFormed := by
  intro first again
  have extension : s.Extends t :=
    (Store.extends_applyTo costs limit levels callee args loc s).trans between.extends
  have before := extension.later
  have runs : before.likeness.AlikeRuns before.likeness.Alike
      (applyTo (evaluateInside costs limit levels) callee args loc)
      (applyTo (evaluateInside costs limit levels) callee args loc) := by
    refine Likeness.alike_applyTo (Likeness.alike_evaluateInside costs limit levels) ?_ ?_ rfl
    · exact before.alike_self (known callee List.mem_cons_self)
    · exact List.forall₂_same.2 fun arg member =>
        before.alike_self (known arg (List.mem_cons_of_mem callee member))
  obtain ⟨outcomes, stores⟩ := runs s t (extension.alikeStore wellFormed)
  have same (v : Value) (done : first.1 = .done v) (within : v.Within s) : again.1 = .done v := by
    obtain ⟨w, doneToo, values⟩ := outcomes.exists_done done
    rw [before.eq_of_alike within values]
    exact doneToo
  refine ⟨⟨before, outcomes, stores⟩, outcomes.failed_iff fun _ _ => id, same,
    fun v done free => same v done ?_, fun session reachable => reachable.holds.store.wellFormed⟩
  intro part member
  cases part with
  | closure | builtin => exact absurd rfl (free _ member)
  | _ => trivial

/-- The call makes a closure of its own frame, and so do the calls between. -/
theorem calls_repeat_of_new_closure :
    let s := (Session.seeded .usual).store
    let made : Value := .list [.symbol "lambda" none, .list [] none, .symbol "x" none] none
    let callee : Value := .closure [⟨"x", false, none⟩] [made] 0 0 none
    let call (u : Store) := applyTo (evaluateInside .usual 9 0) callee [.integer 1 none] none u
    let t := (call (call (call s).2).2).2
    (Session.seeded .usual).Reachable ∧ Store.AfterCalls (call s).2 t ∧
      ∃ before : s.Precedes t,
        before.likeness.AlikeOutcome before.likeness.Alike (call s).1 (call t).1 := by
  intro s made callee call t
  have reachable : (Session.seeded .usual).Reachable := ⟨.usual, none, _, rfl, .refl⟩
  have between : Store.AfterCalls (call s).2 t :=
    .tail (.single ⟨_, _, _, _, _, _, rfl⟩) ⟨_, _, _, _, _, _, rfl⟩
  have room : 0 < s.frames.size ∧ 0 < s.nextSerial := by decide
  have known : ∀ v ∈ [callee, .integer 1 none], v.Within s := by
    simp [callee, made, Value.Within, Value.parts, Value.partsOfAll, Value.NamesKnown, room]
  obtain ⟨⟨before, alike, _⟩, _⟩ :=
    calls_repeat reachable.holds.store.wellFormed known .usual 9 0 none between
  exact ⟨reachable, between, before, alike⟩

end ScopedLisp
