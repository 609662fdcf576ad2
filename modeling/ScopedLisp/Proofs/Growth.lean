import ScopedLisp.Proofs.Effect

set_option autoImplicit false

namespace ScopedLisp

namespace Frame

/-- The names that are bound, in the order in which they were first bound. -/
def names (frame : Frame) : List String :=
  frame.bindings.map Prod.fst

theorem names_isPrefix_set (frame : Frame) (name : String) (v : Value) :
    frame.names <+: (frame.set name v).names := by
  suffices grown : ∀ bindings : List (String × Value),
      bindings.map Prod.fst <+: (setBinding name v bindings).map Prod.fst from grown frame.bindings
  intro bindings
  induction bindings with
  | nil => exact List.nil_prefix
  | cons binding rest ih =>
    unfold setBinding
    split
    · exact List.prefix_refl _
    · exact List.prefix_cons_inj _ |>.2 ih

theorem names_isPrefix_setAll (frame : Frame) (made : List (String × Value)) :
    frame.names <+: (frame.setAll made).names := by
  induction made generalizing frame with
  | nil => exact List.prefix_refl _
  | cons binding rest ih => exact (frame.names_isPrefix_set binding.1 binding.2).trans (ih _)

/-- The second frame has the link of the first and its names, in their order, before all others. -/
structure Grows (old new : Frame) : Prop where
  outer : new.outer = old.outer
  names : old.names <+: new.names

end Frame

/-- No frame of the first store is lost in the second. -/
def Store.Grows (s t : Store) : Prop :=
  ∀ (id : FrameId) (old : Frame), s.frames[id]? = some old →
    ∃ new : Frame, t.frames[id]? = some new ∧ old.Grows new

namespace Store.Grows

theorem of_frames_eq {s t : Store} (same : t.frames = s.frames) : s.Grows t :=
  fun id old found => ⟨old, by rw [same, found], rfl, List.prefix_refl _⟩

theorem trans {s t u : Store} (first : s.Grows t) (second : t.Grows u) : s.Grows u := by
  intro id old found
  obtain ⟨between, there, outer, names⟩ := first id old found
  obtain ⟨new, after, outer', names'⟩ := second id between there
  exact ⟨new, after, outer'.trans outer, names.trans names'⟩

theorem addFrame (s : Store) (frame : Frame) : s.Grows (s.addFrame frame).2 :=
  fun _ old found => ⟨old, getElem?_addFrame_of_some frame found, rfl, List.prefix_refl _⟩

end Store.Grows

theorem Store.ChangedOnly.grows {frame : FrameId} {names : List String} {s t : Store}
    (changed : s.ChangedOnly frame names t) : s.Grows t := by
  intro id old found
  obtain ⟨made, _, after⟩ := changed id old found
  exact ⟨_, after, Frame.outer_setAll old made, old.names_isPrefix_setAll made⟩

namespace Eval

def Grows {α : Type} (m : Eval α) : Prop :=
  ∀ s : Store, s.Grows (m s).2

theorem WritesOnly.grows {α : Type} {m : Eval α} {frame : FrameId} {names : List String}
    (writes : m.WritesOnly frame names) : m.Grows :=
  fun s => (writes s).grows

theorem Grows.bind {α β : Type} {m : Eval α} {next : α → Eval β} (first : m.Grows)
    (second : ∀ a, (next a).Grows) : (m >>= next).Grows :=
  rel_bind (R := Store.Grows) .trans first second

theorem Grows.to {α : Type} {m : Eval α} {s t : Store} {outcome : Outcome α} (grows : m.Grows)
    (ended : m s = (outcome, t)) : s.Grows t := by
  have grown := grows s
  rwa [ended] at grown

/-- The first thing that `m` does is `first`, and after that stores only grow. -/
def BeginsWith {α β : Type} (first : Eval α) (m : Eval β) : Prop :=
  ∃ rest : α → Eval β, (∀ a, (rest a).Grows) ∧ m = first >>= rest

namespace BeginsWith

variable {α β γ : Type} {first : Eval α} {m : Eval β}

theorem bind {next : β → Eval γ} (begins : first.BeginsWith m) (grows : ∀ b, (next b).Grows) :
    first.BeginsWith (m >>= next) := by
  obtain ⟨rest, growsRest, rfl⟩ := begins
  exact ⟨fun a => rest a >>= next, fun a => (growsRest a).bind grows, bind_assoc first rest next⟩

theorem grows (begins : first.BeginsWith m) (s : Store) : (first s).2.Grows (m s).2 := by
  obtain ⟨rest, growsRest, rfl⟩ := begins
  rcases bind_stops_or_goes_on first rest s with stopped | ⟨a, t, ended, goes⟩
  · exact .of_frames_eq (by rw [stopped])
  · rw [goes, ended]
    exact growsRest a t

end BeginsWith

end Eval

section

variable {costs : Costs} {limit : Nat} {frame : FrameId}

theorem evaluate_grows (form : Value) : (evaluate costs limit frame form).Grows :=
  (evaluate_writesOnly costs limit frame form).grows

theorem evaluateEach_grows (forms : List Value) :
    (evaluateEach (evaluate costs limit) frame forms).Grows :=
  (evaluateEach_writesOnly (evaluate_writesOnly costs limit) frame forms).grows

theorem evaluateBody_grows (forms : List Value) :
    (evaluateBody (evaluate costs limit) frame forms).Grows :=
  (evaluateBody_writesOnly (evaluate_writesOnly costs limit) frame forms).grows

theorem applyTo_grows (callee : Value) (args : List Value) (loc : Option Location) :
    (applyTo (evaluate costs limit) callee args loc).Grows :=
  (applyTo_writesOnly (evaluate_writesOnly costs limit) callee args loc 0 []).grows

theorem pure_grows {α : Type} (a : α) : (pure a : Eval α).Grows :=
  fun _ => .of_frames_eq rfl

theorem evaluateEach_begins (form : Value) (rest : List Value) :
    (evaluate costs limit frame form).BeginsWith
      (evaluateEach (evaluate costs limit) frame (form :: rest)) :=
  ⟨_, fun _ => (evaluateEach_grows rest).bind fun _ => pure_grows _, rfl⟩

theorem evaluateBody_begins (form : Value) (rest : List Value) :
    (evaluate costs limit frame form).BeginsWith
      (evaluateBody (evaluate costs limit) frame (form :: rest)) := by
  cases rest with
  | nil => exact ⟨pure, pure_grows, (bind_pure _).symm⟩
  | cons next rest => exact ⟨_, fun _ => evaluateBody_grows (next :: rest), rfl⟩

end

theorem evaluateBranch_begins {costs : Costs} {limit : Nat} {frame : FrameId}
    (loc : Option Location) (condition first : Value) {second : Eval Value} (grows : second.Grows) :
    (evaluate costs limit frame condition).BeginsWith
      (evaluateBranch (evaluate costs limit) frame loc condition first second) := by
  refine ⟨_, fun v => ?_, rfl⟩
  split
  · exact evaluate_grows first
  · exact grows
  · exact fun s => .of_frames_eq rfl

end ScopedLisp
