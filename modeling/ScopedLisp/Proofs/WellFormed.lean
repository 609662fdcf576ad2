import ScopedLisp.Proofs.Parts
import ScopedLisp.Store

set_option autoImplicit false

namespace ScopedLisp

/-- The frame and the number that the value itself names, parts left out, are those of the store. -/
def Value.NamesKnown (s : Store) : Value → Prop
  | closure _ _ frame serial _ => frame < s.frames.size ∧ serial < s.nextSerial
  | builtin _ serial => serial < s.nextSerial
  | _ => True

/-- All that the parts of the value name are of the store. -/
def Value.Within (s : Store) (v : Value) : Prop :=
  ∀ part ∈ v.parts, part.NamesKnown s

theorem Value.within_iff {s : Store} {v : Value} :
    v.Within s ↔ v.NamesKnown s ∧ ∀ child ∈ v.children, child.Within s := by
  constructor
  · intro within
    refine ⟨within v v.self_mem_parts, fun child inside part member => ?_⟩
    exact within part (mem_parts_of_child inside member)
  · rintro ⟨own, inner⟩ part member
    rcases mem_parts.1 member with rfl | ⟨child, inside, member⟩
    · exact own
    · exact inner child inside part member

theorem Value.Within.child {s : Store} {v child : Value} (within : v.Within s)
    (inside : child ∈ v.children) : child.Within s :=
  (within_iff.1 within).2 child inside

namespace Frame

theorem mem_setBinding {name : String} {v : Value} {bindings : List (String × Value)}
    {binding : String × Value} (member : binding ∈ setBinding name v bindings) :
    binding ∈ bindings ∨ binding.2 = v := by
  induction bindings with
  | nil =>
    rw [List.mem_singleton.1 member]
    exact .inr rfl
  | cons first rest ih =>
    unfold setBinding at member
    split at member
    · rcases List.mem_cons.1 member with rfl | member
      · exact .inr rfl
      · exact .inl (List.mem_cons_of_mem _ member)
    · rcases List.mem_cons.1 member with rfl | member
      · exact .inl List.mem_cons_self
      · rcases ih member with member | new
        · exact .inl (List.mem_cons_of_mem _ member)
        · exact .inr new

theorem mem_setAll {frame : Frame} {made : List (String × Value)} {binding : String × Value}
    (member : binding ∈ (frame.setAll made).bindings) :
    binding ∈ frame.bindings ∨ ∃ other ∈ made, binding.2 = other.2 := by
  induction made generalizing frame with
  | nil => exact .inl member
  | cons first rest ih =>
    rcases ih member with member | ⟨other, inside, same⟩
    · rcases mem_setBinding member with member | new
      · exact .inl member
      · exact .inr ⟨first, List.mem_cons_self, new⟩
    · exact .inr ⟨other, List.mem_cons_of_mem _ inside, same⟩

theorem mem_of_get? {frame : Frame} {name : String} {v : Value} (found : frame.get? name = some v) :
    (name, v) ∈ frame.bindings := by
  obtain ⟨first, last, split, _⟩ := List.lookup_eq_some_iff.1 found
  rw [split]
  simp

end Frame

namespace Store

/-- Every value that is bound in some frame has the property. -/
def AllBound (p : Value → Prop) (s : Store) : Prop :=
  ∀ (id : FrameId) (frame : Frame), s.frames[id]? = some frame →
    ∀ binding ∈ frame.bindings, p binding.2

namespace AllBound

variable {p : Value → Prop} {s : Store}

theorem imp {q : Value → Prop} (bound : s.AllBound p) (weaker : ∀ v, p v → q v) : s.AllBound q :=
  fun id frame found binding member => weaker _ (bound id frame found binding member)

theorem set (bound : s.AllBound p) (frame : FrameId) (name : String) {v : Value} (holds : p v) :
    (s.set frame name v).AllBound p := by
  intro id changed found binding member
  rw [getElem?_set] at found
  split at found
  · obtain ⟨old, before, rfl⟩ := Option.map_eq_some_iff.1 found
    rcases Frame.mem_setBinding member with member | new
    · exact bound id old before binding member
    · rw [new]
      exact holds
  · exact bound id changed found binding member

theorem addFrame (bound : s.AllBound p) {new : Frame}
    (holds : ∀ binding ∈ new.bindings, p binding.2) :
    (s.addFrame new).2.AllBound p := by
  intro id frame found
  rw [frames_addFrame, Array.getElem?_push] at found
  split at found
  · cases found
    exact holds
  · exact bound id frame found

theorem get? (bound : s.AllBound p) {frame : FrameId} {name : String} {v : Value}
    (found : s.get? frame name = some v) : p v := by
  obtain ⟨nearest, _, local?⟩ := Option.bind_eq_some_iff.1 found
  obtain ⟨holder, there, value⟩ := Option.bind_eq_some_iff.1 local?
  exact bound nearest holder there _ (Frame.mem_of_get? value)

end AllBound

/-- Every link leads to an older frame. -/
def Linked (s : Store) : Prop :=
  ∀ (id o : FrameId) (frame : Frame), s.frames[id]? = some frame → frame.outer = some o → o < id

theorem Linked.set {s : Store} (linked : s.Linked) (frame : FrameId) (name : String) (v : Value) :
    (s.set frame name v).Linked := by
  intro id o changed found link
  rw [getElem?_set] at found
  split at found
  · obtain ⟨old, there, rfl⟩ := Option.map_eq_some_iff.1 found
    exact linked id o old there link
  · exact linked id o changed found link

theorem Linked.addFrame {s : Store} (linked : s.Linked) {new : Frame}
    (older : ∀ o : FrameId, new.outer = some o → o < s.frames.size) :
    (s.addFrame new).2.Linked := by
  intro id o frame found link
  rw [frames_addFrame, Array.getElem?_push] at found
  split at found
  · rename_i last
    cases found
    rw [last]
    exact older o link
  · exact linked id o frame found link

structure WellFormed (s : Store) : Prop where
  outer : ∀ {id o : FrameId} {frame : Frame},
    s.frames[id]? = some frame → frame.outer = some o → o < id
  values : s.AllBound (Value.Within s)

/-- The frames that values lead to: through closures among their parts, through the links between
frames, and through the values that are bound in the frames. -/
inductive Reaches (s : Store) (roots : List Value) : FrameId → Prop
  | root {v : Value} {params : List Param} {body : List Value} {id : FrameId} {serial : Nat}
      {loc : Option Location} (member : v ∈ roots)
      (part : Value.closure params body id serial loc ∈ v.parts) : Reaches s roots id
  | outer {id o : FrameId} {frame : Frame} (inner : Reaches s roots id)
      (found : s.frames[id]? = some frame) (link : frame.outer = some o) : Reaches s roots o
  | bound {id id' : FrameId} {frame : Frame} {binding : String × Value} {params : List Param}
      {body : List Value} {serial : Nat} {loc : Option Location} (holder : Reaches s roots id)
      (found : s.frames[id]? = some frame) (member : binding ∈ frame.bindings)
      (part : Value.closure params body id' serial loc ∈ binding.2.parts) : Reaches s roots id'

/-- Frames and numbers of closures that are known to the first store are known to the second. -/
structure Precedes (s t : Store) : Prop where
  frames : s.frames.size ≤ t.frames.size
  serials : s.nextSerial ≤ t.nextSerial

namespace Precedes

theorem refl (s : Store) : s.Precedes s :=
  ⟨Nat.le_refl _, Nat.le_refl _⟩

theorem trans {s t u : Store} (first : s.Precedes t) (second : t.Precedes u) : s.Precedes u :=
  ⟨Nat.le_trans first.frames second.frames, Nat.le_trans first.serials second.serials⟩

theorem record (s : Store) (event : Event) : s.Precedes (s.record event) :=
  ⟨Nat.le_refl _, Nat.le_refl _⟩

theorem set (s : Store) (frame : FrameId) (name : String) (v : Value) :
    s.Precedes (s.set frame name v) :=
  ⟨by simp [Store.set], Nat.le_refl _⟩

theorem addFrame (s : Store) (frame : Frame) : s.Precedes (s.addFrame frame).2 :=
  ⟨by simp, Nat.le_refl _⟩

theorem takeSerial (s : Store) : s.Precedes s.takeSerial.2 :=
  ⟨Nat.le_refl _, Nat.le_succ _⟩

theorem inside {s t : Store} (before : s.Precedes t) {id : FrameId} (inside : id < s.frames.size) :
    id < t.frames.size :=
  Nat.lt_of_lt_of_le inside before.frames

theorem within {s t : Store} (before : s.Precedes t) {v : Value} (within : v.Within s) :
    v.Within t := by
  intro part member
  have known := within part member
  cases part with
  | closure params body frame serial loc =>
    exact ⟨before.inside known.1, Nat.lt_of_lt_of_le known.2 before.serials⟩
  | builtin op serial => exact Nat.lt_of_lt_of_le known before.serials
  | _ => trivial

end Precedes

namespace WellFormed

variable {s : Store}

theorem linked (wellFormed : s.WellFormed) : s.Linked :=
  fun _ _ _ => wellFormed.outer

theorem record (wellFormed : s.WellFormed) (event : Event) : (s.record event).WellFormed :=
  ⟨wellFormed.outer, wellFormed.values⟩

theorem takeSerial (wellFormed : s.WellFormed) : s.takeSerial.2.WellFormed :=
  ⟨wellFormed.outer, wellFormed.values.imp fun _ => (Precedes.takeSerial s).within⟩

theorem set (wellFormed : s.WellFormed) (frame : FrameId) (name : String) {v : Value}
    (within : v.Within s) : (s.set frame name v).WellFormed := by
  have before := Precedes.set s frame name v
  have linked := wellFormed.linked.set frame name v
  exact ⟨linked _ _ _, (wellFormed.values.set frame name within).imp fun _ => before.within⟩

theorem addFrame (wellFormed : s.WellFormed) {new : Frame}
    (older : ∀ o : FrameId, new.outer = some o → o < s.frames.size)
    (within : ∀ binding ∈ new.bindings, binding.2.Within s) : (s.addFrame new).2.WellFormed := by
  have before := Precedes.addFrame s new
  have linked := wellFormed.linked.addFrame older
  exact ⟨linked _ _ _, (wellFormed.values.addFrame within).imp fun _ => before.within⟩

end WellFormed

end Store

end ScopedLisp
