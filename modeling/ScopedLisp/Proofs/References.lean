import ScopedLisp.Evaluation
import ScopedLisp.Proofs.OperatorCall
import ScopedLisp.Proofs.Parts

set_option autoImplicit false

namespace ScopedLisp

namespace Value

mutual

/-- The names that a form refers to as variables, from left to right. The head of a special form,
the target of a `define` and the parameter list of a `lambda` are no references. -/
def references : Value → List String
  | symbol name _ => [name]
  | list (head :: operands) _ =>
    match SpecialForm.ofHead? head with
    | some .define => referencesAfterFirst operands
    | some .conditional => referencesOfAll operands
    | some .lambda => referencesAfterFirst operands
    | none => references head ++ referencesOfAll operands
  | program forms _ => referencesOfAll forms
  | _ => []

def referencesOfAll : List Value → List String
  | [] => []
  | form :: rest => references form ++ referencesOfAll rest

def referencesAfterFirst : List Value → List String
  | [] => []
  | _ :: rest => referencesOfAll rest

end

theorem mem_referencesOfAll {x : String} {forms : List Value} :
    x ∈ referencesOfAll forms ↔ ∃ form ∈ forms, x ∈ form.references := by
  induction forms with
  | nil => simp [referencesOfAll]
  | cons form rest ih => simp [referencesOfAll, ih]

end Value

/-- The operands of a special form without the target or the parameter list. -/
def SpecialForm.forms : SpecialForm → List Value → List Value
  | define, operands => operands.tail
  | conditional, operands => operands
  | lambda, operands => operands.tail

theorem SpecialForm.mem_of_mem_forms {keyword : SpecialForm} {operands : List Value} {form : Value}
    (member : form ∈ keyword.forms operands) : form ∈ operands := by
  cases keyword with
  | define => exact List.mem_of_mem_tail member
  | conditional => exact member
  | lambda => exact List.mem_of_mem_tail member

namespace Value

theorem references_call {head : Value} (call : SpecialForm.ofHead? head = none)
    (operands : List Value) (loc : Option Location) :
    (list (head :: operands) loc).references = referencesOfAll (head :: operands) := by
  simp only [references, call, referencesOfAll]

theorem references_special {head : Value} {keyword : SpecialForm}
    (special : SpecialForm.ofHead? head = some keyword) (operands : List Value)
    (loc : Option Location) :
    (list (head :: operands) loc).references = referencesOfAll (keyword.forms operands) := by
  have afterFirst : referencesAfterFirst operands = referencesOfAll operands.tail := by
    cases operands <;> rfl
  cases keyword with
  | define => simp only [references, special, afterFirst, SpecialForm.forms]
  | conditional => simp only [references, special, SpecialForm.forms]
  | lambda => simp only [references, special, afterFirst, SpecialForm.forms]

/-- No closure in the value refers to the name in its body. -/
def BodiesAvoid (x : String) (v : Value) : Prop :=
  ∀ params body frame serial loc, closure params body frame serial loc ∈ v.parts →
    x ∉ referencesOfAll body

/-- Neither the form nor a closure in it refers to the name. -/
structure Avoids (x : String) (form : Value) : Prop where
  references : x ∉ form.references
  bodies : form.BodiesAvoid x

theorem forall_avoids_iff {x : String} {forms : List Value} :
    (∀ form ∈ forms, form.Avoids x) ↔
      x ∉ referencesOfAll forms ∧ ∀ form ∈ forms, form.BodiesAvoid x := by
  constructor
  · intro avoid
    refine ⟨fun member => ?_, fun form inside => (avoid form inside).bodies⟩
    obtain ⟨form, inside, refers⟩ := mem_referencesOfAll.1 member
    exact (avoid form inside).references refers
  · rintro ⟨references, bodies⟩ form inside
    exact ⟨fun refers => references (mem_referencesOfAll.2 ⟨form, inside, refers⟩),
      bodies form inside⟩

namespace BodiesAvoid

variable {x : String} {v : Value}

theorem child (avoids : v.BodiesAvoid x) {child : Value} (inside : child ∈ v.children) :
    child.BodiesAvoid x :=
  fun params body frame serial loc part =>
    avoids params body frame serial loc (mem_parts_of_child inside part)

theorem of_children (noClosure : v.kind ≠ "Closure")
    (children : ∀ child ∈ v.children, child.BodiesAvoid x) : v.BodiesAvoid x := by
  intro params body frame serial loc part
  rcases mem_parts.1 part with rfl | ⟨child, inside, below⟩
  · exact absurd rfl noClosure
  · exact children child inside params body frame serial loc below

theorem unit : Value.unit.BodiesAvoid x :=
  of_children (by decide) nofun

theorem of_computed (computed : v.Computed) : v.BodiesAvoid x := by
  cases computed <;> exact of_children (by simp [kind]) nofun

variable {params : List Param} {body : List Value} {frame : FrameId} {serial : Nat}
  {loc : Option Location}

theorem closure (avoid : ∀ form ∈ body, form.Avoids x) :
    (Value.closure params body frame serial loc).BodiesAvoid x := by
  obtain ⟨references, bodies⟩ := forall_avoids_iff.1 avoid
  intro params' body' frame' serial' loc' part
  rcases mem_parts.1 part with same | ⟨child, inside, below⟩
  · cases same
    exact references
  · exact bodies child inside _ _ _ _ _ below

theorem inside (avoids : (Value.closure params body frame serial loc).BodiesAvoid x) :
    ∀ form ∈ body, form.Avoids x :=
  forall_avoids_iff.2
    ⟨avoids _ _ _ _ _ (self_mem_parts _), fun _ inside => avoids.child inside⟩

end BodiesAvoid

namespace Avoids

variable {x : String} {head : Value} {operands : List Value} {loc : Option Location}

theorem call (avoids : (list (head :: operands) loc).Avoids x)
    (call : SpecialForm.ofHead? head = none) : ∀ form ∈ head :: operands, form.Avoids x :=
  forall_avoids_iff.2
    ⟨references_call call operands loc ▸ avoids.references, fun _ inside =>
      avoids.bodies.child inside⟩

theorem special {keyword : SpecialForm} (avoids : (list (head :: operands) loc).Avoids x)
    (special : SpecialForm.ofHead? head = some keyword) :
    ∀ form ∈ keyword.forms operands, form.Avoids x :=
  forall_avoids_iff.2
    ⟨references_special special operands loc ▸ avoids.references, fun _ inside =>
      avoids.bodies.child (List.mem_cons_of_mem _ (SpecialForm.mem_of_mem_forms inside))⟩

theorem program {forms : List Value} (avoids : (Value.program forms loc).Avoids x) :
    ∀ form ∈ forms, form.Avoids x :=
  forall_avoids_iff.2 ⟨avoids.references, fun _ inside => avoids.bodies.child inside⟩

/-- Special forms are headed by their names, but do not refer to them. -/
theorem of_keyword {keyword : SpecialForm} {name : String} {place : Option Location}
    (special : SpecialForm.ofName? name = some keyword)
    (avoid : ∀ form ∈ keyword.forms operands, form.Avoids x)
    (bodies : ∀ operand ∈ operands, operand.BodiesAvoid x) :
    (list (symbol name place :: operands) loc).Avoids x := by
  constructor
  · have head : SpecialForm.ofHead? (symbol name place) = some keyword := special
    rw [references_special head]
    exact (forall_avoids_iff.1 avoid).1
  · refine .of_children (by simp [kind]) fun child inside => ?_
    rcases List.mem_cons.1 inside with rfl | inside
    · exact .of_children (by simp [kind]) nofun
    · exact bodies child inside

end Avoids

end Value

end ScopedLisp
