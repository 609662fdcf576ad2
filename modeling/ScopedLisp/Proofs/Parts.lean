import ScopedLisp.Value

set_option autoImplicit false

namespace ScopedLisp.Value

/-- The values right inside a value. -/
def children : Value → List Value
  | list items _ => items
  | program forms _ => forms
  | closure _ body _ _ _ => body
  | _ => []

mutual

def parts : Value → List Value
  | list items loc => list items loc :: partsOfAll items
  | program forms loc => program forms loc :: partsOfAll forms
  | closure params body frame serial loc =>
    closure params body frame serial loc :: partsOfAll body
  | v => [v]

def partsOfAll : List Value → List Value
  | [] => []
  | v :: vs => parts v ++ partsOfAll vs

end

theorem mem_partsOfAll {part : Value} {vs : List Value} :
    part ∈ partsOfAll vs ↔ ∃ v ∈ vs, part ∈ v.parts := by
  induction vs with
  | nil => simp [partsOfAll]
  | cons v vs ih => simp [partsOfAll, ih]

theorem parts_eq (v : Value) : v.parts = v :: partsOfAll v.children := by
  cases v <;> rfl

theorem mem_parts {part v : Value} :
    part ∈ v.parts ↔ part = v ∨ ∃ child ∈ v.children, part ∈ child.parts := by
  rw [parts_eq, List.mem_cons, mem_partsOfAll]

theorem self_mem_parts (v : Value) : v ∈ v.parts :=
  mem_parts.2 (.inl rfl)

theorem mem_parts_of_child {part child v : Value} (inside : child ∈ v.children)
    (member : part ∈ child.parts) : part ∈ v.parts :=
  mem_parts.2 (.inr ⟨child, inside, member⟩)

theorem sizeOf_lt_of_mem_children {child v : Value} (inside : child ∈ v.children) :
    sizeOf child < sizeOf v := by
  cases v with
  | list items loc =>
    have := List.sizeOf_lt_of_mem (show child ∈ items from inside)
    simp only [list.sizeOf_spec]
    omega
  | program forms loc =>
    have := List.sizeOf_lt_of_mem (show child ∈ forms from inside)
    simp only [program.sizeOf_spec]
    omega
  | closure params body frame serial loc =>
    have := List.sizeOf_lt_of_mem (show child ∈ body from inside)
    simp only [closure.sizeOf_spec]
    omega
  | _ => simp [children] at inside

/-- What passes from the values right inside a value to the value itself holds of all values. -/
theorem induction_on_children {motive : Value → Prop} (v : Value)
    (ascend : ∀ v, (∀ child ∈ v.children, motive child) → motive v) : motive v :=
  ascend v fun child _inside => induction_on_children child ascend
termination_by v
decreasing_by exact sizeOf_lt_of_mem_children _inside

end ScopedLisp.Value
