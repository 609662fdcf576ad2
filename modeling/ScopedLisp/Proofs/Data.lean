import Mathlib.Data.List.Count
import Mathlib.Data.List.Nodup
import ScopedLisp.Proofs.Code
import ScopedLisp.Proofs.Discipline

set_option autoImplicit false

namespace ScopedLisp

namespace Parameters

theorem nodup_of_duplicates_eq_nil {names : List String} (none : duplicates names = []) :
    names.Nodup := by
  rw [List.nodup_iff_count_le_one]
  intro name
  by_contra many
  have repeated : 1 < names.count name := by omega
  have member : name ∈ names := List.count_pos_iff.1 (by omega)
  have listed : name ∈ duplicates names := by
    simp [duplicates, member, repeated]
  rw [none] at listed
  cases listed

/-- The marker takes all that follows it, so no parameter comes after a variadic one. -/
theorem fixed_of_parseItems {loc : Option Location} {items : List Value} {params : List Param}
    (success : parseItems loc items = .ok params) :
    ∀ param ∈ params.dropLast, param.variadic = false := by
  fun_induction parseItems loc items generalizing params with
  | case1 =>
    cases success
    simp
  | case2 => cases success
  | case3 =>
    cases success
    simp
  | case4 => cases success
  | case5 => cases success
  | case6 name own items other ih =>
    cases remaining : parseItems loc items with
    | error f =>
      rw [remaining] at success
      cases success
    | ok rest =>
      rw [remaining] at success
      cases success
      intro param member
      cases rest with
      | nil => cases member
      | cons next more =>
        rcases List.mem_cons.1 member with rfl | member
        · rfl
        · exact ih remaining param member
  | case7 => cases success

theorem parse_ok {operand : Value} {form : Option Location} {params : List Param}
    (success : parse operand form = .ok params) :
    (params.map Param.name).Nodup ∧ ∀ param ∈ params.dropLast, param.variadic = false := by
  unfold parse at success
  split at success
  · split at success
    · cases success
    · rename_i parsed
      simp only at success
      split at success
      · rename_i distinct
        cases success
        exact ⟨nodup_of_duplicates_eq_nil (List.isEmpty_iff.1 distinct), fixed_of_parseItems parsed⟩
      · cases success
  · cases success

end Parameters

theorem Value.IsCode.within {v : Value} (code : v.IsCode) (s : Store) : v.Within s := by
  intro part member
  cases code.part member <;> trivial

/-- What names are bound to and what evaluations return: neither symbols nor programs, also not
inside lists. -/
inductive Value.IsData : Value → Prop
  | void (place : Option Location) : IsData (.void place)
  | integer {n : Int} (inRange : Integer.inRange n = true) (place : Option Location) :
      IsData (.integer n place)
  | float (x : Float) (place : Option Location) : IsData (.float x place)
  | bool (b : Bool) (place : Option Location) : IsData (.bool b place)
  | string (text : String) (place : Option Location) : IsData (.string text place)
  | list {items : List Value} (data : ∀ item ∈ items, IsData item) (place : Option Location) :
      IsData (.list items place)
  | closure {params : List Param} {body : List Value} (distinct : (params.map Param.name).Nodup)
      (fixed : ∀ param ∈ params.dropLast, param.variadic = false)
      (code : ∀ form ∈ body, form.IsCode) (frame : FrameId) (serial : Nat)
      (place : Option Location) : IsData (.closure params body frame serial place)
  | builtin (op : Operator) (serial : Nat) : IsData (.builtin op.name serial)

theorem Value.IsData.part {v part : Value} (data : v.IsData) (member : part ∈ v.parts) :
    part.IsData ∨ part.IsCode := by
  induction v using induction_on_children with
  | ascend v ih =>
    rcases mem_parts.1 member with rfl | ⟨child, inside, below⟩
    · exact .inl data
    · cases data with
      | list items => exact ih child inside (items child inside) below
      | closure _ _ code => exact .inr ((code child inside).part below)
      | _ => cases inside

/-- Texts are read as code, and running code makes data. -/
def Discipline.ofTexts : Discipline where
  code := Value.IsCode
  data := Value.IsData
  place := fun place => place.isSome = true
  child := Value.IsCode.child
  located := Value.IsCode.located
  notForeign := nofun
  literal := by
    intro v code literal
    cases code with
    | integer inRange place => exact .integer inRange _
    | float x place => exact .float x _
    | bool b place => exact .bool b _
    | string text place => exact .string text _
    | symbol | list | program => cases literal
  unit := .void none
  rest := fun args => .list args none
  computed := by
    intro v computed
    cases computed with
    | integer inRange => exact .integer inRange none
    | float x => exact .float x none
    | bool b => exact .bool b none
  closure := by
    intro head operand body loc params frame serial code _ parsed
    obtain ⟨distinct, fixed⟩ := Parameters.parse_ok parsed
    refine .closure distinct fixed (fun form member => ?_) frame serial loc
    exact code.child (List.mem_cons_of_mem _ (List.mem_cons_of_mem _ member))
  body := by
    intro params body frame serial loc data
    cases data with
    | closure _ _ code => exact code
  inRange := by
    intro n loc data
    cases data with
    | integer inRange => exact inRange
  operator := by
    intro code serial data
    cases data with
    | builtin op => exact ⟨op, rfl⟩

end ScopedLisp
