import ScopedLisp.Proofs.Chains
import ScopedLisp.Proofs.ReachableSession

set_option autoImplicit false

namespace ScopedLisp

/-- A closure was made in a frame of the store, its parameters have distinct names and only the last
may be variadic; a builtin closure has the code of an operator, which the code finds. -/
def Value.IsProper (s : Store) : Value → Prop
  | closure params _ frame _ _ =>
    frame < s.frames.size ∧ (params.map Param.name).Nodup ∧
      ∀ param ∈ params.dropLast, param.variadic = false
  | builtin code _ => ∃ op ∈ Operator.all, code = op.name ∧ Operator.ofName? code = some op
  | _ => True

/-- Data whose closures, also those inside it, are proper. -/
structure Value.Lawful (s : Store) (v : Value) : Prop where
  data : v.IsData
  closures : ∀ part ∈ v.parts, part.IsProper s

/-- Links lead outward to an end without a cycle, and every bound value is lawful. -/
structure Store.Orderly (s : Store) : Prop where
  chains : ∀ (id : FrameId) (frame : Frame), s.frames[id]? = some frame →
    s.Outward id (s.chain id) ∧ (s.chain id).Nodup
  values : s.AllBound (Value.Lawful s)

theorem Discipline.Sound.lawful {s : Store} {v : Value} (sound : Discipline.ofTexts.Sound s v) :
    v.Lawful s := by
  refine ⟨sound.data, ?_⟩
  intro part member
  have known := sound.within part member
  rcases Value.IsData.part sound.data member with data | code
  · cases data with
    | closure distinct fixed _ frame serial place => exact ⟨known.1, distinct, fixed⟩
    | builtin op serial => exact ⟨op, op.mem_all, rfl, op.ofName?_name⟩
    | _ => trivial
  · cases code <;> trivial

theorem Discipline.Holds.orderly {s : Store} (holds : Discipline.ofTexts.Holds s) : s.Orderly := by
  constructor
  · intro id frame found
    have inside : id < s.frames.size := (Array.getElem?_eq_some_iff.1 found).1
    exact holds.wellFormed.linked.outward_chain inside
  · intro id frame found binding member
    have within := holds.wellFormed.values id frame found binding member
    have data := holds.data id frame found binding member
    exact Sound.lawful ⟨data, within⟩

/-- In a session that was started with the operators bound in its root and was given any texts, each
evaluated or failed, frames keep their links and the order of their names, links lead outward to an
end, and what is bound or returned is data whose closures are proper. The same holds at the start
and at the end of every evaluation that a further text comes to, and none of them ends with the
error for values that are no forms, nor with a code that finds no operator. -/
theorem session_store_invariant {s t : Session} (reachable : s.Reachable) (leads : s.Leads t)
    (source : String) (file : Option String) :
    s.store.Grows t.store ∧ t.store.Orderly ∧
    (∀ v, (t.eval source file).1 = .ok v → v.Lawful (t.eval source file).2.store) ∧
    (∀ failure, (t.eval source file).1 = .error failure → failure.OfText ∧
      ∀ kind place, failure ≠ .error ⟨.typeMismatch "expression" kind, place⟩) ∧
    ∀ task, t.Runs source file task →
      t.store.Grows task.store ∧ task.store.Grows (task.after .usual) ∧
      (task.after .usual).Grows (t.eval source file).2.store ∧
      task.store.Orderly ∧ (task.after .usual).Orderly ∧
      (∀ v, (task.run .usual).1 = .done v → v.Lawful (task.after .usual)) ∧
      (∀ kind place, (task.run .usual).1 ≠
        .failed (.error ⟨.typeMismatch "expression" kind, place⟩)) ∧
      ∀ m, (task.run .usual).1 ≠ .failed (.misuse m) := by
  have holds := (reachable.leads leads).holds
  refine ⟨leads.grows, holds.store.orderly, ?_, ?_, ?_⟩
  · intro v returned
    exact (holds.returned returned).lawful
  · intro failure failed
    exact ⟨holds.failed failed, (holds.failed failed).ne_expression⟩
  · intro task runs
    obtain ⟨before, during, after⟩ := runs.grows
    have fit := holds.fit_of_runs runs
    have ends := fit.ends .usual
    refine ⟨before, during, after, fit.holds.orderly, ends.holds.orderly, ?_, ?_, ?_⟩
    · intro v returned
      exact (ends.done v returned).lawful
    · intro kind place failed
      obtain ⟨ofProgram, _⟩ := ends.failed _ failed
      exact Cause.not_ofProgram_expression kind ofProgram
    · intro m misused
      cases ends.failed _ misused

/-- The second text calls the closure that the first one defines. -/
theorem session_store_invariant_of_call :
    let s := Session.seeded .usual
    let t := (s.eval "(define f (lambda (n &rest more) (g n)))" none).2
    let task := t.task [.list [.symbol "f" (some ⟨none, 1, 2⟩), .integer 1 (some ⟨none, 1, 4⟩)]
      (some ⟨none, 1, 1⟩)] none
    s.Reachable ∧ s.Leads t ∧ t.Runs "(f 1)" none task ∧ s.store.Grows t.store ∧
      (task.after .usual).Orderly := by
  have call : (Session.seeded .usual).read "(f 1)" none = .ok [.list
      [.symbol "f" (some ⟨none, 1, 2⟩), .integer 1 (some ⟨none, 1, 4⟩)] (some ⟨none, 1, 1⟩)] := by
    with_unfolding_all rfl
  intro s t task
  have reachable : s.Reachable := ⟨.usual, none, s, rfl, .refl⟩
  have leads : s.Leads t := .single ⟨_, _, rfl⟩
  have runs : t.Runs "(f 1)" none task := ⟨_, (s.read_eval _ _ _ _).trans call, .refl⟩
  obtain ⟨grows, _, _, _, tasks⟩ := session_store_invariant reachable leads "(f 1)" none
  obtain ⟨_, _, _, _, orderly, _⟩ := tasks task runs
  exact ⟨reachable, leads, runs, grows, orderly⟩

end ScopedLisp
