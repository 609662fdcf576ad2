import Mathlib.Data.List.Nodup
import ScopedLisp.Proofs.WellFormed

set_option autoImplicit false

namespace ScopedLisp.Store

/-- The frames from a frame outward, each right around the one before, up to a frame that has none
around it. -/
inductive Outward (s : Store) : FrameId → List FrameId → Prop
  | root {id : FrameId} {frame : Frame} (found : s.frames[id]? = some frame)
      (outermost : frame.outer = none) : Outward s id [id]
  | link {id o : FrameId} {frame : Frame} {path : List FrameId}
      (found : s.frames[id]? = some frame) (around : frame.outer = some o)
      (rest : Outward s o path) : Outward s id (id :: path)

theorem chain_le (s : Store) (id : FrameId) : ∀ other ∈ s.chain id, other ≤ id := by
  fun_induction chain s id with
  | case1 => exact nofun
  | case2 => simp
  | case3 id outer linked older ih =>
    intro other member
    rcases List.mem_cons.1 member with rfl | member
    · exact Nat.le_refl other
    · exact Nat.le_of_lt (Nat.lt_of_le_of_lt (ih other member) older)
  | case4 => simp

/-- Where every link leads to an older frame, every link is followed, and no frame is met twice. -/
theorem Linked.outward_chain {s : Store} (linked : s.Linked) {id : FrameId}
    (inside : id < s.frames.size) : s.Outward id (s.chain id) ∧ (s.chain id).Nodup := by
  induction id using Nat.strongRecOn with
  | ind id ih =>
    obtain ⟨frame, found⟩ : ∃ frame, s.frames[id]? = some frame :=
      ⟨_, Array.getElem?_eq_getElem inside⟩
    rw [chain, found]
    cases around : frame.outer with
    | none =>
      simp only [Option.map_some, around]
      exact ⟨.root found around, List.nodup_singleton id⟩
    | some o =>
      have older := linked id o frame found around
      obtain ⟨path, distinct⟩ := ih o older (Nat.lt_trans older inside)
      simp only [Option.map_some, around, if_pos older]
      have fresh : id ∉ s.chain o := by
        intro again
        exact Nat.not_le_of_lt older (chain_le s o id again)
      exact ⟨.link found around path, List.nodup_cons.2 ⟨fresh, distinct⟩⟩

theorem Outward.outermost {s : Store} {id : FrameId} {path : List FrameId}
    (outward : s.Outward id path) :
    ∃ root frame, path.getLast? = some root ∧ s.frames[root]? = some frame ∧
      frame.outer = none := by
  induction outward with
  | @root id frame found outermost => exact ⟨id, frame, rfl, found, outermost⟩
  | @link id o frame path found around rest ih =>
    obtain ⟨root, last, ends, there, outermost⟩ := ih
    refine ⟨root, last, ?_, there, outermost⟩
    rw [List.getLast?_cons, ends]
    rfl

end ScopedLisp.Store
