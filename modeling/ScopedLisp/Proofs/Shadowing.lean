import Mathlib.Data.List.Find
import Mathlib.Logic.Relation
import ScopedLisp.Proofs.Chains
import ScopedLisp.Proofs.Growth

set_option autoImplicit false

namespace ScopedLisp

namespace Store

/-- The frame itself binds the name, whatever the frames around it bind. -/
def Binds (s : Store) (id : FrameId) (name : String) : Prop :=
  ∃ frame, s.frames[id]? = some frame ∧ name ∈ frame.names

/-- The frame is one of the path, and no frame before it on the path binds the name. -/
def Uncovered (s : Store) (path : List FrameId) (id : FrameId) (name : String) : Prop :=
  ∃ nearer rest, path = nearer ++ id :: rest ∧ ∀ other ∈ nearer, ¬ s.Binds other name

/-- What an embedding program does to environments: it makes one, which stands alone or inside one
that there is, it binds a name in one, or it binds the keys of a table in one, as far as they are
names. -/
inductive Change (s : Store) : Store → Prop
  | new (outer : Option FrameId) (known : ∀ o, outer = some o → o < s.frames.size) :
      Change s (s.addFrame (.empty outer)).2
  | set (frame : FrameId) (name : String) (v : Value) : Change s (s.set frame name v)
  | update (frame : FrameId) (pairs : List (Key × Value)) : Change s (s.assignAll frame pairs).2

theorem Linked.assignEach {s : Store} (linked : s.Linked) (frame : FrameId)
    (pairs : List (Key × Value)) : (s.assignEach frame pairs).2.Linked := by
  induction pairs generalizing s with
  | nil => exact linked
  | cons pair rest ih =>
    obtain ⟨key, v⟩ := pair
    cases key with
    | name name => exact ih (linked.set frame name v)
    | value offered => exact linked

theorem Linked.change {s t : Store} (linked : s.Linked) (change : s.Change t) : t.Linked := by
  cases change with
  | new outer known => exact linked.addFrame known
  | set frame name v => exact linked.set frame name v
  | update frame pairs => exact linked.assignEach frame (Key.collapse pairs)

theorem Linked.changes {s t : Store} (linked : s.Linked)
    (changes : Relation.ReflTransGen Change s t) : t.Linked := by
  induction changes with
  | refl => exact linked
  | tail _ change ih => exact ih.change change

theorem binds_iff {s : Store} {id : FrameId} {name : String} :
    s.Binds id name ↔ (s.local? id name).isSome = true := by
  unfold Binds local? Frame.names Frame.get?
  cases s.frames[id]? with
  | none => simp
  | some frame =>
    simp only [Option.some.injEq, exists_eq_left', Option.bind_some, List.lookup_isSome_iff,
      List.mem_map, beq_iff_eq]
    constructor
    · rintro ⟨binding, member, same⟩
      exact ⟨binding, member, same.symm⟩
    · rintro ⟨binding, member, same⟩
      exact ⟨binding, member, same.symm⟩

theorem find?_eq_some_iff {s : Store} {e g : FrameId} {name : String} :
    s.find? e name = some g ↔ s.Binds g name ∧ s.Uncovered (s.chain e) g name := by
  unfold find? Uncovered
  rw [List.find?_eq_some_iff_append]
  simp only [binds_iff, Bool.not_eq_true, Bool.not_eq_eq_eq_not, Bool.not_true]

theorem find?_eq_none_iff {s : Store} {e : FrameId} {name : String} :
    s.find? e name = none ↔ ∀ g ∈ s.chain e, ¬ s.Binds g name := by
  unfold find?
  rw [List.find?_eq_none]
  simp only [binds_iff]

theorem get?_of_find? {s : Store} {e g : FrameId} {name : String} (found : s.find? e name = some g) :
    s.get? e name = s.local? g name := by
  simp only [get?, found, Option.bind_some]

theorem exists_local?_of_find? {s : Store} {e g : FrameId} {name : String}
    (found : s.find? e name = some g) :
    ∃ frame w, s.frames[g]? = some frame ∧ frame.get? name = some w ∧ s.get? e name = some w := by
  have bound := (find?_eq_some_iff.1 found).1
  obtain ⟨w, value⟩ := Option.isSome_iff_exists.1 (binds_iff.1 bound)
  obtain ⟨frame, there, own⟩ := Option.bind_eq_some_iff.1 value
  exact ⟨frame, w, there, own, (get?_of_find? found).trans value⟩

theorem get?_of_find?_eq_none {s : Store} {e : FrameId} {name : String}
    (unbound : s.find? e name = none) : s.get? e name = none := by
  simp only [get?, unbound, Option.bind_none]

theorem lookup_of_get?_eq {s t : Store} {e : FrameId} {name : String}
    (same : t.get? e name = s.get? e name) (loc : Option Location) :
    t.lookup e name loc = s.lookup e name loc := by
  simp only [lookup, same]

theorem lookup_of_get?_eq_some {s : Store} {e : FrameId} {name : String} {v : Value}
    (found : s.get? e name = some v) (loc : Option Location) : s.lookup e name loc = .ok v := by
  simp only [lookup, found]

theorem lookup_eq_error_iff {s : Store} {e : FrameId} {name : String} {loc : Option Location} :
    s.lookup e name loc = .error ⟨.unboundSymbol name, loc⟩ ↔ s.find? e name = none := by
  cases found : s.find? e name with
  | none => simp [lookup, get?_of_find?_eq_none found]
  | some g =>
    obtain ⟨frame, w, _, _, value⟩ := exists_local?_of_find? found
    simp [lookup_of_get?_eq_some value loc]

section Set

variable {s : Store} {f e : FrameId} {x y : String} (v : Value)

theorem chain_set (s : Store) (f : FrameId) (x : String) (v : Value) (e : FrameId) :
    (s.set f x v).chain e = s.chain e := by
  have links (id : FrameId) :
      (s.set f x v).frames[id]?.map Frame.outer = s.frames[id]?.map Frame.outer := by
    rw [getElem?_set]
    split
    · rw [Option.map_map]
      rfl
    · rfl
  induction e using Nat.strongRecOn with
  | ind e ih =>
    rw [chain, chain, links]
    cases s.frames[e]?.map Frame.outer with
    | none => rfl
    | some outer =>
      cases outer with
      | none => rfl
      | some o =>
        by_cases older : o < e
        · simp only [older, ↓reduceIte, ih o older]
        · simp only [older, ↓reduceIte]

theorem local?_set_of_ne {g : FrameId} (apart : g = f → y ≠ x) :
    (s.set f x v).local? g y = s.local? g y := by
  unfold local?
  rw [getElem?_set]
  by_cases here : f = g
  · have other : y ≠ x := apart here.symm
    rw [if_pos here]
    cases s.frames[g]? with
    | none => rfl
    | some frame => simp [Frame.get?_set, other]
  · rw [if_neg here]

theorem local?_set_self (inside : f < s.frames.size) : (s.set f x v).local? f x = some v := by
  have found : s.frames[f]? = some s.frames[f] := Array.getElem?_eq_getElem inside
  unfold local?
  rw [getElem?_set, if_pos rfl, found]
  simp [Frame.get?_set]

/-- Where all frames that are looked at bind the name as before, it is found as before. -/
theorem get?_set_of_apart (apart : ∀ g ∈ s.chain e, g = f → y ≠ x) :
    (s.set f x v).get? e y = s.get? e y := by
  have same : ∀ g ∈ s.chain e, (s.set f x v).local? g y = s.local? g y :=
    fun g member => local?_set_of_ne v (apart g member)
  have sameFrame : (s.set f x v).find? e y = s.find? e y := by
    unfold find?
    rw [chain_set]
    apply List.find?_congr
    intro g member
    rw [same g member]
  cases found : s.find? e y with
  | none => rw [get?_of_find?_eq_none found, get?_of_find?_eq_none (sameFrame.trans found)]
  | some g =>
    have member : g ∈ s.chain e := List.mem_of_find?_eq_some found
    rw [get?_of_find? found, get?_of_find? (sameFrame.trans found), same g member]

theorem get?_set_of_uncovered (inside : e < s.frames.size) (distinct : (s.chain e).Nodup)
    (uncovered : s.Uncovered (s.chain e) f x) : (s.set f x v).get? e x = some v := by
  obtain ⟨nearer, rest, path, unbound⟩ := uncovered
  have member : f ∈ s.chain e := by simp [path]
  have known : f < s.frames.size := Nat.lt_of_le_of_lt (chain_le s e f member) inside
  have value : (s.set f x v).local? f x = some v := local?_set_self v known
  have found : (s.set f x v).find? e x = some f := by
    rw [find?_eq_some_iff, chain_set]
    refine ⟨binds_iff.2 (by rw [value]; rfl), nearer, rest, path, ?_⟩
    intro other before bound
    have ne : other ≠ f := by
      rw [path] at distinct
      rintro rfl
      exact (List.nodup_append.1 distinct).2.2 other before other List.mem_cons_self rfl
    have old : s.Binds other x := by
      rwa [binds_iff, local?_set_of_ne v fun same => absurd same ne, ← binds_iff] at bound
    exact unbound other before old
  rw [get?_of_find? found, value]

/-- A frame that is nearer and binds the name keeps the new binding from being seen. -/
theorem get?_set_of_covered (covered : ¬ s.Uncovered (s.chain e) f x) :
    (s.set f x v).get? e x = s.get? e x := by
  cases found : s.find? e x with
  | none =>
    have unbound := find?_eq_none_iff.1 found
    have outside : f ∉ s.chain e := by
      intro member
      obtain ⟨nearer, rest, path⟩ := List.append_of_mem member
      refine covered ⟨nearer, rest, path, fun other before => ?_⟩
      exact unbound other (by simp [path, before])
    apply get?_set_of_apart
    rintro g member rfl
    exact absurd member outside
  | some g =>
    obtain ⟨bound, nearer, rest, path, unbound⟩ := find?_eq_some_iff.1 found
    have ne : g ≠ f := by
      rintro rfl
      exact covered ⟨nearer, rest, path, unbound⟩
    have notNearer : f ∉ nearer := by
      intro member
      obtain ⟨first, between, split⟩ := List.append_of_mem member
      refine covered ⟨first, between ++ g :: rest, by simp [path, split], fun other before => ?_⟩
      exact unbound other (by simp [split, before])
    have same : ∀ other, other ≠ f → (s.set f x v).local? other x = s.local? other x :=
      fun other apart => local?_set_of_ne v fun here => absurd here apart
    have foundToo : (s.set f x v).find? e x = some g := by
      rw [find?_eq_some_iff, chain_set]
      refine ⟨?_, nearer, rest, path, fun other before => ?_⟩
      · rwa [binds_iff, same g ne, ← binds_iff]
      · rw [binds_iff, same other (ne_of_mem_of_not_mem before notNearer), ← binds_iff]
        exact unbound other before
    rw [get?_of_find? found, get?_of_find? foundToo, same g ne]

end Set

end Store

/-- In a store whose links lead to older frames, after any number of changes, the chain of a frame
leads from it outward, up to the outermost frame. The frame that binds a name for `e` is the first
one of the chain that binds it itself, and what that frame binds it to is the value for `e`; if
there is none, the name is unbound. When `x` is bound in `f`, the new value is seen from `e` under
this name if `f` is on the chain and no frame before it binds the name, and in every other case `e`
sees under every name what it saw before. -/
theorem shadowing_law {s t : Store} (linked : s.Linked)
    (changes : Relation.ReflTransGen Store.Change s t) {e : FrameId} (inside : e < t.frames.size) :
    t.Outward e (t.chain e) ∧ (t.chain e).Nodup ∧
      (∃ root frame, t.root? e = some root ∧ (t.chain e).getLast? = some root ∧
        t.frames[root]? = some frame ∧ frame.outer = none) ∧
      (∀ y g, t.find? e y = some g ↔ t.Binds g y ∧ t.Uncovered (t.chain e) g y) ∧
      (∀ y, t.find? e y = none ↔ ∀ g ∈ t.chain e, ¬ t.Binds g y) ∧
      (∀ y g, t.find? e y = some g → ∃ frame w, t.frames[g]? = some frame ∧
        frame.get? y = some w ∧ t.get? e y = some w ∧ ∀ loc, t.lookup e y loc = .ok w) ∧
      (∀ y, t.find? e y = none → t.get? e y = none) ∧
      (∀ y loc, t.lookup e y loc = .error ⟨.unboundSymbol y, loc⟩ ↔ t.find? e y = none) ∧
      ∀ (f : FrameId) (x : String) (v : Value) (y : String) (loc : Option Location),
        (y = x ∧ t.Uncovered (t.chain e) f x →
          (t.set f x v).get? e y = some v ∧ (t.set f x v).lookup e y loc = .ok v) ∧
        (¬ (y = x ∧ t.Uncovered (t.chain e) f x) →
          (t.set f x v).get? e y = t.get? e y ∧
            (t.set f x v).lookup e y loc = t.lookup e y loc) := by
  obtain ⟨outward, distinct⟩ := (linked.changes changes).outward_chain inside
  obtain ⟨root, frame, last, found, outermost⟩ := outward.outermost
  refine ⟨outward, distinct, ⟨root, frame, last, last, found, outermost⟩,
    fun y g => Store.find?_eq_some_iff, fun y => Store.find?_eq_none_iff, ?_,
    fun y => Store.get?_of_find?_eq_none, fun y loc => Store.lookup_eq_error_iff, ?_⟩
  · intro y g nearest
    obtain ⟨holder, w, there, own, value⟩ := Store.exists_local?_of_find? nearest
    exact ⟨holder, w, there, own, value, Store.lookup_of_get?_eq_some value⟩
  · intro f x v y loc
    constructor
    · rintro ⟨rfl, uncovered⟩
      have value := Store.get?_set_of_uncovered v inside distinct uncovered
      exact ⟨value, Store.lookup_of_get?_eq_some value loc⟩
    · intro otherwise
      have same : (t.set f x v).get? e y = t.get? e y := by
        by_cases named : y = x
        · subst named
          exact Store.get?_set_of_covered v fun uncovered => otherwise ⟨rfl, uncovered⟩
        · exact Store.get?_set_of_apart v fun _ _ _ => named
      exact ⟨same, Store.lookup_of_get?_eq same loc⟩

/-- Two frames inside a frame inside a root, of which the second binds `x`: when `x` is bound in the
frame around them, the first sees the new value and the second its own. -/
theorem shadowing_law_of_siblings :
    let root := (Store.empty.addFrame (.empty none)).2
    let s := root.set 0 "x" (.integer 1 none)
    let middle := (s.addFrame (.empty (some 0))).2
    let first := (middle.addFrame (.empty (some 1))).2
    let second := (first.addFrame (.empty (some 1))).2
    let t := second.set 3 "x" (.integer 2 none)
    s.Linked ∧ Relation.ReflTransGen Store.Change s t ∧
      (t.set 1 "x" (.integer 3 none)).get? 2 "x" = some (.integer 3 none) ∧
      (t.set 1 "x" (.integer 3 none)).get? 3 "x" = t.get? 3 "x" := by
  intro root s middle first second t
  have linked : s.Linked := by
    have empty : Store.empty.Linked := by
      intro id o frame found
      simp [Store.empty] at found
    have rooted : root.Linked := empty.addFrame (by simp [Frame.empty])
    exact rooted.set 0 "x" (.integer 1 none)
  have changes : Relation.ReflTransGen Store.Change s t := by
    have one : s.Change middle := .new (some 0) (by simp [s, root, Store.set])
    have two : middle.Change first := .new (some 1) (by simp [middle, s, root, Store.set])
    have three : first.Change second := .new (some 1) (by simp [first, middle, s, root, Store.set])
    exact .tail (.tail (.tail (.single one) two) three) (.set 3 "x" (.integer 2 none))
  have law (e : FrameId) (inside : e < 4) := shadowing_law linked changes (e := e) inside
  have chain (e : FrameId) (inner : e = 2 ∨ e = 3) : t.chain e = [e, 1, 0] := by
    rcases inner with rfl | rfl <;> cbv
  refine ⟨linked, changes, ?_, ?_⟩
  · obtain ⟨_, _, _, _, _, _, _, _, writes⟩ := law 2 (by decide)
    have unbound : ¬ t.Binds 2 "x" := by
      rw [Store.binds_iff]
      decide
    have uncovered : t.Uncovered (t.chain 2) 1 "x" := by
      refine ⟨[2], [0], chain 2 (.inl rfl), ?_⟩
      simpa using unbound
    exact ((writes 1 "x" (.integer 3 none) "x" none).1 ⟨rfl, uncovered⟩).1
  · obtain ⟨_, _, _, _, _, _, _, _, writes⟩ := law 3 (by decide)
    have bound : t.Binds 3 "x" := by
      rw [Store.binds_iff]
      decide
    have covered : ¬ t.Uncovered (t.chain 3) 1 "x" := by
      rintro ⟨nearer, rest, path, unbound⟩
      rw [chain 3 (.inr rfl)] at path
      cases nearer with
      | nil => simp at path
      | cons other more =>
        have same : other = 3 := (List.cons.inj path).1.symm
        exact unbound other List.mem_cons_self (same ▸ bound)
    exact ((writes 1 "x" (.integer 3 none) "x" none).2 fun seen => covered seen.2).1

end ScopedLisp
