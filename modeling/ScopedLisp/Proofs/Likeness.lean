import Mathlib.Data.List.Forall2
import ScopedLisp.Proofs.OperatorCall
import ScopedLisp.Proofs.Parts
import ScopedLisp.Session

set_option autoImplicit false

namespace ScopedLisp

structure Likeness where
  frame : FrameId → FrameId → Prop
  serial : Nat → Nat → Prop
  place : Option Location → Option Location → Prop
  /-- Frames that stand for each other come in the same order in both stores. -/
  frame_lt : ∀ {i i' j j' : Nat}, frame i i' → frame j j' → (i < j ↔ i' < j')
  place_none : place none none
  place_or : ∀ {p p' q q' : Option Location}, place p p' → place q q' → place (p.or q) (p'.or q')

namespace Likeness

variable (l : Likeness)

structure AlikeParam (p q : Param) : Prop where
  name : p.name = q.name
  variadic : p.variadic = q.variadic
  loc : l.place p.loc q.loc

inductive Alike (l : Likeness) : Value → Value → Prop
  | void {p q : Option Location} (place : l.place p q) : Alike l (.void p) (.void q)
  | integer (n : Int) {p q : Option Location} (place : l.place p q) :
    Alike l (.integer n p) (.integer n q)
  | float (x : Float) {p q : Option Location} (place : l.place p q) :
    Alike l (.float x p) (.float x q)
  | bool (b : Bool) {p q : Option Location} (place : l.place p q) : Alike l (.bool b p) (.bool b q)
  | string (s : String) {p q : Option Location} (place : l.place p q) :
    Alike l (.string s p) (.string s q)
  | symbol (name : String) {p q : Option Location} (place : l.place p q) :
    Alike l (.symbol name p) (.symbol name q)
  | list {vs ws : List Value} {p q : Option Location} (items : List.Forall₂ (Alike l) vs ws)
      (place : l.place p q) : Alike l (.list vs p) (.list ws q)
  | program {vs ws : List Value} {p q : Option Location} (forms : List.Forall₂ (Alike l) vs ws)
      (place : l.place p q) : Alike l (.program vs p) (.program ws q)
  | closure {params params' : List Param} {body body' : List Value} {i j : FrameId} {m n : Nat}
      {p q : Option Location} (parameters : List.Forall₂ l.AlikeParam params params')
      (forms : List.Forall₂ (Alike l) body body') (frame : l.frame i j) (serial : l.serial m n)
      (place : l.place p q) : Alike l (.closure params body i m p) (.closure params' body' j n q)
  | builtin (code : String) {m n : Nat} (serial : l.serial m n) :
    Alike l (.builtin code m) (.builtin code n)
  | foreign (kind text : String) : Alike l (.foreign kind text) (.foreign kind text)

abbrev AllAlike : List Value → List Value → Prop :=
  List.Forall₂ l.Alike

def AlikeBinding (a b : String × Value) : Prop :=
  a.1 = b.1 ∧ l.Alike a.2 b.2

structure AlikeFrame (f g : Frame) : Prop where
  bindings : List.Forall₂ l.AlikeBinding f.bindings g.bindings
  outer : Option.Rel l.frame f.outer g.outer

/-- The frames that stand for each other are alike, and so will be the frames and the numbers of
closures that both runs still have to make. -/
structure AlikeStore (s t : Store) : Prop where
  frames : ∀ {i j : FrameId}, l.frame i j → Option.Rel l.AlikeFrame s.frames[i]? t.frames[j]?
  nextFrame : ∀ k, l.frame (s.frames.size + k) (t.frames.size + k)
  nextSerial : ∀ k, l.serial (s.nextSerial + k) (t.nextSerial + k)

inductive AlikeFault : Fault → Fault → Prop
  | error (cause : Cause) {p q : Option Location} (place : l.place p q) :
    AlikeFault (.error ⟨cause, p⟩) (.error ⟨cause, q⟩)
  | misuse (m : Misuse) : AlikeFault (.misuse m) (.misuse m)

inductive AlikeResult {α β : Type} (R : α → β → Prop) : Except Fault α → Except Fault β → Prop
  | ok {a : α} {b : β} (values : R a b) : AlikeResult R (.ok a) (.ok b)
  | error {f g : Fault} (faults : l.AlikeFault f g) : AlikeResult R (.error f) (.error g)

inductive AlikeOutcome {α β : Type} (R : α → β → Prop) : Outcome α → Outcome β → Prop
  | done {a : α} {b : β} (values : R a b) : AlikeOutcome R (.done a) (.done b)
  | failed {f g : Fault} (faults : l.AlikeFault f g) : AlikeOutcome R (.failed f) (.failed g)
  | tooDeep : AlikeOutcome R .tooDeep .tooDeep

section Outcomes

variable {l}

theorem eq_of_alikeFault (places : ∀ p q, l.place p q → p = q) {f g : Fault}
    (alike : l.AlikeFault f g) : f = g := by
  cases alike with
  | error cause place => rw [places _ _ place]
  | misuse m => rfl

variable {α β : Type} {R : α → β → Prop} {a : Outcome α} {b : Outcome β}

theorem AlikeOutcome.failed_iff (alike : l.AlikeOutcome R a b)
    (places : ∀ p q, l.place p q → p = q) (fault : Fault) :
    a = .failed fault ↔ b = .failed fault := by
  cases alike with
  | done values => exact ⟨nofun, nofun⟩
  | failed faults => simp [eq_of_alikeFault places faults]
  | tooDeep => exact ⟨nofun, nofun⟩

theorem AlikeOutcome.exists_done (alike : l.AlikeOutcome R a b) {v : α} (done : a = .done v) :
    ∃ w, b = .done w ∧ R v w := by
  cases alike with
  | done values =>
    cases done
    exact ⟨_, rfl, values⟩
  | failed faults => cases done
  | tooDeep => cases done

end Outcomes

section Values

variable {l}

theorem frame_eq_iff {i i' j j' : Nat} (first : l.frame i i') (second : l.frame j j') :
    i = j ↔ i' = j' := by
  have below := l.frame_lt first second
  have above := l.frame_lt second first
  omega

theorem Alike.operand_eq {v w : Value} (alike : l.Alike v w) : v.operand = w.operand := by
  cases alike <;> rfl

theorem Alike.ofHead?_eq {v w : Value} (alike : l.Alike v w) :
    SpecialForm.ofHead? v = SpecialForm.ofHead? w := by
  cases alike <;> rfl

theorem Alike.blame {v w : Value} (alike : l.Alike v w) (cause : Cause) {p q : Option Location}
    (place : l.place p q) : l.AlikeFault (v.blame cause p) (w.blame cause q) := by
  cases alike with
  | builtin op serial => exact .error cause (l.place_or l.place_none place)
  | foreign kind text => exact .misuse _
  | void own => exact .error cause (l.place_or own place)
  | integer n own => exact .error cause (l.place_or own place)
  | float x own => exact .error cause (l.place_or own place)
  | bool b own => exact .error cause (l.place_or own place)
  | string s own => exact .error cause (l.place_or own place)
  | symbol name own => exact .error cause (l.place_or own place)
  | list items own => exact .error cause (l.place_or own place)
  | program forms own => exact .error cause (l.place_or own place)
  | closure parameters forms frame serial own => exact .error cause (l.place_or own place)

theorem alike_refl (places : ∀ p, l.place p p) (v : Value)
    (closures : ∀ params body i m p, Value.closure params body i m p ∈ v.parts →
      l.frame i i ∧ l.serial m m)
    (builtins : ∀ op m, Value.builtin op m ∈ v.parts → l.serial m m) : l.Alike v v := by
  induction v using Value.induction_on_children with
  | ascend v ih =>
    have inside : List.Forall₂ l.Alike v.children v.children := by
      refine List.forall₂_same.2 fun child below => ih child below ?_ ?_
      · intro params body i m p part
        exact closures params body i m p (Value.mem_parts_of_child below part)
      · intro op m part
        exact builtins op m (Value.mem_parts_of_child below part)
    have whole := Value.self_mem_parts v
    cases v with
    | void p => exact .void (places p)
    | integer n p => exact .integer n (places p)
    | float x p => exact .float x (places p)
    | bool b p => exact .bool b (places p)
    | string s p => exact .string s (places p)
    | symbol name p => exact .symbol name (places p)
    | list items p => exact .list inside (places p)
    | program forms p => exact .program inside (places p)
    | closure params body i m p =>
      obtain ⟨frame, serial⟩ := closures params body i m p whole
      have parameters : List.Forall₂ l.AlikeParam params params :=
        List.forall₂_same.2 fun param _ => ⟨rfl, rfl, places param.loc⟩
      exact .closure parameters inside frame serial (places p)
    | builtin op m => exact .builtin op (builtins op m whole)
    | foreign kind text => exact .foreign kind text

theorem alike_of_computed {v : Value} (computed : v.Computed) : l.Alike v v := by
  cases computed with
  | integer inRange => exact .integer _ l.place_none
  | float x => exact .float x l.place_none
  | bool b => exact .bool b l.place_none

theorem alikeFault_movedTo (f : Fault) {p q : Option Location} (place : l.place p q) :
    l.AlikeFault (f.movedTo p) (f.movedTo q) := by
  cases f with
  | error e => exact .error e.cause place
  | misuse m => exact .misuse m

theorem alike_call (op : Operator) {args args' : List Value} (alike : l.AllAlike args args')
    {p q : Option Location} (place : l.place p q) :
    l.AlikeResult l.Alike (op.call args p) (op.call args' q) := by
  have same : args.map Value.operand = args'.map Value.operand := by
    induction alike with
    | nil => rfl
    | cons first _ ih => rw [List.map_cons, List.map_cons, first.operand_eq, ih]
  -- Both calls are one call, moved to two places.
  rw [op.call_moved rfl none p, op.call_moved same none q]
  cases called : op.call args none with
  | ok v => exact .ok (alike_of_computed (Operator.call_computed called))
  | error f => exact .error (alikeFault_movedTo f place)

theorem alike_callCode (code : String) {args args' : List Value} (alike : l.AllAlike args args')
    {p q : Option Location} (place : l.place p q) :
    l.AlikeResult l.Alike (Operator.callCode code args p) (Operator.callCode code args' q) := by
  unfold Operator.callCode
  split
  · exact alike_call _ alike place
  · exact .error (.misuse _)

end Values

section Frames

variable {l}

theorem alike_lookup {bindings bindings' : List (String × Value)}
    (alike : List.Forall₂ l.AlikeBinding bindings bindings') (name : String) :
    Option.Rel l.Alike (bindings.lookup name) (bindings'.lookup name) := by
  induction alike with
  | nil => exact .none
  | cons first _ ih =>
    obtain ⟨names, values⟩ := first
    rw [List.lookup_cons, List.lookup_cons, names]
    split
    · exact .some values
    · exact ih

theorem alike_setBinding {bindings bindings' : List (String × Value)}
    (alike : List.Forall₂ l.AlikeBinding bindings bindings') (name : String) {v w : Value}
    (values : l.Alike v w) :
    List.Forall₂ l.AlikeBinding (Frame.setBinding name v bindings)
      (Frame.setBinding name w bindings') := by
  induction alike with
  | nil => exact .cons ⟨rfl, values⟩ .nil
  | @cons a b rest rest' first others ih =>
    obtain ⟨names, olds⟩ := first
    unfold Frame.setBinding
    rw [← names]
    split
    · exact .cons ⟨rfl, values⟩ others
    · exact .cons ⟨rfl, olds⟩ ih

theorem AlikeFrame.get? {f g : Frame} (alike : l.AlikeFrame f g) (name : String) :
    Option.Rel l.Alike (f.get? name) (g.get? name) :=
  alike_lookup alike.bindings name

theorem AlikeFrame.set {f g : Frame} (alike : l.AlikeFrame f g) (name : String) {v w : Value}
    (values : l.Alike v w) : l.AlikeFrame (f.set name v) (g.set name w) :=
  ⟨alike_setBinding alike.bindings name values, alike.outer⟩

theorem AlikeFrame.setAll {f g : Frame} (alike : l.AlikeFrame f g)
    {made made' : List (String × Value)} (bindings : List.Forall₂ l.AlikeBinding made made') :
    l.AlikeFrame (f.setAll made) (g.setAll made') := by
  induction bindings generalizing f g with
  | nil => exact alike
  | @cons a b rest rest' first _ ih =>
    obtain ⟨names, values⟩ := first
    rw [Frame.setAll_cons, Frame.setAll_cons, ← names]
    exact ih (alike.set a.1 values)

theorem alikeFrame_empty {i j : FrameId} (outer : l.frame i j) :
    l.AlikeFrame (.empty (some i)) (.empty (some j)) :=
  ⟨.nil, .some outer⟩

end Frames

section Stores

variable {l} {s t : Store}

/-- The frames around two frames that stand for each other do so one by one. -/
theorem AlikeStore.chain (alike : l.AlikeStore s t) {i j : FrameId} (here : l.frame i j) :
    List.Forall₂ l.frame (s.chain i) (t.chain j) := by
  induction i using Nat.strongRecOn generalizing j with
  | ind i ih =>
    have frames := alike.frames here
    unfold Store.chain
    generalize s.frames[i]? = first at frames
    generalize t.frames[j]? = second at frames
    cases frames with
    | none => exact .nil
    | @some f g frames =>
      have outer := frames.outer
      simp only [Option.map_some]
      generalize f.outer = around at outer
      generalize g.outer = around' at outer
      cases outer with
      | none => exact .cons here .nil
      | @some o o' outer =>
        -- Whether the outer frame is older, and its link so followed, is the same in both.
        by_cases older : o < i
        · simp only [older, (l.frame_lt outer here).1 older, ↓reduceIte]
          exact .cons here (ih o older outer)
        · have olderToo : ¬ o' < j := fun older' => older ((l.frame_lt outer here).2 older')
          simp only [older, olderToo, ↓reduceIte]
          exact .cons here .nil

theorem bind_rel {α β γ δ : Type} {R : α → β → Prop} {S : γ → δ → Prop} {a : Option α}
    {b : Option β} {f : α → Option γ} {g : β → Option δ} (related : Option.Rel R a b)
    (next : ∀ {x y}, R x y → Option.Rel S (f x) (g y)) : Option.Rel S (a.bind f) (b.bind g) := by
  cases related with
  | none => exact .none
  | some values => exact next values

theorem AlikeStore.local? (alike : l.AlikeStore s t) {i j : FrameId} (here : l.frame i j)
    (name : String) : Option.Rel l.Alike (s.local? i name) (t.local? j name) :=
  bind_rel (alike.frames here) fun frames => frames.get? name

theorem isSome_eq_of_rel {α β : Type} {R : α → β → Prop} {a : Option α} {b : Option β}
    (related : Option.Rel R a b) : a.isSome = b.isSome := by
  cases related <;> rfl

theorem find?_rel {α β : Type} {R : α → β → Prop} {p : α → Bool} {q : β → Bool} {xs : List α}
    {ys : List β} (related : List.Forall₂ R xs ys) (same : ∀ {x y}, R x y → p x = q y) :
    Option.Rel R (xs.find? p) (ys.find? q) := by
  induction related with
  | nil => exact .none
  | cons first _ ih =>
    rw [List.find?_cons, List.find?_cons, same first]
    split
    · exact .some first
    · exact ih

theorem AlikeStore.get? (alike : l.AlikeStore s t) {i j : FrameId} (here : l.frame i j)
    (name : String) : Option.Rel l.Alike (s.get? i name) (t.get? j name) := by
  have nearest : Option.Rel l.frame (s.find? i name) (t.find? j name) :=
    find?_rel (alike.chain here) fun frames => isSome_eq_of_rel (alike.local? frames name)
  exact bind_rel nearest fun found => alike.local? found name

theorem AlikeStore.set (alike : l.AlikeStore s t) {i j : FrameId} (here : l.frame i j)
    (name : String) {v w : Value} (values : l.Alike v w) :
    l.AlikeStore (s.set i name v) (t.set j name w) := by
  refine ⟨fun {i' j'} there => ?_, fun k => ?_, alike.nextSerial⟩
  · have frames := alike.frames there
    rw [Store.getElem?_set, Store.getElem?_set]
    by_cases same : i = i'
    · rw [if_pos same, if_pos ((frame_eq_iff here there).1 same)]
      rw [Option.map_eq_bind, Option.map_eq_bind]
      exact bind_rel frames fun frames => .some (frames.set name values)
    · rw [if_neg same, if_neg fun same' => same ((frame_eq_iff here there).2 same')]
      exact frames
  · simpa [Store.set] using alike.nextFrame k

theorem AlikeStore.addFrame (alike : l.AlikeStore s t) {f g : Frame} (frames : l.AlikeFrame f g) :
    l.AlikeStore (s.addFrame f).2 (t.addFrame g).2 := by
  refine ⟨fun {i j} there => ?_, fun k => ?_, alike.nextSerial⟩
  · have new : i = s.frames.size ↔ j = t.frames.size := frame_eq_iff there (alike.nextFrame 0)
    rw [Store.frames_addFrame, Store.frames_addFrame, Array.getElem?_push, Array.getElem?_push]
    by_cases last : i = s.frames.size
    · rw [if_pos last, if_pos (new.1 last)]
      exact .some frames
    · rw [if_neg last, if_neg fun last' => last (new.2 last')]
      exact alike.frames there
  · have next := alike.nextFrame (k + 1)
    simpa [Nat.add_assoc, Nat.add_comm 1 k] using next

theorem AlikeStore.takeSerial (alike : l.AlikeStore s t) :
    l.AlikeStore s.takeSerial.2 t.takeSerial.2 := by
  refine ⟨alike.frames, alike.nextFrame, fun k => ?_⟩
  have next := alike.nextSerial (k + 1)
  simpa [Store.takeSerial, Nat.add_assoc, Nat.add_comm 1 k] using next

theorem AlikeStore.record (alike : l.AlikeStore s t) (event event' : Event) :
    l.AlikeStore (s.record event) (t.record event') :=
  ⟨alike.frames, alike.nextFrame, alike.nextSerial⟩

end Stores

/-- On alike stores the computations have alike outcomes and leave alike stores. -/
def AlikeRuns {α β : Type} (R : α → β → Prop) (m : Eval α) (m' : Eval β) : Prop :=
  ∀ s t : Store, l.AlikeStore s t →
    l.AlikeOutcome R (m s).1 (m' t).1 ∧ l.AlikeStore (m s).2 (m' t).2

namespace AlikeRuns

variable {l} {α β γ δ : Type} {R : α → β → Prop} {S : γ → δ → Prop}

theorem of_pure {a : α} {b : β} (values : R a b) :
    l.AlikeRuns R (Pure.pure a : Eval α) (Pure.pure b : Eval β) :=
  fun _ _ stores => ⟨.done values, stores⟩

theorem of_fail (cause : Cause) {p q : Option Location} (place : l.place p q) :
    l.AlikeRuns R (Eval.fail cause p) (Eval.fail cause q) :=
  fun _ _ stores => ⟨.failed (.error cause place), stores⟩

theorem of_tooDeep : l.AlikeRuns R Eval.tooDeep Eval.tooDeep :=
  fun _ _ stores => ⟨.tooDeep, stores⟩

theorem of_result {result : Except Fault α} {result' : Except Fault β}
    (alike : l.AlikeResult R result result') :
    l.AlikeRuns R (Eval.ofExcept result) (Eval.ofExcept result') := by
  intro s t stores
  cases alike with
  | ok values => exact ⟨.done values, stores⟩
  | error faults => exact ⟨.failed faults, stores⟩

theorem bind {m : Eval α} {m' : Eval β} {next : α → Eval γ} {next' : β → Eval δ}
    (first : l.AlikeRuns R m m') (second : ∀ a b, R a b → l.AlikeRuns S (next a) (next' b)) :
    l.AlikeRuns S (m >>= next) (m' >>= next') := by
  intro s t stores
  obtain ⟨outcomes, between⟩ := first s t stores
  show l.AlikeOutcome S (m.bind next s).1 (m'.bind next' t).1 ∧
    l.AlikeStore (m.bind next s).2 (m'.bind next' t).2
  unfold Eval.bind
  generalize m s = ended at outcomes between
  generalize m' t = ended' at outcomes between
  obtain ⟨outcome, after⟩ := ended
  obtain ⟨outcome', after'⟩ := ended'
  cases outcomes with
  | done values => exact second _ _ values after after' between
  | failed faults => exact ⟨.failed faults, between⟩
  | tooDeep => exact ⟨.tooDeep, between⟩

theorem of_record (event event' : Event) :
    l.AlikeRuns (fun _ _ => True) (Eval.modify (·.record event)) (Eval.modify (·.record event')) :=
  fun _ _ stores => ⟨.done trivial, stores.record event event'⟩

theorem of_set {i j : FrameId} (here : l.frame i j) (name : String) {v w : Value}
    (values : l.Alike v w) :
    l.AlikeRuns (fun _ _ => True) (Eval.modify (·.set i name v)) (Eval.modify (·.set j name w)) :=
  fun _ _ stores => ⟨.done trivial, stores.set here name values⟩

theorem of_takeSerial : l.AlikeRuns l.serial (Eval.take Store.takeSerial)
    (Eval.take Store.takeSerial) :=
  fun _ _ stores => ⟨.done (stores.nextSerial 0), stores.takeSerial⟩

theorem of_addFrame {f g : Frame} (frames : l.AlikeFrame f g) :
    l.AlikeRuns l.frame (Eval.take (·.addFrame f)) (Eval.take (·.addFrame g)) :=
  fun _ _ stores => ⟨.done (stores.nextFrame 0), stores.addFrame frames⟩

theorem of_lookup {i j : FrameId} (here : l.frame i j) (name : String) {p q : Option Location}
    (place : l.place p q) :
    l.AlikeRuns l.Alike (Eval.lookup i name p) (Eval.lookup j name q) := by
  intro s t stores
  have found := stores.get? here name
  unfold Eval.lookup Store.lookup
  generalize s.get? i name = first at found
  generalize t.get? j name = second at found
  cases found with
  | none => exact ⟨.failed (.error _ place), stores⟩
  | some values => exact ⟨.done values, stores⟩

end AlikeRuns

section Parameters

variable {l}

theorem AlikeResult.map {α β γ δ : Type} {R : α → β → Prop} {S : γ → δ → Prop}
    {result : Except Fault α} {result' : Except Fault β} {f : α → γ} {g : β → δ}
    (alike : l.AlikeResult R result result') (next : ∀ a b, R a b → S (f a) (g b)) :
    l.AlikeResult S (result.map f) (result'.map g) := by
  cases alike with
  | ok values => exact .ok (next _ _ values)
  | error faults => exact .error faults

theorem alike_parseItems {items items' : List Value} (alike : l.AllAlike items items')
    {p q : Option Location} (place : l.place p q) :
    l.AlikeResult (List.Forall₂ l.AlikeParam) (Parameters.parseItems p items)
      (Parameters.parseItems q items') := by
  induction alike with
  | nil => exact .ok .nil
  | cons first others ih =>
    cases first with
    | symbol name own =>
      unfold Parameters.parseItems
      split
      · cases others with
        | nil => exact .error (.error _ own)
        | cons last more =>
          cases more with
          | cons => cases last <;> exact .error (.error _ own)
          | nil =>
            cases last with
            | symbol last own' =>
              simp only
              split
              · exact .error (.error _ (l.place_or own' own))
              · exact .ok (.cons ⟨rfl, rfl, own'⟩ .nil)
            | _ => exact .error (Alike.blame (by constructor <;> assumption) _ own)
      · exact ih.map fun params params' alike => .cons ⟨rfl, rfl, own⟩ alike
    | _ => exact .error (Alike.blame (by constructor <;> assumption) _ place)

theorem alike_names {params params' : List Param}
    (alike : List.Forall₂ l.AlikeParam params params') :
    params.map Param.name = params'.map Param.name := by
  induction alike with
  | nil => rfl
  | cons first _ ih => rw [List.map_cons, List.map_cons, first.name, ih]

theorem alike_parse {operand operand' : Value} (alike : l.Alike operand operand')
    {p q : Option Location} (place : l.place p q) :
    l.AlikeResult (List.Forall₂ l.AlikeParam) (Parameters.parse operand p)
      (Parameters.parse operand' q) := by
  cases alike with
  | @list vs ws p' q' items own =>
    have parsed := alike_parseItems items own
    simp only [Parameters.parse]
    generalize Parameters.parseItems p' vs = result at parsed
    generalize Parameters.parseItems q' ws = result' at parsed
    cases parsed with
    | error faults => exact .error faults
    | ok params =>
      simp only [alike_names params]
      split
      · exact .ok params
      · exact .error (.error _ (l.place_or own place))
  | _ => exact .error (Alike.blame (by constructor <;> assumption) _ place)

theorem alike_fixed {params params' : List Param}
    (alike : List.Forall₂ l.AlikeParam params params') :
    List.Forall₂ l.AlikeParam (Parameters.fixed params) (Parameters.fixed params') := by
  induction alike with
  | nil => exact .nil
  | cons first _ ih =>
    unfold Parameters.fixed at ih ⊢
    rw [List.filter_cons, List.filter_cons, first.variadic]
    split
    · exact .cons first ih
    · exact ih

theorem alike_rest? {params params' : List Param}
    (alike : List.Forall₂ l.AlikeParam params params') :
    Option.Rel l.AlikeParam (Parameters.rest? params) (Parameters.rest? params') := by
  have last : Option.Rel l.AlikeParam params.getLast? params'.getLast? := by
    induction alike with
    | nil => exact .none
    | cons first others ih =>
      cases others with
      | nil => exact .some first
      | cons second more => simpa only [List.getLast?_cons_cons] using ih
  unfold Parameters.rest?
  generalize params.getLast? = first at last
  generalize params'.getLast? = second at last
  cases last with
  | none => exact .none
  | some last =>
    rw [Option.filter_some, Option.filter_some, last.variadic]
    split
    · exact .some last
    · exact .none

theorem alike_arity {params params' : List Param}
    (alike : List.Forall₂ l.AlikeParam params params') :
    Parameters.arity params = Parameters.arity params' := by
  have count := (alike_fixed alike).length_eq
  have rest := alike_rest? alike
  unfold Parameters.arity
  generalize Parameters.rest? params = first at rest
  generalize Parameters.rest? params' = second at rest
  cases rest with
  | none => rw [count]
  | some => rw [count]

theorem alike_taken {params params' : List Param} (alike : List.Forall₂ l.AlikeParam params params')
    {args args' : List Value} (values : l.AllAlike args args') :
    List.Forall₂ l.AlikeBinding ((params.map Param.name).zip args)
      ((params'.map Param.name).zip args') := by
  induction alike generalizing args args' with
  | nil => exact .nil
  | cons first _ ih =>
    cases values with
    | nil => exact .nil
    | cons value more => exact .cons ⟨first.name, value⟩ (ih more)

theorem alike_pairs {params params' : List Param} (alike : List.Forall₂ l.AlikeParam params params')
    {args args' : List Value} (values : l.AllAlike args args') :
    List.Forall₂ l.AlikeBinding (Parameters.pairs params args)
      (Parameters.pairs params' args') := by
  have taken := alike_taken (alike_fixed alike) values
  have count := (alike_fixed alike).length_eq
  have rest := alike_rest? alike
  unfold Parameters.pairs
  generalize Parameters.rest? params = first at rest
  generalize Parameters.rest? params' = second at rest
  cases rest with
  | none => exact taken
  | some last =>
    have left := List.forall₂_drop (Parameters.fixed params).length values
    refine List.rel_append taken (.cons ⟨last.name, ?_⟩ .nil)
    rw [← count]
    exact .list left l.place_none

theorem alike_bind {params params' : List Param} (alike : List.Forall₂ l.AlikeParam params params')
    {i j : FrameId} (outer : l.frame i j) {args args' : List Value} (values : l.AllAlike args args')
    {p q : Option Location} (place : l.place p q) :
    l.AlikeResult l.AlikeFrame ((Parameters.bind params i args p).mapError .error)
      ((Parameters.bind params' j args' q).mapError .error) := by
  unfold Parameters.bind
  rw [alike_arity alike, values.length_eq]
  split
  · exact .ok ((alikeFrame_empty outer).setAll (alike_pairs alike values))
  · exact .error (.error _ place)

end Parameters

section Evaluation

variable {l}

/-- Both evaluators take alike forms in frames that stand for each other to alike ends. -/
def AlikeEvaluators (ev ev' : Evaluator) : Prop :=
  ∀ {i j : FrameId} {v w : Value}, l.frame i j → l.Alike v w →
    l.AlikeRuns l.Alike (ev i v) (ev' j w)

variable {ev ev' : Evaluator}

theorem alike_unit : l.Alike .unit .unit :=
  .void l.place_none

theorem alike_evaluateEach (inner : l.AlikeEvaluators ev ev') {i j : FrameId} (here : l.frame i j)
    {forms forms' : List Value} (alike : l.AllAlike forms forms') :
    l.AlikeRuns l.AllAlike (evaluateEach ev i forms) (evaluateEach ev' j forms') := by
  induction alike with
  | nil => exact .of_pure .nil
  | cons first _ ih =>
    refine .bind (inner here first) fun v w value => ?_
    refine .bind ih fun vs ws values => ?_
    exact .of_pure (.cons value values)

theorem alike_evaluateBody (inner : l.AlikeEvaluators ev ev') {i j : FrameId} (here : l.frame i j)
    {forms forms' : List Value} (alike : l.AllAlike forms forms') :
    l.AlikeRuns l.Alike (evaluateBody ev i forms) (evaluateBody ev' j forms') := by
  induction alike with
  | nil => exact .of_pure alike_unit
  | cons first others ih =>
    cases others with
    | nil => exact inner here first
    | cons => exact .bind (inner here first) fun _ _ _ => ih

theorem alike_applyTo (inner : l.AlikeEvaluators ev ev') {callee callee' : Value}
    (alike : l.Alike callee callee') {args args' : List Value} (values : l.AllAlike args args')
    {p q : Option Location} (place : l.place p q) :
    l.AlikeRuns l.Alike (applyTo ev callee args p) (applyTo ev' callee' args' q) := by
  cases alike with
  | builtin code serial =>
    refine .bind (.of_record _ _) fun _ _ _ => ?_
    exact .of_result (alike_callCode code values place)
  | closure parameters body outer serial own =>
    refine .bind (.of_record _ _) fun _ _ _ => ?_
    refine .bind (.of_result (alike_bind parameters outer values place)) fun f g frames => ?_
    refine .bind (.of_addFrame frames) fun i j new => ?_
    exact alike_evaluateBody inner new body
  | _ => exact .of_fail _ place

theorem alike_evaluateDefine (inner : l.AlikeEvaluators ev ev') {i j : FrameId} (here : l.frame i j)
    {operands operands' : List Value} (alike : l.AllAlike operands operands')
    {p q : Option Location} (place : l.place p q) :
    l.AlikeRuns l.Alike (evaluateDefine ev i operands p) (evaluateDefine ev' j operands' q) := by
  cases alike with
  | nil => exact .of_fail _ place
  | cons target rest =>
    cases target with
    | symbol name own =>
      cases rest with
      | nil => exact .of_fail _ (l.place_or own place)
      | cons form more =>
        cases more with
        | nil =>
          refine .bind (inner here form) fun v w values => ?_
          refine .bind (.of_set here name values) fun _ _ _ => ?_
          exact .of_pure alike_unit
        | cons => exact .of_fail _ place
    | _ => exact .of_result (.error (Alike.blame (by constructor <;> assumption) _ place))

theorem alike_evaluateBranch (inner : l.AlikeEvaluators ev ev') {i j : FrameId} (here : l.frame i j)
    {p q : Option Location} (place : l.place p q) {condition condition' first first' : Value}
    (conditions : l.Alike condition condition') (firsts : l.Alike first first')
    {second second' : Eval Value} (seconds : l.AlikeRuns l.Alike second second') :
    l.AlikeRuns l.Alike (evaluateBranch ev i p condition first second)
      (evaluateBranch ev' j q condition' first' second') := by
  refine .bind (inner here conditions) fun v w values => ?_
  cases values with
  | bool b own =>
    cases b with
    | true => exact inner here firsts
    | false => exact seconds
  | _ => exact .of_result (.error (conditions.blame _ place))

theorem alike_evaluateConditional (inner : l.AlikeEvaluators ev ev') {i j : FrameId}
    (here : l.frame i j) {operands operands' : List Value} (alike : l.AllAlike operands operands')
    {p q : Option Location} (place : l.place p q) :
    l.AlikeRuns l.Alike (evaluateConditional ev i operands p)
      (evaluateConditional ev' j operands' q) := by
  cases alike with
  | nil => exact .of_fail _ place
  | cons condition rest =>
    cases rest with
    | nil => exact .of_fail _ place
    | cons first rest =>
      cases rest with
      | nil => exact alike_evaluateBranch inner here place condition first (.of_pure alike_unit)
      | cons second rest =>
        cases rest with
        | nil => exact alike_evaluateBranch inner here place condition first (inner here second)
        | cons => exact .of_fail _ place

theorem alike_evaluateLambda {i j : FrameId} (here : l.frame i j) {operands operands' : List Value}
    (alike : l.AllAlike operands operands') {p q : Option Location} (place : l.place p q) :
    l.AlikeRuns l.Alike (evaluateLambda i operands p) (evaluateLambda j operands' q) := by
  cases alike with
  | nil => exact .of_fail _ place
  | cons list body =>
    refine .bind (.of_result (alike_parse list place)) fun params params' parameters => ?_
    refine .bind .of_takeSerial fun m n serial => ?_
    exact .of_pure (.closure parameters body here serial place)

theorem alike_step (costs : Costs) {ev ev' : Nat → Evaluator}
    (inner : ∀ levels, l.AlikeEvaluators (ev levels) (ev' levels)) :
    l.AlikeEvaluators (step costs ev) (step costs ev') := by
  intro i j v w here alike
  cases alike with
  | symbol name place => exact .of_lookup here name place
  | list items place =>
    cases items with
    | nil => exact .of_pure alike_unit
    | cons head operands =>
      simp only [step, ← head.ofHead?_eq]
      split
      · exact alike_evaluateDefine (inner _) here operands place
      · exact alike_evaluateConditional (inner _) here operands place
      · exact alike_evaluateLambda here operands place
      · refine .bind (inner 0 here head) fun callee callee' callees => ?_
        refine .bind (alike_evaluateEach (inner _) here operands) fun args args' values => ?_
        exact alike_applyTo (inner _) callees values place
  | program forms place => exact alike_evaluateBody (inner _) here forms
  | foreign kind text => exact .of_fail _ l.place_none
  | _ => exact .of_pure (by constructor <;> assumption)

/-- Evaluation does not tell alike forms on alike stores apart. -/
theorem alike_evaluate (costs : Costs) (limit : Nat) :
    l.AlikeEvaluators (evaluate costs limit) (evaluate costs limit) := by
  induction limit using Nat.strongRecOn with
  | ind limit ih =>
    intro i j v w here alike
    match limit with
    | 0 =>
      rw [evaluate_zero, evaluate_zero]
      exact .of_tooDeep
    | limit + 1 =>
      rw [evaluate_succ]
      refine alike_step costs (fun levels => ?_) here alike
      exact ih (limit - levels) (by omega)

theorem alike_evaluateInside (costs : Costs) (limit levels : Nat) :
    l.AlikeEvaluators (evaluateInside costs limit levels) (evaluateInside costs limit levels) := by
  rw [evaluateInside_eq]
  exact alike_evaluate costs (limit - levels)

end Evaluation

end Likeness

end ScopedLisp
