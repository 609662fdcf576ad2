import ScopedLisp.Proofs.Likeness

set_option autoImplicit false

namespace ScopedLisp

/-- New places for old ones. What has no place gets none, and where one place is preferred to
another, so are the new ones. -/
structure Relocation where
  place : Option Location → Option Location
  place_none : place none = none
  place_or : ∀ p q : Option Location, place (p.or q) = (place p).or (place q)

namespace Relocation

def stay : Relocation :=
  ⟨id, rfl, fun _ _ => rfl⟩

def nowhere : Relocation :=
  ⟨Function.const (Option Location) none, rfl, fun _ _ => rfl⟩

/-- Every place is kept, and has another name. -/
def ofMap (move : Location → Location) : Relocation where
  place := Option.map move
  place_none := rfl
  place_or p q := by cases p <;> rfl

@[simp] theorem place_stay (p : Option Location) : stay.place p = p := rfl

@[simp] theorem place_nowhere (p : Option Location) : nowhere.place p = none := rfl

@[simp] theorem place_ofMap (move : Location → Location) (p : Option Location) :
    (ofMap move).place p = p.map move := rfl

end Relocation

def Param.relocate (r : Relocation) (p : Param) : Param :=
  { p with loc := r.place p.loc }

namespace Value

mutual

/-- The value with all places in it relocated, those in bodies of closures included. -/
def relocate (r : Relocation) : Value → Value
  | void loc => void (r.place loc)
  | integer n loc => integer n (r.place loc)
  | float x loc => float x (r.place loc)
  | bool b loc => bool b (r.place loc)
  | string s loc => string s (r.place loc)
  | symbol name loc => symbol name (r.place loc)
  | list items loc => list (relocateAll r items) (r.place loc)
  | program forms loc => program (relocateAll r forms) (r.place loc)
  | closure params body frame serial loc =>
    closure (params.map (Param.relocate r)) (relocateAll r body) frame serial (r.place loc)
  | builtin op serial => builtin op serial
  | foreign kind text => foreign kind text

def relocateAll (r : Relocation) : List Value → List Value
  | [] => []
  | v :: vs => relocate r v :: relocateAll r vs

end

@[simp] theorem relocateAll_eq_map (r : Relocation) (vs : List Value) :
    relocateAll r vs = vs.map (relocate r) := by
  induction vs with
  | nil => rfl
  | cons v vs ih => rw [relocateAll, ih, List.map_cons]

theorem relocate_list (r : Relocation) (items : List Value) (loc : Option Location) :
    (list items loc).relocate r = list (items.map (relocate r)) (r.place loc) := by
  rw [relocate, relocateAll_eq_map]

theorem relocate_program (r : Relocation) (forms : List Value) (loc : Option Location) :
    (program forms loc).relocate r = program (forms.map (relocate r)) (r.place loc) := by
  rw [relocate, relocateAll_eq_map]

theorem relocate_closure (r : Relocation) (params : List Param) (body : List Value)
    (frame : FrameId) (serial : Nat) (loc : Option Location) :
    (closure params body frame serial loc).relocate r =
      closure (params.map (Param.relocate r)) (body.map (relocate r)) frame serial
        (r.place loc) := by
  rw [relocate, relocateAll_eq_map]

end Value

def Frame.relocate (r : Relocation) (frame : Frame) : Frame :=
  ⟨frame.bindings.map fun binding => (binding.1, binding.2.relocate r), frame.outer⟩

/-- The frames with all places in them relocated. The journal is left out: evaluation writes it but
never reads it. -/
def Store.relocate (r : Relocation) (s : Store) : Store :=
  ⟨s.frames.map (Frame.relocate r), s.nextSerial, []⟩

def Error.relocate (r : Relocation) (e : Error) : Error :=
  { e with loc := r.place e.loc }

def Fault.relocate (r : Relocation) : Fault → Fault
  | error e => error (e.relocate r)
  | misuse m => misuse m

def Outcome.relocate (r : Relocation) : Outcome Value → Outcome Value
  | done v => done (v.relocate r)
  | failed f => failed (f.relocate r)
  | tooDeep => tooDeep

/-- Lists are related one by one where both sides have the same images. -/
theorem forall₂_iff_map_eq {α β γ : Type} {R : α → β → Prop} {f : α → γ} {g : β → γ} {xs : List α}
    {ys : List β} (same : ∀ x ∈ xs, ∀ y, R x y ↔ f x = g y) :
    List.Forall₂ R xs ys ↔ xs.map f = ys.map g := by
  induction xs generalizing ys with
  | nil => cases ys <;> simp
  | cons x xs ih =>
    cases ys with
    | nil => simp
    | cons y ys =>
      have rest : List.Forall₂ R xs ys ↔ xs.map f = ys.map g :=
        ih fun x' member => same x' (List.mem_cons_of_mem x member)
      rw [List.forall₂_cons, same x List.mem_cons_self, rest, List.map_cons, List.map_cons,
        List.cons.injEq]

theorem rel_iff_map_eq {α β γ : Type} {R : α → β → Prop} {f : α → γ} {g : β → γ} {a : Option α}
    {b : Option β} (same : ∀ x y, R x y ↔ f x = g y) : Option.Rel R a b ↔ a.map f = b.map g := by
  cases a with
  | none => cases b <;> simp
  | some x =>
    cases b with
    | none => simp
    | some y => simp [same]

namespace Relocation

/-- Frames and closures stand for themselves, and places for those that are relocated alike. -/
def likeness (r r' : Relocation) : Likeness where
  frame i j := i = j
  serial m n := m = n
  place p q := r.place p = r'.place q
  frame_lt := by
    rintro i _ j _ rfl rfl
    rfl
  place_none := r.place_none.trans r'.place_none.symm
  place_or := by
    intro p p' q q' first second
    rw [r.place_or, r'.place_or, first, second]

variable {r r' : Relocation}

theorem alikeParam_iff (p q : Param) :
    (likeness r r').AlikeParam p q ↔ p.relocate r = q.relocate r' := by
  constructor
  · rintro ⟨name, variadic, loc⟩
    simp only [Param.relocate, name, variadic, show r.place p.loc = r'.place q.loc from loc]
  · intro same
    simp only [Param.relocate, Param.mk.injEq] at same
    exact ⟨same.1, same.2.1, same.2.2⟩

theorem alike_iff (v w : Value) : (likeness r r').Alike v w ↔ v.relocate r = w.relocate r' := by
  induction v using Value.induction_on_children generalizing w with
  | ascend v ih =>
    have inside (ws : List Value) : List.Forall₂ (likeness r r').Alike v.children ws ↔
        v.children.map (Value.relocate r) = ws.map (Value.relocate r') :=
      forall₂_iff_map_eq ih
    have parameters (params params' : List Param) :
        List.Forall₂ (likeness r r').AlikeParam params params' ↔
          params.map (Param.relocate r) = params'.map (Param.relocate r') :=
      forall₂_iff_map_eq fun p _ => alikeParam_iff p
    constructor
    · intro alike
      cases alike with
      | list items place =>
        rw [Value.relocate_list, Value.relocate_list]
        exact congrArg₂ Value.list ((inside _).1 items) place
      | program forms place =>
        rw [Value.relocate_program, Value.relocate_program]
        exact congrArg₂ Value.program ((inside _).1 forms) place
      | closure params forms frame serial place =>
        cases frame
        cases serial
        rw [Value.relocate_closure, Value.relocate_closure, (parameters _ _).1 params]
        exact congrArg₂ (Value.closure _ · _ _ ·) ((inside _).1 forms) place
      | builtin op serial => exact congrArg (Value.builtin op) serial
      | foreign kind text => rfl
      | void place => exact congrArg Value.void place
      | integer n place => exact congrArg (Value.integer n) place
      | float x place => exact congrArg (Value.float x) place
      | bool b place => exact congrArg (Value.bool b) place
      | string s place => exact congrArg (Value.string s) place
      | symbol name place => exact congrArg (Value.symbol name) place
    · intro same
      -- Relocation keeps the constructor, so only values of one kind are left to compare.
      cases v with
      | void p =>
        cases w <;> simp only [Value.relocate, reduceCtorEq, Value.void.injEq] at same
        exact .void same
      | integer n p =>
        cases w <;> simp only [Value.relocate, reduceCtorEq, Value.integer.injEq] at same
        obtain ⟨rfl, place⟩ := same
        exact .integer n place
      | float x p =>
        cases w <;> simp only [Value.relocate, reduceCtorEq, Value.float.injEq] at same
        obtain ⟨rfl, place⟩ := same
        exact .float x place
      | bool b p =>
        cases w <;> simp only [Value.relocate, reduceCtorEq, Value.bool.injEq] at same
        obtain ⟨rfl, place⟩ := same
        exact .bool b place
      | string s p =>
        cases w <;> simp only [Value.relocate, reduceCtorEq, Value.string.injEq] at same
        obtain ⟨rfl, place⟩ := same
        exact .string s place
      | symbol name p =>
        cases w <;> simp only [Value.relocate, reduceCtorEq, Value.symbol.injEq] at same
        obtain ⟨rfl, place⟩ := same
        exact .symbol name place
      | list vs p =>
        cases w <;> simp only [Value.relocate, reduceCtorEq, Value.list.injEq,
          Value.relocateAll_eq_map] at same
        exact .list ((inside _).2 same.1) same.2
      | program vs p =>
        cases w <;> simp only [Value.relocate, reduceCtorEq, Value.program.injEq,
          Value.relocateAll_eq_map] at same
        exact .program ((inside _).2 same.1) same.2
      | closure params body i m p =>
        cases w <;> simp only [Value.relocate, reduceCtorEq, Value.closure.injEq,
          Value.relocateAll_eq_map] at same
        obtain ⟨params, forms, frame, serial, place⟩ := same
        exact .closure ((parameters _ _).2 params) ((inside _).2 forms) frame serial place
      | builtin op m =>
        cases w <;> simp only [Value.relocate, reduceCtorEq, Value.builtin.injEq] at same
        obtain ⟨rfl, serial⟩ := same
        exact .builtin op serial
      | foreign kind text =>
        cases w <;> simp only [Value.relocate, reduceCtorEq, Value.foreign.injEq] at same
        obtain ⟨rfl, rfl⟩ := same
        exact .foreign kind text

theorem alikeFrame_iff (f g : Frame) :
    (likeness r r').AlikeFrame f g ↔ f.relocate r = g.relocate r' := by
  have bindings : List.Forall₂ (likeness r r').AlikeBinding f.bindings g.bindings ↔
      (f.relocate r).bindings = (g.relocate r').bindings := by
    refine forall₂_iff_map_eq fun a _ b => ?_
    rw [Likeness.AlikeBinding, alike_iff, Prod.mk.injEq]
  have outer : Option.Rel (likeness r r').frame f.outer g.outer ↔ f.outer = g.outer :=
    (rel_iff_map_eq fun _ _ => Iff.rfl).trans (by rw [Option.map_id', Option.map_id'])
  constructor
  · intro alike
    have same := bindings.1 alike.bindings
    have around := outer.1 alike.outer
    simp only [Frame.relocate] at same ⊢
    rw [same, around]
  · intro same
    have around : (f.relocate r).outer = (g.relocate r').outer := congrArg Frame.outer same
    exact ⟨bindings.2 (congrArg Frame.bindings same), outer.2 around⟩

theorem alikeStore_iff (s t : Store) :
    (likeness r r').AlikeStore s t ↔ s.relocate r = t.relocate r' := by
  constructor
  · intro alike
    have frames : s.frames.map (Frame.relocate r) = t.frames.map (Frame.relocate r') := by
      apply Array.ext_getElem?
      intro i
      rw [Array.getElem?_map, Array.getElem?_map]
      exact (rel_iff_map_eq alikeFrame_iff).1 (alike.frames rfl)
    have serials : s.nextSerial = t.nextSerial := alike.nextSerial 0
    simp only [Store.relocate, frames, serials]
  · intro same
    have frames : s.frames.map (Frame.relocate r) = t.frames.map (Frame.relocate r') :=
      congrArg Store.frames same
    have size : s.frames.size = t.frames.size := by
      simpa only [Array.size_map] using congrArg Array.size frames
    have serials : (s.relocate r).nextSerial = (t.relocate r').nextSerial :=
      congrArg Store.nextSerial same
    refine ⟨?_, fun k => congrArg (· + k) size, fun k => congrArg (· + k) serials⟩
    rintro i _ rfl
    refine (rel_iff_map_eq alikeFrame_iff).2 ?_
    rw [← Array.getElem?_map, ← Array.getElem?_map, frames]

theorem alikeFault_iff (f g : Fault) :
    (likeness r r').AlikeFault f g ↔ f.relocate r = g.relocate r' := by
  constructor
  · intro alike
    cases alike with
    | error cause place => exact congrArg (fun p => Fault.error ⟨cause, p⟩) place
    | misuse m => rfl
  · intro same
    cases f with
    | error e =>
      cases g with
      | error e' =>
        obtain ⟨cause, p⟩ := e
        obtain ⟨cause', q⟩ := e'
        simp only [Fault.relocate, Error.relocate, Fault.error.injEq, Error.mk.injEq] at same
        obtain ⟨rfl, place⟩ := same
        exact .error cause place
      | misuse m => cases same
    | misuse m =>
      cases g with
      | error e => cases same
      | misuse m' =>
        cases same
        exact .misuse m

theorem relocate_eq_of_alikeOutcome {ended ended' : Outcome Value}
    (alike : (likeness r r').AlikeOutcome (likeness r r').Alike ended ended') :
    ended.relocate r = ended'.relocate r' := by
  cases alike with
  | done values => exact congrArg Outcome.done ((alike_iff _ _).1 values)
  | failed faults => exact congrArg Outcome.failed ((alikeFault_iff _ _).1 faults)
  | tooDeep => rfl

/-- Runs that start the same after relocation end the same after it. -/
theorem evaluate_relocate {form form' : Value} {s t : Store}
    (forms : form.relocate r = form'.relocate r') (stores : s.relocate r = t.relocate r')
    (costs : Costs) (limit : Nat) (frame : FrameId) :
    (evaluate costs limit frame form s).1.relocate r =
        (evaluate costs limit frame form' t).1.relocate r' ∧
      (evaluate costs limit frame form s).2.relocate r =
        (evaluate costs limit frame form' t).2.relocate r' := by
  have here : (likeness r r').frame frame frame := rfl
  obtain ⟨outcomes, after⟩ := Likeness.alike_evaluate costs limit here ((alike_iff _ _).2 forms) s t
    ((alikeStore_iff s t).2 stores)
  exact ⟨relocate_eq_of_alikeOutcome outcomes, (alikeStore_iff _ _).1 after⟩

end Relocation

/-- No place has any influence on evaluation. Forms and stores that are the same but for their
places end the same but for places: with values of one shape, with faults of one cause, or too deep.
The stores that they leave are the same but for places again. -/
theorem evaluation_ignores_places {form form' : Value} {s t : Store}
    (forms : form.relocate .nowhere = form'.relocate .nowhere)
    (stores : s.relocate .nowhere = t.relocate .nowhere) (costs : Costs) (limit : Nat)
    (frame : FrameId) :
    let first := evaluate costs limit frame form s
    let second := evaluate costs limit frame form' t
    first.1.relocate .nowhere = second.1.relocate .nowhere ∧
      first.2.relocate .nowhere = second.2.relocate .nowhere :=
  Relocation.evaluate_relocate forms stores costs limit frame

/-- The condition in the body of the closure is no truth value. The first run blames the place of
the condition, and the second has no place to blame. -/
theorem evaluation_ignores_places_of_blame :
    let body (p : Option Location) : Value :=
      .list [.symbol "if" p, .symbol "n" p, .integer 1 p] none
    let store (p : Option Location) : Store :=
      ⟨#[⟨[("f", .closure [⟨"n", false, p⟩] [body p] 0 0 p), ("x", .string "no" p)], none⟩], 1, []⟩
    let form (p : Option Location) : Value := .list [.symbol "f" p, .symbol "x" none] p
    let place : Option Location := some ⟨some "script", 3, 7⟩
    let first := evaluate .usual 20 0 (form place) (store place)
    let second := evaluate .usual 20 0 (form none) (store none)
    first.1.relocate .nowhere = second.1.relocate .nowhere ∧
      first.2.relocate .nowhere = second.2.relocate .nowhere ∧
      first.1 = .failed (.error ⟨.typeMismatch "boolean" "String", place⟩) ∧
      second.1 = .failed (.error ⟨.typeMismatch "boolean" "String", none⟩) := by
  intro body store form place first second
  have forms : (form place).relocate .nowhere = (form none).relocate .nowhere := rfl
  have stores : (store place).relocate .nowhere = (store none).relocate .nowhere := by
    simp only [store, Store.relocate, List.map_toArray]
    rfl
  obtain ⟨outcomes, after⟩ := evaluation_ignores_places forms stores .usual 20 0
  refine ⟨outcomes, after, ?_, ?_⟩
  · simp only [first, form, store, body, place]
    with_unfolding_all rfl
  · simp only [second, form, store, body]
    with_unfolding_all rfl

end ScopedLisp
