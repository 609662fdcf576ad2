import Mathlib
import ScopedLisp.Proofs.Relocation
import ScopedLisp.Proofs.SourcePlaces

set_option autoImplicit false

namespace ScopedLisp

open Float.Model UnpackedFloat

namespace Binary64

theorem pack_ne_packedNaN {x : UnpackedFloat} (number : x ≠ notANumber) :
    UnpackedFloat.pack Format.binary64 x ≠ packedNaN Format.binary64 := by
  intro same
  have exponent := congrArg unpackExponent same
  have mantissa := congrArg unpackMantissa same
  unfold UnpackedFloat.pack at exponent mantissa
  split at exponent
  · exact number rfl
  · simp only [packedInfinity, packedNaN, unpackMantissa_packComponents] at mantissa
    exact absurd mantissa (by decide)
  · simp only [packedZero, packedNaN, unpackExponent_packComponents] at exponent
    exact absurd exponent (by decide)
  · simp only at exponent mantissa
    split at exponent
    · rename_i overflow
      rw [if_pos overflow] at mantissa
      simp only [packedInfinity, packedNaN, unpackMantissa_packComponents] at mantissa
      exact absurd mantissa (by decide)
    · rename_i inside
      split at exponent
      · simp only [packedNaN, unpackExponent_packComponents] at exponent
        have bits := congrArg BitVec.toNat exponent
        rw [BitVec.toNat_ofNat] at bits
        change _ % 2048 = 2047 at bits
        change ¬ 2048 ≤ _ at inside
        omega
      · simp only [packedNaN, unpackExponent_packComponents] at exponent
        exact absurd exponent (by decide)

theorem unpack_pack_ne_nan {x : UnpackedFloat} (number : x ≠ notANumber) :
    (Float.Model.pack x).unpack ≠ notANumber := by
  intro nan
  exact pack_ne_packedNaN number
    ((unpack_eq_notANumber_iff_of_valid (Float.Model.pack x).valid).1 nan)

theorem roundWithAccuracy_ne_nan (sign : Sign) (mantissa : Nat) (exponent : Int)
    (accuracy : Accuracy) :
    roundWithAccuracy Format.binary64 sign mantissa exponent accuracy ≠ notANumber := by
  unfold roundWithAccuracy
  simp only
  split <;> nofun

/-- A number has a quotient and a product with every finite number but zero. -/
theorem div_ne_nan {x : UnpackedFloat} (number : x ≠ notANumber) (sign : Sign) (mantissa : Nat)
    (exponent : Int) (positive : 0 < mantissa) :
    UnpackedFloat.div Format.binary64 x (.finite sign mantissa exponent positive) ≠
      notANumber := by
  cases x with
  | notANumber => exact absurd rfl number
  | infinity s => nofun
  | zero s => nofun
  | finite s m e h => exact roundWithAccuracy_ne_nan _ _ _ _

theorem mul_ne_nan {x : UnpackedFloat} (number : x ≠ notANumber) (sign : Sign) (mantissa : Nat)
    (exponent : Int) (positive : 0 < mantissa) :
    UnpackedFloat.mul Format.binary64 x (.finite sign mantissa exponent positive) ≠
      notANumber := by
  cases x with
  | notANumber => exact absurd rfl number
  | infinity s => nofun
  | zero s => nofun
  | finite s m e h => exact roundWithAccuracy_ne_nan _ _ _ _

/-- The powers of ten that are looked up are positive. -/
theorem exists_finite_power (e : Nat) (few : e < Float.exactlyRepresentablePowersOfTen.size) :
    ∃ sign mantissa exponent positive,
      Float.exactlyRepresentablePowersOfTen[e].toModel.unpack =
        .finite sign mantissa exponent positive := by
  have all : Float.exactlyRepresentablePowersOfTen.all
      (fun x => x.toModel.unpack.isFinite && !x.toModel.unpack.beq (.zero .positive)) = true := by
    decide +kernel
  have here := Array.all_eq_true.1 all e few
  rw [Bool.and_eq_true] at here
  cases power : Float.exactlyRepresentablePowersOfTen[e].toModel.unpack with
  | notANumber =>
    rw [power] at here
    exact absurd here (by decide)
  | infinity sign | zero sign =>
    rw [power] at here
    cases sign <;> exact absurd here (by decide)
  | finite sign mantissa exponent positive => exact ⟨sign, mantissa, exponent, positive, rfl⟩

theorem ofScientific_ne_nan (m : Nat) (e : Int) :
    UnpackedFloat.ofScientific Format.binary64 m e ≠ notANumber := by
  unfold UnpackedFloat.ofScientific
  split
  · nofun
  · split
    · nofun
    · split
      · nofun
      · split
        · apply mul_ne_nan
          nofun
        · apply div_ne_nan
          nofun

theorem ofUInt64_ne_nan (n : UInt64) :
    UnpackedFloat.ofUInt64 Format.binary64 n ≠ notANumber := by
  unfold UnpackedFloat.ofUInt64 UnpackedFloat.ofNat UnpackedFloat.ofInt UnpackedFloat.normalize
  split
  · apply roundWithAccuracy_ne_nan
  · nofun
  · apply roundWithAccuracy_ne_nan

theorem unpack_ofScientific_ne_nan (m : Nat) (below : Bool) (e : Nat) :
    (Float.ofScientific m below e).toModel.unpack ≠ notANumber := by
  unfold Float.ofScientific
  split
  · rename_i small
    obtain ⟨sign, mantissa, exponent, positive, power⟩ := exists_finite_power e (by
      have := small.2
      show e < 23
      omega)
    have number := unpack_pack_ne_nan (ofUInt64_ne_nan m.toUInt64)
    split
    · apply unpack_pack_ne_nan
      rw [power]
      exact div_ne_nan number _ _ _ _
    · apply unpack_pack_ne_nan
      rw [power]
      exact mul_ne_nan number _ _ _ _
  · exact unpack_pack_ne_nan (ofScientific_ne_nan m _)

theorem unpack_neg_ne_nan {x : Float} (number : x.toModel.unpack ≠ notANumber) :
    (-x).toModel.unpack ≠ notANumber := by
  apply unpack_pack_ne_nan
  cases parts : x.toModel.unpack with
  | notANumber => exact absurd parts number
  | infinity s | zero s | finite s m e h => nofun

theorem beq_self {x : Float} (number : x.toModel.unpack ≠ notANumber) : (x == x) = true :=
  (beq_iff_ne_notANumber_and_eq _ _).2 ⟨number, number, .inl rfl⟩

end Binary64

theorem RealNumeral.toFloat_beq_self (numeral : RealNumeral) :
    (numeral.toFloat == numeral.toFloat) = true := by
  have size := Binary64.unpack_ofScientific_ne_nan (Text.ofDigits numeral.digits)
    (numeral.power < 0) numeral.power.natAbs
  apply Binary64.beq_self
  unfold toFloat
  split
  · exact Binary64.unpack_neg_ne_nan size
  · exact size

theorem Atom.float_beq_self {word : String} {loc place : Option Location} {x : Float}
    (success : read word loc = .ok (.float x place)) : (x == x) = true := by
  unfold read at success
  split at success
  · split at success
    · cases success
    · split at success
      · cases success
      · cases success
        exact RealNumeral.toFloat_beq_self _
  · split at success
    · cases success
      exact RealNumeral.toFloat_beq_self _
    · split at success
      · cases success
      · split at success <;> cases success

theorem readProgram_float_beq_self {source : String} {file : Option String} {forms : List Value}
    (read : readProgram source file = .ok forms) {x : Float} {loc : Option Location}
    (inside : .float x loc ∈ Value.partsOfAll forms) : (x == x) = true := by
  obtain ⟨token, _, gives, _⟩ := readProgram_standsAt read inside
  cases gives with
  | word _ success => exact Atom.float_beq_self success

namespace Value

theorem allSame_of_map_eq {vs ws : List Value}
    (each : ∀ v ∈ vs, ∀ w, v.relocate .nowhere = w.relocate .nowhere → v.same w = true)
    (apart : vs.map (relocate .nowhere) = ws.map (relocate .nowhere)) :
    allSame vs ws = true := by
  induction vs generalizing ws with
  | nil =>
    cases ws with
    | nil => rfl
    | cons w ws => cases apart
  | cons v vs ih =>
    cases ws with
    | nil => cases apart
    | cons w ws =>
      obtain ⟨first, others⟩ := List.cons.inj apart
      rw [allSame, Bool.and_eq_true]
      refine ⟨each v List.mem_cons_self w first, ih (fun v' member => ?_) others⟩
      exact each v' (List.mem_cons_of_mem v member)

/-- Values that differ in places only are the same, unless there is a nan in them. -/
theorem same_of_relocate_eq {v w : Value}
    (apart : v.relocate .nowhere = w.relocate .nowhere)
    (numbers : ∀ x loc, .float x loc ∈ v.parts → (x == x) = true) : v.same w = true := by
  induction v using induction_on_children generalizing w with
  | ascend v ih =>
    have each : ∀ child ∈ v.children, ∀ w, child.relocate .nowhere = w.relocate .nowhere →
        child.same w = true := by
      intro child inside w same
      refine ih child inside same fun x loc member => ?_
      exact numbers x loc (mem_parts_of_child inside member)
    cases v with
    | list items loc =>
      cases w with
      | list items' loc' =>
        rw [relocate_list, relocate_list] at apart
        exact allSame_of_map_eq each (list.inj apart).1
      | _ => cases apart
    | program forms loc =>
      cases w with
      | program forms' loc' =>
        rw [relocate_program, relocate_program] at apart
        exact allSame_of_map_eq each (program.inj apart).1
      | _ => cases apart
    | float x loc =>
      cases w with
      | float y loc' =>
        cases apart
        exact numbers x loc (self_mem_parts _)
      | _ => cases apart
    | closure params body frame serial loc =>
      cases w with
      | closure params' body' frame' serial' loc' =>
        rw [relocate_closure, relocate_closure] at apart
        obtain ⟨_, _, _, number, _⟩ := closure.inj apart
        exact beq_iff_eq.2 number
      | _ => cases apart
    | _ =>
      cases w <;> cases apart
      simp [same]

end Value

end ScopedLisp
