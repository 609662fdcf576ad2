import ScopedLisp.Form.Atom
import ScopedLisp.Token.Lexer

set_option autoImplicit false

namespace ScopedLisp

namespace Text

theorem digitValue?_of_isDigit {c : Char} (digit : c.isDigit = true) :
    digitValue? c = some (c.toNat - '0'.toNat) := by
  obtain ⟨lower, upper⟩ := Char.isDigit_iff_toNat.1 digit
  have within : (decide (0x30 ≤ c.toNat) && decide (c.toNat < 0x30 + 10)) = true := by
    simp only [Char.reduceToNat] at lower upper
    simp only [Bool.and_eq_true, decide_eq_true_eq]
    omega
  rw [digitValue?, zeros, List.findSome?_cons, if_pos within]
  rfl

theorem isBlank_of_isDigit {c : Char} (digit : c.isDigit = true) : isBlank c = false := by
  obtain ⟨lower, upper⟩ := Char.isDigit_iff_toNat.1 digit
  simp only [Char.reduceToNat] at lower upper
  simp only [isBlank, blankRanges, List.any_cons, List.any_nil, Bool.or_false, Bool.or_eq_false_iff,
    Bool.and_eq_false_iff, decide_eq_false_iff_not]
  omega

theorem digits?_of_isDigit {text : List Char} (nonempty : text ≠ [])
    (digits : ∀ c ∈ text, c.isDigit = true) :
    digits? text = some (text.map fun c => c.toNat - '0'.toNat) := by
  have each : text.mapM digitValue? = some (text.map fun c => c.toNat - '0'.toNat) := by
    clear nonempty
    induction text with
    | nil => rfl
    | cons c text ih =>
      rw [List.mapM_cons, digitValue?_of_isDigit (digits c List.mem_cons_self),
        ih fun d member => digits d (List.mem_cons_of_mem c member)]
      rfl
  rw [digits?, if_neg (by simpa using nonempty), each]

theorem ofDigits_toDigits (n : Nat) :
    ofDigits ((Nat.toDigits 10 n).map fun c => c.toNat - '0'.toNat) = n := by
  rw [ofDigits, List.foldl_map]
  exact Nat.ofDigitChars_ten_toDigits

end Text

theorem Lexer.isDelimiter_of_isDigit {c : Char} (digit : c.isDigit = true) :
    isDelimiter c = false := by
  have blank := Text.isBlank_of_isDigit digit
  simp only [isDelimiter, blank, Bool.false_or, Bool.or_eq_false_iff, decide_eq_false_iff_not]
  refine ⟨⟨⟨⟨?_, ?_⟩, ?_⟩, ?_⟩, ?_⟩ <;> (rintro rfl; revert digit; decide)

theorem splitSign_of_isDigit {text : List Char} (digits : ∀ c ∈ text, c.isDigit = true) :
    splitSign text = (false, text) := by
  unfold splitSign
  split
  · exact absurd (digits '+' List.mem_cons_self) (by decide)
  · exact absurd (digits '-' List.mem_cons_self) (by decide)
  · rfl

theorem isDigit_of_mem_toDigits {n : Nat} {c : Char} (member : c ∈ Nat.toDigits 10 n) :
    c.isDigit = true :=
  Nat.isDigit_of_mem_toDigits (by decide) (by decide) member

namespace Integer

/-- The text of an integer: a minus, if it is negative, and the digits of its size. -/
theorem toList_toString (n : Int) :
    (toString n).toList = (if n < 0 then ['-'] else []) ++ Nat.toDigits 10 n.natAbs := by
  rw [Int.toString_eq_repr, Int.repr_eq_if]
  by_cases negative : n < 0
  · have size : (-n).toNat = n.natAbs := by omega
    rw [if_neg (by omega), if_pos negative, String.toList_append, Nat.toList_repr, size]
    rfl
  · have size : n.toNat = n.natAbs := by omega
    rw [if_pos (by omega), if_neg negative, Nat.toList_repr, size]
    rfl

theorem parse?_toString (n : Int) :
    WholeNumeral.parse? (toString n).toList =
      some ⟨n < 0, (Nat.toDigits 10 n.natAbs).map fun c => c.toNat - '0'.toNat⟩ := by
  have digits : ∀ c ∈ Nat.toDigits 10 n.natAbs, c.isDigit = true :=
    fun _ => isDigit_of_mem_toDigits
  have parsed := Text.digits?_of_isDigit Nat.toDigits_ne_nil digits
  rw [toList_toString, WholeNumeral.parse?]
  by_cases negative : n < 0
  · simp [negative, splitSign, parsed]
  · simp [negative, splitSign_of_isDigit digits, parsed]

theorem value_toString (n : Int) :
    (WholeNumeral.mk (n < 0) ((Nat.toDigits 10 n.natAbs).map fun c => c.toNat - '0'.toNat)).value =
      n := by
  rw [WholeNumeral.value, Text.ofDigits_toDigits]
  by_cases negative : n < 0
  · simp only [negative, decide_true, ↓reduceIte]
    omega
  · simp only [negative, decide_false, Bool.false_eq_true, ↓reduceIte]
    omega

theorem length_toDigits_le {n : Int} (inRange : inRange n = true) :
    (Nat.toDigits 10 n.natAbs).length ≤ WholeNumeral.digitLimit := by
  obtain ⟨lower, upper⟩ := (inRange_iff n).1 inRange
  have bound : n.natAbs < 10 ^ 39 := by
    simp only [least, greatest] at lower upper
    omega
  have few : (Nat.toDigits 10 n.natAbs).length ≤ 39 :=
    (Nat.length_toDigits_le_iff (by decide) (by decide)).2 bound
  exact Nat.le_trans few (by decide)

theorem inWord_toString (n : Int) : ∀ c ∈ (toString n).toList, Lexer.isDelimiter c = false := by
  intro c member
  rw [toList_toString, List.mem_append] at member
  rcases member with sign | digit
  · split at sign
    · rw [List.mem_singleton.1 sign]
      decide
    · cases sign
  · exact Lexer.isDelimiter_of_isDigit (isDigit_of_mem_toDigits digit)

theorem toString_ne_empty (n : Int) : (toString n).toList ≠ [] := by
  rw [toList_toString]
  exact List.append_ne_nil_of_right_ne_nil _ Nat.toDigits_ne_nil

end Integer

theorem Atom.read_toString {n : Int} (inRange : Integer.inRange n = true) (loc : Option Location) :
    read (toString n) loc = .ok (.integer n loc) := by
  have short := Integer.length_toDigits_le inRange
  rw [read, Integer.parse?_toString]
  simp only [List.length_map, Integer.value_toString, inRange, Nat.not_lt.2 short, ↓reduceIte]

end ScopedLisp
