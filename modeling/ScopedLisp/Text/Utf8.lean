set_option autoImplicit false

namespace ScopedLisp.Text.Utf8

inductive Reason where
  | invalidStart
  | invalidContinuation
  | unexpectedEnd
  deriving DecidableEq, Repr

def Reason.text : Reason → String
  | invalidStart => "invalid start byte"
  | invalidContinuation => "invalid continuation byte"
  | unexpectedEnd => "unexpected end of data"

/-- The first bytes that cannot be decoded: where they start, how many they are, and why. -/
structure Fault where
  position : Nat
  first : UInt8
  count : Nat
  reason : Reason
  deriving DecidableEq, Repr

def hexByte (byte : UInt8) : String :=
  String.ofList [Nat.digitChar (byte.toNat / 16), Nat.digitChar (byte.toNat % 16)]

def Fault.message (fault : Fault) : String :=
  "'utf-8' codec can't decode " ++
    (if fault.count = 1 then
      "byte 0x" ++ hexByte fault.first ++ " in position " ++ toString fault.position
    else
      "bytes in position " ++ toString fault.position ++ "-" ++
        toString (fault.position + fault.count - 1)) ++
    ": " ++ fault.reason.text

abbrev Range := UInt8 × UInt8

def anyContinuation : Range := (0x80, 0xBF)

/-- What a lead byte adds to the code point, and the ranges of the bytes that follow it. The ranges
leave out overlong sequences, surrogates and everything past the last code point. -/
def lead? (byte : UInt8) : Option (Nat × List Range) :=
  if byte < 0x80 then some (byte.toNat, [])
  else if byte < 0xC2 then none
  else if byte < 0xE0 then some (byte.toNat - 0xC0, [anyContinuation])
  else if byte = 0xE0 then some (0, [(0xA0, 0xBF), anyContinuation])
  else if byte = 0xED then some (0xD, [(0x80, 0x9F), anyContinuation])
  else if byte < 0xF0 then some (byte.toNat - 0xE0, [anyContinuation, anyContinuation])
  else if byte = 0xF0 then some (0, [(0x90, 0xBF), anyContinuation, anyContinuation])
  else if byte < 0xF4 then
    some (byte.toNat - 0xF0, [anyContinuation, anyContinuation, anyContinuation])
  else if byte = 0xF4 then some (4, [(0x80, 0x8F), anyContinuation, anyContinuation])
  else none

/-- Takes continuation bytes from their ranges: the code point and the bytes after it, or how many
bytes were in order and what stopped there. -/
def follow (point count : Nat) : List Range → List UInt8 →
    Except (Nat × Reason) (Nat × List UInt8)
  | [], bytes => .ok (point, bytes)
  | _ :: _, [] => .error (count, .unexpectedEnd)
  | range :: ranges, byte :: bytes =>
    if range.1 ≤ byte && byte ≤ range.2 then
      follow (64 * point + (byte.toNat - 0x80)) (count + 1) ranges bytes
    else
      .error (count, .invalidContinuation)

theorem follow_length {point count result : Nat} {ranges : List Range} {bytes rest : List UInt8}
    (followed : follow point count ranges bytes = .ok (result, rest)) :
    rest.length ≤ bytes.length := by
  fun_induction follow point count ranges bytes with
  | case1 => cases followed; exact Nat.le_refl _
  | case2 => cases followed
  | case3 _ _ _ _ _ _ _ ih => exact Nat.le_succ_of_le (ih followed)
  | case4 => cases followed

/-- Decodes bytes from a position on; `decoded` holds the characters so far, latest first. -/
def decodeFrom (position : Nat) (decoded : List Char) :
    List UInt8 → Except Fault (List Char)
  | [] => .ok decoded.reverse
  | byte :: bytes =>
    match lead? byte with
    | none => .error ⟨position, byte, 1, .invalidStart⟩
    | some (start, ranges) =>
      match _followed : follow start 1 ranges bytes with
      | .error (count, reason) => .error ⟨position, byte, count, reason⟩
      | .ok (point, rest) =>
        decodeFrom (position + ranges.length + 1) (Char.ofNat point :: decoded) rest
termination_by bytes => bytes.length
decreasing_by exact Nat.lt_succ_of_le (follow_length _followed)

def decode (bytes : List UInt8) : Except Fault String :=
  (decodeFrom 0 [] bytes).map String.ofList

end ScopedLisp.Text.Utf8

/-- The text with a line feed for every line end. A carriage return is one, with or without a line
feed after it. -/
def ScopedLisp.Text.unifyLineEnds : List Char → List Char
  | '\r' :: '\n' :: rest => '\n' :: unifyLineEnds rest
  | '\r' :: rest => '\n' :: unifyLineEnds rest
  | c :: rest => c :: unifyLineEnds rest
  | [] => []
