/-!
# UTF-8

Strict decoding of a byte sequence. A character is one to four bytes, of which the range of the
second depends on the first, so that every character has one encoding and surrogates have none.
A fault names the bytes that could not be read: those up to the one that rules the character out.
-/

namespace TagQuery.Text.Utf8

inductive Cause where
  | start
  /-- A character begins, and the next byte cannot continue it. -/
  | continuation
  | ending
deriving DecidableEq, Repr

/-- A sequence of `length` bytes from `position` on, the first of them `first`, that is not the
encoding of a character. -/
structure Fault where
  cause : Cause
  position : Nat
  length : Nat
  first : UInt8
deriving DecidableEq, Repr

/-- How a character goes on after its first byte: the bits that the byte contributes, the range of
the second byte and the number of bytes that follow the second. -/
structure Lead where
  bits : Nat
  low : Nat
  high : Nat
  more : Nat

def lead? (byte : Nat) : Option Lead :=
  if byte < 0xC2 then none
  else if byte < 0xE0 then some ⟨byte - 0xC0, 0x80, 0xBF, 0⟩
  else if byte < 0xF0 then
    some ⟨byte - 0xE0, if byte = 0xE0 then 0xA0 else 0x80, if byte = 0xED then 0x9F else 0xBF, 1⟩
  else if byte < 0xF5 then
    some ⟨byte - 0xF0, if byte = 0xF0 then 0x90 else 0x80, if byte = 0xF4 then 0x8F else 0xBF, 2⟩
  else none

structure Decoded where
  code : Nat
  length : Nat
  rest : List UInt8

/-- Reads `count` more bytes of a character of which `used` bytes with the given bits are read. A
fault has a cause and a length. -/
def continueChar (bits used : Nat) : Nat → List UInt8 → Except (Cause × Nat) Decoded
  | 0, bytes => .ok ⟨bits, used, bytes⟩
  | _ + 1, [] => .error (.ending, used)
  | count + 1, byte :: bytes =>
    if 0x80 ≤ byte.toNat && byte.toNat ≤ 0xBF then
      continueChar (bits * 64 + (byte.toNat - 0x80)) (used + 1) count bytes
    else .error (.continuation, used)

def decodeChar (byte : UInt8) (bytes : List UInt8) : Except (Cause × Nat) Decoded :=
  if byte.toNat < 0x80 then .ok ⟨byte.toNat, 1, bytes⟩
  else match lead? byte.toNat with
    | none => .error (.start, 1)
    | some lead =>
      match bytes with
      | [] => .error (.ending, 1)
      | second :: rest =>
        if lead.low ≤ second.toNat && second.toNat ≤ lead.high then
          continueChar (lead.bits * 64 + (second.toNat - 0x80)) 2 lead.more rest
        else .error (.continuation, 1)

theorem length_continueChar_le {bits used count : Nat} {bytes : List UInt8} {decoded : Decoded}
    (read : continueChar bits used count bytes = .ok decoded) :
    decoded.rest.length ≤ bytes.length := by
  induction count generalizing bits used bytes with
  | zero =>
    simp only [continueChar, Except.ok.injEq] at read
    simp [← read]
  | succ count ih =>
    cases bytes with
    | nil => simp [continueChar] at read
    | cons byte bytes =>
      unfold continueChar at read
      split at read
      · exact Nat.le_succ_of_le (ih read)
      · simp at read

theorem length_decodeChar_le {byte : UInt8} {bytes : List UInt8} {decoded : Decoded}
    (read : decodeChar byte bytes = .ok decoded) : decoded.rest.length ≤ bytes.length := by
  unfold decodeChar at read
  split at read
  · simp only [Except.ok.injEq] at read
    simp [← read]
  · split at read
    · simp at read
    · split at read
      · simp at read
      · split at read
        · exact Nat.le_succ_of_le (length_continueChar_le read)
        · simp at read

def decodeFrom (position : Nat) (bytes : List UInt8) : Except Fault (List Char) :=
  match bytes with
  | [] => .ok []
  | byte :: more =>
    match _read : decodeChar byte more with
    | .error (cause, length) => .error ⟨cause, position, length, byte⟩
    | .ok decoded =>
      (decodeFrom (position + decoded.length) decoded.rest).map (Char.ofNat decoded.code :: ·)
termination_by bytes.length
decreasing_by
  exact Nat.lt_succ_of_le (length_decodeChar_le _read)

def decode (bytes : List UInt8) : Except Fault (List Char) := decodeFrom 0 bytes

def byteText (byte : UInt8) : String :=
  String.ofList [Nat.digitChar (byte.toNat / 16), Nat.digitChar (byte.toNat % 16)]

def Cause.message : Cause → String
  | .start => "invalid start byte"
  | .continuation => "invalid continuation byte"
  | .ending => "unexpected end of data"

def Fault.message (fault : Fault) : String :=
  let bytes :=
    if fault.length = 1 then
      "byte 0x" ++ byteText fault.first ++ " in position " ++ toString fault.position
    else
      "bytes in position " ++ toString fault.position ++ "-" ++
        toString (fault.position + fault.length - 1)
  "'utf-8' codec can't decode " ++ bytes ++ ": " ++ fault.cause.message

end TagQuery.Text.Utf8
