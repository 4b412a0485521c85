/-!
# Bytes as UTF-8

Reading bytes as UTF-8 either gives a text or stops at the first sequence that is
not one: at its first byte, with the reason.  A sequence is wrong because no
sequence starts with its first byte, because a later byte does not continue it,
or because the input ends inside it.
-/

namespace Schemata.Text

/-- Why a byte sequence is not UTF-8. -/
inductive Utf8Error where
  | invalidStart
  | invalidContinuation
  | unexpectedEnd
  deriving DecidableEq, Repr

/-- The first place where bytes are not UTF-8. -/
structure Utf8Failure where
  byte : UInt8
  position : Nat
  /-- How many bytes the failing sequence has. -/
  width : Nat
  error : Utf8Error
  deriving DecidableEq, Repr

/-- How many continuation bytes follow a first byte, what it contributes, and the
range its second byte must be in. -/
def leadOf? (b : Nat) : Option (Nat × Nat × Nat × Nat) :=
  if b < 0x80 then some (0, b, 0, 0)
  else if b < 0xC2 then none
  else if b < 0xE0 then some (1, b - 0xC0, 0x80, 0xBF)
  else if b = 0xE0 then some (2, 0, 0xA0, 0xBF)
  else if b = 0xED then some (2, 0xD, 0x80, 0x9F)
  else if b < 0xF0 then some (2, b - 0xE0, 0x80, 0xBF)
  else if b = 0xF0 then some (3, 0, 0x90, 0xBF)
  else if b < 0xF4 then some (3, b - 0xF0, 0x80, 0xBF)
  else if b = 0xF4 then some (3, 4, 0x80, 0x8F)
  else none

/-- Consume the continuation bytes of one character: its code point, or how many
bytes were good and what went wrong. -/
def continueChar : Nat → Nat → Nat → Nat → Nat → List UInt8 → Except (Nat × Utf8Error) Nat
  | 0, code, _, _, _, _ => .ok code
  | _ + 1, _, _, _, seen, [] => .error (seen, .unexpectedEnd)
  | n + 1, code, lo, hi, seen, b :: r =>
    if lo ≤ b.toNat ∧ b.toNat ≤ hi then
      continueChar n (code * 64 + (b.toNat - 0x80)) 0x80 0xBF (seen + 1) r
    else .error (seen, .invalidContinuation)

/-- Read bytes from position `at`, skipping the continuation bytes already read. -/
def decodeFrom : Nat → Nat → List UInt8 → Except Utf8Failure (List Char)
  | _, _, [] => .ok []
  | position, skip + 1, _ :: r => decodeFrom (position + 1) skip r
  | position, 0, b :: r =>
    match leadOf? b.toNat with
    | none => .error ⟨b, position, 1, .invalidStart⟩
    | some (n, code, lo, hi) =>
      match continueChar n code lo hi 1 r with
      | .error (seen, e) => .error ⟨b, position, seen, e⟩
      | .ok code =>
        match decodeFrom (position + 1) n r with
        | .ok cs => .ok (Char.ofNat code :: cs)
        | .error e => .error e

/-- The text that bytes spell in UTF-8. -/
def decodeUtf8 (bs : List UInt8) : Except Utf8Failure String :=
  (decodeFrom 0 0 bs).map String.ofList

end Schemata.Text
