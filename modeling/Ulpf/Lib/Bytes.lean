import Mathlib.Data.List.Basic
import Mathlib.Tactic

/-- The UTF-8 bytes of a string. -/
def String.as_bytes (s : String) : List UInt8 := s.toByteArray.data.toList

/-- Decode a byte slice that has to be UTF-8. -/
def from_utf8 (bytes : List UInt8) : Option String := String.fromUTF8? ⟨bytes.toArray⟩

theorem String.as_bytes_injective : Function.Injective String.as_bytes := by
  intro s t h
  apply String.toByteArray_inj.mp
  apply ByteArray.ext
  exact Array.toList_inj.mp h

@[simp] theorem from_utf8_as_bytes (s : String) : from_utf8 s.as_bytes = some s := by
  simp [from_utf8, String.as_bytes, String.fromUTF8?, s.isValidUTF8, String.fromUTF8]

example : "aé".as_bytes = [97, 195, 169] := by decide

namespace hex

/-- The lowercase digit of a value below sixteen. -/
def digit (n : Nat) : Char := "0123456789abcdef".toList.getD n '0'

/-- Value of a hexadecimal digit, in either case. -/
def value (c : Char) : Option Nat :=
  if '0' ≤ c ∧ c ≤ '9' then some (c.toNat - '0'.toNat)
  else if 'a' ≤ c ∧ c ≤ 'f' then some (c.toNat - 'a'.toNat + 10)
  else if 'A' ≤ c ∧ c ≤ 'F' then some (c.toNat - 'A'.toNat + 10)
  else none

def encodeByte (b : UInt8) : List Char := [digit (b.toNat / 16), digit (b.toNat % 16)]

/-- Lowercase hexadecimal text of a byte sequence. -/
def encode (bytes : List UInt8) : String := String.ofList (bytes.flatMap encodeByte)

def decodeChars : List Char → Option (List UInt8)
  | [] => some []
  | [_] => none
  | hi :: lo :: rest => do
    let h ← value hi
    let l ← value lo
    let tail ← decodeChars rest
    return UInt8.ofNat (16 * h + l) :: tail

/-- Decode hexadecimal text; `none` on an odd length or a character that is not
    a hexadecimal digit. -/
def decode (s : String) : Option (List UInt8) := decodeChars s.toList

theorem value_digit {n : Nat} (hn : n < 16) : value (digit n) = some n := by
  interval_cases n <;> decide

@[simp] theorem decode_encode (bytes : List UInt8) : decode (encode bytes) = some bytes := by
  unfold decode encode
  rw [String.toList_ofList]
  induction bytes with
  | nil => rfl
  | cons b bytes ih =>
    have hb : b.toNat < 256 := b.toNat_lt
    have hbyte : UInt8.ofNat (16 * (b.toNat / 16) + b.toNat % 16) = b := by
      rw [Nat.div_add_mod]
      simp
    simp [encodeByte, decodeChars, value_digit (n := b.toNat / 16) (by omega),
      value_digit (n := b.toNat % 16) (by omega), ih, -UInt8.ofNat_add, hbyte]

theorem encode_injective : Function.Injective encode := by
  intro xs ys h
  have hdecode := congrArg decode h
  simpa using hdecode

@[simp] theorem encode_inj {xs ys : List UInt8} : encode xs = encode ys ↔ xs = ys :=
  encode_injective.eq_iff

end hex
