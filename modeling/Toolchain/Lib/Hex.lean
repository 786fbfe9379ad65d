import Toolchain.Lib.Text

/-!
# Hex — bytes as hexadecimal digits

Every byte is written as two digits, and read back from digits of either case.
-/

namespace Toolchain.Lib

open List

def hexValue (c : Char) : Option Nat :=
  if '0' ≤ c ∧ c ≤ '9' then some (c.toNat - '0'.toNat)
  else if 'a' ≤ c ∧ c ≤ 'f' then some (c.toNat - 'a'.toNat + 10)
  else if 'A' ≤ c ∧ c ≤ 'F' then some (c.toNat - 'A'.toNat + 10)
  else none

def hexDecode : Text → Option (List UInt8)
  | [] => some []
  | [_] => none
  | high :: low :: rest =>
    match hexValue high, hexValue low, hexDecode rest with
    | some high, some low, some bytes => some (UInt8.ofNat (16 * high + low) :: bytes)
    | _, _, _ => none

def hexEncode : List UInt8 → Text
  | [] => []
  | byte :: bytes => (byte.toNat / 16).digitChar :: (byte.toNat % 16).digitChar :: hexEncode bytes

lemma hexValue_digitChar : ∀ value < 16, hexValue value.digitChar = some value := by decide

lemma hexValue_digits (byte : UInt8) :
    hexValue (byte.toNat / 16).digitChar = some (byte.toNat / 16) ∧
      hexValue (byte.toNat % 16).digitChar = some (byte.toNat % 16) := by
  have hbyte := byte.toNat_lt
  exact ⟨hexValue_digitChar _ (by omega), hexValue_digitChar _ (by omega)⟩

lemma hexDecode_hexEncode (bytes : List UInt8) : hexDecode (hexEncode bytes) = some bytes := by
  induction bytes with
  | nil => rfl
  | cons byte bytes ih =>
    simp [hexEncode, hexDecode, hexValue_digits byte, ih, Nat.div_add_mod]

lemma hexEncode_injective : Function.Injective hexEncode := by
  intro bytes other h
  have hdecode := congrArg hexDecode h
  simpa [hexDecode_hexEncode] using hdecode

lemma length_hexEncode (bytes : List UInt8) : (hexEncode bytes).length = 2 * bytes.length := by
  induction bytes with
  | nil => rfl
  | cons byte bytes ih =>
    simp only [hexEncode, length_cons, ih]
    omega

lemma not_mem_hexEncode {c : Char} (hc : hexValue c = none) (bytes : List UInt8) :
    c ∉ hexEncode bytes := by
  induction bytes with
  | nil => exact not_mem_nil
  | cons byte bytes ih =>
    obtain ⟨hhigh, hlow⟩ := hexValue_digits byte
    simp only [hexEncode, mem_cons, not_or]
    refine ⟨?_, ?_, ih⟩
    · rintro rfl
      cases hc.symm.trans hhigh
    · rintro rfl
      cases hc.symm.trans hlow

end Toolchain.Lib
