import Mathlib.Data.Char
import Mathlib.Data.List.Lex
import Mathlib.Data.UInt
import Toolchain.Lib.Text

/-!
# Utf8 — strings as bytes, in their order

At the first character in which two strings differ their bytes in UTF-8 differ as well, in the same
direction (`encodeChar_append_lt`).  So the bytes determine the string and its order.
-/

namespace Toolchain.Lib

open List

abbrev Bytes := List UInt8

def encode (text : Text) : Bytes :=
  text.flatMap String.utf8EncodeChar

def decode (bytes : Bytes) : Option Text :=
  bytes.toByteArray.utf8Decode?.map Array.toList

@[simp] lemma decode_encode (text : Text) : decode (encode text) = some text := by
  have hdec : (encode text).toByteArray.utf8Decode? = some text.toArray := utf8Decode?_utf8Encode
  simp [decode, hdec]

@[simp] lemma encode_append (text rest : Text) :
    encode (text ++ rest) = encode text ++ encode rest := by
  simp [encode]

@[simp] lemma encode_nil : encode [] = [] := rfl

lemma encode_cons (c : Char) (text : Text) :
    encode (c :: text) = String.utf8EncodeChar c ++ encode text := by
  simp [encode]

lemma encode_injective {text other : Text} (h : encode text = encode other) : text = other := by
  have hdec := congrArg decode h
  simpa using hdec

lemma encode_eq_nil_iff (text : Text) : encode text = [] ↔ text = [] := by
  constructor
  · intro h
    exact encode_injective h
  · rintro rfl
    rfl

lemma encode_isPrefix_encode_iff (text other : Text) : encode text <+: encode other ↔ text <+: other := by
  constructor
  · rintro ⟨rest, hres⟩
    have hbyt : text.utf8Encode ++ rest.toByteArray = other.utf8Encode := by
      have := congrArg toByteArray hres
      simpa [encode, utf8Encode] using this
    exact isPrefix_of_utf8Encode_append_eq_utf8Encode _ hbyt
  · rintro ⟨rest, rfl⟩
    exact ⟨encode rest, (encode_append _ _).symm⟩

lemma zero_mem_encodeChar_iff (c : Char) :
    (0 : UInt8) ∈ String.utf8EncodeChar c ↔ c = '\x00' := by
  have hval : c.val.toNat < 1114112 := by
    rcases c.valid with hc | hc
    · exact lt_trans hc (by decide)
    · exact hc.2
  have hnul : c = '\x00' ↔ c.val.toNat = 0 := by
    rw [← Char.val_inj, ← UInt32.toNat_inj]
    rfl
  have hzer : (0 : UInt8).toNat = 0 := rfl
  rw [hnul]
  unfold String.utf8EncodeChar
  generalize c.val.toNat = n at hval
  dsimp only
  split_ifs
  all_goals
    simp only [mem_cons, not_mem_nil, or_false, ← UInt8.toNat_inj, UInt8.toNat_ofNat',
      hzer]
    omega

lemma zero_mem_encode_iff (text : Text) : (0 : UInt8) ∈ encode text ↔ '\x00' ∈ text := by
  rw [encode, mem_flatMap]
  constructor
  · rintro ⟨c, hc, hzer⟩
    rwa [← (zero_mem_encodeChar_iff c).mp hzer]
  · intro hmem
    exact ⟨_, hmem, (zero_mem_encodeChar_iff _).mpr rfl⟩

/-! ## Order -/

lemma encodeChar_append_lt {c d : Char} (h : c < d) (rest others : Bytes) :
    String.utf8EncodeChar c ++ rest < String.utf8EncodeChar d ++ others := by
  have hlt : c.val.toNat < d.val.toNat := h
  have hval : d.val.toNat < 1114112 := by
    have := d.valid
    rcases this with hd | hd
    · exact lt_trans hd (by decide)
    · exact hd.2
  unfold String.utf8EncodeChar
  generalize c.val.toNat = m at hlt
  generalize d.val.toNat = n at hlt hval
  have htwe (k : Nat) : k / 4096 = k / 64 / 64 := by rw [Nat.div_div_eq_div_mul]
  have heig (k : Nat) :
    k / 262144 = k / 64 / 64 / 64 := by rw [Nat.div_div_eq_div_mul, Nat.div_div_eq_div_mul]
  simp only [htwe, heig]
  -- more bytes start with a greater one, and as many compare from the highest bits on
  split_ifs
  all_goals
    simp only [cons_append, nil_append, cons_lt_cons_iff, UInt8.lt_iff_toNat_lt,
      ← UInt8.toNat_inj, UInt8.toNat_ofNat']
    omega

lemma append_lt_append_iff (bytes rest others : Bytes) :
    bytes ++ rest < bytes ++ others ↔ rest < others := by
  induction bytes with
  | nil => simp
  | cons byte bytes ih => simp [ih]

lemma encode_lt_encode_iff (text other : Text) : encode text < encode other ↔ text < other := by
  induction text generalizing other with
  | nil =>
    cases other with
    | nil => simp
    | cons d other =>
      have hne : encode (d :: other) ≠ [] := by simp [encode_eq_nil_iff]
      obtain ⟨byte, bytes, hbyt⟩ := exists_cons_of_ne_nil hne
      simp [hbyt]
  | cons c text ih =>
    cases other with
    | nil => simp
    | cons d other =>
      rw [encode_cons, encode_cons, cons_lt_cons_iff]
      rcases lt_trichotomy c d with hlt | rfl | hgt
      · simp [hlt, encodeChar_append_lt hlt]
      · simp [append_lt_append_iff, ih]
      · have hoth := encodeChar_append_lt hgt (encode other) (encode text)
        simp [hgt.not_gt, hgt.ne', List.lt_asymm hoth]

end Toolchain.Lib
