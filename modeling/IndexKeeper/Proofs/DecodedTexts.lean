import Mathlib.Data.List.Basic
import IndexKeeper.Text.Utf8

set_option autoImplicit false

namespace IndexKeeper

theorem Bytes.of_text_chars (text : String) : ofText text = text.toList.flatMap String.utf8EncodeChar := by
  have bytes : text.toByteArray = text.toList.utf8Encode := by
    rw [← String.toByteArray_ofList, String.ofList_toList]
  rw [ofText, String.toUTF8_eq_toByteArray, bytes, List.utf8Encode, List.data_toByteArray]

namespace Utf8

section Steps

variable (read : List Char) (b value low high : Nat) (ranges : List (Nat × Nat))

theorem byte_value (small : b < 256) : (UInt8.ofNat b).toNat = b := by
  rw [UInt8.toNat_ofNat']
  exact Nat.mod_eq_of_lt small

theorem step_lead (pending : Pending) (small : b < 256) (several : ¬ b < 0x80) (lead : lead? b = some pending) :
    step ⟨read, none⟩ (UInt8.ofNat b) = ⟨read, some pending⟩ := by
  rw [step, byte_value b small]
  simp [start, several, lead]

theorem step_middle (small : b < 256) (within : low ≤ b ∧ b ≤ high) (range : Nat × Nat) :
    step ⟨read, some ⟨value, (low, high) :: range :: ranges⟩⟩ (UInt8.ofNat b) =
      ⟨read, some ⟨64 * value + (b - 0x80), range :: ranges⟩⟩ := by
  rw [step, byte_value b small]
  simp [within]

theorem step_last (small : b < 256) (within : low ≤ b ∧ b ≤ high) :
    step ⟨read, some ⟨value, [(low, high)]⟩⟩ (UInt8.ofNat b) =
      ⟨Char.ofNat (64 * value + (b - 0x80)) :: read, none⟩ := by
  rw [step, byte_value b small]
  simp [within]

end Steps

-- The first byte of a character of three leaves only those second bytes that no shorter form and no surrogate has.
theorem lead_three (v : Nat) (long : 0x800 ≤ v) (short : v ≤ 0xffff) (scalar : v < 0xd800 ∨ 0xdfff < v) :
    ∃ low high, lead? (v / 4096 + 0xe0) = some ⟨v / 4096, [(low, high), (0x80, 0xbf)]⟩ ∧
      low ≤ v / 64 % 64 + 0x80 ∧ v / 64 % 64 + 0x80 ≤ high := by
  have notTwo : ¬ (0xc2 ≤ v / 4096 + 0xe0 ∧ v / 4096 + 0xe0 ≤ 0xdf) := by omega
  rw [lead?, if_neg notTwo]
  by_cases first : v / 4096 + 0xe0 = 0xe0
  · rw [if_pos first]
    exact ⟨0xa0, 0xbf, by simp; omega, by omega, by omega⟩
  · rw [if_neg first]
    by_cases surrogates : v / 4096 + 0xe0 = 0xed
    · rw [if_pos surrogates]
      exact ⟨0x80, 0x9f, by simp; omega, by omega, by omega⟩
    · rw [if_neg surrogates, if_pos (by omega)]
      exact ⟨0x80, 0xbf, by simp, by omega, by omega⟩

theorem lead_four (v : Nat) (long : 0x10000 ≤ v) (scalar : v ≤ 0x10ffff) :
    ∃ low high, lead? (v / 262144 + 0xf0) = some ⟨v / 262144, [(low, high), (0x80, 0xbf), (0x80, 0xbf)]⟩ ∧
      low ≤ v / 4096 % 64 + 0x80 ∧ v / 4096 % 64 + 0x80 ≤ high := by
  rw [lead?, if_neg (by omega), if_neg (by omega), if_neg (by omega), if_neg (by omega)]
  by_cases first : v / 262144 + 0xf0 = 0xf0
  · rw [if_pos first]
    exact ⟨0x90, 0xbf, by simp; omega, by omega, by omega⟩
  · rw [if_neg first]
    by_cases last : v / 262144 + 0xf0 = 0xf4
    · rw [if_neg (by omega), if_pos last]
      exact ⟨0x80, 0x8f, by simp; omega, by omega, by omega⟩
    · rw [if_pos (by omega)]
      exact ⟨0x80, 0xbf, by simp, by omega, by omega⟩

theorem scalar_cases (c : Char) : c.toNat < 0xd800 ∨ 0xdfff < c.toNat ∧ c.toNat ≤ 0x10ffff := by
  have valid : c.toNat < 0xd800 ∨ 0xdfff < c.toNat ∧ c.toNat < 0x110000 := c.valid
  omega

theorem steps_char (read : List Char) (c : Char) :
    (String.utf8EncodeChar c).foldl step ⟨read, none⟩ = ⟨c :: read, none⟩ := by
  have scalar := scalar_cases c
  have same (v : Nat) (whole : v = c.toNat) : Char.ofNat v = c := by rw [whole, Char.ofNat_toNat]
  have value : c.val.toNat = c.toNat := rfl
  simp only [String.utf8EncodeChar, value]
  by_cases one : c.toNat ≤ 127
  · rw [if_pos one, List.foldl_cons, List.foldl_nil, step, byte_value _ (by omega)]
    simp [start, show c.toNat < 128 by omega]
  rw [if_neg one]
  by_cases two : c.toNat ≤ 2047
  · have lead : lead? (c.toNat / 64 % 32 + 192) = some ⟨c.toNat / 64, [(0x80, 0xbf)]⟩ := by
      rw [lead?, if_pos (by omega)]
      simp
      omega
    rw [if_pos two]
    simp only [List.foldl_cons, List.foldl_nil]
    rw [step_lead _ _ _ (by omega) (by omega) lead, step_last _ _ _ _ _ (by omega) (by omega), same _ (by omega)]
  rw [if_neg two]
  by_cases three : c.toNat ≤ 65535
  · obtain ⟨low, high, lead, above, below⟩ := lead_three c.toNat (by omega) three (by omega)
    rw [show c.toNat / 4096 = c.toNat / 4096 % 16 by omega] at lead
    rw [if_pos three]
    simp only [List.foldl_cons, List.foldl_nil]
    rw [step_lead _ _ _ (by omega) (by omega) lead, step_middle _ _ _ _ _ _ (by omega) ⟨above, below⟩,
      step_last _ _ _ _ _ (by omega) (by omega), same _ (by omega)]
  · obtain ⟨low, high, lead, above, below⟩ := lead_four c.toNat (by omega) (by omega)
    rw [show c.toNat / 262144 = c.toNat / 262144 % 8 by omega] at lead
    rw [if_neg three]
    simp only [List.foldl_cons, List.foldl_nil]
    rw [step_lead _ _ _ (by omega) (by omega) lead, step_middle _ _ _ _ _ _ (by omega) ⟨above, below⟩,
      step_middle _ _ _ _ _ _ (by omega) (by omega), step_last _ _ _ _ _ (by omega) (by omega), same _ (by omega)]

theorem steps_chars (read text : List Char) :
    (text.flatMap String.utf8EncodeChar).foldl step ⟨read, none⟩ = ⟨text.reverse ++ read, none⟩ := by
  induction text generalizing read with
  | nil => rfl
  | cons c rest ih =>
      rw [List.flatMap_cons, List.foldl_append, steps_char, ih]
      simp

theorem decode_of_text (text : String) : decodeLossy (Bytes.ofText text) = text := by
  rw [decodeLossy, Bytes.of_text_chars, steps_chars]
  simp

end Utf8
end IndexKeeper
