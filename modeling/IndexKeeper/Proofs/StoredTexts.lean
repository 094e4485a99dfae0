import IndexKeeper.Proofs.PathNames
import IndexKeeper.Source
import IndexKeeper.Store

set_option autoImplicit false

namespace IndexKeeper

theorem of_text_injective (text other : String) (same : Bytes.ofText text = Bytes.ofText other) :
    text = other := by
  have read := congrArg Bytes.toText? same
  rw [Bytes.to_text_of_text, Bytes.to_text_of_text] at read
  exact Option.some.inj read

def Solid (text : String) : Prop := text ≠ "" ∧ ∀ c ∈ text.toList, Text.isBlank c = false

instance (text : String) : Decidable (Solid text) :=
  have := List.decidableBAll (fun c => Text.isBlank c = false) text.toList
  inferInstanceAs (Decidable (_ ∧ _))

section Solid

variable (text : String) (solid : Solid text)
include solid

theorem solid_filled : Text.allBlank text = false := by
  have chars : text.toList ≠ [] := fun empty => solid.1 (String.toList_inj.mp (empty.trans rfl))
  obtain ⟨c, rest, chars⟩ := List.exists_cons_of_ne_nil chars
  simp [Text.allBlank, chars, solid.2 c (by simp [chars])]

theorem solid_trimmed : Text.trim text = text := by
  have whole (chars : List Char) (part : ∀ c ∈ chars, c ∈ text.toList) :
      chars.dropWhile Text.isBlank = chars := by
    cases chars with
    | nil => rfl
    | cons c rest =>
        rw [List.dropWhile_cons_of_neg]
        simp [solid.2 c (part c List.mem_cons_self)]
  unfold Text.trim Text.trimChars
  rw [whole _ fun c member => member, whole _ fun c member => List.mem_reverse.mp member,
    List.reverse_reverse, String.ofList_toList]

end Solid

def HexText (text : String) : Prop :=
  text ≠ "" ∧ ∀ c ∈ text.toList, c ∈ "0123456789abcdef-".toList

instance (text : String) : Decidable (HexText text) := inferInstanceAs (Decidable (_ ∧ _))

theorem hex_repeated (digit : Char) (listed : digit ∈ "0123456789abcdef-".toList) (n : Nat) :
    HexText (String.ofList (List.replicate (n + 1) digit)) := by
  refine ⟨fun empty => ?_, fun c member => ?_⟩
  · have chars := congrArg String.toList empty
    simp [List.replicate_succ] at chars
  · simp only [String.toList_ofList, List.mem_replicate] at member
    exact member.2 ▸ listed

theorem hex_digit_listed : ∀ n, n < 16 → hexDigit n ∈ "0123456789abcdef-".toList := by
  decide

theorem hex_of_listed (byte : UInt8) (c : Char) (member : c ∈ Bytes.hexOf byte) :
    c ∈ "0123456789abcdef-".toList := by
  have small := byte.toNat_lt
  simp only [Bytes.hexOf, List.mem_cons, List.not_mem_nil, or_false] at member
  rcases member with rfl | rfl
  · exact hex_digit_listed _ (by omega)
  · exact hex_digit_listed _ (by omega)

theorem content_key_hex (bytes : Bytes) : HexText (Source.contentKey bytes) := by
  have chars : (Source.contentKey bytes).toList = (Sha256.digest bytes).flatMap Bytes.hexOf := by
    simp [Source.contentKey, Bytes.toHex]
  constructor
  · intro empty
    rw [empty] at chars
    simp [Sha256.digest, Sha256.wordBytes, Bytes.hexOf] at chars
  · intro c member
    rw [chars, List.mem_flatMap] at member
    obtain ⟨byte, -, inside⟩ := member
    exact hex_of_listed byte c inside

section HexTexts

variable (text : String) (hex : HexText text)
include hex

theorem hex_text_solid : Solid text := by
  have every : "0123456789abcdef-".toList.all (fun c => !Text.isBlank c) = true := by decide
  exact ⟨hex.1, fun c member => by simpa using List.all_eq_true.mp every c (hex.2 c member)⟩

theorem hex_text_lacks (other : Char) (unlisted : other ∉ "0123456789abcdef-".toList) :
    other ∉ text.toList := fun member => unlisted (hex.2 other member)

theorem hex_text_plain : Path.Plain text := by
  refine ⟨hex.1, ?_, ?_, hex_text_lacks text hex '/' (by decide)⟩
  · rintro rfl
    exact absurd (hex.2 '.' (by decide)) (by decide)
  · rintro rfl
    exact absurd (hex.2 '.' (by decide)) (by decide)

end HexTexts

namespace Store

theorem read_trimmed_solid (t : FileTree) (path text : String) (solid : Solid text)
    (there : t.read path = .ok (Bytes.ofText text)) : readTrimmed t path = .ok (some text) := by
  simp [readTrimmed, readBytes, there, Bytes.to_text_of_text, solid_filled text solid, solid_trimmed text solid]

theorem read_trimmed_missing (t : FileTree) (path : String) (missing : t.read path = .error .notFound) :
    readTrimmed t path = .ok none := by
  simp [readTrimmed, readBytes, missing]

end Store
end IndexKeeper
