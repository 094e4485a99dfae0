import IndexKeeper.Files.Path

set_option autoImplicit false

namespace IndexKeeper.Path

def Plain (name : String) : Prop :=
  name ≠ "" ∧ name ≠ "." ∧ name ≠ ".." ∧ '/' ∉ name.toList

instance (name : String) : Decidable (Plain name) := inferInstanceAs (Decidable (_ ∧ _))

theorem split_chars_ne_nil (chars : List Char) : splitChars chars ≠ [] := by
  cases chars with
  | nil => simp [splitChars]
  | cons c rest =>
      rw [splitChars]
      split
      · simp
      · split <;> simp

theorem split_chars_whole (chars : List Char) (whole : '/' ∉ chars) : splitChars chars = [chars] := by
  induction chars with
  | nil => rfl
  | cons c rest ih =>
      have ⟨other, inRest⟩ : '/' ≠ c ∧ '/' ∉ rest := by simpa using whole
      rw [splitChars, ih inRest]
      exact if_neg (Ne.symm other)

theorem split_chars_slash (left right : List Char) :
    splitChars (left ++ '/' :: right) = splitChars left ++ splitChars right := by
  induction left with
  | nil =>
      obtain ⟨part, parts, split⟩ := List.exists_cons_of_ne_nil (split_chars_ne_nil right)
      simp [splitChars, split]
  | cons c rest ih =>
      obtain ⟨part, parts, split⟩ := List.exists_cons_of_ne_nil (split_chars_ne_nil rest)
      rw [List.cons_append, splitChars, ih, split, splitChars, split]
      by_cases slash : c = '/'
      · simp [slash]
      · simp [slash]

theorem plain_chars (name : String) (plain : Plain name) : name.toList ≠ [] := by
  intro empty
  exact plain.1 (String.toList_inj.mp (empty.trans rfl))

theorem segments_plain (name : String) (plain : Plain name) : segments name = [name] := by
  have filled : name.toList.isEmpty = false := by simpa using plain_chars name plain
  simp [segments, split_chars_whole name.toList plain.2.2.2, filled]

theorem absolute_plain (name : String) (plain : Plain name) : isAbsolute name = false := by
  obtain ⟨c, rest, chars⟩ := List.exists_cons_of_ne_nil (plain_chars name plain)
  have other : c ≠ '/' := by
    intro slash
    exact plain.2.2.2 (by simp [chars, slash])
  simp [isAbsolute, chars, other]

theorem join_cases (base name : String) (plain : Plain name) :
    (base = "" ∧ join base name = name) ∨
      (∃ front, base.toList = front ++ ['/'] ∧ join base name = base ++ name) ∨
      (∃ front c, base.toList = front ++ [c] ∧ c ≠ '/' ∧ join base name = base ++ "/" ++ name) := by
  unfold join
  rw [absolute_plain name plain, if_neg Bool.false_ne_true]
  cases last : base.toList.getLast? with
  | none =>
      left
      exact ⟨String.toList_inj.mp ((List.getLast?_eq_none_iff.mp last).trans rfl), rfl⟩
  | some c =>
      right
      obtain ⟨front, chars⟩ := List.getLast?_eq_some_iff.mp last
      by_cases slash : c = '/'
      · subst slash
        exact .inl ⟨front, chars, if_pos rfl⟩
      · exact .inr ⟨front, c, chars, slash, if_neg slash⟩

@[simp] theorem segments_join (base name : String) (plain : Plain name) :
    segments (join base name) = segments base ++ [name] := by
  have alone := segments_plain name plain
  rcases join_cases base name plain with ⟨empty, joined⟩ | ⟨front, chars, joined⟩ |
    ⟨front, c, chars, _, joined⟩
  · rw [joined, alone, empty]
    rfl
  · have whole : (base ++ name).toList = front ++ '/' :: name.toList := by
      simp [String.toList_append, chars]
    unfold segments at alone ⊢
    rw [joined, whole, chars, split_chars_slash, split_chars_slash, List.filter_append, List.map_append,
      alone]
    simp [splitChars]
  · have whole : (base ++ "/" ++ name).toList = base.toList ++ '/' :: name.toList := by
      simp [String.toList_append]
    unfold segments at alone ⊢
    rw [joined, whole, split_chars_slash, List.filter_append, List.map_append, alone]

@[simp] theorem absolute_join (base name : String) (plain : Plain name) :
    isAbsolute (join base name) = isAbsolute base := by
  rcases join_cases base name plain with ⟨empty, joined⟩ | ⟨front, chars, joined⟩ |
    ⟨front, c, chars, _, joined⟩
  · rw [joined, empty, absolute_plain name plain]
    rfl
  · rw [joined]
    cases front <;> simp [isAbsolute, String.toList_append, chars]
  · rw [joined]
    cases front <;> simp [isAbsolute, String.toList_append, chars]

@[simp] theorem ends_with_slash_join (base name : String) (plain : Plain name) :
    endsWithSlash (join base name) = false := by
  obtain ⟨front, c, chars⟩ := (List.eq_nil_or_concat name.toList).resolve_left (plain_chars name plain)
  have other : c ≠ '/' := by
    intro slash
    exact plain.2.2.2 (by simp [chars, slash])
  have last : ∃ before, (join base name).toList = before ++ name.toList := by
    rcases join_cases base name plain with ⟨_, joined⟩ | ⟨_, _, joined⟩ | ⟨_, _, _, _, joined⟩
    · exact ⟨[], by rw [joined]; rfl⟩
    · exact ⟨base.toList, by rw [joined, String.toList_append]⟩
    · exact ⟨base.toList ++ ['/'], by simp [joined, String.toList_append]⟩
  obtain ⟨before, whole⟩ := last
  simp [endsWithSlash, whole, chars, other]

theorem join_ne_empty (base name : String) (plain : Plain name) : join base name ≠ "" := by
  intro empty
  have none := segments_join base name plain
  rw [empty] at none
  exact absurd none.symm (by simp [segments, splitChars])

theorem join_injective (base name other : String) (plain : Plain name) (otherPlain : Plain other)
    (same : join base name = join base other) : name = other := by
  have segmentsSame := congrArg segments same
  rw [segments_join base name plain, segments_join base other otherPlain] at segmentsSame
  simpa using segmentsSame

theorem join_append (base name tail : String) (plain : Plain name) (longer : Plain (name ++ tail)) :
    join base name ++ tail = join base (name ++ tail) := by
  unfold join
  rw [absolute_plain name plain, absolute_plain _ longer]
  simp only [Bool.false_eq_true, if_false]
  split
  · rfl
  · split <;> simp [String.append_assoc]

theorem join_chars (base : String) :
    ∃ front : List Char, ∀ name, Plain name → (join base name).toList = front ++ name.toList := by
  unfold join
  cases base.toList.getLast? with
  | none =>
      refine ⟨[], fun name plain => ?_⟩
      rw [absolute_plain name plain]
      rfl
  | some c =>
      by_cases slash : c = '/'
      · refine ⟨base.toList, fun name plain => ?_⟩
        simp [absolute_plain name plain, slash]
      · refine ⟨base.toList ++ ['/'], fun name plain => ?_⟩
        simp [absolute_plain name plain, slash]

theorem size_join (base name other : String) (plain : Plain name) (otherPlain : Plain other)
    (shorter : name.utf8ByteSize ≤ other.utf8ByteSize) :
    (join base name).utf8ByteSize ≤ (join base other).utf8ByteSize := by
  unfold join
  rw [absolute_plain name plain, absolute_plain other otherPlain]
  simp only [Bool.false_eq_true, if_false]
  split
  · exact shorter
  · split <;> simp only [String.utf8ByteSize_append] <;> omega

end IndexKeeper.Path
