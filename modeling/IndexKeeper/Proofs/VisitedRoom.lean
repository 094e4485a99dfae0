import IndexKeeper.Provider

set_option autoImplicit false

namespace IndexKeeper

namespace VisitedSet

def Room (s : VisitedSet) (runs : List Run) : Prop :=
  s.members.length + runs.countP (fun run => !s.contains run.attempt) ≤ s.max

theorem contains_iff (s : VisitedSet) (a : Attempt) : s.contains a = true ↔ a ∈ s.members := by
  simp [contains]

theorem insert_known (s : VisitedSet) (a : Attempt) (known : s.contains a = true)
    (fits : s.members.length ≤ s.max) : s.insert a = s := by
  simp only [insert, known, if_true]
  rw [if_neg (Nat.not_lt.mpr fits)]

theorem insert_fresh (s : VisitedSet) (a : Attempt) (fresh : s.contains a = false)
    (fits : s.members.length + 1 ≤ s.max) : s.insert a = { s with members := s.members ++ [a] } := by
  simp only [insert, fresh, Bool.false_eq_true, if_false]
  rw [if_neg]
  simpa using fits

theorem of_contains_insert (s : VisitedSet) (a b : Attempt)
    (inside : (s.insert a).contains b = true) : b = a ∨ s.contains b = true := by
  let grown := if s.contains a then s else { s with members := s.members ++ [a] }
  have member : b ∈ (s.insert a).members := (contains_iff _ b).mp inside
  have grew : b ∈ grown.members := by
    have insert_eq : s.insert a = if s.max < grown.members.length then grown.trim else grown := rfl
    rw [insert_eq] at member
    split at member
    · exact (List.mem_filter.mp member).1
    · exact member
  rw [contains_iff]
  cases known : s.contains a with
  | true =>
      simp only [grown, known, if_true] at grew
      exact .inr grew
  | false =>
      simp only [grown, known, Bool.false_eq_true, if_false] at grew
      rcases List.mem_append.mp grew with old | new
      · exact .inr old
      · exact .inl (List.mem_singleton.mp new)

theorem of_contains_foldl (s : VisitedSet) (entered : List Attempt) (a : Attempt)
    (inside : (entered.foldl insert s).contains a = true) : a ∈ entered ∨ s.contains a = true := by
  induction entered generalizing s with
  | nil => exact .inr inside
  | cons b rest ih =>
      rcases ih (s.insert b) inside with later | known
      · exact .inl (List.mem_cons_of_mem _ later)
      · rcases s.of_contains_insert b a known with same | old
        · exact .inl (same ▸ List.mem_cons_self)
        · exact .inr old

theorem count_fresh_pos (s : VisitedSet) (runs : List Run) (run : Run) (member : run ∈ runs)
    (fresh : s.contains run.attempt = false) :
    0 < runs.countP fun run => !s.contains run.attempt :=
  List.countP_pos_iff.mpr ⟨run, member, by simp [fresh]⟩

theorem contains_insert_of_room (s : VisitedSet) (runs : List Run) (run : Run) (a : Attempt)
    (room : s.Room runs) (member : run ∈ runs) :
    (s.insert run.attempt).contains a = true ↔ a = run.attempt ∨ s.contains a = true := by
  cases known : s.contains run.attempt with
  | true =>
      rw [insert_known s run.attempt known (Nat.le_trans (Nat.le_add_right _ _) room)]
      constructor
      · exact Or.inr
      · rintro (same | old)
        · exact same ▸ known
        · exact old
  | false =>
      have pos := count_fresh_pos s runs run member known
      rw [insert_fresh s run.attempt known (by unfold Room at room; omega)]
      simp [contains_iff, or_comm]

theorem count_fewer (runs : List Run) (fewer more : Run → Bool) (run : Run) (member : run ∈ runs)
    (gone : fewer run = false) (was : more run = true)
    (imp : ∀ other, fewer other = true → more other = true) :
    runs.countP fewer + 1 ≤ runs.countP more := by
  obtain ⟨before, after, rfl⟩ := List.append_of_mem member
  have left := List.countP_mono_left (l := before) fun other _ => imp other
  have right := List.countP_mono_left (l := after) fun other _ => imp other
  simp only [List.countP_append, List.countP_cons, gone, was, Bool.false_eq_true, if_false, if_true]
  omega

theorem room_insert (s : VisitedSet) (runs : List Run) (run : Run) (room : s.Room runs)
    (member : run ∈ runs) : (s.insert run.attempt).Room runs := by
  cases known : s.contains run.attempt with
  | true => rwa [insert_known s run.attempt known (Nat.le_trans (Nat.le_add_right _ _) room)]
  | false =>
      have pos := count_fresh_pos s runs run member known
      have enough : s.members.length + 1 ≤ s.max := by unfold Room at room; omega
      have grown := contains_insert_of_room s runs run
      have fewer := count_fewer runs (fun other => !(s.insert run.attempt).contains other.attempt)
        (fun other => !s.contains other.attempt) run member
        (by simp [(grown run.attempt room member).mpr (.inl rfl)]) (by simp [known])
        (fun other fresh => by
          cases old : s.contains other.attempt with
          | false => rfl
          | true => simp [(grown other.attempt room member).mpr (.inr old)] at fresh)
      rw [insert_fresh s run.attempt known enough] at fewer ⊢
      unfold Room at room ⊢
      simp only [List.length_append, List.length_cons, List.length_nil] at fewer ⊢
      omega

end VisitedSet
end IndexKeeper
