import Mathlib.Data.List.Sort
import IndexKeeper.Proofs.VisitedHistory

set_option autoImplicit false

namespace IndexKeeper

namespace Attempt

theorem newer_iff (a b : Attempt) : a.newer b = true ↔
    b.finishedAt.before a.finishedAt = true ∨ (a.finishedAt = b.finishedAt ∧ b.id < a.id) := by
  simp [newer]

theorem not_newer_self (a : Attempt) : a.newer a = false := by
  rw [Bool.eq_false_iff, ne_eq, newer_iff, Instant.before_iff]
  omega

theorem newer_trans (a b c : Attempt) (first : a.newer b = true) (second : b.newer c = true) :
    a.newer c = true := by
  obtain ⟨id, seconds, nanos⟩ := a
  obtain ⟨midId, midSeconds, midNanos⟩ := b
  obtain ⟨lastId, lastSeconds, lastNanos⟩ := c
  simp only [newer_iff, Instant.before_iff, Instant.mk.injEq] at first second ⊢
  omega

theorem newer_cases (a b : Attempt) : a.newer b = true ∨ a = b ∨ b.newer a = true := by
  obtain ⟨id, seconds, nanos⟩ := a
  obtain ⟨otherId, otherSeconds, otherNanos⟩ := b
  simp only [newer_iff, Instant.before_iff, Attempt.mk.injEq, Instant.mk.injEq]
  omega

theorem not_newer_of_newer (a b : Attempt) (newer : a.newer b = true) : b.newer a = false := by
  by_contra both
  have self := newer_trans a b a newer (Bool.not_eq_false _ ▸ both)
  rw [not_newer_self] at self
  cases self

def Foremost (a b : Attempt) : Prop := b.newer a = false

instance : DecidableRel Foremost := fun a b => inferInstanceAs (Decidable (b.newer a = false))

theorem foremost_iff (a b : Attempt) : a.Foremost b ↔ a.newer b = true ∨ a = b := by
  rw [Foremost]
  rcases newer_cases a b with newer | rfl | older
  · simp [not_newer_of_newer a b newer, newer]
  · simp [not_newer_self]
  · have apart : a ≠ b := fun same => by simp [same, not_newer_self] at older
    simp [older, not_newer_of_newer b a older, apart]

instance : IsTrans Attempt Foremost where
  trans a b c first second := by
    rw [foremost_iff] at first second ⊢
    rcases first with newer | rfl
    · rcases second with later | rfl
      · exact .inl (newer_trans a b c newer later)
      · exact .inl newer
    · exact second

instance : Std.Total Foremost where
  total a b := by
    rw [foremost_iff, foremost_iff]
    rcases newer_cases a b with newer | same | older
    · exact .inl (.inl newer)
    · exact .inl (.inr same)
    · exact .inr (.inl older)

end Attempt

namespace VisitedSet

def newest (count : Nat) (past : List Attempt) : List Attempt :=
  (past.dedup.insertionSort Attempt.Foremost).take count

example : newest 2 [⟨1, ⟨50, 0⟩⟩, ⟨2, ⟨10, 0⟩⟩, ⟨3, ⟨40, 0⟩⟩] = [⟨1, ⟨50, 0⟩⟩, ⟨3, ⟨40, 0⟩⟩] := by decide

theorem filter_rank_sorted (sorted : List Attempt) (newestFirst : sorted.Pairwise fun a b => a.newer b = true)
    (count : Nat) : (sorted.filter fun a => rank sorted a < count) = sorted.take count := by
  induction sorted generalizing count with
  | nil => simp
  | cons a rest ih =>
      obtain ⟨first, later⟩ := List.pairwise_cons.mp newestFirst
      have top : rank (a :: rest) a = 0 := by
        rw [rank, List.countP_eq_zero]
        intro b member
        rcases List.mem_cons.mp member with rfl | behind
        · simp [Attempt.not_newer_self]
        · simp [Attempt.not_newer_of_newer a b (first b behind)]
      have below : ∀ b ∈ rest, rank (a :: rest) b = rank rest b + 1 := by
        intro b member
        exact List.countP_cons_of_pos (first b member)
      cases count with
      | zero => simp
      | succ count =>
          have rest_eq : (rest.filter fun b => rank (a :: rest) b < count + 1) =
              rest.filter fun b => rank rest b < count := by
            refine List.filter_congr fun b member => ?_
            rw [below b member]
            simp
          rw [List.filter_cons_of_pos (by simp [top]), rest_eq, ih later, List.take_succ_cons]

theorem filter_rank_perm (members : List Attempt) (nodup : members.Nodup) (count : Nat) :
    (members.filter fun a => rank members a < count).Perm ((members.insertionSort Attempt.Foremost).take count) := by
  have perm := List.perm_insertionSort Attempt.Foremost members
  have ordered := List.pairwise_insertionSort Attempt.Foremost members
  have distinct : (members.insertionSort Attempt.Foremost).Nodup := perm.nodup_iff.mpr nodup
  have newestFirst : (members.insertionSort Attempt.Foremost).Pairwise fun a b => a.newer b = true :=
    (ordered.and distinct).imp fun ⟨before, apart⟩ => ((Attempt.foremost_iff _ _).mp before).resolve_right apart
  have ranks (a : Attempt) : rank (members.insertionSort Attempt.Foremost) a = rank members a := perm.countP_eq _
  rw [← filter_rank_sorted _ newestFirst count]
  simp only [ranks]
  exact perm.symm.filter _

theorem filter_rank_length (members : List Attempt) (nodup : members.Nodup) (count : Nat) :
    (members.filter fun a => rank members a < count).length = min count members.length := by
  rw [(filter_rank_perm members nodup count).length_eq, List.length_take, List.length_insertionSort]

theorem rank_lt_length (members : List Attempt) (a : Attempt) (member : a ∈ members) :
    rank members a < members.length := by
  refine Nat.lt_of_le_of_ne List.countP_le_length fun all => ?_
  have self := List.countP_eq_length.mp all a member
  rw [Attempt.not_newer_self] at self
  cases self

theorem newest_perm (count : Nat) (past : List Attempt) :
    (past.dedup.filter fun a => rank past.dedup a < count).Perm (newest count past) :=
  filter_rank_perm past.dedup past.nodup_dedup count

theorem mem_newest_iff (count : Nat) (past : List Attempt) (a : Attempt) :
    a ∈ newest count past ↔ a ∈ past ∧ rank past.dedup a < count := by
  rw [← (newest_perm count past).mem_iff]
  simp

theorem newest_nodup (count : Nat) (past : List Attempt) : (newest count past).Nodup :=
  (newest_perm count past).nodup_iff.mp (past.nodup_dedup.filter _)

theorem newest_length (count : Nat) (past : List Attempt) :
    (newest count past).length = min count past.dedup.length := by
  rw [newest, List.length_take, List.length_insertionSort]

theorem insert_cases (s : VisitedSet) (a : Attempt) (nodup : s.members.Nodup) :
    ((s.members.insert a).length ≤ s.max ∧ (s.insert a).members.Perm (s.members.insert a)) ∨
      (s.max < (s.members.insert a).length ∧
        (s.insert a).members.length = min (s.max / 2) (s.members.insert a).length) := by
  let grown := if s.contains a then s else { s with members := s.members ++ [a] }
  have max : grown.max = s.max := by
    dsimp only [grown]
    split <;> rfl
  have members : grown.members.Perm (s.members.insert a) := by
    by_cases known : a ∈ s.members
    · simp [grown, known, (s.contains_iff a).mpr known]
    · have fresh : ¬ s.contains a = true := fun inside => known ((s.contains_iff a).mp inside)
      simp [grown, known, fresh, List.perm_append_singleton]
  have insert_eq : s.insert a = if s.max < grown.members.length then grown.trim else grown := rfl
  rw [insert_eq, members.length_eq]
  by_cases exceeds : s.max < (s.members.insert a).length
  · right
    have distinct : grown.members.Nodup := members.nodup_iff.mpr (nodup.insert)
    refine ⟨exceeds, ?_⟩
    rw [if_pos exceeds, trim, filter_rank_length _ distinct, max, members.length_eq]
  · left
    rw [if_neg exceeds]
    exact ⟨Nat.not_lt.mp exceeds, members⟩

theorem after_length (max : Nat) (past : List Attempt) : (after max past).members.length ≤ Nat.max 2 max := by
  induction past using List.reverseRecOn with
  | nil => exact Nat.zero_le _
  | append_singleton past a ih =>
      obtain ⟨remembers, most⟩ := remembers_after max past
      rw [after_append, List.foldl_cons, List.foldl_nil]
      rcases insert_cases (after max past) a remembers.nodup with ⟨fits, same⟩ | ⟨exceeds, cut⟩
      · rw [same.length_eq]
        omega
      · rw [cut]
        omega

theorem newest_remembered (max : Nat) (past : List Attempt) :
    newest (Nat.max 2 max / 2) past ⊆ (after max past).members := by
  intro a listed
  obtain ⟨remembers, most⟩ := remembers_after max past
  obtain ⟨entered, few⟩ := (mem_newest_iff _ _ _).mp listed
  exact ((after max past).contains_iff a).mp (remembers.kept a entered (most ▸ few))

theorem newest_half_remembered (max : Nat) (past : List Attempt) :
    (after max past).members.Nodup ∧ (after max past).members.length ≤ Nat.max 2 max ∧
      (after max past).members ⊆ past ∧ newest (Nat.max 2 max / 2) past ⊆ (after max past).members ∧
      (past.dedup.length ≤ Nat.max 2 max / 2 → past ⊆ (after max past).members) ∧
      ∀ before a, past = before ++ [a] → Nat.max 2 max < ((after max before).members.insert a).length →
        (after max past).members.Perm (newest (Nat.max 2 max / 2) past) ∧
          (after max past).members.length = Nat.max 2 max / 2 := by
  obtain ⟨remembers, most⟩ := remembers_after max past
  have newest := newest_remembered max past
  refine ⟨remembers.nodup, after_length max past, remembers.entered, newest, fun few a entered => ?_, ?_⟩
  · refine newest ((mem_newest_iff _ _ _).mpr ⟨entered, Nat.lt_of_lt_of_le ?_ few⟩)
    exact rank_lt_length past.dedup a (List.mem_dedup.mpr entered)
  · rintro before a rfl exceeds
    obtain ⟨earlier, bound⟩ := remembers_after max before
    have half : (after max (before ++ [a])).members.length = Nat.max 2 max / 2 := by
      rw [after_append, List.foldl_cons, List.foldl_nil]
      rcases insert_cases (after max before) a earlier.nodup with ⟨fits, same⟩ | ⟨more, cut⟩
      · omega
      · rw [cut]
        omega
    -- There were at least as many attempts as are left, so none of the newest is missing.
    have enough : Nat.max 2 max / 2 ≤ (before ++ [a]).dedup.length := by
      rw [← half]
      exact (List.subperm_of_subset remembers.nodup fun b known =>
        List.mem_dedup.mpr (remembers.entered known)).length_le
    have kept := List.subperm_of_subset (newest_nodup _ _) newest
    refine ⟨(kept.perm_of_length_le ?_).symm, half⟩
    rw [half, newest_length, Nat.min_eq_left enough]

namespace CutDown

def attempt (id : Int) (seconds : Int) : Attempt := ⟨id, ⟨seconds, 0⟩⟩

def before : List Attempt := [attempt 1 50, attempt 2 10, attempt 1 50, attempt 3 40, attempt 4 20]

end CutDown

open CutDown in
theorem cut_down_to_newest_half :
    4 < ((after 4 before).members.insert (attempt 2 30)).length ∧
      (after 4 (before ++ [attempt 2 30])).members.Perm [attempt 1 50, attempt 3 40] := by
  have exceeds : 4 < ((after 4 before).members.insert (attempt 2 30)).length := by decide
  obtain ⟨-, -, -, -, -, cut⟩ := newest_half_remembered 4 (before ++ [attempt 2 30])
  exact ⟨exceeds, (cut before (attempt 2 30) rfl exceeds).1⟩

end VisitedSet
end IndexKeeper
