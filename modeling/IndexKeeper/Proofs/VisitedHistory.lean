import Mathlib.Data.List.Dedup
import Mathlib.Data.List.Induction
import Mathlib.Data.List.Perm.Subperm
import IndexKeeper.Proofs.Inspections
import IndexKeeper.Proofs.VisitedRoom

set_option autoImplicit false

namespace IndexKeeper

namespace VisitedSet

-- What a set still knows of all attempts ever entered into it: an attempt with few newer ones among
-- them is never trimmed away.
structure Remembers (s : VisitedSet) (past : List Attempt) : Prop where
  nodup : s.members.Nodup
  entered : s.members ⊆ past
  kept : ∀ a ∈ past, rank past.dedup a < s.max / 2 → s.contains a = true

theorem rank_le_of_subset {few many : List Attempt} (nodup : few.Nodup) (subset : few ⊆ many)
    (a : Attempt) : rank few a ≤ rank many a :=
  (List.subperm_of_subset nodup subset).countP_le _

theorem rank_dedup_append (past : List Attempt) (a b : Attempt) :
    rank past.dedup b ≤ rank (past ++ [a]).dedup b :=
  rank_le_of_subset past.nodup_dedup (fun c member => by simp_all) b

theorem remembers_empty (max : Nat) : (empty max).Remembers [] :=
  ⟨List.nodup_nil, fun _ member => member, fun _ member => nomatch member⟩

theorem remembers_insert (s : VisitedSet) (past : List Attempt) (a : Attempt)
    (remembers : s.Remembers past) : (s.insert a).Remembers (past ++ [a]) := by
  let grown := if s.contains a then s else { s with members := s.members ++ [a] }
  have max : grown.max = s.max := by
    dsimp only [grown]
    split <;> rfl
  have members : grown.members.Nodup ∧ grown.members ⊆ past ++ [a] ∧ a ∈ grown.members ∧
      s.members ⊆ grown.members := by
    have old : s.members ⊆ past ++ [a] := fun b member =>
      List.mem_append_left _ (remembers.entered member)
    cases known : s.contains a with
    | true =>
        simp only [grown, known, if_true]
        exact ⟨remembers.nodup, old, (s.contains_iff a).mp known, fun _ member => member⟩
    | false =>
        simp only [grown, known, Bool.false_eq_true, if_false]
        have fresh : a ∉ s.members := fun member => by
          rw [(s.contains_iff a).mpr member] at known
          cases known
        have apart : ∀ b ∈ s.members, b ≠ a := fun b member same => fresh (same ▸ member)
        exact ⟨List.nodup_append.mpr ⟨remembers.nodup, by simp, by simpa using apart⟩,
          List.append_subset.mpr ⟨old, by simp⟩, by simp, List.subset_append_left _ _⟩
  obtain ⟨nodup, entered, newest, keeps⟩ := members
  have there : ∀ b ∈ past ++ [a], rank (past ++ [a]).dedup b < s.max / 2 → b ∈ grown.members := by
    intro b member few
    rcases List.mem_append.mp member with old | same
    · exact keeps ((s.contains_iff b).mp
        (remembers.kept b old (Nat.lt_of_le_of_lt (rank_dedup_append past a b) few)))
    · rwa [List.mem_singleton.mp same]
  have insert_eq : s.insert a = if s.max < grown.members.length then grown.trim else grown := rfl
  rw [insert_eq]
  split
  · refine ⟨nodup.filter _, fun b member => entered (List.mem_filter.mp member).1, fun b member few => ?_⟩
    rw [show grown.trim.max = s.max from max] at few
    have rank_le : rank grown.members b ≤ rank (past ++ [a]).dedup b :=
      rank_le_of_subset nodup (fun c inside => List.mem_dedup.mpr (entered inside)) b
    rw [contains_iff, trim, max]
    exact List.mem_filter.mpr ⟨there b member few, by simpa using Nat.lt_of_le_of_lt rank_le few⟩
  · refine ⟨nodup, entered, fun b member few => ?_⟩
    rw [max] at few
    exact (grown.contains_iff b).mpr (there b member few)

theorem insert_max (s : VisitedSet) (a : Attempt) : (s.insert a).max = s.max := by
  unfold insert trim
  split <;> dsimp only <;> split <;> rfl

def after (max : Nat) (past : List Attempt) : VisitedSet := past.foldl insert (empty max)

theorem after_append (max : Nat) (past more : List Attempt) :
    after max (past ++ more) = more.foldl insert (after max past) := by
  simp [after]

theorem remembers_after (max : Nat) (past : List Attempt) :
    (after max past).Remembers past ∧ (after max past).max = Nat.max 2 max := by
  induction past using List.reverseRecOn with
  | nil => exact ⟨remembers_empty max, rfl⟩
  | append_singleton past a ih =>
      rw [after_append]
      exact ⟨remembers_insert _ past a ih.1, (insert_max _ a).trans ih.2⟩

end VisitedSet

inductive Act where
  | asked (question : Question)
  | entered (attempt : Attempt)
  | offered (attempt : Attempt)
deriving DecidableEq, Repr

namespace Act

-- To take up an attempt is to list the artifacts of a run of it, to download one, or to offer it.
def TakesUp (a : Attempt) : Act → Prop
  | asked question => ∃ run, question.run? = some run ∧ run.attempt = a
  | entered _ => False
  | offered b => b = a

def asked? : Act → Option Question
  | asked question => some question
  | _ => none

def entered? : Act → Option Attempt
  | entered a => some a
  | _ => none

def offered? : Act → Option Attempt
  | offered a => some a
  | _ => none

end Act

def entries (acts : List Act) : List Attempt := acts.filterMap Act.entered?

def Sight.acts (s : Sight) : List Act :=
  s.more.map .asked ++ (s.entered?.toList.map .entered ++ s.offered?.toList.map .offered)

namespace RunWatch

def pollActs (w : RunWatch) (existing : Option String) : List Act :=
  .asked (.runs w.rule.limit) :: (w.sights existing).flatMap Sight.acts

structure Recounts (w : RunWatch) (existing : Option String) (acts : List Act) : Prop where
  asked : acts.filterMap Act.asked? = (w.tryIngest existing).2.2
  entered : (entries acts).foldl VisitedSet.insert w.visited = (w.tryIngest existing).2.1.visited
  offered : acts.filterMap Act.offered? = (w.tryIngest existing).2.1.offered.toList

def confirmActs (w : RunWatch) : List Act := w.offered.toList.map .entered

-- Polls against whatever key is stored, and confirmations, in any order.
inductive Life (rule : RunRule) (max : Nat) : List Act → RunWatch → Prop where
  | started (p : Provider) : Life rule max [] (start rule p max)
  | answers {acts : List Act} {w : RunWatch} (p : Provider) (life : Life rule max acts w) :
      Life rule max acts { w with provider := p }
  | polled {acts : List Act} {w : RunWatch} (existing : Option String) (life : Life rule max acts w) :
      Life rule max (acts ++ w.pollActs existing) (w.tryIngest existing).2.1
  | confirmed {acts : List Act} {w : RunWatch} (life : Life rule max acts w) :
      Life rule max (acts ++ w.confirmActs) w.confirm

end RunWatch

theorem entries_append (acts more : List Act) : entries (acts ++ more) = entries acts ++ entries more :=
  List.filterMap_append

@[simp] theorem entries_asked (questions : List Question) : entries (questions.map .asked) = [] := by
  simp [entries, Act.entered?]

@[simp] theorem entries_offered (attempts : List Attempt) : entries (attempts.map .offered) = [] := by
  simp [entries, Act.entered?]

@[simp] theorem entries_entered (attempts : List Attempt) : entries (attempts.map .entered) = attempts := by
  simp [entries, List.filterMap_map, Function.comp_def, Act.entered?]

theorem entries_sight (s : Sight) : entries s.acts = s.entered?.toList := by
  simp [Sight.acts, entries_append]

theorem entries_sights (seen : List Sight) :
    entries (seen.flatMap Sight.acts) = seen.filterMap Sight.entered? := by
  rw [entries, List.filterMap_flatMap, List.filterMap_eq_flatMap_toList]
  exact List.flatMap_congr fun s _ => entries_sight s

theorem asked_sights (seen : List Sight) :
    (seen.flatMap Sight.acts).filterMap Act.asked? = seen.flatMap Sight.more := by
  rw [List.filterMap_flatMap]
  refine List.flatMap_congr fun s _ => ?_
  simp [Sight.acts, List.filterMap_map, Function.comp_def, Act.asked?]

theorem offered_sights (seen : List Sight) :
    (seen.flatMap Sight.acts).filterMap Act.offered? = seen.filterMap Sight.offered? := by
  rw [List.filterMap_flatMap, List.filterMap_eq_flatMap_toList]
  refine List.flatMap_congr fun s _ => ?_
  simp [Sight.acts, List.filterMap_map, Function.comp_def, Act.offered?]

theorem entries_poll (w : RunWatch) (existing : Option String) :
    entries (w.pollActs existing) = (w.sights existing).filterMap Sight.entered? :=
  entries_sights _

theorem sights_offer (rule : RunRule) (p : Provider) (existing : Option String) (visited : VisitedSet)
    (asked : List Question) (runs : List Run) :
    (sights rule p existing visited asked runs).filterMap Sight.offered? =
      (scan rule p existing visited asked runs).offered.toList := by
  refine scan_keeps rule p existing (fun _ _ _ done seen => seen.filterMap Sight.offered? = done.offered.toList)
    (fun _ _ => rfl) (fun s _ _ _ => ?_) (fun s _ done seen _ going rest => ?_) visited asked runs
  · cases offered : s.offered? <;> simp [Sight.ending, offered]
  · rw [List.filterMap_cons, offers_nothing s going]
    exact rest

theorem poll_recounted (w : RunWatch) (existing : Option String) :
    w.Recounts existing (w.pollActs existing) := by
  have accounted := poll_accounted w existing
  constructor
  · rw [RunWatch.pollActs, List.filterMap_cons, asked_sights]
    exact accounted.asked.symm
  · rw [entries_poll]
    exact accounted.visited.symm
  · rw [RunWatch.pollActs, List.filterMap_cons, offered_sights, RunWatch.sights, RunWatch.tryIngest, scanListed]
    cases w.provider.runs w.rule.limit with
    | gives runs => exact sights_offer w.rule w.provider existing w.visited _ runs
    | fails => rfl
    | hangs => rfl
    | cancels => rfl

theorem life_visited (rule : RunRule) (max : Nat) (acts : List Act) (w : RunWatch)
    (life : RunWatch.Life rule max acts w) : w.visited = VisitedSet.after max (entries acts) := by
  -- What the acts entered, in their order, makes the set.
  induction life with
  | started p => rfl
  | answers p life ih => exact ih
  | @polled acts w existing life ih =>
      rw [entries_append, VisitedSet.after_append, entries_poll, ← ih]
      exact (poll_accounted w existing).visited
  | @confirmed acts w life ih =>
      rw [entries_append, VisitedSet.after_append, RunWatch.confirmActs, entries_entered, ← ih,
        RunWatch.confirm]
      cases w.offered <;> rfl

def Heeds (max : Nat) : List Attempt → List Act → Prop
  | _, [] => True
  | past, act :: rest =>
      (∀ a ∈ past, VisitedSet.rank past.dedup a < Nat.max 2 max / 2 → ¬ act.TakesUp a) ∧
        Heeds max (past ++ act.entered?.toList) rest

theorem heeds_append (max : Nat) (past : List Attempt) (acts more : List Act) :
    Heeds max past (acts ++ more) ↔ Heeds max past acts ∧ Heeds max (past ++ entries acts) more := by
  induction acts generalizing past with
  | nil => simp [Heeds, entries]
  | cons act rest ih =>
      have entered : entries (act :: rest) = act.entered?.toList ++ entries rest := by
        cases first : act.entered? <;> simp [entries, first]
      rw [List.cons_append, Heeds, Heeds, ih, entered, and_assoc, List.append_assoc]

theorem heeds_at (max : Nat) (past : List Attempt) (acts before after : List Act) (act : Act)
    (heeds : Heeds max past acts) (split : acts = before ++ act :: after) :
    ∀ a ∈ past ++ entries before,
      VisitedSet.rank (past ++ entries before).dedup a < Nat.max 2 max / 2 → ¬ act.TakesUp a := by
  subst split
  exact ((heeds_append max past before (act :: after)).mp heeds).2.1

theorem heeds_idle (max : Nat) (past : List Attempt) (acts : List Act) (idle : entries acts = [])
    (heeds : ∀ act ∈ acts, ∀ a ∈ past,
      VisitedSet.rank past.dedup a < Nat.max 2 max / 2 → ¬ act.TakesUp a) : Heeds max past acts := by
  induction acts with
  | nil => trivial
  | cons act rest ih =>
      have none : act.entered? = none ∧ entries rest = [] := by
        cases entered : act.entered? <;> simp_all [entries]
      refine ⟨heeds act (by simp), ?_⟩
      rw [none.1]
      simpa using ih none.2 fun other member => heeds other (by simp [member])

theorem sight_heeds (rule : RunRule) (p : Provider) (existing : Option String) (max : Nat)
    (past : List Attempt) (asked more : List Question) (run : Run) (reply : Reply PollError Look)
    (looked : Looked rule p existing (VisitedSet.after max past) asked run reply more) :
    Heeds max past (Sight.mk run (VisitedSet.after max past) asked reply more).acts := by
  obtain ⟨remembers, most⟩ := VisitedSet.remembers_after max past
  have unknown : rule.passes (VisitedSet.after max past) run = false →
      ∀ a ∈ past, VisitedSet.rank past.dedup a < Nat.max 2 max / 2 → run.attempt ≠ a := by
    intro fresh a member few same
    have known := remembers.kept a member (by rwa [most])
    rw [← same] at known
    cases rule <;> simp [RunRule.passes, known] at fresh
  have asks : (∀ question ∈ more, question.run? = some run) →
      (more ≠ [] → rule.passes (VisitedSet.after max past) run = false) →
      Heeds max past (more.map .asked) := by
    intro own fresh
    refine heeds_idle max past _ (entries_asked _) fun act member a inside few taken => ?_
    obtain ⟨question, asked, rfl⟩ := List.mem_map.mp member
    obtain ⟨other, about, same⟩ := taken
    rw [own question asked, Option.some.injEq] at about
    exact unknown (fresh (List.ne_nil_of_mem asked)) a inside few (about ▸ same)
  rw [Sight.acts, heeds_append, entries_asked, List.append_nil]
  cases looked with
  | stopped early stored => exact ⟨trivial, trivial⟩
  | reached fresh stored => exact ⟨asks (by simp [Question.run?]) fun _ => fresh, trivial⟩
  | passed known => exact ⟨trivial, trivial⟩
  | inspected more fresh own listed =>
      refine ⟨asks own fun _ => fresh, ?_⟩
      cases rule.inspect p asked run with
      | gives found =>
          cases found with
          | none => exact ⟨fun _ _ _ taken => taken, trivial⟩
          | some bytes => exact ⟨unknown fresh, trivial⟩
      | fails => exact trivial
      | hangs => exact trivial
      | cancels => exact trivial

theorem scan_heeds (rule : RunRule) (p : Provider) (existing : Option String) (max : Nat)
    (past : List Attempt) (asked : List Question) (runs : List Run) :
    Heeds max past
      ((sights rule p existing (VisitedSet.after max past) asked runs).flatMap Sight.acts) := by
  have own (s : Sight) (past : List Attempt) (made : s.Made rule p existing)
      (visited : s.visited = VisitedSet.after max past) : Heeds max past s.acts := by
    obtain ⟨run, visited, asked, reply, more⟩ := s
    have visited : _ = VisitedSet.after max past := visited
    subst visited
    exact sight_heeds rule p existing max past asked more run reply (made_looked rule p existing _ made)
  refine scan_keeps rule p existing (fun visited _ _ _ seen => ∀ past, visited = VisitedSet.after max past →
    Heeds max past (seen.flatMap Sight.acts)) (fun _ _ _ _ => trivial) (fun s _ made _ past visited => ?_)
    (fun s _ _ seen made _ rest past visited => ?_) _ asked runs past rfl
  · rw [List.flatMap_singleton]
    exact own s past made visited
  · rw [List.flatMap_cons, heeds_append, entries_sight]
    exact ⟨own s past made visited, rest _ (by rw [VisitedSet.after_append, ← visited, Sight.left])⟩

theorem poll_heeds (w : RunWatch) (existing : Option String) (max : Nat) (past : List Attempt)
    (visited : w.visited = VisitedSet.after max past) : Heeds max past (w.pollActs existing) := by
  refine ⟨fun a _ _ ⟨run, about, _⟩ => by simp [Question.run?] at about, ?_⟩
  have none : (Act.asked (.runs w.rule.limit)).entered? = none := rfl
  rw [RunWatch.sights, visited, none, Option.toList_none, List.append_nil]
  cases w.provider.runs w.rule.limit with
  | gives runs => exact scan_heeds w.rule w.provider existing max past _ runs
  | fails => exact trivial
  | hangs => exact trivial
  | cancels => exact trivial

theorem life_heeds (rule : RunRule) (max : Nat) (acts : List Act) (w : RunWatch)
    (life : RunWatch.Life rule max acts w) : Heeds max [] acts := by
  induction life with
  | started p => trivial
  | answers p life ih => exact ih
  | @polled acts w existing life ih =>
      rw [heeds_append, List.nil_append]
      exact ⟨ih, poll_heeds w existing max _ (life_visited rule max acts w life)⟩
  | @confirmed acts w life ih =>
      rw [heeds_append, List.nil_append, RunWatch.confirmActs]
      refine ⟨ih, ?_⟩
      cases w.offered with
      | none => exact trivial
      | some a => exact ⟨fun _ _ _ taken => taken, trivial⟩

theorem takes_up_of_asked (w : RunWatch) (existing : Option String) (question : Question) (run : Run)
    (asked : question ∈ (w.tryIngest existing).2.2) (about : question.run? = some run) :
    ∃ act ∈ w.pollActs existing, act.TakesUp run.attempt := by
  rw [← (poll_recounted w existing).asked] at asked
  obtain ⟨act, member, same⟩ := List.mem_filterMap.mp asked
  cases act with
  | asked other =>
      obtain rfl := Option.some.inj same
      exact ⟨_, member, run, about, rfl⟩
  | entered _ => cases same
  | offered _ => cases same

theorem takes_up_of_offered (w : RunWatch) (existing : Option String) (a : Attempt)
    (offered : (w.tryIngest existing).2.1.offered = some a) : ∃ act ∈ w.pollActs existing, act.TakesUp a := by
  have told := (poll_recounted w existing).offered
  rw [offered] at told
  have member : a ∈ (w.pollActs existing).filterMap Act.offered? := told ▸ List.mem_singleton_self a
  obtain ⟨act, member, same⟩ := List.mem_filterMap.mp member
  cases act with
  | asked _ => cases same
  | entered _ => cases same
  | offered other => exact ⟨_, member, Option.some.inj same⟩

theorem entered_attempt_is_left (rule : RunRule) (max : Nat) (acts : List Act) (w : RunWatch)
    (life : RunWatch.Life rule max acts w) :
    (∀ before act after a, acts = before ++ act :: after → a ∈ entries before →
      VisitedSet.rank (entries before).dedup a < Nat.max 2 max / 2 → ¬ act.TakesUp a) ∧
    ∀ existing, w.Recounts existing (w.pollActs existing) ∧
      ∀ a ∈ entries acts,
        VisitedSet.rank (entries (acts ++ w.pollActs existing)).dedup a < Nat.max 2 max / 2 →
          (∀ question ∈ (w.tryIngest existing).2.2, ∀ run, question.run? = some run → run.attempt ≠ a) ∧
          (w.tryIngest existing).2.1.offered ≠ some a := by
  have left (acts : List Act) (w : RunWatch) (life : RunWatch.Life rule max acts w) (before : List Act) (act : Act)
      (after : List Act) (a : Attempt) (split : acts = before ++ act :: after) (entered : a ∈ entries before)
      (few : VisitedSet.rank (entries before).dedup a < Nat.max 2 max / 2) : ¬ act.TakesUp a :=
    heeds_at max [] acts before after act (life_heeds rule max acts w life) split a entered few
  refine ⟨left acts w life, fun existing => ⟨poll_recounted w existing, fun a entered few => ?_⟩⟩
  -- No more attempts were entered when something is done than at the end of the poll.
  have untaken : ¬ ∃ act ∈ w.pollActs existing, act.TakesUp a := by
    rintro ⟨act, member, taken⟩
    obtain ⟨before, after, split⟩ := List.append_of_mem member
    have sofar : (entries (acts ++ before)).dedup ⊆ (entries (acts ++ w.pollActs existing)).dedup := by
      intro other
      rw [split, List.mem_dedup, List.mem_dedup, ← List.append_assoc, entries_append (acts ++ before)]
      exact List.mem_append_left _
    refine left _ _ (.polled existing life) (acts ++ before) act after a (by rw [split, List.append_assoc])
      (by rw [entries_append]; exact List.mem_append_left _ entered) ?_ taken
    exact Nat.lt_of_le_of_lt (VisitedSet.rank_le_of_subset (List.nodup_dedup _) sofar a) few
  refine ⟨fun question asked run about same => untaken ?_, fun offered => untaken ?_⟩
  · exact same ▸ takes_up_of_asked w existing question run asked about
  · exact takes_up_of_offered w existing a offered

namespace BarrenRuns

def rule : RunRule := .workflow "complog" "build.complog"

def run (id : Int) : Run := ⟨⟨id, Instant.ofNanos id⟩, false⟩

def provider (ids : List Int) : Provider where
  runs _ := .gives (ids.map run)
  artifacts _ _ := .gives []
  download _ _ _ := .hangs

def first : RunWatch := RunWatch.start rule (provider [2, 1]) 6

def second : RunWatch := { (first.tryIngest none).2.1 with provider := provider [3, 2, 1] }

theorem life : RunWatch.Life rule 6 (first.pollActs none) second :=
  have once : RunWatch.Life rule 6 ([] ++ first.pollActs none) (first.tryIngest none).2.1 :=
    .polled none (.started (provider [2, 1]))
  .answers (provider [3, 2, 1]) once

end BarrenRuns

open BarrenRuns in
theorem barren_run_is_left :
    (run 1).attempt ∈ entries (first.pollActs none) ∧
      VisitedSet.rank (entries (first.pollActs none ++ second.pollActs none)).dedup (run 1).attempt <
        Nat.max 2 6 / 2 ∧
      (second.tryIngest none).2.2 = [.runs 50, .artifacts (run 3)] ∧
      (∀ question ∈ (second.tryIngest none).2.2, ∀ other, question.run? = some other →
        other.attempt ≠ (run 1).attempt) ∧
      (second.tryIngest none).2.1.offered ≠ some (run 1).attempt :=
  have entered : (run 1).attempt ∈ entries (first.pollActs none) := by decide +kernel
  have few : VisitedSet.rank (entries (first.pollActs none ++ second.pollActs none)).dedup (run 1).attempt <
      Nat.max 2 6 / 2 := by decide +kernel
  ⟨entered, few, by decide +kernel, ((entered_attempt_is_left rule 6 _ second life).2 none).2 _ entered few⟩

end IndexKeeper
