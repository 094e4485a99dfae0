import Mathlib.Data.List.Dedup
import Mathlib.Data.List.Perm.Subperm
import IndexKeeper.Proofs.ReachedRuns
import IndexKeeper.Proofs.ScanOrder

set_option autoImplicit false

namespace IndexKeeper

namespace VisitedSet

-- The set, whose members are distinct as insertions leave them, has room for what is still to be entered.
structure Fits (s : VisitedSet) (entered : List Attempt) : Prop where
  distinct : s.members.Nodup
  room : (s.members ++ entered).dedup.length ≤ s.max

theorem length_le_of_fits (s : VisitedSet) (entered held : List Attempt) (fits : s.Fits entered) (distinct : held.Nodup)
    (within : held ⊆ s.members ++ entered) : held.length ≤ s.max :=
  Nat.le_trans (distinct.subperm fun _ member => List.mem_dedup.mpr (within member)).length_le fits.room

theorem insert_of_fits (s : VisitedSet) (a : Attempt) (rest : List Attempt) (fits : s.Fits (a :: rest)) :
    (s.insert a).Fits rest ∧ ∀ b, (s.insert a).contains b = true ↔ b = a ∨ s.contains b = true := by
  cases known : s.contains a with
  | true =>
      rw [insert_known s a known (length_le_of_fits s _ _ fits fits.distinct (List.subset_append_left _ _))]
      refine ⟨⟨fits.distinct, length_le_of_fits s _ _ fits (List.nodup_dedup _) fun b member => ?_⟩,
        fun b => ⟨.inr, ?_⟩⟩
      · have := List.mem_dedup.mp member
        simp only [List.mem_append, List.mem_cons] at this ⊢
        tauto
      · rintro (rfl | old)
        · exact known
        · exact old
  | false =>
      have fresh : a ∉ s.members :=
        fun member => Bool.false_ne_true (known.symm.trans ((s.contains_iff a).mpr member))
      have distinct : (s.members ++ [a]).Nodup := by
        rw [← List.concat_eq_append]
        exact fits.distinct.concat fresh
      have held := length_le_of_fits s _ _ fits distinct (by simp)
      rw [insert_fresh s a known (by simpa using held)]
      exact ⟨⟨distinct, by simpa using fits.room⟩, by simp [contains_iff, or_comm]⟩

theorem contains_foldl_of_fits (s : VisitedSet) (entered : List Attempt) (fits : s.Fits entered) (a : Attempt) :
    (entered.foldl insert s).contains a = true ↔ a ∈ entered ∨ s.contains a = true := by
  induction entered generalizing s with
  | nil => simp
  | cons b rest ih =>
      obtain ⟨next, contains⟩ := s.insert_of_fits b rest fits
      rw [List.foldl_cons, ih (s.insert b) next, contains a, List.mem_cons]
      tauto

end VisitedSet

section Resumed

variable (rule : RunRule) (p : Provider) (existing : Option String)

theorem through_passed (visited : VisitedSet) (asked : List Question) (runs : List Run)
    (others : ∀ run ∈ runs, ¬ (rule.stopsEarly = true ∧ existing = some (rule.key run)))
    (known : ∀ run ∈ runs, rule.passes visited run = true) :
    rule.through p existing visited asked runs = some (visited, asked) := by
  induction runs with
  | nil => rfl
  | cons run rest ih =>
      have here : look rule p existing visited asked run = (.gives .passed, asked) := by
        rw [look, if_neg (others run List.mem_cons_self), if_pos (known run List.mem_cons_self)]
      rw [RunRule.through, here]
      exact ih (fun other member => others other (List.mem_cons_of_mem _ member))
        fun other member => known other (List.mem_cons_of_mem _ member)

theorem broken_going (s : Sight) (made : s.Made rule p existing) (broken : ∀ found, s.reply ≠ .gives found) :
    ¬ s.Stored rule existing ∧ rule.passes s.visited s.run = false := by
  cases made_outcomes rule p existing s made with
  | stored _ reply => exact absurd reply (broken _)
  | passed _ _ reply => exact absurd reply (broken _)
  | reached _ _ _ reply => exact absurd reply (broken _)
  | inspected _ _ _ reply => exact absurd reply (broken _)
  | broken going fresh => exact ⟨going, fresh⟩

theorem about_run (s : Sight) (made : s.Made rule p existing) (question : Question) (asks : question ∈ s.more) :
    question.run? = some s.run := by
  by_cases going : s.Stored rule existing
  · rw [(of_stored rule p existing s made going).2] at asks
    cases asks
  · cases known : rule.passes s.visited s.run with
    | true =>
        rw [more_of_passes rule p existing s made known] at asks
        cases asks
    | false =>
        obtain ⟨more, listed, own⟩ := asks_of_fresh rule p existing s made going known
        rw [listed] at asks
        rcases List.mem_cons.mp asks with rfl | later
        · rfl
        · obtain ⟨a, rfl⟩ := own question later
          rfl

theorem sight_listed (visited : VisitedSet) (asked : List Question) (runs : List Run) (s : Sight)
    (looked : s ∈ sights rule p existing visited asked runs) : s.run ∈ runs := by
  have within := List.mem_map_of_mem (f := Sight.run) looked
  rcases sights_end rule p existing visited asked runs with ⟨-, all, -⟩ | ⟨earlier, last, rest, split, -, -, order, -⟩
  · rwa [all] at within
  · rw [order]
    rw [split] at within
    simp only [List.map_append, List.mem_append, List.map_cons, List.mem_cons] at within ⊢
    tauto

theorem scan_resumed (visited : VisitedSet) (asked : List Question) (before after : List Run) (run : Run)
    (others : ∀ old ∈ before, ¬ (rule.stopsEarly = true ∧ existing = some (rule.key old)))
    (known : ∀ old ∈ before, rule.passes visited old = true)
    (going : ¬ (rule.stopsEarly = true ∧ existing = some (rule.key run))) (fresh : rule.passes visited run = false) :
    let done := scan rule p existing visited asked (before ++ run :: after)
    (∃ more, done.asked = asked ++ .artifacts run :: more ∧
        ∀ question ∈ more, ∃ other ∈ run :: after, question.run? = some other) ∧
      ∀ bytes, rule.inspect p asked run = .gives (some bytes) → existing ≠ some (rule.key run) →
        done.reply = .gives (.changed (rule.key run) bytes) ∧ done.offered = some run.attempt := by
  intro done
  have resumed : done = scan rule p existing visited asked (run :: after) :=
    rule.scan_after_through p existing visited asked before (run :: after) (visited, asked)
      (through_passed rule p existing visited asked before others known)
  rw [resumed]
  constructor
  · have made := (sights_threaded rule p existing visited asked (run :: after)).2
    have accounted := scan_accounted rule p existing visited asked (run :: after)
    have about (s : Sight) (looked : s ∈ sights rule p existing visited asked (run :: after)) (question : Question)
        (asks : question ∈ s.more) : ∃ other ∈ run :: after, question.run? = some other :=
      ⟨s.run, sight_listed rule p existing visited asked _ s looked, about_run rule p existing s (made s looked) _ asks⟩
    obtain ⟨first, rfl, rfl, rfl, here⟩ := made_sight rule p existing visited asked run
    obtain ⟨more, listed, -⟩ := asks_of_fresh rule p existing first here going fresh
    obtain ⟨later, split⟩ : ∃ later, sights rule p existing first.visited first.asked (first.run :: after) =
        first :: later := by
      rcases scan_step rule p existing first here after with ⟨-, -, same⟩ | ⟨-, -, same⟩
      · exact ⟨_, same⟩
      · exact ⟨[], same⟩
    refine ⟨more ++ later.flatMap Sight.more, ?_, fun question asks => ?_⟩
    · rw [accounted.asked, split, List.flatMap_cons, listed, List.cons_append]
    · rcases List.mem_append.mp asks with own | asks
      · exact about first (by simp [split]) question (by simp [listed, own])
      · obtain ⟨s, looked, own⟩ := List.mem_flatMap.mp asks
        exact about s (by simp [split, looked]) question own
  · intro bytes yields other
    have found := rule.look_other p existing visited asked run other fresh
    rw [yields] at found
    exact rule.scan_found p existing visited asked run after _ bytes found

theorem passes_afterwards (visited : VisitedSet) (asked : List Question) (before later : List Sight) (e : Sight)
    (threaded : Threaded visited asked (before ++ e :: later)) (made : e.Made rule p existing) (going : e.GoesOn)
    (fits : visited.Fits ((before ++ e :: later).filterMap Sight.entered?)) :
    rule.passes (((before ++ e :: later).filterMap Sight.entered?).foldl VisitedSet.insert visited) e.run = true := by
  obtain ⟨onward, known | barren⟩ := (goes_on_iff rule p existing e made).mp going
  · refine (passes_iff ..).mpr (((passes_iff ..).mp known).imp_right fun remembered => ?_)
    rw [(threaded before e later rfl).1] at remembered
    rw [visited.contains_foldl_of_fits _ fits, List.filterMap_append]
    exact (visited.of_contains_foldl _ _ remembered).imp_left (List.mem_append_left _)
  · have entered := (entered_iff rule p existing e made _).mpr ⟨rfl, onward, barren⟩
    refine (passes_iff ..).mpr (.inr ((visited.contains_foldl_of_fits _ fits _).mpr (.inl ?_)))
    exact List.mem_filterMap.mpr ⟨e, by simp, entered⟩

end Resumed

theorem reply_not_given (s : Sight) (broken : ∀ outcome, s.outcome ≠ .gives outcome) (look : Look) :
    s.reply ≠ .gives look := by
  intro reply
  unfold Sight.outcome at broken
  rw [reply] at broken
  cases look with
  | found key bytes => exact broken _ rfl
  | _ => exact broken _ rfl

theorem entered_of_broken (s : Sight) (broken : ∀ look, s.reply ≠ .gives look) : s.entered? = none := by
  unfold Sight.entered?
  split
  · next barren => exact absurd barren (broken _)
  · rfl

def RunWatch.afterPoll (w : RunWatch) (existing : Option String) (p : Provider) : RunWatch :=
  { (w.tryIngest existing).2.1 with provider := p }

theorem broken_poll_is_resumed (w : RunWatch) (existing : Option String) (runs : List Run)
    (listed : w.provider.runs w.rule.limit = .gives runs) (distinct : (runs.map Run.attempt).Nodup)
    (broken : ∀ outcome, (w.tryIngest existing).1 ≠ .gives outcome)
    (fits : w.visited.Fits ((w.sights existing).filterMap Sight.entered?)) :
    ∃ earlier s after, w.sights existing = earlier ++ [s] ∧ runs = earlier.map Sight.run ++ s.run :: after ∧
      (∀ found, s.reply ≠ .gives found) ∧
      ∀ p : Provider, p.runs w.rule.limit = .gives runs →
        (∃ more, ((w.afterPoll existing p).tryIngest existing).2.2 =
            .runs w.rule.limit :: .artifacts s.run :: more ∧
          ∀ question ∈ more, ∀ e ∈ earlier, question.run? ≠ some e.run) ∧
        ∀ bytes, w.rule.inspect p [.runs w.rule.limit] s.run = .gives (some bytes) →
          existing ≠ some (w.rule.key s.run) →
            ((w.afterPoll existing p).tryIngest existing).1 = .gives (.changed (w.rule.key s.run) bytes) ∧
              ((w.afterPoll existing p).tryIngest existing).2.1.offered = some s.run.attempt := by
  obtain ⟨threaded, made⟩ := poll_threaded w existing runs listed
  have visited : (w.tryIngest existing).2.1.visited = _ := (poll_accounted w existing).visited
  rcases poll_end w existing runs listed with
    ⟨-, -, unchanged⟩ | ⟨earlier, s, after, split, going, -, order, outcome⟩
  · exact absurd unchanged (broken _)
  · rw [split] at threaded made visited fits
    have failed := reply_not_given s (by rwa [outcome] at broken)
    refine ⟨earlier, s, after, split, order, failed, fun p again => ?_⟩
    have others (e : Sight) (member : e ∈ earlier) : ¬ e.Stored w.rule existing :=
      ((goes_on_iff w.rule w.provider existing e (made e (List.mem_append_left _ member))).mp (going e member)).1
    have known (e : Sight) (member : e ∈ earlier) : w.rule.passes (w.tryIngest existing).2.1.visited e.run = true := by
      have here := made e (List.mem_append_left _ member)
      obtain ⟨before, later, rfl⟩ := List.append_of_mem member
      rw [List.append_assoc, List.cons_append] at threaded fits visited
      rw [visited]
      exact passes_afterwards w.rule w.provider existing w.visited _ before (later ++ [s]) e threaded here
        (going e member) fits
    obtain ⟨onward, fresh⟩ := broken_going w.rule w.provider existing s (made s (by simp)) failed
    have idle := entered_of_broken s failed
    have here : s.visited = (w.tryIngest existing).2.1.visited := by
      rw [visited, (threaded earlier s [] rfl).1]
      simp [idle]
    rw [here] at fresh
    obtain ⟨⟨more, asked, about⟩, offers⟩ := scan_resumed w.rule p existing _ [.runs w.rule.limit]
      (earlier.map Sight.run) after s.run (List.forall_mem_map.mpr others) (List.forall_mem_map.mpr known) onward fresh
    rw [← order] at asked offers
    have resumed := (poll_listed (w.afterPoll existing p) existing runs again).2
    refine ⟨⟨more, (congrArg ScanEnd.asked resumed).trans asked, fun question asks e member same => ?_⟩,
      fun bytes yields other => ?_⟩
    · obtain ⟨run, later, own⟩ := about question asks
      obtain rfl : run = e.run := Option.some.inj (own.symm.trans same)
      rw [order, List.map_append, List.nodup_append] at distinct
      exact distinct.2.2 _ (List.mem_map_of_mem (List.mem_map_of_mem member)) _ (List.mem_map_of_mem later) rfl
    · obtain ⟨reply, offered⟩ := offers bytes yields other
      exact ⟨(congrArg ScanEnd.reply resumed).trans reply, (congrArg ScanEnd.offered resumed).trans offered⟩

namespace FailedDownload

def rule : RunRule := .workflow "complog" "build.complog"

def run (id : Int) (pullRequest : Bool) : Run := ⟨⟨id, Instant.ofNanos id⟩, pullRequest⟩

def runs : List Run := [run 5 true, run 4 false, run 3 false, run 2 false, run 1 false]

def archive : Bytes := Archive.pack [{ name := "build.complog", data := Bytes.ofText "2" }]

def provider (download : Reply ProviderError Bytes) : Provider where
  runs _ := .gives runs
  artifacts _ run := .gives (if run.attempt.id = 3 then [] else [⟨none, "complog"⟩])
  download _ _ _ := download

def watch : RunWatch := ⟨rule, provider (.fails .connection), ⟨2, [(run 4 false).attempt]⟩, none⟩

def mended : RunWatch := watch.afterPoll none (provider (.gives archive))

end FailedDownload

open FailedDownload in
theorem failed_download_is_resumed :
    watch.provider.runs watch.rule.limit = .gives runs ∧ (runs.map Run.attempt).Nodup ∧
      (∀ outcome, (watch.tryIngest none).1 ≠ .gives outcome) ∧
      watch.visited.Fits ((watch.sights none).filterMap Sight.entered?) ∧
      (mended.tryIngest none).1 = .gives (.changed "2" (Bytes.ofText "2")) ∧
      ∃ earlier s after, watch.sights none = earlier ++ [s] ∧ runs = earlier.map Sight.run ++ s.run :: after ∧
        (∀ found, s.reply ≠ .gives found) ∧
        ∃ more, (mended.tryIngest none).2.2 = .runs 50 :: .artifacts s.run :: more ∧
          ∀ question ∈ more, ∀ e ∈ earlier, question.run? ≠ some e.run := by
  have distinct : (runs.map Run.attempt).Nodup := by decide +kernel
  have failed : (watch.tryIngest none).1 = .fails (.provider .connection) := by decide +kernel
  have broken (outcome : Outcome) : (watch.tryIngest none).1 ≠ .gives outcome := by
    rw [failed]
    nofun
  have fits : watch.visited.Fits ((watch.sights none).filterMap Sight.entered?) :=
    ⟨by decide +kernel, by decide +kernel⟩
  obtain ⟨earlier, s, after, looked, order, failed, resumed⟩ :=
    broken_poll_is_resumed watch none runs rfl distinct broken fits
  exact ⟨rfl, distinct, broken, fits, by decide +kernel, earlier, s, after, looked, order, failed,
    (resumed (provider (.gives archive)) rfl).1⟩

end IndexKeeper
