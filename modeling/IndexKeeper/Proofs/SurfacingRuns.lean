import IndexKeeper.Proofs.ScanOrder

set_option autoImplicit false

namespace IndexKeeper

namespace RunRule

variable (rule : RunRule) (early : rule.stopsEarly = true) (p : Provider) (existing : Option String)
  (visited : VisitedSet) (asked : List Question)

theorem look_unstored (run : Run) (other : existing ≠ some (rule.key run)) :
    look rule p existing visited asked run = look rule p none visited asked run := by
  simp [look, other]

theorem through_unstored (runs : List Run) (others : ∀ run ∈ runs, existing ≠ some (rule.key run)) :
    rule.through p existing visited asked runs = rule.through p none visited asked runs := by
  induction runs generalizing visited asked with
  | nil => rfl
  | cons run rest ih =>
      obtain ⟨s, rfl, rfl, rfl, made⟩ := made_sight rule p existing visited asked run
      have unstored : s.Made rule p none :=
        (rule.look_unstored p existing s.visited s.asked s.run (others s.run List.mem_cons_self)).symm.trans made
      by_cases going : s.GoesOn
      · rw [rule.through_onward p existing s made going, rule.through_onward p none s unstored going]
        exact ih s.left (s.asked ++ s.more) fun other member => others other (List.mem_cons_of_mem _ member)
      · rw [rule.through_stops p existing s made going, rule.through_stops p none s unstored going]

include early

theorem look_stored (run : Run) (same : existing = some (rule.key run)) :
    look rule p existing visited asked run = (.gives .reached, asked) := by
  simp [look, early, same]

theorem through_others (runs : List Run) (left : VisitedSet × List Question)
    (gone : rule.through p existing visited asked runs = some left) (run : Run) (listed : run ∈ runs) :
    existing ≠ some (rule.key run) := by
  intro same
  obtain ⟨before, after, rfl⟩ := List.append_of_mem listed
  rw [through_append] at gone
  obtain ⟨mid, -, gone⟩ := Option.bind_eq_some_iff.mp gone
  rw [through, rule.look_stored early p existing mid.1 mid.2 run same] at gone
  cases gone

theorem look_finds_iff (run : Run) (key : String) (bytes : Bytes) :
    (look rule p existing visited asked run).1 = .gives (.found key bytes) ↔
      existing ≠ some (rule.key run) ∧ visited.contains run.attempt = false ∧
        rule.inspect p asked run = .gives (some bytes) ∧ key = rule.key run := by
  constructor
  · intro found
    obtain ⟨more, -, looked⟩ := look_looked rule p existing visited asked run
    have other : existing ≠ some (rule.key run) := fun same => by
      rw [rule.look_stored early p existing visited asked run same] at found
      cases found
    have fresh : visited.contains run.attempt = false := by
      cases known : visited.contains run.attempt with
      | false => rfl
      | true =>
          have passes := (rule.passes_early early visited run).trans known
          rcases (looked_remembered looked passes).1 with reached | passed
          · cases found.symm.trans reached
          · cases found.symm.trans passed
    obtain ⟨inspected, named, -⟩ := looked_found looked found
    exact ⟨other, fresh, inspected, named⟩
  · rintro ⟨other, fresh, inspected, rfl⟩
    rw [rule.look_other p existing visited asked run other ((rule.passes_early early visited run).trans fresh),
      inspected]
    rfl

theorem scan_takes_iff (runs : List Run) (key : String) (bytes : Bytes) (a : Attempt) :
    ((scan rule p existing visited asked runs).reply = .gives (.changed key bytes) ∧
        (scan rule p existing visited asked runs).offered = some a) ↔
      ∃ before run after left, runs = before ++ run :: after ∧
        (∀ other ∈ before ++ [run], existing ≠ some (rule.key other)) ∧
        rule.through p none visited asked before = some left ∧ left.1.contains run.attempt = false ∧
        rule.inspect p left.2 run = .gives (some bytes) ∧ key = rule.key run ∧ a = run.attempt := by
  constructor
  · rintro ⟨changed, offered⟩
    rcases rule.scan_ends p existing visited asked runs with
      ⟨left, gone⟩ | ⟨before, run, after, left, rfl, gone, notPassed, notBarren⟩
    · rw [← List.append_nil runs, rule.scan_after_through p existing visited asked runs [] left gone] at changed
      cases changed
    · rw [rule.scan_after_through p existing visited asked before (run :: after) left gone] at changed offered
      have others := rule.through_others early p existing visited asked before left gone
      have found := (rule.scan_decided p existing left.1 left.2 run after key bytes notPassed notBarren).mp changed
      obtain ⟨apart, fresh, inspected, named⟩ :=
        (rule.look_finds_iff early p existing left.1 left.2 run key bytes).mp found
      have taken := (rule.scan_found p existing left.1 left.2 run after key bytes found).2
      refine ⟨before, run, after, left, rfl, fun other member => ?_, ?_, fresh, inspected, named,
        Option.some.inj (offered.symm.trans taken)⟩
      · rcases List.mem_append.mp member with earlier | here
        · exact others other earlier
        · exact List.mem_singleton.mp here ▸ apart
      · rw [← rule.through_unstored p existing visited asked before others]
        exact gone
  · rintro ⟨before, run, after, left, rfl, apart, gone, fresh, inspected, rfl, rfl⟩
    have others (other : Run) (member : other ∈ before) := apart other (List.mem_append_left _ member)
    rw [← rule.through_unstored p existing visited asked before others] at gone
    have found := (rule.look_finds_iff early p existing left.1 left.2 run (rule.key run) bytes).mpr
      ⟨apart run (by simp), fresh, inspected, rfl⟩
    rw [rule.scan_after_through p existing visited asked before (run :: after) left gone]
    exact rule.scan_found p existing left.1 left.2 run after (rule.key run) bytes found

end RunRule

namespace Turn

variable (turn : Turn) (name : String)

def taken? : Option Attempt :=
  match (turn.ingestion name).reply with
  | .gives true => (turn.done name).offered
  | _ => none

def Surfaces (stored : Attempt) : Prop :=
  ∃ before run after left bytes, turn.watch.provider.runs turn.watch.rule.limit = .gives (before ++ run :: after) ∧
    run.attempt.finishedAt.before stored.finishedAt = true ∧
    (∀ other ∈ before ++ [run], other.attempt.id ≠ stored.id) ∧
    turn.watch.rule.through turn.watch.provider none turn.watch.visited [.runs turn.watch.rule.limit] before =
      some left ∧
    left.1.contains run.attempt = false ∧
    turn.watch.rule.inspect turn.watch.provider left.2 run = .gives (some bytes)

end Turn

section Turn

variable (turn : Turn) (name : String)

theorem changed_done (key : String) (bytes : Bytes) (changed : (turn.done name).reply = .gives (.changed key bytes)) :
    (turn.ingestion name).reply = .gives true ∨ ∃ e, (turn.ingestion name).reply = .fails (.store e) := by
  have polled : (Source.tryIngest ⟨name, .runs turn.watch⟩ turn.disk.files (turn.existing name)).1 =
    .gives (.changed key bytes) := changed
  unfold Turn.ingestion Coordinator.ingestIfChanged
  dsimp only
  rw [show turn.coordinator.versionKey? name = turn.existing name from rfl]
  generalize Source.tryIngest ⟨name, .runs turn.watch⟩ turn.disk.files (turn.existing name) = answer at polled ⊢
  obtain ⟨reply, source, asked⟩ := answer
  obtain rfl := polled
  dsimp only
  split
  · next e _ _ _ => exact .inr ⟨e, rfl⟩
  · exact .inl rfl

theorem done_listed (key : String) (bytes : Bytes) (changed : (turn.done name).reply = .gives (.changed key bytes)) :
    ∃ runs, turn.watch.provider.runs turn.watch.rule.limit = .gives runs ∧
      turn.done name = scan turn.watch.rule turn.watch.provider (turn.existing name) turn.watch.visited
        [.runs turn.watch.rule.limit] runs := by
  unfold Turn.done scanListed at changed ⊢
  cases listing : turn.watch.provider.runs turn.watch.rule.limit with
  | gives runs => exact ⟨runs, rfl, rfl⟩
  | fails e => rw [listing] at changed; cases changed
  | hangs => rw [listing] at changed; cases changed
  | cancels => rw [listing] at changed; cases changed

theorem taken_iff (stores : ∀ e, (turn.ingestion name).reply ≠ .fails (.store e)) (a : Attempt) :
    turn.taken? name = some a ↔
      ∃ key bytes, (turn.done name).reply = .gives (.changed key bytes) ∧ (turn.done name).offered = some a := by
  unfold Turn.taken?
  constructor
  · intro taken
    split at taken
    · next reply =>
        obtain ⟨key, bytes, changed, -⟩ := ingest_changed turn.coordinator turn.disk ⟨name, .runs turn.watch⟩ reply
        exact ⟨key, bytes, changed, taken⟩
    · cases taken
  · rintro ⟨key, bytes, changed, offered⟩
    rcases changed_done turn name key bytes changed with reply | ⟨e, failed⟩
    · rw [reply]
      exact offered
    · exact absurd failed (stores e)

theorem stored_offered (stored : (turn.ingestion name).reply = .gives true) :
    ∃ run, (turn.done name).offered = some run.attempt ∧
      (turn.ingestion name).coordinator.versionKey? name = some (turn.watch.rule.key run) := by
  obtain ⟨key, bytes, changed, known, -⟩ := ingest_changed turn.coordinator turn.disk ⟨name, .runs turn.watch⟩ stored
  obtain ⟨runs, -, done⟩ := done_listed turn name key bytes changed
  have found : (turn.done name).reply = .gives (.changed key bytes) := changed
  rw [done] at found ⊢
  obtain ⟨run, -, offered, rfl⟩ := RunRule.scan_offers _ _ _ _ _ runs key bytes found
  exact ⟨run, offered, known⟩

theorem ingest_kept (c : Coordinator) (d : Disk) (s : Source) (kept : (c.ingestIfChanged d s).reply ≠ .gives true) :
    (c.ingestIfChanged d s).coordinator = c := by
  unfold Coordinator.ingestIfChanged at kept ⊢
  generalize s.tryIngest d.files (c.versionKey? s.name) = answer at kept ⊢
  obtain ⟨reply, next, asked⟩ := answer
  cases reply with
  | gives outcome =>
      cases outcome with
      | unchanged => rfl
      | changed key bytes =>
          dsimp only at kept ⊢
          rcases record_cases c d next.name key bytes with ⟨e, after, -, done⟩ | ⟨after, -, done⟩
          · rw [done]
          · rw [done] at kept
            exact absurd rfl kept
  | fails => rfl
  | hangs => rfl
  | cancels => rfl

theorem key_after : (turn.ingestion name).coordinator.versionKey? name =
    ((turn.taken? name).map fun a => turn.watch.rule.key ⟨a, false⟩).or (turn.existing name) := by
  by_cases stored : (turn.ingestion name).reply = .gives true
  · obtain ⟨run, offered, known⟩ := stored_offered turn name stored
    have taken : turn.taken? name = some run.attempt := by
      rw [Turn.taken?, stored]
      exact offered
    rw [known, taken]
    exact congrArg some (turn.watch.rule.key_attempt ⟨run.attempt, false⟩ run rfl)
  · have none : turn.taken? name = none := by
      unfold Turn.taken?
      split
      · next reply => exact absurd reply stored
      · rfl
    rw [none]
    exact congrArg (·.versionKey? name) (ingest_kept turn.coordinator turn.disk _ stored)

theorem takes_older_iff (early : turn.watch.rule.stopsEarly = true) (stored : Attempt)
    (known : turn.existing name = some (turn.watch.rule.key ⟨stored, false⟩))
    (stores : ∀ e, (turn.ingestion name).reply ≠ .fails (.store e)) :
    (∃ a, turn.taken? name = some a ∧ a.finishedAt.before stored.finishedAt = true) ↔ turn.Surfaces stored := by
  have apart (run : Run) : turn.existing name ≠ some (turn.watch.rule.key run) ↔ run.attempt.id ≠ stored.id := by
    rw [known, ne_eq, Option.some_inj, RunRule.key_iff]
    exact not_congr eq_comm
  constructor
  · rintro ⟨a, taken, older⟩
    obtain ⟨key, bytes, changed, offered⟩ := (taken_iff turn name stores a).mp taken
    obtain ⟨runs, listing, done⟩ := done_listed turn name key bytes changed
    rw [done] at changed offered
    obtain ⟨before, run, after, left, rfl, others, gone, fresh, inspected, -, rfl⟩ :=
      (RunRule.scan_takes_iff _ early _ _ _ _ runs key bytes a).mp ⟨changed, offered⟩
    exact ⟨before, run, after, left, bytes, listing, older, fun other member => (apart other).mp (others other member),
      gone, fresh, inspected⟩
  · rintro ⟨before, run, after, left, bytes, listing, older, others, gone, fresh, inspected⟩
    have taken := (RunRule.scan_takes_iff _ early turn.watch.provider (turn.existing name) turn.watch.visited
      [.runs turn.watch.rule.limit] (before ++ run :: after) (turn.watch.rule.key run) bytes run.attempt).mpr
      ⟨before, run, after, left, rfl, fun other member => (apart other).mpr (others other member), gone, fresh,
        inspected, rfl, rfl⟩
    refine ⟨run.attempt, (taken_iff turn name stores run.attempt).mpr ⟨turn.watch.rule.key run, bytes, ?_⟩, older⟩
    rw [Turn.done, scanListed, listing]
    exact taken

theorem listed_run_hides_older (stored : Attempt) (runs : List Run)
    (listing : turn.watch.provider.runs turn.watch.rule.limit = .gives runs)
    (sorted : runs.Pairwise fun run other => run.attempt.finishedAt.before other.attempt.finishedAt = false)
    (run : Run) (listed : run ∈ runs) (same : run.attempt.id = stored.id)
    (standing : run.attempt.finishedAt.before stored.finishedAt = false) : ¬ turn.Surfaces stored := by
  rintro ⟨before, last, after, left, bytes, given, older, others, -⟩
  obtain rfl := Reply.gives.inj (listing.symm.trans given)
  rw [List.append_cons] at listed
  rcases List.mem_append.mp listed with above | below
  · exact others run above same
  · have order := (List.pairwise_cons.mp (List.pairwise_append.mp sorted).2.1).1 run below
    cases (Instant.before_of_not_before _ _ _ older standing).symm.trans order

end Turn

-- The watch and the stored key go from each poll to the next; all else may have changed.
def PolledInTurn (name : String) : RunWatch → Option String → List Turn → Prop
  | _, _, [] => True
  | w, existing, turn :: rest =>
      (∃ p, turn.watch = { w with provider := p }) ∧ turn.existing name = existing ∧
        PolledInTurn name (turn.next name) ((turn.ingestion name).coordinator.versionKey? name) rest

def lastTaken (name : String) (stored : Option Attempt) (turns : List Turn) : Option Attempt :=
  turns.foldl (fun stored turn => (turn.taken? name).or stored) stored

theorem next_rule (turn : Turn) (name : String) : (turn.next name).rule = turn.watch.rule := by
  cases turn_turned turn name with
  | left asked next => rw [next]
  | confirmed key bytes path asked changed stored next =>
      rw [next, RunWatch.confirm]
      cases (turn.done name).offered <;> rfl

theorem polled_known (name : String) (w : RunWatch) (existing : Option String) (stored : Option Attempt)
    (before after : List Turn) (turn : Turn) (polled : PolledInTurn name w existing (before ++ turn :: after))
    (known : ∀ s, stored = some s → existing = some (w.rule.key ⟨s, false⟩)) :
    turn.watch.rule = w.rule ∧ ∀ s, lastTaken name stored before = some s →
      turn.existing name = some (w.rule.key ⟨s, false⟩) := by
  -- The polls before the one in question hand on the watch and the stored key.
  induction before generalizing w existing stored with
  | nil =>
      obtain ⟨⟨p, watch⟩, same, -⟩ := polled
      exact ⟨by rw [watch], fun s last => same.trans (known s last)⟩
  | cons first rest ih =>
      obtain ⟨⟨p, watch⟩, same, onward⟩ := polled
      have here : first.watch.rule = w.rule := by rw [watch]
      have rule : (first.next name).rule = w.rule := (next_rule first name).trans here
      rw [← rule]
      refine ih (first.next name) _ ((first.taken? name).or stored) onward fun s last => ?_
      rw [key_after, same, rule, here]
      cases taken : first.taken? name with
      | none =>
          rw [taken] at last
          exact known s last
      | some a =>
          rw [taken] at last
          obtain rfl := Option.some.inj last
          rfl

theorem never_back_iff_never_surfaces (name : String) (w : RunWatch) (early : w.rule.stopsEarly = true)
    (existing : Option String) (stored : Option Attempt)
    (known : ∀ s, stored = some s → existing = some (w.rule.key ⟨s, false⟩)) (turns : List Turn)
    (polled : PolledInTurn name w existing turns)
    (stores : ∀ turn ∈ turns, ∀ e, (turn.ingestion name).reply ≠ .fails (.store e)) :
    (∀ before turn after s a, turns = before ++ turn :: after → lastTaken name stored before = some s →
        turn.taken? name = some a → a.finishedAt.before s.finishedAt = false) ↔
      ∀ before turn after s, turns = before ++ turn :: after → lastTaken name stored before = some s →
        ¬ turn.Surfaces s := by
  have surfaces (before : List Turn) (turn : Turn) (after : List Turn) (s : Attempt)
      (split : turns = before ++ turn :: after) (last : lastTaken name stored before = some s) :
      (∃ a, turn.taken? name = some a ∧ a.finishedAt.before s.finishedAt = true) ↔ turn.Surfaces s := by
    obtain ⟨rule, key⟩ := polled_known name w existing stored before after turn (split ▸ polled) known
    rw [← rule] at early key
    exact takes_older_iff turn name early s (key s last) (stores turn (by simp [split]))
  constructor
  · intro forward before turn after s split last surfaced
    obtain ⟨a, taken, older⟩ := (surfaces before turn after s split last).mpr surfaced
    cases older.symm.trans (forward before turn after s a split last taken)
  · intro hidden before turn after s a split last taken
    rw [← Bool.not_eq_true]
    exact fun older => hidden before turn after s split last
      ((surfaces before turn after s split last).mp ⟨a, taken, older⟩)

namespace Retention

def rule : RunRule := .pipeline "o" "p" "logs" "build.complog"

def run (id : Int) : Run := ⟨⟨id, Instant.ofNanos id⟩, false⟩

def provider (runs : List Run) : Provider where
  runs _ := .gives runs
  artifacts _ _ := .gives [⟨none, "logs"⟩]
  download _ run _ := .gives (Archive.pack [{ name := rule.entry, data := Bytes.ofText (toString run.attempt.id) }])

def watch (runs : List Run) : RunWatch := RunWatch.start rule (provider runs) 50

def first (runs : List Run) : Turn := ⟨SlowDownload.coordinator, SlowDownload.disk, watch runs⟩

def second (runs more : List Run) : Turn :=
  ⟨((first runs).ingestion "ci").coordinator, ((first runs).ingestion "ci").disk,
    { (first runs).next "ci" with provider := provider more }⟩

theorem polled (runs more : List Run) : PolledInTurn "ci" (watch runs) none [first runs, second runs more] :=
  ⟨⟨provider runs, rfl⟩, rfl, ⟨provider more, rfl⟩, rfl, trivial⟩

end Retention

open Retention in
theorem newer_run_stored_after_older :
    PolledInTurn "ci" (watch [run 1]) none [first [run 1], second [run 1] [run 2, run 1]] ∧
      lastTaken "ci" none [first [run 1]] = some (run 1).attempt ∧
      (second [run 1] [run 2, run 1]).taken? "ci" = some (run 2).attempt ∧
      (run 2).attempt.finishedAt.before (run 1).attempt.finishedAt = false := by
  obtain ⟨stored, storedNext, last, taken⟩ : ((first [run 1]).ingestion "ci").reply = .gives true ∧
      ((second [run 1] [run 2, run 1]).ingestion "ci").reply = .gives true ∧
      lastTaken "ci" none [first [run 1]] = some (run 1).attempt ∧
      (second [run 1] [run 2, run 1]).taken? "ci" = some (run 2).attempt := by decide +kernel
  have stores : ∀ turn ∈ [first [run 1], second [run 1] [run 2, run 1]], ∀ e,
      (turn.ingestion "ci").reply ≠ .fails (.store e) := by
    simp [stored, storedNext]
  have polled := polled [run 1] [run 2, run 1]
  have forward := never_back_iff_never_surfaces "ci" (watch [run 1]) rfl none none (fun s none => by cases none)
    [first [run 1], second [run 1] [run 2, run 1]] polled stores
  refine ⟨polled, last, taken, forward.mpr (fun before turn after s split known => ?_)
    [first [run 1]] _ [] _ _ rfl last taken⟩
  match before, split with
  | [], _ => cases known
  | [_], split =>
      obtain ⟨rfl, rfl, rfl⟩ : _ = _ ∧ _ = _ ∧ _ = _ := by simpa using split
      obtain rfl := Option.some.inj (known.symm.trans last)
      exact listed_run_hides_older _ (run 1).attempt [run 2, run 1] rfl (by decide) (run 1) (by simp) rfl (by decide)
  | _ :: _ :: _, split => simp at split

open Retention in
theorem older_run_stored_after_newer :
    PolledInTurn "ci" (watch [run 2, run 1]) none [first [run 2, run 1], second [run 2, run 1] [run 1]] ∧
      ((first [run 2, run 1]).ingestion "ci").reply = .gives true ∧
      ((second [run 2, run 1] [run 1]).ingestion "ci").reply = .gives true ∧
      [run 2, run 1].Pairwise (fun run other => run.attempt.finishedAt.before other.attempt.finishedAt = false) ∧
      lastTaken "ci" none [first [run 2, run 1]] = some (run 2).attempt ∧
      (second [run 2, run 1] [run 1]).taken? "ci" = some (run 1).attempt ∧
      (run 1).attempt.finishedAt.before (run 2).attempt.finishedAt = true :=
  ⟨polled _ _, by decide +kernel⟩

end IndexKeeper
