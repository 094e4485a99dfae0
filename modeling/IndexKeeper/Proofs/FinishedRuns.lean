import IndexKeeper.Archive.Packing
import IndexKeeper.Coordinator
import IndexKeeper.Proofs.Inspections

set_option autoImplicit false

namespace IndexKeeper

def RunRule.ignores : RunRule → Run → Bool
  | pipeline .., _ => false
  | workflow .., run => run.pullRequest

theorem passes_iff (rule : RunRule) (visited : VisitedSet) (run : Run) :
    rule.passes visited run = true ↔ rule.ignores run = true ∨ visited.contains run.attempt = true := by
  cases rule <;> simp [RunRule.passes, RunRule.ignores]

structure Turn where
  coordinator : Coordinator
  disk : Disk
  watch : RunWatch

namespace Turn

variable (turn : Turn) (name : String)

def existing : Option String := turn.coordinator.versionKey? name

def ingestion : Ingestion := turn.coordinator.ingestIfChanged turn.disk ⟨name, .runs turn.watch⟩

def next : RunWatch :=
  match (turn.ingestion name).source.kind with
  | .runs w => w
  | .filesystem _ => turn.watch

def seen : List Sight := turn.watch.sights (turn.existing name)

def inspects (s : Sight) : Reply PollError (Option Bytes) :=
  turn.watch.rule.inspect turn.watch.provider s.asked s.run

structure FoundNothing (s : Sight) : Prop where
  looked : s ∈ turn.seen name
  listed : .artifacts s.run ∈ (turn.ingestion name).asked
  barren : s.reply = .gives .barren
  nothing : turn.inspects s = .gives none

structure Stored (s : Sight) (bytes : Bytes) : Prop where
  looked : s ∈ turn.seen name
  listed : .artifacts s.run ∈ (turn.ingestion name).asked
  file : turn.inspects s = .gives (some bytes)
  changed : (turn.watch.tryIngest (turn.existing name)).1 =
    .gives (.changed (turn.watch.rule.key s.run) bytes)
  offered : (turn.watch.tryIngest (turn.existing name)).2.1.offered = some s.run.attempt
  stored : ∃ path,
    (turn.coordinator.record turn.disk name (turn.watch.rule.key s.run) bytes).1 = .ok path

def Finished (a : Attempt) : Prop :=
  ∃ s, s.run.attempt = a ∧ (turn.FoundNothing name s ∨ ∃ bytes, turn.Stored name s bytes)

structure Failed (s : Sight) : Prop where
  looked : s ∈ turn.seen name
  broken : (∀ found, s.reply ≠ .gives found) ∨
    ∃ key bytes error, s.reply = .gives (.found key bytes) ∧
      (turn.coordinator.record turn.disk name key bytes).1 = .error error

structure Reaches (s : Sight) : Prop where
  looked : s ∈ turn.seen name
  counts : turn.watch.rule.ignores s.run = false
  goes : ¬ (turn.watch.rule.stopsEarly = true ∧ turn.existing name = some (turn.watch.rule.key s.run))

def Inspects (a : Attempt) : Prop :=
  ∃ run, run.attempt = a ∧ .artifacts run ∈ (turn.ingestion name).asked

end Turn

-- Only the watch goes from each poll to the next; all else may have changed.
def Driven (name : String) : RunWatch → List Turn → RunWatch → Prop
  | w, [], last => last = w
  | w, turn :: rest, last =>
      (∃ p, turn.watch = { w with provider := p }) ∧ Driven name (turn.next name) rest last

theorem driven_append (name : String) (w last : RunWatch) (turns more : List Turn) :
    Driven name w (turns ++ more) last ↔
      ∃ mid, Driven name w turns mid ∧ Driven name mid more last := by
  induction turns generalizing w with
  | nil => simp [Driven]
  | cons turn rest ih => simp [Driven, ih, and_assoc]

section Turn

variable (turn : Turn) (name : String)

def Turn.done : ScanEnd :=
  scanListed turn.watch.rule turn.watch.provider (turn.existing name) turn.watch.visited

inductive Turned : Prop where
  | left
      (asked : (turn.ingestion name).asked = (turn.done name).asked)
      (next : turn.next name =
        { turn.watch with visited := (turn.done name).visited, offered := (turn.done name).offered })
      (kept : ∀ key bytes, (turn.done name).reply = .gives (.changed key bytes) →
        ∃ error, (turn.coordinator.record turn.disk name key bytes).1 = .error error)
  | confirmed (key : String) (bytes : Bytes) (path : String)
      (asked : (turn.ingestion name).asked = (turn.done name).asked)
      (changed : (turn.done name).reply = .gives (.changed key bytes))
      (stored : (turn.coordinator.record turn.disk name key bytes).1 = .ok path)
      (next : turn.next name =
        { turn.watch with visited := (turn.done name).visited,
                          offered := (turn.done name).offered : RunWatch }.confirm)

theorem turn_turned : Turned turn name := by
  have polled : Source.tryIngest ⟨name, .runs turn.watch⟩ turn.disk.files (turn.existing name) =
      ((turn.done name).reply,
        ⟨name, .runs { turn.watch with
          visited := (turn.done name).visited, offered := (turn.done name).offered }⟩,
        (turn.done name).asked) := rfl
  have ingested : turn.ingestion name = turn.coordinator.ingestIfChanged turn.disk
    ⟨name, .runs turn.watch⟩ := rfl
  rw [Coordinator.ingestIfChanged] at ingested
  dsimp only at ingested
  rw [show turn.coordinator.versionKey? name = turn.existing name from rfl, polled] at ingested
  cases reply : (turn.done name).reply with
  | gives outcome =>
      cases outcome with
      | unchanged =>
          rw [reply] at ingested
          exact .left (by rw [ingested]) (by rw [Turn.next, ingested]) (by simp [reply])
      | changed key bytes =>
          rw [reply] at ingested
          dsimp only at ingested
          generalize recorded : turn.coordinator.record turn.disk name key bytes = result at ingested
          obtain ⟨written, coordinator, disk⟩ := result
          cases written with
          | error error =>
              refine .left (by rw [ingested]) (by rw [Turn.next, ingested]) fun _ _ same => ?_
              rw [reply] at same
              cases same
              exact ⟨error, by rw [recorded]⟩
          | ok path =>
              exact .confirmed key bytes path (by rw [ingested]) reply (by rw [recorded])
                (by rw [Turn.next, ingested]; rfl)
  | fails error =>
      rw [reply] at ingested
      exact .left (by rw [ingested]) (by rw [Turn.next, ingested]) (by simp [reply])
  | hangs =>
      rw [reply] at ingested
      exact .left (by rw [ingested]) (by rw [Turn.next, ingested]) (by simp [reply])
  | cancels =>
      rw [reply] at ingested
      exact .left (by rw [ingested]) (by rw [Turn.next, ingested]) (by simp [reply])

theorem turn_accounted :
    Accounted turn.watch.visited [.runs turn.watch.rule.limit] (turn.seen name) (turn.done name) :=
  poll_accounted turn.watch (turn.existing name)

theorem seen_within (s : Sight) (looked : s ∈ turn.seen name) :
    Within turn.watch.rule turn.watch.provider (turn.existing name) turn.watch.visited
      (turn.done name) (turn.seen name) s :=
  poll_within turn.watch (turn.existing name) s looked

theorem seen_listed (s : Sight) (run : Run) (looked : s ∈ turn.seen name)
    (listed : .artifacts run ∈ s.more) : .artifacts run ∈ (turn.ingestion name).asked := by
  have asked : (turn.ingestion name).asked = (turn.done name).asked := by
    cases turn_turned turn name with
    | left asked => exact asked
    | confirmed key bytes path asked => exact asked
  rw [asked, (turn_accounted turn name).asked]
  exact List.mem_append_right _ (List.mem_flatMap.mpr ⟨s, looked, listed⟩)

theorem entered_finished (s : Sight) (a : Attempt) (looked : s ∈ turn.seen name)
    (entered : s.entered? = some a) : turn.Finished name a := by
  have within := seen_within turn name s looked
  unfold Sight.entered? at entered
  split at entered
  · next barren =>
      obtain ⟨nothing, listed⟩ := looked_barren within.looked barren
      exact ⟨s, Option.some.inj entered, .inl ⟨looked, seen_listed turn name s s.run looked listed, barren,
        nothing⟩⟩
  · cases entered

theorem offered_finished (a : Attempt) (key path : String) (bytes : Bytes)
    (offered : (turn.done name).offered = some a)
    (changed : (turn.done name).reply = .gives (.changed key bytes))
    (stored : (turn.coordinator.record turn.disk name key bytes).1 = .ok path) :
    turn.Finished name a := by
  rw [(turn_accounted turn name).offered] at offered
  obtain ⟨s, looked, here⟩ := List.exists_of_findSome?_eq_some offered
  have within := seen_within turn name s looked
  unfold Sight.offered? at here
  split at here
  · next foundKey foundBytes found =>
      have same : s.run.attempt = a := Option.some.inj here
      obtain ⟨file, keyEq, listed⟩ := looked_found within.looked found
      have reply := (within.found foundKey foundBytes found).1
      rw [changed, Reply.gives.injEq, Outcome.changed.injEq] at reply
      obtain ⟨rfl, rfl⟩ := reply
      subst keyEq
      exact ⟨s, same, .inr ⟨bytes, looked, seen_listed turn name s s.run looked listed, file, changed,
        (within.found _ _ found).2, path, stored⟩⟩
  · cases here

theorem turn_visited (a : Attempt) (inside : (turn.next name).visited.contains a = true) :
    turn.watch.visited.contains a = true ∨ turn.Finished name a := by
  have scanned : (turn.done name).visited.contains a = true →
      turn.watch.visited.contains a = true ∨ turn.Finished name a := by
    intro known
    rw [(turn_accounted turn name).visited] at known
    rcases turn.watch.visited.of_contains_foldl _ a known with entered | old
    · obtain ⟨s, looked, here⟩ := List.mem_filterMap.mp entered
      exact .inr (entered_finished turn name s a looked here)
    · exact .inl old
  cases turn_turned turn name with
  | left asked next kept =>
      rw [next] at inside
      exact scanned inside
  | confirmed key bytes path asked changed stored next =>
      rw [next, RunWatch.confirm] at inside
      dsimp only at inside
      cases offered : (turn.done name).offered with
      | none =>
          rw [offered] at inside
          exact scanned inside
      | some b =>
          rw [offered] at inside
          rcases (turn.done name).visited.of_contains_insert b a inside with rfl | old
          · exact .inr (offered_finished turn name a key path bytes offered changed stored)
          · exact scanned old

theorem failed_unmarked (s : Sight) (failed : turn.Failed name s) :
    (turn.next name).visited.contains s.run.attempt = false := by
  have within := seen_within turn name s failed.looked
  have going : s.reply ≠ .gives .passed ∧ s.reply ≠ .gives .reached ∧ s.reply ≠ .gives .barren := by
    rcases failed.broken with broken | ⟨key, bytes, error, found, -⟩
    · exact ⟨broken _, broken _, broken _⟩
    · simp [found]
  have unknown : s.visited.contains s.run.attempt = false := by
    cases known : s.visited.contains s.run.attempt with
    | false => rfl
    | true =>
        have passes := (passes_iff turn.watch.rule s.visited s.run).mpr (.inr known)
        rcases (looked_remembered within.looked passes).1 with reached | passed
        · exact absurd reached going.2.1
        · exact absurd passed going.1
  have visited : (turn.next name).visited = (turn.done name).visited := by
    cases turn_turned turn name with
    | left asked next kept => rw [next]
    | confirmed key bytes path asked changed stored next =>
        rcases failed.broken with broken | ⟨foundKey, foundBytes, error, found, refused⟩
        · exact absurd changed (within.broken broken _)
        · have reply := (within.found _ _ found).1
          rw [changed, Reply.gives.injEq, Outcome.changed.injEq] at reply
          rw [← reply.1, ← reply.2, stored] at refused
          cases refused
  rw [visited, within.last going.1 going.2.2]
  exact unknown

theorem finished_inspects (a : Attempt) (finished : turn.Finished name a) : turn.Inspects name a := by
  obtain ⟨s, same, nothing | ⟨bytes, stored⟩⟩ := finished
  · exact ⟨s.run, same, nothing.listed⟩
  · exact ⟨s.run, same, stored.listed⟩

theorem reached_inspects (s : Sight) (reaches : turn.Reaches name s) :
    turn.watch.visited.contains s.run.attempt = true ∨ turn.Inspects name s.run.attempt := by
  have within := seen_within turn name s reaches.looked
  cases passes : turn.watch.rule.passes s.visited s.run with
  | false =>
      rcases looked_fresh within.looked passes with stopped | listed
      · exact absurd stopped reaches.goes
      · exact .inr ⟨s.run, rfl, seen_listed turn name s s.run reaches.looked listed⟩
  | true =>
      rcases (passes_iff turn.watch.rule s.visited s.run).mp passes with ignored | known
      · rw [reaches.counts] at ignored
        cases ignored
      · rcases within.remembered s.run.attempt known with old | ⟨earlier, looked, entered⟩
        · exact .inl old
        · exact .inr (finished_inspects turn name s.run.attempt
            (entered_finished turn name earlier s.run.attempt looked entered))

end Turn

theorem driven_visited (name : String) (w last : RunWatch) (turns : List Turn) (a : Attempt)
    (driven : Driven name w turns last) (inside : last.visited.contains a = true) :
    w.visited.contains a = true ∨ ∃ turn ∈ turns, turn.Finished name a := by
  -- Between two polls the memory of the watch stands still.
  induction turns generalizing w with
  | nil =>
      rw [show last = w from driven] at inside
      exact .inl inside
  | cons turn rest ih =>
      obtain ⟨⟨p, watch⟩, onward⟩ := driven
      rcases ih (turn.next name) onward with known | ⟨later, member, finished⟩
      · rcases turn_visited turn name a known with old | finished
        · rw [watch] at old
          exact .inl old
        · exact .inr ⟨turn, List.mem_cons_self, finished⟩
      · exact .inr ⟨later, List.mem_cons_of_mem _ member, finished⟩

theorem only_finished_runs_are_visited (rule : RunRule) (p : Provider) (max : Nat) (name : String)
    (turns : List Turn) (w : RunWatch) (driven : Driven name (RunWatch.start rule p max) turns w) :
    (∀ a, w.visited.contains a = true → ∃ turn ∈ turns, turn.Finished name a) ∧
      ∀ before bad after s, turns = before ++ bad :: after → bad.Failed name s →
        (bad.next name).visited.contains s.run.attempt = false ∧
          ∀ mid last later again, after = mid ++ last :: later → last.Reaches name again →
            again.run.attempt = s.run.attempt →
              ∃ turn ∈ mid ++ [last], turn.Inspects name s.run.attempt := by
  constructor
  · intro a inside
    rcases driven_visited name _ w turns a driven inside with old | finished
    · simp [RunWatch.start, VisitedSet.empty, VisitedSet.contains] at old
    · exact finished
  · intro before bad after s split failed
    have unmarked := failed_unmarked bad name s failed
    refine ⟨unmarked, fun mid last later again onward reaches same => ?_⟩
    subst split onward
    obtain ⟨_, _, _, driven⟩ := (driven_append name _ w before _).mp driven
    obtain ⟨met, through, ⟨p, watch⟩, _⟩ := (driven_append name _ w mid _).mp driven
    rcases reached_inspects last name again reaches with known | inspects
    · rw [watch, same] at known
      rcases driven_visited name _ met mid _ through known with old | ⟨turn, member, finished⟩
      · rw [unmarked] at old
        cases old
      · exact ⟨turn, List.mem_append_left _ member, finished_inspects turn name _ finished⟩
    · exact ⟨last, by simp, same ▸ inspects⟩

namespace SlowDownload

def rule : RunRule := .workflow "complog" "build.complog"

def run : Run := ⟨⟨2, Instant.ofNanos 2⟩, false⟩

def archive : Bytes := Archive.pack [{ name := "build.complog", data := Bytes.ofText "2" }]

def provider (reply : Reply ProviderError Bytes) : Provider where
  runs _ := .gives [run]
  artifacts _ _ := .gives [⟨none, "complog"⟩]
  download _ _ _ := reply

def coordinator : Coordinator := ⟨⟨"data"⟩, .empty⟩

def disk : Disk := ⟨⟨[(["data"], .directory), (["data", "source"], .directory)], []⟩, [], []⟩

def first : Turn := ⟨coordinator, disk, RunWatch.start rule (provider .hangs) 50⟩

def second : Turn := ⟨coordinator, disk, { first.next "ci" with provider := provider (.gives archive) }⟩

def asked : List Question := [.artifacts run, .download run ⟨none, "complog"⟩]

def hung : Sight := ⟨run, VisitedSet.empty 50, [.runs 50], .hangs, asked⟩

def again : Sight :=
  let answer := look rule (provider (.gives archive)) none (VisitedSet.empty 50) [.runs 50] run
  ⟨run, VisitedSet.empty 50, [.runs 50], answer.1, answer.2.drop 1⟩

theorem first_failed : first.Failed "ci" hung where
  looked := by
    rw [show first.seen "ci" = [hung] from rfl]
    exact List.mem_cons_self
  broken := .inl fun found same => by cases same

theorem second_reaches : second.Reaches "ci" again where
  looked := by
    rw [show second.seen "ci" = sights rule (provider (.gives archive)) none (VisitedSet.empty 50) [.runs 50]
      [run] from rfl, sights]
    exact List.mem_cons_self
  counts := rfl
  goes stops := by cases stops.1

theorem driven : Driven "ci" (RunWatch.start rule (provider .hangs) 50) [first, second]
    (second.next "ci") :=
  ⟨⟨provider .hangs, rfl⟩, ⟨provider (.gives archive), rfl⟩, rfl⟩

end SlowDownload

open SlowDownload in
theorem slow_download_is_finished_later :
    Driven "ci" (RunWatch.start rule (provider .hangs) 50) [first, second] (second.next "ci") ∧
      (∃ turn ∈ [first, second], turn.Finished "ci" run.attempt) ∧
      (first.next "ci").visited.contains run.attempt = false ∧
        ∃ turn ∈ [second], turn.Inspects "ci" run.attempt :=
  have driven := SlowDownload.driven
  have visited : (second.next "ci").visited.contains run.attempt = true := by decide +kernel
  have finished := only_finished_runs_are_visited rule (provider .hangs) 50 "ci" [first, second]
    (second.next "ci") driven
  have failed := finished.2 [] first [second] hung rfl first_failed
  ⟨driven, finished.1 run.attempt visited, failed.1, failed.2 [] second [] again rfl second_reaches rfl⟩

end IndexKeeper
