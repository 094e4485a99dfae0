import IndexKeeper.Archive.Packing
import IndexKeeper.Proofs.Inspections
import IndexKeeper.Proofs.SourcePolls

set_option autoImplicit false

namespace IndexKeeper

def Provider.Steady (p : Provider) : Prop :=
  (∀ asked run, p.artifacts asked run = p.artifacts [] run) ∧
    ∀ asked run artifact, p.download asked run artifact = p.download [] run artifact

theorem look_asked (rule : RunRule) (p : Provider) (existing : Option String) (visited : VisitedSet)
    (asked : List Question) (run : Run) (steady : p.Steady) :
    (look rule p existing visited asked run).1 = (look rule p existing visited [] run).1 := by
  unfold look
  by_cases early : rule.stopsEarly = true ∧ existing = some (rule.key run)
  · simp only [if_pos early]
  · by_cases passed : rule.passes visited run = true
    · simp only [if_neg early, if_pos passed]
    · simp only [if_neg early, if_neg passed, steady.1 asked run]
      cases (p.artifacts [] run).mapError PollError.provider with
      | gives artifacts =>
          dsimp only
          cases rule.choose artifacts with
          | none => rfl
          | some artifact =>
              by_cases stored : existing = some (rule.key run)
              · simp only [if_pos stored]
              · simp only [if_neg stored]
                rw [steady.2 (asked ++ [Question.artifacts run]), steady.2 ([] ++ [Question.artifacts run])]
      | fails => rfl
      | hangs => rfl
      | cancels => rfl

theorem look_passed (rule : RunRule) (p : Provider) (existing : Option String) (visited : VisitedSet)
    (asked : List Question) (run : Run) (late : rule.stopsEarly = false)
    (passed : rule.passes visited run = true) :
    look rule p existing visited asked run = (.gives .passed, asked) := by
  simp [look, late, passed]

theorem look_unvisited (rule : RunRule) (p : Provider) (existing : Option String)
    (visited known : VisitedSet) (asked : List Question) (run : Run)
    (fresh : rule.passes visited run = false) (unknown : rule.passes known run = false) :
    look rule p existing visited asked run = look rule p existing known asked run := by
  simp [look, fresh, unknown]

namespace RunWatch

def glance (w : RunWatch) (key : String) (run : Run) : Reply PollError Look :=
  (look w.rule w.provider (some key) w.visited [] run).1

def Exhausted (w : RunWatch) (key : String) : List Run → Prop
  | [] => True
  | run :: rest =>
      match w.glance key run with
      | .gives .reached => True
      | .gives .passed => w.Exhausted key rest
      | .gives .barren => w.Exhausted key rest
      | _ => False

-- Since the watch stood as it does, only runs without the file were entered.
structure Grown (w : RunWatch) (key : String) (visited : VisitedSet) : Prop where
  keeps : ∀ run, w.rule.passes w.visited run = true → w.rule.passes visited run = true
  barren : ∀ run, w.rule.passes visited run = true →
    w.rule.passes w.visited run = true ∨ w.glance key run = .gives .barren

theorem grown_refl (w : RunWatch) (key : String) : w.Grown key w.visited :=
  ⟨fun _ passed => passed, fun _ passed => .inl passed⟩

theorem exhausted_passed (w : RunWatch) (key : String) (before after : List Run)
    (late : w.rule.stopsEarly = false)
    (passed : ∀ run ∈ before, w.rule.passes w.visited run = true) :
    w.Exhausted key (before ++ after) ↔ w.Exhausted key after := by
  induction before with
  | nil => rfl
  | cons run rest ih =>
      have here := look_passed w.rule w.provider (some key) w.visited [] run late (passed run (by simp))
      rw [List.cons_append, Exhausted, glance, here]
      exact ih fun other member => passed other (by simp [member])

end RunWatch

section Workflow

variable (artifactName fileName : String)

theorem workflow_passes_iff (visited : VisitedSet) (run : Run) :
    (RunRule.workflow artifactName fileName).passes visited run = true ↔
      run.pullRequest = true ∨ visited.contains run.attempt = true := by
  simp [RunRule.passes]

theorem workflow_passes_insert (visited : VisitedSet) (runs : List Run) (run other : Run)
    (room : visited.Room runs) (member : run ∈ runs) :
    (RunRule.workflow artifactName fileName).passes (visited.insert run.attempt) other = true ↔
      (RunRule.workflow artifactName fileName).passes visited other = true ∨
        other.attempt = run.attempt := by
  rw [workflow_passes_iff, workflow_passes_iff,
    visited.contains_insert_of_room runs run other.attempt room member]
  constructor
  · rintro (pull | same | old)
    · exact .inl (.inl pull)
    · exact .inr same
    · exact .inl (.inr old)
  · rintro ((pull | old) | same)
    · exact .inl pull
    · exact .inr (.inr old)
    · exact .inr (.inl same)

-- Runs of one attempt that are not pull requests are one run, so that entering a barren attempt
-- hides no run but barren ones.
theorem grown_insert (w : RunWatch) (key : String) (visited : VisitedSet) (runs : List Run) (run : Run)
    (workflow : w.rule = .workflow artifactName fileName) (grown : w.Grown key visited)
    (room : visited.Room runs) (member : run ∈ runs) (fresh : w.rule.passes visited run = false)
    (barren : w.glance key run = .gives .barren) : w.Grown key (visited.insert run.attempt) := by
  have entered := workflow_passes_insert artifactName fileName visited runs run
  rw [← workflow] at entered
  constructor
  · intro other passed
    exact (entered other room member).mpr (.inl (grown.keeps other passed))
  · intro other passed
    rcases (entered other room member).mp passed with old | same
    · exact grown.barren other old
    · cases pull : other.pullRequest with
      | true =>
          left
          rw [workflow]
          exact (workflow_passes_iff artifactName fileName _ _).mpr (.inl pull)
      | false =>
          right
          have notPull : run.pullRequest = false := by
            cases flag : run.pullRequest with
            | false => rfl
            | true =>
                rw [workflow, (workflow_passes_iff artifactName fileName _ _).mpr (.inl flag)] at fresh
                exact fresh
          have equal : other = run := by
            cases other
            cases run
            simp_all
          rwa [equal]

theorem sight_glanced (w : RunWatch) (key : String) (workflow : w.rule = .workflow artifactName fileName)
    (steady : w.provider.Steady) (s : Sight) (made : s.Made w.rule w.provider (some key))
    (grown : w.Grown key s.visited) :
    (w.rule.passes s.visited s.run = true ∧ s.reply = .gives .passed ∧
        ∀ rest, w.Exhausted key (s.run :: rest) ↔ w.Exhausted key rest) ∨
      w.rule.passes s.visited s.run = false ∧ w.glance key s.run = s.reply := by
  have late : w.rule.stopsEarly = false := by rw [workflow]; rfl
  cases passed : w.rule.passes s.visited s.run with
  | true =>
      have here := look_passed w.rule w.provider (some key) s.visited s.asked s.run late passed
      refine .inl ⟨rfl, (Prod.mk.inj (made.symm.trans here)).1, fun rest => ?_⟩
      rcases grown.barren s.run passed with old | barren
      · rw [RunWatch.Exhausted, RunWatch.glance, look_passed w.rule w.provider (some key) w.visited [] s.run late old]
      · rw [RunWatch.Exhausted, barren]
  | false =>
      have unknown : w.rule.passes w.visited s.run = false := by
        cases old : w.rule.passes w.visited s.run with
        | false => rfl
        | true => exact (grown.keeps s.run old).symm.trans passed
      have here := look_asked w.rule w.provider (some key) s.visited s.asked s.run steady
      rw [look_unvisited _ _ _ s.visited w.visited [] s.run passed unknown, made] at here
      exact .inr ⟨rfl, here.symm⟩

theorem left_hides (rule : RunRule) (workflow : rule = .workflow artifactName fileName) (all : List Run) (s : Sight)
    (going : s.GoesOn) (looked : s.reply = .gives .passed → rule.passes s.visited s.run = true)
    (room : s.visited.Room all) (member : s.run ∈ all) :
    s.left.Room all ∧ rule.passes s.left s.run = true ∧
      ∀ other, rule.passes s.visited other = true → rule.passes s.left other = true := by
  have entered := workflow_passes_insert artifactName fileName s.visited all s.run
  rw [← workflow] at entered
  unfold Sight.left Sight.entered?
  rcases going with passed | barren
  · rw [passed]
    exact ⟨room, looked passed, fun _ => id⟩
  · rw [barren]
    exact ⟨s.visited.room_insert all s.run room member, (entered s.run room member).mpr (.inr rfl),
      fun other known => (entered other room member).mpr (.inl known)⟩

theorem scan_unchanged_iff (w : RunWatch) (key : String) (visited : VisitedSet) (asked : List Question)
    (all runs : List Run) (workflow : w.rule = .workflow artifactName fileName)
    (steady : w.provider.Steady) (grown : w.Grown key visited) (room : visited.Room all)
    (listed : ∀ run ∈ runs, run ∈ all) :
    ((scan w.rule w.provider (some key) visited asked runs).reply = .gives .unchanged ↔
        w.Exhausted key runs) ∧
      (w.Exhausted key runs →
        w.Grown key (scan w.rule w.provider (some key) visited asked runs).visited ∧
          (scan w.rule w.provider (some key) visited asked runs).visited.Room all) := by
  refine scan_keeps w.rule w.provider (some key) (fun visited _ runs done _ => w.Grown key visited →
    visited.Room all → (∀ run ∈ runs, run ∈ all) → (done.reply = .gives .unchanged ↔ w.Exhausted key runs) ∧
      (w.Exhausted key runs → w.Grown key done.visited ∧ done.visited.Room all))
    (fun _ _ grown room _ => ⟨iff_of_true rfl trivial, fun _ => ⟨grown, room⟩⟩)
    (fun s rest made stops grown room _ => ?_) (fun s rest done _ made going onward grown room listed => ?_)
    visited asked runs grown room listed
  · obtain ⟨-, passed, -⟩ | ⟨-, same⟩ := sight_glanced artifactName fileName w key workflow steady s made grown
    · exact absurd (.inl passed) stops
    have kept : s.ending.visited = s.visited := left_of_stops s stops
    have ends : w.Exhausted key (s.run :: rest) ↔ s.reply = .gives .reached := by
      rw [RunWatch.Exhausted, same]
      unfold Sight.GoesOn at stops
      generalize s.reply = reply at stops
      cases reply with
      | gives look => cases look <;> simp_all
      | _ => simp
    exact ⟨(outcome_unchanged_iff s stops).trans ends.symm, fun _ => by rw [kept]; exact ⟨grown, room⟩⟩
  · have member := listed s.run List.mem_cons_self
    have restListed (other : Run) (later : other ∈ rest) := listed other (List.mem_cons_of_mem _ later)
    obtain ⟨left, -, -⟩ := left_hides artifactName fileName w.rule workflow all s going
      (looked_passed (made_looked _ _ _ s made)) room member
    obtain ⟨-, passed, same⟩ | ⟨fresh, same⟩ :=
      sight_glanced artifactName fileName w key workflow steady s made grown
    · have nothing : s.left = s.visited := by rw [Sight.left, Sight.entered?, passed]; rfl
      rw [same]
      exact onward (nothing ▸ grown) left restListed
    · rcases going with passed | barren
      · cases fresh.symm.trans (looked_passed (made_looked _ _ _ s made) passed)
      · have entered : s.left = s.visited.insert s.run.attempt := by rw [Sight.left, Sight.entered?, barren]; rfl
        have still := grown_insert artifactName fileName w key s.visited all s.run workflow grown room member fresh
          (same.trans barren)
        rw [RunWatch.Exhausted, same, barren]
        exact onward (entered ▸ still) left restListed

theorem scan_changed (w : RunWatch) (existing : Option String) (visited : VisitedSet)
    (asked : List Question) (all runs : List Run) (key : String) (bytes : Bytes)
    (workflow : w.rule = .workflow artifactName fileName) (room : visited.Room all)
    (listed : ∀ run ∈ runs, run ∈ all)
    (changed : (scan w.rule w.provider existing visited asked runs).reply = .gives (.changed key bytes)) :
    let done := scan w.rule w.provider existing visited asked runs
    (∀ run, w.rule.passes visited run = true → w.rule.passes done.visited run = true) ∧
      done.visited.Room all ∧
      ∃ before run after, runs = before ++ run :: after ∧ key = w.rule.key run ∧
        done.offered = some run.attempt ∧ ∀ old ∈ before, w.rule.passes done.visited old = true := by
  refine scan_keeps w.rule w.provider existing (fun visited _ runs done _ => visited.Room all →
    (∀ run ∈ runs, run ∈ all) → done.reply = .gives (.changed key bytes) →
    (∀ run, w.rule.passes visited run = true → w.rule.passes done.visited run = true) ∧ done.visited.Room all ∧
      ∃ before run after, runs = before ++ run :: after ∧ key = w.rule.key run ∧
        done.offered = some run.attempt ∧ ∀ old ∈ before, w.rule.passes done.visited old = true)
    (fun _ _ _ _ => nofun) (fun s rest made stops room _ changed => ?_)
    (fun s rest done _ made going onward room listed changed => ?_) visited asked runs room listed changed
  · have found := (outcome_found_iff s key bytes).mp changed
    have named := (looked_found (made_looked _ _ _ s made) found).2.1
    rw [show s.ending.visited = s.visited from left_of_stops s stops]
    exact ⟨fun _ => id, room, [], s.run, rest, rfl, named, (found_stops s key bytes found).2, nofun⟩
  · obtain ⟨left, own, still⟩ := left_hides artifactName fileName w.rule workflow all s going
      (looked_passed (made_looked _ _ _ s made)) room (listed s.run List.mem_cons_self)
    obtain ⟨keeps, after, before, taken, later, split, named, offered, old⟩ :=
      onward left (fun other later => listed other (List.mem_cons_of_mem _ later)) changed
    exact ⟨fun other passed => keeps other (still other passed), after, s.run :: before, taken, later,
      congrArg _ split, named, offered, List.forall_mem_cons.mpr ⟨keeps s.run own, old⟩⟩

end Workflow

def Ingestion.again (i : Ingestion) : Ingestion := i.coordinator.ingestIfChanged i.disk i.source

def Ingestion.later (i : Ingestion) : Nat → Ingestion
  | 0 => i.again
  | n + 1 => (i.later n).again

def Ingestion.Kept (i : Ingestion) : Prop :=
  ∀ n, (i.later n).reply = .gives false ∧ (i.later n).coordinator = i.coordinator ∧
    (i.later n).disk = i.disk

theorem ingest_unchanged_iff (c : Coordinator) (d : Disk) (s : Source) :
    (c.ingestIfChanged d s).reply = .gives false ↔
      (s.tryIngest d.files (c.versionKey? s.name)).1 = .gives .unchanged := by
  unfold Coordinator.ingestIfChanged
  generalize s.tryIngest d.files (c.versionKey? s.name) = answer
  obtain ⟨reply, next, asked⟩ := answer
  cases reply with
  | gives outcome =>
      cases outcome with
      | unchanged => simp
      | changed key bytes =>
          dsimp only
          split <;> simp
  | fails => simp
  | hangs => simp
  | cancels => simp

theorem ingest_unchanged (c : Coordinator) (d : Disk) (s : Source)
    (unchanged : (s.tryIngest d.files (c.versionKey? s.name)).1 = .gives .unchanged) :
    (c.ingestIfChanged d s).coordinator = c ∧ (c.ingestIfChanged d s).disk = d ∧
      (c.ingestIfChanged d s).source = (s.tryIngest d.files (c.versionKey? s.name)).2.1 := by
  unfold Coordinator.ingestIfChanged
  generalize s.tryIngest d.files (c.versionKey? s.name) = answer at unchanged
  obtain ⟨reply, next, asked⟩ := answer
  subst unchanged
  exact ⟨rfl, rfl, rfl⟩

theorem record_entry (c next : Coordinator) (d after : Disk) (source key path : String) (bytes : Bytes)
    (recorded : c.record d source key bytes = (.ok path, next, after)) :
    next.versionKey? source = some key := by
  unfold Coordinator.record at recorded
  dsimp only at recorded
  split at recorded
  · simp at recorded
  · simp only [Prod.mk.injEq, Except.ok.injEq] at recorded
    rw [← recorded.2.1]
    simp [Coordinator.versionKey?]

theorem ingest_changed (c : Coordinator) (d : Disk) (s : Source)
    (ingested : (c.ingestIfChanged d s).reply = .gives true) :
    ∃ key bytes, (s.tryIngest d.files (c.versionKey? s.name)).1 = .gives (.changed key bytes) ∧
      (c.ingestIfChanged d s).coordinator.versionKey? s.name = some key ∧
      (c.ingestIfChanged d s).source = (s.tryIngest d.files (c.versionKey? s.name)).2.1.confirm := by
  have name := try_ingest_name s d.files (c.versionKey? s.name)
  unfold Coordinator.ingestIfChanged at ingested ⊢
  generalize s.tryIngest d.files (c.versionKey? s.name) = answer at ingested name ⊢
  obtain ⟨reply, next, asked⟩ := answer
  dsimp only at name
  cases reply with
  | gives outcome =>
      cases outcome with
      | unchanged => simp at ingested
      | changed key bytes =>
          dsimp only at ingested ⊢
          generalize recorded : c.record d next.name key bytes = result at ingested ⊢
          obtain ⟨written, coordinator, disk⟩ := result
          cases written with
          | error => simp at ingested
          | ok path =>
              rw [name] at recorded
              exact ⟨key, bytes, rfl, record_entry c coordinator d disk s.name key path bytes recorded, rfl⟩
  | fails => simp at ingested
  | hangs => simp at ingested
  | cancels => simp at ingested

section Later

variable (artifactName fileName : String)

structure Settled (first : Ingestion) (name : String) (w : RunWatch) (key : String) (runs : List Run)
    (i : Ingestion) : Prop where
  coordinator : i.coordinator = first.coordinator
  disk : i.disk = first.disk
  source : ∃ visited offered, i.source = ⟨name, .runs { w with visited := visited, offered := offered }⟩ ∧
    w.Grown key visited ∧ visited.Room runs

theorem poll_settled (first i : Ingestion) (name key : String) (w : RunWatch) (runs : List Run)
    (workflow : w.rule = .workflow artifactName fileName) (steady : w.provider.Steady)
    (listed : w.provider.runs w.rule.limit = .gives runs)
    (stored : first.coordinator.versionKey? name = some key)
    (settled : Settled first name w key runs i) :
    (i.again.reply = .gives false ↔ w.Exhausted key runs) ∧
      (w.Exhausted key runs → Settled first name w key runs i.again) := by
  obtain ⟨visited, offered, source, grown, room⟩ := settled.source
  have scanned := scan_unchanged_iff artifactName fileName w key visited [.runs w.rule.limit] runs runs
    workflow steady grown room fun _ member => member
  have asks : i.source.tryIngest i.disk.files (i.coordinator.versionKey? i.source.name) =
      let done := scan w.rule w.provider (some key) visited [.runs w.rule.limit] runs
      (done.reply,
        ⟨name, .runs { w with visited := done.visited, offered := done.offered }⟩, done.asked) := by
    rw [source, settled.coordinator, stored]
    simp [Source.tryIngest, RunWatch.tryIngest, scanListed, listed]
  constructor
  · rw [Ingestion.again, ingest_unchanged_iff, asks]
    exact scanned.1
  · intro exhausted
    have kept := ingest_unchanged i.coordinator i.disk i.source
      (by rw [asks]; exact scanned.1.mpr exhausted)
    have after := scanned.2 exhausted
    refine ⟨kept.1.trans settled.coordinator, kept.2.1.trans settled.disk, ?_⟩
    rw [Ingestion.again, kept.2.2, asks]
    exact ⟨_, _, rfl, after.1, after.2⟩

theorem later_settled (first i : Ingestion) (name key : String) (w : RunWatch) (runs : List Run)
    (workflow : w.rule = .workflow artifactName fileName) (steady : w.provider.Steady)
    (listed : w.provider.runs w.rule.limit = .gives runs)
    (stored : first.coordinator.versionKey? name = some key)
    (settled : Settled first name w key runs i) (exhausted : w.Exhausted key runs) (n : Nat) :
    (i.later n).reply = .gives false ∧ Settled first name w key runs (i.later n) := by
  induction n with
  | zero =>
      have next := poll_settled artifactName fileName first i name key w runs workflow steady listed stored
        settled
      exact ⟨next.1.mpr exhausted, next.2 exhausted⟩
  | succ n ih =>
      have next := poll_settled artifactName fileName first (i.later n) name key w runs workflow steady
        listed stored ih.2
      exact ⟨next.1.mpr exhausted, next.2 exhausted⟩

end Later

theorem ingested_run_is_kept_iff (c : Coordinator) (d : Disk) (name artifactName fileName : String)
    (w : RunWatch) (runs : List Run) (workflow : w.rule = .workflow artifactName fileName)
    (steady : w.provider.Steady) (listed : w.provider.runs w.rule.limit = .gives runs)
    (room : w.visited.Room runs)
    (ingested : (c.ingestIfChanged d ⟨name, .runs w⟩).reply = .gives true) :
    let first := c.ingestIfChanged d ⟨name, .runs w⟩
    ∃ before run after watch, runs = before ++ run :: after ∧ first.source = ⟨name, .runs watch⟩ ∧
      first.coordinator.versionKey? name = some (toString run.attempt.id) ∧
      (first.Kept ↔ watch.Exhausted (toString run.attempt.id) after) := by
  intro first
  obtain ⟨key, bytes, found, stored, source⟩ := ingest_changed c d ⟨name, .runs w⟩ ingested
  have asks : Source.tryIngest ⟨name, .runs w⟩ d.files (c.versionKey? name) =
      let done := scan w.rule w.provider (c.versionKey? name) w.visited [.runs w.rule.limit] runs
      (done.reply,
        ⟨name, .runs { w with visited := done.visited, offered := done.offered }⟩, done.asked) := by
    simp [Source.tryIngest, RunWatch.tryIngest, scanListed, listed]
  rw [asks] at found source
  obtain ⟨_, roomAfter, before, run, after, split, keyEq, offered, passed⟩ :=
    scan_changed artifactName fileName w (c.versionKey? name) w.visited [.runs w.rule.limit] runs runs key
      bytes workflow room (fun _ member => member) found
  let visited := (scan w.rule w.provider (c.versionKey? name) w.visited [.runs w.rule.limit] runs).visited
  let watch : RunWatch := { w with visited := visited.insert run.attempt, offered := none }
  have member : run ∈ runs := by rw [split]; simp
  have entered := workflow_passes_insert artifactName fileName visited runs run
  rw [← workflow] at entered
  have gone : ∀ old ∈ before ++ [run], watch.rule.passes watch.visited old = true := by
    intro old inside
    rcases List.mem_append.mp inside with earlier | same
    · exact (entered old roomAfter member).mpr (.inl (passed old earlier))
    · rw [List.mem_singleton.mp same]
      exact (entered run roomAfter member).mpr (.inr rfl)
  have late : watch.rule.stopsEarly = false := by
    change w.rule.stopsEarly = false
    rw [workflow]
    rfl
  have key_eq : key = toString run.attempt.id := by rw [keyEq, workflow]; rfl
  subst key_eq
  have rest : watch.Exhausted (toString run.attempt.id) runs ↔
      watch.Exhausted (toString run.attempt.id) after := by
    rw [split]
    simpa using watch.exhausted_passed (toString run.attempt.id) (before ++ [run]) after late gone
  have confirmed : first.source = ⟨name, .runs watch⟩ := by
    rw [show first.source = _ from source]
    simp [Source.confirm, RunWatch.confirm, offered, watch, visited]
  have settled : Settled first name watch (toString run.attempt.id) runs first :=
    ⟨rfl, rfl, watch.visited, none, confirmed, watch.grown_refl _, visited.room_insert runs run roomAfter
      member⟩
  refine ⟨before, run, after, watch, split, confirmed, stored, ?_⟩
  rw [← rest]
  constructor
  · intro kept
    exact (poll_settled artifactName fileName first first name _ watch runs workflow steady listed stored
      settled).1.mp (kept 0).1
  · intro exhausted n
    have next := later_settled artifactName fileName first first name _ watch runs workflow steady listed
      stored settled exhausted n
    exact ⟨next.1, next.2.coordinator, next.2.disk⟩

namespace TwoRuns

def run (id : Int) : Run := ⟨⟨id, Instant.ofNanos id⟩, false⟩

def archive (run : Run) : Bytes :=
  Archive.pack [{ name := "build.complog", data := Bytes.ofText (toString run.attempt.id) }]

def provider : Provider where
  runs _ := .gives [run 2, run 1]
  artifacts _ _ := .gives [⟨none, "complog"⟩]
  download _ run _ := .gives (archive run)

def watch : RunWatch := RunWatch.start (.workflow "complog" "build.complog") provider 50

def disk : Disk := ⟨⟨[(["data"], .directory), (["data", "source"], .directory)], []⟩, [], []⟩

def first : Ingestion := Coordinator.ingestIfChanged ⟨⟨"data"⟩, .empty⟩ disk ⟨"ci", .runs watch⟩

theorem steady : provider.Steady := ⟨fun _ _ => rfl, fun _ _ _ => rfl⟩

end TwoRuns

open TwoRuns in
theorem two_runs_kept_iff :
    provider.Steady ∧ provider.runs 50 = .gives [run 2, run 1] ∧ watch.visited.Room [run 2, run 1] ∧
      first.reply = .gives true ∧
      ∃ before run after watch, [TwoRuns.run 2, TwoRuns.run 1] = before ++ run :: after ∧
        first.source = ⟨"ci", .runs watch⟩ ∧
        first.coordinator.versionKey? "ci" = some (toString run.attempt.id) ∧
        (first.Kept ↔ watch.Exhausted (toString run.attempt.id) after) :=
  have room : watch.visited.Room [run 2, run 1] := by unfold VisitedSet.Room; decide +kernel
  have ingested : first.reply = .gives true := by decide +kernel
  ⟨steady, rfl, room, ingested,
    ingested_run_is_kept_iff ⟨⟨"data"⟩, .empty⟩ disk "ci" "complog" "build.complog" watch [run 2, run 1] rfl
      steady rfl room ingested⟩

open TwoRuns in
theorem older_run_replaces_ingested_one :
    provider.Steady ∧ provider.runs 50 = .gives [run 2, run 1] ∧ (run 1).attempt.newer (run 2).attempt = false ∧
      first.reply = .gives true ∧ first.coordinator.versionKey? "ci" = some "2" ∧ ¬ first.Kept ∧
      first.again.reply = .gives true ∧ first.again.coordinator.versionKey? "ci" = some "1" ∧
      (first.again.disk.files.read "data/source/ci/build.complog").toOption = some (Bytes.ofText "1") := by
  have again : first.again.reply = .gives true := by decide +kernel
  refine ⟨steady, rfl, by decide, by decide +kernel, by decide +kernel, ?_, again, by decide +kernel,
    by decide +kernel⟩
  intro kept
  have unchanged : first.again.reply = .gives false := (kept 0).1
  rw [again] at unchanged
  cases unchanged

end IndexKeeper
