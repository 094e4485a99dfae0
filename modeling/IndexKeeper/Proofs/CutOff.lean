import IndexKeeper.Proofs.ScanOrder

set_option autoImplicit false

namespace IndexKeeper

structure Provider.Answers (p : Provider) (runs : List Run) : Prop where
  artifacts : ∀ asked, ∀ run ∈ runs, ∃ artifacts, p.artifacts asked run = .gives artifacts
  download : ∀ asked artifact, ∀ run ∈ runs, ∃ archive, p.download asked run artifact = .gives archive

namespace RunRule

variable (rule : RunRule) (p : Provider) (existing : Option String) (visited : VisitedSet) (asked : List Question)
  (run : Run)

def Recognizes : Prop :=
  rule.stopsEarly = true ∨ (rule.passes visited run = false ∧
    ∃ artifacts artifact, p.artifacts asked run = .gives artifacts ∧ rule.choose artifacts = some artifact)

def Breaks : Prop :=
  rule.passes visited run = false ∧ ∃ e, rule.inspect p asked run = .fails (.archive e)

theorem inspect_answered (runs : List Run) (answers : p.Answers runs) (listed : run ∈ runs) :
    (∃ found, rule.inspect p asked run = .gives found) ∨ ∃ e, rule.inspect p asked run = .fails (.archive e) := by
  obtain ⟨artifacts, given⟩ := answers.artifacts asked run listed
  rw [inspect, given]
  simp only [Reply.mapError, Reply.bind]
  cases rule.choose artifacts with
  | none => exact .inl ⟨none, rfl⟩
  | some artifact =>
      obtain ⟨archive, downloaded⟩ := answers.download (asked ++ [.artifacts run]) artifact run listed
      simp only [downloaded]
      cases Archive.extract archive rule.entry with
      | ok found => exact .inl ⟨found, rfl⟩
      | error e => exact .inr ⟨e, rfl⟩

theorem look_recognizes (stored : existing = some (rule.key run)) (recognizes : rule.Recognizes p visited asked run) :
    (look rule p existing visited asked run).1 = .gives .reached := by
  rw [look_reply]
  rcases recognizes with early | ⟨fresh, artifacts, artifact, listed, chosen⟩
  · rw [if_pos ⟨early, stored⟩]
  · by_cases early : rule.stopsEarly = true ∧ existing = some (rule.key run)
    · rw [if_pos early]
    · rw [if_neg early, fresh, if_neg Bool.false_ne_true, listed]
      simp only [Reply.mapError, Reply.bind, chosen, if_pos stored]

theorem look_ends (runs : List Run) (answers : p.Answers runs) (listed : run ∈ runs)
    (notPassed : (look rule p existing visited asked run).1 ≠ .gives .passed)
    (notBarren : (look rule p existing visited asked run).1 ≠ .gives .barren) :
    (existing = some (rule.key run) ∧ rule.Recognizes p visited asked run) ∨
      existing ≠ some (rule.key run) ∧ (rule.Breaks p visited asked run ∨
        ∃ bytes, (look rule p existing visited asked run).1 = .gives (.found (rule.key run) bytes)) := by
  obtain ⟨artifacts, given⟩ := answers.artifacts asked run listed
  by_cases early : rule.stopsEarly = true ∧ existing = some (rule.key run)
  · exact .inl ⟨early.2, .inl early.1⟩
  · have reply := rule.look_reply p existing visited asked run
    rw [if_neg early] at reply
    cases fresh : rule.passes visited run with
    | true =>
        rw [if_pos fresh] at reply
        exact absurd reply notPassed
    | false =>
        rw [fresh, if_neg Bool.false_ne_true, given] at reply
        by_cases stored : existing = some (rule.key run)
        · cases chosen : rule.choose artifacts with
          | none =>
              simp only [Reply.mapError, Reply.bind, chosen] at reply
              exact absurd reply notBarren
          | some artifact => exact .inl ⟨stored, .inr ⟨fresh, artifacts, artifact, given, chosen⟩⟩
        · have inspected := rule.look_other p existing visited asked run stored fresh
          refine .inr ⟨stored, ?_⟩
          rcases rule.inspect_answered p asked run runs answers listed with ⟨found, given⟩ | broken
          · rw [given] at inspected
            cases found with
            | none => exact absurd inspected notBarren
            | some bytes => exact .inr ⟨bytes, inspected⟩
          · exact .inl ⟨fresh, broken⟩

end RunRule

namespace RunWatch

variable (w : RunWatch) (stored : Run)

-- A run at which a poll stops short: the run whose key is stored, in a later attempt, or one whose archive is broken.
inductive Stops (visited : VisitedSet) (asked : List Question) (run : Run) : Prop where
  | again (same : run.attempt.id = stored.attempt.id)
      (later : stored.attempt.finishedAt.before run.attempt.finishedAt = true)
      (recognizes : w.rule.Recognizes w.provider visited asked run)
  | broken (other : run.attempt.id ≠ stored.attempt.id) (breaks : w.rule.Breaks w.provider visited asked run)

def CutOff (runs : List Run) : Prop :=
  ∃ before run after left, runs = before ++ run :: after ∧
    w.rule.through w.provider (some (w.rule.key stored)) w.visited [.runs w.rule.limit] before = some left ∧
    w.Stops stored left.1 left.2 run

structure Newer (runs : List Run) (target : Run) : Prop where
  listing : w.provider.runs w.rule.limit = .gives runs
  sorted : runs.Pairwise fun run other => run.attempt.finishedAt.before other.attempt.finishedAt = false
  answers : w.provider.Answers runs
  listed : target ∈ runs
  different : target.attempt.id ≠ stored.attempt.id
  later : stored.attempt.finishedAt.before target.attempt.finishedAt = true
  unvisited : w.visited.contains target.attempt = false
  counts : w.rule.ignores target = false
  -- It is the attempt that has the file, however often it is listed.
  yields : ∀ run ∈ runs, run.attempt = target.attempt → w.rule.ignores run = false →
    ∀ asked, ∃ bytes, w.rule.inspect w.provider asked run = .gives (some bytes)

theorem newer_run_taken_iff (runs : List Run) (target : Run) (newer : w.Newer stored runs target) :
    (∃ key bytes, (w.tryIngest (some (w.rule.key stored))).1 = .gives (.changed key bytes)) ↔
      ¬ w.CutOff stored runs := by
  obtain ⟨listing, sorted, answers, listed, different, later, unvisited, counts, yields⟩ := newer
  rw [w.try_ingest_listed _ runs listing]
  constructor
  · rintro ⟨key, bytes, changed⟩ ⟨before, run, after, left, rfl, gone, stops⟩
    rw [RunRule.scan_after_through w.rule w.provider _ _ _ before (run :: after) left gone] at changed
    cases stops with
    | again same later recognizes =>
        have reached := w.rule.look_recognizes w.provider (some (w.rule.key stored)) left.1 left.2 run
          (congrArg some ((w.rule.key_iff stored run).mpr same.symm)) recognizes
        have found := (w.rule.scan_decided w.provider _ _ _ run after key bytes (by rw [reached]; nofun)
          (by rw [reached]; nofun)).mp changed
        cases reached.symm.trans found
    | broken other breaks =>
        obtain ⟨fresh, e, broken⟩ := breaks
        have failed := w.rule.look_other w.provider (some (w.rule.key stored)) left.1 left.2 run
          (fun same => other ((w.rule.key_iff stored run).mp (Option.some.inj same)).symm) fresh
        rw [broken] at failed
        have found := (w.rule.scan_decided w.provider _ _ _ run after key bytes (by rw [failed]; nofun)
          (by rw [failed]; nofun)).mp changed
        cases failed.symm.trans found
  · intro free
    rcases w.rule.scan_ends w.provider (some (w.rule.key stored)) w.visited [.runs w.rule.limit] runs with
      ⟨left, gone⟩ | ⟨before, run, after, left, rfl, gone, notPassed, notBarren⟩
    · exact (w.rule.fresh_run_ends w.provider _ _ _ runs left gone target listed unvisited counts yields).elim
    · have here : run ∈ before ++ run :: after := by simp
      rcases w.rule.look_ends w.provider _ left.1 left.2 run _ answers here notPassed notBarren with
        ⟨known, recognizes⟩ | ⟨other, breaks | ⟨bytes, found⟩⟩
      · have same := ((w.rule.key_iff stored run).mp (Option.some.inj known)).symm
        -- The target comes after the run that is taken for the stored one, which is therefore no older.
        have below : target ∈ after := by
          rcases List.mem_append.mp listed with first | rest
          · exact (w.rule.fresh_run_ends w.provider _ _ _ before left gone target first unvisited counts
              fun run member => yields run (List.mem_append_left _ member)).elim
          · rcases List.mem_cons.mp rest with rfl | rest
            · exact absurd same different
            · exact rest
        have order := (List.pairwise_cons.mp (List.pairwise_append.mp sorted).2.1).1 target below
        exact absurd ⟨before, run, after, left, rfl, gone,
          .again same (Instant.before_of_not_before _ _ _ later order) recognizes⟩ free
      · exact absurd ⟨before, run, after, left, rfl, gone, .broken
          (fun same => other (congrArg some ((w.rule.key_iff stored run).mpr same.symm))) breaks⟩ free
      · refine ⟨w.rule.key run, bytes, ?_⟩
        rw [RunRule.scan_after_through w.rule w.provider _ _ _ before (run :: after) left gone]
        exact (w.rule.scan_found w.provider _ _ _ run after _ bytes found).1

end RunWatch

namespace RetriedRun

def pipeline : RunRule := .pipeline "o" "p" "logs" "build.complog"

def workflow : RunRule := .workflow "logs" "build.complog"

def run (id finished : Int) : Run := ⟨⟨id, Instant.ofNanos finished⟩, false⟩

def provider (rule : RunRule) (runs : List Run) : Provider where
  runs _ := .gives runs
  artifacts _ _ := .gives [⟨none, "logs"⟩]
  download _ _ _ := .gives (Archive.pack [{ name := rule.entry, data := Bytes.ofText "8" }])

def watch (rule : RunRule) (runs : List Run) : RunWatch :=
  { RunWatch.start rule (provider rule runs) 50 with visited := (VisitedSet.empty 50).insert (run 7 1).attempt }

theorem newer (rule : RunRule) (runs : List Run) (listed : run 8 5 ∈ runs) (counts : rule.ignores (run 8 5) = false)
    (sorted : runs.Pairwise fun run other => run.attempt.finishedAt.before other.attempt.finishedAt = false)
    (found : ∀ run, rule.inspect (provider rule runs) [] run = .gives (some (Bytes.ofText "8"))) :
    (watch rule runs).Newer (run 7 1) runs (run 8 5) where
  listing := rfl
  sorted := sorted
  answers := ⟨fun _ _ _ => ⟨_, rfl⟩, fun _ _ _ _ => ⟨_, rfl⟩⟩
  listed := listed
  different := by decide
  later := by decide
  unvisited := by
    change ((VisitedSet.empty 50).insert (run 7 1).attempt).contains (run 8 5).attempt = false
    decide +kernel
  counts := counts
  yields := fun run _ _ _ asked =>
    ⟨_, (rule.inspect_asked (provider rule runs) ⟨fun _ _ => rfl, fun _ _ _ => rfl⟩ asked run).trans (found run)⟩

theorem file (rule : RunRule) (runs : List Run) (either : rule = pipeline ∨ rule = workflow) (run : Run) :
    rule.inspect (provider rule runs) [] run = .gives (some (Bytes.ofText "8")) := by
  have artifacts (artifact : Artifact) (chosen : rule.choose [⟨none, "logs"⟩] = some artifact)
      (archive : Archive.extract (Archive.pack [{ name := rule.entry, data := Bytes.ofText "8" }]) rule.entry =
        .ok (some (Bytes.ofText "8"))) :
      rule.inspect (provider rule runs) [] run = .gives (some (Bytes.ofText "8")) := by
    simp [RunRule.inspect, provider, Reply.mapError, Reply.bind, chosen, archive, Reply.ofExcept]
  rcases either with rfl | rfl
  · exact artifacts ⟨none, "logs"⟩ (by decide +kernel) (by decide +kernel)
  · exact artifacts ⟨none, "logs"⟩ (by decide +kernel) (by decide +kernel)

theorem newer_than_first (rule : RunRule) (either : rule = pipeline ∨ rule = workflow) :
    (watch rule [run 8 5, run 7 1]).Newer (run 7 1) [run 8 5, run 7 1] (run 8 5) :=
  newer rule _ (by decide) (by rcases either with rfl | rfl <;> rfl) (by decide) (file rule _ either)

theorem newer_below_retry (rule : RunRule) (either : rule = pipeline ∨ rule = workflow) :
    (watch rule [run 7 9, run 8 5]).Newer (run 7 1) [run 7 9, run 8 5] (run 8 5) :=
  newer rule _ (by decide) (by rcases either with rfl | rfl <;> rfl) (by decide) (file rule _ either)

end RetriedRun

open RetriedRun in
theorem newer_run_taken :
    (watch workflow [run 8 5, run 7 1]).Newer (run 7 1) [run 8 5, run 7 1] (run 8 5) ∧
      ((watch workflow [run 8 5, run 7 1]).tryIngest (some "7")).1 = .gives (.changed "8" (Bytes.ofText "8")) ∧
      ¬ (watch workflow [run 8 5, run 7 1]).CutOff (run 7 1) [run 8 5, run 7 1] := by
  have newer := newer_than_first workflow (.inr rfl)
  have taken : ((watch workflow [run 8 5, run 7 1]).tryIngest (some "7")).1 =
    .gives (.changed "8" (Bytes.ofText "8")) := by decide +kernel
  exact ⟨newer, taken, (RunWatch.newer_run_taken_iff _ (run 7 1) _ (run 8 5) newer).mp ⟨_, _, taken⟩⟩

open RetriedRun in
theorem retried_run_hides_newer_one :
    ((watch pipeline [run 7 9, run 8 5]).Newer (run 7 1) [run 7 9, run 8 5] (run 8 5) ∧
      ((watch pipeline [run 7 9, run 8 5]).tryIngest (some (pipeline.key (run 7 1)))).1 = .gives .unchanged) ∧
    (watch workflow [run 7 9, run 8 5]).Newer (run 7 1) [run 7 9, run 8 5] (run 8 5) ∧
      ((watch workflow [run 7 9, run 8 5]).tryIngest (some (workflow.key (run 7 1)))).1 = .gives .unchanged :=
  ⟨⟨newer_below_retry pipeline (.inl rfl), by decide +kernel⟩, newer_below_retry workflow (.inr rfl),
    by decide +kernel⟩

end IndexKeeper
