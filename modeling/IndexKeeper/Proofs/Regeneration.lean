import IndexKeeper.Proofs.Round

set_option autoImplicit false

namespace IndexKeeper

namespace Engine

-- Between two rounds everything but the state of the loop may change.
inductive After : List RoundOutcome → Engine → Prop where
  | start (e : Engine) (idle : e.loop.pendingRegeneration = false) (new : e.loop.firstRound = true) :
      After [] e
  | round (history : List RoundOutcome) (e : Engine) (reached : After history e) :
      After (e.runRound.1 :: history) e.runRound.2
  | between (history : List RoundOutcome) (e next : Engine) (reached : After history e)
      (same : next.loop = e.loop) : After history next

def Owed : List RoundOutcome → Prop
  | [] => False
  | o :: older => o.published = none ∧ (o.changed ≠ [] ∨ Owed older)

theorem poll_sources_outcome (e : Engine) (o : RoundOutcome) (sources : List Source) :
    (e.pollSources o sources).2.2.published = o.published ∧
      (e.pollSources o sources).2.2.generationFailed = o.generationFailed := by
  induction sources generalizing e o with
  | nil => exact ⟨rfl, rfl⟩
  | cons s rest ih =>
      rw [pollSources]
      generalize e.pollSource s = answer
      obtain ⟨next, source, verdict⟩ := answer
      cases verdict with
      | cancelled => exact ⟨rfl, rfl⟩
      | changed => exact ih next _
      | unchanged => exact ih next _
      | failed => exact ih next _

def marked (e : Engine) (o : RoundOutcome) : Engine :=
  { e with loop := { e.loop with
      pendingRegeneration := !o.changed.isEmpty || e.loop.pendingRegeneration } }

def isDue (e : Engine) (o : RoundOutcome) (behind : Bool) : Bool :=
  !o.changed.isEmpty || (e.loop.retryFailedGeneration && e.loop.pendingRegeneration) || behind

theorem finish_round_idle (e : Engine) (o : RoundOutcome) (behind : Bool)
    (idle : o.cancelled = true ∨ e.isDue o behind = false) :
    e.finishRound o behind = (o, e.marked o) := by
  unfold finishRound
  dsimp only
  cases cancelled : o.cancelled with
  | true => rfl
  | false =>
      have notDue : e.isDue o behind = false := by
        cases idle with
        | inl called => exact absurd called (by simp [cancelled])
        | inr notDue => exact notDue
      rw [if_neg Bool.false_ne_true, if_pos]
      · rfl
      · revert notDue
        unfold isDue
        cases o.changed.isEmpty <;> cases e.loop.retryFailedGeneration <;>
          cases e.loop.pendingRegeneration <;> cases behind <;> simp

theorem finish_round_due (e : Engine) (o : RoundOutcome) (behind : Bool)
    (through : o.cancelled = false) (due : e.isDue o behind = true) :
    e.finishRound o behind = match (e.marked o).regenerate with
      | (.ok index, next) => ({ o with published := some index },
          { next with loop := { next.loop with pendingRegeneration := false } })
      | (.error _, next) =>
          ({ o with generationFailed := true, cancelled := next.clock.cancelled }, next) := by
  unfold finishRound
  dsimp only
  rw [through, if_neg Bool.false_ne_true, if_neg]
  · rfl
  · revert due
    unfold isDue
    cases o.changed.isEmpty <;> cases e.loop.retryFailedGeneration <;>
      cases e.loop.pendingRegeneration <;> cases behind <;> simp

theorem idle_or_due (e : Engine) (o : RoundOutcome) (behind : Bool) :
    (o.cancelled = true ∨ e.isDue o behind = false) ∨
      (o.cancelled = false ∧ e.isDue o behind = true) := by
  cases o.cancelled <;> cases e.isDue o behind <;> simp

theorem marked_pending (e : Engine) (o : RoundOutcome) :
    (e.marked o).loop.pendingRegeneration = true ↔
      o.changed ≠ [] ∨ e.loop.pendingRegeneration = true := by
  simp [marked]

theorem finish_round_pending (e : Engine) (o : RoundOutcome) (behind : Bool)
    (unpublished : o.published = none) :
    (e.finishRound o behind).2.loop.pendingRegeneration = true ↔
      (e.finishRound o behind).1.published = none ∧
        ((e.finishRound o behind).1.changed ≠ [] ∨ e.loop.pendingRegeneration = true) := by
  rcases idle_or_due e o behind with idle | ⟨through, due⟩
  · rw [finish_round_idle e o behind idle, marked_pending]
    exact ⟨fun owed => ⟨unpublished, owed⟩, fun both => both.2⟩
  · rw [finish_round_due e o behind through due]
    have frame := (regenerate_frame (e.marked o)).1
    generalize (e.marked o).regenerate = answer at frame ⊢
    obtain ⟨result, next⟩ := answer
    cases result with
    | ok index => simp
    | error error =>
        have same : next.loop = (e.marked o).loop := frame.loop
        have owed := marked_pending e o
        rw [← same] at owed
        exact owed.trans ⟨fun owed => ⟨unpublished, owed⟩, fun both => both.2⟩

theorem finish_round_loop (e : Engine) (o : RoundOutcome) (behind : Bool) :
    (e.finishRound o behind).2.loop.firstRound = e.loop.firstRound ∧
      (e.finishRound o behind).2.loop.retryFailedGeneration = e.loop.retryFailedGeneration := by
  rcases idle_or_due e o behind with idle | ⟨through, due⟩
  · rw [finish_round_idle e o behind idle]
    exact ⟨rfl, rfl⟩
  · rw [finish_round_due e o behind through due]
    have same := (regenerate_frame (e.marked o)).1.loop
    generalize (e.marked o).regenerate = answer at same ⊢
    obtain ⟨result, next⟩ := answer
    change next.loop = (e.marked o).loop at same
    cases result <;> simp [same, marked]

theorem finish_round_calls (e : Engine) (o : RoundOutcome) (behind : Bool)
    (through : o.cancelled = false) (uncalled : e.clock.cancelled = false) :
    (e.finishRound o behind).2.generatorCalls =
      if e.isDue o behind then e.generatorCalls + 1 else e.generatorCalls := by
  cases due : e.isDue o behind with
  | false => rw [finish_round_idle e o behind (.inr due)]; rfl
  | true =>
      rw [finish_round_due e o behind through due]
      have calls := (regenerate_frame (e.marked o)).2
      have running : (e.marked o).clock.cancelled = false := uncalled
      rw [running, if_neg Bool.false_ne_true] at calls
      generalize (e.marked o).regenerate = answer at calls ⊢
      obtain ⟨result, next⟩ := answer
      cases result <;> exact calls

theorem finish_round_failed (e : Engine) (o : RoundOutcome) (behind : Bool)
    (unfailed : o.generationFailed = false)
    (failed : (e.finishRound o behind).1.generationFailed = true) :
    e.isDue o behind = true ∧ (e.finishRound o behind).1.changed = o.changed ∧
      (e.finishRound o behind).1.published = o.published := by
  rcases idle_or_due e o behind with idle | ⟨through, due⟩
  · rw [finish_round_idle e o behind idle, unfailed] at failed
    exact absurd failed Bool.false_ne_true
  · rw [finish_round_due e o behind through due] at failed ⊢
    generalize (e.marked o).regenerate = answer at failed ⊢
    obtain ⟨result, next⟩ := answer
    cases result with
    | ok index => exact absurd (unfailed.symm.trans failed) Bool.false_ne_true
    | error error => exact ⟨due, rfl, rfl⟩

theorem polled_start (e : Engine) :
    e.polled.1.loop = { e.loop with firstRound := false } ∧
      e.polled.1.generatorCalls = e.generatorCalls ∧
      e.polled.2.2.published = none ∧ e.polled.2.2.generationFailed = false := by
  have frame := poll_sources_frame { e with loop := { e.loop with firstRound := false } } {} e.sources
  have outcome := poll_sources_outcome { e with loop := { e.loop with firstRound := false } } {} e.sources
  exact ⟨frame.loop, frame.calls, outcome.1, outcome.2⟩

theorem polled_due (e : Engine) (behind : Bool) :
    Engine.isDue { e.polled.1 with sources := e.polled.2.1 } e.polled.2.2 behind =
      e.isDue e.polled.2.2 behind := by
  have loop := (polled_start e).1
  have pending : e.polled.1.loop.pendingRegeneration = e.loop.pendingRegeneration := by rw [loop]
  have retry : e.polled.1.loop.retryFailedGeneration = e.loop.retryFailedGeneration := by rw [loop]
  simp only [isDue, pending, retry]

theorem round_calls (e : Engine) (through : e.polled.2.2.cancelled = false)
    (uncalled : e.polled.1.clock.cancelled = false) :
    e.runRound.2.generatorCalls =
      if e.isDue e.polled.2.2 (e.loop.firstRound && e.indexIsBehind) then e.generatorCalls + 1
      else e.generatorCalls := by
  have calls := finish_round_calls { e.polled.1 with sources := e.polled.2.1 } e.polled.2.2
    (e.loop.firstRound && e.indexIsBehind) through uncalled
  have before : Engine.generatorCalls { e.polled.1 with sources := e.polled.2.1 } = e.generatorCalls :=
    (polled_start e).2.1
  rw [polled_due, before] at calls
  rw [run_round_polled]
  exact calls

def regenerating (e : Engine) : Engine := marked { e.polled.1 with sources := e.polled.2.1 } e.polled.2.2

theorem regenerating_frame (e : Engine) : e.regenerating.publisher = e.publisher ∧
    e.regenerating.indexName = e.indexName ∧ e.regenerating.generator = e.generator ∧
    e.regenerating.generations = e.generations := by
  have frame := poll_sources_frame { e with loop := { e.loop with firstRound := false } } {} e.sources
  exact ⟨frame.publisher, frame.indexName, frame.generator, frame.generations⟩

theorem run_round_idle (e : Engine) (idle : e.polled.2.2.cancelled = true ∨
    e.isDue e.polled.2.2 (e.loop.firstRound && e.indexIsBehind) = false) :
    e.runRound = (e.polled.2.2, e.regenerating) := by
  rw [← polled_due] at idle
  rw [run_round_polled, finish_round_idle _ _ _ idle]
  rfl

theorem run_round_due (e : Engine) (through : e.polled.2.2.cancelled = false)
    (due : e.isDue e.polled.2.2 (e.loop.firstRound && e.indexIsBehind) = true) :
    e.runRound = match e.regenerating.regenerate with
      | (.ok index, next) => ({ e.polled.2.2 with published := some index },
          { next with loop := { next.loop with pendingRegeneration := false } })
      | (.error _, next) =>
          ({ e.polled.2.2 with generationFailed := true, cancelled := next.clock.cancelled }, next) := by
  rw [← polled_due] at due
  rw [run_round_polled, finish_round_due _ _ _ through due]
  rfl

theorem is_due_iff (e : Engine) (o : RoundOutcome) (behind : Bool) :
    e.isDue o behind = true ↔ o.changed ≠ [] ∨
      (e.loop.retryFailedGeneration = true ∧ e.loop.pendingRegeneration = true) ∨ behind = true := by
  simp [isDue, or_assoc]

theorem due_iff (e : Engine) (o : RoundOutcome) (behind : Bool)
    (retry : e.loop.retryFailedGeneration = true) :
    e.isDue o behind = true ↔
      o.changed ≠ [] ∨ e.loop.pendingRegeneration = true ∨ behind = true := by
  rw [is_due_iff]
  simp [retry]

theorem first_round_not_due (e : Engine) (o : RoundOutcome) (first : e.loop.firstRound = true)
    (notDue : e.isDue o (e.loop.firstRound && e.indexIsBehind) = false) :
    o.changed = [] ∧ e.indexIsBehind = false := by
  rw [first] at notDue
  revert notDue
  unfold isDue
  cases o.changed <;> cases e.indexIsBehind <;> simp

theorem round_pending (e : Engine) :
    e.runRound.2.loop.pendingRegeneration = true ↔
      e.runRound.1.published = none ∧
        (e.runRound.1.changed ≠ [] ∨ e.loop.pendingRegeneration = true) := by
  obtain ⟨loop, -, unpublished, -⟩ := polled_start e
  have same : e.polled.1.loop.pendingRegeneration = e.loop.pendingRegeneration := by rw [loop]
  rw [run_round_polled, ← same]
  exact finish_round_pending { e.polled.1 with sources := e.polled.2.1 } _ _ unpublished

theorem round_loop (e : Engine) :
    e.runRound.2.loop.firstRound = false ∧
      e.runRound.2.loop.retryFailedGeneration = e.loop.retryFailedGeneration := by
  obtain ⟨loop, -⟩ := polled_start e
  have after := finish_round_loop { e.polled.1 with sources := e.polled.2.1 } e.polled.2.2
    (e.loop.firstRound && e.indexIsBehind)
  rw [run_round_polled]
  constructor
  · rw [after.1]
    change e.polled.1.loop.firstRound = false
    rw [loop]
  · rw [after.2]
    change e.polled.1.loop.retryFailedGeneration = e.loop.retryFailedGeneration
    rw [loop]

theorem after_pending (history : List RoundOutcome) (e : Engine) (reached : After history e) :
    e.loop.pendingRegeneration = true ↔ Owed history := by
  induction reached with
  | start e idle new => simp [idle, Owed]
  | round history e reached ih =>
      rw [round_pending, ih]
      rfl
  | between history e next reached same ih => rwa [same]

theorem after_first (history : List RoundOutcome) (e : Engine) (reached : After history e) :
    e.loop.firstRound = true ↔ history = [] := by
  induction reached with
  | start e idle new => simp [new]
  | round history e reached ih => simp [(round_loop e).1]
  | between history e next reached same ih => rwa [same]

theorem failed_round_due (e : Engine) (retry : e.loop.retryFailedGeneration = true)
    (failed : e.runRound.1.generationFailed = true) :
    e.runRound.1.published = none ∧
      (e.runRound.1.changed ≠ [] ∨ e.loop.pendingRegeneration = true ∨ e.loop.firstRound = true) := by
  obtain ⟨-, -, unpublished, unfailed⟩ := polled_start e
  rw [run_round_polled] at failed ⊢
  obtain ⟨due, changed, published⟩ := finish_round_failed { e.polled.1 with sources := e.polled.2.1 }
    e.polled.2.2 _ unfailed failed
  refine ⟨published.trans unpublished, ?_⟩
  rw [polled_due, due_iff e _ _ retry] at due
  rw [changed]
  exact due.imp id (Or.imp id fun behind => (Bool.and_eq_true _ _ ▸ behind).1)

-- A generation can fail and leave nothing owed only in the very first round.
theorem failed_round_owed (history : List RoundOutcome) (e : Engine) (reached : After history e)
    (retry : e.loop.retryFailedGeneration = true) (o : RoundOutcome) (older : List RoundOutcome)
    (last : history = o :: older) (failed : o.generationFailed = true) :
    Owed history ↔ o.changed ≠ [] ∨ older ≠ [] := by
  induction reached with
  | start e idle new => exact absurd last (by simp)
  | round before e reached ih =>
      obtain ⟨rfl, rfl⟩ := List.cons.inj last
      rw [(round_loop e).2] at retry
      obtain ⟨unpublished, due⟩ := failed_round_due e retry failed
      rw [after_pending before e reached, after_first before e reached] at due
      constructor
      · intro owed
        by_cases fresh : before = []
        · subst fresh
          exact .inl (owed.2.resolve_right id)
        · exact .inr fresh
      · rintro (changed | later)
        · exact ⟨unpublished, .inl changed⟩
        · refine ⟨unpublished, ?_⟩
          rcases due with changed | owed | fresh
          · exact .inl changed
          · exact .inr owed
          · exact absurd fresh later
  | between before e next reached same ih =>
      rw [same] at retry
      exact ih retry last

end Engine

theorem regeneration_repeated_iff (history : List RoundOutcome) (e : Engine)
    (reached : Engine.After history e) (retry : e.loop.retryFailedGeneration = true)
    (through : e.polled.2.2.cancelled = false) (uncalled : e.polled.1.clock.cancelled = false) :
    (e.runRound.2.generatorCalls = e.generatorCalls + 1 ↔
      e.polled.2.2.changed ≠ [] ∨ Engine.Owed history ∨ (history = [] ∧ e.indexIsBehind = true)) ∧
    (∀ o older, history = o :: older → o.generationFailed = true →
      (Engine.Owed history ↔ o.changed ≠ [] ∨ older ≠ [])) := by
  constructor
  · have calls := Engine.round_calls e through uncalled
    have due := Engine.due_iff e e.polled.2.2 (e.loop.firstRound && e.indexIsBehind) retry
    rw [Bool.and_eq_true, Engine.after_pending history e reached,
      Engine.after_first history e reached] at due
    rw [calls, ← due]
    cases e.isDue e.polled.2.2 (e.loop.firstRound && e.indexIsBehind) <;> simp
  · intro o older last failed
    exact Engine.failed_round_owed history e reached retry o older last failed

namespace FailingGenerator

def disk : Disk := ⟨⟨[(["new"], .file (Bytes.ofText "two")), (["data"], .directory),
  (["data", "index"], .directory), (["data", "source"], .directory),
  (["data", "source", "a"], .directory),
  (["data", "source", "a", "build.complog"], .file (Bytes.ofText "one")),
  (["data", "source", "a", "version"], .file (Bytes.ofText "k"))], []⟩, [], []⟩

def engine (path : String) : Engine where
  sources := [⟨"a", .filesystem path⟩]
  coordinator := ⟨⟨"data"⟩, NameMap.empty.insert "a" ⟨"a", "k", "data/source/a/build.complog"⟩⟩
  publisher := ⟨⟨"data"⟩, none⟩
  loop := { intervalSecs := 60, sourceTimeoutSecs := 300, retryFailedGeneration := true }
  disk := disk
  clock := Clock.start none
  indexName n := "i" ++ toString n
  generator _ _ _ t := (.fails (.reported "no index"), t)
  generations := 0
  events := []

theorem start (path : String) : Engine.After [] (engine path) := .start _ rfl rfl

end FailingGenerator

open FailingGenerator in
theorem changed_source_repeated :
    Engine.Owed [(engine "new").runRound.1] ∧
      (engine "new").runRound.2.runRound.2.generatorCalls =
        (engine "new").runRound.2.generatorCalls + 1 := by
  have reached := Engine.After.round [] (engine "new") (start "new")
  have repeated := regeneration_repeated_iff [(engine "new").runRound.1] (engine "new").runRound.2 reached
    (by decide +kernel) (by decide +kernel) (by decide +kernel)
  have failed : (engine "new").runRound.1.generationFailed = true := by decide +kernel
  have owed := (repeated.2 _ [] rfl failed).mpr (.inl (by decide +kernel))
  exact ⟨owed, repeated.1.mpr (.inr (.inl owed))⟩

open FailingGenerator in
theorem first_round_failure_is_forgotten :
    Engine.After [(engine "missing").runRound.1] (engine "missing").runRound.2 ∧
      (engine "missing").runRound.2.loop.retryFailedGeneration = true ∧
      (engine "missing").runRound.1.generationFailed = true ∧
      (engine "missing").runRound.2.indexIsBehind = true ∧
      (engine "missing").runRound.2.polled.2.2.cancelled = false ∧
      (engine "missing").runRound.2.polled.1.clock.cancelled = false ∧
      (engine "missing").runRound.2.runRound.2.generatorCalls =
        (engine "missing").runRound.2.generatorCalls :=
  ⟨.round [] (engine "missing") (start "missing"), by decide +kernel, by decide +kernel, by decide +kernel,
    by decide +kernel, by decide +kernel, by decide +kernel⟩

end IndexKeeper
