import IndexKeeper.Engine
import IndexKeeper.Proofs.RecordedPairs

set_option autoImplicit false

namespace IndexKeeper

open Store (sourceAt)

theorem try_ingest_name (s : Source) (t : FileTree) (existing : Option String) :
    (s.tryIngest t existing).2.1.name = s.name := by
  unfold Source.tryIngest
  split <;> rfl

theorem confirm_name (s : Source) : s.confirm.name = s.name := by
  unfold Source.confirm
  split <;> rfl

theorem record_cases (c : Coordinator) (d : Disk) (source key : String) (bytes : Bytes) :
    (∃ e next, c.store.writeArtifact d source key bytes = (.error e, next) ∧
        c.record d source key bytes = (.error e, c, next)) ∨
      ∃ next, c.store.writeArtifact d source key bytes = (.ok (), next) ∧
        c.record d source key bytes = (.ok (c.store.artifactPath source),
          { c with entries := c.entries.insert source ⟨source, key, c.store.artifactPath source⟩ }, next) := by
  unfold Coordinator.record
  dsimp only
  generalize c.store.writeArtifact d source key bytes = answer
  obtain ⟨result, next⟩ := answer
  cases result with
  | error e => exact .inl ⟨e, next, rfl, rfl⟩
  | ok => exact .inr ⟨next, rfl, rfl⟩

theorem record_failed {c next : Coordinator} {d after : Disk} {source key : String} {bytes : Bytes}
    {error : StoreError} (failed : c.record d source key bytes = (.error error, next, after)) : next = c := by
  rcases record_cases c d source key bytes with ⟨e, disk, -, done⟩ | ⟨disk, -, done⟩
  · exact congrArg (·.2.1) (failed.symm.trans done)
  · cases failed.symm.trans done

theorem record_stored {c next : Coordinator} {d after : Disk} {source key path : String} {bytes : Bytes}
    (recorded : c.record d source key bytes = (.ok path, next, after)) : next.store = c.store ∧
      next.entries = c.entries.insert source ⟨source, key, c.store.artifactPath source⟩ := by
  rcases record_cases c d source key bytes with ⟨e, disk, -, done⟩ | ⟨disk, -, done⟩
  · cases recorded.symm.trans done
  · obtain rfl : next = _ := congrArg (·.2.1) (recorded.symm.trans done)
    exact ⟨rfl, rfl⟩

theorem record_store (c : Coordinator) (d : Disk) (source key : String) (bytes : Bytes) :
    (c.record d source key bytes).2.1.store = c.store := by
  rcases record_cases c d source key bytes with ⟨e, next, -, done⟩ | ⟨next, -, done⟩ <;> rw [done]

theorem record_disk (c : Coordinator) (d : Disk) (source key : String) (bytes : Bytes) :
    (c.record d source key bytes).2.2 = (c.store.writeArtifact d source key bytes).2 := by
  rcases record_cases c d source key bytes with ⟨e, next, written, done⟩ | ⟨next, written, done⟩ <;>
    rw [written, done]

namespace Engine

def answer (e : Engine) (source : Source) : Reply PollError Outcome × Source × List Question :=
  source.tryIngest e.disk.files (e.coordinator.versionKey? source.name)

def ingestion (e : Engine) (source : Source) : Ingestion :=
  e.coordinator.ingestUntil e.disk source (e.interrupts source.name)

def AtPolls (holds : Engine → Source → Prop) : Engine → List Source → Prop
  | _, [] => True
  | e, source :: rest => holds e source ∧ AtPolls holds (e.pollSource source).1 rest

structure Stores (e : Engine) (source : Source) : Prop where
  written : ∀ error, (e.ingestion source).reply ≠ .fails (.store error)
  whole : ∀ cause steps, e.interrupts source.name ≠ .storing cause steps

def offered? (e : Engine) (source : Source) : Option (String × Bytes) :=
  if e.clock.cancelled then none
  else match e.interrupts source.name, (e.answer source).1 with
    | .reading _, _ => none
    | _, .gives (.changed key bytes) => some (key, bytes)
    | _, _ => none

end Engine

inductive Polled (e : Engine) (source : Source) : Engine × Source × Verdict → Prop where
  | off (offered : e.offered? source = none) (called : e.clock.cancelled = true) :
      Polled e source (e, source, .cancelled)
  | early (next : Engine) (verdict : Verdict) (cause : Cause) (offered : e.offered? source = none)
      (broken : e.interrupts source.name = .reading cause) (coordinator : next.coordinator = e.coordinator)
      (disk : next.disk = e.disk) (unchanged : verdict ≠ .changed) : Polled e source (next, source, verdict)
  | left (next : Engine) (verdict : Verdict) (offered : e.offered? source = none)
      (coordinator : next.coordinator = e.coordinator) (disk : next.disk = e.disk)
      (nothing : ∀ key bytes, (e.answer source).1 ≠ .gives (.changed key bytes))
      (unchanged : verdict ≠ .changed) : Polled e source (next, (e.answer source).2.1, verdict)
  | stored (next : Engine) (key path : String) (bytes : Bytes) (offered : e.offered? source = some (key, bytes))
      (changed : (e.answer source).1 = .gives (.changed key bytes))
      (recorded : e.coordinator.record e.disk source.name key bytes = (.ok path, next.coordinator, next.disk)) :
      Polled e source (next, (e.answer source).2.1.confirm, .changed)
  | unstored (next : Engine) (key : String) (bytes : Bytes) (error : StoreError)
      (offered : e.offered? source = some (key, bytes)) (changed : (e.answer source).1 = .gives (.changed key bytes))
      (recorded : e.coordinator.record e.disk source.name key bytes = (.error error, next.coordinator, next.disk))
      (reply : (e.ingestion source).reply = .fails (.store error)) :
      Polled e source (next, (e.answer source).2.1, .failed)
  | halfway (next : Engine) (verdict : Verdict) (cause : Cause) (steps : Nat) (key : String) (bytes : Bytes)
      (offered : e.offered? source = some (key, bytes)) (changed : (e.answer source).1 = .gives (.changed key bytes))
      (broken : e.interrupts source.name = .storing cause steps) (coordinator : next.coordinator = e.coordinator)
      (performed : e.disk.performAll ((e.coordinator.store.artifactWork source.name key bytes).take steps) =
        (.ok (), next.disk))
      (unchanged : verdict ≠ .changed) : Polled e source (next, (e.answer source).2.1, verdict)

theorem ingest_cases (c : Coordinator) (d : Disk) (source : Source) :
    let answer := source.tryIngest d.files (c.versionKey? source.name)
    let i := c.ingestIfChanged d source
    ((∀ key bytes, answer.1 ≠ .gives (.changed key bytes)) ∧ i.reply ≠ .gives true ∧ i.coordinator = c ∧ i.disk = d ∧
      i.source = answer.2.1) ∨
    ∃ key bytes, answer.1 = .gives (.changed key bytes) ∧
      ((∃ error, i.reply = .fails (.store error) ∧ i.source = answer.2.1 ∧
        c.record d source.name key bytes = (.error error, i.coordinator, i.disk)) ∨
      ∃ path, i.reply = .gives true ∧ i.source = answer.2.1.confirm ∧
        c.record d source.name key bytes = (.ok path, i.coordinator, i.disk)) := by
  have name := try_ingest_name source d.files (c.versionKey? source.name)
  dsimp only
  unfold Coordinator.ingestIfChanged
  generalize source.tryIngest d.files (c.versionKey? source.name) = answer at name ⊢
  obtain ⟨reply, next, asked⟩ := answer
  cases reply with
  | fails error => exact .inl ⟨nofun, nofun, rfl, rfl, rfl⟩
  | hangs => exact .inl ⟨nofun, nofun, rfl, rfl, rfl⟩
  | cancels => exact .inl ⟨nofun, nofun, rfl, rfl, rfl⟩
  | gives outcome =>
      cases outcome with
      | unchanged => exact .inl ⟨nofun, nofun, rfl, rfl, rfl⟩
      | changed key bytes =>
          refine .inr ⟨key, bytes, rfl, ?_⟩
          dsimp only at name ⊢
          rw [name]
          generalize c.record d source.name key bytes = done
          obtain ⟨result, coordinator, disk⟩ := done
          cases result with
          | error error => exact .inl ⟨error, rfl, rfl, rfl⟩
          | ok path => exact .inr ⟨path, rfl, rfl, rfl⟩

section Poll

variable (e : Engine) (source : Source)

theorem ingestion_poll (running : e.clock.cancelled = false) : ∃ next verdict,
    e.pollSource source = (next, (e.ingestion source).source, verdict) ∧
      next.coordinator = (e.ingestion source).coordinator ∧ next.disk = (e.ingestion source).disk ∧
      (verdict = .changed ↔ (e.ingestion source).reply = .gives true) ∧
      ∀ error, (e.ingestion source).reply = .fails error → verdict = .failed := by
  have shape : e.coordinator.ingestUntil e.disk source (e.interrupts source.name) = e.ingestion source := rfl
  unfold Engine.pollSource
  rw [running, if_neg Bool.false_ne_true]
  dsimp only
  rw [shape]
  generalize e.ingestion source = i
  obtain ⟨reply, coordinator, disk, next, asked⟩ := i
  cases reply with
  | gives news => cases news <;> exact ⟨_, _, rfl, rfl, rfl, by simp, nofun⟩
  | fails error => exact ⟨_, _, rfl, rfl, rfl, by simp, fun _ _ => rfl⟩
  | hangs =>
      refine ⟨_, _, rfl, rfl, rfl, ?_, nofun⟩
      dsimp only
      generalize Clock.wait _ _ = late
      cases late.cancelled <;> simp
  | cancels => exact ⟨_, _, rfl, rfl, rfl, by simp, nofun⟩

theorem undisturbed_poll (undisturbed : e.interrupts source.name = .never) :
    e.ingestion source = e.coordinator.ingestIfChanged e.disk source := by
  unfold Engine.ingestion
  rw [undisturbed]
  rfl

theorem whole_poll (read : ∀ cause, e.interrupts source.name ≠ .reading cause)
    (stored : ∀ cause steps key bytes, e.interrupts source.name = .storing cause steps →
      (e.answer source).1 ≠ .gives (.changed key bytes)) :
    e.ingestion source = e.coordinator.ingestIfChanged e.disk source := by
  unfold Engine.ingestion
  unfold Engine.answer at stored
  cases broken : e.interrupts source.name with
  | never => rfl
  | ending => rfl
  | reading cause => exact absurd broken (read cause)
  | storing cause steps =>
      unfold Coordinator.ingestUntil
      dsimp only
      split
      · next key bytes next asked answered => exact absurd (by rw [answered]) (stored cause steps key bytes broken)
      · rfl

theorem offered_of_answer (running : e.clock.cancelled = false)
    (read : ∀ cause, e.interrupts source.name ≠ .reading cause) (key : String) (bytes : Bytes)
    (changed : (e.answer source).1 = .gives (.changed key bytes)) : e.offered? source = some (key, bytes) := by
  unfold Engine.offered?
  rw [running, if_neg Bool.false_ne_true, changed]
  split
  · next cause broken => exact absurd broken (read cause)
  · next same _ => cases same; rfl
  · next none => exact absurd rfl (none key bytes)

theorem halfway_poll (cause : Cause) (steps : Nat) (broken : e.interrupts source.name = .storing cause steps)
    (key : String) (bytes : Bytes) (changed : (e.answer source).1 = .gives (.changed key bytes)) :
    (e.ingestion source).source = (e.answer source).2.1 ∧ (e.ingestion source).coordinator = e.coordinator ∧
      (((e.ingestion source).reply = cause.reply ∧
        e.disk.performAll ((e.coordinator.store.artifactWork source.name key bytes).take steps) =
          (.ok (), (e.ingestion source).disk)) ∨
      ∃ error, (e.ingestion source).reply = .fails (.store error) ∧
        e.coordinator.record e.disk source.name key bytes =
          (.error error, e.coordinator, (e.ingestion source).disk)) := by
  have name := try_ingest_name source e.disk.files (e.coordinator.versionKey? source.name)
  unfold Engine.ingestion Coordinator.ingestUntil
  unfold Engine.answer at changed ⊢
  rw [broken]
  generalize source.tryIngest e.disk.files (e.coordinator.versionKey? source.name) = answer at name changed ⊢
  obtain ⟨reply, next, asked⟩ := answer
  obtain rfl : reply = .gives (.changed key bytes) := changed
  dsimp only at name ⊢
  rw [name]
  cases performed : e.disk.performAll ((e.coordinator.store.artifactWork source.name key bytes).take steps) with
  | mk result disk =>
    cases result with
    | ok => exact ⟨rfl, rfl, .inl ⟨rfl, rfl⟩⟩
    | error error =>
        have written : e.coordinator.store.writeArtifact e.disk source.name key bytes = (.error error, disk) :=
          perform_all_take_error _ _ _ steps _ performed
        refine ⟨rfl, rfl, .inr ⟨error, rfl, ?_⟩⟩
        unfold Coordinator.record
        rw [written]

theorem cause_no_answer (cause : Cause) : cause.reply ≠ .gives true := by
  cases cause <;> nofun

theorem offered_answer (key : String) (bytes : Bytes) (offered : e.offered? source = some (key, bytes)) :
    (e.answer source).1 = .gives (.changed key bytes) := by
  unfold Engine.offered? at offered
  split at offered
  · cases offered
  · split at offered
    · cases offered
    · next answered _ =>
        cases offered
        exact answered
    · cases offered

theorem offered_none (nothing : ∀ key bytes, (e.answer source).1 ≠ .gives (.changed key bytes)) :
    e.offered? source = none := by
  cases offered : e.offered? source with
  | none => rfl
  | some offer => exact absurd (offered_answer e source offer.1 offer.2 offered) (nothing _ _)

theorem source_polled : Polled e source (e.pollSource source) := by
  cases running : e.clock.cancelled with
  | true =>
      unfold Engine.pollSource
      rw [running]
      exact .off (by rw [Engine.offered?, running]; rfl) running
  | false =>
      obtain ⟨next, verdict, polled, coordinator, disk, changed, failed⟩ := ingestion_poll e source running
      rw [polled]
      have whole (read : ∀ cause, e.interrupts source.name ≠ .reading cause)
          (same : e.ingestion source = e.coordinator.ingestIfChanged e.disk source) :
          Polled e source (next, (e.ingestion source).source, verdict) := by
        have offered := offered_of_answer e source running read
        have cases := ingest_cases e.coordinator e.disk source
        dsimp only at cases
        rw [← same, ← coordinator, ← disk] at cases
        rcases cases with ⟨nothing, idle, kept, still, after⟩ | ⟨key, bytes, answered, stored⟩
        · rw [after]
          exact .left next verdict (offered_none e source nothing) kept still nothing
            fun change => idle (changed.mp change)
        · rcases stored with ⟨error, reply, after, recorded⟩ | ⟨path, reply, after, recorded⟩
          · rw [after, failed _ reply]
            exact .unstored next key bytes error (offered key bytes answered) answered recorded reply
          · rw [after, changed.mpr reply]
            exact .stored next key path bytes (offered key bytes answered) answered recorded
      cases broken : e.interrupts source.name with
      | never => exact whole (by simp [broken]) (whole_poll e source (by simp [broken]) (by simp [broken]))
      | ending => exact whole (by simp [broken]) (whole_poll e source (by simp [broken]) (by simp [broken]))
      | reading cause =>
          have same : e.ingestion source = ⟨cause.reply, e.coordinator, e.disk, source, []⟩ := by
            unfold Engine.ingestion
            rw [broken]
            rfl
          rw [same] at coordinator disk changed ⊢
          have offered : e.offered? source = none := by rw [Engine.offered?, running, broken]; rfl
          exact .early next verdict cause offered broken coordinator disk
            fun change => cause_no_answer cause (changed.mp change)
      | storing cause steps =>
          by_cases new : ∃ key bytes, (e.answer source).1 = .gives (.changed key bytes)
          · obtain ⟨key, bytes, answered⟩ := new
            have offered := offered_of_answer e source running (by simp [broken]) key bytes answered
            obtain ⟨after, kept, ⟨reply, performed⟩ | ⟨error, reply, recorded⟩⟩ :=
              halfway_poll e source cause steps broken key bytes answered
            · rw [after]
              exact .halfway next verdict cause steps key bytes offered answered broken (coordinator.trans kept)
                (disk ▸ performed) fun change => cause_no_answer cause (reply.symm.trans (changed.mp change))
            · rw [after, failed _ reply]
              exact .unstored next key bytes error offered answered (by rw [coordinator, kept, disk, recorded]) reply
          · exact whole (by simp [broken]) (whole_poll e source (by simp [broken])
              fun _ _ key bytes _ change => new ⟨key, bytes, change⟩)

theorem Engine.poll_source_name : (e.pollSource source).2.1.name = source.name := by
  have name : (e.answer source).2.1.name = source.name := try_ingest_name source _ _
  have polled := source_polled e source
  generalize e.pollSource source = done at polled ⊢
  cases polled with
  | off offered called => rfl
  | early next verdict cause offered broken coordinator disk unchanged => rfl
  | left next verdict offered coordinator disk nothing unchanged => exact name
  | stored next key path bytes offered changed recorded => exact (confirm_name _).trans name
  | unstored next key bytes error offered changed recorded reply => exact name
  | halfway next verdict cause steps key bytes offered changed broken coordinator performed unchanged => exact name

theorem Engine.poll_source_coordinator :
    ((e.pollSource source).2.2 ≠ .changed ∧ (e.pollSource source).1.coordinator = e.coordinator) ∨
      (e.pollSource source).2.2 = .changed ∧ ∃ key bytes, e.offered? source = some (key, bytes) ∧
        (e.pollSource source).1.coordinator.store = e.coordinator.store ∧
        (e.pollSource source).1.coordinator.entries = e.coordinator.entries.insert source.name
          ⟨source.name, key, e.coordinator.store.artifactPath source.name⟩ := by
  have polled := source_polled e source
  generalize e.pollSource source = done at polled ⊢
  cases polled with
  | off offered called => exact .inl ⟨nofun, rfl⟩
  | early next verdict cause offered broken coordinator disk unchanged => exact .inl ⟨unchanged, coordinator⟩
  | left next verdict offered coordinator disk nothing unchanged => exact .inl ⟨unchanged, coordinator⟩
  | stored next key path bytes offered changed recorded =>
      obtain ⟨store, entries⟩ := record_stored recorded
      exact .inr ⟨rfl, key, bytes, offered, store, entries⟩
  | unstored next key bytes error offered changed recorded reply =>
      exact .inl ⟨nofun, record_failed recorded⟩
  | halfway next verdict cause steps key bytes offered changed broken coordinator performed unchanged =>
      exact .inl ⟨unchanged, coordinator⟩

-- However a poll ends, the files are what one call to the store would leave, if some steps of it failed.
theorem poll_source_written : (e.pollSource source).1.disk = e.disk ∨ ∃ key bytes fates left,
    e.offered? source = some (key, bytes) ∧
      (e.coordinator.record { e.disk with fates } source.name key bytes).2.2 =
        { (e.pollSource source).1.disk with fates := left } := by
  have polled := source_polled e source
  generalize e.pollSource source = done at polled ⊢
  cases polled with
  | off offered called => exact .inl rfl
  | early next verdict cause offered broken coordinator disk unchanged => exact .inl disk
  | left next verdict offered coordinator disk nothing unchanged => exact .inl disk
  | stored next key path bytes offered changed recorded =>
      exact .inr ⟨key, bytes, e.disk.fates, next.disk.fates, offered, congrArg (·.2.2) recorded⟩
  | unstored next key bytes error offered changed recorded reply =>
      exact .inr ⟨key, bytes, e.disk.fates, next.disk.fates, offered, congrArg (·.2.2) recorded⟩
  | halfway next verdict cause steps key bytes offered changed broken coordinator performed unchanged =>
      rcases perform_all_take _ _ _ _ performed with whole | ⟨fates, error, refused⟩
      · refine .inr ⟨key, bytes, e.disk.fates, next.disk.fates, offered, ?_⟩
        rw [record_disk, Store.writeArtifact, whole]
      · refine .inr ⟨key, bytes, fates, [], offered, ?_⟩
        rw [record_disk, Store.writeArtifact, refused]

theorem stores_polled (stores : e.Stores source) :
    ((e.pollSource source).1.coordinator = e.coordinator ∧ (e.pollSource source).1.disk = e.disk) ∨
      ∃ key path bytes, (e.answer source).1 = .gives (.changed key bytes) ∧
        e.coordinator.record e.disk source.name key bytes =
          (.ok path, (e.pollSource source).1.coordinator, (e.pollSource source).1.disk) := by
  have polled := source_polled e source
  generalize e.pollSource source = done at polled ⊢
  cases polled with
  | off offered called => exact .inl ⟨rfl, rfl⟩
  | early next verdict cause offered broken coordinator disk unchanged => exact .inl ⟨coordinator, disk⟩
  | left next verdict offered coordinator disk nothing unchanged => exact .inl ⟨coordinator, disk⟩
  | stored next key path bytes offered changed recorded => exact .inr ⟨key, path, bytes, changed, recorded⟩
  | unstored next key bytes error offered changed recorded reply => exact absurd reply (stores.written error)
  | halfway next verdict cause steps key bytes offered changed broken coordinator performed unchanged =>
      exact absurd broken (stores.whole cause steps)

end Poll

section Steps

variable (s : Store) (root : Location) (swept : Location → Prop) (e : Engine) (source : Source)
  (store : e.coordinator.store = s) (plain : Path.Plain source.name) (standing : s.Standing root swept e.disk)
include store plain standing

theorem poll_source_steps :
    s.Steps root swept (fun l => sourceAt root source.name <+: l) e.disk (e.pollSource source).1.disk ∧
      (e.pollSource source).1.coordinator.store = s := by
  subst store
  constructor
  · rcases poll_source_written e source with same | ⟨key, bytes, fates, left, -, written⟩
    · rw [same]
      exact steps_refl _ root _ _ e.disk
    · have standing : e.coordinator.store.Standing root swept { e.disk with fates } := { standing with }
      have steps := (write_artifact _ root swept _ standing source.name plain key bytes).1
      rw [← record_disk, written] at steps
      refine steps_weaken _ root swept _ _ e.disk _ ⟨steps.files, steps.doomed, steps.dropped⟩ ?_
      rintro l (⟨rfl, -⟩ | ⟨file, rfl⟩)
      · exact List.prefix_rfl
      · exact List.prefix_append _ _
  · rcases e.poll_source_coordinator source with ⟨-, same⟩ | ⟨-, key, bytes, -, same, -⟩ <;> rw [same]

end Steps

end IndexKeeper
