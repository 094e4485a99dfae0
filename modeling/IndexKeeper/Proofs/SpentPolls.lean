import IndexKeeper.Proofs.IsolatedRounds
import IndexKeeper.Proofs.LoadedStore
import IndexKeeper.Proofs.RestartedPolls
import IndexKeeper.Proofs.ServedIndex

set_option autoImplicit false

namespace IndexKeeper

open Store (Unkept)

structure Mirroring (s : Store) (root : Location) (keep names : List String) (e : Engine) : Prop where
  standing : s.Standing root (Unkept root keep) e.disk
  mirrored : s.Mirrored e.disk.files names e.coordinator

structure Drained (s : Store) (root : Location) (keep names : List String) (t : FileTree)
    (sources : List Source) (e next : Engine) (after : List Source) : Prop where
  mirroring : Mirroring s root keep names next
  names : after.map Source.name = sources.map Source.name
  others : ∀ other, Path.Plain other → other ∉ sources.map Source.name →
    next.coordinator.versionKey? other = e.coordinator.versionKey? other
  after : ∀ source ∈ after, source.Spent t (next.coordinator.versionKey? source.name)
  anew : ∀ source ∈ sources, source.Spent t (next.coordinator.versionKey? source.name)

section Polls

variable (s : Store) (root : Location) (keep names : List String) (t : FileTree)
  (plain : ∀ name ∈ names, Path.Plain name)
include plain

theorem source_drained (e : Engine) (source : Source) (mirroring : Mirroring s root keep names e)
    (named : source.name ∈ names) (fresh : source.Fresh) (reads : e.ReadsAs t source) (stores : e.Stores source)
    (undisturbed : e.interrupts source.name = .never) (through : (e.pollSource source).2.2 ≠ .cancelled) :
    let done := e.pollSource source
    Drained s root keep names t [source] e done.1 [done.2.1] ∧
      (done.2.2 ≠ .changed → done.1.coordinator = e.coordinator) := by
  have name := e.poll_source_name source
  have polled := source_polled e source
  obtain ⟨taken, idle⟩ := fresh_polled t (e.coordinator.versionKey? source.name) source fresh e.disk.files reads
  generalize e.pollSource source = done at name polled through ⊢
  cases polled with
  | off offered called => exact absurd rfl through
  | early next verdict cause offered broken coordinator disk unchanged => cases undisturbed.symm.trans broken
  | halfway next verdict cause steps key bytes offered changed broken coordinator performed unchanged =>
      cases undisturbed.symm.trans broken
  | left next verdict offered coordinator disk nothing unchanged =>
      obtain ⟨after, anew⟩ := idle nothing
      refine ⟨⟨⟨disk ▸ mirroring.standing, ?_⟩, congrArg (· :: []) name, fun other _ _ => by rw [coordinator],
        ?_, ?_⟩, fun _ => coordinator⟩
      · rw [disk, coordinator]
        exact mirroring.mirrored
      · intro one member
        obtain rfl := List.mem_singleton.mp member
        rw [name, coordinator]
        exact after
      · intro one member
        obtain rfl := List.mem_singleton.mp member
        rw [coordinator]
        exact anew
  | stored next key path bytes offered changed recorded =>
      obtain ⟨durable, after, anew⟩ := taken key bytes changed
      have known := record_entry _ _ _ _ _ _ _ _ recorded
      have mirrored := s.mirrored_recorded names plain root _ e.coordinator next.coordinator e.disk next.disk
        mirroring.mirrored mirroring.standing source.name key path bytes named durable recorded
      have standing := mirroring.standing
      rw [← mirroring.mirrored.store] at standing
      obtain ⟨still, call⟩ := record_done e.coordinator root _ e.disk standing ⟨source.name, key, bytes⟩
        (plain _ named)
      dsimp only at still call
      rw [recorded] at still call
      rw [mirroring.mirrored.store] at still
      refine ⟨⟨⟨still, mirrored⟩, congrArg (· :: []) name, fun other otherPlain apart =>
        (call.others other otherPlain (by simpa using apart)).1, ?_, ?_⟩, fun unchanged => absurd rfl unchanged⟩
      · intro one member
        obtain rfl := List.mem_singleton.mp member
        rw [name, known]
        exact after
      · intro one member
        obtain rfl := List.mem_singleton.mp member
        rw [known]
        exact anew
  | unstored next key bytes error offered changed recorded reply => exact absurd reply (stores.written error)

theorem drained_cons (source : Source) (rest after : List Source) (polled : Source) (e mid next : Engine)
    (named : ∀ other ∈ source :: rest, other.name ∈ names)
    (distinct : ((source :: rest).map Source.name).Nodup)
    (first : Drained s root keep names t [source] e mid [polled])
    (later : Drained s root keep names t rest mid next after) :
    Drained s root keep names t (source :: rest) e next (polled :: after) := by
  have here : polled.name = source.name := by simpa using first.names
  have kept := later.others source.name (plain _ (named source List.mem_cons_self)) (List.nodup_cons.mp distinct).1
  refine ⟨later.mirroring, ?_, ?_, ?_, ?_⟩
  · rw [List.map_cons, List.map_cons, here, later.names]
  · intro other otherPlain outside
    rw [List.map_cons, List.mem_cons, not_or] at outside
    exact (later.others other otherPlain outside.2).trans (first.others other otherPlain (by simpa using outside.1))
  · intro one member
    rcases List.mem_cons.mp member with rfl | inRest
    · rw [here, kept, ← here]
      exact first.after one List.mem_cons_self
    · exact later.after one inRest
  · intro one member
    rcases List.mem_cons.mp member with rfl | inRest
    · rw [kept]
      exact first.anew one List.mem_cons_self
    · exact later.anew one inRest

theorem sources_drained (sources : List Source) (e : Engine) (o : RoundOutcome)
    (mirroring : Mirroring s root keep names e) (named : ∀ source ∈ sources, source.name ∈ names)
    (distinct : (sources.map Source.name).Nodup) (fresh : ∀ source ∈ sources, source.Fresh)
    (reads : Engine.AtPolls (Engine.ReadsAs t) e sources) (stores : Engine.AtPolls Engine.Stores e sources)
    (undisturbed : ∀ source ∈ sources, e.interrupts source.name = .never)
    (through : (e.pollSources o sources).2.2.cancelled = false) :
    let done := e.pollSources o sources
    Drained s root keep names t sources e done.1 done.2.1 ∧
      (done.2.2.changed = [] → done.1.coordinator = e.coordinator) := by
  -- Each poll leaves alone what is known of the sources polled before it.
  induction sources generalizing e o with
  | nil => exact ⟨⟨mirroring, rfl, fun _ _ _ => rfl, nofun, nofun⟩, fun _ => rfl⟩
  | cons source rest ih =>
      obtain ⟨going, split⟩ := e.poll_sources_through o source rest through
      rw [split] at through ⊢
      obtain ⟨first, same⟩ := source_drained s root keep names t plain e source mirroring
        (named source List.mem_cons_self) (fresh source List.mem_cons_self) reads.1 stores.1
        (undisturbed source List.mem_cons_self) going
      obtain ⟨later, lastSame⟩ := ih (e.pollSource source).1 _ first.mirroring
        (fun other member => named other (List.mem_cons_of_mem _ member)) (List.nodup_cons.mp distinct).2
        (fun other member => fresh other (List.mem_cons_of_mem _ member)) reads.2 stores.2
        (fun other member => (e.poll_source_frame source).interrupts ▸
          undisturbed other (List.mem_cons_of_mem _ member)) through
      refine ⟨drained_cons s root keep names t plain source rest _ _ e _ _ named distinct first later, fun idle => ?_⟩
      have unchanged : (e.pollSource source).2.2 ≠ .changed := by
        intro changed
        have before := changed_grows _ _ rest idle
        rw [changed] at before
        simp [RoundOutcome.note] at before
      exact (lastSame idle).trans (same unchanged)

end Polls

section Again

variable (t : FileTree)

theorem spent_source_polled (e : Engine) (source : Source)
    (spent : source.Spent t (e.coordinator.versionKey? source.name)) (reads : e.ReadsAs t source) :
    let done := e.pollSource source
    done.1.coordinator = e.coordinator ∧ done.1.disk = e.disk ∧ done.2.2 ≠ .changed ∧
      done.2.1.Spent t (e.coordinator.versionKey? done.2.1.name) := by
  have name := e.poll_source_name source
  have polled := source_polled e source
  obtain ⟨nothing, after⟩ := spent_polled t (e.coordinator.versionKey? source.name) source spent e.disk.files reads
  generalize e.pollSource source = done at name polled ⊢
  cases polled with
  | off offered called => exact ⟨rfl, rfl, nofun, spent⟩
  | early next verdict cause offered broken coordinator disk unchanged => exact ⟨coordinator, disk, unchanged, spent⟩
  | left next verdict offered coordinator disk _ unchanged =>
      dsimp only at name ⊢
      rw [name]
      exact ⟨coordinator, disk, unchanged, after⟩
  | stored next key path bytes offered changed recorded => exact absurd changed (nothing key bytes)
  | unstored next key bytes error offered changed recorded reply => exact absurd changed (nothing key bytes)
  | halfway next verdict cause steps key bytes offered changed broken coordinator performed unchanged =>
      exact absurd changed (nothing key bytes)

theorem spent_sources_polled (sources : List Source) (e : Engine) (o : RoundOutcome)
    (spent : ∀ source ∈ sources, source.Spent t (e.coordinator.versionKey? source.name))
    (reads : ∀ source ∈ sources, e.ReadsAs t source) :
    let done := e.pollSources o sources
    done.1.coordinator = e.coordinator ∧ done.1.disk = e.disk ∧ done.2.2.changed = o.changed ∧
      ∀ source ∈ done.2.1, source.Spent t (e.coordinator.versionKey? source.name) := by
  induction sources generalizing e o with
  | nil => exact ⟨rfl, rfl, rfl, nofun⟩
  | cons source rest ih =>
      obtain ⟨coordinator, disk, unchanged, after⟩ := spent_source_polled t e source (spent source List.mem_cons_self)
        (reads source List.mem_cons_self)
      have others (other : Source) (member : other ∈ rest) :
          other.Spent t (e.coordinator.versionKey? other.name) := spent other (List.mem_cons_of_mem _ member)
      rw [e.poll_sources_cons]
      split
      · refine ⟨coordinator, disk, rfl, fun other member => ?_⟩
        rcases List.mem_cons.mp member with rfl | inRest
        · exact after
        · exact others other inRest
      · obtain ⟨coordinator', disk', changed, later⟩ := ih (e.pollSource source).1
          (o.note source.name (e.pollSource source).2.2) (fun other member => coordinator ▸ others other member)
          (fun other member path file => by
            rw [disk]
            exact reads other (List.mem_cons_of_mem _ member) path file)
        refine ⟨coordinator'.trans coordinator, disk'.trans disk, changed.trans ?_, fun other member => ?_⟩
        · generalize (e.pollSource source).2.2 = verdict at unchanged ⊢
          cases verdict with
          | changed => exact absurd rfl unchanged
          | unchanged => rfl
          | failed => rfl
          | cancelled => rfl
        · rcases List.mem_cons.mp member with rfl | inRest
          · exact after
          · rw [← coordinator]
            exact later other inRest

end Again

end IndexKeeper
