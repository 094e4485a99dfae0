import IndexKeeper.Proofs.IndexSteps
import IndexKeeper.Proofs.Round

set_option autoImplicit false

namespace IndexKeeper

open Store (Unkept Indexed indexesAt indexAt markerAt besideMarkerAt WriteError)

structure Store.Holds (s : Store) (index : String) (keys : VersionKeys) (t : FileTree) : Prop where
  there : t.isDirectory (s.indexDir index) = true
  manifest : s.readManifest t index = .ok (some keys)

def Generated (root : Location) (index : String) (l : Location) : Prop :=
  indexAt root index <+: l ∨ l = besideMarkerAt root

def Published (root : Location) (index : String) (l : Location) : Prop :=
  Generated root index l ∨ l = markerAt root

theorem published_indexed (root : Location) (index : String) (l : Location) (inside : Published root index l) :
    Indexed root l := by
  rcases inside with (below | rfl) | rfl
  · exact (List.prefix_append _ [index]).trans below
  · exact List.prefix_append _ _
  · exact List.prefix_append _ _

theorem marker_not_generated (root : Location) (index : String) (other : index ∉ markers) :
    ¬ Generated root index (markerAt root) := by
  rintro (below | same)
  · exact (Store.marker_apart root index other).1 below
  · simp [markerAt, besideMarkerAt, indexAt] at same

theorem index_reads_same (s : Store) (root : Location) (t next : FileTree)
    (leads : t.way s.indexRoot = .ok (indexesAt root)) (nextLeads : next.way s.indexRoot = .ok (indexesAt root))
    (index : String) (plain : Path.Plain index)
    (same : ∀ tail, next.get? (indexAt root index ++ tail) = t.get? (indexAt root index ++ tail))
    (there : t.isDirectory (s.indexDir index) = true) :
    next.isDirectory (s.indexDir index) = true ∧ s.readManifest next index = s.readManifest t index := by
  have dirSame : next.get? (indexesAt root ++ [index]) = t.get? (indexesAt root ++ [index]) := by
    simpa [Store.index_at_append] using same []
  obtain ⟨usable, found⟩ := (FileTree.is_directory_join t s.indexRoot index _ plain leads).mp there
  have inside := (Store.index_dir_way s root index t leads plain _).mpr ⟨rfl, usable.2.2, found⟩
  have nextInside := (Store.index_dir_way s root index next nextLeads plain _).mpr
    ⟨rfl, usable.2.2, dirSame.trans found⟩
  have read : next.read (s.manifestPath index) = t.read (s.manifestPath index) := by
    rw [Store.manifestPath, FileTree.read_join t _ _ _ (by decide) inside,
      FileTree.read_join next _ _ _ (by decide) nextInside, same]
  refine ⟨(FileTree.is_directory_join next s.indexRoot index _ plain nextLeads).mpr
    ⟨usable, dirSame.trans found⟩, ?_⟩
  unfold Store.readManifest Store.readBytes
  rw [read]

theorem held_index_same (s : Store) (root : Location) (t next : FileTree)
    (leads : t.way s.indexRoot = .ok (indexesAt root)) (nextLeads : next.way s.indexRoot = .ok (indexesAt root))
    (index : String) (plain : Path.Plain index)
    (same : ∀ tail, next.get? (indexAt root index ++ tail) = t.get? (indexAt root index ++ tail))
    (keys : VersionKeys) (held : s.Holds index keys t) : s.Holds index keys next := by
  obtain ⟨there, manifest⟩ := index_reads_same s root t next leads nextLeads index plain same held.there
  exact ⟨there, manifest.trans held.manifest⟩

theorem held_index_kept (s : Store) (root : Location) (keep : List String) (touched : Location → Prop)
    (t next : FileTree) (reaches : t.Reaches (Unkept root keep) s.indexRoot (indexesAt root))
    (moves : Moves (Unkept root keep) touched t next) (index : String) (plain : Path.Plain index)
    (stays : index ∈ keep) (apart : ∀ tail, ¬ touched (indexAt root index ++ tail)) (keys : VersionKeys)
    (held : s.Holds index keys t) : s.Holds index keys next := by
  have after := reaches_moves _ _ _ _ _ _ moves (Store.indexes_stay root keep) reaches
  exact held_index_same s root t next (reaches_way _ _ _ _ reaches) (reaches_way _ _ _ _ after) index plain
    (fun tail => moves.get _ (Store.index_stays root keep index tail stays) (apart tail)) keys held

theorem ready_iff (p : Publisher) (t : FileTree) (index : String) :
    p.ready t index = .ok () ↔ ∃ keys, p.store.Holds index keys t := by
  unfold Publisher.ready
  dsimp only
  constructor
  · intro ready
    cases there : t.isDirectory (p.store.indexDir index) with
    | false => rw [there] at ready; cases ready
    | true =>
        rw [there] at ready
        cases manifest : p.store.readManifest t index with
        | error e => rw [manifest] at ready; cases ready
        | ok found =>
            cases found with
            | none => rw [manifest] at ready; cases ready
            | some keys => exact ⟨keys, there, manifest⟩
  · rintro ⟨keys, there, manifest⟩
    rw [there, manifest]
    rfl

theorem publish_cases (p : Publisher) (d : Disk) (index : String) :
    (∃ e, p.ready d.files index = .error e ∧ p.publish d index = (.error e, p, d)) ∨
      (p.ready d.files index = .ok () ∧ ∃ e mid, p.store.writeMarker d index = (.error e, mid) ∧
        p.publish d index = (.error e, p, mid)) ∨
      (p.ready d.files index = .ok () ∧ ∃ mid, p.store.writeMarker d index = (.ok (), mid) ∧
        p.publish d index = (.ok (), p.swap mid index)) := by
  unfold Publisher.publish
  generalize p.ready d.files index = ready
  cases ready with
  | error e => exact .inl ⟨e, rfl, rfl⟩
  | ok =>
      right
      dsimp only
      generalize p.store.writeMarker d index = answer
      obtain ⟨result, mid⟩ := answer
      cases result with
      | error e => exact .inl ⟨rfl, e, mid, rfl, rfl⟩
      | ok => exact .inr ⟨rfl, mid, rfl, rfl⟩

theorem swap_files (p : Publisher) (d : Disk) (index : String) : (p.swap d index).2.files = d.files := by
  unfold Publisher.swap
  dsimp only
  split
  · rfl
  · split <;> rfl

theorem swap_doomed (p : Publisher) (d : Disk) (keep : List String) (doomed : p.store.Doomed keep d)
    (index : String) (old : ∀ name, p.current = some name → name ≠ index → Path.Plain name ∧ name ∉ keep) :
    p.store.Doomed keep (p.swap d index).2 := by
  unfold Publisher.swap
  dsimp only
  cases current : p.current with
  | none => exact doomed
  | some name =>
      dsimp only
      split
      · exact doomed
      · next other =>
          obtain ⟨plain, absent⟩ := old name current other
          intro path member
          rcases List.mem_append.mp member with before | last
          · exact doomed path before
          · exact ⟨name, plain, absent, List.mem_singleton.mp last⟩

theorem swap_queue (p : Publisher) (d : Disk) (index path : String) (member : path ∈ (p.swap d index).2.doomed) :
    path ∈ d.doomed ∨ ∃ old, p.current = some old ∧ path = p.store.indexDir old := by
  unfold Publisher.swap at member
  dsimp only at member
  cases current : p.current with
  | none => rw [current] at member; exact .inl member
  | some old =>
      rw [current] at member
      dsimp only at member
      split at member
      · exact .inl member
      · exact (List.mem_append.mp member).imp id fun last => ⟨old, rfl, List.mem_singleton.mp last⟩

theorem swap_current (p : Publisher) (d : Disk) (index : String) :
    (p.swap d index).1.current = some index := by
  unfold Publisher.swap
  dsimp only
  split
  · rfl
  · split <;> rfl

theorem swap_store (p : Publisher) (d : Disk) (index : String) : (p.swap d index).1.store = p.store := by
  unfold Publisher.swap
  dsimp only
  split
  · rfl
  · split <;> rfl

namespace Store

def OnlyKept (s : Store) (root : Location) (kept : String → Prop) (d : Disk) : Prop :=
  ∀ index, Path.Plain index → FileTree.Usable s.indexRoot index →
    d.files.get? (indexAt root index) = some .directory → kept index ∨ s.indexDir index ∈ d.doomed

theorem only_kept_steps (s : Store) (root : Location) (swept touched : Location → Prop) (kept : String → Prop)
    (d next : Disk) (only : s.OnlyKept root kept d) (steps : s.Steps root swept touched d next)
    (made : ∀ index, touched (indexAt root index) → kept index ∨
      next.files.get? (indexAt root index) ≠ some .directory) : s.OnlyKept root kept next := by
  intro index plain usable there
  by_cases inside : touched (indexAt root index)
  · exact .inl ((made index inside).resolve_right fun absent => absent there)
  · have before := moves_before _ _ _ _ steps.files _ _ inside there
    rcases only index plain usable before with kept | queued
    · exact .inl kept
    · by_cases still : s.indexDir index ∈ next.doomed
      · exact .inr still
      · exact absurd there (steps.dropped index plain inside queued still usable)

theorem only_kept_swap (p : Publisher) (root : Location) (d : Disk) (index : String) (kept : String → Prop)
    (only : p.store.OnlyKept root (fun name => p.current = some name ∨ kept name) d) (new : kept index) :
    p.store.OnlyKept root kept (p.swap d index).2 := by
  intro name plain usable there
  rw [swap_files] at there
  unfold Publisher.swap
  dsimp only
  rcases only name plain usable there with (current | kept) | queued
  · rw [current]
    dsimp only
    by_cases same : name = index
    · exact .inl (same ▸ new)
    · rw [if_neg same]
      exact .inr (List.mem_append_right _ (List.mem_singleton_self _))
  · exact .inl kept
  · right
    split
    · exact queued
    · split
      · exact queued
      · exact List.mem_append_left _ queued

end Store

section Regeneration

variable (e : Engine) (s : Store) (root : Location) (keep : List String)
  (store : e.coordinator.store = s) (publisher : e.publisher.store = s) (index : String)
  (plain : Path.Plain index) (other : index ∉ markers) (stays : index ∈ keep) (listed : "current.tmp" ∈ keep)
include store publisher plain other stays listed

theorem publish_generated_done (standing : s.Standing root (Unkept root keep) e.disk)
    (reaches : e.disk.files.Reaches (Unkept root keep) s.indexRoot (indexesAt root)) (keys : VersionKeys) :
    let done := e.publishGenerated index keys
    done.2.clock = e.clock ∧
      (done.2.disk.files.get? (besideMarkerAt root) = some .directory →
        e.disk.files.get? (besideMarkerAt root) = some .directory) ∧
      (done.1 = .ok () → ∃ d, s.Steps root (Unkept root keep) (Published root index) e.disk d ∧
        s.Holds index keys d.files ∧
        (d.files.get? (markerAt root) = some (.file (Bytes.ofText index)) ∧
          FileTree.Usable s.indexRoot "current") ∧
        (done.2.publisher, done.2.disk) = e.publisher.swap d index) ∧
      ∀ error, done.1 = .error error → WriteError error ∧ done.2.publisher = e.publisher ∧
        s.Steps root (Unkept root keep) (Generated root index) e.disk done.2.disk := by
  have manifest := s.manifest_steps root keep e.disk standing reaches index stays plain keys
  intro done
  have shape : done = e.publishGenerated index keys := rfl
  unfold Engine.publishGenerated at shape
  rw [store] at shape
  generalize s.writeManifest e.disk index keys = answer at manifest shape
  obtain ⟨result, mid⟩ := answer
  obtain ⟨wrote, written, unwritten⟩ := manifest
  have besideSame : mid.files.get? (besideMarkerAt root) = e.disk.files.get? (besideMarkerAt root) :=
    wrote.files.get _ (Store.index_dir_stays root keep "current.tmp" listed)
      (Store.marker_apart root index other).2
  cases result with
  | error error =>
      have ended : done = (.error error, { e with disk := mid }) := shape
      rw [ended]
      refine ⟨rfl, fun found => besideSame ▸ found, nofun, ?_⟩
      rintro other ⟨⟩
      exact ⟨unwritten error rfl, rfl, steps_weaken s root _ _ _ _ _ wrote fun _ => Or.inl⟩
  | ok =>
      obtain ⟨dir, isDir, read⟩ := written rfl
      have held : s.Holds index keys mid.files := ⟨isDir, read⟩
      have midStanding := standing_steps s root _ _ _ _ standing wrote
      have midReaches := reaches_moves _ _ _ _ _ _ wrote.files (Store.indexes_stay root keep) reaches
      obtain ⟨moved, marked, unmarked, beside⟩ :=
        s.marker_steps root keep mid midStanding midReaches listed index
      have ready := (ready_iff e.publisher mid.files index).mpr ⟨keys, publisher.symm ▸ held⟩
      dsimp only at shape
      rcases publish_cases e.publisher mid index with ⟨error, refused, -⟩ |
        ⟨-, error, last, wrong, published⟩ | ⟨-, last, right, published⟩
      · rw [ready] at refused
        cases refused
      · rw [publisher] at wrong
        rw [published] at shape
        rw [wrong] at unmarked beside
        have ended : done = (.error error, { e with publisher := e.publisher, disk := last }) := shape
        rw [ended]
        refine ⟨rfl, fun found => besideSame ▸ beside found, nofun, ?_⟩
        rintro other ⟨⟩
        obtain ⟨blamed, steps⟩ := unmarked error rfl
        exact ⟨blamed, rfl, steps_trans s root _ _ _ _ _
          (steps_weaken s root _ _ _ _ _ wrote fun _ => Or.inl)
          (steps_weaken s root _ _ _ _ _ steps fun _ => Or.inr)⟩
      · rw [publisher] at right
        rw [published] at shape
        rw [right] at moved marked beside
        have ended : done = (.ok (), { e with
            publisher := (e.publisher.swap last index).1
            disk := (e.publisher.swap last index).2 }) := shape
        have sameFiles := swap_files e.publisher last index
        rw [ended]
        refine ⟨rfl, fun found => besideSame ▸ beside (sameFiles ▸ found), ?_, nofun⟩
        intro _
        refine ⟨last, ?_, ?_, marked rfl, rfl⟩
        · exact steps_trans s root _ _ _ _ _
            (steps_weaken s root _ _ _ _ _ wrote fun _ below => .inl (.inl below))
            (steps_weaken s root _ _ _ _ _ moved fun _ inside =>
              inside.elim .inr fun here => .inl (.inr here))
        · refine held_index_kept s root keep _ _ _ midReaches moved.files index plain stays ?_ keys held
          rintro tail (same | same)
          · exact (Store.marker_not_index root index other tail).1 same.symm
          · exact (Store.marker_not_index root index other tail).2 same.symm

end Regeneration

theorem run_generator_done (e : Engine) (artifacts : List String) (index out : String) :
    let done := e.runGenerator artifacts index out
    done.2.disk = (e.disk.generate (e.generator e.generations) artifacts out).2 ∧
      done.2.publisher = e.publisher ∧ done.2.coordinator = e.coordinator := by
  unfold Engine.runGenerator
  generalize e.disk.generate (e.generator e.generations) artifacts out = answer
  obtain ⟨reply, disk⟩ := answer
  cases reply <;> exact ⟨rfl, rfl, rfl⟩

theorem discard_done (e : Engine) (s : Store) (root : Location) (base : List String) (index : String)
    (plain : Path.Plain index) (fresh : index ∉ base) (standing : s.Standing root (Unkept root base) e.disk) :
    let done := e.discard (s.indexDir index)
    done.clock = e.clock ∧ done.publisher = e.publisher ∧
      s.Steps root (Unkept root base) Nothing e.disk done.disk := by
  unfold Engine.discard
  split
  · exact ⟨rfl, rfl, s.remove_steps root base e.disk standing index fresh plain⟩
  · exact ⟨rfl, rfl, steps_refl s root _ Nothing e.disk⟩

-- Why a regeneration failed, if it is not a defect of the engine.
def Excused (e : Engine) (index : String) (error : RegenerationError) (after : Engine) : Prop :=
  (e.clock.cancelled = true ∧ after.clock.cancelled = true) ∨
    (e.runGenerator e.coordinator.snapshot.paths index (e.coordinator.store.indexDir index)).1 ≠ .ok () ∨
    ∃ blamed, error = .store blamed ∧ WriteError blamed

structure Regenerated (e : Engine) (s : Store) (root : Location) (base : List String) (index : String)
    (result : Except RegenerationError String) (next : Engine) : Prop where
  beside : next.disk.files.get? (besideMarkerAt root) = some .directory →
    e.disk.files.get? (besideMarkerAt root) = some .directory
  published : ∀ name, result = .ok name → name = index ∧
    ∃ d, s.Steps root (Unkept root (index :: base)) (Published root index) e.disk d ∧
      s.Holds index e.coordinator.versionKeys d.files ∧
      (d.files.get? (markerAt root) = some (.file (Bytes.ofText index)) ∧
        FileTree.Usable s.indexRoot "current") ∧
      (next.publisher, next.disk) = e.publisher.swap d index
  failed : ∀ error, result = .error error → next.publisher = e.publisher ∧
    s.Steps root (Unkept root base) (Generated root index) e.disk next.disk ∧ Excused e index error next

theorem doomed_narrower (s : Store) (keep more : List String) (fewer : ∀ index ∈ keep, index ∈ more)
    (d : Disk) (doomed : s.Doomed more d) : s.Doomed keep d := by
  intro path member
  obtain ⟨index, plain, absent, same⟩ := doomed path member
  exact ⟨index, plain, fun inside => absent (fewer index inside), same⟩

theorem doomed_with (s : Store) (keep : List String) (d : Disk) (doomed : s.Doomed keep d) (index : String)
    (spared : s.indexDir index ∉ d.doomed) : s.Doomed (index :: keep) d := by
  intro path member
  obtain ⟨other, plain, absent, rfl⟩ := doomed path member
  refine ⟨other, plain, ?_, rfl⟩
  rw [List.mem_cons, not_or]
  exact ⟨fun same => spared (same ▸ member), absent⟩

theorem doomed_steps (s : Store) (root : Location) (d next : Disk) (swept touched : Location → Prop)
    (keep : List String) (doomed : s.Doomed keep d) (steps : s.Steps root swept touched d next) :
    s.Doomed keep next :=
  fun path member => doomed path (steps.doomed path member)

def Engine.attempted (e : Engine) : Except RegenerationError String × Engine :=
  let snapshot := e.coordinator.snapshot
  let index := e.indexName e.generations
  if e.clock.cancelled then (.error .cancelled, e)
  else match e.runGenerator snapshot.paths index (e.coordinator.store.indexDir index) with
    | (.error error, e) => (.error error, e)
    | (.ok (), e) => match e.publishGenerated index snapshot.versionKeys with
        | (.error error, e) => (.error (.store error), e)
        | (.ok (), e) => (.ok index, e)

theorem regenerate_attempted (e : Engine) : e.regenerate = match e.attempted with
    | (.error error, mid) =>
        (.error error, mid.discard (e.coordinator.store.indexDir (e.indexName e.generations)))
    | (.ok index, next) => (.ok index, next) := by
  unfold Engine.regenerate Engine.attempted
  dsimp only
  cases e.clock.cancelled with
  | true => rfl
  | false =>
      rw [if_neg Bool.false_ne_true, if_neg Bool.false_ne_true]
      generalize e.runGenerator e.coordinator.snapshot.paths (e.indexName e.generations)
        (e.coordinator.store.indexDir (e.indexName e.generations)) = answer
      obtain ⟨result, mid⟩ := answer
      cases result with
      | error error => rfl
      | ok =>
          dsimp only
          generalize mid.publishGenerated (e.indexName e.generations) e.coordinator.snapshot.versionKeys = answer
          obtain ⟨result, last⟩ := answer
          cases result <;> rfl

-- An attempt that fails spares all other indexes, for nothing is removed yet.
structure Attempted (e : Engine) (s : Store) (root : Location) (base : List String) (index : String)
    (result : Except RegenerationError String) (mid : Engine) : Prop where
  beside : mid.disk.files.get? (besideMarkerAt root) = some .directory →
    e.disk.files.get? (besideMarkerAt root) = some .directory
  published : ∀ name, result = .ok name → name = index ∧
    ∃ d, s.Steps root (Unkept root (index :: base)) (Published root index) e.disk d ∧
      s.Holds index e.coordinator.versionKeys d.files ∧
      (d.files.get? (markerAt root) = some (.file (Bytes.ofText index)) ∧
        FileTree.Usable s.indexRoot "current") ∧
      (mid.publisher, mid.disk) = e.publisher.swap d index
  failed : ∀ error, result = .error error → mid.publisher = e.publisher ∧
    s.Steps root (Unkept root (index :: base)) (Generated root index) e.disk mid.disk ∧ Excused e index error mid

section Attempt

variable (e : Engine) (s : Store) (root : Location) (base : List String)
  (store : e.coordinator.store = s) (publisher : e.publisher.store = s)
  (place : s.InPlace root e.disk.files) (listed : "current.tmp" ∈ base) (index : String)
  (named : e.indexName e.generations = index) (plain : Path.Plain index) (other : index ∉ markers)
  (absent : e.disk.files.get? (indexAt root index) = none) (doomed : s.Doomed (index :: base) e.disk)
  (confined : (e.generator e.generations).Confined)
include store publisher place listed named plain other absent doomed confined

theorem attempted_done : Attempted e s root base index e.attempted.1 e.attempted.2 := by
  subst store
  have standing := e.coordinator.store.place_standing root _ place _ e.disk rfl doomed
  have reaches := e.coordinator.store.place_index_reaches root _ place _ (Store.indexed_of_unkept root _)
    (Store.indexes_stay root (index :: base))
  have fails (mid : Engine) (error : RegenerationError) (publisher : mid.publisher = e.publisher)
      (steps : e.coordinator.store.Steps root (Unkept root (index :: base)) (Generated root index) e.disk mid.disk)
      (beside : mid.disk.files.get? (besideMarkerAt root) = some .directory →
        e.disk.files.get? (besideMarkerAt root) = some .directory) (excused : Excused e index error mid) :
      Attempted e e.coordinator.store root base index (.error error) mid :=
    ⟨beside, nofun, fun _ same => Except.error.inj same ▸ ⟨publisher, steps, excused⟩⟩
  unfold Engine.attempted
  dsimp only
  rw [named]
  cases cancelled : e.clock.cancelled with
  | true =>
      rw [if_pos rfl]
      exact fails e .cancelled rfl (steps_refl _ root _ _ e.disk) id (.inl ⟨cancelled, cancelled⟩)
  | false =>
      rw [if_neg Bool.false_ne_true]
      obtain ⟨disk, samePublisher, sameCoordinator⟩ :=
        run_generator_done e e.coordinator.snapshot.paths index (e.coordinator.store.indexDir index)
      have generated := e.coordinator.store.generate_steps root _ e.disk standing reaches index
        (e.generator e.generations) confined e.coordinator.snapshot.paths List.mem_cons_self plain absent
      rw [← disk] at generated
      have wide := steps_weaken _ root _ _ (Generated root index) _ _ generated fun _ => Or.inl
      unfold Excused at fails
      generalize e.runGenerator e.coordinator.snapshot.paths index (e.coordinator.store.indexDir index) =
        answer at *
      obtain ⟨result, mid⟩ := answer
      have beside : mid.disk.files.get? (besideMarkerAt root) = some .directory →
          e.disk.files.get? (besideMarkerAt root) = some .directory :=
        moves_before _ _ _ _ generated.files _ _ (Store.marker_apart root index other).2
      cases result with
      | error error => exact fails mid error samePublisher wide beside (.inr (.inl nofun))
      | ok =>
          have midStanding := standing_steps _ root _ _ _ _ standing generated
          have midReaches := reaches_moves _ _ _ _ _ _ generated.files (Store.indexes_stay root _) reaches
          obtain ⟨clock, midBeside, written, unwritten⟩ := publish_generated_done mid e.coordinator.store root
            _ (congrArg Coordinator.store sameCoordinator) (samePublisher ▸ publisher) index plain other
            List.mem_cons_self (List.mem_cons_of_mem _ listed) midStanding midReaches
            e.coordinator.snapshot.versionKeys
          dsimp only
          generalize mid.publishGenerated index e.coordinator.snapshot.versionKeys =
            answer at clock midBeside written unwritten ⊢
          obtain ⟨result, last⟩ := answer
          cases result with
          | error error =>
              obtain ⟨blamed, lastPublisher, steps⟩ := unwritten error rfl
              exact fails last (.store error) (lastPublisher.trans samePublisher)
                (steps_trans _ root _ _ _ _ _ wide steps) (fun found => beside (midBeside found))
                (.inr (.inr ⟨error, rfl, blamed⟩))
          | ok =>
              obtain ⟨d, steps, held, marked, swapped⟩ := written rfl
              refine ⟨fun found => beside (midBeside found), ?_, nofun⟩
              rintro name ⟨⟩
              refine ⟨rfl, d, ?_, held, marked, samePublisher ▸ swapped⟩
              exact steps_trans _ root _ _ _ _ _
                (steps_weaken _ root _ _ _ _ _ wide fun _ => Or.inl) steps

theorem regenerate_done (fresh : index ∉ base) :
    Regenerated e s root base index e.regenerate.1 e.regenerate.2 := by
  have done := attempted_done e s root base store publisher place listed index named plain other absent doomed
    confined
  have loose := s.place_standing root _ place base e.disk rfl
    (doomed_narrower s base _ (fun _ => List.mem_cons_of_mem _) _ doomed)
  rw [regenerate_attempted, named, store]
  generalize e.attempted = answer at done ⊢
  obtain ⟨result, mid⟩ := answer
  cases result with
  | ok name => exact ⟨done.beside, done.published, nofun⟩
  | error error =>
      obtain ⟨publisher, steps, excused⟩ := done.failed error rfl
      have wide := steps_wider s root _ _ (Unkept root base) _ _ steps
        (Store.unkept_narrower root base _ fun _ => List.mem_cons_of_mem _)
      obtain ⟨clock, kept, removed⟩ := discard_done mid s root base index plain fresh
        (standing_steps s root _ _ _ _ loose wide)
      refine ⟨fun found => done.beside (moves_before _ Nothing _ _ removed.files _ _ id found), nofun, ?_⟩
      rintro other ⟨⟩
      refine ⟨kept.trans publisher, steps_trans s root _ _ _ _ _ wide
        (steps_weaken s root _ Nothing _ _ _ removed fun _ none => False.elim none), ?_⟩
      exact excused.imp (fun both => ⟨both.1, clock ▸ both.2⟩) id

end Attempt

structure NewIndex (s : Store) (root : Location) (e : Engine) : Prop where
  publisher : e.publisher.store = s
  plain : Path.Plain (e.indexName e.generations)
  other : e.indexName e.generations ∉ markers
  absent : e.disk.files.get? (indexAt root (e.indexName e.generations)) = none
  spared : s.indexDir (e.indexName e.generations) ∉ e.disk.doomed
  confined : (e.generator e.generations).Confined

theorem new_index_regenerated (e : Engine) (s : Store) (root : Location) (store : e.coordinator.store = s)
    (place : s.InPlace root e.disk.files) (doomed : s.Doomed markers e.disk) (new : NewIndex s root e) :
    Regenerated e s root markers (e.indexName e.generations) e.regenerate.1 e.regenerate.2 := by
  exact regenerate_done e s root markers store new.publisher place (by decide) _ rfl new.plain new.other new.absent
    (doomed_with s markers e.disk doomed _ new.spared) new.confined new.other

theorem regenerated_elsewhere_same (e : Engine) (s : Store) (root : Location) (index : String)
    (result : Except RegenerationError String) (next : Engine)
    (done : Regenerated e s root markers index result next) (l : Location) (apart : ¬ Indexed root l) :
    next.disk.files.get? l = e.disk.files.get? l := by
  cases result with
  | error error =>
      obtain ⟨-, steps, -⟩ := done.failed error rfl
      exact steps.files.get l (fun inside => apart (Store.indexed_of_unkept root _ l inside))
        fun inside => apart (published_indexed root index l (.inl inside))
  | ok name =>
      obtain ⟨-, d, steps, -, -, swapped⟩ := done.published name rfl
      rw [show next.disk = (e.publisher.swap d index).2 from congrArg Prod.snd swapped, swap_files]
      exact steps.files.get l (fun inside => apart (Store.indexed_of_unkept root _ l inside))
        fun inside => apart (published_indexed root index l inside)

end IndexKeeper
