import IndexKeeper.Proofs.IsolatedRounds
import IndexKeeper.Proofs.PublishingRounds
import IndexKeeper.Proofs.ServedIndex

set_option autoImplicit false

namespace IndexKeeper

open Store (Unkept Indexed indexesAt indexAt markerAt besideMarkerAt)

namespace FileTree

theorem usable_of_removed (t : FileTree) (base name : String) (plain : Path.Plain name)
    (removed : (t.removeDirectory (Path.join base name)).1 = .ok ()) : Usable base name := by
  unfold removeDirectory at removed
  cases leads : t.way base with
  | error e =>
      rw [locate_astray t base name plain e leads] at removed
      cases removed
  | ok l =>
      rw [locate_join t base name l plain leads] at removed
      by_cases usable : Usable base name
      · exact usable
      · rw [if_neg usable] at removed
        cases removed

end FileTree

section Removal

variable (s : Store) (root : Location) (keep : List String) (index : String) (plain : Path.Plain index)
  (fresh : index ∉ keep)
include plain fresh

theorem removed_index (d : Disk) (standing : s.Standing root (Unkept root keep) d)
    (removed : (Store.removeIndexDir d (s.indexDir index)).1 = .ok ()) :
    FileTree.Usable s.indexRoot index ∧
      (Store.removeIndexDir d (s.indexDir index)).2.files.get? (indexAt root index) ≠ some .directory := by
  have granted := standing_steps s root _ Nothing d _ standing (grant_steps s root _ d standing)
  have gone := (remove_index s root (Unkept root keep) d.grant.2.files granted.formed index
    (reaches_way _ _ _ _ granted.reaches) plain fun l below =>
      ⟨index, fresh, by simpa [indexAt, indexesAt] using below⟩).2
  have performed : (d.perform (.removeDirectory (s.indexDir index))).1 = .ok () := by
    rw [Store.removeIndexDir, Disk.performAll] at removed
    generalize d.perform (.removeDirectory (s.indexDir index)) = answer at removed
    obtain ⟨result, next⟩ := answer
    cases result with
    | error e => cases removed
    | ok => rfl
  rw [Store.removeIndexDir, perform_all_last]
  rcases perform_cases d (.removeDirectory (s.indexDir index)) with whole | ⟨e, refused⟩ | ⟨e, kept, torn⟩
  · rw [whole] at performed ⊢
    have usable := FileTree.usable_of_removed _ s.indexRoot index plain performed
    exact ⟨usable, gone usable⟩
  · rw [refused] at performed
    cases performed
  · rw [torn] at performed
    cases performed

theorem discarded_index (mid : Engine) (standing : s.Standing root (Unkept root keep) mid.disk)
    (way : mid.disk.files.way s.indexRoot = .ok (indexesAt root))
    (removes : mid.disk.files.get? (indexAt root index) = some .directory →
      (Store.removeIndexDir mid.disk (s.indexDir index)).1 = .ok ()) :
    (mid.discard (s.indexDir index)).disk.files.get? (indexAt root index) ≠ some .directory := by
  by_cases there : mid.disk.files.get? (indexAt root index) = some .directory
  · obtain ⟨usable, gone⟩ := removed_index s root keep index plain fresh mid.disk standing (removes there)
    have seen : mid.disk.files.pathExists (s.indexDir index) = true :=
      (FileTree.path_exists_join mid.disk.files s.indexRoot index _ plain way).mpr
        ⟨usable, by rw [Store.index_at_append, there]; nofun⟩
    rw [Engine.discard, if_pos seen]
    exact gone
  · have removed := (discard_done mid s root keep index plain fresh standing).2.2
    exact fun found => there (moves_before _ Nothing _ _ removed.files _ _ id found)

end Removal

def Engine.Removes (e : Engine) (s : Store) (root : Location) : Prop :=
  ∀ error mid, e.attempted = (.error error, mid) →
    mid.disk.files.get? (indexAt root (e.indexName e.generations)) = some .directory →
      (Store.removeIndexDir mid.disk (s.indexDir (e.indexName e.generations))).1 = .ok ()

theorem failed_adds_no_directory (s : Store) (root : Location) (a : Annals) (e : Engine) (sound : Sound s root a e)
    (serves : Serves s root e)
    (absent : e.disk.files.get? (indexAt root (e.indexName e.generations)) = none)
    (spared : s.indexDir (e.indexName e.generations) ∉ e.disk.doomed) (removes : e.Removes s root)
    (error : RegenerationError) (failed : e.regenerate.1 = .error error) (l : Location)
    (found : e.regenerate.2.disk.files.get? l = some .directory) (inside : Indexed root l) :
    e.disk.files.get? l = some .directory := by
  obtain ⟨plain, -, other⟩ := sound.indexes e.generations
  have fresh := fresh_not_kept s root a e sound serves absent
  have done := serves_regenerate s root a e sound serves absent spared
  have attempt := attempted_done e s root e.kept sound.store sound.publisher sound.place
    (List.mem_append_right _ (by decide)) _ rfl plain other absent (doomed_with s e.kept e.disk serves.doomed _ spared)
    (sound.confined _)
  have place := s.place_moves root _ sound.place _ _ _ (done.failed error failed).2.1.files
  have standing := serves_standing s root a e sound serves
  have gone : e.regenerate.2.disk.files.get? (indexAt root (e.indexName e.generations)) ≠ some .directory := by
    have removes := removes
    unfold Engine.Removes at removes
    rw [regenerate_attempted] at failed ⊢
    rw [sound.store]
    generalize e.attempted = answer at attempt removes failed ⊢
    obtain ⟨result, mid⟩ := answer
    cases result with
    | ok name => cases failed
    | error error =>
        have steps := (attempt.failed error rfl).2.1
        have wide := steps_wider s root _ _ (Unkept root e.kept) _ _ steps
          (Store.unkept_narrower root e.kept _ fun _ => List.mem_cons_of_mem _)
        exact discarded_index s root e.kept _ plain fresh mid (standing_steps s root _ _ _ _ standing wide)
          (s.place_index_way root _ (s.place_moves root _ sound.place _ _ _ wide.files))
          (removes error mid rfl)
  by_cases touched : Generated root (e.indexName e.generations) l
  · rcases touched with ⟨tail, rfl⟩ | rfl
    · have above : e.regenerate.2.disk.files.get? (indexAt root (e.indexName e.generations)) = some .directory := by
        by_cases ends : tail = []
        · simpa [ends] using found
        · exact FileTree.rooted_below _ place.formed _ tail ends (by rw [found]; nofun)
      exact absurd above gone
    · exact done.beside found
  · exact moves_before _ _ _ _ (done.failed error failed).2.1.files l _ touched found

structure Store.HasStored (s : Store) (c : Coordinator) (t : FileTree) (name key : String) (bytes : Bytes) : Prop where
  known : c.versionKey? name = some key
  version : t.read (s.versionPath name) = .ok (Bytes.ofText key)
  artifact : t.read (s.artifactPath name) = .ok bytes

theorem Store.has_stored_outside (s : Store) (root : Location) (keep : List String) (c : Coordinator)
    (t next : FileTree) (place : s.InPlace root t) (touched : Location → Prop)
    (moves : Moves (Unkept root keep) touched t next) (apart : ∀ l, touched l → Indexed root l)
    (name key : String) (bytes : Bytes) (plain : Path.Plain name) (stored : s.HasStored c t name key bytes) :
    s.HasStored c next name key bytes := by
  obtain ⟨version, artifact⟩ := s.pair_reads_same root _ _ place (s.place_moves root _ place _ _ _ moves) name plain keep
    _ moves apart
  exact ⟨stored.known, version.trans stored.version, artifact.trans stored.artifact⟩

section Changed

variable (s : Store) (root : Location) (keep : List String)

theorem poll_changed (e : Engine) (source : Source) (store : e.coordinator.store = s)
    (plain : Path.Plain source.name) (standing : s.Standing root (Unkept root keep) e.disk)
    (changed : (e.pollSource source).2.2 = .changed) :
    ∃ key bytes, e.offered? source = some (key, bytes) ∧
      s.HasStored (e.pollSource source).1.coordinator (e.pollSource source).1.disk.files source.name key bytes := by
  subst store
  have polled := source_polled e source
  generalize e.pollSource source = done at polled changed ⊢
  cases polled with
  | off offered called => cases changed
  | early next verdict cause offered broken coordinator disk unchanged => exact absurd changed unchanged
  | left next verdict offered coordinator disk nothing unchanged => exact absurd changed unchanged
  | unstored next key bytes error offered answered recorded reply => cases changed
  | halfway next verdict cause steps key bytes offered answered broken coordinator performed unchanged =>
      exact absurd changed unchanged
  | stored next key path bytes offered answered recorded =>
      have call := (record_done e.coordinator root _ e.disk standing ⟨source.name, key, bytes⟩ plain).2
      dsimp only at call
      rw [recorded] at call
      obtain ⟨known, version, artifact⟩ := call.whole path rfl
      exact ⟨key, bytes, offered, known, version, artifact⟩

theorem poll_keeps_others (e : Engine) (source : Source) (store : e.coordinator.store = s)
    (plain : Path.Plain source.name) (standing : s.Standing root (Unkept root keep) e.disk) (name key : String)
    (bytes : Bytes) (namePlain : Path.Plain name) (apart : source.name ≠ name)
    (stored : s.HasStored e.coordinator e.disk.files name key bytes) :
    s.HasStored (e.pollSource source).1.coordinator (e.pollSource source).1.disk.files name key bytes := by
  subst store
  have known : (e.pollSource source).1.coordinator.versionKey? name = e.coordinator.versionKey? name := by
    rcases e.poll_source_coordinator source with ⟨-, same⟩ | ⟨-, other, content, -, -, entries⟩
    · rw [same]
    · rw [Coordinator.versionKey?, entries, NameMap.get_insert, if_neg (Ne.symm apart), Coordinator.versionKey?]
  rcases poll_source_written e source with same | ⟨other, content, fates, left, -, written⟩
  · rw [same]
    exact ⟨known.trans stored.known, stored.version, stored.artifact⟩
  · have standing : e.coordinator.store.Standing root (Unkept root keep) { e.disk with fates } := { standing with }
    have call := (record_done e.coordinator root _ _ standing ⟨source.name, other, content⟩ plain).2
    obtain ⟨-, version, artifact⟩ := call.others name namePlain (Ne.symm apart)
    rw [written] at version artifact
    exact ⟨known.trans stored.known, version.trans stored.version, artifact.trans stored.artifact⟩

theorem polls_keep_others (e : Engine) (o : RoundOutcome) (sources : List Source) (store : e.coordinator.store = s)
    (plain : ∀ source ∈ sources, Path.Plain source.name) (standing : s.Standing root (Unkept root keep) e.disk)
    (name key : String) (bytes : Bytes) (namePlain : Path.Plain name)
    (apart : ∀ source ∈ sources, source.name ≠ name)
    (stored : s.HasStored e.coordinator e.disk.files name key bytes) :
    s.HasStored (e.pollSources o sources).1.coordinator (e.pollSources o sources).1.disk.files name key bytes := by
  induction sources generalizing e o with
  | nil => exact stored
  | cons source rest ih =>
      have here := plain source List.mem_cons_self
      obtain ⟨steps, still⟩ := poll_source_sourced s root keep e source store here standing
      have first := poll_keeps_others s root keep e source store here standing name key bytes namePlain
        (apart source List.mem_cons_self) stored
      have further (o : RoundOutcome) := ih (e.pollSource source).1 o still
        (fun other member => plain other (List.mem_cons_of_mem _ member))
        (standing_steps s root _ _ _ _ standing steps)
        (fun other member => apart other (List.mem_cons_of_mem _ member)) first
      rw [Engine.poll_sources_cons]
      split
      · exact first
      · exact further _

theorem poll_sources_engine (e : Engine) (o other : RoundOutcome) (sources : List Source) :
    (e.pollSources o sources).1 = (e.pollSources other sources).1 := by
  induction sources generalizing e o other with
  | nil => rfl
  | cons source rest ih =>
      rw [Engine.poll_sources_cons, Engine.poll_sources_cons]
      split
      · rfl
      · exact ih _ _ _

structure StoredInTurn (e : Engine) (sources : List Source) (name : String) (c : Coordinator) (t : FileTree)
    (before : List Source) (source : Source) (key : String) (bytes : Bytes) : Prop where
  turn : ∃ after, sources = before ++ source :: after
  named : source.name = name
  offered : (e.pollSources {} before).1.offered? source = some (key, bytes)
  stored : s.HasStored c t name key bytes

theorem changed_stored (e : Engine) (o : RoundOutcome) (sources : List Source) (store : e.coordinator.store = s)
    (plain : ∀ source ∈ sources, Path.Plain source.name) (distinct : (sources.map Source.name).Nodup)
    (standing : s.Standing root (Unkept root keep) e.disk) (name : String)
    (changed : name ∈ (e.pollSources o sources).2.2.changed) :
    name ∈ o.changed ∨ ∃ before source key bytes, StoredInTurn s e sources name
      (e.pollSources o sources).1.coordinator (e.pollSources o sources).1.disk.files before source key bytes := by
  -- A source noted as changed keeps what it stored, for those after it have other names.
  induction sources generalizing e o with
  | nil => exact .inl changed
  | cons source rest ih =>
      have here := plain source List.mem_cons_self
      have others (other : Source) (member : other ∈ rest) := plain other (List.mem_cons_of_mem _ member)
      obtain ⟨apart, distinctRest⟩ := List.nodup_cons.mp distinct
      obtain ⟨steps, still⟩ := poll_source_sourced s root keep e source store here standing
      have nextStanding := standing_steps s root _ _ _ _ standing steps
      rw [Engine.poll_sources_cons] at changed ⊢
      by_cases off : (e.pollSource source).2.2 = .cancelled
      · rw [if_pos off] at changed
        exact .inl changed
      · rw [if_neg off] at changed ⊢
        dsimp only at changed ⊢
        rcases ih _ _ still others distinctRest nextStanding changed with noted | ⟨before, later, key, bytes, turn⟩
        · rw [(Engine.note_lists o source.name _).1] at noted
          rcases List.mem_append.mp noted with old | new
          · exact .inl old
          · split at new
            · next verdict =>
                obtain rfl := List.mem_singleton.mp new
                obtain ⟨key, bytes, offered, stored⟩ := poll_changed s root keep e source store here standing verdict
                refine .inr ⟨[], source, key, bytes, ⟨rest, rfl⟩, rfl, offered, ?_⟩
                exact polls_keep_others s root keep _ _ rest still others nextStanding source.name key bytes here
                  (fun other member same => apart (same ▸ List.mem_map_of_mem member)) stored
            · cases new
        · obtain ⟨after, rfl⟩ := turn.turn
          refine .inr ⟨source :: before, later, key, bytes, ⟨after, rfl⟩, turn.named, ?_, turn.stored⟩
          rw [Engine.poll_sources_cons, if_neg off]
          dsimp only
          rw [poll_sources_engine _ _ {} before]
          exact turn.offered

end Changed

structure LeftAsPublished (s : Store) (root : Location) (e : Engine) : Prop where
  publisher : e.runRound.2.publisher = e.publisher
  marker : e.runRound.2.disk.files.read s.markerPath = e.disk.files.read s.markerPath
  manifest : ∀ index, e.publisher.current = some index →
    s.readManifest e.runRound.2.disk.files index = s.readManifest e.disk.files index
  directories : ∀ l, Indexed root l → e.runRound.2.disk.files.get? l = some .directory →
    e.disk.files.get? l = some .directory
  stored : ∀ name ∈ e.runRound.1.changed, ∃ before source key bytes,
    StoredInTurn s e.begun e.sources name e.runRound.2.coordinator e.runRound.2.disk.files before source key bytes
  pending : e.runRound.1.changed ≠ [] → e.runRound.2.loop.pendingRegeneration = true

theorem unpublished_cases (e : Engine) (unpublished : e.runRound.1.published = none) :
    e.runRound.1.changed = e.polled.2.2.changed ∧
      (e.runRound.2 = e.regenerating ∨
        (∃ error, e.regenerating.regenerate.1 = .error error) ∧ e.runRound.2 = e.regenerating.regenerate.2) := by
  rcases Engine.idle_or_due e e.polled.2.2 (e.loop.firstRound && e.indexIsBehind) with idle | ⟨through, due⟩
  · rw [Engine.run_round_idle e idle]
    exact ⟨rfl, .inl rfl⟩
  · rw [Engine.run_round_due e through due] at unpublished ⊢
    generalize e.regenerating.regenerate = answer at unpublished ⊢
    obtain ⟨result, next⟩ := answer
    cases result with
    | ok index => cases unpublished
    | error error => exact ⟨rfl, .inr ⟨⟨error, rfl⟩, rfl⟩⟩

theorem index_apart (root : Location) (index other : String) (apart : index ≠ other) (tail : Location) :
    ¬ indexAt root index <+: indexAt root other ++ tail := by
  rintro ⟨rest, same⟩
  simp only [indexAt, List.append_assoc, List.append_cancel_left_eq, List.cons_append, List.nil_append,
    List.cons.injEq] at same
  exact apart same.1

theorem index_at_not_sourced (root : Location) (index : String) (tail : Location) :
    ¬ Sourced root (indexAt root index ++ tail) := by
  rw [show indexAt root index ++ tail = indexesAt root ++ index :: tail by simp [indexAt]]
  exact index_not_sourced root (index :: tail)

theorem published_reads_same (s : Store) (root : Location) (a : Annals) (e : Engine) (sound : Sound s root a e)
    (serves : Serves s root e) (touched : Location → Prop) (next : FileTree)
    (moves : Moves (Unkept root e.kept) touched e.disk.files next) (apart : ¬ touched (markerAt root))
    (spares : ∀ index, e.publisher.current = some index → ∀ tail, ¬ touched (indexAt root index ++ tail)) :
    next.read s.markerPath = e.disk.files.read s.markerPath ∧
      ∀ index, e.publisher.current = some index →
        s.readManifest next index = s.readManifest e.disk.files index := by
  have place := sound.place
  have after := s.place_moves root _ place _ _ _ moves
  constructor
  · have same : next.get? (markerAt root) = e.disk.files.get? (markerAt root) :=
      moves.get _ (Store.index_dir_stays root e.kept "current" (List.mem_append_right _ (by decide))) apart
    rw [read_marker_path s root _ place, read_marker_path s root _ after, same]
  · intro index current
    have names := serves.names index current
    have kept : index ∈ e.kept := List.mem_append_left _ (Option.mem_toList.mpr current)
    exact (index_reads_same s root _ next (s.place_index_way root _ place) (s.place_index_way root _ after) index
      names.named.1 (fun tail => moves.get _ (Store.index_stays root e.kept index tail kept)
        (spares index current tail)) names.there).2

theorem attempt_reads_same (s : Store) (root : Location) (a : Annals) (e : Engine) (sound : Sound s root a e)
    (serves : Serves s root e) (absent : e.disk.files.get? (indexAt root (e.indexName e.generations)) = none)
    (next : FileTree)
    (moves : Moves (Unkept root e.kept) (fun l => Sourced root l ∨ Generated root (e.indexName e.generations) l)
      e.disk.files next) :
    next.read s.markerPath = e.disk.files.read s.markerPath ∧
      ∀ index, e.publisher.current = some index →
        s.readManifest next index = s.readManifest e.disk.files index := by
  have other := (sound.indexes e.generations).2.2
  have fresh := fresh_not_kept s root a e sound serves absent
  refine published_reads_same s root a e sound serves _ _ moves
    (fun inside => inside.elim (index_not_sourced root ["current"]) (marker_not_generated root _ other))
    fun index current tail inside => ?_
  rcases inside with sourced | below | beside
  · exact index_at_not_sourced root index tail sourced
  · refine index_apart root _ index (fun same => fresh ?_) tail below
    exact List.mem_append_left _ (Option.mem_toList.mpr (same ▸ current))
  · exact (Store.marker_not_index root index (serves.names index current).named.2.2 tail).2 beside.symm

theorem unpublished_round_leaves_published {allowed : Generator → Prop} (confined : ∀ g, allowed g → g.Confined)
    (s : Store) (root : Location) (a : Annals) (e : Engine) (running : Running allowed s root a e)
    (named : ∀ source ∈ e.sources, Config.checkName source.name = .ok ())
    (distinct : (e.sources.map Source.name).Nodup)
    (absent : e.disk.files.get? (indexAt root (e.indexName e.generations)) = none)
    (spared : s.indexDir (e.indexName e.generations) ∉ e.disk.doomed)
    (removes : e.regenerating.Removes s root) (unpublished : e.runRound.1.published = none) :
    LeftAsPublished s root e := by
  have sound := running_sound s root confined a e running
  have serves := running_serves s root confined a e running
  have pending := running_regenerating s root confined a e running named
  have publisher := e.regenerating_frame.1
  have plain (source : Source) (member : source ∈ e.sources) := plain_of_check_name source.name (named source member)
  have standing := serves_standing s root a e sound serves
  have polls := regenerating_steps s root a e sound serves named
  have polled (name : String) (changed : name ∈ e.polled.2.2.changed) : ∃ before source key bytes,
      StoredInTurn s e.begun e.sources name e.regenerating.coordinator e.regenerating.disk.files before source key
        bytes :=
    (changed_stored s root e.kept e.begun {} e.sources sound.store plain distinct standing name changed).resolve_left
      List.not_mem_nil
  have owed : e.runRound.1.changed ≠ [] → e.runRound.2.loop.pendingRegeneration = true := fun changed =>
    (Engine.round_pending e).mpr ⟨unpublished, .inl changed⟩
  obtain ⟨changed, idle | ⟨⟨error, failed⟩, after⟩⟩ := unpublished_cases e unpublished
  · obtain ⟨marker, manifest⟩ := published_reads_same s root a e sound serves _ _ polls.files
      (index_not_sourced root ["current"]) fun index _ => index_at_not_sourced root index
    exact {
      publisher := by rw [idle]; exact publisher
      marker := by rw [idle]; exact marker
      manifest := by rw [idle]; exact manifest
      directories := by
        rw [idle]
        rintro l ⟨tail, rfl⟩ found
        exact moves_before _ _ _ _ polls.files _ _ (index_not_sourced root tail) found
      stored := by rw [changed, idle]; exact polled
      pending := owed }
  · have nextSound := running_sound s root confined _ _ pending
    have nextServes := running_serves s root confined _ _ pending
    have kept := kept_regenerating e
    obtain ⟨new, stillAbsent, stillSpared⟩ := fresh_regenerating s root e polls absent spared
    have done := serves_regenerate s root _ _ nextSound nextServes stillAbsent stillSpared
    obtain ⟨samePublisher, steps, -⟩ := done.failed error failed
    have coordinator : e.regenerating.regenerate.2.coordinator = e.regenerating.coordinator :=
      (Engine.regenerate_frame e.regenerating).1.coordinator
    have added := failed_adds_no_directory s root _ _ nextSound nextServes stillAbsent stillSpared removes error failed
    have inIndex (l : Location) := published_indexed root (e.regenerating.indexName e.regenerating.generations) l
    have left (name key : String) (bytes : Bytes) (plain : Path.Plain name) :=
      s.has_stored_outside root _ e.regenerating.coordinator _ _ nextSound.place _ steps.files
        (fun l inside => inIndex l (.inl inside)) name key bytes plain
    rw [new, kept] at steps
    have whole := steps_trans s root _ (fun l => Sourced root l ∨ Generated root (e.indexName e.generations) l) _ _ _
      (steps_weaken s root _ _ _ _ _ polls fun _ => .inl) (steps_weaken s root _ _ _ _ _ steps fun _ => .inr)
    obtain ⟨marker, manifest⟩ := attempt_reads_same s root a e sound serves absent _ whole.files
    exact {
      publisher := by rw [after]; exact samePublisher.trans publisher
      marker := by rw [after]; exact marker
      manifest := by rw [after]; exact manifest
      directories := by
        rw [after]
        rintro l ⟨tail, rfl⟩ found
        exact moves_before _ _ _ _ polls.files _ _ (index_not_sourced root tail) (added _ found ⟨tail, rfl⟩)
      stored := by
        intro name member
        rw [changed] at member
        obtain ⟨before, source, key, bytes, turn⟩ := polled name member
        have namePlain : Path.Plain name := by
          obtain ⟨rest, split⟩ := turn.turn
          rw [← turn.named]
          exact plain source (by rw [split]; simp)
        refine ⟨before, source, key, bytes, turn.turn, turn.named, turn.offered, ?_⟩
        rw [after, coordinator]
        exact left name key bytes namePlain turn.stored
      pending := owed }

namespace HalfMade

open TwoIndexes (store)

def files : FileTree :=
  ⟨(["a.log"], .file (Bytes.ofText "A")) :: TwoIndexes.empty.entries, []⟩

def setup : Setup := CutBetween.setup 'a'

def breaker : Generator := fun artifacts out t =>
  (.fails (.reported "broken"), (CutBetween.maker artifacts out t).2)

def annals : Annals := ⟨fun _ => none, false⟩

def first : Engine := (setup.start ⟨files, [], []⟩).1.toOption.get (by decide +kernel)

def served : Engine := first.runRound.2

def changed (g : Generator) : Engine :=
  { served with
    disk := { served.disk with files := served.disk.files.set ["a.log"] (.file (Bytes.ofText "B")) }
    generator := fun _ => g }

def broken : Engine := changed breaker

theorem first_started : (setup.start ⟨files, [], []⟩).1 = .ok first := setup.start_get _ _

theorem first_round :
    first.regenerating.disk.files.get?
        (indexAt ["data"] (first.regenerating.indexName first.regenerating.generations)) = none ∧
      store.indexDir (first.regenerating.indexName first.regenerating.generations) ∉
        first.regenerating.disk.doomed ∧
      served.disk.files.get? ["a.log"] = some (.file (Bytes.ofText "A")) := by decide +kernel

theorem broken_round :
    (broken.sources.map Source.name = ["a"] ∧ broken.publisher.current = some "a" ∧
      broken.runRound.1 = { changed := ["a"], generationFailed := true }) ∧
    (broken.disk.files.get? (indexAt ["data"] (broken.indexName broken.generations)) = none ∧
      store.indexDir (broken.indexName broken.generations) ∉ broken.disk.doomed) ∧
    broken.regenerating.attempted.2.disk.files.get?
        (indexAt ["data"] (broken.regenerating.indexName broken.regenerating.generations)) = some .directory ∧
      (Store.removeIndexDir broken.regenerating.attempted.2.disk
        (store.indexDir (broken.regenerating.indexName broken.regenerating.generations))).1.isOk = true := by
  decide +kernel

theorem place : store.InPlace ["data"] files where
  formed := FileTree.well_formed_of_entries _ (by decide) (by decide)
  reaches := Store.reaches_entered files "data" ["data"] (by decide) (by decide) (by decide)
  source := by decide
  index := by decide

theorem named (e : Engine) (sources : e.sources.map Source.name = ["a"]) :
    ∀ source ∈ e.sources, Config.checkName source.name = .ok () := by
  intro source member
  have listed := List.mem_map_of_mem (f := Source.name) member
  rw [sources, List.mem_singleton] at listed
  rw [listed]
  exact CutBetween.named

def history : Annals := annals.restored.round first

theorem running_served : Running Generator.Confined store ["data"] history served := by
  have indexes (n : Nat) : IndexName (setup.indexName n) := hex_index_name _ (hex_repeated 'a' (by decide) n)
  have sources : first.sources = setup.sources := (setup.start_keeps _ first first_started).1
  have opened : first.disk.files = files := setup.start_files ["data"] ⟨files, [], []⟩ first place rfl first_started
  have start : Running Generator.Confined store ["data"] annals.restored first :=
    .opened annals setup ⟨files, [], []⟩ first rfl indexes (fun _ => CutBetween.maker_confined) rfl first_started
      (opened ▸ place) (opened ▸ ⟨.inl (by decide), by decide⟩) nofun
  exact running_round store ["data"] (fun _ => id) _ first start (named first (congrArg (List.map Source.name) sources))
    first_round.1 first_round.2.1

theorem running_changed {allowed : Generator → Prop} (weaker : ∀ g, g.Confined → allowed g) (g : Generator)
    (listed : allowed g) : Running allowed store ["data"] history (changed g) := by
  have sound := running_sound store ["data"] (fun _ => id) _ served running_served
  refine .elsewhere history served _ (running_weaken store ["data"] weaker _ _ running_served) rfl rfl sound.indexes
    (fun _ => listed) rfl ?_
  exact elsewhere_file store ["data"] served.disk.files sound.place [] "a.log" _ rfl (by decide)
    (by rw [show ([] : Location) ++ ["a.log"] = ["a.log"] from rfl, first_round.2.2]; nofun)
    ⟨fun inside => by simp [Sourced] at inside, fun inside => by simp [Indexed, indexesAt] at inside⟩

theorem running : Running Generator.Confined store ["data"] history broken :=
  running_changed (fun _ => id) breaker fun artifacts => CutBetween.maker_confined artifacts

theorem removes : broken.regenerating.Removes store ["data"] := by
  intro error mid attempted _
  have removed := broken_round.2.2.2
  rw [attempted] at removed
  generalize (Store.removeIndexDir mid.disk _).1 = answer at removed ⊢
  cases answer with
  | ok => rfl
  | error e => cases removed

def careless : Generator := fun _ _ t =>
  (.fails (.reported "broken"), t.set (markerAt ["data"]) (.file (Bytes.ofText "zzz")))

def spoiled : Engine := changed careless

theorem spoiled_round : spoiled.runRound.1 = { changed := ["a"], generationFailed := true } ∧
    spoiled.disk.files.get? (indexAt ["data"] (spoiled.indexName spoiled.generations)) = none ∧
    spoiled.regenerating.attempted.2.disk.files.get?
      (indexAt ["data"] (spoiled.regenerating.indexName spoiled.regenerating.generations)) = none ∧
    spoiled.disk.files.read store.markerPath = .ok (Bytes.ofText "a") ∧
    spoiled.runRound.2.disk.files.read store.markerPath = .ok (Bytes.ofText "zzz") := by decide +kernel

end HalfMade

open HalfMade in
theorem half_made_index_leaves_published :
    Running Generator.Confined TwoIndexes.store ["data"] history broken ∧ broken.publisher.current = some "a" ∧
      broken.runRound.1.published = none ∧ broken.runRound.1.changed = ["a"] ∧
      broken.regenerating.attempted.2.disk.files.get?
        (indexAt ["data"] (broken.regenerating.indexName broken.regenerating.generations)) = some .directory ∧
      LeftAsPublished TwoIndexes.store ["data"] broken := by
  obtain ⟨⟨sources, current, outcome⟩, ⟨absent, spared⟩, made, -⟩ := broken_round
  have distinct : (broken.sources.map Source.name).Nodup := by rw [sources]; decide
  have unpublished : broken.runRound.1.published = none := by rw [outcome]
  exact ⟨running, current, unpublished, by rw [outcome], made,
    unpublished_round_leaves_published (fun _ => id) TwoIndexes.store ["data"] history broken running
      (named broken sources) distinct absent spared removes unpublished⟩

open HalfMade in
theorem careless_generator_changes_marker :
    Running (fun _ => True) TwoIndexes.store ["data"] history spoiled ∧
      spoiled.disk.files.get? (indexAt ["data"] (spoiled.indexName spoiled.generations)) = none ∧
      spoiled.regenerating.Removes TwoIndexes.store ["data"] ∧ spoiled.runRound.1.published = none ∧
      spoiled.disk.files.read TwoIndexes.store.markerPath = .ok (Bytes.ofText "a") ∧
      spoiled.runRound.2.disk.files.read TwoIndexes.store.markerPath = .ok (Bytes.ofText "zzz") := by
  obtain ⟨outcome, absent, unmade, before, after⟩ := spoiled_round
  refine ⟨running_changed (fun _ _ => trivial) careless trivial, absent, ?_, by rw [outcome], before, after⟩
  intro error mid attempted there
  rw [attempted, there] at unmade
  cases unmade

end IndexKeeper
