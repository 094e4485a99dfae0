import IndexKeeper.Proofs.FileActions
import IndexKeeper.Proofs.QuietEngines
import IndexKeeper.Proofs.ReconfiguredRounds

set_option autoImplicit false

namespace IndexKeeper

open Store (Unkept indexesAt indexAt markerAt besideMarkerAt)

section Replaced

variable (t : FileTree) (formed : t.WellFormed) (base name : String) (l : Location) (bytes : Bytes)
  (reaches : t.Reaches Nothing base l) (plain : Path.Plain name) (longer : Path.Plain (name ++ ".tmp"))
  (clean : Char.ofNat 0 ∉ name.toList)
include formed reaches plain longer clean

theorem moved_iff (held : t.get? (l ++ [name ++ ".tmp"]) = some (.file bytes))
    (usable : FileTree.Usable base (name ++ ".tmp")) :
    let moved := t.rename (Path.join base (name ++ ".tmp")) (Path.join base name)
    ((∃ next, moved = .ok next) ↔ t.get? (l ++ [name]) ≠ some .directory) ∧
      ∀ next, moved = .ok next → next.read (Path.join base name) = .ok bytes := by
  intro moved
  have fits := FileTree.usable_shorter base (name ++ ".tmp") name longer plain usable (by simp) clean
  have renamed := rename_join t base (name ++ ".tmp") name l longer plain (reaches_way _ _ _ _ reaches)
  rw [if_pos usable, held] at renamed
  dsimp only at renamed
  rw [if_pos fits] at renamed
  constructor
  · by_cases taken : t.get? (l ++ [name]) = some .directory
    · rw [if_pos taken] at renamed
      exact iff_of_false (by rintro ⟨next, done⟩; cases renamed.symm.trans done) fun free => free taken
    · rw [if_neg taken] at renamed
      exact iff_of_true ⟨_, renamed⟩ taken
  · intro next done
    obtain ⟨moves, there, -, -⟩ := rename_moves Nothing t formed base (name ++ ".tmp") name l bytes reaches longer
      plain held next done
    have nextReaches := reaches_moves Nothing _ _ _ base l moves id reaches
    rw [FileTree.read_join next base name l plain (reaches_way _ _ _ _ nextReaches), if_pos fits, there]

theorem replaced_iff (doomed : List String) :
    let done := Disk.performAll ⟨t, doomed, []⟩ (Store.replaceWork (Path.join base name) bytes)
    (done.1 = .ok () ↔ FileTree.Usable base (name ++ ".tmp") ∧
      t.get? (l ++ [name ++ ".tmp"]) ≠ some .directory ∧ t.get? (l ++ [name]) ≠ some .directory) ∧
    (done.1 = .ok () → done.2.files.read (Path.join base name) = .ok bytes) := by
  intro done
  have written := FileTree.write_join t base (name ++ ".tmp") l longer (reaches_way _ _ _ _ reaches) bytes
  have fresh (t : FileTree) (step : Step) :
      Disk.perform ⟨t, doomed, []⟩ step = ((step.apply t).1, ⟨(step.apply t).2, doomed, []⟩) := rfl
  have shape : done = Disk.performAll ⟨t, doomed, []⟩
      (Store.replaceWork (Path.join base name) bytes) := rfl
  rw [Store.replaceWork, temporary_join base name plain longer, Disk.performAll, fresh, Step.write] at shape
  dsimp only [Step.total] at shape
  by_cases usable : FileTree.Usable base (name ++ ".tmp")
  · rw [if_pos usable] at written
    by_cases beside : t.get? (l ++ [name ++ ".tmp"]) = some .directory
    · rw [if_pos beside] at written
      rw [written] at shape
      rw [shape]
      exact ⟨iff_of_false (by simp) fun free => free.2.1 beside, by simp⟩
    · rw [if_neg beside] at written
      rw [written] at shape
      obtain ⟨moves, held, -⟩ := write_moves Nothing t base (name ++ ".tmp") l bytes reaches longer _ written
      generalize t.set (l ++ [name ++ ".tmp"]) (.file bytes) = mid at shape moves held
      have other : l ++ [name] ≠ l ++ [name ++ ".tmp"] := by
        intro same
        have sizes := congrArg String.utf8ByteSize (List.singleton_inj.mp (List.append_cancel_left same))
        simp at sizes
      obtain ⟨worked, read⟩ := moved_iff mid (moves.formed formed) base name l bytes
        (reaches_moves Nothing _ _ _ base l moves id reaches) plain longer clean held usable
      rw [moves.get (l ++ [name]) id other] at worked
      dsimp only at shape
      rw [Disk.performAll, fresh, Step.rename] at shape
      dsimp only [Step.whole, Step.total] at shape
      generalize mid.rename (Path.join base (name ++ ".tmp")) (Path.join base name) = answer at shape worked read
      cases answer with
      | error e =>
          rw [shape]
          refine ⟨iff_of_false (by simp) fun free => ?_, by simp⟩
          obtain ⟨next, none⟩ := worked.mpr free.2.2
          cases none
      | ok next =>
          rw [shape]
          exact ⟨iff_of_true rfl ⟨usable, beside, worked.mp ⟨next, rfl⟩⟩, fun _ => read next rfl⟩
  · rw [if_neg usable] at written
    rw [written] at shape
    rw [shape]
    exact ⟨iff_of_false (by simp) fun free => usable free.1, by simp⟩

end Replaced

structure Engine.BuiltFrom (e : Engine) (index : String) (keys : VersionKeys) : Prop where
  current : e.publisher.current = some index
  indexed : e.indexedKeys? = some keys
  behind : e.indexIsBehind = true ↔
    (∃ name, e.coordinator.versionKey? name ≠ none) ∧ e.coordinator.versionKeys ≠ keys

theorem built_from_manifest (e : Engine) (index : String) (keys : VersionKeys)
    (current : e.publisher.current = some index)
    (manifest : e.coordinator.store.readManifest e.disk.files index = .ok (some keys)) : e.BuiltFrom index keys := by
  have indexed : e.indexedKeys? = some keys := by
    rw [Engine.indexedKeys?, current, Option.bind_some, manifest]
  refine ⟨current, indexed, ?_⟩
  rw [e.behind_iff, indexed, ne_eq, Option.some.injEq, eq_comm, ne_eq]

theorem abreast_of_built (e : Engine) (index : String) (keys : VersionKeys) (built : e.BuiltFrom index keys)
    (same : e.coordinator.versionKeys = keys) : e.indexIsBehind = false := by
  rw [← Bool.not_eq_true, built.behind]
  exact fun behind => behind.2 same

section Published

variable (s : Store) (root : Location) (a : Annals) (e : Engine) (sound : Sound s root a e) (index : String)
  (named : IndexName index) (spared : s.indexDir index ∉ e.disk.doomed) (keys : VersionKeys)
include sound named spared

theorem manifest_written (done : (s.writeManifest e.disk index keys).1 = .ok ()) :
    s.readManifest (s.writeManifest e.disk index keys).2.files index = .ok (some keys) := by
  have doomed := doomed_with s markers e.disk sound.doomed index spared
  have standing := s.place_standing root _ sound.place _ e.disk rfl doomed
  have reaches := s.place_index_reaches root _ sound.place _ (Store.indexed_of_unkept root _)
    (Store.indexes_stay root (index :: markers))
  exact ((s.manifest_steps root _ e.disk standing reaches index List.mem_cons_self named.1 keys).2.1 done).2.2

theorem published_named (after : Engine) (published : e.publishGenerated index keys = (.ok (), after)) :
    after.coordinator = e.coordinator ∧ after.publisher.current = some index ∧ after.publisher.store = s ∧
      s.InPlace root after.disk.files ∧ Marked root after.disk.files ∧ s.Names root after.disk.files index ∧
      s.readManifest after.disk.files index = .ok (some keys) := by
  have frame := (e.publish_generated_frame index keys).1
  have doomed := doomed_with s markers e.disk sound.doomed index spared
  have standing := s.place_standing root _ sound.place _ e.disk rfl doomed
  have reaches := s.place_index_reaches root _ sound.place _ (Store.indexed_of_unkept root _)
    (Store.indexes_stay root (index :: markers))
  obtain ⟨-, beside, written, -⟩ := publish_generated_done e s root _ sound.store sound.publisher index named.1
    named.2.2 List.mem_cons_self (List.mem_cons_of_mem _ (by decide)) standing reaches keys
  rw [published] at frame beside written
  obtain ⟨d, steps, held, ⟨marked, fits⟩, swapped⟩ := written rfl
  have publisher : after.publisher = (e.publisher.swap d index).1 := congrArg Prod.fst swapped
  have files : after.disk.files = d.files := by
    rw [show after.disk = (e.publisher.swap d index).2 from congrArg Prod.snd swapped, swap_files]
  rw [files] at beside ⊢
  refine ⟨frame.coordinator, ?_, ?_, s.place_moves root _ sound.place _ _ _ steps.files, ?_,
    ⟨named, marked, fits, held.there⟩, held.manifest⟩
  · rw [publisher, swap_current]
  · rw [publisher, swap_store, sound.publisher]
  · exact ⟨.inr ⟨index, named, marked⟩, fun found => sound.marked.beside (beside found)⟩

end Published

theorem opened_again (s : Store) (root : Location) (t : FileTree) (place : s.InPlace root t)
    (readable : t.isDirectory s.sourceRoot = true) : s.init ⟨t, [], []⟩ = (.ok (), ⟨t, [], []⟩) := by
  have way := s.place_way root t place
  have fits := ((FileTree.is_directory_join t s.root "source" root (by decide) way).mp readable).1
  have there (name : String) (plain : Path.Plain name) (usable : FileTree.Usable s.root name)
      (found : t.get? (root ++ [name]) = some .directory) :
      Disk.perform ⟨t, [], []⟩ (.makeDirectories (Path.join s.root name)) = (.ok (), ⟨t, [], []⟩) := by
    have made := make_directories_join t s.root name root plain way
    rw [if_pos usable, found, if_neg nofun, if_pos rfl] at made
    change ((t.makeDirectories (Path.join s.root name)).1,
      (⟨(t.makeDirectories (Path.join s.root name)).2, [], []⟩ : Disk)) = _
    rw [made]
  have first := there "source" (by decide) fits place.source
  have second := there "index" (by decide)
    (FileTree.usable_shorter _ _ "index" (by decide) (by decide) fits (by decide) (by decide)) place.index
  rw [Store.init, Store.openWork, Disk.performAll, show Disk.perform _ (.makeDirectories s.sourceRoot) = _ from first]
  dsimp only
  rw [Disk.performAll, show Disk.perform _ (.makeDirectories s.indexRoot) = _ from second]
  rfl

section Restarted

variable (s : Store) (root : Location) (t : FileTree) (place : s.InPlace root t) (marked : Marked root t)
  (index : String) (names : s.Names root t index) (keys : VersionKeys)
  (manifest : s.readManifest t index = .ok (some keys)) (u : Setup) (store : u.store = s)
include place marked names manifest store

theorem restarted_built (fates : List Fate) (next : Engine) (started : (u.start ⟨t, [], fates⟩).1 = .ok next) :
    next.BuiltFrom index keys := by
  subst store
  obtain ⟨disk, made, -, loaded, opened, -, -⟩ := u.started _ next rfl started
  have made : disk.files = t := made ▸ init_in_place u.store root ⟨t, [], fates⟩ place rfl
  obtain ⟨-, read, -, -, -⟩ := u.store.publisher_started disk next.publisher (by rw [opened])
  rw [made, (read_marker_iff u.store root t place marked index).mpr names] at read
  refine built_from_manifest next index keys (Except.ok.inj read).symm ?_
  rw [u.start_files root ⟨t, [], fates⟩ next place rfl started,
    (loaded_entry u.store root disk.files (made ▸ place) _ next.coordinator loaded).1]
  exact manifest

omit manifest in
theorem restart_opens (c : Coordinator)
    (loaded : Coordinator.load s t (u.sources.map Source.name) = .ok c) :
    ∃ next, (u.start ⟨t, [], []⟩).1 = .ok next ∧ next.coordinator = c := by
  subst store
  have readable : t.isDirectory u.store.sourceRoot = true := by
    obtain ⟨listed, all, -⟩ := map_ok _ _ _ loaded
    obtain ⟨dirs, read, -⟩ := bind_ok _ _ _ all
    exact Store.directory_of_names t _ dirs read
  have made := opened_again u.store root t place readable
  obtain ⟨last, opened⟩ := named_index_restored u.store root t place marked index names [] []
  obtain ⟨next, started⟩ := u.start_opens _ _ c made loaded _ last opened
  obtain ⟨disk, same, -, again, -⟩ := u.started _ next rfl started
  rw [made] at same
  exact ⟨next, started, Except.ok.inj (again.symm.trans (same ▸ loaded))⟩

end Restarted

theorem manifest_reads_back (s : Store) (keys : VersionKeys) :
    (∀ (t : FileTree) (doomed : List String) (index : String) (l : Location), t.WellFormed →
      t.way (s.indexDir index) = .ok l → t.get? l = some .directory →
      ((s.writeManifest ⟨t, doomed, []⟩ index keys).1 = .ok () ↔
        FileTree.Usable (s.indexDir index) ".complog-index.json.tmp" ∧
        t.get? (l ++ [".complog-index.json.tmp"]) ≠ some .directory ∧
        t.get? (l ++ [".complog-index.json"]) ≠ some .directory) ∧
      ((s.writeManifest ⟨t, doomed, []⟩ index keys).1 = .ok () →
        s.readManifest (s.writeManifest ⟨t, doomed, []⟩ index keys).2.files index = .ok (some keys))) ∧
    ∀ (allowed : Generator → Prop), (∀ g, allowed g → g.Confined) → ∀ (root : Location) (a : Annals) (e : Engine)
      (index : String), Running allowed s root a e → IndexName index → s.indexDir index ∉ e.disk.doomed →
      ((s.writeManifest e.disk index keys).1 = .ok () →
        s.readManifest (s.writeManifest e.disk index keys).2.files index = .ok (some keys)) ∧
      ∀ after, e.publishGenerated index keys = (.ok (), after) →
        after.BuiltFrom index keys ∧
        (after.coordinator.versionKeys = keys → after.indexIsBehind = false) ∧
        ∀ u : Setup, u.store = s →
          (∀ fates next, (u.start ⟨after.disk.files, [], fates⟩).1 = .ok next → next.BuiltFrom index keys) ∧
          ∀ c, Coordinator.load s after.disk.files (u.sources.map Source.name) = .ok c → c.versionKeys = keys →
            ∃ next, (u.start ⟨after.disk.files, [], []⟩).1 = .ok next ∧ next.indexIsBehind = false := by
  constructor
  · intro t doomed index l formed leads there
    obtain ⟨worked, read⟩ := replaced_iff t formed (s.indexDir index) ".complog-index.json" l (Manifest.render keys)
      ⟨FileTree.leads_of_enter_all t _ l _ leads, there⟩ (by decide) (by decide) (by decide) doomed
    exact ⟨worked, fun done => s.read_manifest_rendered index _ keys (read done)⟩
  · intro allowed confined root a e index running named spared
    have sound := running_sound s root confined a e running
    refine ⟨manifest_written s root a e sound index named spared keys, fun after published => ?_⟩
    obtain ⟨coordinator, current, -, place, marked, names, manifest⟩ :=
      published_named s root a e sound index named spared keys after published
    have built := built_from_manifest after index keys current (by rw [coordinator, sound.store]; exact manifest)
    refine ⟨built, abreast_of_built after index keys built, fun u store => ?_⟩
    have restarted := restarted_built s root _ place marked index names keys manifest u store
    refine ⟨restarted, fun c loaded same => ?_⟩
    obtain ⟨next, started, knows⟩ := restart_opens s root _ place marked index names u store c loaded
    exact ⟨next, started, abreast_of_built next index keys (restarted [] next started) (knows ▸ same)⟩

namespace Rewritten

open HalfMade (setup)
open TwoIndexes (store)

def key : String := "\"o\" \\ \u0001é"

def files : FileTree := ⟨[(["data"], .directory), (["data", "source"], .directory),
  (["data", "source", "a"], .directory), (["data", "source", "a", "build.complog"], .file []),
  (["data", "source", "a", "version"], .file (Bytes.ofText key)), (["data", "index"], .directory),
  (["data", "index", "current"], .file (Bytes.ofText "b")), (["data", "index", "b"], .directory),
  (["data", "index", "b", ".complog-index.json"], .file (Bytes.ofText "old"))], []⟩

def first : Engine := (setup.start ⟨files, [], []⟩).1.toOption.get (by decide +kernel)

def keys : VersionKeys := .ofList [("a", key)]

def after : Engine := (first.publishGenerated "b" keys).2

def odd : VersionKeys := .ofList [("", "\u0000"), ("é\n", ""), ("z", "\t\"")]

theorem opened_behind : first.indexIsBehind = true ∧ first.coordinator.versionKeys = keys := by decide +kernel

theorem index_spared : store.indexDir "b" ∉ first.disk.doomed := by decide +kernel

theorem publishes : (first.publishGenerated "b" keys).1 = .ok () := by decide +kernel

theorem keys_reload :
    (Coordinator.load store after.disk.files ["a"]).toOption.map Coordinator.versionKeys = some keys := by
  decide +kernel

theorem way_to_index : files.way (store.indexDir "b") = .ok ["data", "index", "b"] := by decide +kernel

theorem place : store.InPlace ["data"] files where
  formed := FileTree.well_formed_of_entries _ (by decide +kernel) (by decide)
  reaches := Store.reaches_entered files "data" ["data"] (by decide) (by decide) (by decide)
  source := by decide
  index := by decide

theorem running : Running Generator.Confined store ["data"] HalfMade.annals.restored first := by
  have indexes (n : Nat) : IndexName (setup.indexName n) := hex_index_name _ (hex_repeated 'a' (by decide) n)
  have started : (setup.start ⟨files, [], []⟩).1 = .ok first := setup.start_get _ _
  have opened : first.disk.files = files := setup.start_files ["data"] ⟨files, [], []⟩ first place rfl started
  exact .opened HalfMade.annals setup ⟨files, [], []⟩ first rfl indexes (fun _ => CutBetween.maker_confined) rfl started
    (opened ▸ place) (opened ▸ ⟨.inr ⟨"b", by decide, by decide⟩, by decide⟩) nofun

end Rewritten

open Rewritten in
theorem rewritten_manifest_reads_back :
    first.indexIsBehind = true ∧ first.publishGenerated "b" keys = (.ok (), after) ∧ after.indexIsBehind = false ∧
      (∃ next, (HalfMade.setup.start ⟨after.disk.files, [], []⟩).1 = .ok next ∧ next.indexIsBehind = false) ∧
      TwoIndexes.store.readManifest (TwoIndexes.store.writeManifest ⟨files, [], []⟩ "b" odd).2.files "b" =
        .ok (some odd) := by
  obtain ⟨behind, known⟩ := opened_behind
  have published : first.publishGenerated "b" keys = (.ok (), after) := Prod.ext publishes rfl
  obtain ⟨-, abreast, restarts⟩ := ((manifest_reads_back TwoIndexes.store keys).2 Generator.Confined (fun _ => id)
    ["data"] _ first "b" running (by decide) index_spared).2 after published
  have stored : after.coordinator.versionKeys = keys := by
    have frame := (first.publish_generated_frame "b" keys).1.coordinator
    rw [show after.coordinator = first.coordinator from frame, known]
  obtain ⟨c, loaded, same⟩ := Option.map_eq_some_iff.mp keys_reload
  obtain ⟨written, read⟩ := (manifest_reads_back TwoIndexes.store odd).1 files [] "b" ["data", "index", "b"]
    place.formed way_to_index (by decide)
  refine ⟨behind, published, abreast stored, (restarts HalfMade.setup rfl).2 c (ok_of_to_option _ c loaded) same,
    read (written.mpr ?_)⟩
  exact ⟨by decide, by decide, by decide⟩

end IndexKeeper
