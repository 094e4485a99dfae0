import IndexKeeper.Proofs.EngineRuns
import IndexKeeper.Proofs.Recovery

set_option autoImplicit false

namespace IndexKeeper

open Store (Unkept Indexed indexesAt indexAt markerAt besideMarkerAt)

namespace Engine

def handed (e : Engine) : FileTree := e.disk.grant.2.files

theorem poll_source_events (e : Engine) (source : Source) : ∃ asked,
    (e.pollSource source).1.events = e.events ++ asked ∧ ∀ event ∈ asked, event.isGeneration = false := by
  unfold pollSource
  split
  · exact ⟨[], (List.append_nil _).symm, nofun⟩
  · generalize e.coordinator.ingestUntil e.disk source (e.interrupts source.name) = i
    have questions : ∀ event ∈ i.asked.map (Event.asked source.name), event.isGeneration = false := by
      intro event member
      obtain ⟨question, -, rfl⟩ := List.mem_map.mp member
      rfl
    dsimp only
    split <;> exact ⟨_, rfl, questions⟩

theorem poll_sources_events (e : Engine) (o : RoundOutcome) (sources : List Source) : ∃ asked,
    (e.pollSources o sources).1.events = e.events ++ asked ∧ ∀ event ∈ asked, event.isGeneration = false := by
  induction sources generalizing e o with
  | nil => exact ⟨[], (List.append_nil _).symm, nofun⟩
  | cons source rest ih =>
      obtain ⟨first, here, questions⟩ := poll_source_events e source
      have further (o : RoundOutcome) : ∃ asked,
          ((e.pollSource source).1.pollSources o rest).1.events = e.events ++ asked ∧
            ∀ event ∈ asked, event.isGeneration = false := by
        obtain ⟨later, there, more⟩ := ih (e.pollSource source).1 o
        refine ⟨first ++ later, by rw [there, here, List.append_assoc], fun event member => ?_⟩
        exact (List.mem_append.mp member).elim (questions event) (more event)
      rw [pollSources]
      generalize e.pollSource source = answer at here further ⊢
      obtain ⟨next, polled, verdict⟩ := answer
      cases verdict with
      | cancelled => exact ⟨first, here, questions⟩
      | changed => exact further _
      | unchanged => exact further _
      | failed => exact further _

theorem run_generator_ran (e : Engine) (artifacts : List String) (index out : String)
    (ran : (e.runGenerator artifacts index out).1 = .ok ()) :
    e.disk.grant.1 = .all ∧
      (e.runGenerator artifacts index out).2.events = e.events ++ [.generated index artifacts] := by
  unfold runGenerator at ran ⊢
  unfold Disk.generate at ran ⊢
  generalize e.disk.grant = granted at ran ⊢
  obtain ⟨grant, disk⟩ := granted
  cases grant with
  | nothing => cases ran
  | part kept => cases ran
  | all =>
      refine ⟨rfl, ?_⟩
      dsimp only
      generalize e.generator e.generations artifacts out disk.files = answer
      obtain ⟨reply, files⟩ := answer
      cases reply <;> rfl

theorem publish_generated_events (e : Engine) (index : String) (keys : VersionKeys) :
    (e.publishGenerated index keys).2.events = e.events := by
  unfold publishGenerated
  generalize e.coordinator.store.writeManifest e.disk index keys = answer
  obtain ⟨written, disk⟩ := answer
  cases written <;> rfl

theorem regenerate_events (e : Engine) (index : String) (done : e.regenerate.1 = .ok index) :
    e.disk.grant.1 = .all ∧
      e.regenerate.2.events = e.events ++ [.generated index e.coordinator.snapshot.paths] := by
  unfold regenerate at done ⊢
  dsimp only at done ⊢
  cases called : e.clock.cancelled with
  | true => rw [called] at done; cases done
  | false =>
      rw [called] at done
      rw [if_neg Bool.false_ne_true] at done ⊢
      have ran := run_generator_ran e e.coordinator.snapshot.paths (e.indexName e.generations)
        (e.coordinator.store.indexDir (e.indexName e.generations))
      generalize e.runGenerator e.coordinator.snapshot.paths (e.indexName e.generations)
        (e.coordinator.store.indexDir (e.indexName e.generations)) = answer at done ran ⊢
      obtain ⟨result, mid⟩ := answer
      cases result with
      | error error => cases done
      | ok =>
          have published := publish_generated_events mid (e.indexName e.generations)
            e.coordinator.snapshot.versionKeys
          dsimp only at done ran ⊢
          generalize mid.publishGenerated (e.indexName e.generations) e.coordinator.snapshot.versionKeys =
            answer at done published ⊢
          obtain ⟨written, last⟩ := answer
          cases written with
          | error error => cases done
          | ok =>
              obtain rfl := Except.ok.inj done
              exact ⟨(ran rfl).1, published.trans (ran rfl).2⟩

end Engine

structure PublishedRound (s : Store) (e : Engine) (index : String) : Prop where
  through : e.polled.2.2.cancelled = false
  asked : ∃ asked, e.polled.1.events = e.events ++ asked ∧ ∀ event ∈ asked, event.isGeneration = false
  generated : ∃ names : List String, names.Pairwise (· < ·) ∧
    (∀ name, name ∈ names ↔ e.runRound.2.coordinator.versionKey? name ≠ none) ∧
    e.runRound.2.events = e.polled.1.events ++ [.generated index (names.map s.artifactPath)]
  manifest : s.readManifest e.runRound.2.disk.files index = .ok (some e.runRound.2.coordinator.versionKeys)
  directory : e.runRound.2.disk.files.isDirectory (s.indexDir index) = true
  current : e.runRound.2.publisher.current = some index
  marker : s.readMarker e.runRound.2.disk.files = .ok (some index)
  settled : e.runRound.2.loop.pendingRegeneration = false

theorem snapshot_paths (s : Store) (root : Location) (a : Annals) (e : Engine) (sound : Sound s root a e) :
    e.coordinator.snapshot.paths = e.coordinator.entries.names.map s.artifactPath :=
  NameMap.values_by_name _ _ _ fun name stored found => (sound.paths name stored found).2

theorem version_key_none_iff (c : Coordinator) (name : String) :
    name ∈ c.entries.names ↔ c.versionKey? name ≠ none := by
  rw [NameMap.mem_names_iff, Coordinator.versionKey?]
  simp

theorem published_regenerated (e : Engine) (index : String) (published : e.runRound.1.published = some index) :
    e.polled.2.2.cancelled = false ∧ ∃ next, e.regenerating.regenerate = (.ok index, next) ∧
      e.runRound.2 = { next with loop := { next.loop with pendingRegeneration := false } } := by
  have unpublished := (Engine.polled_start e).2.2.1
  rcases Engine.idle_or_due e e.polled.2.2 (e.loop.firstRound && e.indexIsBehind) with idle | ⟨through, due⟩
  · rw [Engine.run_round_idle e idle, unpublished] at published
    cases published
  · refine ⟨through, ?_⟩
    rw [Engine.run_round_due e through due] at published ⊢
    generalize e.regenerating.regenerate = answer at published ⊢
    obtain ⟨result, next⟩ := answer
    cases result with
    | error error =>
        rw [show ({ e.polled.2.2 with generationFailed := true, cancelled := next.clock.cancelled } :
          RoundOutcome).published = none from unpublished] at published
        cases published
    | ok name =>
        obtain rfl := Option.some.inj published
        exact ⟨next, rfl, rfl⟩

theorem round_publishes_what_is_stored {allowed : Generator → Prop} (confined : ∀ g, allowed g → g.Confined)
    (s : Store) (root : Location) (a : Annals) (e : Engine) (running : Running allowed s root a e)
    (named : ∀ source ∈ e.sources, Config.checkName source.name = .ok ())
    (absent : e.regenerating.disk.files.get?
      (indexAt root (e.regenerating.indexName e.regenerating.generations)) = none)
    (spared : s.indexDir (e.regenerating.indexName e.regenerating.generations) ∉ e.regenerating.disk.doomed)
    (index : String) (published : e.runRound.1.published = some index) :
    PublishedRound s e index ∧ e.regenerating.disk.grant.1 = .all ∧
      ((a.round e).whole = true → ∀ name key, e.runRound.2.coordinator.versionKeys.get? name = some key →
        ∃ r, (a.round e).recorded name = some r ∧ key = r.known ∧
          (key = r.key ↔ (r.restored = true → Text.trim r.key = r.key)) ∧
          e.regenerating.handed.read (s.artifactPath name) = .ok r.bytes) := by
  have sound := running_sound s root confined _ _ (running_regenerating s root confined a e running named)
  obtain ⟨through, next, regenerated, after⟩ := published_regenerated e index published
  have done := fresh_regenerated s root _ _ sound absent spared
  have frame := (Engine.regenerate_frame e.regenerating).1
  obtain ⟨granted, events⟩ := Engine.regenerate_events e.regenerating index (by rw [regenerated])
  rw [regenerated] at done frame events
  have coordinator : next.coordinator = e.regenerating.coordinator := frame.coordinator
  obtain ⟨rfl, d, steps, held, ⟨marked, fits⟩, swapped⟩ := done.published index rfl
  have new := sound.indexes e.regenerating.generations
  have publisher : next.publisher = (e.regenerating.publisher.swap d _).1 := congrArg Prod.fst swapped
  have disk : next.disk = (e.regenerating.publisher.swap d _).2 := congrArg Prod.snd swapped
  have files : next.disk.files = d.files := by rw [disk, swap_files]
  rw [after]
  refine ⟨?_, granted, fun whole name key known => ?_⟩
  · constructor
    case through => exact through
    case asked =>
      exact Engine.poll_sources_events { e with loop := { e.loop with firstRound := false } } {} e.sources
    case generated =>
      refine ⟨e.regenerating.coordinator.entries.names, NameMap.names_sorted _, fun name => ?_, ?_⟩
      · rw [after, coordinator]
        exact version_key_none_iff e.regenerating.coordinator name
      · rw [after, ← snapshot_paths s root _ _ sound]
        exact events
    case manifest =>
      rw [after, files, coordinator]
      exact held.manifest
    case directory =>
      rw [after, files]
      exact held.there
    case current =>
      rw [after, publisher]
      exact swap_current _ _ _
    case marker =>
      have place := s.place_moves root _ sound.place _ _ _ steps.files
      rw [after, files]
      exact (read_marker_iff s root d.files place ⟨.inr ⟨_, new, marked⟩, fun found =>
        sound.marked.beside (done.beside (files ▸ found))⟩ _).mpr ⟨new, marked, fits, held.there⟩
    case settled => rw [after]
  · have known : e.regenerating.coordinator.versionKey? name = some key := by
      rw [coordinator, Coordinator.versionKeys, NameMap.get_map] at known
      exact known
    obtain ⟨r, recorded, same⟩ := sound.known whole name key known
    obtain ⟨stored, there, -⟩ := Option.map_eq_some_iff.mp known
    have plain := (sound.paths name stored there).1
    have granted := grant_steps s root _ _ (sound_standing s root _ _ sound)
    have found := fits_indexed s root _ _ _ markers Nothing sound.place granted.files (fun _ none => False.elim none)
      (sound.fits whole)
    exact ⟨r, recorded, same, same ▸ r.known_iff, (found.filled name r plain recorded).2⟩

namespace SpacedKey

open TwoIndexes (store empty empty_in_place)

def built : Provider where
  runs _ := .gives [⟨⟨1, Instant.ofNanos 1⟩, false⟩]
  artifacts _ _ := .gives [⟨none, "Logs"⟩]
  download _ _ _ := .gives (Archive.pack [{ name := "Logs/a.complog", data := Bytes.ofText "one" }])

def down : Provider where
  runs _ := .fails .connection
  artifacts _ _ := .fails .connection
  download _ _ _ := .fails .connection

def source (p : Provider) : Source := ⟨"ci", .runs (RunWatch.start (.pipeline " o" "p" "Logs" "a.complog") p 50)⟩

def setup (p : Provider) : Setup := { CutBetween.setup 'a' with sources := [source p] }

def blank : Annals := ⟨fun _ => none, true⟩

theorem setup_indexes (p : Provider) (n : Nat) : IndexName ((setup p).indexName n) :=
  hex_index_name _ (hex_repeated 'a' (by decide) n)

theorem blank_fits : blank.Fits store empty := by
  refine ⟨fun name plain _ bytes read => ?_, nofun⟩
  have way := source_way store ["data"] empty name (store.place_source_way ["data"] empty empty_in_place) plain
  have vacant : empty.get? (["data"] ++ ["source"] ++ [name]) = none := by
    simp [empty, FileTree.get?, List.lookup_cons]
  rw [FileTree.enter, if_neg plain.2.1, if_neg plain.2.2.1, vacant] at way
  have astray (e : FileError) (lost : empty.way (store.sourceDir name) = .error e) : False := by
    have answer := FileTree.read_astray empty _ "version" (by decide) e lost
    cases read.symm.trans answer
  split at way
  · exact astray _ way
  · exact astray _ way

def opens (p : Provider) (t : FileTree) : Except StoreError Engine := ((setup p).start ⟨t, [], []⟩).1

def first : Engine := (opens built empty).toOption.get (by decide +kernel)

def stored : FileTree := (first.pollSource (source built)).1.disk.files

def second : Engine := (opens down stored).toOption.get (by decide +kernel)

def annals : Annals := (blank.restored.poll first (source built)).restored

theorem running : Running Generator.Confined store ["data"] annals second := by
  have started : ((setup built).start ⟨empty, [], []⟩).1 = .ok first := (setup built).start_get _ _
  have files : first.disk.files = empty :=
    (setup built).start_files ["data"] ⟨empty, [], []⟩ first empty_in_place rfl started
  have start : Running Generator.Confined store ["data"] blank.restored first :=
    .opened blank (setup built) ⟨empty, [], []⟩ first rfl (setup_indexes built) (fun _ => CutBetween.maker_confined)
      rfl started (files ▸ empty_in_place)
      (files ▸ ⟨.inl (by decide), by decide⟩) fun _ => files ▸ blank_fits
  exact .reopened _ (setup down) _ second [] (.polled _ first (source built) start (by decide +kernel)) rfl
    (setup_indexes down) (fun _ => CutBetween.maker_confined) ((setup down).start_get ⟨stored, [], []⟩ _)

theorem source_names : second.sources.map Source.name = ["ci"] := by decide +kernel

theorem name_free : second.regenerating.disk.files.get?
      (indexAt ["data"] (second.regenerating.indexName second.regenerating.generations)) = none ∧
    store.indexDir (second.regenerating.indexName second.regenerating.generations) ∉
      second.regenerating.disk.doomed := by decide +kernel

theorem second_publishes : second.runRound.1.published = some "a" ∧ second.runRound.1.failed = ["ci"] ∧
    (annals.round second).whole = true ∧
    (annals.round second).recorded "ci" = some ⟨" o/p/1", Bytes.ofText "one", true⟩ ∧
    second.runRound.2.coordinator.versionKeys.get? "ci" = some "o/p/1" := by decide +kernel

theorem named : ∀ source ∈ second.sources, Config.checkName source.name = .ok () := by
  intro source member
  have listed := List.mem_map_of_mem (f := Source.name) member
  rw [source_names, List.mem_singleton] at listed
  rw [listed]
  decide +kernel

end SpacedKey

open SpacedKey in
theorem failed_source_is_published :
    Running Generator.Confined TwoIndexes.store ["data"] annals second ∧ second.runRound.1.published = some "a" ∧
      second.runRound.1.failed = ["ci"] ∧ PublishedRound TwoIndexes.store second "a" ∧
      second.regenerating.handed.read (TwoIndexes.store.artifactPath "ci") = .ok (Bytes.ofText "one") := by
  obtain ⟨fresh, spared⟩ := name_free
  obtain ⟨published, failed, whole, recorded, key⟩ := second_publishes
  obtain ⟨round, -, handed⟩ := round_publishes_what_is_stored (fun _ => id) TwoIndexes.store ["data"] annals second
    running named
    fresh spared "a" published
  obtain ⟨r, there, -, -, read⟩ := handed whole "ci" "o/p/1" key
  obtain rfl := Option.some.inj (recorded.symm.trans there)
  exact ⟨running, published, failed, round, read⟩

open SpacedKey in
theorem spaced_key_is_published_trimmed :
    Running Generator.Confined TwoIndexes.store ["data"] annals second ∧ second.runRound.1.published = some "a" ∧
      (annals.round second).whole = true ∧ second.runRound.2.coordinator.versionKeys.get? "ci" = some "o/p/1" ∧
      ∀ r, (annals.round second).recorded "ci" = some r → r.key ≠ "o/p/1" := by
  obtain ⟨published, -, whole, recorded, key⟩ := second_publishes
  refine ⟨running, published, whole, key, fun r there => ?_⟩
  obtain rfl := Option.some.inj (recorded.symm.trans there)
  decide

end IndexKeeper
