import IndexKeeper.Proofs.Regeneration
import IndexKeeper.Proofs.RestartedPolls

set_option autoImplicit false

namespace IndexKeeper

open Store (Unkept Indexed indexesAt indexAt markerAt besideMarkerAt sourceAt WriteError)

structure FirstRound (root : Location) (t : FileTree) (e : Engine) : Prop where
  through : e.runRound.1.cancelled = false
  reads : Engine.AtPolls (Engine.ReadsAs t) { e with loop := { e.loop with firstRound := false } } e.sources
  stores : Engine.AtPolls Engine.Stores { e with loop := { e.loop with firstRound := false } } e.sources
  generates : (e.regenerating.runGenerator e.regenerating.coordinator.snapshot.paths
    (e.regenerating.indexName e.regenerating.generations) (e.regenerating.coordinator.store.indexDir
      (e.regenerating.indexName e.regenerating.generations))).1 = .ok ()
  writes : ∀ error, e.regenerating.regenerate.1 = .error (.store error) → ¬ WriteError error
  fresh : e.disk.files.get? (indexAt root (e.indexName e.generations)) = none

-- The bytes of a source are stored unless it was stale: cut off between artifact and key, and put back since.
structure Recovered (u : Setup) (t found : FileTree) (next : Engine) : Prop where
  sources : ∀ source ∈ u.sources, ∀ path bytes, source.kind = .filesystem path → t.read path = .ok bytes →
    next.coordinator.versionKey? source.name = some (Source.contentKey bytes) ∧
      next.disk.settle.files.read (u.store.versionPath source.name) =
        .ok (Bytes.ofText (Source.contentKey bytes)) ∧
      ∃ stored, next.disk.settle.files.read (u.store.artifactPath source.name) = .ok stored ∧
        (stored = bytes ↔ ¬ u.store.Stale found source.name bytes)
  index : next.coordinator.versionKeys.isEmpty = false → ∃ index, next.publisher.current = some index ∧
    u.store.Holds index next.coordinator.versionKeys next.disk.settle.files ∧
    u.store.readMarker next.disk.settle.files = .ok (some index)
  others : ∀ index, Path.Plain index →
    next.disk.settle.files.isDirectory (u.store.indexDir index) = true → next.publisher.current = some index

theorem current_kept (s : Store) (root : Location) (half left : Option (String × Bytes)) (keep : List String)
    (touched : Location → Prop) (e mid next : Engine) (kept : s.Kept root half mid.disk.files)
    (after : s.Kept root left next.disk.files)
    (moves : Moves (Unkept root keep) touched mid.disk.files next.disk.files)
    (apart : ∀ l, touched l → Indexed root l) (same : next.coordinator = mid.coordinator) (source : String)
    (plain : Path.Plain source) (bytes : Bytes) (current : Current s e mid source bytes) :
    Current s e next source bytes := by
  obtain ⟨sameVersion, sameArtifact⟩ := s.pair_reads_same root _ _ (s.kept_in_place root half _ kept)
    (s.kept_in_place root left _ after) source plain keep touched moves apart
  obtain ⟨key, version, stored, artifact, exactly⟩ := current
  exact ⟨same ▸ key, sameVersion.trans version, stored, sameArtifact.trans artifact, exactly⟩

theorem current_same (s : Store) (e mid next : Engine) (coordinator : next.coordinator = mid.coordinator)
    (disk : next.disk = mid.disk) (source : String) (bytes : Bytes) (current : Current s e mid source bytes) :
    Current s e next source bytes := by
  obtain ⟨key, version, artifact⟩ := current
  exact ⟨coordinator ▸ key, disk ▸ version, disk ▸ artifact⟩

theorem indexed_keys_some (e : Engine) (keys : VersionKeys) (indexed : e.indexedKeys? = some keys) :
    ∃ index, e.publisher.current = some index ∧
      e.coordinator.store.readManifest e.disk.files index = .ok (some keys) := by
  obtain ⟨index, current, read⟩ := Option.bind_eq_some_iff.mp indexed
  refine ⟨index, current, ?_⟩
  generalize e.coordinator.store.readManifest e.disk.files index = answer at read ⊢
  cases answer with
  | error reason => cases read
  | ok found => exact congrArg Except.ok read

structure Ended (u : Setup) (root : Location) (half : Option (String × Bytes)) (t : FileTree)
    (e next : Engine) : Prop where
  kept : u.store.Kept root half next.disk.files
  doomed : u.store.Doomed (next.publisher.current.toList ++ markers) next.disk
  only : u.store.OnlyKept root (fun index => next.publisher.current = some index) next.disk
  sources : ∀ source ∈ u.sources, ∀ path bytes, source.kind = .filesystem path → t.read path = .ok bytes →
    Current u.store e next source.name bytes
  index : next.coordinator.versionKeys.isEmpty = false → ∃ index, next.publisher.current = some index ∧
    HexText index ∧ u.store.Holds index next.coordinator.versionKeys next.disk.files ∧
    next.disk.files.get? (markerAt root) = some (.file (Bytes.ofText index))

theorem ended_recovered (u : Setup) (proper : u.Proper) (root : Location) (half : Option (String × Bytes))
    (t : FileTree) (e next : Engine) (ended : Ended u root half t e next) :
    Recovered u t e.disk.files next := by
  have standing := u.store.kept_standing root half _ ended.kept _ next.disk rfl ended.doomed
  have steps := settle_steps u.store root _ next.disk standing
  have none_indexed : ∀ l, Nothing l → Indexed root l := fun _ none => False.elim none
  have inMarkers (name : String) (member : name ∈ markers) :
      name ∈ next.publisher.current.toList ++ markers := List.mem_append_right _ member
  have same := (Store.marker_moves root _ (inMarkers "current" (by decide))
    (inMarkers "current.tmp" (by decide)) Nothing _ _ steps.files fun _ => id).1
  have kept := u.store.kept_swept root half _ _ ended.kept _ (inMarkers "current" (by decide))
    (inMarkers "current.tmp" (by decide)) steps.files
  refine ⟨?_, ?_, ?_⟩
  · intro source member path bytes file there
    obtain ⟨key, version, artifact⟩ := current_kept u.store root half half _ Nothing e next
      { next with disk := next.disk.settle } ended.kept kept steps.files none_indexed rfl source.name
      (plain_of_check_name _ (proper.named source member)) bytes (ended.sources source member path bytes file there)
    exact ⟨key, version, artifact⟩
  · intro filled
    obtain ⟨index, current, hex, held, marked⟩ := ended.index filled
    have reaches := u.store.index_root_reaches root half _ ended.kept _
      (Store.indexed_of_unkept root (next.publisher.current.toList ++ markers)) (Store.indexes_stay root _)
    have stays : index ∈ next.publisher.current.toList ++ markers := by simp [current]
    have after := held_index_kept u.store root _ Nothing _ _ reaches steps.files index (hex_text_plain index hex)
      stays (fun _ => id) _ held
    refine ⟨index, current, after, ?_⟩
    obtain ⟨name, read, exactly⟩ := u.store.marker_of_kept root half _ kept
    rw [read, (exactly index).mpr ⟨hex, same.trans marked, after.there⟩]
  · intro index plain there
    have way := reaches_way _ _ _ _ (u.store.index_root_reaches root half _ kept Nothing
      (fun _ none => False.elim none) id)
    obtain ⟨usable, found⟩ := (FileTree.is_directory_join _ u.store.indexRoot index _ plain way).mp there
    have only := u.store.only_kept_steps root _ Nothing _ _ _ ended.only steps (fun _ none => False.elim none)
    rcases only index plain usable found with current | queued
    · exact current
    · exact absurd queued (by simp [Disk.settle])

theorem regenerate_generates (e : Engine) (done : e.regenerate.1.isOk = true) :
    (e.runGenerator e.coordinator.snapshot.paths (e.indexName e.generations)
      (e.coordinator.store.indexDir (e.indexName e.generations))).1 = .ok () := by
  unfold Engine.regenerate at done
  dsimp only at done
  split at done
  · cases done
  · generalize e.runGenerator e.coordinator.snapshot.paths (e.indexName e.generations)
      (e.coordinator.store.indexDir (e.indexName e.generations)) = answer at done ⊢
    obtain ⟨result, next⟩ := answer
    cases result with
    | error error => cases done
    | ok => rfl

theorem first_round_polled (root : Location) (t : FileTree) (e : Engine) (round : FirstRound root t e) :
    e.polled.2.2.cancelled = false := by
  cases called : e.polled.2.2.cancelled with
  | false => rfl
  | true =>
      have through := round.through
      rw [Engine.run_round_idle e (.inl called)] at through
      exact called.symm.trans through

theorem first_round_computed (root : Location) (t : FileTree) (e : Engine)
    (through : e.polled.2.2.cancelled = false) (regenerated : e.regenerating.regenerate.1.isOk = true)
    (reads : Engine.AtPolls (Engine.ReadsAs t) { e with loop := { e.loop with firstRound := false } } e.sources)
    (stores : Engine.AtPolls Engine.Stores { e with loop := { e.loop with firstRound := false } } e.sources)
    (fresh : e.disk.files.get? (indexAt root (e.indexName e.generations)) = none) : FirstRound root t e := by
  constructor
  case through =>
    rcases Engine.idle_or_due e e.polled.2.2 (e.loop.firstRound && e.indexIsBehind) with idle | ⟨-, due⟩
    · rw [Engine.run_round_idle e idle]
      exact through
    · rw [Engine.run_round_due e through due]
      generalize e.regenerating.regenerate = answer at regenerated ⊢
      obtain ⟨result, next⟩ := answer
      cases result with
      | error error => cases regenerated
      | ok index => exact through
  case reads => exact reads
  case stores => exact stores
  case generates => exact regenerate_generates e.regenerating regenerated
  case writes =>
    intro error failed
    rw [failed] at regenerated
    cases regenerated
  case fresh => exact fresh

theorem first_round_regenerates (root : Location) (t : FileTree) (e : Engine) (round : FirstRound root t e)
    (due : e.isDue e.polled.2.2 (e.loop.firstRound && e.indexIsBehind) = true) (s : Store) (base : List String)
    (done : Regenerated e.regenerating s root base (e.regenerating.indexName e.regenerating.generations)
      e.regenerating.regenerate.1 e.regenerating.regenerate.2) :
    e.regenerating.regenerate.1 = .ok (e.regenerating.indexName e.regenerating.generations) := by
  have through := round.through
  have writes := round.writes
  rw [Engine.run_round_due e (first_round_polled root t e round) due] at through
  generalize e.regenerating.regenerate = answer at done writes through ⊢
  obtain ⟨result, next⟩ := answer
  cases result with
  | error error =>
      obtain ⟨-, -, ⟨-, called⟩ | refused | ⟨blamed, rfl, lost⟩⟩ := done.failed error rfl
      · cases called.symm.trans through
      · exact absurd round.generates refused
      · exact absurd lost (writes blamed rfl)
  | ok name => rw [(done.published name rfl).1]

section Round

variable (u : Setup) (proper : u.Proper) (root : Location) (half : Option (String × Bytes)) (t : FileTree)
  (e : Engine) (opened : Opened u root half e) (round : FirstRound root t e)
include proper opened round

theorem first_round_sources :
    CaughtUp u.store root half (e.indexName e.generations :: (e.publisher.current.toList ++ markers)) t
        u.sources e e.polled.1 ∧
      (e.polled.2.2.changed = [] → e.polled.1.coordinator = e.coordinator) := by
  have doomed : u.store.Doomed (e.indexName e.generations :: (e.publisher.current.toList ++ markers))
      e.disk := by
    intro path member
    obtain ⟨index, plain, absent, rfl⟩ := opened_doomed u root half e opened path member
    refine ⟨index, plain, ?_, rfl⟩
    rw [List.mem_cons, not_or]
    refine ⟨?_, absent⟩
    rintro rfl
    obtain ⟨other, same, there, -⟩ := (opened.doomed _).mp member
    have otherPlain := opened.kept.formed.plain (indexesAt root) other (by simp [Store.index_at_append, there])
    have names := Path.join_injective u.store.indexRoot _ other plain otherPlain same
    have vacant := round.fresh
    rw [names, there] at vacant
    cases vacant
  have listed (name : String) (member : name ∈ markers) :
      name ∈ e.indexName e.generations :: (e.publisher.current.toList ++ markers) :=
    List.mem_cons_of_mem _ (List.mem_append_right _ member)
  have sources := opened.sources
  obtain ⟨caught, same⟩ := polls_restarted u.store root half _ t (listed "current" (by decide))
    (listed "current.tmp" (by decide)) e.sources { e with loop := { e.loop with firstRound := false } } {}
    ⟨opened.store, opened.kept, doomed⟩ (fun source member => proper.named source (sources ▸ member))
    (fun source member => proper.files source (sources ▸ member)) (sources ▸ proper.distinct)
    (fun source member => opened.keys source (sources ▸ member)
      (plain_of_check_name _ (proper.named source (sources ▸ member))))
    round.reads round.stores (fun _ _ => opened.undisturbed _) (first_round_polled root t e round)
  refine ⟨⟨caught.restarted, caught.steps, ?_, ?_⟩, same⟩
  · intro other plain outside
    obtain ⟨key, version, artifact⟩ := caught.others other plain (by rw [sources]; exact outside)
    exact ⟨key, version, artifact⟩
  · intro source member path bytes file there
    obtain ⟨key, version, artifact⟩ := caught.current source (sources ▸ member) path bytes file there
    exact ⟨key, version, artifact⟩

theorem fresh_index : e.indexName e.generations ∉ e.publisher.current.toList ++ markers := by
  have hex : HexText (e.indexName e.generations) := by rw [opened.indexName]; exact proper.indexes _
  rw [List.mem_append, not_or]
  refine ⟨fun member => ?_, hex_no_marker _ hex⟩
  obtain ⟨-, -, there⟩ := (opened.current _).mp (Option.mem_toList.mp member)
  have way := u.store.kept_index_way root half _ opened.kept
  have found := ((FileTree.is_directory_join _ u.store.indexRoot _ _ (hex_text_plain _ hex) way).mp there).2
  have vacant := round.fresh
  rw [← Store.index_at_append, found] at vacant
  cases vacant

theorem only_current_kept :
    u.store.OnlyKept root (fun index => e.publisher.current = some index) e.polled.1.disk := by
  have caught := (first_round_sources u proper root half t e opened round).1
  refine u.store.only_kept_steps root _ _ _ e.disk _ ?_ caught.steps fun index inside =>
    absurd inside (index_not_sourced root [index])
  intro index plain usable there
  by_cases current : some index = e.publisher.current
  · exact .inl current.symm
  · exact .inr ((opened.doomed _).mpr ⟨index, rfl, there, current⟩)

theorem idle_round_ended
    (notDue : e.isDue e.polled.2.2 (e.loop.firstRound && e.indexIsBehind) = false) :
    Ended u root half t e e.runRound.2 := by
  obtain ⟨⟨restarted, steps, -, every⟩, same⟩ := first_round_sources u proper root half t e opened round
  have frame := Engine.poll_sources_frame { e with loop := { e.loop with firstRound := false } } {} e.sources
  obtain ⟨next, shape, coordinator, disk, publisher⟩ : ∃ next, e.runRound.2 = next ∧
      next.coordinator = e.polled.1.coordinator ∧ next.disk = e.polled.1.disk ∧
      next.publisher = e.publisher := by
    refine ⟨_, rfl, ?_⟩
    rw [Engine.run_round_idle e (.inr notDue)]
    exact ⟨rfl, rfl, frame.publisher⟩
  rw [shape]
  have first : e.loop.firstRound = true := by rw [opened.loop]; exact proper.first
  have unchanged := Engine.first_round_not_due e e.polled.2.2 first notDue
  rw [same unchanged.1] at coordinator
  have more (name : String) (member : name ∈ e.publisher.current.toList ++ markers) :
      name ∈ e.indexName e.generations :: (e.publisher.current.toList ++ markers) :=
    List.mem_cons_of_mem _ member
  constructor
  case kept => exact disk ▸ restarted.kept
  case doomed =>
    rw [publisher, disk]
    exact doomed_narrower u.store _ _ more _ restarted.doomed
  case only =>
    rw [publisher, disk]
    exact only_current_kept u proper root half t e opened round
  case sources =>
    intro source member path bytes file there
    exact current_same u.store e e.polled.1 next (coordinator.trans (same unchanged.1).symm) disk _ _
      (every source member path bytes file there)
  case index =>
    intro filled
    have behind := unchanged.2
    rw [coordinator] at filled ⊢
    unfold Engine.indexIsBehind at behind
    rw [filled] at behind
    obtain ⟨index, current, read⟩ := indexed_keys_some e e.coordinator.versionKeys (by simpa using behind)
    obtain ⟨hex, marked, there⟩ := (opened.current index).mp current
    rw [opened.store] at read
    have listed : index ∈ e.indexName e.generations :: (e.publisher.current.toList ++ markers) :=
      more index (List.mem_append_left _ (Option.mem_toList.mpr current))
    have reaches := u.store.index_root_reaches root half _ opened.kept _
      (Store.indexed_of_unkept root (e.indexName e.generations :: (e.publisher.current.toList ++ markers)))
      (Store.indexes_stay root _)
    have held := held_index_kept u.store root _ _ _ _ reaches steps.files index (hex_text_plain index hex)
      listed (fun tail => by simpa [indexAt] using index_not_sourced root (index :: tail)) _ ⟨there, read⟩
    have markerSame : e.polled.1.disk.files.get? (markerAt root) = e.disk.files.get? (markerAt root) :=
      steps.files.get _ (Store.index_dir_stays root _ "current"
        (more "current" (List.mem_append_right _ (by decide)))) (index_not_sourced root ["current"])
    exact ⟨index, publisher ▸ current, hex, disk ▸ held, by rw [disk, markerSame, marked]⟩

theorem regenerating_done (due : e.isDue e.polled.2.2 (e.loop.firstRound && e.indexIsBehind) = true) :
    ∃ next, e.runRound.2.coordinator = e.polled.1.coordinator ∧
      u.store.Steps root (Unkept root (e.indexName e.generations :: (e.publisher.current.toList ++ markers)))
        (Published root (e.indexName e.generations)) e.polled.1.disk next ∧
      u.store.Holds (e.indexName e.generations) e.polled.1.coordinator.versionKeys next.files ∧
      next.files.get? (markerAt root) = some (.file (Bytes.ofText (e.indexName e.generations))) ∧
      next.files.get? (besideMarkerAt root) ≠ some .directory ∧
      (e.runRound.2.publisher, e.runRound.2.disk) = e.publisher.swap next (e.indexName e.generations) := by
  obtain ⟨⟨restarted, steps, -, -⟩, -⟩ := first_round_sources u proper root half t e opened round
  obtain ⟨publisher, indexName, generator, generations⟩ := e.regenerating_frame
  have named : e.regenerating.indexName e.regenerating.generations = e.indexName e.generations := by
    rw [indexName, generations]
  have hex : HexText (e.indexName e.generations) := by rw [opened.indexName]; exact proper.indexes _
  have absent : e.regenerating.disk.files.get? (indexAt root (e.indexName e.generations)) = none := by
    rcases steps.files.lost _ (index_not_sourced root [e.indexName e.generations]) with same | vanished
    · exact same.trans round.fresh
    · exact vanished
  have done := regenerate_done e.regenerating u.store root (e.publisher.current.toList ++ markers)
    restarted.store (by rw [publisher]; exact opened.publisher)
    (u.store.kept_in_place root half _ restarted.kept) (List.mem_append_right _ (by decide))
    (e.indexName e.generations) named (hex_text_plain _ hex) (hex_no_marker _ hex)
    absent restarted.doomed (by rw [generator, opened.generator]; exact proper.confined _)
    (fresh_index u proper root half t e opened round)
  have coordinator := (Engine.regenerate_frame e.regenerating).1.coordinator
  rw [← named] at done
  have regenerated := first_round_regenerates root t e round due u.store _ done
  rw [named] at done regenerated
  rw [Engine.run_round_due e (first_round_polled root t e round) due]
  generalize e.regenerating.regenerate = answer at done coordinator regenerated ⊢
  obtain ⟨result, next⟩ := answer
  obtain rfl : result = _ := regenerated
  obtain ⟨-, d, published, held, ⟨marked, -⟩, swapped⟩ := done.published _ rfl
  rw [publisher] at swapped
  have files : next.disk.files = d.files := by
    rw [← swap_files e.publisher d (e.indexName e.generations), ← swapped]
  exact ⟨d, coordinator, published, held, marked,
    fun found => restarted.kept.beside (done.beside (files ▸ found)), swapped⟩

theorem due_round_ended (due : e.isDue e.polled.2.2 (e.loop.firstRound && e.indexIsBehind) = true) :
    Ended u root half t e e.runRound.2 := by
  obtain ⟨⟨restarted, -, -, every⟩, -⟩ := first_round_sources u proper root half t e opened round
  obtain ⟨d, coordinator, published, held, marked, beside, swapped⟩ :=
    regenerating_done u proper root half t e opened round due
  have only := only_current_kept u proper root half t e opened round
  have absent := fresh_index u proper root half t e opened round
  have hex : HexText (e.indexName e.generations) := by rw [opened.indexName]; exact proper.indexes _
  have doomed := doomed_steps u.store root _ _ _ _ _ restarted.doomed published
  generalize e.indexName e.generations = index at *
  have publisher : e.runRound.2.publisher = (e.publisher.swap d index).1 := congrArg Prod.fst swapped
  have disk : e.runRound.2.disk = (e.publisher.swap d index).2 := congrArg Prod.snd swapped
  have files : e.runRound.2.disk.files = d.files := by rw [disk, swap_files]
  have now : e.runRound.2.publisher.current = some index := by rw [publisher, swap_current]
  have indexed := published_indexed root index
  have kept : u.store.Kept root half d.files := u.store.kept_moves root half _ restarted.kept _ _ _
    published.files half (Store.pairs_kept root half _ _ _ _ published.files indexed restarted.kept.pairs)
    (.inr ⟨index, hex, marked⟩) beside
  constructor
  case kept => exact files ▸ kept
  case doomed =>
    rw [now, disk]
    have fewer : ∀ name ∈ (some index).toList ++ markers,
        name ∈ index :: (e.publisher.current.toList ++ markers) := by
      intro name member
      rcases List.mem_append.mp member with here | there
      · exact List.mem_cons.mpr (.inl (Option.some.inj (Option.mem_toList.mp here)).symm)
      · exact List.mem_cons_of_mem _ (List.mem_append_right _ there)
    have rest := doomed_narrower u.store _ _ fewer d doomed
    rw [← opened.publisher] at rest ⊢
    refine swap_doomed e.publisher d _ rest index fun old current other => ?_
    have oldHex := ((opened.current old).mp current).1
    exact ⟨hex_text_plain old oldHex, by simpa [other] using hex_no_marker old oldHex⟩
  case only =>
    rw [now, disk]
    rw [← opened.publisher] at only published ⊢
    have kept := Store.only_kept_swap e.publisher root d index (fun name => name = index)
      (Store.only_kept_steps _ root _ _ _ _ _ ?_ published ?_) rfl
    · intro name plain usable there
      exact (kept name plain usable there).imp (fun same : name = index => congrArg some same.symm) id
    · intro name plain usable there
      exact (only name plain usable there).imp .inl id
    · rintro name ((below | same) | same)
      · obtain ⟨tail, same⟩ := below
        simp only [indexAt, List.append_assoc, List.append_cancel_left_eq, List.cons_append, List.nil_append,
          List.cons.injEq] at same
        exact .inl (.inr same.1.symm)
      · exact .inr (same ▸ beside)
      · rw [same, marked]
        exact .inr (by simp)
  case sources =>
    intro source member path bytes file there
    exact current_kept u.store root half half _ _ e e.polled.1 e.runRound.2 restarted.kept (files ▸ kept)
      (files ▸ published.files) indexed coordinator source.name
      (plain_of_check_name _ (proper.named source member)) bytes (every source member path bytes file there)
  case index =>
    intro _
    exact ⟨index, now, hex, by rw [files, coordinator]; exact held, by rw [files]; exact marked⟩

theorem round_recovered : Recovered u t e.disk.files e.runRound.2 := by
  have ended : Ended u root half t e e.runRound.2 := by
    cases due : e.isDue e.polled.2.2 (e.loop.firstRound && e.indexIsBehind) with
    | false => exact idle_round_ended u proper root half t e opened round due
    | true => exact due_round_ended u proper root half t e opened round due
  exact ended_recovered u proper root half t e e.runRound.2 ended

end Round

theorem stale_left (s : Store) (root : Location) (half : Option (String × Bytes)) (t : FileTree)
    (kept : s.Kept root half t) (source : String) (plain : Path.Plain source) (bytes : Bytes)
    (stale : s.Stale t source bytes) : ∃ stored, t.read (s.artifactPath source) = .ok stored ∧
      (half = some (source, stored) ∨ Source.contentKey stored = Source.contentKey bytes) := by
  obtain ⟨version, stored, artifact, -⟩ := stale
  refine ⟨stored, artifact, ?_⟩
  have versionNamed : s.versionPath source = Path.join (s.sourceDir source) "version" := rfl
  have artifactNamed : s.artifactPath source = Path.join (s.sourceDir source) "build.complog" := rfl
  rw [versionNamed] at version
  rw [artifactNamed] at artifact
  cases way : t.way (s.sourceDir source) with
  | error e =>
      rw [FileTree.read_astray t _ _ (by decide) e way] at version
      cases version
  | ok l =>
      obtain ⟨rfl, -, -⟩ := (s.source_dir_way root half t kept source plain l).mp way
      rw [FileTree.read_join t _ _ _ (by decide) way] at version artifact
      split at version
      · split at artifact
        · rcases kept.pairs source with vacant | ⟨old, there, keyed, placed, same⟩
          · rw [Store.versionAt] at vacant
            rw [vacant] at version
            cases version
          · rw [Store.versionAt] at keyed
            rw [Store.artifactAt] at placed
            rw [keyed] at version
            rw [placed] at artifact
            obtain rfl := Except.ok.inj artifact
            have keys := of_text_injective _ _ (Except.ok.inj version)
            rcases same with rfl | halved
            · exact .inr keys
            · exact .inl halved
        · cases artifact
      · cases version

theorem cut_store_recovers (u : Setup) (root : Location) (half : Option (String × Bytes)) (t : FileTree)
    (fates : List Fate) (proper : u.Proper) (cut : Cut u.store root half t)
    (made : (u.store.init ⟨t, [], fates⟩).1 = .ok ()) :
    ∃ e, u.start ⟨t, [], fates⟩ = (.ok e, e.disk) ∧
      (FirstRound root t e → Recovered u t e.disk.files e.runRound.2) ∧
      ∀ source ∈ u.sources, ∀ bytes, u.store.Stale e.disk.files source.name bytes →
        ∃ stored, e.disk.files.read (u.store.artifactPath source.name) = .ok stored ∧
          (half = some (source.name, stored) ∨ Source.contentKey stored = Source.contentKey bytes) := by
  have opens := cut_opens u.store root half t cut
  obtain ⟨e, started, opened⟩ := start_opened u root half ⟨t, [], fates⟩ opens rfl made
  refine ⟨e, started, fun round => round_recovered u proper root half t e opened round, ?_⟩
  intro source member bytes stale
  exact stale_left u.store root half e.disk.files opened.kept source.name
    (plain_of_check_name _ (proper.named source member)) bytes stale

namespace CutBetween

def old : Bytes := Bytes.ofText "A"

def new : Bytes := Bytes.ofText "B"

def oldKey : String := "559aead08264d5795d3909718cdd05abd49572e84fe55590eef31a88a08fdffd"

def source : Source := ⟨"a", .filesystem "a.log"⟩

def maker : Generator := fun _ out t =>
  match t.makeDirectory out with
  | .ok next => (.gives (), next)
  | .error _ => (.fails (.reported "no directory"), t)

def config (names : List String) : Config where
  storageRoot := "data"
  poll := {}
  generator := ⟨"scip", []⟩
  bind := Config.defaultBind
  tokens := {}
  sources := names.map fun name => ⟨name, .filesystem "a.log"⟩

def machine (digit : Char) : Machine where
  disk := ⟨⟨[], []⟩, [], []⟩
  environment := []
  server := Http.unreachable
  indexName n := String.ofList (List.replicate (n + 1) digit)
  generations := 0

-- In place of the command of the configuration, what a command that works leaves.
def setup (digit : Char) : Setup :=
  { Setup.ofConfig (config ["a"]) (machine digit) (Clock.start none) with generator := fun _ => maker }

def files (artifact : Bytes) : FileTree :=
  ⟨[(["data", "source", "a", "build.complog"], .file artifact), (["a.log"], .file new),
    (["data"], .directory), (["data", "source"], .directory), (["data", "index"], .directory),
    (["data", "source", "a"], .directory),
    (["data", "source", "a", "version"], .file (Bytes.ofText oldKey))], []⟩

def atCut (contents : Bytes) : FileTree := (files new).set ["a.log"] (.file contents)

theorem maker_confined : maker.Confined := by
  intro artifacts base name t l plain way above formed
  unfold maker
  rw [make_directory_join t base name l plain way]
  split
  · next next made =>
      split at made
      · split at made
        · obtain rfl := Except.ok.inj made
          have moves := set_directory_moves Nothing t l name above plain
          exact ⟨moves.formed formed, moves.here, fun place apart =>
            moves.get place id fun same => apart (same ▸ List.prefix_rfl)⟩
        · cases made
      · cases made
  · exact ⟨formed, rfl, fun _ _ => rfl⟩

theorem proper (digit : Char) (listed : digit ∈ "0123456789abcdef-".toList) : (setup digit).Proper :=
  Setup.config_proper (config ["a"]) (machine digit) (Clock.start none) _ (by decide +kernel)
    (fun _ member => ⟨"a.log", List.mem_singleton.mp member ▸ rfl⟩) (hex_repeated digit listed)
    fun _ => maker_confined

theorem named : Config.checkName source.name = .ok () := by decide +kernel

theorem files_kept : (setup 'a').store.Kept ["data"] none (files old) where
  formed := FileTree.well_formed_of_entries _ (by decide) (by decide)
  reaches := Store.reaches_entered (files old) "data" ["data"] (by decide) (by decide) (by decide)
  source := by decide +kernel
  index := by decide +kernel
  fits := by decide +kernel
  pairs := by
    intro name
    by_cases here : name = "a"
    · subst here
      exact .inr ⟨old, old, by decide +kernel, by decide +kernel, .inl rfl⟩
    · left
      simp [FileTree.get?, files, Store.versionAt, sourceAt, here]
  marker := .inl (by decide)
  beside := by decide

section Opened

variable (digit : Char) (half : Option (String × Bytes)) (t : FileTree)
  (opens : (setup digit).store.Opens ["data"] half t)

def engine (started : ((setup digit).start ⟨t, [], []⟩).1.toOption.isSome = true) : Engine :=
  ((setup digit).start ⟨t, [], []⟩).1.toOption.get started

theorem engine_started (started : ((setup digit).start ⟨t, [], []⟩).1.toOption.isSome = true) :
    ((setup digit).start ⟨t, [], []⟩).1 = .ok (engine digit t started) :=
  (setup digit).start_get ⟨t, [], []⟩ started

include opens

theorem opens_made : ((setup digit).store.init ⟨t, [], []⟩).1 = .ok () := by
  obtain ⟨next, fresh, -⟩ := opens
  rw [fresh]

theorem start_isSome : ((setup digit).start ⟨t, [], []⟩).1.toOption.isSome = true := by
  obtain ⟨e, started, -⟩ := start_opened (setup digit) ["data"] half ⟨t, [], []⟩ opens rfl
    (opens_made digit half t opens)
  rw [started]
  rfl

theorem engine_opened (started : ((setup digit).start ⟨t, [], []⟩).1.toOption.isSome = true) :
    Opened (setup digit) ["data"] half (engine digit t started) := by
  obtain ⟨e, same, opened⟩ := start_opened (setup digit) ["data"] half ⟨t, [], []⟩ opens rfl
    (opens_made digit half t opens)
  have found := engine_started digit t started
  rw [same] at found
  obtain rfl := Except.ok.inj found
  exact opened

end Opened

theorem opens : (setup 'a').store.Opens ["data"] none (files old) := Store.kept_opens _ _ _ _ files_kept

def first : Engine := engine 'a' (files old) (start_isSome 'a' none _ opens)

def broken : Engine :=
  { first with disk := { first.disk with fates := [.works, .works, .works, .refused] } }

theorem lived : Lived (setup 'a').store ["data"] broken :=
  .elsewhere first broken (.opened (setup 'a') ⟨files old, [], []⟩ first rfl (proper 'a' (by decide)) opens rfl
    (engine_started _ _ _)) rfl rfl rfl rfl rfl
    (elsewhere_refl _ _ none _ (engine_opened 'a' none _ opens _).kept)

theorem left : (broken.pollSource source).1.disk.files = files new := by
  obtain ⟨entries, here⟩ : (broken.pollSource source).1.disk.files.entries = (files new).entries ∧
      (broken.pollSource source).1.disk.files.workingDirectory = [] := by decide +kernel
  exact congr (congrArg FileTree.mk entries) here

theorem cut (contents : Bytes) : Cut (setup 'a').store ["data"] (some ("a", new)) (atCut contents) := by
  have read : broken.disk.files.read "a.log" = .ok new := by decide +kernel
  have kept := polling_kept _ _ _ (lived_alive _ _ _ lived) source "a.log" new named rfl read
  refine .polling broken source "a.log" new _ lived named rfl read ?_
  rw [left] at kept ⊢
  exact elsewhere_file _ _ _ (Store.kept_in_place _ _ _ _ kept) [] "a.log" contents rfl (by decide) (by decide)
    ⟨fun inside => by simp [Sourced] at inside, fun inside => by simp [Indexed, indexesAt] at inside⟩

def Settles (t : FileTree) (e : Engine) (news : Bool) : Prop :=
  e.disk.files.read "a.log" = t.read "a.log" ∧
    (e.coordinator.ingestIfChanged e.disk source).reply = .gives news ∧
    (e.polled.2.2.cancelled = false ∧
      e.isDue e.polled.2.2 (e.loop.firstRound && e.indexIsBehind) = true) ∧
    e.regenerating.regenerate.1.isOk = true ∧
    e.disk.files.get? (indexAt ["data"] (e.indexName e.generations)) = none

instance (t : FileTree) (e : Engine) (news : Bool) : Decidable (Settles t e news) :=
  inferInstanceAs (Decidable (_ ∧ _))

theorem first_round (t : FileTree) (e : Engine) (news : Bool) (sources : e.sources = [source])
    (undisturbed : ∀ name, e.interrupts name = .never) (settles : Settles t e news) : FirstRound ["data"] t e := by
  obtain ⟨same, reply, ⟨through, -⟩, regenerated, fresh⟩ := settles
  refine first_round_computed ["data"] t e through regenerated ?_ ?_ fresh
  · rw [sources]
    refine ⟨fun path file => ?_, trivial⟩
    obtain rfl := SourceKind.filesystem.inj file
    exact same
  · rw [sources]
    refine ⟨⟨fun error failed => ?_, by simp [undisturbed]⟩, trivial⟩
    have whole := congrArg Ingestion.reply (undisturbed_poll e source (undisturbed _))
    cases reply.symm.trans (whole.symm.trans failed)

def second (contents : Bytes) : Engine :=
  engine 'b' (atCut contents) (start_isSome 'b' _ _ (cut_opens _ _ _ _ (cut contents)))

theorem second_opened (contents : Bytes) :
    Opened (setup 'b') ["data"] (some ("a", new)) (second contents) :=
  engine_opened 'b' _ _ (cut_opens _ _ _ _ (cut contents)) _

end CutBetween

open CutBetween in
theorem key_cut_off_is_caught_up :
    (atCut new).read "data/source/a/version" = .ok (Bytes.ofText (Source.contentKey old)) ∧
      Cut (setup 'b').store ["data"] (some ("a", new)) (atCut new) ∧
      FirstRound ["data"] (atCut new) (second new) ∧
      Recovered (setup 'b') (atCut new) (second new).disk.files (second new).runRound.2 ∧
      (second new).runRound.2.disk.settle.files.read "data/source/a/build.complog" = .ok new := by
  have round := first_round (atCut new) (second new) true (second_opened new).sources (second_opened new).undisturbed
    (by decide +kernel)
  obtain ⟨e, started, recovers, -⟩ := cut_store_recovers (setup 'b') ["data"] (some ("a", new)) (atCut new) []
    (proper 'b' (by decide)) (cut new) (opens_made 'b' _ _ (cut_opens _ _ _ _ (cut new)))
  have found := engine_started 'b' (atCut new) (start_isSome 'b' _ _ (cut_opens _ _ _ _ (cut new)))
  rw [started] at found
  obtain rfl := Except.ok.inj found
  have recovered := recovers round
  obtain ⟨-, -, artifact, there, exactly⟩ := recovered.sources source List.mem_cons_self "a.log" new rfl
    (by decide +kernel)
  have fresh : ¬ (setup 'b').store.Stale (second new).disk.files "a" new := by
    rintro ⟨key, -⟩
    revert key
    decide +kernel
  refine ⟨by decide +kernel, cut new, round, recovered, ?_⟩
  rw [exactly.mpr fresh] at there
  exact there

open CutBetween in
theorem reverted_source_stays_stale :
    Cut (setup 'b').store ["data"] (some ("a", new)) (atCut old) ∧
      ((setup 'b').start ⟨atCut old, [], []⟩).1 = .ok (second old) ∧
      FirstRound ["data"] (atCut old) (second old) ∧ (atCut old).read "a.log" = .ok old ∧
      (second old).runRound.2.coordinator.versionKey? "a" = some (Source.contentKey old) ∧
      ∃ artifact, (second old).runRound.2.disk.settle.files.read "data/source/a/build.complog" = .ok artifact ∧
        artifact ≠ old := by
  have round := first_round (atCut old) (second old) false (second_opened old).sources (second_opened old).undisturbed
    (by decide +kernel)
  have recovered := round_recovered (setup 'b') (proper 'b' (by decide)) ["data"] (some ("a", new)) (atCut old)
    (second old) (second_opened old) round
  have reads : (atCut old).read "a.log" = .ok old := by decide +kernel
  obtain ⟨key, -, artifact, there, exactly⟩ := recovered.sources source List.mem_cons_self "a.log" old rfl reads
  have stale : (setup 'b').store.Stale (second old).disk.files "a" old := by
    refine ⟨?_, new, ?_, by decide⟩
    · decide +kernel
    · decide +kernel
  exact ⟨cut old, engine_started _ _ _, round, reads, key, artifact, there, fun same => exactly.mp same stale⟩

end IndexKeeper
