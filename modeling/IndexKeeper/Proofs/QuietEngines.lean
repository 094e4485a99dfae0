import IndexKeeper.Proofs.Recovery
import IndexKeeper.Proofs.SpentPolls
import IndexKeeper.Proofs.UnpublishedRounds

set_option autoImplicit false

namespace IndexKeeper

open Store (Unkept Indexed indexesAt indexAt markerAt sourceAt)

structure Intact (root : Location) (current : Option String) (t next : FileTree) : Prop where
  marker : next.get? (markerAt root) = t.get? (markerAt root)
  index : ∀ index, current = some index → ∀ tail,
    next.get? (indexAt root index ++ tail) = t.get? (indexAt root index ++ tail)
  others : ∀ l, Indexed root l → next.get? l = t.get? l ∨ next.get? l = none

theorem intact_trans (root : Location) (current : Option String) (a b c : FileTree)
    (first : Intact root current a b) (second : Intact root current b c) : Intact root current a c where
  marker := second.marker.trans first.marker
  index := fun index here tail => (second.index index here tail).trans (first.index index here tail)
  others := fun l inside => by
    rcases second.others l inside with same | gone
    · rw [same]
      exact first.others l inside
    · exact .inr gone

theorem intact_of_same (root : Location) (current : Option String) (t next : FileTree)
    (same : ∀ l, Indexed root l → next.get? l = t.get? l) : Intact root current t next where
  marker := same _ (List.prefix_append _ _)
  index := fun index _ tail => same _ ((List.prefix_append _ [index]).trans (List.prefix_append _ tail))
  others := fun l inside => .inl (same l inside)

theorem intact_moves (root : Location) (e : Engine) (touched : Location → Prop) (next : FileTree)
    (moves : Moves (Unkept root e.kept) touched e.disk.files next) (apart : ∀ l, Indexed root l → ¬ touched l) :
    Intact root e.publisher.current e.disk.files next where
  marker := moves.get _ (Store.index_dir_stays root e.kept "current" (List.mem_append_right _ (by decide)))
    (apart _ (List.prefix_append _ _))
  index := fun index current tail => moves.get _
    (Store.index_stays root e.kept index tail (List.mem_append_left _ (Option.mem_toList.mpr current)))
    (apart _ ((List.prefix_append _ [index]).trans (List.prefix_append _ tail)))
  others := fun l inside => moves.lost l (apart l inside)

section Marker

variable (s : Store) (root : Location) (t : FileTree) (place : s.InPlace root t)
include place

theorem marker_intact (next : FileTree) (after : s.InPlace root next) (marked : Marked root t)
    (still : Marked root next) (current : Option String) (read : s.readMarker t = .ok current)
    (intact : Intact root current t next) : s.readMarker next = .ok current := by
  obtain ⟨found, again⟩ := marker_answers s root next after still (marker_fits s root t place current read)
  rw [again]
  congr 1
  ext index
  have before := read_marker_iff s root t place marked index
  have now := read_marker_iff s root next after still index
  rw [read, Except.ok.injEq] at before
  rw [again, Except.ok.injEq] at now
  rw [before, now]
  constructor
  · refine names_moved s root next t after place index intact.marker.symm fun there => ?_
    rcases intact.others (indexAt root index) (List.prefix_append _ _) with same | gone
    · exact same.symm.trans there
    · cases gone.symm.trans there
  · intro names
    refine names_moved s root t next place after index intact.marker (fun there => ?_) names
    have same := intact.index index (before.mpr names) []
    rw [List.append_nil] at same
    exact same.trans there

end Marker

theorem behind_alike (e next : Engine) (coordinator : next.coordinator = e.coordinator)
    (publisher : next.publisher = e.publisher)
    (manifest : ∀ index, e.publisher.current = some index →
      e.coordinator.store.readManifest next.disk.files index = e.coordinator.store.readManifest e.disk.files index) :
    next.indexIsBehind = e.indexIsBehind := by
  have same : next.indexedKeys? = e.indexedKeys? := by
    unfold Engine.indexedKeys?
    rw [publisher, coordinator]
    cases current : e.publisher.current with
    | none => rfl
    | some index => rw [Option.bind_some, Option.bind_some, manifest index current]
  rw [Engine.indexIsBehind, Engine.indexIsBehind, coordinator, same]

-- Nothing new is to be had from the sources, nor from those the engine was set up with.
structure Quiet (allowed : Generator → Prop) (u : Setup) (root : Location) (t : FileTree) (e : Engine) : Prop where
  running : ∃ a, Running allowed u.store root a e
  mirrored : u.store.Mirrored e.disk.files (u.sources.map Source.name) e.coordinator
  marker : u.store.readMarker e.disk.files = .ok e.publisher.current
  abreast : e.indexIsBehind = false
  idle : e.loop.pendingRegeneration = false
  spent : ∀ source ∈ e.sources, source.Spent t (e.coordinator.versionKey? source.name)
  anew : ∀ source ∈ u.sources, source.Spent t (e.coordinator.versionKey? source.name)

structure Alike (root : Location) (e next : Engine) : Prop where
  coordinator : next.coordinator = e.coordinator
  publisher : next.publisher = e.publisher
  sources : ∀ l, Sourced root l → next.disk.files.get? l = e.disk.files.get? l
  indexes : Intact root e.publisher.current e.disk.files next.disk.files

theorem alike_refl (root : Location) (e : Engine) : Alike root e e :=
  ⟨rfl, rfl, fun _ _ => rfl, intact_of_same root _ _ _ fun _ _ => rfl⟩

theorem alike_trans (root : Location) (a b c : Engine) (first : Alike root a b) (second : Alike root b c) :
    Alike root a c where
  coordinator := second.coordinator.trans first.coordinator
  publisher := second.publisher.trans first.publisher
  sources := fun l inside => (second.sources l inside).trans (first.sources l inside)
  indexes := intact_trans root _ _ _ _ first.indexes (first.publisher ▸ second.indexes)

section Running

variable {allowed : Generator → Prop} (confined : ∀ g, allowed g → g.Confined) (s : Store) (root : Location)
  (a b : Annals) (e next : Engine) (running : Running allowed s root a e) (still : Running allowed s root b next)
include confined running still

theorem running_behind (coordinator : next.coordinator = e.coordinator) (publisher : next.publisher = e.publisher)
    (indexes : Intact root e.publisher.current e.disk.files next.disk.files) :
    next.indexIsBehind = e.indexIsBehind := by
  have sound := running_sound s root confined a e running
  have after := running_sound s root confined b next still
  refine behind_alike e next coordinator publisher fun index current => ?_
  have names := (running_serves s root confined a e running).names index current
  rw [sound.store]
  exact (index_reads_same s root _ _ (s.place_index_way root _ sound.place) (s.place_index_way root _ after.place)
    index names.named.1 (indexes.index index current) names.there).2

theorem running_marker (indexes : Intact root e.publisher.current e.disk.files next.disk.files)
    (read : s.readMarker e.disk.files = .ok e.publisher.current) :
    s.readMarker next.disk.files = .ok e.publisher.current := by
  have sound := running_sound s root confined a e running
  have after := running_sound s root confined b next still
  exact marker_intact s root _ sound.place _ after.place sound.marked after.marked _ read indexes

theorem running_mirrored (names : List String) (plain : ∀ name ∈ names, Path.Plain name)
    (sources : ∀ l, Sourced root l → next.disk.files.get? l = e.disk.files.get? l)
    (mirrored : s.Mirrored e.disk.files names e.coordinator) : s.Mirrored next.disk.files names e.coordinator := by
  have sound := running_sound s root confined a e running
  have after := running_sound s root confined b next still
  have reads (name file : String) (namePlain : Path.Plain name) (filePlain : Path.Plain file)
      (short : file.utf8ByteSize ≤ FileTree.nameLimit) :=
    s.source_reads_alike root _ _ sound.place after.place name file namePlain filePlain short fun tail =>
      sources _ ⟨name :: tail, by simp [sourceAt]⟩
  exact s.mirrored_alike names plain _ _ _ mirrored
    (fun name namePlain => reads name "version" namePlain (by decide) (by decide))
    fun name namePlain => reads name "build.complog" namePlain (by decide) (by decide)

end Running

theorem quiet_alike {allowed : Generator → Prop} (confined : ∀ g, allowed g → g.Confined) (u : Setup)
    (named : ∀ source ∈ u.sources, Config.checkName source.name = .ok ()) (root : Location) (t : FileTree)
    (e next : Engine) (quiet : Quiet allowed u root t e) (running : ∃ a, Running allowed u.store root a next)
    (alike : Alike root e next)
    (idle : next.loop.pendingRegeneration = false)
    (spent : ∀ source ∈ next.sources, source.Spent t (e.coordinator.versionKey? source.name)) :
    Quiet allowed u root t next := by
  obtain ⟨a, before⟩ := quiet.running
  obtain ⟨b, still⟩ := running
  have plain (name : String) (member : name ∈ u.sources.map Source.name) : Path.Plain name := by
    obtain ⟨source, listed, rfl⟩ := List.mem_map.mp member
    exact plain_of_check_name _ (named source listed)
  constructor
  case running => exact ⟨b, still⟩
  case mirrored =>
    rw [alike.coordinator]
    exact running_mirrored confined u.store root a b e next before still _ plain alike.sources quiet.mirrored
  case marker =>
    rw [alike.publisher]
    exact running_marker confined u.store root a b e next before still alike.indexes quiet.marker
  case abreast =>
    rw [running_behind confined u.store root a b e next before still alike.coordinator alike.publisher alike.indexes]
    exact quiet.abreast
  case idle => exact idle
  case spent =>
    rw [alike.coordinator]
    exact spent
  case anew =>
    rw [alike.coordinator]
    exact quiet.anew

namespace Setup

structure Prepared (u : Setup) : Prop where
  named : ∀ source ∈ u.sources, Config.checkName source.name = .ok ()
  distinct : (u.sources.map Source.name).Nodup
  fresh : ∀ source ∈ u.sources, source.Fresh
  first : u.loop.firstRound = true
  idle : u.loop.pendingRegeneration = false

theorem plain_names (u : Setup) (prepared : u.Prepared) (name : String) (member : name ∈ u.sources.map Source.name) :
    Path.Plain name := by
  obtain ⟨source, listed, rfl⟩ := List.mem_map.mp member
  exact plain_of_check_name _ (prepared.named source listed)

theorem start_opens (u : Setup) (d disk : Disk) (c : Coordinator) (made : u.store.init d = (.ok (), disk))
    (loaded : Coordinator.load u.store disk.files (u.sources.map Source.name) = .ok c) (p : Publisher) (last : Disk)
    (opened : Publisher.start u.store disk = (.ok p, last)) : ∃ e, (u.start d).1 = .ok e := by
  unfold start
  rw [made]
  dsimp only
  rw [loaded]
  dsimp only
  rw [opened]
  exact ⟨_, rfl⟩

end Setup

structure Begins (u : Setup) (root : Location) (e : Engine) : Prop where
  fits : FileTree.Usable u.store.root "index"
  sources : e.sources = u.sources
  loop : e.loop = u.loop
  undisturbed : ∀ name, e.interrupts name = .never
  mirrored : u.store.Mirrored e.disk.files (u.sources.map Source.name) e.coordinator
  marker : u.store.readMarker e.disk.files = .ok e.publisher.current
  spared : ∀ index, Path.Plain index → e.disk.files.get? (indexAt root index) = none →
    u.store.indexDir index ∉ e.disk.doomed

theorem started_begins {allowed : Generator → Prop} (confined : ∀ g, allowed g → g.Confined) (u : Setup)
    (prepared : u.Prepared) (root : Location) (a : Annals) (d : Disk) (e : Engine) (idle : d.doomed = [])
    (started : (u.start d).1 = .ok e) (running : Running allowed u.store root a e) : Begins u root e := by
  have place := (running_sound u.store root confined a e running).place
  obtain ⟨disk, -, still, loaded, opened, -, -⟩ := u.started d e idle started
  have files := publisher_start_files u.store disk e.disk e.publisher opened
  obtain ⟨paths, marker, listed, -, shape⟩ := Store.publisher_started u.store disk e.publisher (by rw [opened])
  obtain ⟨sources, loop, undisturbed⟩ := u.start_keeps d e started
  rw [← files] at loaded marker listed
  have there := (FileTree.is_directory_join e.disk.files u.store.root "index" root (by decide)
    (u.store.place_way root _ place)).mp (u.store.indexes_there _ _ paths listed)
  refine ⟨there.1, sources, loop, undisturbed,
    (u.store.load_in_place_iff root _ place _ (u.plain_names prepared) _).mp loaded, marker, ?_⟩
  intro index plain absent member
  have doomed : e.disk.doomed = paths := by
    have same := congrArg (fun done => done.2.doomed) (opened.symm.trans shape)
    rw [still, List.nil_append] at same
    exact same
  rw [doomed] at member
  obtain ⟨other, same, there, -⟩ := (u.store.orphans_listed root _ place _ paths listed _).mp member
  have otherPlain := place.formed.plain (indexesAt root) other (by rw [Store.index_at_append, there]; nofun)
  obtain rfl := Path.join_injective u.store.indexRoot index other plain otherPlain same
  cases absent.symm.trans there

section FirstRound

variable {allowed : Generator → Prop} (confined : ∀ g, allowed g → g.Confined) (u : Setup) (prepared : u.Prepared)
  (root : Location) (t : FileTree) (a : Annals) (e : Engine) (begins : Begins u root e)
  (running : Running allowed u.store root a e) (round : FirstRound root t e)
include prepared begins

theorem begun_named : ∀ source ∈ e.sources, Config.checkName source.name = .ok () := by
  rw [begins.sources]
  exact prepared.named

include confined running

theorem first_polls_intact : Intact root e.publisher.current e.disk.files e.regenerating.disk.files := by
  have sound := running_sound u.store root confined a e running
  have serves := running_serves u.store root confined a e running
  have polls := regenerating_steps u.store root a e sound serves (begun_named u prepared root e begins)
  exact intact_moves root e _ _ polls.files (indexed_not_sourced root)

include round

theorem first_round_drained :
    Drained u.store root e.kept (u.sources.map Source.name) t e.sources e.begun e.regenerating
        e.regenerating.sources ∧
      (e.polled.2.2.changed = [] → e.regenerating.coordinator = e.coordinator) := by
  have sound := running_sound u.store root confined a e running
  have serves := running_serves u.store root confined a e running
  have standing := serves_standing u.store root a e sound serves
  have sources := begins.sources
  obtain ⟨drained, same⟩ := sources_drained u.store root e.kept _ t (u.plain_names prepared) e.sources e.begun {}
    ⟨standing, begins.mirrored⟩ (fun source member => List.mem_map_of_mem (sources ▸ member))
    (sources ▸ prepared.distinct) (fun source member => prepared.fresh source (sources ▸ member)) round.reads
    round.stores (fun _ _ => begins.undisturbed _) (first_round_polled root t e round)
  exact ⟨⟨⟨drained.mirroring.standing, drained.mirroring.mirrored⟩, drained.names, drained.others, drained.after,
    drained.anew⟩, same⟩

theorem first_round_fresh :
    e.regenerating.disk.files.get?
        (indexAt root (e.regenerating.indexName e.regenerating.generations)) = none ∧
      u.store.indexDir (e.regenerating.indexName e.regenerating.generations) ∉ e.regenerating.disk.doomed := by
  have sound := running_sound u.store root confined a e running
  have serves := running_serves u.store root confined a e running
  have polls := regenerating_steps u.store root a e sound serves (begun_named u prepared root e begins)
  exact (fresh_regenerating u.store root e polls round.fresh
    (begins.spared _ (sound.indexes e.generations).1 round.fresh)).2

theorem idle_round_quiet (notDue : e.isDue e.polled.2.2 (e.loop.firstRound && e.indexIsBehind) = false) :
    Quiet allowed u root t e.runRound.2 := by
  have named := begun_named u prepared root e begins
  have pending := running_regenerating u.store root confined a e running named
  have intact := first_polls_intact confined u prepared root a e begins running
  obtain ⟨drained, same⟩ := first_round_drained confined u prepared root t a e begins running round
  have first : e.loop.firstRound = true := begins.loop ▸ prepared.first
  obtain ⟨unchanged, abreast⟩ := Engine.first_round_not_due e e.polled.2.2 first notDue
  have idle : e.regenerating.loop.pendingRegeneration = false := by
    have before : e.loop.pendingRegeneration = false := begins.loop ▸ prepared.idle
    have owed := Engine.round_pending e
    rw [Engine.run_round_idle e (.inr notDue), unchanged, before] at owed
    simpa using owed
  have publisher := e.regenerating_frame.1
  rw [Engine.run_round_idle e (.inr notDue)]
  constructor
  case running => exact ⟨_, pending⟩
  case mirrored => exact drained.mirroring.mirrored
  case marker =>
    rw [publisher]
    exact running_marker confined u.store root a _ e e.regenerating running pending intact begins.marker
  case abreast =>
    rw [running_behind confined u.store root a _ e e.regenerating running pending (same unchanged) publisher intact]
    exact abreast
  case idle => exact idle
  case spent => exact drained.after
  case anew => exact begins.sources ▸ drained.anew

theorem due_round_quiet (due : e.isDue e.polled.2.2 (e.loop.firstRound && e.indexIsBehind) = true) :
    Quiet allowed u root t e.runRound.2 := by
  have named := begun_named u prepared root e begins
  have pending := running_regenerating u.store root confined a e running named
  have sound := running_sound u.store root confined _ _ pending
  have serves := running_serves u.store root confined _ _ pending
  obtain ⟨absent, spared⟩ := first_round_fresh confined u prepared root t a e begins running round
  obtain ⟨drained, -⟩ := first_round_drained confined u prepared root t a e begins running round
  have after := running_round u.store root confined a e running named absent spared
  have done := serves_regenerate u.store root _ _ sound serves absent spared
  have regenerated := first_round_regenerates root t e round due u.store _ done
  obtain ⟨-, d, steps, held, -, swapped⟩ := done.published _ regenerated
  obtain ⟨coordinator, sources, publisher, files, idle⟩ :
      e.runRound.2.coordinator = e.regenerating.coordinator ∧ e.runRound.2.sources = e.regenerating.sources ∧
        e.runRound.2.publisher.current = some (e.regenerating.indexName e.regenerating.generations) ∧
        e.runRound.2.disk.files = d.files ∧ e.runRound.2.loop.pendingRegeneration = false := by
    have frame := (Engine.regenerate_frame e.regenerating).1
    rw [Engine.run_round_due e (first_round_polled root t e round) due]
    generalize e.regenerating.regenerate = answer at frame regenerated swapped ⊢
    obtain ⟨result, next⟩ := answer
    obtain rfl : result = _ := regenerated
    have publisher : next.publisher = (e.regenerating.publisher.swap d _).1 := congrArg Prod.fst swapped
    have disk : next.disk = (e.regenerating.publisher.swap d _).2 := congrArg Prod.snd swapped
    exact ⟨frame.coordinator, frame.sources, by rw [← swap_current e.regenerating.publisher d, ← publisher],
      by rw [← swap_files e.regenerating.publisher d, ← disk], rfl⟩
  have afterSound := running_sound u.store root confined _ _ after
  have afterServes := running_serves u.store root confined _ _ after
  constructor
  case running => exact ⟨_, after⟩
  case mirrored =>
    rw [coordinator]
    refine running_mirrored confined u.store root _ _ e.regenerating e.runRound.2 pending after _
      (u.plain_names prepared) ?_ drained.mirroring.mirrored
    rw [files]
    intro l sourced
    exact steps.files.get l
      (fun inside => indexed_not_sourced root l (Store.indexed_of_unkept root _ l inside) sourced)
      fun inside => indexed_not_sourced root l (published_indexed root _ l inside) sourced
  case marker =>
    rw [publisher]
    exact (read_marker_iff u.store root _ afterSound.place afterSound.marked _).mpr (afterServes.names _ publisher)
  case abreast =>
    have indexed : e.runRound.2.indexedKeys? = some e.runRound.2.coordinator.versionKeys := by
      rw [Engine.indexedKeys?, publisher, Option.bind_some, afterSound.store, files, held.manifest, coordinator]
    simp [Engine.indexIsBehind, indexed]
  case idle => exact idle
  case spent =>
    rw [coordinator, sources]
    exact drained.after
  case anew =>
    rw [coordinator]
    exact begins.sources ▸ drained.anew

theorem first_round_quiet : Quiet allowed u root t e.runRound.2 := by
  cases due : e.isDue e.polled.2.2 (e.loop.firstRound && e.indexIsBehind) with
  | false => exact idle_round_quiet confined u prepared root t a e begins running round due
  | true => exact due_round_quiet confined u prepared root t a e begins running round due

end FirstRound

end IndexKeeper
