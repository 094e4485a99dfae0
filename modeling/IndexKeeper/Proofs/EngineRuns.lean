import IndexKeeper.Proofs.Lifetimes
import IndexKeeper.Proofs.PublicationRuns
import IndexKeeper.Proofs.WorkflowPolls

set_option autoImplicit false

namespace IndexKeeper

open Store (Unkept Indexed indexesAt indexAt markerAt besideMarkerAt sourceAt)

structure Record where
  key : String
  bytes : Bytes
  restored : Bool
deriving DecidableEq, Repr

-- Reading a key back takes the white space around it away.
def Record.known (r : Record) : String := if r.restored then Text.trim r.key else r.key

theorem Record.known_iff (r : Record) : r.known = r.key ↔ (r.restored = true → Text.trim r.key = r.key) := by
  unfold Record.known
  cases r.restored with
  | true => simp
  | false => simp

structure Annals where
  recorded : String → Option Record
  whole : Bool

namespace Annals

structure Fits (a : Annals) (s : Store) (t : FileTree) : Prop where
  blank : ∀ source, Path.Plain source → a.recorded source = none → ∀ bytes,
    t.read (s.versionPath source) ≠ .ok bytes
  filled : ∀ source r, Path.Plain source → a.recorded source = some r →
    t.read (s.versionPath source) = .ok (Bytes.ofText r.key) ∧ t.read (s.artifactPath source) = .ok r.bytes

def restored (a : Annals) : Annals :=
  { a with recorded := fun source => (a.recorded source).map fun r => { r with restored := true } }

end Annals

namespace Annals

def poll (a : Annals) (e : Engine) (source : Source) : Annals :=
  match e.offered? source, (e.pollSource source).2.2 with
  | none, _ => a
  | some (key, bytes), .changed => { a with
      recorded := fun name => if name = source.name then some ⟨key, bytes, false⟩ else a.recorded name }
  | some _, _ => { a with whole := false }

def polls (a : Annals) (e : Engine) : List Source → Annals
  | [] => a
  | source :: rest => match (e.pollSource source).2.2 with
      | .cancelled => a.poll e source
      | _ => (a.poll e source).polls (e.pollSource source).1 rest

def round (a : Annals) (e : Engine) : Annals :=
  a.polls { e with loop := { e.loop with firstRound := false } } e.sources

def enter (a : Annals) (call : Call) : Annals :=
  { a with recorded := fun name =>
      if name = call.source then some ⟨call.key, call.bytes, false⟩ else a.recorded name }

end Annals

theorem publisher_start_files (s : Store) (d next : Disk) (p : Publisher)
    (started : Publisher.start s d = (.ok p, next)) : next.files = d.files := by
  obtain ⟨paths, -, -, -, shape⟩ := Store.publisher_started s d p (by rw [started])
  exact congrArg (fun done => done.2.files) (started.symm.trans shape)

theorem Setup.started (u : Setup) (d : Disk) (e : Engine) (idle : d.doomed = []) (started : (u.start d).1 = .ok e) :
    ∃ disk, (u.store.init d).2 = disk ∧ disk.doomed = [] ∧
      Coordinator.load u.store disk.files (u.sources.map Source.name) = .ok e.coordinator ∧
      Publisher.start u.store disk = (.ok e.publisher, e.disk) ∧ e.indexName = u.indexName ∧
      e.generator = u.generator := by
  have still := Store.perform_all_idle u.store.openWork d d.files rfl idle
  unfold Setup.start Store.init at started
  unfold Store.init
  generalize d.performAll u.store.openWork = answer at started still ⊢
  obtain ⟨result, disk⟩ := answer
  cases result with
  | error error => cases started
  | ok =>
      refine ⟨disk, rfl, (still rfl).1, ?_⟩
      dsimp only at started
      generalize Coordinator.load u.store disk.files (u.sources.map Source.name) = answer at started ⊢
      cases answer with
      | error error => cases started
      | ok coordinator =>
          dsimp only at started
          generalize Publisher.start u.store disk = answer at started ⊢
          obtain ⟨result, last⟩ := answer
          cases result with
          | error error => cases started
          | ok publisher =>
              obtain rfl := Except.ok.inj started
              exact ⟨rfl, rfl, rfl, rfl⟩

-- Any step may fail. Between two polls, and before and after a regeneration, all other files may change.
inductive Running (allowed : Generator → Prop) (s : Store) (root : Location) : Annals → Engine → Prop where
  | opened (a : Annals) (u : Setup) (d : Disk) (e : Engine) (store : u.store = s)
      (indexes : ∀ n, IndexName (u.indexName n)) (generators : ∀ n, allowed (u.generator n))
      (idle : d.doomed = []) (started : (u.start d).1 = .ok e) (place : s.InPlace root e.disk.files)
      (marked : Marked root e.disk.files) (fits : a.whole = true → a.Fits s e.disk.files) :
      Running allowed s root a.restored e
  | reopened (a : Annals) (u : Setup) (e next : Engine) (fates : List Fate) (running : Running allowed s root a e)
      (store : u.store = s) (indexes : ∀ n, IndexName (u.indexName n))
      (generators : ∀ n, allowed (u.generator n))
      (started : (u.start ⟨e.disk.files, [], fates⟩).1 = .ok next) : Running allowed s root a.restored next
  | polled (a : Annals) (e : Engine) (source : Source) (running : Running allowed s root a e)
      (named : Config.checkName source.name = .ok ()) :
      Running allowed s root (a.poll e source) (e.pollSource source).1
  | regenerated (a : Annals) (e : Engine) (running : Running allowed s root a e)
      (absent : e.disk.files.get? (indexAt root (e.indexName e.generations)) = none)
      (spared : s.indexDir (e.indexName e.generations) ∉ e.disk.doomed) : Running allowed s root a e.regenerate.2
  | reclaimed (a : Annals) (e : Engine) (which : Nat) (running : Running allowed s root a e) :
      Running allowed s root a { e with disk := e.disk.reclaim which }
  | elsewhere (a : Annals) (e next : Engine) (running : Running allowed s root a e)
      (coordinator : next.coordinator = e.coordinator) (publisher : next.publisher = e.publisher)
      (indexes : ∀ n, IndexName (next.indexName n)) (generators : ∀ n, allowed (next.generator n))
      (doomed : next.disk.doomed = e.disk.doomed) (files : s.Elsewhere root e.disk.files next.disk.files) :
      Running allowed s root a next

structure Sound (s : Store) (root : Location) (a : Annals) (e : Engine) : Prop where
  store : e.coordinator.store = s
  publisher : e.publisher.store = s
  place : s.InPlace root e.disk.files
  marked : Marked root e.disk.files
  doomed : s.Doomed markers e.disk
  current : ∀ index, e.publisher.current = some index → IndexName index
  indexes : ∀ n, IndexName (e.indexName n)
  confined : ∀ n, (e.generator n).Confined
  paths : ∀ name stored, e.coordinator.entries.get? name = some stored →
    Path.Plain name ∧ stored.path = s.artifactPath name
  fits : a.whole = true → a.Fits s e.disk.files
  known : a.whole = true → ∀ name key, e.coordinator.versionKey? name = some key →
    ∃ r, a.recorded name = some r ∧ key = r.known

theorem mem_of_map_all {ε α β : Type} (f : α → Except ε β) (values : List α) (results : List β)
    (mapped : values.mapM f = .ok results) (result : β) (member : result ∈ results) :
    ∃ value ∈ values, f value = .ok result := by
  induction values generalizing results with
  | nil =>
      obtain rfl : [] = results := Except.ok.inj mapped
      cases member
  | cons value rest ih =>
      rw [List.mapM_cons] at mapped
      obtain ⟨here, first, mapped⟩ := bind_ok _ _ _ mapped
      obtain ⟨later, others, mapped⟩ := bind_ok _ _ _ mapped
      obtain rfl : here :: later = results := Except.ok.inj mapped
      rcases List.mem_cons.mp member with rfl | inRest
      · exact ⟨value, List.mem_cons_self, first⟩
      · obtain ⟨other, listed, same⟩ := ih later others inRest
        exact ⟨other, List.mem_cons_of_mem _ listed, same⟩

theorem stored_entry (s : Store) (t : FileTree) (source : String) (found : Option StoredArtifact)
    (answer : s.stored? t source = .ok found) (stored : StoredArtifact) (here : found = some stored) :
    ∃ key, stored = ⟨source, key, s.artifactPath source⟩ ∧ s.readVersionKey t source = .ok (some key) := by
  unfold Store.stored? at answer
  split at answer
  · obtain ⟨key, read, same⟩ := map_ok _ _ _ answer
    rw [here] at same
    obtain ⟨key, rfl, rfl⟩ := Option.map_eq_some_iff.mp same
    exact ⟨key, rfl, read⟩
  · rw [here] at answer
    cases answer

theorem loaded_entry (s : Store) (root : Location) (t : FileTree) (place : s.InPlace root t) (names : List String)
    (c : Coordinator) (loaded : Coordinator.load s t names = .ok c) : c.store = s ∧
      ∀ name stored, c.entries.get? name = some stored → Path.Plain name ∧
        ∃ key, stored = ⟨name, key, s.artifactPath name⟩ ∧ s.readVersionKey t name = .ok (some key) := by
  obtain ⟨listed, all, rfl⟩ := map_ok _ _ _ loaded
  refine ⟨rfl, fun name stored there => ?_⟩
  obtain ⟨entry, member, same⟩ := List.mem_map.mp (NameMap.get_of_list _ _ _ there)
  obtain ⟨rfl, rfl⟩ := Prod.mk.inj same
  obtain ⟨dirs, named, rest⟩ := bind_ok _ _ _ all
  obtain ⟨found, mapped, rfl⟩ := map_ok _ _ _ rest
  obtain ⟨answer, inFound, here⟩ := List.mem_filterMap.mp (List.mem_filter.mp member).1
  obtain ⟨dir, inDirs, answered⟩ := mem_of_map_all _ dirs found mapped answer inFound
  obtain ⟨key, same, read⟩ := stored_entry s t dir answer answered entry here
  obtain ⟨dirs', again, inside⟩ := Store.directory_names_join t place.formed s.root "source" root (by decide)
    (s.place_way root t place) (Store.directory_of_names t _ dirs named)
  obtain rfl := Except.ok.inj (named.symm.trans again)
  have plain : Path.Plain dir := place.formed.plain (root ++ ["source"]) dir (by rw [(inside dir).mp inDirs]; nofun)
  have name : entry.source = dir := by rw [same]
  rw [name]
  exact ⟨plain, key, same, read⟩

theorem init_in_place (s : Store) (root : Location) (d : Disk) (place : s.InPlace root d.files)
    (idle : d.doomed = []) : (s.init d).2.files = d.files := by
  have way := s.place_way root d.files place
  have there (name : String) (plain : Path.Plain name) (found : d.files.get? (root ++ [name]) = some .directory) :
      (d.files.makeDirectories (Path.join s.root name)).2 = d.files := by
    rw [make_directories_join d.files s.root name root plain way, found]
    split <;> rfl
  have step (d' : Disk) (idle : d'.doomed = []) (same : d'.files = d.files) (path : String)
      (made : (d.files.makeDirectories path).2 = d.files) :
      (d'.perform (.makeDirectories path)).2.doomed = [] ∧
        (d'.perform (.makeDirectories path)).2.files = d.files := by
    obtain ⟨still, done⟩ := Store.perform_directories_idle d' idle path
    refine ⟨still, ?_⟩
    rcases done with ⟨-, moved⟩ | ⟨-, unmoved⟩
    · rw [moved, same, made]
    · rw [unmoved, same]
  obtain ⟨still, first⟩ := step d idle rfl s.sourceRoot (there "source" (by decide) place.source)
  rw [Store.init, Store.openWork, Disk.performAll]
  generalize d.perform (.makeDirectories s.sourceRoot) = answer at still first ⊢
  obtain ⟨result, mid⟩ := answer
  cases result with
  | error e => exact first
  | ok =>
      dsimp only
      rw [perform_all_last]
      exact (step mid still first s.indexRoot (there "index" (by decide) place.index)).2

theorem Setup.start_files (u : Setup) (root : Location) (d : Disk) (e : Engine) (place : u.store.InPlace root d.files)
    (idle : d.doomed = []) (started : (u.start d).1 = .ok e) : e.disk.files = d.files := by
  obtain ⟨disk, made, -, -, opened, -, -⟩ := u.started d e idle started
  rw [publisher_start_files u.store disk e.disk e.publisher opened, ← made]
  exact init_in_place u.store root d place idle

theorem read_trimmed_some (t : FileTree) (path key : String) (read : Store.readTrimmed t path = .ok (some key)) :
    ∃ bytes text, t.read path = .ok bytes ∧ bytes.toText? = some text ∧ key = Text.trim text := by
  unfold Store.readTrimmed Store.readBytes at read
  cases there : t.read path with
  | error e => rw [there] at read; cases e <;> cases read
  | ok bytes =>
      rw [there] at read
      dsimp only at read
      cases text : Bytes.toText? bytes with
      | none => rw [text] at read; cases read
      | some text' =>
          rw [text] at read
          dsimp only at read
          split at read
          · cases read
          · exact ⟨bytes, text', rfl, text, (Option.some.inj (Except.ok.inj read)).symm⟩

section Fits

variable (s : Store) (root : Location) (a : Annals) (t next : FileTree)

theorem fits_alike (fits : a.Fits s t)
    (version : ∀ source, Path.Plain source → next.read (s.versionPath source) = t.read (s.versionPath source))
    (artifact : ∀ source, Path.Plain source → next.read (s.artifactPath source) = t.read (s.artifactPath source)) :
    a.Fits s next := by
  constructor
  · intro source plain none bytes
    rw [version source plain]
    exact fits.blank source plain none bytes
  · intro source r plain some
    rw [version source plain, artifact source plain]
    exact fits.filled source r plain some

theorem fits_indexed (keep : List String) (touched : Location → Prop) (place : s.InPlace root t)
    (moves : Moves (Unkept root keep) touched t next) (apart : ∀ l, touched l → Indexed root l)
    (fits : a.Fits s t) : a.Fits s next := by
  have after := s.place_moves root t place keep touched next moves
  have reads (source : String) (plain : Path.Plain source) :=
    s.pair_reads_same root t next place after source plain keep touched moves apart
  exact fits_alike s a t next fits (fun source plain => (reads source plain).1) fun source plain =>
    (reads source plain).2

theorem elsewhere_in_place (place : s.InPlace root t) (files : s.Elsewhere root t next) : s.InPlace root next where
  formed := files.formed
  reaches := files.reaches
  source := (files.same _ (.inl List.prefix_rfl)).trans place.source
  index := (files.same _ (.inr List.prefix_rfl)).trans place.index

theorem fits_elsewhere (place : s.InPlace root t) (files : s.Elsewhere root t next) (fits : a.Fits s t) :
    a.Fits s next := by
  have after := elsewhere_in_place s root t next place files
  have same (source : String) (tail : Location) : next.get? (sourceAt root source ++ tail) =
      t.get? (sourceAt root source ++ tail) := files.same _ (.inl ⟨source :: tail, by simp [sourceAt]⟩)
  exact fits_alike s a t next fits
    (fun source plain => s.source_reads_alike root t next place after source "version" plain (by decide)
      (by decide) (same source))
    (fun source plain => s.source_reads_alike root t next place after source "build.complog" plain (by decide)
      (by decide) (same source))

end Fits

section Entered

variable (c : Coordinator) (call : Call) (path : String) (a : Annals)

theorem fits_entered (d next : Disk) (after : Coordinator) (done : CallDone c d call (.ok path) after next)
    (fits : a.Fits c.store d.files) : (a.enter call).Fits c.store next.files := by
  obtain ⟨-, version, artifact⟩ := done.whole path rfl
  constructor
  · intro name plain none
    by_cases here : name = call.source
    · simp [Annals.enter, here] at none
    · rw [(done.others name plain here).2.1]
      exact fits.blank name plain (by simpa [Annals.enter, here] using none)
  · intro name r plain some
    by_cases here : name = call.source
    · subst here
      obtain rfl := Option.some.inj ((if_pos rfl).symm.trans some)
      exact ⟨version, artifact⟩
    · obtain ⟨-, sameVersion, sameArtifact⟩ := done.others name plain here
      rw [sameVersion, sameArtifact]
      exact fits.filled name r plain ((if_neg here).symm.trans some)

variable (name : String)

theorem entry_entered (stored : StoredArtifact)
    (there : (c.entries.insert call.source ⟨call.source, call.key, path⟩).get? name = some stored) :
    (name = call.source ∧ stored = ⟨call.source, call.key, path⟩) ∨
      name ≠ call.source ∧ c.entries.get? name = some stored := by
  rw [NameMap.get_insert] at there
  by_cases here : name = call.source
  · rw [if_pos here] at there
    exact .inl ⟨here, (Option.some.inj there).symm⟩
  · rw [if_neg here] at there
    exact .inr ⟨here, there⟩

theorem known_entered (key : String)
    (known : ∀ name key, c.versionKey? name = some key → ∃ r, a.recorded name = some r ∧ key = r.known)
    (there : ((c.entries.insert call.source ⟨call.source, call.key, path⟩).get? name).map StoredArtifact.versionKey =
      some key) : ∃ r, (a.enter call).recorded name = some r ∧ key = r.known := by
  obtain ⟨stored, found, rfl⟩ := Option.map_eq_some_iff.mp there
  rcases entry_entered c call path name stored found with ⟨here, rfl⟩ | ⟨other, before⟩
  · exact ⟨⟨call.key, call.bytes, false⟩, if_pos here, rfl⟩
  · obtain ⟨r, recorded, same⟩ := known name stored.versionKey (congrArg (Option.map _) before)
    exact ⟨r, (if_neg other).trans recorded, same⟩

end Entered

theorem sound_started (s : Store) (root : Location) (a : Annals) (names : List String) (disk : Disk) (e : Engine)
    (indexes : ∀ n, IndexName (e.indexName n)) (confined : ∀ n, (e.generator n).Confined)
    (idle : disk.doomed = []) (loaded : Coordinator.load s disk.files names = .ok e.coordinator)
    (opened : Publisher.start s disk = (.ok e.publisher, e.disk)) (place : s.InPlace root disk.files)
    (marked : Marked root disk.files) (fits : a.whole = true → a.Fits s disk.files) :
    Sound s root a.restored e := by
  obtain ⟨store, entries⟩ := loaded_entry s root disk.files place names e.coordinator loaded
  have serving := serving_started s root [] [] e.publisher disk e.disk place marked
    (fun path member => absurd (idle ▸ member) List.not_mem_nil)
    (fun index plain member => absurd (idle ▸ member) List.not_mem_nil)
    (fun index names member => absurd (idle ▸ member) List.not_mem_nil) opened nofun
  have files := publisher_start_files s disk e.disk e.publisher opened
  exact {
    store
    publisher := serving.store
    place := serving.place
    marked := serving.marked
    doomed := doomed_narrower s markers _ (fun _ => List.mem_append_right _) e.disk serving.doomed
    current := fun index current => (serving.current index current).1.named
    indexes, confined
    paths := by
      intro name stored there
      obtain ⟨plain, key, rfl, -⟩ := entries name stored there
      exact ⟨plain, rfl⟩
    fits := by
      intro whole
      rw [files]
      have fits := fits whole
      constructor
      · intro source plain none
        exact fits.blank source plain (Option.map_eq_none_iff.mp none)
      · intro source r plain some
        obtain ⟨r, there, rfl⟩ := Option.map_eq_some_iff.mp some
        exact fits.filled source r plain there
    known := by
      intro whole name key there
      obtain ⟨stored, found, rfl⟩ := Option.map_eq_some_iff.mp there
      obtain ⟨plain, key, rfl, read⟩ := entries name stored found
      obtain ⟨bytes, text, version, decoded, rfl⟩ := read_trimmed_some disk.files _ key read
      cases recorded : a.recorded name with
      | none => exact absurd version ((fits whole).blank name plain recorded bytes)
      | some r =>
          refine ⟨{ r with restored := true }, congrArg (Option.map _) recorded, ?_⟩
          obtain rfl := Except.ok.inj (((fits whole).filled name r plain recorded).1.symm.trans version)
          rw [Bytes.to_text_of_text] at decoded
          obtain rfl := Option.some.inj decoded
          rfl }

section Sound

variable (s : Store) (root : Location) (a : Annals) (e : Engine) (sound : Sound s root a e)
include sound

theorem sound_standing : s.Standing root (Unkept root markers) e.disk :=
  s.place_standing root _ sound.place markers e.disk rfl sound.doomed

theorem sound_reclaimed (which : Nat) : Sound s root a { e with disk := e.disk.reclaim which } := by
  have steps := reclaim_steps s root _ e.disk which (sound_standing s root a e sound)
  obtain ⟨marker, beside⟩ := Store.marker_moves root markers (by decide) (by decide) Nothing _ _ steps.files
    fun _ => id
  exact { sound with
    place := s.place_moves root _ sound.place markers Nothing _ steps.files
    marked := ⟨marker ▸ sound.marked.marker, beside ▸ sound.marked.beside⟩
    doomed := doomed_steps s root _ _ _ _ markers sound.doomed steps
    fits := fun whole => fits_indexed s root a _ _ markers Nothing sound.place steps.files
      (fun _ none => False.elim none) (sound.fits whole) }

theorem sound_elsewhere (next : Engine) (coordinator : next.coordinator = e.coordinator)
    (publisher : next.publisher = e.publisher) (indexes : ∀ n, IndexName (next.indexName n))
    (confined : ∀ n, (next.generator n).Confined) (doomed : next.disk.doomed = e.disk.doomed)
    (files : s.Elsewhere root e.disk.files next.disk.files) : Sound s root a next := by
  have same (name : String) : next.disk.files.get? (indexAt root name) = e.disk.files.get? (indexAt root name) :=
    files.same _ (.inr (List.prefix_append _ [name]))
  exact {
    store := coordinator ▸ sound.store
    publisher := publisher ▸ sound.publisher
    place := elsewhere_in_place s root _ _ sound.place files
    marked := ⟨by rw [markerAt, same]; exact sound.marked.marker,
      by rw [besideMarkerAt, same]; exact sound.marked.beside⟩
    doomed := fun path member => sound.doomed path (doomed ▸ member)
    current := publisher ▸ sound.current
    indexes, confined
    paths := coordinator ▸ sound.paths
    fits := fun whole => fits_elsewhere s root a _ _ sound.place files (sound.fits whole)
    known := coordinator ▸ sound.known }

theorem sound_sourced (next : Engine) (after : Annals) (store : next.coordinator.store = s)
    (publisher : next.publisher = e.publisher) (indexName : next.indexName = e.indexName)
    (generator : next.generator = e.generator)
    (steps : s.Steps root (Unkept root markers) (Sourced root) e.disk next.disk)
    (paths : ∀ name stored, next.coordinator.entries.get? name = some stored →
      Path.Plain name ∧ stored.path = s.artifactPath name)
    (fits : after.whole = true → after.Fits s next.disk.files)
    (known : after.whole = true → ∀ name key, next.coordinator.versionKey? name = some key →
      ∃ r, after.recorded name = some r ∧ key = r.known) : Sound s root after next := by
  obtain ⟨marker, beside⟩ := Store.marker_moves root markers (by decide) (by decide) (Sourced root) _ _
    steps.files fun name => index_not_sourced root [name]
  exact {
    store
    publisher := publisher ▸ sound.publisher
    place := s.place_moves root _ sound.place markers _ _ steps.files
    marked := ⟨marker ▸ sound.marked.marker, beside ▸ sound.marked.beside⟩
    doomed := doomed_steps _ root _ _ _ _ markers sound.doomed steps
    current := publisher ▸ sound.current
    indexes := indexName ▸ sound.indexes
    confined := generator ▸ sound.confined
    paths, fits, known }

theorem sound_polled (source : Source) (named : Config.checkName source.name = .ok ()) :
    Sound s root (a.poll e source) (e.pollSource source).1 := by
  have plain := plain_of_check_name source.name named
  have frame := Engine.poll_source_frame e source
  obtain rfl := sound.store
  have standing := sound_standing _ root a e sound
  obtain ⟨steps, store⟩ := poll_source_steps _ root _ e source rfl plain standing
  have steps := steps_weaken _ root _ _ (Sourced root) _ _ steps fun l =>
    (List.prefix_append (root ++ ["source"]) [source.name]).trans
  have sourced (after : Annals) := sound_sourced _ root a e sound (e.pollSource source).1 after store frame.publisher
    frame.indexName frame.generator steps
  have polled := source_polled e source
  unfold Annals.poll
  generalize e.pollSource source = done at polled sourced ⊢
  have idle (coordinator : done.1.coordinator = e.coordinator) (disk : done.1.disk = e.disk) :
      Sound e.coordinator.store root a done.1 :=
    sourced a (coordinator ▸ sound.paths) (disk ▸ sound.fits) (coordinator ▸ sound.known)
  have failed (coordinator : done.1.coordinator = e.coordinator) :
      Sound e.coordinator.store root { a with whole := false } done.1 :=
    sourced _ (coordinator ▸ sound.paths) nofun nofun
  cases polled with
  | off offered called =>
      rw [offered]
      exact idle rfl rfl
  | early next verdict cause offered broken coordinator disk unchanged =>
      rw [offered]
      exact idle coordinator disk
  | left next verdict offered coordinator disk nothing unchanged =>
      rw [offered]
      exact idle coordinator disk
  | unstored next key bytes error offered changed recorded reply =>
      rw [offered]
      exact failed (record_failed recorded)
  | halfway next verdict cause steps key bytes offered changed broken coordinator performed unchanged =>
      rw [offered]
      cases verdict with
      | changed => exact absurd rfl unchanged
      | _ => exact failed coordinator
  | stored next key path bytes offered changed recorded =>
      have call := (record_done e.coordinator root _ e.disk standing ⟨source.name, key, bytes⟩ plain).2
      obtain ⟨-, entries⟩ := record_stored recorded
      dsimp only at call
      rw [recorded] at call
      rw [offered]
      refine sourced (a.enter ⟨source.name, key, bytes⟩) (fun name stored there => ?_)
        (fun whole => fits_entered _ _ _ a _ _ _ call (sound.fits whole)) fun whole name known there => ?_
      · rw [entries] at there
        rcases entry_entered e.coordinator ⟨source.name, key, bytes⟩ _ name stored there with ⟨rfl, rfl⟩ | ⟨-, before⟩
        · exact ⟨plain, rfl⟩
        · exact sound.paths name stored before
      · rw [Coordinator.versionKey?, entries] at there
        exact known_entered e.coordinator ⟨source.name, key, bytes⟩ _ a name known (sound.known whole) there

theorem fresh_regenerated (absent : e.disk.files.get? (indexAt root (e.indexName e.generations)) = none)
    (spared : s.indexDir (e.indexName e.generations) ∉ e.disk.doomed) :
    Regenerated e s root markers (e.indexName e.generations) e.regenerate.1 e.regenerate.2 := by
  obtain ⟨plain, -, other⟩ := sound.indexes e.generations
  exact new_index_regenerated e s root sound.store sound.place sound.doomed
    ⟨sound.publisher, plain, other, absent, spared, sound.confined _⟩

theorem sound_regenerated (absent : e.disk.files.get? (indexAt root (e.indexName e.generations)) = none)
    (spared : s.indexDir (e.indexName e.generations) ∉ e.disk.doomed) : Sound s root a e.regenerate.2 := by
  have named := sound.indexes e.generations
  have done := fresh_regenerated s root a e sound absent spared
  have frame := (Engine.regenerate_frame e).1
  generalize e.indexName e.generations = index at named done
  generalize e.regenerate = answer at done frame ⊢
  obtain ⟨result, next⟩ := answer
  have rest (publisher : next.publisher.store = s)
      (current : ∀ name, next.publisher.current = some name → IndexName name) (touched : Location → Prop)
      (moves : Moves (Unkept root markers) touched e.disk.files next.disk.files)
      (apart : ∀ l, touched l → Indexed root l)
      (marker : next.disk.files.get? (markerAt root) = e.disk.files.get? (markerAt root) ∨
        next.disk.files.get? (markerAt root) = some (.file (Bytes.ofText index)))
      (doomed : s.Doomed markers next.disk) : Sound s root a next := {
    store := by rw [frame.coordinator]; exact sound.store
    publisher
    place := s.place_moves root _ sound.place markers touched _ moves
    marked := ⟨marker.elim (fun same => same ▸ sound.marked.marker) fun new => .inr ⟨index, named, new⟩,
      fun found => sound.marked.beside (done.beside found)⟩
    doomed, current
    indexes := frame.indexName ▸ sound.indexes
    confined := frame.generator ▸ sound.confined
    paths := by rw [frame.coordinator]; exact sound.paths
    fits := fun whole => fits_indexed s root a _ _ markers touched sound.place moves apart (sound.fits whole)
    known := by rw [frame.coordinator]; exact sound.known }
  cases result with
  | error error =>
      obtain ⟨publisher, steps, -⟩ := done.failed error rfl
      have publisher : next.publisher = e.publisher := publisher
      refine rest (publisher ▸ sound.publisher) (publisher ▸ sound.current) _ steps.files
        (fun l inside => published_indexed root index l (.inl inside)) (.inl ?_)
        (doomed_steps s root _ _ _ _ markers sound.doomed steps)
      exact steps.files.get _ (Store.index_dir_stays root markers "current" (by decide))
        (marker_not_generated root index named.2.2)
  | ok name =>
      obtain ⟨-, d, steps, -, ⟨marked, -⟩, swapped⟩ := done.published name rfl
      have publisher : next.publisher = (e.publisher.swap d index).1 := congrArg Prod.fst swapped
      have disk : next.disk = (e.publisher.swap d index).2 := congrArg Prod.snd swapped
      have files : next.disk.files = d.files := by rw [disk, swap_files]
      have wide := moves_wider _ (Unkept root markers) _ _ _ steps.files
        (Store.unkept_narrower root markers _ fun _ => List.mem_cons_of_mem _)
      refine rest (by rw [publisher, swap_store]; exact sound.publisher) ?_ _ (files ▸ wide)
        (published_indexed root index) (.inr (files ▸ marked)) ?_
      · intro other current
        rw [publisher, swap_current] at current
        exact Option.some.inj current ▸ named
      · rw [disk]
        have doomed := doomed_steps s root _ _ _ _ markers sound.doomed steps
        rw [← sound.publisher] at doomed ⊢
        exact swap_doomed e.publisher d markers doomed index fun old current _ =>
          ⟨(sound.current old current).1, (sound.current old current).2.2⟩

end Sound

section Running

variable {allowed : Generator → Prop} (s : Store) (root : Location)

theorem running_generators (a : Annals) (e : Engine) (running : Running allowed s root a e) :
    ∀ n, allowed (e.generator n) := by
  induction running with
  | opened a u d e store indexes generators idle started place marked fits =>
      obtain ⟨disk, -, -, -, -, -, generator⟩ := u.started d e idle started
      exact generator ▸ generators
  | reopened a u e next fates running store indexes generators started ih =>
      obtain ⟨disk, -, -, -, -, -, generator⟩ := u.started _ next rfl started
      exact generator ▸ generators
  | polled a e source running named ih =>
      rw [(Engine.poll_source_frame e source).generator]
      exact ih
  | regenerated a e running absent spared ih =>
      rw [(Engine.regenerate_frame e).1.generator]
      exact ih
  | reclaimed a e which running ih => exact ih
  | elsewhere a e next running coordinator publisher indexes generators doomed files ih => exact generators

theorem running_weaken {other : Generator → Prop} (weaker : ∀ g, allowed g → other g) (a : Annals) (e : Engine)
    (running : Running allowed s root a e) : Running other s root a e := by
  induction running with
  | opened a u d e store indexes generators idle started place marked fits =>
      exact .opened a u d e store indexes (fun n => weaker _ (generators n)) idle started place marked fits
  | reopened a u e next fates running store indexes generators started ih =>
      exact .reopened a u e next fates ih store indexes (fun n => weaker _ (generators n)) started
  | polled a e source running named ih => exact .polled a e source ih named
  | regenerated a e running absent spared ih => exact .regenerated a e ih absent spared
  | reclaimed a e which running ih => exact .reclaimed a e which ih
  | elsewhere a e next running coordinator publisher indexes generators doomed files ih =>
      exact .elsewhere a e next ih coordinator publisher indexes (fun n => weaker _ (generators n)) doomed files

variable (confined : ∀ g, allowed g → g.Confined)
include confined

theorem running_sound (a : Annals) (e : Engine) (running : Running allowed s root a e) : Sound s root a e := by
  -- What the history says of the files counts only while no call to store has failed.
  induction running with
  | opened a u d e store indexes generators idle started place marked fits =>
      subst store
      obtain ⟨disk, -, still, loaded, opened, indexName, generator⟩ := u.started d e idle started
      have files := publisher_start_files u.store disk e.disk e.publisher opened
      exact sound_started u.store root a _ disk e (indexName ▸ indexes)
        (fun n => confined _ (generator ▸ generators n)) still loaded opened (files ▸ place) (files ▸ marked)
        (files ▸ fits)
  | reopened a u e next fates running store indexes generators started ih =>
      subst store
      obtain ⟨disk, made, still, loaded, opened, indexName, generator⟩ := u.started _ next rfl started
      have files : disk.files = e.disk.files :=
        made ▸ init_in_place u.store root ⟨e.disk.files, [], fates⟩ ih.place rfl
      exact sound_started u.store root a _ disk next (indexName ▸ indexes)
        (fun n => confined _ (generator ▸ generators n)) still loaded opened (files ▸ ih.place) (files ▸ ih.marked)
        (files ▸ ih.fits)
  | polled a e source running named ih => exact sound_polled s root a e ih source named
  | regenerated a e running absent spared ih => exact sound_regenerated s root a e ih absent spared
  | reclaimed a e which running ih => exact sound_reclaimed s root a e ih which
  | elsewhere a e next running coordinator publisher indexes generators doomed files ih =>
      exact sound_elsewhere s root a e ih next coordinator publisher indexes (fun n => confined _ (generators n)) doomed
        files

theorem running_same_files (a : Annals) (e next : Engine) (running : Running allowed s root a e)
    (coordinator : next.coordinator = e.coordinator) (publisher : next.publisher = e.publisher)
    (indexName : next.indexName = e.indexName) (generator : next.generator = e.generator)
    (disk : next.disk = e.disk) : Running allowed s root a next := by
  have sound := running_sound s root confined a e running
  refine .elsewhere a e next running coordinator publisher (indexName ▸ sound.indexes)
    (generator ▸ running_generators s root a e running) (by rw [disk]) ?_
  rw [disk]
  exact ⟨sound.place.formed, sound.place.reaches, fun _ _ => rfl⟩

omit confined in
theorem running_polls (a : Annals) (e : Engine) (o : RoundOutcome) (sources : List Source)
    (running : Running allowed s root a e)
    (named : ∀ source ∈ sources, Config.checkName source.name = .ok ()) :
    Running allowed s root (a.polls e sources) (e.pollSources o sources).1 := by
  induction sources generalizing a e o with
  | nil => exact running
  | cons source rest ih =>
      have next := Running.polled a e source running (named source List.mem_cons_self)
      have further (o : RoundOutcome) := ih (a.poll e source) (e.pollSource source).1 o next
        fun other member => named other (List.mem_cons_of_mem _ member)
      rw [Engine.pollSources, Annals.polls]
      generalize e.pollSource source = answer at next further ⊢
      obtain ⟨after, polled, verdict⟩ := answer
      cases verdict with
      | cancelled => exact next
      | changed => exact further _
      | unchanged => exact further _
      | failed => exact further _

theorem running_regenerating (a : Annals) (e : Engine) (running : Running allowed s root a e)
    (named : ∀ source ∈ e.sources, Config.checkName source.name = .ok ()) :
    Running allowed s root (a.round e) e.regenerating := by
  have begun := running_same_files s root confined a e { e with loop := { e.loop with firstRound := false } } running
    rfl rfl rfl rfl rfl
  exact running_same_files s root confined _ _ e.regenerating (running_polls s root a _ {} e.sources begun named) rfl
    rfl rfl rfl rfl

theorem running_round (a : Annals) (e : Engine) (running : Running allowed s root a e)
    (named : ∀ source ∈ e.sources, Config.checkName source.name = .ok ())
    (absent : e.regenerating.disk.files.get?
      (indexAt root (e.regenerating.indexName e.regenerating.generations)) = none)
    (spared : s.indexDir (e.regenerating.indexName e.regenerating.generations) ∉ e.regenerating.disk.doomed) :
    Running allowed s root (a.round e) e.runRound.2 := by
  have pending := running_regenerating s root confined a e running named
  rcases Engine.idle_or_due e e.polled.2.2 (e.loop.firstRound && e.indexIsBehind) with idle | ⟨through, due⟩
  · rw [Engine.run_round_idle e idle]
    exact pending
  · rw [Engine.run_round_due e through due]
    have done := Running.regenerated _ e.regenerating pending absent spared
    generalize e.regenerating.regenerate = answer at done ⊢
    obtain ⟨result, next⟩ := answer
    cases result with
    | error error => exact done
    | ok index => exact running_same_files s root confined _ next _ done rfl rfl rfl rfl rfl

end Running

end IndexKeeper
