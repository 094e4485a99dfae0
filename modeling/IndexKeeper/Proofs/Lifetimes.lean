import IndexKeeper.CommandLine
import IndexKeeper.Proofs.AcceptedConfigs
import IndexKeeper.Proofs.FilePolls
import IndexKeeper.Proofs.PublishedIndex
import IndexKeeper.Proofs.Regeneration

set_option autoImplicit false

namespace IndexKeeper

open Store (Unkept indexesAt indexAt markerAt besideMarkerAt Indexed)

namespace Setup

structure Proper (u : Setup) : Prop where
  named : ∀ source ∈ u.sources, Config.checkName source.name = .ok ()
  distinct : (u.sources.map Source.name).Nodup
  files : ∀ source ∈ u.sources, ∃ path, source.kind = .filesystem path
  first : u.loop.firstRound = true
  idle : u.loop.pendingRegeneration = false
  indexes : ∀ n, HexText (u.indexName n)
  confined : ∀ n, (u.generator n).Confined

theorem config_proper (c : Config) (m : Machine) (clock : Clock) (generator : Nat → Generator)
    (accepted : c.check = .ok ()) (files : ∀ source ∈ c.sources, ∃ path, source.settings = .filesystem path)
    (indexes : ∀ n, HexText (m.indexName n)) (confined : ∀ n, (generator n).Confined) :
    { ofConfig c m clock with generator }.Proper := by
  have acceptable := c.check_iff.mp accepted
  refine ⟨?_, ?_, ?_, rfl, rfl, indexes, confined⟩
  · intro source member
    obtain ⟨setting, listed, rfl⟩ := List.mem_map.mp member
    exact (Config.check_name_iff _).mpr (acceptable.named setting listed)
  · dsimp only [ofConfig, Config.buildSources]
    rw [List.map_map]
    exact acceptable.distinct
  · intro source member
    obtain ⟨setting, listed, rfl⟩ := List.mem_map.mp member
    obtain ⟨path, file⟩ := files setting listed
    exact ⟨path, by simp [file, Config.kindOf]⟩

theorem start_keeps (u : Setup) (d : Disk) (e : Engine) (started : (u.start d).1 = .ok e) :
    e.sources = u.sources ∧ e.loop = u.loop ∧ ∀ name, e.interrupts name = .never := by
  unfold Setup.start at started
  split at started
  · cases started
  · split at started
    · cases started
    · split at started
      · cases started
      · obtain rfl := Except.ok.inj started
        exact ⟨rfl, rfl, fun _ => rfl⟩

theorem start_get (u : Setup) (d : Disk) (opens : (u.start d).1.toOption.isSome = true) :
    (u.start d).1 = .ok ((u.start d).1.toOption.get opens) := by
  generalize (u.start d).1 = answer at opens ⊢
  cases answer with
  | error e => cases opens
  | ok e => rfl

end Setup

structure Store.Elsewhere (s : Store) (root : Location) (t next : FileTree) : Prop where
  formed : next.WellFormed
  reaches : next.Reaches (Indexed root) s.root root
  same : ∀ l, Sourced root l ∨ Indexed root l → next.get? l = t.get? l

-- Between two polls all other files may change. A regeneration may go wrong or be cut off at any of its steps:
-- then all later ones are refused.
inductive Lived (s : Store) (root : Location) : Engine → Prop where
  | opened (u : Setup) (d : Disk) (e : Engine) (store : u.store = s) (proper : u.Proper)
      (opens : s.Opens root none d.files) (idle : d.doomed = []) (started : (u.start d).1 = .ok e) :
      Lived s root e
  | polled (e : Engine) (source : Source) (path : String) (lived : Lived s root e)
      (named : Config.checkName source.name = .ok ()) (file : source.kind = .filesystem path)
      (stores : e.Stores source) : Lived s root (e.pollSource source).1
  | regenerated (e : Engine) (lived : Lived s root e)
      (absent : e.disk.files.get? (indexAt root (e.indexName e.generations)) = none)
      (spared : s.indexDir (e.indexName e.generations) ∉ e.disk.doomed) : Lived s root e.regenerate.2
  | reclaimed (e : Engine) (which : Nat) (lived : Lived s root e) :
      Lived s root { e with disk := e.disk.reclaim which }
  | elsewhere (e next : Engine) (lived : Lived s root e) (coordinator : next.coordinator = e.coordinator)
      (publisher : next.publisher = e.publisher) (indexName : next.indexName = e.indexName)
      (generator : next.generator = e.generator) (doomed : next.disk.doomed = e.disk.doomed)
      (files : s.Elsewhere root e.disk.files next.disk.files) : Lived s root next

-- Only in a poll can the cut come between the artifact and its key.
inductive Cut (s : Store) (root : Location) : Option (String × Bytes) → FileTree → Prop where
  | opening (d : Disk) (opens : s.Opens root none d.files) (idle : d.doomed = []) :
      Cut s root none (s.init d).2.files
  | between (e : Engine) (next : FileTree) (lived : Lived s root e)
      (files : s.Elsewhere root e.disk.files next) : Cut s root none next
  | polling (e : Engine) (source : Source) (path : String) (bytes : Bytes) (next : FileTree)
      (lived : Lived s root e) (named : Config.checkName source.name = .ok ())
      (file : source.kind = .filesystem path) (read : e.disk.files.read path = .ok bytes)
      (files : s.Elsewhere root (e.pollSource source).1.disk.files next) :
      Cut s root (some (source.name, bytes)) next

theorem kept_elsewhere (s : Store) (root : Location) (half : Option (String × Bytes)) (t next : FileTree)
    (kept : s.Kept root half t) (files : s.Elsewhere root t next) : s.Kept root half next := by
  have way := reaches_way _ _ _ _ files.reaches
  have source := s.source_there root half t kept
  have index := s.index_there root half t kept
  have indexSame (name : String) : next.get? (indexAt root name) = t.get? (indexAt root name) :=
    files.same _ (.inr (List.prefix_append _ [name]))
  have sourceSame (name file : String) : next.get? (Store.sourceAt root name ++ [file]) =
      t.get? (Store.sourceAt root name ++ [file]) :=
    files.same _ (.inl ⟨[name, file], by simp [Store.sourceAt]⟩)
  exact {
    formed := files.formed
    reaches := files.reaches
    source := (FileTree.is_directory_join next s.root "source" root (by decide) way).mpr
      ⟨source.1, (files.same _ (.inl List.prefix_rfl)).trans source.2⟩
    index := (FileTree.is_directory_join next s.root "index" root (by decide) way).mpr
      ⟨index.1, (files.same _ (.inr List.prefix_rfl)).trans index.2⟩
    fits := kept.fits
    pairs := fun name => Store.pair_same root half t next name (sourceSame name "version")
      (sourceSame name "build.complog") (kept.pairs name)
    marker := by rw [markerAt, indexSame]; exact kept.marker
    beside := by rw [besideMarkerAt, indexSame]; exact kept.beside }

theorem elsewhere_refl (s : Store) (root : Location) (half : Option (String × Bytes)) (t : FileTree)
    (kept : s.Kept root half t) : s.Elsewhere root t t :=
  ⟨kept.formed, kept.reaches, fun _ _ => rfl⟩

structure Alive (s : Store) (root : Location) (e : Engine) : Prop where
  store : e.coordinator.store = s
  publisher : e.publisher.store = s
  kept : s.Kept root none e.disk.files
  doomed : s.Doomed markers e.disk
  current : ∀ index, e.publisher.current = some index → HexText index
  indexes : ∀ n, HexText (e.indexName n)
  confined : ∀ n, (e.generator n).Confined

structure Opened (u : Setup) (root : Location) (half : Option (String × Bytes)) (e : Engine) : Prop where
  store : e.coordinator.store = u.store
  publisher : e.publisher.store = u.store
  sources : e.sources = u.sources
  loop : e.loop = u.loop
  indexName : e.indexName = u.indexName
  generator : e.generator = u.generator
  undisturbed : ∀ name, e.interrupts name = .never
  kept : u.store.Kept root half e.disk.files
  keys : ∀ source ∈ u.sources, Path.Plain source.name → ∀ key,
    e.coordinator.versionKey? source.name = some key ↔
      e.disk.files.read (u.store.versionPath source.name) = .ok (Bytes.ofText key) ∧ HexText key ∧
        ∃ bytes, e.disk.files.read (u.store.artifactPath source.name) = .ok bytes
  current : ∀ index, e.publisher.current = some index ↔ HexText index ∧
    e.disk.files.get? (markerAt root) = some (.file (Bytes.ofText index)) ∧
    e.disk.files.isDirectory (u.store.indexDir index) = true
  doomed : ∀ path, path ∈ e.disk.doomed ↔ ∃ index, path = u.store.indexDir index ∧
    e.disk.files.get? (indexAt root index) = some .directory ∧ some index ≠ e.publisher.current

theorem start_opened (u : Setup) (root : Location) (half : Option (String × Bytes)) (d : Disk)
    (opens : u.store.Opens root half d.files) (idle : d.doomed = [])
    (made : (u.store.init d).1 = .ok ()) :
    ∃ e, u.start d = (.ok e, e.disk) ∧ Opened u root half e := by
  obtain ⟨kept, still⟩ := u.store.init_opens root half d.files opens d rfl idle made
  unfold Setup.start
  generalize u.store.init d = answer at kept still made ⊢
  obtain ⟨result, disk⟩ := answer
  obtain rfl : result = .ok () := made
  obtain ⟨coordinator, loaded, store, keys⟩ :=
    u.store.load_kept root half disk.files kept (u.sources.map Source.name)
  obtain ⟨current, next, started, files, named, queue⟩ :=
    u.store.publisher_start_kept root half disk kept still
  dsimp only
  generalize Coordinator.load u.store disk.files (u.sources.map Source.name) = answer at loaded ⊢
  subst loaded
  dsimp only
  generalize Publisher.start u.store disk = answer at started ⊢
  subst started
  refine ⟨_, rfl, ?_⟩
  rw [← files] at kept keys named queue
  exact {
    store, publisher := rfl, sources := rfl, loop := rfl, indexName := rfl, generator := rfl
    undisturbed := fun _ => rfl, kept
    keys := fun source member => keys source.name (List.mem_map_of_mem member)
    current := named
    doomed := queue }

section Opened

variable (u : Setup) (root : Location) (half : Option (String × Bytes)) (e : Engine)
  (opened : Opened u root half e)
include opened

theorem opened_doomed : u.store.Doomed (e.publisher.current.toList ++ markers) e.disk := by
  intro path member
  obtain ⟨index, rfl, there, other⟩ := (opened.doomed path).mp member
  have plain := opened.kept.formed.plain (indexesAt root) index (by simp [Store.index_at_append, there])
  refine ⟨index, plain, ?_, rfl⟩
  rw [List.mem_append, not_or]
  constructor
  · intro inside
    rw [Option.mem_toList] at inside
    exact other inside.symm
  · intro inside
    simp only [markers, List.mem_cons, List.not_mem_nil, or_false] at inside
    rcases inside with rfl | rfl
    · rcases opened.kept.marker with vacant | ⟨name, -, file⟩
      · rw [Store.index_at_current, vacant] at there
        cases there
      · rw [Store.index_at_current, file] at there
        cases there
    · exact opened.kept.beside there

end Opened

theorem opened_alive (u : Setup) (root : Location) (e : Engine) (proper : u.Proper)
    (opened : Opened u root none e) : Alive u.store root e where
  store := opened.store
  publisher := opened.publisher
  kept := opened.kept
  doomed := doomed_narrower u.store markers _ (fun _ => List.mem_append_right _) e.disk
    (opened_doomed u root none e opened)
  current := fun index current => ((opened.current index).mp current).1
  indexes := opened.indexName ▸ proper.indexes
  confined := opened.generator ▸ proper.confined

section Alive

variable (s : Store) (root : Location) (e : Engine) (alive : Alive s root e)
include alive

theorem alive_standing : s.Standing root (Unkept root markers) e.disk :=
  s.kept_standing root none _ alive.kept markers e.disk rfl alive.doomed

theorem alive_reclaimed (which : Nat) : Alive s root { e with disk := e.disk.reclaim which } := by
  have steps := reclaim_steps s root (Unkept root markers) e.disk which (alive_standing s root e alive)
  exact { alive with
    kept := s.kept_swept root none _ _ alive.kept markers (by decide) (by decide) steps.files
    doomed := doomed_steps s root _ _ _ _ markers alive.doomed steps }

theorem alive_polled (source : Source) (path : String) (named : Config.checkName source.name = .ok ())
    (file : source.kind = .filesystem path) (stores : e.Stores source) :
    Alive s root (e.pollSource source).1 := by
  have frame := Engine.poll_source_frame e source
  have same : (e.pollSource source).1.publisher = e.publisher := frame.publisher
  have indexes : ∀ n, HexText ((e.pollSource source).1.indexName n) := frame.indexName ▸ alive.indexes
  have confined : ∀ n, ((e.pollSource source).1.generator n).Confined := frame.generator ▸ alive.confined
  rcases stores_polled e source stores with ⟨coordinator, disk⟩ | ⟨key, stored, bytes, changed, recorded⟩
  · exact {
      store := coordinator ▸ alive.store
      publisher := same ▸ alive.publisher
      kept := disk ▸ alive.kept
      doomed := disk ▸ alive.doomed
      current := same ▸ alive.current
      indexes, confined }
  · obtain ⟨-, rfl, -⟩ := (file_changed_iff e source path file key bytes).mp changed
    obtain ⟨steps, whole, -⟩ := kept_recorded s root markers (by decide) (by decide) e.coordinator
      alive.store none e.disk alive.kept alive.doomed source.name (plain_of_check_name source.name named) bytes
    have store := record_store e.coordinator e.disk source.name (Source.contentKey bytes) bytes
    rw [recorded] at steps whole store
    exact {
      store := store.trans alive.store
      publisher := same ▸ alive.publisher
      kept := whole stored rfl
      doomed := doomed_steps s root _ _ _ _ markers alive.doomed steps
      current := same ▸ alive.current
      indexes, confined }

theorem polling_kept (source : Source) (path : String) (bytes : Bytes)
    (named : Config.checkName source.name = .ok ()) (file : source.kind = .filesystem path)
    (read : e.disk.files.read path = .ok bytes) :
    s.Kept root (some (source.name, bytes)) (e.pollSource source).1.disk.files := by
  rcases poll_source_written e source with disk | ⟨key, other, fates, left, offered, written⟩
  · rw [disk]
    exact { alive.kept with pairs := fun name => Store.pair_wider root _ _ name (alive.kept.pairs name) }
  · obtain ⟨again, rfl, -⟩ :=
      (file_changed_iff e source path file key other).mp (offered_answer e source key other offered)
    obtain rfl := Except.ok.inj (again.symm.trans read)
    obtain ⟨-, -, cut⟩ := kept_recorded s root markers (by decide) (by decide) e.coordinator alive.store none
      { e.disk with fates } alive.kept alive.doomed source.name (plain_of_check_name source.name named) other
    rw [written] at cut
    exact cut rfl

theorem alive_regenerated (absent : e.disk.files.get? (indexAt root (e.indexName e.generations)) = none)
    (spared : s.indexDir (e.indexName e.generations) ∉ e.disk.doomed) : Alive s root e.regenerate.2 := by
  have hex := alive.indexes e.generations
  have plain := hex_text_plain _ hex
  have done := new_index_regenerated e s root alive.store (s.kept_in_place root none _ alive.kept) alive.doomed
    ⟨alive.publisher, plain, hex_no_marker _ hex, absent, spared, alive.confined _⟩
  have frame := (Engine.regenerate_frame e).1
  have store : e.regenerate.2.coordinator.store = s := by rw [frame.coordinator]; exact alive.store
  have indexes : ∀ n, HexText (e.regenerate.2.indexName n) := frame.indexName ▸ alive.indexes
  have confined : ∀ n, (e.regenerate.2.generator n).Confined := frame.generator ▸ alive.confined
  generalize e.indexName e.generations = index at hex plain done
  generalize e.regenerate = answer at done store indexes confined ⊢
  obtain ⟨result, next⟩ := answer
  cases result with
  | error error =>
      obtain ⟨publisher, steps, -⟩ := done.failed error rfl
      have marker : next.disk.files.get? (markerAt root) = e.disk.files.get? (markerAt root) :=
        steps.files.get _ (Store.index_dir_stays root markers "current" (by decide))
          (marker_not_generated root index (hex_no_marker index hex))
      exact {
        store
        publisher := by rw [publisher]; exact alive.publisher
        kept := s.kept_moves root none _ alive.kept markers _ _ steps.files none
          (Store.pairs_kept root none _ _ markers _ steps.files
            (fun l inside => published_indexed root index l (.inl inside)) alive.kept.pairs)
          (marker ▸ alive.kept.marker) fun found => alive.kept.beside (done.beside found)
        doomed := doomed_steps s root _ _ _ _ markers alive.doomed steps
        current := by rw [publisher]; exact alive.current
        indexes, confined }
  | ok name =>
      obtain ⟨-, d, steps, -, ⟨marked, -⟩, swapped⟩ := done.published name rfl
      have publisher : next.publisher = (e.publisher.swap d index).1 := congrArg Prod.fst swapped
      have disk : next.disk = (e.publisher.swap d index).2 := congrArg Prod.snd swapped
      have files : next.disk.files = d.files := by rw [disk, swap_files]
      have wide := moves_wider _ (Unkept root markers) _ _ _ steps.files
        (Store.unkept_narrower root markers _ fun _ => List.mem_cons_of_mem _)
      exact {
        store
        publisher := by rw [publisher, swap_store]; exact alive.publisher
        kept := by
          rw [files]
          exact s.kept_moves root none _ alive.kept markers _ _ wide none
            (Store.pairs_kept root none _ _ markers _ wide (published_indexed root index) alive.kept.pairs)
            (.inr ⟨index, hex, marked⟩) fun found => alive.kept.beside (done.beside (files ▸ found))
        doomed := by
          rw [disk]
          have doomed := doomed_steps s root _ _ _ _ markers alive.doomed steps
          rw [← alive.publisher] at doomed ⊢
          refine swap_doomed e.publisher d markers doomed index fun old current _ => ?_
          have oldHex := alive.current old current
          exact ⟨hex_text_plain old oldHex, hex_no_marker old oldHex⟩
        current := by
          intro other current
          rw [publisher, swap_current] at current
          exact Option.some.inj current ▸ hex
        indexes, confined }

end Alive

theorem lived_alive (s : Store) (root : Location) (e : Engine) (lived : Lived s root e) : Alive s root e := by
  -- Only a poll can change a pair of files, and it leaves a whole one.
  induction lived with
  | opened u d e store proper opens idle started =>
      subst store
      have made : (u.store.init d).1 = .ok () := by
        unfold Setup.start at started
        generalize u.store.init d = answer at started ⊢
        obtain ⟨result, disk⟩ := answer
        cases result with
        | error error => cases started
        | ok => rfl
      obtain ⟨found, same, opened⟩ := start_opened u root none d opens idle made
      rw [same] at started
      obtain rfl := Except.ok.inj started
      exact opened_alive u root found proper opened
  | polled e source path lived named file stores ih => exact alive_polled s root e ih source path named file stores
  | regenerated e lived absent spared ih => exact alive_regenerated s root e ih absent spared
  | reclaimed e which lived ih => exact alive_reclaimed s root e ih which
  | elsewhere e next lived coordinator publisher indexName generator doomed files ih =>
      exact {
        store := coordinator ▸ ih.store
        publisher := publisher ▸ ih.publisher
        kept := kept_elsewhere s root none _ _ ih.kept files
        doomed := fun path member => ih.doomed path (doomed ▸ member)
        current := publisher ▸ ih.current
        indexes := indexName ▸ ih.indexes
        confined := generator ▸ ih.confined }

theorem cut_opens (s : Store) (root : Location) (half : Option (String × Bytes)) (t : FileTree)
    (cut : Cut s root half t) : s.Opens root half t := by
  cases cut with
  | opening d opens idle => exact s.opens_cut root none d opens idle
  | between e next lived files =>
      exact s.kept_opens root none t (kept_elsewhere s root none _ t (lived_alive s root e lived).kept files)
  | polling e source path bytes next lived named file read files =>
      have kept := polling_kept s root e (lived_alive s root e lived) source path bytes named file read
      exact s.kept_opens root _ t (kept_elsewhere s root _ _ t kept files)

theorem elsewhere_file (s : Store) (root : Location) (t : FileTree) (place : s.InPlace root t) (l : Location)
    (name : String) (bytes : Bytes) (above : t.get? l = some .directory) (plain : Path.Plain name)
    (noDirectory : t.get? (l ++ [name]) ≠ some .directory)
    (outside : ¬ Sourced root (l ++ [name]) ∧ ¬ Indexed root (l ++ [name])) :
    s.Elsewhere root t (t.set (l ++ [name]) (.file bytes)) := by
  have moves := set_file_moves (Indexed root) t l name bytes above plain noDirectory
  refine ⟨moves.formed place.formed, reaches_moves _ _ _ _ _ _ moves (Store.root_not_indexed root) place.reaches,
    fun other inside => ?_⟩
  rw [FileTree.get_set _ _ _ _ (by simp), if_neg]
  rintro rfl
  exact inside.elim outside.1 outside.2

end IndexKeeper
