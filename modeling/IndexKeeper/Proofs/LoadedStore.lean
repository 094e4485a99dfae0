import IndexKeeper.Proofs.EngineRuns
import IndexKeeper.Proofs.SpentSources

set_option autoImplicit false

namespace IndexKeeper

open Store (Unkept Indexed sourceAt)

namespace FileTree

theorem enter_no_directory (t : FileTree) (l : Location) (name : String) :
    t.enter l name ≠ .error .isDirectory := by
  unfold enter
  split
  · exact nofun
  · split
    · exact nofun
    · split
      · exact nofun
      · split <;> exact nofun

theorem walk_no_directory (t : FileTree) (slash : Bool) (l : Location) (names : List String) :
    t.walk slash l names ≠ .error .isDirectory := by
  induction names generalizing l with
  | nil => simp [walk]
  | cons name rest ih =>
      have entered := t.enter_no_directory l name
      cases rest with
      | nil =>
          unfold walk
          split
          · intro failed
            cases enters : t.enter l name with
            | error e => rw [enters] at entered failed; exact entered (congrArg _ (Except.error.inj failed))
            | ok next => rw [enters] at failed; cases failed
          · split <;> simp
      | cons second more =>
          rw [walk]
          · intro failed
            cases enters : t.enter l name with
            | error e => rw [enters] at entered failed; exact entered (congrArg _ (Except.error.inj failed))
            | ok next => rw [enters] at failed; exact ih next failed
          · simp

theorem find_no_directory (t : FileTree) (path : String) : t.find path ≠ .error .isDirectory := by
  have located : t.locate path ≠ .error .isDirectory := by
    unfold locate
    split
    · exact nofun
    · split
      · exact nofun
      · split
        · exact nofun
        · exact t.walk_no_directory _ _ _
  unfold find
  generalize t.locate path = place at located ⊢
  cases place with
  | error e => exact fun same => located (by rw [Except.error.inj same])
  | ok place =>
      cases place with
      | directory l => exact nofun
      | named parent name slash =>
          dsimp only
          split
          · exact nofun
          · exact nofun
          · split <;> exact nofun

theorem path_exists_iff_read (t : FileTree) (path : String) :
    t.pathExists path = true ↔ (∃ bytes, t.read path = .ok bytes) ∨ t.read path = .error .isDirectory := by
  have found := t.find_no_directory path
  unfold pathExists read
  generalize t.find path = answer at found ⊢
  cases answer with
  | error e =>
      refine ⟨nofun, ?_⟩
      rintro (⟨bytes, read⟩ | same)
      · cases read
      · exact absurd (congrArg _ (Except.error.inj same)) found
  | ok place =>
      obtain ⟨l, entry⟩ := place
      cases entry with
      | file bytes => exact ⟨fun _ => .inl ⟨bytes, rfl⟩, fun _ => rfl⟩
      | directory => exact ⟨fun _ => .inr rfl, fun _ => rfl⟩

end FileTree

theorem answer_of_map_all {ε α β : Type} (f : α → Except ε β) (values : List α) (results : List β)
    (mapped : values.mapM f = .ok results) (value : α) (member : value ∈ values) :
    ∃ result, f value = .ok result := by
  induction values generalizing results with
  | nil => cases member
  | cons first rest ih =>
      rw [List.mapM_cons] at mapped
      obtain ⟨here, answered, mapped⟩ := bind_ok _ _ _ mapped
      obtain ⟨later, others, -⟩ := bind_ok _ _ _ mapped
      rcases List.mem_cons.mp member with rfl | inRest
      · exact ⟨here, answered⟩
      · exact ih later others inRest

theorem ok_of_to_option {ε α : Type} (x : Except ε α) (value : α) (given : x.toOption = some value) : x = .ok value := by
  cases x with
  | error e => cases given
  | ok found => rw [Option.some.inj given]

namespace Store

theorem stored_alike (s : Store) (t next : FileTree) (source : String)
    (version : next.read (s.versionPath source) = t.read (s.versionPath source))
    (artifact : next.read (s.artifactPath source) = t.read (s.artifactPath source)) :
    s.stored? next source = s.stored? t source := by
  have there : next.pathExists (s.artifactPath source) = t.pathExists (s.artifactPath source) := by
    rw [Bool.eq_iff_iff, FileTree.path_exists_iff_read, FileTree.path_exists_iff_read, artifact]
  unfold stored? readVersionKey readTrimmed readBytes
  rw [there, version]

section Pair

variable (s : Store) (t : FileTree) (source key : String) (bytes : Bytes)

theorem stored_trimmed (filled : Text.allBlank key = false)
    (version : t.read (s.versionPath source) = .ok (Bytes.ofText key))
    (artifact : t.read (s.artifactPath source) = .ok bytes) :
    s.stored? t source = .ok (some ⟨source, Text.trim key, s.artifactPath source⟩) := by
  have there : t.pathExists (s.artifactPath source) = true :=
    (FileTree.path_exists_iff_read _ _).mpr (.inl ⟨bytes, artifact⟩)
  simp [stored?, there, readVersionKey, readTrimmed, readBytes, version, Bytes.to_text_of_text, filled, Except.map]

theorem stored_pair (durable : Durable key) (version : t.read (s.versionPath source) = .ok (Bytes.ofText key))
    (artifact : t.read (s.artifactPath source) = .ok bytes) :
    s.stored? t source = .ok (some ⟨source, key, s.artifactPath source⟩) := by
  have stored := s.stored_trimmed t source key bytes durable.1 version artifact
  rwa [durable.2] at stored

end Pair

theorem stored_astray (s : Store) (t : FileTree) (source : String) (e : FileError)
    (astray : t.way (s.sourceDir source) = .error e) : s.stored? t source = .ok none := by
  have absent : t.pathExists (s.artifactPath source) = false := by
    unfold FileTree.pathExists FileTree.find
    rw [artifactPath, FileTree.locate_astray t _ "build.complog" (by decide) e astray]
    rfl
  rw [stored?, absent, if_neg Bool.false_ne_true]

section Opened

variable (s : Store) (root : Location) (t : FileTree) (formed : t.WellFormed) (leads : t.way s.root = .ok root)
  (opened : t.get? (root ++ ["source"]) = some .directory)
include leads opened

theorem stored_nowhere (source : String) (plain : Path.Plain source)
    (nowhere : t.get? (sourceAt root source) ≠ some .directory) : s.stored? t source = .ok none := by
  cases way : t.way (s.sourceDir source) with
  | error e => exact s.stored_astray t source e way
  | ok l =>
      have entered := (source_way s root t source (source_root_way s root t leads opened) plain).symm.trans way
      exact absurd ((FileTree.enter_plain t _ l source plain).mp entered).2.2 nowhere

include formed

theorem load_readable (names : List String) (fits : FileTree.Usable s.root "source")
    (readable : ∀ name, Path.Plain name → ∃ found, s.stored? t name = .ok found) :
    ∃ c, Coordinator.load s t names = .ok c ∧ c.store = s ∧ ∀ name stored, c.entries.get? name = some stored ↔
      name ∈ names ∧ Path.Plain name ∧ s.stored? t name = .ok (some stored) := by
  have there : t.isDirectory s.sourceRoot = true :=
    (FileTree.is_directory_join t s.root "source" root (by decide) leads).mpr ⟨fits, opened⟩
  obtain ⟨dirs, listed, inDirs⟩ := directory_names_join t formed s.root "source" root (by decide) leads there
  have dirPlain (dir : String) (member : dir ∈ dirs) : Path.Plain dir :=
    formed.plain (root ++ ["source"]) dir (by rw [(inDirs dir).mp member]; nofun)
  obtain ⟨found, mapped, inFound⟩ := map_all (s.stored? t) dirs fun dir member => readable dir (dirPlain dir member)
  have all : s.listStored t = .ok (found.filterMap id) := by
    rw [listStored, sourceRoot, listed]
    change (dirs.mapM (s.stored? t)).map _ = _
    rw [mapped]
    rfl
  let entries := ((found.filterMap id).filter fun a => names.contains a.source).map fun a => (a.source, a)
  have exactly (name : String) (stored : StoredArtifact) : (name, stored) ∈ entries ↔
      name ∈ names ∧ Path.Plain name ∧ s.stored? t name = .ok (some stored) := by
    constructor
    · intro member
      obtain ⟨entry, inList, same⟩ := List.mem_map.mp member
      obtain ⟨rfl, rfl⟩ := Prod.mk.inj same
      obtain ⟨inAll, named⟩ := List.mem_filter.mp inList
      obtain ⟨answer, inFoundList, rfl⟩ := List.mem_filterMap.mp inAll
      obtain ⟨dir, inDir, answered⟩ := (inFound _).mp inFoundList
      obtain ⟨key, same, -⟩ := stored_entry s t dir _ answered entry rfl
      have source : entry.source = dir := by rw [same]
      exact ⟨by simpa using named, source ▸ dirPlain dir inDir, source ▸ answered⟩
    · rintro ⟨named, plain, answered⟩
      obtain ⟨key, rfl, -⟩ := stored_entry s t name _ answered stored rfl
      refine List.mem_map.mpr ⟨⟨name, key, s.artifactPath name⟩, List.mem_filter.mpr
        ⟨List.mem_filterMap.mpr ⟨_, ?_, rfl⟩, by simpa using named⟩, rfl⟩
      refine (inFound _).mpr ⟨name, (inDirs name).mpr ?_, answered⟩
      by_cases dir : t.get? (sourceAt root name) = some .directory
      · exact dir
      · cases (s.stored_nowhere root t leads opened name plain dir).symm.trans answered
  refine ⟨⟨s, NameMap.ofList entries⟩, by rw [Coordinator.load, all]; rfl, rfl, fun name stored => ?_⟩
  refine (NameMap.get_of_list_iff entries name stored fun a b first second => ?_).trans (exactly name stored)
  exact Option.some.inj (Except.ok.inj (((exactly name a).mp first).2.2.symm.trans ((exactly name b).mp second).2.2))

theorem readable_of_load (names : List String) (c : Coordinator) (loaded : Coordinator.load s t names = .ok c) :
    FileTree.Usable s.root "source" ∧
      ∀ name, Path.Plain name → ∃ found, s.stored? t name = .ok found := by
  obtain ⟨listed, all, -⟩ := map_ok _ _ _ loaded
  obtain ⟨dirs, named, rest⟩ := bind_ok _ _ _ all
  obtain ⟨found, mapped, -⟩ := map_ok _ _ _ rest
  have there := directory_of_names t _ dirs named
  obtain ⟨dirs', again, inside⟩ := directory_names_join t formed s.root "source" root (by decide) leads there
  obtain rfl := Except.ok.inj (named.symm.trans again)
  refine ⟨((FileTree.is_directory_join t s.root "source" root (by decide) leads).mp there).1, fun name plain => ?_⟩
  by_cases dir : t.get? (sourceAt root name) = some .directory
  · exact answer_of_map_all _ dirs found mapped name ((inside name).mpr dir)
  · exact ⟨none, s.stored_nowhere root t leads opened name plain dir⟩

theorem loaded_entries (names : List String) (c : Coordinator) (loaded : Coordinator.load s t names = .ok c) :
    c.store = s ∧ ∀ name stored, c.entries.get? name = some stored ↔
      name ∈ names ∧ Path.Plain name ∧ s.stored? t name = .ok (some stored) := by
  obtain ⟨fits, readable⟩ := s.readable_of_load root t formed leads opened names c loaded
  obtain ⟨found, again, entries⟩ := s.load_readable root t formed leads opened names fits readable
  obtain rfl := Except.ok.inj (loaded.symm.trans again)
  exact entries

end Opened

-- What a coordinator knows is what it would load, and nothing in the store is unreadable.
structure Mirrored (s : Store) (t : FileTree) (names : List String) (c : Coordinator) : Prop where
  store : c.store = s
  fits : FileTree.Usable s.root "source"
  known : ∀ name ∈ names, s.stored? t name = .ok (c.entries.get? name)
  others : ∀ name, name ∉ names → c.entries.get? name = none
  readable : ∀ name, Path.Plain name → ∃ found, s.stored? t name = .ok found

theorem load_iff (s : Store) (root : Location) (t : FileTree) (formed : t.WellFormed) (leads : t.way s.root = .ok root)
    (opened : t.get? (root ++ ["source"]) = some .directory) (names : List String)
    (plain : ∀ name ∈ names, Path.Plain name) (c : Coordinator) :
    Coordinator.load s t names = .ok c ↔ s.Mirrored t names c := by
  constructor
  · intro loaded
    obtain ⟨fits, readable⟩ := s.readable_of_load root t formed leads opened names c loaded
    obtain ⟨store, entries⟩ := s.loaded_entries root t formed leads opened names c loaded
    refine ⟨store, fits, fun name named => ?_, fun name unnamed => ?_, readable⟩
    · obtain ⟨answer, answered⟩ := readable name (plain name named)
      rw [answered]
      congr 1
      ext stored
      rw [entries, answered]
      simp [named, plain name named]
    · rw [Option.eq_none_iff_forall_ne_some]
      intro stored there
      exact unnamed ((entries name stored).mp there).1
  · intro mirrored
    obtain ⟨found, loaded, store, entries⟩ := s.load_readable root t formed leads opened names mirrored.fits mirrored.readable
    rw [loaded]
    have same : found.entries = c.entries := by
      refine NameMap.eq_of_get _ _ fun name => ?_
      ext stored
      rw [entries]
      by_cases named : name ∈ names
      · rw [mirrored.known name named]
        simp [named, plain name named]
      · simp [named, mirrored.others name named]
    cases found
    cases c
    cases same
    cases store
    cases mirrored.store
    rfl

theorem load_in_place_iff (s : Store) (root : Location) (t : FileTree) (place : s.InPlace root t) (names : List String)
    (plain : ∀ name ∈ names, Path.Plain name) (c : Coordinator) :
    Coordinator.load s t names = .ok c ↔ s.Mirrored t names c :=
  s.load_iff root t place.formed (s.place_way root t place) place.source names plain c

section Mirrored

variable (s : Store) (names : List String) (plain : ∀ name ∈ names, Path.Plain name)
include plain

theorem mirrored_alike (t next : FileTree) (c : Coordinator) (mirrored : s.Mirrored t names c)
    (version : ∀ name, Path.Plain name → next.read (s.versionPath name) = t.read (s.versionPath name))
    (artifact : ∀ name, Path.Plain name → next.read (s.artifactPath name) = t.read (s.artifactPath name)) :
    s.Mirrored next names c := by
  have same (name : String) (plain : Path.Plain name) : s.stored? next name = s.stored? t name :=
    s.stored_alike t next name (version name plain) (artifact name plain)
  refine { mirrored with
    known := fun name named => (same name (plain name named)).trans (mirrored.known name named)
    readable := fun name plain => ?_ }
  rw [same name plain]
  exact mirrored.readable name plain

theorem mirrored_recorded (root : Location) (swept : Location → Prop) (c next : Coordinator) (d after : Disk)
    (mirrored : s.Mirrored d.files names c) (standing : s.Standing root swept d) (source key path : String)
    (bytes : Bytes) (named : source ∈ names) (durable : Durable key)
    (recorded : c.record d source key bytes = (.ok path, next, after)) : s.Mirrored after.files names next := by
  obtain rfl := mirrored.store
  have here := plain source named
  have call := (record_done c root swept d standing ⟨source, key, bytes⟩ here).2
  obtain ⟨e, failed, -, done⟩ | ⟨last, -, done⟩ := record_cases c d source key bytes
  · cases recorded.symm.trans done
  · dsimp only at call
    rw [recorded] at done call
    obtain ⟨-, rfl, rfl⟩ : _ ∧ _ ∧ _ := by simpa using done
    obtain ⟨-, version, artifact⟩ := call.whole path rfl
    have own := c.store.stored_pair after.files source key bytes durable version artifact
    have others (name : String) (namePlain : Path.Plain name) (apart : name ≠ source) :
        c.store.stored? after.files name = c.store.stored? d.files name :=
      have same := (call.others name namePlain apart).2
      c.store.stored_alike d.files after.files name same.1 same.2
    constructor
    case store => rfl
    case fits => exact mirrored.fits
    case known =>
      intro name listed
      rw [NameMap.get_insert]
      by_cases same : name = source
      · rw [if_pos same, same, own]
      · rw [if_neg same, others name (plain name listed) same, mirrored.known name listed]
    case others =>
      intro name unlisted
      have apart : name ≠ source := fun same => unlisted (same ▸ named)
      rw [NameMap.get_insert, if_neg apart, mirrored.others name unlisted]
    case readable =>
      intro name namePlain
      by_cases same : name = source
      · exact ⟨_, same ▸ own⟩
      · rw [others name namePlain same]
        exact mirrored.readable name namePlain

end Mirrored

end Store
end IndexKeeper
