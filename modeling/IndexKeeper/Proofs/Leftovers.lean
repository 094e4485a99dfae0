import IndexKeeper.Proofs.LoadedStore

set_option autoImplicit false

namespace IndexKeeper

open Store (sourceAt artifactAt versionAt)

namespace Store

structure Listable (s : Store) (root : Location) (t : FileTree) : Prop where
  formed : t.WellFormed
  leads : t.way s.root = .ok root
  there : t.isDirectory s.sourceRoot = true

structure Spoils (s : Store) (root : Location) (t : FileTree) (name : String) : Prop where
  short : name.utf8ByteSize ≤ FileTree.nameLimit
  usable : FileTree.Usable (s.sourceDir name) "build.complog"
  artifact : t.get? (artifactAt root name) ≠ none
  version : t.get? (versionAt root name) = some .directory ∨
    ∃ bytes, t.get? (versionAt root name) = some (.file bytes) ∧ bytes.toText? = none

def SameFor (root : Location) (names : List String) (t other : FileTree) : Prop :=
  ∀ name ∈ names, ∀ tail, other.get? (sourceAt root name ++ tail) = t.get? (sourceAt root name ++ tail)

theorem read_trimmed_fails_iff (t : FileTree) (base name : String) (l : Location) (plain : Path.Plain name)
    (leads : t.way base = .ok l) (usable : FileTree.Usable base name) :
    (¬ ∃ found, readTrimmed t (Path.join base name) = .ok found) ↔ t.get? (l ++ [name]) = some .directory ∨
      ∃ bytes, t.get? (l ++ [name]) = some (.file bytes) ∧ bytes.toText? = none := by
  have read := FileTree.read_join t base name l plain leads
  rw [if_pos usable] at read
  unfold readTrimmed readBytes
  rw [read]
  cases t.get? (l ++ [name]) with
  | none => simp
  | some entry =>
      cases entry with
      | directory => simp
      | file bytes => cases text : bytes.toText? <;> simp [text]

section Listable

variable (s : Store) (root : Location) (t : FileTree) (listable : s.Listable root t)
include listable

theorem listable_fits : FileTree.Usable s.root "source" ∧ t.get? (root ++ ["source"]) = some .directory :=
  (FileTree.is_directory_join t s.root "source" root (by decide) listable.leads).mp listable.there

theorem spoils_plain (name : String) (spoils : s.Spoils root t name) : Path.Plain name := by
  have directory := listable.formed.rooted (sourceAt root name) "build.complog" spoils.artifact
  exact listable.formed.plain (root ++ ["source"]) name fun none => by
    cases directory.symm.trans none

theorem source_way_iff (name : String) (plain : Path.Plain name) (l : Location) :
    t.way (s.sourceDir name) = .ok l ↔ l = sourceAt root name ∧ name.utf8ByteSize ≤ FileTree.nameLimit ∧
      t.get? (sourceAt root name) = some .directory := by
  have leads := source_root_way s root t listable.leads (s.listable_fits root t listable).2
  rw [source_way s root t name leads plain]
  exact FileTree.enter_plain t _ l name plain

theorem stored_fails_iff (name : String) (plain : Path.Plain name) :
    (¬ ∃ found, s.stored? t name = .ok found) ↔ s.Spoils root t name := by
  have reached := s.source_way_iff root t listable name plain
  cases way : t.way (s.sourceDir name) with
  | error e =>
      refine iff_of_false (fun fails => fails ⟨none, s.stored_astray t name e way⟩) ?_
      intro spoils
      have directory := listable.formed.rooted (sourceAt root name) "build.complog" spoils.artifact
      cases way.symm.trans ((reached _).mpr ⟨rfl, spoils.short, directory⟩)
  | ok l =>
      obtain ⟨rfl, short, -⟩ := (reached l).mp way
      have artifact := FileTree.path_exists_join t (s.sourceDir name) "build.complog" _ (by decide) way
      by_cases there : t.pathExists (s.artifactPath name) = true
      · obtain ⟨usable, filled⟩ := artifact.mp there
        -- The path of the version is the shorter of the two.
        have versionUsable := FileTree.usable_shorter (s.sourceDir name) "build.complog" "version" (by decide)
          (by decide) usable (by decide) (by decide)
        have version := read_trimmed_fails_iff t (s.sourceDir name) "version" _ (by decide) way versionUsable
        have answered : (∃ found, s.stored? t name = .ok found) ↔
            ∃ found, readTrimmed t (s.versionPath name) = .ok found := by
          rw [stored?, if_pos there, readVersionKey]
          cases readTrimmed t (s.versionPath name) <;> simp [Except.map]
        rw [answered]
        exact version.trans ⟨fun unread => ⟨short, usable, filled, unread⟩, Spoils.version⟩
      · refine iff_of_false (fun fails => fails ⟨none, by rw [stored?, if_neg there]⟩) fun spoils => ?_
        exact there (artifact.mpr ⟨spoils.usable, spoils.artifact⟩)

theorem load_fails_iff (names : List String) :
    (¬ ∃ c, Coordinator.load s t names = .ok c) ↔ ∃ name, s.Spoils root t name := by
  obtain ⟨fits, opened⟩ := s.listable_fits root t listable
  constructor
  · refine fun fails => Classical.byContradiction fun clean => fails ?_
    have readable (name : String) (plain : Path.Plain name) : ∃ found, s.stored? t name = .ok found :=
      Classical.byContradiction fun fails => clean ⟨name, (s.stored_fails_iff root t listable name plain).mp fails⟩
    obtain ⟨c, loaded, -⟩ := s.load_readable root t listable.formed listable.leads opened names fits readable
    exact ⟨c, loaded⟩
  · rintro ⟨name, spoils⟩ ⟨c, loaded⟩
    have plain := s.spoils_plain root t listable name spoils
    have readable := (s.readable_of_load root t listable.formed listable.leads opened names c loaded).2 name plain
    exact (s.stored_fails_iff root t listable name plain).mpr spoils readable

end Listable

section SameFor

variable (s : Store) (root : Location) (t other : FileTree) (names : List String) (same : SameFor root names t other)
include same

theorem spoils_same (name : String) (included : name ∈ names) : s.Spoils root other name ↔ s.Spoils root t name := by
  have artifact : other.get? (artifactAt root name) = t.get? (artifactAt root name) :=
    same name included ["build.complog"]
  have version : other.get? (versionAt root name) = t.get? (versionAt root name) := same name included ["version"]
  constructor
  · rintro ⟨short, usable, filled, unread⟩
    exact ⟨short, usable, artifact ▸ filled, version ▸ unread⟩
  · rintro ⟨short, usable, filled, unread⟩
    exact ⟨short, usable, artifact.symm ▸ filled, version.symm ▸ unread⟩

variable (listable : s.Listable root t) (otherListable : s.Listable root other)
include listable otherListable

theorem stored_same (name : String) (included : name ∈ names) (plain : Path.Plain name) :
    s.stored? other name = s.stored? t name := by
  have leads := source_root_way s root t listable.leads (s.listable_fits root t listable).2
  have otherLeads := source_root_way s root other otherListable.leads (s.listable_fits root other otherListable).2
  have dir : other.get? (sourceAt root name) = t.get? (sourceAt root name) := by
    simpa using same name included []
  have file (file : String) (filePlain : Path.Plain file) (short : file.utf8ByteSize ≤ FileTree.nameLimit) :=
    read_source_file_same s root t other listable.formed leads otherLeads name file plain filePlain (.inl dir)
      (same name included [file]) short
  exact s.stored_alike t other name (file "version" (by decide) (by decide))
    (file "build.complog" (by decide) (by decide))

theorem loaded_same (c otherC : Coordinator) (loaded : Coordinator.load s t names = .ok c)
    (otherLoaded : Coordinator.load s other names = .ok otherC) : otherC = c := by
  have opened := (s.listable_fits root t listable).2
  have otherOpened := (s.listable_fits root other otherListable).2
  obtain ⟨store, entries⟩ := s.loaded_entries root t listable.formed listable.leads opened names c loaded
  obtain ⟨otherStore, otherEntries⟩ :=
    s.loaded_entries root other otherListable.formed otherListable.leads otherOpened names otherC otherLoaded
  have alike : otherC.entries = c.entries := by
    refine NameMap.eq_of_get _ _ fun name => ?_
    ext stored
    rw [entries, otherEntries]
    refine and_congr_right fun included => and_congr_right fun plain => ?_
    rw [s.stored_same root t other names same listable otherListable name included plain]
  obtain ⟨_, _⟩ := c
  obtain ⟨_, _⟩ := otherC
  cases store
  cases otherStore
  cases alike
  rfl

end SameFor

end Store

theorem leftovers_ignored_iff (s : Store) (root : Location) (t other : FileTree) (listable : s.Listable root t)
    (otherListable : s.Listable root other) (names : List String) (same : Store.SameFor root names t other) :
    (Coordinator.load s other names).toOption = (Coordinator.load s t names).toOption ↔
      (∃ name ∈ names, s.Spoils root t name) ∨
        ((∃ name, name ∉ names ∧ s.Spoils root other name) ↔ ∃ name, name ∉ names ∧ s.Spoils root t name) := by
  have fails (tree : FileTree) (listable : s.Listable root tree) : (¬ ∃ c, Coordinator.load s tree names = .ok c) ↔
      (∃ name ∈ names, s.Spoils root tree name) ∨ ∃ name, name ∉ names ∧ s.Spoils root tree name := by
    rw [s.load_fails_iff root tree listable names]
    constructor
    · rintro ⟨name, spoils⟩
      by_cases included : name ∈ names
      · exact .inl ⟨name, included, spoils⟩
      · exact .inr ⟨name, included, spoils⟩
    · rintro (⟨name, -, spoils⟩ | ⟨name, -, spoils⟩) <;> exact ⟨name, spoils⟩
  have own : (∃ name ∈ names, s.Spoils root other name) ↔ ∃ name ∈ names, s.Spoils root t name :=
    exists_congr fun name => and_congr_right (s.spoils_same root t other names same name)
  have equal : (Coordinator.load s other names).toOption = (Coordinator.load s t names).toOption ↔
      ((¬ ∃ c, Coordinator.load s other names = .ok c) ↔ ¬ ∃ c, Coordinator.load s t names = .ok c) := by
    cases loaded : Coordinator.load s t names with
    | error e => cases otherLoaded : Coordinator.load s other names <;> simp [Except.toOption]
    | ok c =>
        cases otherLoaded : Coordinator.load s other names with
        | error e => simp [Except.toOption]
        | ok otherC =>
            obtain rfl := s.loaded_same root t other names same listable otherListable c otherC loaded otherLoaded
            simp
  rw [equal, fails t listable, fails other otherListable, own]
  by_cases spoilt : ∃ name ∈ names, s.Spoils root t name
  · simp only [spoilt, true_or]
  · simp only [spoilt, false_or]

namespace OldSource

def store : Store := ⟨"data"⟩

def own : FileTree := ⟨[(["data"], .directory), (["data", "source"], .directory), (["data", "source", "a"], .directory),
  (["data", "source", "a", "build.complog"], .file (Bytes.ofText "one")),
  (["data", "source", "a", "version"], .file (Bytes.ofText "k1"))], []⟩

def leftovers (version : Bytes) : List (Location × Entry) := [(["data", "source", "old"], .directory),
  (["data", "source", "old", "build.complog"], .file (Bytes.ofText "old")),
  (["data", "source", "old", "version"], .file version), (["data", "source", "half"], .directory),
  (["data", "source", "half", "version"], .directory), (["data", "source", "note"], .file [])]

def beside (version : Bytes) : FileTree := ⟨own.entries ++ leftovers version, []⟩

def readable : FileTree := beside (Bytes.ofText "k9")

def unreadable : FileTree := beside [0xff]

theorem own_loads : Coordinator.load store own ["a"] =
    .ok ⟨store, NameMap.ofList [("a", ⟨"a", "k1", "data/source/a/build.complog"⟩)]⟩ := by decide +kernel

theorem listable (t : FileTree) (listed : t ∈ [own, readable, unreadable]) : store.Listable ["data"] t := by
  have found : ∀ t ∈ [own, readable, unreadable],
      t.way store.root = .ok ["data"] ∧ t.isDirectory store.sourceRoot = true := by decide +kernel
  obtain ⟨way, directory⟩ := found t listed
  refine ⟨?_, way, directory⟩
  simp only [List.mem_cons, List.not_mem_nil, or_false] at listed
  rcases listed with rfl | rfl | rfl <;> exact FileTree.well_formed_of_entries _ (by decide) (by decide)

theorem own_listable : store.Listable ["data"] own := listable own (by simp)

theorem unreadable_listable : store.Listable ["data"] unreadable := listable unreadable (by simp)

theorem same (version : Bytes) : Store.SameFor ["data"] ["a"] own (beside version) := by
  intro name included tail
  obtain rfl : name = "a" := by simpa using included
  have apart : (leftovers version).lookup (sourceAt ["data"] "a" ++ tail) = none := by
    simp [leftovers, sourceAt, List.lookup_cons]
  simp [FileTree.get?, beside, List.lookup_append, apart]

theorem readable_clean (name : String) : ¬ store.Spoils ["data"] readable name := by
  rintro ⟨-, -, artifact, version⟩
  have known : name = "a" ∨ name = "old" := by
    refine Classical.byContradiction fun unknown => artifact ?_
    have notOwn : (name == "a") = false := beq_false_of_ne (not_or.mp unknown).1
    have notOld : (name == "old") = false := beq_false_of_ne (not_or.mp unknown).2
    simp [artifactAt, sourceAt, FileTree.get?, readable, beside, own, leftovers, List.lookup_cons, notOwn, notOld]
  have text (key : String) : (Bytes.ofText key).toText? ≠ none := by
    rw [Bytes.to_text_of_text]
    exact Option.some_ne_none key
  rcases known with rfl | rfl
  all_goals
    rcases version with directory | ⟨bytes, there, unread⟩
    · cases directory
    · cases there
      exact text _ unread

theorem old_spoils : store.Spoils ["data"] unreadable "old" := by
  have usable : FileTree.Usable (store.sourceDir "old") "build.complog" := by decide +kernel
  have unread : Bytes.toText? [0xff] = none := by decide +kernel
  exact ⟨by decide, usable, by decide, .inr ⟨[0xff], by decide, unread⟩⟩

end OldSource

open OldSource in
theorem readable_leftovers_ignored :
    (Coordinator.load store readable ["a"]).toOption = (Coordinator.load store own ["a"]).toOption := by
  have clean : ¬ ∃ name, name ∉ ["a"] ∧ store.Spoils ["data"] readable name :=
    fun ⟨name, _, spoils⟩ => readable_clean name spoils
  have ownClean : ¬ ∃ name, name ∉ ["a"] ∧ store.Spoils ["data"] own name := by
    rintro ⟨name, foreign, spoils⟩
    have notOwn : (name == "a") = false := beq_false_of_ne (by simpa using foreign)
    exact spoils.artifact (by simp [artifactAt, sourceAt, FileTree.get?, own, List.lookup_cons, notOwn])
  exact (leftovers_ignored_iff store ["data"] own readable own_listable (listable readable (by simp)) ["a"] (same _)).mpr
    (.inr (iff_of_false clean ownClean))

open OldSource in
theorem unreadable_leftover_stops_load :
    Store.SameFor ["data"] ["a"] own unreadable ∧ store.Listable ["data"] own ∧ store.Listable ["data"] unreadable ∧
      Coordinator.load store own ["a"] =
        .ok ⟨store, NameMap.ofList [("a", ⟨"a", "k1", "data/source/a/build.complog"⟩)]⟩ ∧
      (Coordinator.load store unreadable ["a"]).toOption = none := by
  refine ⟨same _, own_listable, unreadable_listable, own_loads, ?_⟩
  have fails := (store.load_fails_iff ["data"] unreadable unreadable_listable ["a"]).mpr ⟨"old", old_spoils⟩
  cases loaded : Coordinator.load store unreadable ["a"] with
  | error e => rfl
  | ok c => exact absurd ⟨c, loaded⟩ fails

end IndexKeeper
