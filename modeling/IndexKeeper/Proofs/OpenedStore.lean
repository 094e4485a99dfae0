import IndexKeeper.Proofs.KeptStore
import IndexKeeper.Proofs.NameLookups
import IndexKeeper.Publisher

set_option autoImplicit false

namespace IndexKeeper

namespace FileTree

theorem usable_shorter (base name other : String) (plain : Path.Plain name) (otherPlain : Path.Plain other)
    (usable : Usable base name) (shorter : other.utf8ByteSize ≤ name.utf8ByteSize)
    (clean : Char.ofNat 0 ∉ other.toList) : Usable base other := by
  refine ⟨?_, Nat.le_trans (Path.size_join base other name otherPlain plain shorter) usable.2.1,
    Nat.le_trans shorter usable.2.2⟩
  obtain ⟨front, chars⟩ := Path.join_chars base
  have zero := usable.1
  rw [chars name plain, List.mem_append, not_or] at zero
  rw [chars other otherPlain, List.mem_append, not_or]
  exact ⟨zero.1, clean⟩

theorem walk_kept (t other : FileTree) (slash : Bool) (l : Location) (names : List String) (place : Place)
    (kept : ∀ l, t.get? l = some .directory → other.get? l = some .directory)
    (walked : t.walk slash l names = .ok place) : other.walk slash l names = .ok place := by
  have entered (l next : Location) (name : String) (enters : t.enter l name = .ok next) :
      other.enter l name = .ok next :=
    enter_kept t other (fun _ => False) l next name enters id fun l _ => kept l
  induction names generalizing l with
  | nil => exact walked
  | cons name rest ih =>
      cases rest with
      | nil =>
          rw [walk] at walked ⊢
          by_cases dots : name = "." ∨ name = ".."
          · rw [if_pos dots] at walked ⊢
            cases enters : t.enter l name with
            | error e => rw [enters] at walked; cases walked
            | ok next => rw [enters] at walked; rw [entered l next name enters]; exact walked
          · rw [if_neg dots] at walked ⊢
            exact walked
      | cons second more =>
          rw [walk] at walked ⊢
          · cases enters : t.enter l name with
            | error e => rw [enters] at walked; cases walked
            | ok next =>
                rw [enters] at walked
                rw [entered l next name enters]
                exact ih next walked
          · simp
          · simp

theorem locate_kept (t other : FileTree) (path : String) (place : Place)
    (here : other.workingDirectory = t.workingDirectory)
    (kept : ∀ l, t.get? l = some .directory → other.get? l = some .directory)
    (located : t.locate path = .ok place) : other.locate path = .ok place := by
  unfold locate at located ⊢
  rw [here]
  split at located
  · cases located
  · next filled =>
      rw [if_neg filled]
      split at located
      · cases located
      · next clean =>
          rw [if_neg clean]
          split at located
          · cases located
          · next short =>
              rw [if_neg short]
              exact walk_kept t other _ _ _ place kept located

theorem make_directory_there (t next : FileTree) (path : String) (made : t.makeDirectory path = .ok next) :
    next.makeDirectory path = .error .exists ∧ next.isDirectory path = true := by
  unfold makeDirectory at made
  cases located : t.locate path with
  | error e => rw [located] at made; cases made
  | ok place =>
      cases place with
      | directory l => rw [located] at made; cases made
      | named parent name slash =>
          rw [located] at made
          dsimp only at made
          cases found : t.get? (parent ++ [name]) with
          | some e => rw [found] at made; cases made
          | none =>
              rw [found] at made
              obtain rfl := Except.ok.inj made
              have look (l : Location) := get_set t (parent ++ [name]) l .directory (by simp)
              have again : (t.set (parent ++ [name]) .directory).locate path = .ok (.named parent name slash) := by
                refine locate_kept t _ path _ rfl (fun l there => ?_) located
                rw [look]
                split
                · rfl
                · exact there
              have there : (t.set (parent ++ [name]) .directory).get? (parent ++ [name]) = some .directory := by
                rw [look, if_pos rfl]
              constructor
              · unfold makeDirectory
                rw [again]
                dsimp only
                rw [there]
              · unfold isDirectory find
                rw [again]
                dsimp only
                rw [there]

theorem make_all_there (t : FileTree) (path : String) (outer : List String) (e : FileError)
    (refused : t.makeDirectory path = .error e) (there : t.isDirectory path = true)
    (above : e = .notFound → t.makeAll outer = (.ok (), t)) : t.makeAll (path :: outer) = (.ok (), t) := by
  rw [makeAll]
  by_cases empty : path = ""
  · rw [if_pos empty]
  · rw [if_neg empty, refused]
    by_cases missing : e = .notFound
    · subst missing
      rw [above rfl]
      dsimp only
      rw [refused]
      simp only [there, if_true]
    · cases e <;> first | exact absurd rfl missing | simp only [there, if_true]

theorem make_all_again (t : FileTree) (paths : List String) (done : (t.makeAll paths).1 = .ok ()) :
    (t.makeAll paths).2.makeAll paths = (.ok (), (t.makeAll paths).2) := by
  induction paths generalizing t with
  | nil => cases done
  | cons path outer ih =>
      have exist (next : FileTree) (made : next.makeDirectory path = .error .exists)
          (there : next.isDirectory path = true) : next.makeAll (path :: outer) = (.ok (), next) :=
        make_all_there next path outer .exists made there nofun
      have shape := Eq.refl (t.makeAll (path :: outer))
      conv at shape => rhs; rw [makeAll]
      by_cases empty : path = ""
      · rw [if_pos empty] at shape
        rw [shape]
        exact shape
      · rw [if_neg empty] at shape
        cases first : t.makeDirectory path with
        | ok next =>
            rw [first] at shape
            rw [shape]
            obtain ⟨made, there⟩ := make_directory_there t next path first
            exact exist next made there
        | error e =>
            rw [first] at shape
            by_cases missing : e = .notFound
            · subst missing
              dsimp only at shape
              have above := ih t
              generalize t.makeAll outer = answer at shape above
              obtain ⟨result, mid⟩ := answer
              cases result with
              | error e => rw [shape] at done; cases done
              | ok =>
                  dsimp only at shape
                  cases second : mid.makeDirectory path with
                  | ok next =>
                      rw [second] at shape
                      rw [shape]
                      obtain ⟨made, there⟩ := make_directory_there mid next path second
                      exact exist next made there
                  | error e =>
                      rw [second] at shape
                      dsimp only at shape
                      cases there : mid.isDirectory path with
                      | false => rw [there] at shape; rw [shape] at done; cases done
                      | true =>
                          rw [shape]
                          exact make_all_there mid path outer e second there fun _ => above rfl
            · have kept : t.makeAll (path :: outer) =
                  (if t.isDirectory path = true then .ok () else .error e, t) := by
                rw [shape]
                cases e <;> first | exact absurd rfl missing | rfl
              cases there : t.isDirectory path with
              | false => rw [kept, there] at done; cases done
              | true =>
                  rw [kept]
                  exact make_all_there t path outer e first there fun same => absurd same missing

end FileTree

theorem map_all {ε α β : Type} (f : α → Except ε β) (values : List α)
    (each : ∀ value ∈ values, ∃ result, f value = .ok result) :
    ∃ results, values.mapM f = .ok results ∧
      ∀ result, result ∈ results ↔ ∃ value ∈ values, f value = .ok result := by
  induction values with
  | nil => exact ⟨[], rfl, by simp⟩
  | cons value rest ih =>
      obtain ⟨first, there⟩ := each value List.mem_cons_self
      obtain ⟨others, done, listed⟩ := ih fun other member => each other (List.mem_cons_of_mem _ member)
      refine ⟨first :: others, ?_, ?_⟩
      · rw [List.mapM_cons, there, done]
        rfl
      · intro result
        simp [List.mem_cons, listed, there, eq_comm]

namespace Store

theorem directory_names_join (t : FileTree) (formed : t.WellFormed) (base name : String) (l : Location)
    (plain : Path.Plain name) (leads : t.way base = .ok l)
    (there : t.isDirectory (Path.join base name) = true) :
    ∃ names, directoryNames t (Path.join base name) = .ok names ∧
      ∀ child, child ∈ names ↔ t.get? (l ++ [name] ++ [child]) = some .directory := by
  obtain ⟨usable, found⟩ := (FileTree.is_directory_join t base name l plain leads).mp there
  have here : t.readDirectory (Path.join base name) = .ok (t.children (l ++ [name])) := by
    unfold FileTree.readDirectory
    rw [FileTree.find_join t base name l plain leads, if_pos usable, found]
  refine ⟨_, by rw [directoryNames, here], ?_⟩
  intro child
  rw [List.mem_mergeSort, List.mem_filterMap, ← FileTree.mem_children_iff t formed]
  constructor
  · rintro ⟨⟨other, e⟩, member, taken⟩
    by_cases directory : e = .directory
    · simp only [directory, if_true, Option.some.injEq] at taken
      exact taken ▸ directory ▸ member
    · simp [directory] at taken
  · intro member
    exact ⟨(child, .directory), member, by simp⟩

theorem directory_of_names (t : FileTree) (path : String) (names : List String)
    (listed : directoryNames t path = .ok names) : t.isDirectory path = true := by
  unfold directoryNames FileTree.readDirectory at listed
  unfold FileTree.isDirectory
  split at listed
  · cases listed
  · next read =>
      split at read
      · cases read
      · next found => rw [found]
      · cases read

section InPlace

variable (s : Store) (root : Location) (t : FileTree) (place : s.InPlace root t)
include place

theorem orphans_there (there : t.isDirectory s.indexRoot = true) (current : Option String) :
    ∃ paths, s.orphans t current = .ok paths ∧ ∀ path, path ∈ paths ↔ ∃ index,
      path = s.indexDir index ∧ t.get? (indexAt root index) = some .directory ∧ some index ≠ current := by
  obtain ⟨names, listed, inNames⟩ := directory_names_join t place.formed s.root "index" root (by decide)
    (place_way s root t place) there
  refine ⟨_, by rw [orphans, indexRoot, listed]; rfl, fun path => ?_⟩
  rw [List.mem_map]
  constructor
  · rintro ⟨index, member, rfl⟩
    obtain ⟨inList, other⟩ := List.mem_filter.mp member
    exact ⟨index, rfl, (inNames index).mp inList, of_decide_eq_true other⟩
  · rintro ⟨index, rfl, there, other⟩
    exact ⟨index, List.mem_filter.mpr ⟨(inNames index).mpr there, decide_eq_true other⟩, rfl⟩

omit place in
theorem indexes_there (current : Option String) (paths : List String)
    (listed : s.orphans t current = .ok paths) : t.isDirectory s.indexRoot = true := by
  cases names : directoryNames t s.indexRoot with
  | error e => rw [orphans, names] at listed; cases listed
  | ok names' => exact directory_of_names t _ names' names

theorem orphans_listed (current : Option String) (paths : List String)
    (listed : s.orphans t current = .ok paths) (path : String) : path ∈ paths ↔ ∃ index,
      path = s.indexDir index ∧ t.get? (indexAt root index) = some .directory ∧ some index ≠ current := by
  have there := indexes_there s t current paths listed
  obtain ⟨found, same, exactly⟩ := orphans_there s root t place there current
  obtain rfl := Except.ok.inj (same.symm.trans listed)
  exact exactly path

end InPlace

section Kept

variable (s : Store) (root : Location) (half : Option (String × Bytes)) (t : FileTree)
  (kept : s.Kept root half t)
include kept

theorem kept_source_way : t.way s.sourceRoot = .ok (root ++ ["source"]) :=
  place_source_way s root t (kept_in_place s root half t kept)

theorem kept_index_way : t.way s.indexRoot = .ok (indexesAt root) :=
  place_index_way s root t (kept_in_place s root half t kept)

theorem source_dir_way (source : String) (plain : Path.Plain source) (l : Location) :
    t.way (s.sourceDir source) = .ok l ↔ l = sourceAt root source ∧
      source.utf8ByteSize ≤ FileTree.nameLimit ∧ t.get? (sourceAt root source) = some .directory := by
  rw [source_way s root t source (kept_source_way s root half t kept) plain]
  exact FileTree.enter_plain t _ l source plain

theorem stored_of_kept (source : String) (plain : Path.Plain source) :
    ∃ found, s.stored? t source = .ok found ∧ ∀ a, found = some a ↔ ∃ key, HexText key ∧
      a = ⟨source, key, s.artifactPath source⟩ ∧
      t.read (s.versionPath source) = .ok (Bytes.ofText key) ∧
      ∃ bytes, t.read (s.artifactPath source) = .ok bytes := by
  have artifactNamed : s.artifactPath source = Path.join (s.sourceDir source) "build.complog" := rfl
  have versionNamed : s.versionPath source = Path.join (s.sourceDir source) "version" := rfl
  unfold stored? readVersionKey
  cases way : t.way (s.sourceDir source) with
  | error e =>
      have astray := FileTree.locate_astray t (s.sourceDir source) "build.complog" (by decide) e way
      have unread := FileTree.read_astray t (s.sourceDir source) "build.complog" (by decide) e way
      have missing : t.pathExists (s.artifactPath source) = false := by
        rw [artifactNamed, FileTree.pathExists, FileTree.find, astray]
        rfl
      refine ⟨none, by rw [missing]; rfl, fun a => ⟨fun none => (by cases none), ?_⟩⟩
      rintro ⟨key, -, -, -, bytes, read⟩
      rw [artifactNamed, unread] at read
      cases read
  | ok l =>
      obtain ⟨rfl, -, -⟩ := (source_dir_way s root half t kept source plain l).mp way
      have artifactRead := FileTree.read_join t (s.sourceDir source) "build.complog" _ (by decide) way
      have versionRead := FileTree.read_join t (s.sourceDir source) "version" _ (by decide) way
      have exists_iff := FileTree.path_exists_join t (s.sourceDir source) "build.complog" _ (by decide) way
      rw [← artifactNamed] at artifactRead exists_iff
      rw [← versionNamed] at versionRead
      by_cases there : t.pathExists (s.artifactPath source) = true
      · obtain ⟨usable, found⟩ := exists_iff.mp there
        have shorter := FileTree.usable_shorter (s.sourceDir source) "build.complog" "version" (by decide)
          (by decide) usable (by decide) (by decide)
        rw [if_pos usable] at artifactRead
        rw [if_pos shorter] at versionRead
        rw [if_pos there]
        rcases kept.pairs source with noVersion | ⟨bytes, stored, version, artifact, -⟩
        · rw [versionAt] at noVersion
          rw [noVersion] at versionRead
          refine ⟨none, by rw [read_trimmed_missing t _ versionRead]; rfl, fun a => ⟨fun none => (by cases none), ?_⟩⟩
          rintro ⟨key, -, -, read, -⟩
          rw [versionRead] at read
          cases read
        · rw [versionAt] at version
          rw [artifactAt] at artifact
          rw [version] at versionRead
          rw [artifact] at artifactRead
          have hex := content_key_hex bytes
          refine ⟨some ⟨source, Source.contentKey bytes, s.artifactPath source⟩,
            by rw [read_trimmed_solid t _ _ (hex_text_solid _ hex) versionRead]; rfl, fun a => ⟨?_, ?_⟩⟩
          · rintro ⟨⟩
            exact ⟨_, hex, rfl, versionRead, stored, artifactRead⟩
          · rintro ⟨key, -, rfl, read, -⟩
            rw [versionRead] at read
            rw [of_text_injective _ _ (Except.ok.inj read)]
      · rw [if_neg there]
        refine ⟨none, rfl, fun a => ⟨fun none => (by cases none), ?_⟩⟩
        rintro ⟨key, -, -, -, bytes, read⟩
        rw [artifactRead] at read
        refine absurd (exists_iff.mpr ?_) there
        by_cases usable : FileTree.Usable (s.sourceDir source) "build.complog"
        · refine ⟨usable, fun vacant => ?_⟩
          rw [if_pos usable, vacant] at read
          cases read
        · rw [if_neg usable] at read
          cases read

theorem source_name_plain (source : String) (there : t.get? (sourceAt root source) = some .directory) :
    Path.Plain source :=
  kept.formed.plain (root ++ ["source"]) source (by rw [show root ++ ["source"] ++ [source] = _ from rfl,
    show t.get? (root ++ ["source"] ++ [source]) = _ from there]; simp)

theorem load_kept (names : List String) :
    ∃ c, Coordinator.load s t names = .ok c ∧ c.store = s ∧
      ∀ source ∈ names, Path.Plain source → ∀ key, c.versionKey? source = some key ↔
        t.read (s.versionPath source) = .ok (Bytes.ofText key) ∧ HexText key ∧
          ∃ bytes, t.read (s.artifactPath source) = .ok bytes := by
  obtain ⟨dirs, listed, inDirs⟩ := directory_names_join t kept.formed s.root "source" root (by decide)
    (kept_way s root half t kept) kept.source
  obtain ⟨found, mapped, inFound⟩ := map_all (s.stored? t) dirs fun dir member =>
    (stored_of_kept s root half t kept dir
      (source_name_plain s root half t kept dir ((inDirs dir).mp member))).imp fun _ both => both.1
  have stored : s.listStored t = .ok (found.filterMap id) := by
    rw [listStored, sourceRoot, listed]
    change (dirs.mapM (s.stored? t)).map _ = _
    rw [mapped]
    rfl
  let entries := ((found.filterMap id).filter fun a => names.contains a.source).map fun a => (a.source, a)
  refine ⟨⟨s, NameMap.ofList entries⟩, by rw [Coordinator.load, stored]; rfl, rfl, ?_⟩
  have known (name : String) (a : StoredArtifact) (plain : Path.Plain name)
      (member : (name, a) ∈ entries) : ∃ key, HexText key ∧ a = ⟨name, key, s.artifactPath name⟩ ∧
        t.read (s.versionPath name) = .ok (Bytes.ofText key) ∧
        ∃ bytes, t.read (s.artifactPath name) = .ok bytes := by
    obtain ⟨other, inList, same⟩ := List.mem_map.mp member
    obtain ⟨rfl, rfl⟩ := Prod.mk.inj same
    obtain ⟨entry, inFoundList, rfl⟩ := List.mem_filterMap.mp (List.mem_filter.mp inList).1
    obtain ⟨dir, inDir, answer⟩ := (inFound _).mp inFoundList
    obtain ⟨result, again, exactly⟩ := stored_of_kept s root half t kept dir
      (source_name_plain s root half t kept dir ((inDirs dir).mp inDir))
    rw [answer] at again
    obtain ⟨key, hex, rfl, facts⟩ := (exactly other).mp (Except.ok.inj again).symm
    exact ⟨key, hex, rfl, facts⟩
  intro source named plain key
  constructor
  · intro loaded
    obtain ⟨a, there, rfl⟩ := Option.map_eq_some_iff.mp loaded
    obtain ⟨key, hex, rfl, version, artifact⟩ := known source a plain (NameMap.get_of_list _ _ _ there)
    exact ⟨version, hex, artifact⟩
  · rintro ⟨version, hex, artifact⟩
    obtain ⟨result, answer, exactly⟩ := stored_of_kept s root half t kept source plain
    have here := (exactly ⟨source, key, s.artifactPath source⟩).mpr ⟨key, hex, rfl, version, artifact⟩
    have isDir : t.get? (sourceAt root source) = some .directory := by
      cases way : t.way (s.sourceDir source) with
      | ok l => exact ((source_dir_way s root half t kept source plain l).mp way).2.2
      | error e =>
          have unread := FileTree.read_astray t (s.sourceDir source) "version" (by decide) e way
          rw [show Path.join (s.sourceDir source) "version" = s.versionPath source from rfl, version] at unread
          cases unread
    have member : (source, (⟨source, key, s.artifactPath source⟩ : StoredArtifact)) ∈ entries := by
      refine List.mem_map.mpr ⟨⟨source, key, s.artifactPath source⟩, List.mem_filter.mpr ⟨?_, ?_⟩, rfl⟩
      · exact List.mem_filterMap.mpr ⟨_, (inFound _).mpr ⟨source, (inDirs source).mpr isDir, answer⟩, here⟩
      · simpa using named
    obtain ⟨last, there⟩ := NameMap.of_list_known entries source _ member
    obtain ⟨other, -, rfl, again, -⟩ := known source last plain (NameMap.get_of_list _ _ _ there)
    rw [version] at again
    rw [of_text_injective key other (Except.ok.inj again)]
    exact congrArg (Option.map StoredArtifact.versionKey) there

theorem marker_of_kept :
    ∃ current, s.readMarker t = .ok current ∧ ∀ index, current = some index ↔ HexText index ∧
      t.get? (markerAt root) = some (.file (Bytes.ofText index)) ∧
      t.isDirectory (s.indexDir index) = true := by
  have way := kept_index_way s root half t kept
  have read := FileTree.read_join t s.indexRoot "current" _ (by decide) way
  rw [if_pos kept.fits, show Path.join s.indexRoot "current" = s.markerPath from rfl,
    index_at_append, index_at_current] at read
  rcases kept.marker with vacant | ⟨index, hex, there⟩
  · rw [vacant] at read
    refine ⟨none, by rw [readMarker, read_trimmed_missing t _ read]; rfl, fun index => ⟨nofun, ?_⟩⟩
    rintro ⟨-, found, -⟩
    rw [vacant] at found
    cases found
  · rw [there] at read
    refine ⟨(some index).filter fun name => t.isDirectory (s.indexDir name),
      by rw [readMarker, read_trimmed_solid t _ index (hex_text_solid index hex) read]; rfl, fun other => ?_⟩
    rw [Option.filter_eq_some_iff, Option.some_inj, there]
    constructor
    · rintro ⟨rfl, isDir⟩
      exact ⟨hex, rfl, isDir⟩
    · rintro ⟨-, found, isDir⟩
      have same := Entry.file.inj (Option.some.inj found)
      exact ⟨of_text_injective index other same, isDir⟩

theorem orphans_of_kept (current : Option String) :
    ∃ paths, s.orphans t current = .ok paths ∧ ∀ path, path ∈ paths ↔ ∃ index,
      path = s.indexDir index ∧ t.get? (indexAt root index) = some .directory ∧ some index ≠ current :=
  orphans_there s root t (kept_in_place s root half t kept) kept.index current

end Kept

theorem fold_give_up (d : Disk) (paths : List String) :
    paths.foldl Disk.giveUp d = { d with doomed := d.doomed ++ paths } := by
  induction paths generalizing d with
  | nil => simp
  | cons path rest ih => rw [List.foldl_cons, ih, Disk.giveUp]; simp

theorem publisher_starts (s : Store) (d : Disk) (current : Option String) (paths : List String)
    (read : s.readMarker d.files = .ok current) (listed : s.orphans d.files current = .ok paths) :
    Publisher.start s d = (.ok ⟨s, current⟩, { d with doomed := d.doomed ++ paths }) := by
  unfold Publisher.start
  rw [read]
  dsimp only
  rw [listed]
  dsimp only
  rw [fold_give_up]

theorem publisher_started (s : Store) (d : Disk) (p : Publisher) (started : (Publisher.start s d).1 = .ok p) :
    ∃ paths, s.readMarker d.files = .ok p.current ∧ s.orphans d.files p.current = .ok paths ∧ p.store = s ∧
      Publisher.start s d = (.ok p, { d with doomed := d.doomed ++ paths }) := by
  cases read : s.readMarker d.files with
  | error e =>
      unfold Publisher.start at started
      rw [read] at started
      cases started
  | ok current =>
      cases listed : s.orphans d.files current with
      | error e =>
          unfold Publisher.start at started
          rw [read] at started
          dsimp only at started
          rw [listed] at started
          cases started
      | ok paths =>
          have shape := publisher_starts s d current paths read listed
          rw [shape] at started ⊢
          obtain rfl := Except.ok.inj started
          exact ⟨paths, rfl, listed, rfl, rfl⟩

theorem publisher_start_kept (s : Store) (root : Location) (half : Option (String × Bytes)) (d : Disk)
    (kept : s.Kept root half d.files) (idle : d.doomed = []) :
    ∃ current next, Publisher.start s d = (.ok ⟨s, current⟩, next) ∧ next.files = d.files ∧
      (∀ index, current = some index ↔ HexText index ∧
        d.files.get? (markerAt root) = some (.file (Bytes.ofText index)) ∧
        d.files.isDirectory (s.indexDir index) = true) ∧
      ∀ path, path ∈ next.doomed ↔ ∃ index, path = s.indexDir index ∧
        d.files.get? (indexAt root index) = some .directory ∧ some index ≠ current := by
  obtain ⟨current, read, named⟩ := marker_of_kept s root half d.files kept
  obtain ⟨paths, listed, inPaths⟩ := orphans_of_kept s root half d.files kept current
  have started := publisher_starts s d current paths read listed
  rw [idle, List.nil_append] at started
  exact ⟨current, ⟨d.files, paths, d.fates⟩, started, rfl, named, inPaths⟩

theorem grant_idle (d : Disk) (idle : d.doomed = []) :
    d.grant.2.files = d.files ∧ d.grant.2.doomed = [] := by
  unfold Disk.grant
  generalize d.fates = fates
  induction fates with
  | nil => exact ⟨rfl, idle⟩
  | cons fate rest ih =>
      cases fate with
      | works => exact ⟨rfl, idle⟩
      | refused => exact ⟨rfl, idle⟩
      | torn kept => exact ⟨rfl, idle⟩
      | reclaims which =>
          have same : d.reclaim which = d := by simp [Disk.reclaim, idle]
          rw [Disk.grantFrom, same]
          exact ih

theorem perform_all_idle {ε : Type} (work : List (Step × ε)) (d : Disk) (t : FileTree) (files : d.files = t)
    (idle : d.doomed = []) (done : (d.performAll work).1 = .ok ()) :
    (d.performAll work).2.doomed = [] ∧
      (Disk.performAll ⟨t, [], []⟩ work).1 = .ok () ∧
      (Disk.performAll ⟨t, [], []⟩ work).2.files = (d.performAll work).2.files := by
  induction work generalizing d t with
  | nil => exact ⟨idle, rfl, files.symm⟩
  | cons step rest ih =>
      obtain ⟨s, e⟩ := step
      obtain ⟨same, still⟩ := grant_idle d idle
      rw [files] at same
      rw [Disk.performAll] at done ⊢
      rw [Disk.performAll]
      have fresh : Disk.perform ⟨t, [], []⟩ s = ((s.apply t).1, ⟨(s.apply t).2, [], []⟩) := rfl
      rcases perform_cases d s with whole | ⟨reason, refused⟩ | ⟨reason, kept, torn⟩
      · rw [same] at whole
        rw [whole] at done ⊢
        rw [fresh]
        generalize s.apply t = answer at done ⊢
        obtain ⟨result, next⟩ := answer
        cases result with
        | error reason => cases done
        | ok => exact ih _ next rfl still done
      · rw [refused] at done
        cases done
      · rw [torn] at done
        cases done

-- Once its directories are made the store is as an engine leaves it, but for one artifact perhaps.
def Opens (s : Store) (root : Location) (half : Option (String × Bytes)) (t : FileTree) : Prop :=
  ∃ next, s.init ⟨t, [], []⟩ = (.ok (), next) ∧ s.Kept root half next.files

theorem init_opens (s : Store) (root : Location) (half : Option (String × Bytes)) (t : FileTree)
    (opens : s.Opens root half t) (d : Disk) (files : d.files = t) (idle : d.doomed = [])
    (made : (s.init d).1 = .ok ()) : s.Kept root half (s.init d).2.files ∧ (s.init d).2.doomed = [] := by
  obtain ⟨next, fresh, kept⟩ := opens
  obtain ⟨still, -, same⟩ := perform_all_idle s.openWork d t files idle made
  have result : (Disk.performAll ⟨t, [], []⟩ s.openWork).2 = next := congrArg Prod.snd fresh
  rw [result] at same
  exact ⟨by rw [init, ← same]; exact kept, still⟩

theorem kept_opens (s : Store) (root : Location) (half : Option (String × Bytes)) (t : FileTree)
    (kept : s.Kept root half t) : s.Opens root half t := by
  refine ⟨⟨t, [], []⟩, ?_, kept⟩
  have way := kept_way s root half t kept
  have source := source_there s root half t kept
  have index := index_there s root half t kept
  rw [indexesAt] at index
  have madeSource := make_directories_join t s.root "source" root (by decide) way
  have madeIndex := make_directories_join t s.root "index" root (by decide) way
  rw [if_pos source.1, if_neg (by simp [source.2]), if_pos source.2] at madeSource
  rw [if_pos index.1, if_neg (by simp [index.2]), if_pos index.2] at madeIndex
  rw [← sourceRoot] at madeSource
  rw [← indexRoot] at madeIndex
  have step (path : String) (made : t.makeDirectories path = (.ok (), t)) :
      Disk.perform ⟨t, [], []⟩ (.makeDirectories path) = (.ok (), ⟨t, [], []⟩) := by
    change ((t.makeDirectories path).1, (⟨(t.makeDirectories path).2, [], []⟩ : Disk)) = _
    rw [made]
  simp only [init, openWork, Disk.performAll, step _ madeSource, step _ madeIndex]

theorem perform_directories_idle (d : Disk) (idle : d.doomed = []) (path : String) :
    let done := d.perform (.makeDirectories path)
    done.2.doomed = [] ∧
      ((done.1 = (d.files.makeDirectories path).1 ∧ done.2.files = (d.files.makeDirectories path).2) ∨
        (∃ e, done.1 = .error e) ∧ done.2.files = d.files) := by
  obtain ⟨same, still⟩ := grant_idle d idle
  intro done
  rcases perform_cases d (.makeDirectories path) with whole | ⟨e, refused⟩ | ⟨e, kept, torn⟩
  · have shape : done = ((d.files.makeDirectories path).1,
        { d.grant.2 with files := (d.files.makeDirectories path).2 }) := by
      simp only [done, whole, same, Step.makeDirectories, Step.whole]
    rw [shape]
    exact ⟨still, .inl ⟨rfl, rfl⟩⟩
  · have shape : done = (.error e, d.grant.2) := refused
    rw [shape]
    exact ⟨still, .inr ⟨⟨e, rfl⟩, same⟩⟩
  · have shape : done = (.error e, d.grant.2) := torn
    rw [shape]
    exact ⟨still, .inr ⟨⟨e, rfl⟩, same⟩⟩

theorem init_fresh (s : Store) (t : FileTree) :
    s.init ⟨t, [], []⟩ = match t.makeDirectories s.sourceRoot with
      | (.error _, mid) => (.error (.noDirectory s.sourceRoot), ⟨mid, [], []⟩)
      | (.ok (), mid) => match mid.makeDirectories s.indexRoot with
          | (.error _, last) => (.error (.noDirectory s.indexRoot), ⟨last, [], []⟩)
          | (.ok (), last) => (.ok (), ⟨last, [], []⟩) := by
  have one (t : FileTree) (path : String) : Disk.perform ⟨t, [], []⟩ (.makeDirectories path) =
      ((t.makeDirectories path).1, ⟨(t.makeDirectories path).2, [], []⟩) := rfl
  rw [init, openWork, Disk.performAll, one]
  generalize t.makeDirectories s.sourceRoot = answer
  obtain ⟨result, mid⟩ := answer
  cases result with
  | error e => rfl
  | ok =>
      dsimp only
      rw [Disk.performAll, one]
      generalize mid.makeDirectories s.indexRoot = answer
      obtain ⟨result, last⟩ := answer
      cases result <;> rfl

theorem opens_cut (s : Store) (root : Location) (half : Option (String × Bytes)) (d : Disk)
    (opens : s.Opens root half d.files) (idle : d.doomed = []) : s.Opens root half (s.init d).2.files := by
  obtain ⟨next, fresh, kept⟩ := opens
  have again := FileTree.make_all_again d.files (s.sourceRoot :: Path.ancestors s.sourceRoot)
  have whole := fresh
  rw [init_fresh] at whole
  obtain ⟨still, first⟩ := perform_directories_idle d idle s.sourceRoot
  have shape : (s.init d).2 = (d.performAll s.openWork).2 := rfl
  rw [shape, openWork, Disk.performAll]
  generalize d.perform (.makeDirectories s.sourceRoot) = answer at still first ⊢
  obtain ⟨result, mid⟩ := answer
  rcases first with ⟨made, files⟩ | ⟨⟨e, refused⟩, files⟩
  · have named : d.files.makeDirectories s.sourceRoot = (result, mid.files) := Prod.ext made.symm files.symm
    rw [named] at whole
    cases result with
    | error e => cases whole
    | ok =>
        have twice : mid.files.makeDirectories s.sourceRoot = (.ok (), mid.files) := by
          have done := again (by rw [show d.files.makeAll _ = _ from named])
          rw [show d.files.makeAll _ = _ from named] at done
          exact done
        dsimp only at whole ⊢
        obtain ⟨-, second⟩ := perform_directories_idle mid still s.indexRoot
        have left := second.imp And.right And.right
        rw [perform_all_last]
        generalize (mid.perform (.makeDirectories s.indexRoot)).2 = last at left ⊢
        generalize answer : mid.files.makeDirectories s.indexRoot = indexMade at whole left
        obtain ⟨result, after⟩ := indexMade
        cases result with
        | error e => cases whole
        | ok =>
            obtain rfl : (⟨after, [], []⟩ : Disk) = next := congrArg Prod.snd whole
            rcases left with moved | unmoved
            · rw [moved]
              exact s.kept_opens root half after kept
            · rw [unmoved]
              refine ⟨⟨after, [], []⟩, ?_, kept⟩
              rw [init_fresh, twice]
              dsimp only
              rw [answer]
  · obtain rfl : result = .error e := refused
    dsimp only at files ⊢
    rw [files]
    exact ⟨next, fresh, kept⟩

end Store
end IndexKeeper
