import IndexKeeper.CommandGenerator
import IndexKeeper.Proofs.RecordedPairs

set_option autoImplicit false

namespace IndexKeeper

namespace FileTree

def seenFrom (t : FileTree) (l : Location) : FileTree := { t with workingDirectory := l }

theorem enter_all_seen (t : FileTree) (here l : Location) (names : List String) :
    (t.seenFrom here).enterAll l names = t.enterAll l names := by
  induction names generalizing l with
  | nil => rfl
  | cons name rest ih =>
      have entered : (t.seenFrom here).enter l name = t.enter l name := rfl
      rw [enterAll, enterAll, entered]
      cases t.enter l name with
      | error e => rfl
      | ok next => exact ih next

theorem way_seen_absolute (t : FileTree) (here : Location) (path : String)
    (absolute : Path.isAbsolute path = true) : (t.seenFrom here).way path = t.way path := by
  unfold way startOf
  rw [if_pos absolute, if_pos absolute, enter_all_seen]

def Place.IsDirectory (t : FileTree) (place : Place) (l : Location) : Prop :=
  place = .directory l ∨ ∃ parent name slash, place = .named parent name slash ∧ l = parent ++ [name] ∧
    t.get? l = some .directory

theorem find_directory (t : FileTree) (path : String) (l : Location)
    (found : t.find path = .ok (l, .directory)) :
    ∃ place, t.locate path = .ok place ∧ place.IsDirectory t l := by
  unfold find at found
  cases located : t.locate path with
  | error e => rw [located] at found; cases found
  | ok place =>
      rw [located] at found
      refine ⟨place, rfl, ?_⟩
      cases place with
      | directory other =>
          obtain ⟨rfl, -⟩ := Prod.mk.inj (Except.ok.inj found)
          exact .inl rfl
      | named parent name slash =>
          dsimp only at found
          cases entry : t.get? (parent ++ [name]) with
          | none => rw [entry] at found; cases found
          | some e =>
              rw [entry] at found
              cases e with
              | directory =>
                  obtain ⟨rfl, -⟩ := Prod.mk.inj (Except.ok.inj found)
                  exact .inr ⟨parent, name, slash, rfl, rfl, entry⟩
              | file bytes =>
                  dsimp only at found
                  split at found <;> cases found

theorem enter_walked (t : FileTree) (slash : Bool) (parent l : Location) (name : String) (place : Place)
    (walked : t.walk slash parent [name] = .ok place) (directory : place.IsDirectory t l) :
    t.enter parent name = .ok l := by
  rw [walk] at walked
  by_cases dots : name = "." ∨ name = ".."
  · rw [if_pos dots] at walked
    cases entered : t.enter parent name with
    | error e => rw [entered] at walked; cases walked
    | ok next =>
        rw [entered] at walked
        obtain rfl := Except.ok.inj walked
        obtain same | ⟨_, _, _, other, -⟩ := directory
        · exact congrArg Except.ok (Place.directory.inj same)
        · cases other
  · rw [if_neg dots] at walked
    rw [not_or] at dots
    by_cases long : nameLimit < name.utf8ByteSize
    · rw [if_pos long] at walked
      cases walked
    · rw [if_neg long] at walked
      obtain rfl := Except.ok.inj walked
      obtain other | ⟨_, _, _, same, rfl, there⟩ := directory
      · cases other
      · obtain ⟨rfl, rfl, -⟩ := Place.named.inj same
        unfold enter
        rw [if_neg dots.1, if_neg dots.2, if_neg long, there]

theorem walk_of_locate (t : FileTree) (path : String) (place : Place) (located : t.locate path = .ok place) :
    t.walk (Path.endsWithSlash path) (t.startOf path) (Path.segments path) = .ok place := by
  unfold locate at located
  split at located
  · cases located
  · split at located
    · cases located
    · split at located
      · cases located
      · exact located

theorem way_of_find (t : FileTree) (path : String) (l : Location)
    (found : t.find path = .ok (l, .directory)) : t.way path = .ok l := by
  obtain ⟨place, located, directory⟩ := t.find_directory path l found
  have walked := t.walk_of_locate path place located
  unfold way
  rcases List.eq_nil_or_concat (Path.segments path) with none | ⟨front, name, split⟩
  · rw [none] at walked ⊢
    obtain rfl := Except.ok.inj walked
    obtain same | ⟨_, _, _, other, -⟩ := directory
    · exact congrArg Except.ok (Place.directory.inj same)
    · cases other
  · rw [split, List.concat_eq_append, walk_append] at walked
    rw [split, List.concat_eq_append, enter_all_append]
    cases reached : t.enterAll (t.startOf path) front with
    | error e => rw [reached] at walked; cases walked
    | ok parent =>
        rw [reached] at walked
        exact t.enter_walked _ parent l name place walked directory

theorem way_join_ok (t : FileTree) (base name : String) (plain : Path.Plain name) (l : Location)
    (leads : t.way (Path.join base name) = .ok l) : ∃ parent, t.way base = .ok parent ∧ l = parent ++ [name] := by
  rw [way_join t base name plain] at leads
  cases reached : t.way base with
  | error e => rw [reached] at leads; cases leads
  | ok parent =>
      rw [reached] at leads
      exact ⟨parent, rfl, ((enter_plain t parent l name plain).mp leads).1⟩

theorem locate_join_ok (t : FileTree) (base name : String) (plain : Path.Plain name) (place : Place)
    (located : t.locate (Path.join base name) = .ok place) :
    ∃ parent, t.way base = .ok parent ∧ place = .named parent name false := by
  cases leads : t.way base with
  | error e => rw [locate_astray t base name plain e leads] at located; cases located
  | ok parent =>
      rw [locate_join t base name parent plain leads] at located
      split at located
      · exact ⟨parent, rfl, (Except.ok.inj located).symm⟩
      · cases located

theorem locate_join_same (t other : FileTree) (base name : String) (plain : Path.Plain name)
    (same : other.way base = t.way base) :
    other.locate (Path.join base name) = t.locate (Path.join base name) := by
  cases leads : t.way base with
  | error e => rw [locate_astray t base name plain e leads, locate_astray other base name plain e (same.trans leads)]
  | ok l => rw [locate_join t base name l plain leads, locate_join other base name l plain (same.trans leads)]

theorem way_seen_join (t : FileTree) (here : Location) (base name : String) (plain : Path.Plain name)
    (same : (t.seenFrom here).way base = t.way base) :
    (t.seenFrom here).way (Path.join base name) = t.way (Path.join base name) := by
  rw [way_join _ base name plain, way_join t base name plain, same]
  rfl

end FileTree

section Seen

variable (s : Store) (t : FileTree) (l : Location) (starts : t.find s.root = .ok (l, .directory))
include starts

theorem artifact_seen_iff (source : String) (plain : Path.Plain source) (place : FileTree.Place)
    (located : t.locate (s.artifactPath source) = .ok place) :
    (t.seenFrom l).locate (s.artifactPath source) = t.locate (s.artifactPath source) ↔
      (t.seenFrom l).way s.root = .ok l := by
  have leads := t.way_of_find s.root l starts
  constructor
  · intro same
    obtain ⟨dir, toDir, rfl⟩ := t.locate_join_ok (s.sourceDir source) "build.complog" (by decide) place located
    obtain ⟨all, toAll, rfl⟩ := t.way_join_ok s.sourceRoot source plain dir toDir
    obtain ⟨root, toRoot, rfl⟩ := t.way_join_ok s.root "source" (by decide) all toAll
    obtain rfl := Except.ok.inj (leads.symm.trans toRoot)
    obtain ⟨seenDir, seenToDir, samePlace⟩ := (t.seenFrom l).locate_join_ok (s.sourceDir source) "build.complog"
      (by decide) _ (same.trans located)
    obtain ⟨rfl, -⟩ := FileTree.Place.named.inj samePlace
    obtain ⟨seenAll, seenToAll, sameAll⟩ := (t.seenFrom l).way_join_ok s.sourceRoot source plain _ seenToDir
    obtain rfl := List.append_cancel_right sameAll
    obtain ⟨seenRoot, seenToRoot, sameRoot⟩ := (t.seenFrom l).way_join_ok s.root "source" (by decide) _ seenToAll
    obtain rfl := List.append_cancel_right sameRoot
    exact seenToRoot
  · intro back
    exact t.locate_join_same (t.seenFrom l) (s.sourceDir source) "build.complog" (by decide)
      (t.way_seen_join l s.sourceRoot source plain
        (t.way_seen_join l s.root "source" (by decide) (back.trans leads.symm)))

theorem index_seen_iff (index : String) (plain : Path.Plain index) (place : FileTree.Place)
    (located : t.locate (s.indexDir index) = .ok place) :
    (t.seenFrom l).locate (s.indexDir index) = t.locate (s.indexDir index) ↔
      (t.seenFrom l).way s.root = .ok l := by
  have leads := t.way_of_find s.root l starts
  constructor
  · intro same
    obtain ⟨all, toAll, rfl⟩ := t.locate_join_ok s.indexRoot index plain place located
    obtain ⟨root, toRoot, rfl⟩ := t.way_join_ok s.root "index" (by decide) all toAll
    obtain rfl := Except.ok.inj (leads.symm.trans toRoot)
    obtain ⟨seenAll, seenToAll, samePlace⟩ := (t.seenFrom l).locate_join_ok s.indexRoot index plain _
      (same.trans located)
    obtain ⟨rfl, -⟩ := FileTree.Place.named.inj samePlace
    obtain ⟨seenRoot, seenToRoot, sameRoot⟩ := (t.seenFrom l).way_join_ok s.root "index" (by decide) _ seenToAll
    obtain rfl := List.append_cancel_right sameRoot
    exact seenToRoot
  · intro back
    exact t.locate_join_same (t.seenFrom l) s.indexRoot index plain
      (t.way_seen_join l s.root "index" (by decide) (back.trans leads.symm))

end Seen

-- The arguments are those of the configuration, and each path names what it names to the process itself.
def GeneratorSettings.SeesStore (g : GeneratorSettings) (s : Store) (t : FileTree) (here : Location)
    (sources : List String) (index : String) : Prop :=
  ∃ (paths : List String) (out : String),
    g.commandLine (sources.map s.artifactPath) (s.indexDir index) = g.args ++ paths ++ ["/out:" ++ out] ∧
    (paths.map fun path => (t.seenFrom here).locate path) =
      (sources.map fun source => t.locate (s.artifactPath source)) ∧
    (t.seenFrom here).locate out = t.locate (s.indexDir index)

theorem sees_store_iff (g : GeneratorSettings) (s : Store) (t : FileTree) (here : Location)
    (sources : List String) (index : String) : g.SeesStore s t here sources index ↔
      (∀ source ∈ sources, (t.seenFrom here).locate (s.artifactPath source) = t.locate (s.artifactPath source)) ∧
        (t.seenFrom here).locate (s.indexDir index) = t.locate (s.indexDir index) := by
  constructor
  · rintro ⟨paths, out, line, artifacts, output⟩
    have length : paths.length = sources.length := by simpa using congrArg List.length artifacts
    unfold GeneratorSettings.commandLine at line
    rw [List.append_assoc, List.append_assoc, List.append_cancel_left_eq] at line
    obtain ⟨rfl, last⟩ := List.append_inj line (by rw [List.length_map, length])
    obtain rfl : s.indexDir index = out := by simpa using last
    rw [List.map_map] at artifacts
    exact ⟨fun source member => List.map_inj_left.mp artifacts source member, output⟩
  · rintro ⟨artifacts, output⟩
    refine ⟨sources.map s.artifactPath, s.indexDir index, rfl, ?_, output⟩
    rw [List.map_map]
    exact List.map_inj_left.mpr artifacts

theorem command_sees_store_iff (g : GeneratorSettings) (s : Store) (t : FileTree) (l : Location)
    (sources : List String) (index : String) (starts : t.find s.root = .ok (l, .directory))
    (named : ∀ source ∈ sources, Config.checkName source = .ok ())
    (stored : ∀ source ∈ sources, t.pathExists (s.artifactPath source) = true)
    (plain : Path.Plain index) (place : FileTree.Place) (placed : t.locate (s.indexDir index) = .ok place) :
    (∀ run, inDirectory? t s.root run = (run (t.seenFrom l)).map fun done =>
        { done with files := done.files.seenFrom t.workingDirectory }) ∧
      (g.SeesStore s t l sources index ↔
        Path.isAbsolute s.root = true ∨ (t.seenFrom l).way s.root = .ok l) := by
  constructor
  · intro run
    unfold inDirectory?
    rw [starts]
    rfl
  · rw [sees_store_iff, index_seen_iff s t l starts index plain place placed]
    constructor
    · exact fun seen => .inr seen.2
    · intro back
      have back : (t.seenFrom l).way s.root = .ok l := by
        rcases back with absolute | back
        · rw [t.way_seen_absolute l s.root absolute, t.way_of_find s.root l starts]
        · exact back
      refine ⟨fun source member => ?_, back⟩
      have plainSource := plain_of_check_name source (named source member)
      cases located : t.locate (s.artifactPath source) with
      | error e =>
          have found := stored source member
          rw [FileTree.pathExists, FileTree.find, located] at found
          cases found
      | ok place => exact located ▸ (artifact_seen_iff s t l starts source plainSource place located).mpr back

namespace RelativeRoot

def files : FileTree :=
  ⟨[(["data"], .directory), (["data", "source"], .directory), (["data", "index"], .directory),
    (["data", "source", "a"], .directory),
    (["data", "source", "a", "build.complog"], .file (Bytes.ofText "abc"))], []⟩

def settings : GeneratorSettings := ⟨"cat", []⟩

end RelativeRoot

open RelativeRoot in
theorem absolute_root_seen :
    files.find "/data" = .ok (["data"], .directory) ∧ settings.SeesStore ⟨"/data"⟩ files ["data"] ["a"] "i" := by
  have starts : files.find "/data" = .ok (["data"], .directory) := by decide +kernel
  have seen := command_sees_store_iff settings ⟨"/data"⟩ files ["data"] ["a"] "i" starts
    (List.forall_mem_singleton.mpr (by decide +kernel)) (List.forall_mem_singleton.mpr (by decide +kernel))
    (by decide +kernel) (.named ["data", "index"] "i" false) (by decide +kernel)
  exact ⟨starts, seen.2.mpr (.inl (by decide +kernel))⟩

open RelativeRoot in
theorem relative_root_not_seen :
    files.find "./data" = .ok (["data"], .directory) ∧
      files.find ((⟨"./data"⟩ : Store).artifactPath "a") =
        .ok (["data", "source", "a", "build.complog"], .file (Bytes.ofText "abc")) ∧
      (files.seenFrom ["data"]).find ((⟨"./data"⟩ : Store).artifactPath "a") = .error .notFound ∧
      files.locate ((⟨"./data"⟩ : Store).indexDir "i") = .ok (.named ["data", "index"] "i" false) ∧
      (files.seenFrom ["data"]).locate ((⟨"./data"⟩ : Store).indexDir "i") = .error .notFound ∧
      ¬ settings.SeesStore ⟨"./data"⟩ files ["data"] ["a"] "i" := by
  refine ⟨by decide +kernel, by decide +kernel, by decide +kernel, by decide +kernel, by decide +kernel, ?_⟩
  rw [sees_store_iff]
  rintro ⟨-, output⟩
  revert output
  decide +kernel

end IndexKeeper
