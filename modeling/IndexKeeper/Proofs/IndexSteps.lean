import IndexKeeper.Generator
import IndexKeeper.Proofs.ManifestText
import IndexKeeper.Proofs.OpenedStore

set_option autoImplicit false

namespace IndexKeeper

-- A generator changes nothing but its output directory.
def Generator.Confined (g : Generator) : Prop :=
  ∀ (artifacts : List String) (base name : String) (t : FileTree) (l : Location), Path.Plain name →
    t.way base = .ok l → t.get? l = some .directory → t.WellFormed →
      (g artifacts (Path.join base name) t).2.WellFormed ∧
      (g artifacts (Path.join base name) t).2.workingDirectory = t.workingDirectory ∧
      ∀ place, ¬ l ++ [name] <+: place →
        (g artifacts (Path.join base name) t).2.get? place = t.get? place

theorem settle_first (d : Disk) (path : String) (rest : List String) (doomed : d.doomed = path :: rest) :
    d.settle = (d.reclaim 0).settle := by
  simp [Disk.settle, Disk.reclaim, doomed]

theorem settle_steps (s : Store) (root : Location) (swept : Location → Prop) (d : Disk)
    (standing : s.Standing root swept d) : s.Steps root swept Nothing d d.settle := by
  generalize queue : d.doomed = paths
  induction paths generalizing d with
  | nil =>
      have same : d.settle = d := by
        obtain ⟨files, doomed, fates⟩ := d
        obtain rfl : doomed = [] := queue
        rfl
      rw [same]
      exact steps_refl s root swept Nothing d
  | cons path rest ih =>
      rw [settle_first d path rest queue]
      have first := reclaim_steps s root swept d 0 standing
      exact steps_trans s root swept Nothing _ _ _ first
        (ih _ (standing_steps s root swept Nothing d _ standing first) (by simp [Disk.reclaim, queue]))

namespace Path

theorem join_extends (base name : String) (plain : Plain name) : ∃ more, join base name = base ++ more := by
  rcases join_cases base name plain with ⟨rfl, joined⟩ | ⟨_, _, joined⟩ | ⟨_, _, _, _, joined⟩
  · exact ⟨name, by rw [joined]; simp⟩
  · exact ⟨name, joined⟩
  · exact ⟨"/" ++ name, by rw [joined, String.append_assoc]⟩

end Path

theorem usable_of_read (t : FileTree) (base name : String) (l : Location) (plain : Path.Plain name)
    (leads : t.way base = .ok l) (bytes : Bytes) (read : t.read (Path.join base name) = .ok bytes) :
    FileTree.Usable base name := by
  by_cases usable : FileTree.Usable base name
  · exact usable
  · rw [FileTree.read_join t base name l plain leads, if_neg usable] at read
    cases read

theorem usable_above (base name tail : String) (plain : Path.Plain tail)
    (usable : FileTree.Usable (Path.join base name) tail) (short : name.utf8ByteSize ≤ FileTree.nameLimit) :
    FileTree.Usable base name := by
  obtain ⟨more, longer⟩ := Path.join_extends (Path.join base name) tail plain
  obtain ⟨zero, size, -⟩ := usable
  rw [longer, String.toList_append, List.mem_append, not_or] at zero
  rw [longer, String.utf8ByteSize_append] at size
  exact ⟨zero.1, by omega, short⟩

namespace Store

theorem read_manifest_rendered (s : Store) (index : String) (t : FileTree) (keys : VersionKeys)
    (there : t.read (s.manifestPath index) = .ok (Manifest.render keys)) :
    s.readManifest t index = .ok (some keys) := by
  have parsed := parse_rendered_manifest keys
  unfold readManifest readBytes
  generalize t.read (s.manifestPath index) = answer at there ⊢
  subst there
  generalize Manifest.render keys = bytes at parsed ⊢
  dsimp only
  generalize Manifest.parse? bytes = found at parsed ⊢
  subst parsed
  rfl

section Index

variable (s : Store) (root : Location) (keep : List String) (d : Disk)
  (standing : s.Standing root (Unkept root keep) d)
  (reaches : d.files.Reaches (Unkept root keep) s.indexRoot (indexesAt root))
  (index : String) (plain : Path.Plain index)
include standing

theorem remove_steps (absent : index ∉ keep) (plain : Path.Plain index) :
    s.Steps root (Unkept root keep) Nothing d (removeIndexDir d (s.indexDir index)).2 := by
  have granted := grant_steps s root _ d standing
  have near := standing_steps s root _ Nothing d _ standing granted
  have removed := remove_index s root (Unkept root keep) d.grant.2.files near.formed index
    (reaches_way _ _ _ _ near.reaches) plain fun l below =>
      ⟨index, absent, by simpa [indexAt, indexesAt] using below⟩
  rw [removeIndexDir, perform_all_last]
  rcases perform_cases d (.removeDirectory (s.indexDir index)) with whole | ⟨e, refused⟩ | ⟨e, kept, torn⟩
  · rw [whole]
    exact steps_after_grant _ s root d standing Nothing _ removed.1
  · rw [refused]
    exact granted
  · rw [torn]
    exact granted

include reaches

theorem generate_steps (g : Generator) (confined : g.Confined) (artifacts : List String)
    (stays : index ∈ keep) (plain : Path.Plain index) (absent : d.files.get? (indexAt root index) = none) :
    s.Steps root (Unkept root keep) (indexAt root index <+: ·) d
      (d.generate g artifacts (s.indexDir index)).2 := by
  have granted := grant_steps s root _ d standing
  have near := granted_reaches _ s root d standing s.indexRoot _ reaches (indexes_stay root keep)
  have formed := granted.files.formed standing.formed
  obtain ⟨well, here, outside⟩ := confined artifacts s.indexRoot index d.grant.2.files (indexesAt root)
    plain (reaches_way _ _ _ _ near) near.2 formed
  have still : d.grant.2.files.get? (indexAt root index) = none := by
    rw [granted.files.get _ (index_dir_stays root keep index stays) id, absent]
  have moves : Moves (Unkept root keep) (indexAt root index <+: ·) d.grant.2.files
      (g artifacts (s.indexDir index) d.grant.2.files).2 := by
    refine ⟨fun l _ apart => outside l apart, fun l apart => .inl (outside l apart), ?_, fun _ => well, here⟩
    intro l _ there
    rw [← there]
    apply outside
    -- nothing lies below a name that is not there
    rintro ⟨tail, rfl⟩
    by_cases ends : tail = []
    · subst ends
      rw [List.append_nil, index_at_append, still] at there
      cases there
    · have dir := FileTree.rooted_below _ formed _ tail ends (by rw [there]; simp)
      rw [index_at_append, still] at dir
      cases dir
  have shape : (d.generate g artifacts (s.indexDir index)).2 =
      { d.grant.2 with files := (g artifacts (s.indexDir index) d.grant.2.files).2 } ∨
      (d.generate g artifacts (s.indexDir index)).2 = d.grant.2 := by
    unfold Disk.generate
    generalize d.grant = answer
    obtain ⟨grant, next⟩ := answer
    cases grant with
    | all => exact .inl rfl
    | nothing => exact .inr rfl
    | part kept => exact .inr rfl
  rcases shape with whole | refused
  · rw [whole]
    exact steps_after_grant _ s root d standing _ _ moves
  · rw [refused]
    exact steps_weaken s root _ Nothing _ _ _ granted fun _ none => False.elim none

def WriteError (e : StoreError) : Prop := (∃ path, e = .unwritable path) ∨ ∃ path, e = .unmovable path

omit standing reaches in
theorem index_dir_way (t : FileTree) (way : t.way s.indexRoot = .ok (indexesAt root))
    (plain : Path.Plain index) (l : Location) : t.way (s.indexDir index) = .ok l ↔
      l = indexAt root index ∧ index.utf8ByteSize ≤ FileTree.nameLimit ∧
        t.get? (indexAt root index) = some .directory := by
  rw [indexDir, FileTree.way_join t s.indexRoot index plain, way]
  exact FileTree.enter_plain t (indexesAt root) l index plain

theorem replace_astray (plain : Path.Plain index) (e : FileError)
    (astray : d.files.way (s.indexDir index) = .error e) (name : String)
    (longer : Path.Plain (name ++ ".tmp")) (namePlain : Path.Plain name) (bytes : Bytes) :
    let done := d.performAll (replaceWork (Path.join (s.indexDir index) name) bytes)
    s.Steps root (Unkept root keep) Nothing d done.2 ∧
      done.1 = .error (.unwritable (temporary (Path.join (s.indexDir index) name))) := by
  intro done
  have granted := grant_steps s root _ d standing
  have near := granted_reaches _ s root d standing s.indexRoot _ reaches (indexes_stay root keep)
  have way := index_dir_way s root index d.files (reaches_way _ _ _ _ reaches) plain
  have nextWay := index_dir_way s root index d.grant.2.files (reaches_way _ _ _ _ near) plain
  have still : ∃ reason, d.grant.2.files.way (s.indexDir index) = .error reason := by
    cases found : d.grant.2.files.way (s.indexDir index) with
    | error reason => exact ⟨reason, rfl⟩
    | ok l =>
        obtain ⟨rfl, short, there⟩ := (nextWay l).mp found
        have reached := (way _).mpr ⟨rfl, short, moves_before _ Nothing _ _ granted.files _ _ id there⟩
        rw [astray] at reached
        cases reached
  obtain ⟨reason, still⟩ := still
  have unwritten (part : Bytes) : ∃ error, d.grant.2.files.write
      (Path.join (s.indexDir index) (name ++ ".tmp")) part = .error error := by
    refine ⟨FileTree.strayed (s.indexDir index) (name ++ ".tmp") reason, ?_⟩
    rw [FileTree.write, FileTree.fileLocation, FileTree.locate_astray _ _ _ longer reason still]
    rfl
  have failed : ∃ error, d.perform (.write (temporary (Path.join (s.indexDir index) name)) bytes) =
      (.error error, d.grant.2) := by
    rw [temporary_join _ name namePlain longer]
    rcases perform_cases d (.write (Path.join (s.indexDir index) (name ++ ".tmp")) bytes) with
      whole | ⟨error, refused⟩ | ⟨error, upTo, torn⟩
    · obtain ⟨error, lost⟩ := unwritten bytes
      exact ⟨error, by rw [whole]; simp only [Step.write, Step.total, lost]⟩
    · exact ⟨error, refused⟩
    · obtain ⟨other, lost⟩ := unwritten (bytes.take upTo)
      exact ⟨error, by rw [torn]; simp only [Step.write, Step.total, lost]⟩
  obtain ⟨error, failed⟩ := failed
  have shape : done = (.error (.unwritable (temporary (Path.join (s.indexDir index) name))), d.grant.2) := by
    simp only [done, replaceWork, Disk.performAll, failed]
  rw [shape]
  exact ⟨granted, rfl⟩

theorem manifest_steps (stays : index ∈ keep) (plain : Path.Plain index) (keys : VersionKeys) :
    let done := s.writeManifest d index keys
    s.Steps root (Unkept root keep) (indexAt root index <+: ·) d done.2 ∧
      (done.1 = .ok () → done.2.files.get? (indexAt root index) = some .directory ∧
        done.2.files.isDirectory (s.indexDir index) = true ∧
        s.readManifest done.2.files index = .ok (some keys)) ∧
      ∀ e, done.1 = .error e → WriteError e := by
  intro done
  have shape : done = d.performAll (replaceWork (Path.join (s.indexDir index) ".complog-index.json")
    (Manifest.render keys)) := rfl
  have way := index_dir_way s root index d.files (reaches_way _ _ _ _ reaches) plain
  cases found : d.files.way (s.indexDir index) with
  | error e =>
      obtain ⟨steps, failed⟩ := replace_astray s root keep d standing reaches index plain e found
        ".complog-index.json" (by decide) (by decide) (Manifest.render keys)
      rw [shape]
      refine ⟨steps_weaken s root _ Nothing _ _ _ steps fun _ none => False.elim none, ?_, ?_⟩
      · intro worked
        rw [failed] at worked
        cases worked
      · intro other error
        rw [failed] at error
        cases error
        exact .inl ⟨_, rfl⟩
  | ok l =>
      obtain ⟨rfl, short, there⟩ := (way l).mp found
      have place (file : String) : ¬ Unkept root keep (indexAt root index ++ [file]) :=
        index_stays root keep index [file] stays
      have dirStays := index_dir_stays root keep index stays
      have inside : d.files.Reaches (Unkept root keep) (s.indexDir index) (indexAt root index) :=
        reaches_join d.files _ s.indexRoot index _ reaches plain short there dirStays
      obtain ⟨moved, placed, failed, -⟩ := replace_file _ s root d standing (s.indexDir index)
        ".complog-index.json" _ (Manifest.render keys) inside dirStays (by decide) (by decide) (place _)
      rw [shape]
      refine ⟨steps_weaken s root _ _ _ _ _ moved ?_, ?_, ?_⟩
      · rintro l (rfl | rfl)
        · exact List.prefix_append _ _
        · exact List.prefix_append _ _
      · intro worked
        obtain ⟨-, read⟩ := placed worked
        have after := reaches_moves _ _ _ _ _ _ moved.files dirStays inside
        have indexes := reaches_moves _ _ _ _ _ _ moved.files (indexes_stay root keep) reaches
        have usable := usable_of_read _ _ ".complog-index.json" _ (by decide) (reaches_way _ _ _ _ after) _ read
        refine ⟨after.2, ?_, ?_⟩
        · exact (FileTree.is_directory_join _ s.indexRoot index _ plain (reaches_way _ _ _ _ indexes)).mpr
            ⟨usable_above s.indexRoot index ".complog-index.json" (by decide) usable short, after.2⟩
        · exact read_manifest_rendered s index _ keys read
      · intro e error
        rcases (failed e error).1 with unwritten | unmoved
        · exact .inl ⟨_, unwritten⟩
        · exact .inr ⟨_, unmoved⟩

theorem marker_steps (listed : "current.tmp" ∈ keep) (name : String) :
    let done := s.writeMarker d name
    s.Steps root (Unkept root keep) (fun l => l = markerAt root ∨ l = besideMarkerAt root) d done.2 ∧
      (done.1 = .ok () → done.2.files.get? (markerAt root) = some (.file (Bytes.ofText name)) ∧
        FileTree.Usable s.indexRoot "current") ∧
      (∀ e, done.1 = .error e → WriteError e ∧
        s.Steps root (Unkept root keep) (· = besideMarkerAt root) d done.2) ∧
      (done.2.files.get? (besideMarkerAt root) = some .directory →
        d.files.get? (besideMarkerAt root) = some .directory) := by
  intro done
  have beside := index_dir_stays root keep "current.tmp" listed
  obtain ⟨moved, placed, failed, noDirectory⟩ := replace_file _ s root d standing s.indexRoot "current" _
    (Bytes.ofText name) reaches (indexes_stay root keep) (by decide) (by decide) beside
  refine ⟨moved, fun worked => ?_, fun e error => ⟨?_, (failed e error).2⟩, noDirectory⟩
  · obtain ⟨there, read⟩ := placed worked
    have after := reaches_moves _ _ _ _ _ _ moved.files (indexes_stay root keep) reaches
    exact ⟨there, usable_of_read _ _ "current" _ (by decide) (reaches_way _ _ _ _ after) _ read⟩
  · rcases (failed e error).1 with unwritten | unmoved
    · exact .inl ⟨_, unwritten⟩
    · exact .inr ⟨_, unmoved⟩

end Index

end Store
end IndexKeeper
