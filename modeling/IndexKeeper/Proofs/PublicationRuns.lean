import IndexKeeper.Proofs.PublishedIndex

set_option autoImplicit false

namespace IndexKeeper

open Store (Unkept Indexed indexesAt indexAt markerAt besideMarkerAt)

def IndexName (index : String) : Prop := Path.Plain index ∧ Solid index ∧ index ∉ markers

instance (index : String) : Decidable (IndexName index) := inferInstanceAs (Decidable (_ ∧ _))

theorem hex_index_name (index : String) (hex : HexText index) : IndexName index :=
  ⟨hex_text_plain index hex, hex_text_solid index hex, hex_no_marker index hex⟩

structure Marked (root : Location) (t : FileTree) : Prop where
  marker : t.get? (markerAt root) = none ∨
    ∃ index, IndexName index ∧ t.get? (markerAt root) = some (.file (Bytes.ofText index))
  beside : t.get? (besideMarkerAt root) ≠ some .directory

structure Store.Names (s : Store) (root : Location) (t : FileTree) (index : String) : Prop where
  named : IndexName index
  file : t.get? (markerAt root) = some (.file (Bytes.ofText index))
  fits : FileTree.Usable s.indexRoot "current"
  there : t.isDirectory (s.indexDir index) = true

section Marker

variable (s : Store) (root : Location) (t : FileTree) (place : s.InPlace root t)
include place

theorem read_marker_path : t.read s.markerPath =
    if FileTree.Usable s.indexRoot "current" then
      match t.get? (markerAt root) with
      | none => .error .notFound
      | some .directory => .error .isDirectory
      | some (.file bytes) => .ok bytes
    else .error (FileTree.refusal s.indexRoot "current") :=
  FileTree.read_join t s.indexRoot "current" _ (by decide) (s.place_index_way root t place)

theorem marker_fits (found : Option String) (read : s.readMarker t = .ok found) :
    FileTree.Usable s.indexRoot "current" := by
  refine Decidable.byContradiction fun astray => ?_
  have path := read_marker_path s root t place
  have other := FileTree.refusal_ne_not_found s.indexRoot "current"
  rw [if_neg astray] at path
  rw [Store.readMarker, Store.readTrimmed, Store.readBytes, path] at read
  generalize FileTree.refusal s.indexRoot "current" = e at other read
  cases e with
  | notFound => exact other rfl
  | _ => cases read

theorem marker_vacant (fits : FileTree.Usable s.indexRoot "current") (vacant : t.get? (markerAt root) = none) :
    s.readMarker t = .ok none := by
  have path := read_marker_path s root t place
  rw [if_pos fits, vacant] at path
  rw [Store.readMarker, Store.read_trimmed_missing t _ path]
  rfl

theorem marker_named (fits : FileTree.Usable s.indexRoot "current") (name : String) (named : IndexName name)
    (file : t.get? (markerAt root) = some (.file (Bytes.ofText name))) :
    s.readMarker t = .ok ((some name).filter fun name => t.isDirectory (s.indexDir name)) := by
  have path := read_marker_path s root t place
  rw [if_pos fits, file] at path
  rw [Store.readMarker, Store.read_trimmed_solid t _ name named.2.1 path]
  rfl

variable (marked : Marked root t)
include marked

theorem marker_answers (fits : FileTree.Usable s.indexRoot "current") : ∃ found, s.readMarker t = .ok found := by
  rcases marked.marker with vacant | ⟨name, named, file⟩
  · exact ⟨_, marker_vacant s root t place fits vacant⟩
  · exact ⟨_, marker_named s root t place fits name named file⟩

theorem read_marker_iff (index : String) : s.readMarker t = .ok (some index) ↔ s.Names root t index := by
  constructor
  · intro found
    have fits := marker_fits s root t place _ found
    rcases marked.marker with vacant | ⟨name, named, file⟩
    · cases (marker_vacant s root t place fits vacant).symm.trans found
    · rw [marker_named s root t place fits name named file] at found
      obtain ⟨same, there⟩ := Option.filter_eq_some_iff.mp (Except.ok.inj found)
      obtain rfl := Option.some.inj same
      exact ⟨named, file, fits, there⟩
  · rintro ⟨named, file, fits, there⟩
    rw [marker_named s root t place fits index named file, Option.filter_some, there]
    rfl

end Marker

theorem names_moved (s : Store) (root : Location) (t next : FileTree) (place : s.InPlace root t)
    (after : s.InPlace root next) (index : String)
    (marker : next.get? (markerAt root) = t.get? (markerAt root))
    (dir : t.get? (indexAt root index) = some .directory → next.get? (indexAt root index) = some .directory)
    (names : s.Names root t index) : s.Names root next index := by
  obtain ⟨named, file, fits, there⟩ := names
  obtain ⟨usable, found⟩ := (FileTree.is_directory_join t s.indexRoot index _ named.1
    (s.place_index_way root t place)).mp there
  exact ⟨named, marker.trans file, fits, (FileTree.is_directory_join next s.indexRoot index _ named.1
    (s.place_index_way root next after)).mpr ⟨usable, dir found⟩⟩

abbrev Attempts := List (String × Bool)

def Attempts.last? (attempts : Attempts) : Option String := (attempts.find? Prod.snd).map Prod.fst

def Taken (root : Location) (attempts : Attempts) (found : List FileTree) (index : String) : Prop :=
  (index, true) ∈ attempts ∨ ∃ t ∈ found, t.get? (indexAt root index) = some .directory

structure Store.Spares (s : Store) (root : Location) (taken : String → Prop) (t next : FileTree) : Prop where
  place : s.InPlace root next
  marker : next.get? (markerAt root) = t.get? (markerAt root)
  beside : next.get? (besideMarkerAt root) = t.get? (besideMarkerAt root)
  same : ∀ index tail, taken index → next.get? (indexAt root index ++ tail) = t.get? (indexAt root index ++ tail)

-- A name that is asked for is new. Between two steps, and between those of a publication, what was given up may
-- be removed in any order; when a publisher is opened again, all that is pending may be lost, or some of it.
inductive Publishing (s : Store) (root : Location) : Attempts → List FileTree → Publisher → Disk → Prop where
  | opened (p : Publisher) (d next : Disk) (place : s.InPlace root d.files) (marked : Marked root d.files)
      (idle : d.doomed = []) (started : Publisher.start s d = (.ok p, next)) :
      Publishing s root [] [d.files] p next
  | reopened (attempts : Attempts) (found : List FileTree) (p next : Publisher) (d after : Disk)
      (pending : List String) (fates : List Fate) (reached : Publishing s root attempts found p d)
      (left : ∀ path ∈ pending, path ∈ d.doomed)
      (started : Publisher.start s ⟨d.files, pending, fates⟩ = (.ok next, after)) :
      Publishing s root attempts (d.files :: found) next after
  | attempted (attempts : Attempts) (found : List FileTree) (p : Publisher) (d : Disk) (index : String)
      (reached : Publishing s root attempts found p d) (named : IndexName index)
      (unused : ∀ done, (index, done) ∉ attempts)
      (absent : ∀ t ∈ found, t.get? (indexAt root index) ≠ some .directory) :
      Publishing s root ((index, (p.publish d index).1.isOk) :: attempts) found (p.publish d index).2.1
        (p.publish d index).2.2
  | reclaimed (attempts : Attempts) (found : List FileTree) (p : Publisher) (d : Disk) (which : Nat)
      (reached : Publishing s root attempts found p d) : Publishing s root attempts found p (d.reclaim which)
  | elsewhere (attempts : Attempts) (found : List FileTree) (p : Publisher) (d next : Disk)
      (reached : Publishing s root attempts found p d) (doomed : next.doomed = d.doomed)
      (files : s.Spares root (Taken root attempts found) d.files next.files) :
      Publishing s root attempts found p next

structure Serving (s : Store) (root : Location) (attempts : Attempts) (found : List FileTree) (p : Publisher)
    (d : Disk) : Prop where
  store : p.store = s
  place : s.InPlace root d.files
  marked : Marked root d.files
  current : ∀ index, p.current = some index → s.Names root d.files index ∧ Taken root attempts found index
  doomed : s.Doomed (p.current.toList ++ markers) d
  queued : ∀ index, Path.Plain index → s.indexDir index ∈ d.doomed → Taken root attempts found index
  spared : ∀ index, s.Names root d.files index → s.indexDir index ∉ d.doomed
  only : s.OnlyKept root (fun index => p.current = some index ∨ ¬ Taken root attempts found index) d
  held : ∀ index, attempts.last? = some index → p.current = some index ∧ ∃ keys, s.Holds index keys d.files

theorem last_after_failure (attempts : Attempts) (index : String) :
    Attempts.last? ((index, false) :: attempts) = attempts.last? := rfl

theorem taken_after_failure (root : Location) (attempts : Attempts) (found : List FileTree) (index name : String) :
    Taken root ((index, false) :: attempts) found name ↔ Taken root attempts found name := by
  simp [Taken]

theorem taken_after_success (root : Location) (attempts : Attempts) (found : List FileTree) (index name : String) :
    Taken root ((index, true) :: attempts) found name ↔ name = index ∨ Taken root attempts found name := by
  simp [Taken, or_assoc]

theorem doomed_spares (s : Store) (keep : List String) (d : Disk) (doomed : s.Doomed keep d) (index : String)
    (plain : Path.Plain index) (kept : index ∈ keep) : s.indexDir index ∉ d.doomed := by
  intro member
  obtain ⟨other, otherPlain, absent, same⟩ := doomed _ member
  exact absent (Path.join_injective s.indexRoot index other plain otherPlain same ▸ kept)

theorem serving_after_failure (s : Store) (root : Location) (attempts : Attempts) (found : List FileTree)
    (p : Publisher) (d : Disk) (index : String) (serving : Serving s root attempts found p d) :
    Serving s root ((index, false) :: attempts) found p d := by
  have same := taken_after_failure root attempts found index
  exact {
    store := serving.store
    place := serving.place
    marked := serving.marked
    current := fun name current => (serving.current name current).imp id (same name).mpr
    doomed := serving.doomed
    queued := fun name plain member => (same name).mpr (serving.queued name plain member)
    spared := serving.spared
    only := fun name plain usable there => (serving.only name plain usable there).imp
      (Or.imp id fun fresh taken => fresh ((same name).mp taken)) id
    held := serving.held }

section Serving

variable (s : Store) (root : Location) (attempts : Attempts) (found : List FileTree) (p : Publisher) (d : Disk)
  (serving : Serving s root attempts found p d)
include serving

theorem serving_standing (keep : List String) (doomed : s.Doomed keep d) :
    s.Standing root (Unkept root keep) d :=
  s.place_standing root d.files serving.place keep d rfl doomed

theorem serving_reaches (keep : List String) :
    d.files.Reaches (Unkept root keep) s.indexRoot (indexesAt root) :=
  s.place_index_reaches root d.files serving.place _ (Store.indexed_of_unkept root keep)
    (Store.indexes_stay root keep)

theorem serving_steps (touched : Location → Prop) (next : Disk)
    (steps : s.Steps root (Unkept root (p.current.toList ++ markers)) touched d next)
    (apart : ∀ l, touched l → l = besideMarkerAt root)
    (beside : next.files.get? (besideMarkerAt root) = some .directory →
      d.files.get? (besideMarkerAt root) = some .directory) : Serving s root attempts found p next := by
  have stays : ¬ touched (markerAt root) := fun inside =>
    absurd (apart _ inside) (by simp [markerAt, besideMarkerAt, indexAt])
  have markerSame : next.files.get? (markerAt root) = d.files.get? (markerAt root) :=
    steps.files.get _ (Store.index_dir_stays root _ "current" (List.mem_append_right _ (by decide))) stays
  have place := s.place_moves root d.files serving.place _ touched next.files steps.files
  exact {
    store := serving.store
    place
    marked := ⟨markerSame ▸ serving.marked.marker, fun there => serving.marked.beside (beside there)⟩
    current := by
      intro index current
      obtain ⟨names, taken⟩ := serving.current index current
      exact ⟨names_moved s root _ _ serving.place place index markerSame
        (steps.files.directories _ (Store.index_dir_stays root _ index
          (List.mem_append_left _ (Option.mem_toList.mpr current)))) names, taken⟩
    doomed := doomed_steps s root d next _ touched _ serving.doomed steps
    queued := fun index plain member => serving.queued index plain (steps.doomed _ member)
    spared := by
      intro index names member
      have untouched : ¬ touched (indexAt root index) := fun inside =>
        (Store.marker_not_index root index names.named.2.2 []).2
          (by rw [List.append_nil]; exact (apart _ inside).symm)
      exact serving.spared index (names_moved s root _ _ place serving.place index markerSame.symm
        (moves_before _ touched _ _ steps.files _ _ untouched) names) (steps.doomed _ member)
    only := by
      refine s.only_kept_steps root _ touched _ d next serving.only steps fun index inside => .inr ?_
      rw [apart _ inside]
      exact fun there => serving.marked.beside (beside there)
    held := by
      intro index last
      obtain ⟨current, keys, held⟩ := serving.held index last
      have named := (serving.current index current).1.named
      exact ⟨current, keys, held_index_kept s root _ touched _ _
        (serving_reaches s root attempts found p d serving _) steps.files index named.1
        (List.mem_append_left _ (Option.mem_toList.mpr current))
        (fun tail inside => (Store.marker_not_index root index named.2.2 tail).2 (apart _ inside).symm) keys held⟩ }

theorem serving_reclaimed (which : Nat) : Serving s root attempts found p (d.reclaim which) := by
  have steps := reclaim_steps s root _ d which (serving_standing s root attempts found p d serving _ serving.doomed)
  exact serving_steps s root attempts found p d serving Nothing _ steps (fun _ none => False.elim none)
    (moves_before _ Nothing _ _ steps.files _ _ id)

theorem serving_elsewhere (next : Disk) (doomed : next.doomed = d.doomed)
    (files : s.Spares root (Taken root attempts found) d.files next.files) :
    Serving s root attempts found p next where
  store := serving.store
  place := files.place
  marked := ⟨files.marker ▸ serving.marked.marker, files.beside ▸ serving.marked.beside⟩
  current := by
    intro index current
    obtain ⟨names, taken⟩ := serving.current index current
    have same := files.same index [] taken
    rw [List.append_nil] at same
    exact ⟨names_moved s root _ _ serving.place files.place index files.marker same.trans names, taken⟩
  doomed := fun path member => serving.doomed path (doomed ▸ member)
  queued := fun index plain member => serving.queued index plain (doomed ▸ member)
  spared := by
    intro index names member
    rw [doomed] at member
    have same := files.same index [] (serving.queued index names.named.1 member)
    rw [List.append_nil] at same
    exact serving.spared index (names_moved s root _ _ files.place serving.place index files.marker.symm
      same.symm.trans names) member
  only := by
    intro index plain usable there
    by_cases taken : Taken root attempts found index
    · have same := files.same index [] taken
      rw [List.append_nil] at same
      exact doomed ▸ serving.only index plain usable (same ▸ there)
    · exact .inl (.inr taken)
  held := by
    intro index last
    obtain ⟨current, keys, held⟩ := serving.held index last
    obtain ⟨names, taken⟩ := serving.current index current
    exact ⟨current, keys, held_index_same s root d.files next.files (s.place_index_way root _ serving.place)
      (s.place_index_way root _ files.place) index names.named.1 (fun tail => files.same index tail taken) keys held⟩

theorem fresh_not_doomed (index : String) (fresh : ¬ Taken root attempts found index) :
    s.Doomed (index :: (p.current.toList ++ markers)) d := by
  intro path member
  obtain ⟨name, plain, absent, rfl⟩ := serving.doomed path member
  refine ⟨name, plain, ?_, rfl⟩
  rw [List.mem_cons, not_or]
  exact ⟨fun same => fresh (same ▸ serving.queued name plain member), absent⟩

theorem serving_marked (index : String) (named : IndexName index) (fresh : ¬ Taken root attempts found index)
    (mid : Disk) (ready : p.ready d.files index = .ok ()) (marked : s.writeMarker d index = (.ok (), mid)) :
    s.Steps root (Unkept root (index :: (p.current.toList ++ markers)))
        (fun l => l = markerAt root ∨ l = besideMarkerAt root) d mid ∧
      s.InPlace root mid.files ∧ mid.files.get? (besideMarkerAt root) ≠ some .directory ∧
      s.Names root mid.files index ∧
      ∀ name keys, IndexName name → name ∈ index :: (p.current.toList ++ markers) → s.Holds name keys d.files →
        s.Holds name keys mid.files := by
  have doomed := fresh_not_doomed s root attempts found p d serving index fresh
  have standing := serving_standing s root attempts found p d serving _ doomed
  have reaches := serving_reaches s root attempts found p d serving (index :: (p.current.toList ++ markers))
  obtain ⟨steps, written, -, beside⟩ := s.marker_steps root _ d standing reaches
    (List.mem_cons_of_mem _ (List.mem_append_right _ (by decide))) index
  rw [marked] at steps written beside
  have kept (name : String) (keys : VersionKeys) (other : IndexName name)
      (stays : name ∈ index :: (p.current.toList ++ markers)) (held : s.Holds name keys d.files) :
      s.Holds name keys mid.files := by
    refine held_index_kept s root _ _ _ _ reaches steps.files name other.1 stays ?_ keys held
    rintro tail (same | same)
    · exact (Store.marker_not_index root name other.2.2 tail).1 same.symm
    · exact (Store.marker_not_index root name other.2.2 tail).2 same.symm
  obtain ⟨keys, held⟩ := (ready_iff p d.files index).mp ready
  rw [serving.store] at held
  obtain ⟨file, fits⟩ := written rfl
  exact ⟨steps, s.place_moves root d.files serving.place _ _ mid.files steps.files,
    fun there => serving.marked.beside (beside there),
    ⟨named, file, fits, (kept index keys named List.mem_cons_self held).there⟩, kept⟩

theorem serving_published (index : String) (named : IndexName index) (fresh : ¬ Taken root attempts found index)
    (mid : Disk) (ready : p.ready d.files index = .ok ()) (marked : s.writeMarker d index = (.ok (), mid)) :
    Serving s root ((index, true) :: attempts) found (p.swap mid index).1 (p.swap mid index).2 := by
  obtain ⟨steps, place, beside, names, kept⟩ :=
    serving_marked s root attempts found p d serving index named fresh mid ready marked
  have taken := taken_after_success root attempts found index
  have doomed := doomed_steps s root d mid _ _ _ (fresh_not_doomed s root attempts found p d serving index fresh)
    steps
  have now := swap_current p mid index
  have files := swap_files p mid index
  have spares : s.Doomed ((p.swap mid index).1.current.toList ++ markers) (p.swap mid index).2 := by
    rw [now]
    have rest : s.Doomed ((some index).toList ++ markers) mid := doomed_narrower s _ _ (fun name member => by
      rcases List.mem_append.mp member with here | there
      · exact List.mem_cons.mpr (.inl (Option.some.inj (Option.mem_toList.mp here)).symm)
      · exact List.mem_cons_of_mem _ (List.mem_append_right _ there)) mid doomed
    rw [← serving.store] at rest ⊢
    refine swap_doomed p mid _ rest index fun old current other => ?_
    have oldName := (serving.current old current).1.named
    exact ⟨oldName.1, by simpa [other] using oldName.2.2⟩
  exact {
    store := (swap_store p mid index).trans serving.store
    place := files ▸ place
    marked := by
      rw [files]
      exact ⟨.inr ⟨index, named, names.file⟩, beside⟩
    current := by
      intro name current
      obtain rfl := Option.some.inj (now.symm.trans current)
      exact ⟨files ▸ names, (taken index).mpr (.inl rfl)⟩
    doomed := spares
    spared := by
      rw [files]
      rintro name ⟨-, file, -, -⟩
      obtain rfl := of_text_injective index name
        (Entry.file.inj (Option.some.inj (names.file.symm.trans file)))
      exact doomed_spares s _ _ spares index named.1 (List.mem_append_left _ (Option.mem_toList.mpr now))
    queued := by
      intro name plain member
      refine (taken name).mpr (.inr ?_)
      rcases swap_queue p mid index (s.indexDir name) member with before | ⟨old, current, same⟩
      · exact serving.queued name plain (steps.doomed _ before)
      · rw [serving.store] at same
        obtain ⟨oldNames, oldTaken⟩ := serving.current old current
        exact Path.join_injective s.indexRoot name old plain oldNames.named.1 same ▸ oldTaken
    only := by
      have only := s.only_kept_steps root _ _ (fun name => p.current = some name ∨ name = index ∨
        ¬ Taken root ((index, true) :: attempts) found name) d mid ?_ steps ?_
      · rw [← serving.store] at only ⊢
        have swapped := Store.only_kept_swap p root mid index _ only (.inl rfl)
        intro name plain usable there
        exact (swapped name plain usable there).imp (Or.imp (fun same => by rw [now, same]) id) id
      · intro name plain usable there
        refine (serving.only name plain usable there).imp (Or.imp id fun unpublished => ?_) id
        by_cases same : name = index
        · exact .inl same
        · exact .inr fun inside => ((taken name).mp inside).elim same unpublished
      · rintro name (same | same)
        · rw [same, names.file]
          exact .inr nofun
        · exact .inr (same ▸ beside)
    held := by
      intro name last
      obtain rfl : index = name := Option.some.inj last
      obtain ⟨keys, held⟩ := (ready_iff p d.files index).mp ready
      rw [serving.store] at held
      rw [now, files]
      exact ⟨rfl, keys, kept index keys named List.mem_cons_self held⟩ }

theorem serving_attempted (index : String) (named : IndexName index) (fresh : ¬ Taken root attempts found index) :
    Serving s root ((index, (p.publish d index).1.isOk) :: attempts) found (p.publish d index).2.1
      (p.publish d index).2.2 := by
  rcases publish_cases p d index with ⟨e, -, done⟩ | ⟨-, e, mid, marked, done⟩ | ⟨ready, mid, marked, done⟩
  · rw [done]
    exact serving_after_failure s root attempts found p d index serving
  · rw [done]
    refine serving_after_failure s root attempts found p mid index ?_
    obtain ⟨-, -, failed, beside⟩ := s.marker_steps root _ d
      (serving_standing s root attempts found p d serving _ serving.doomed)
      (serving_reaches s root attempts found p d serving _) (List.mem_append_right _ (by decide)) index
    rw [serving.store] at marked
    rw [marked] at failed beside
    exact serving_steps s root attempts found p d serving _ mid (failed e rfl).2 (fun _ same => same) beside
  · rw [done]
    rw [serving.store] at marked
    exact serving_published s root attempts found p d serving index named fresh mid ready marked

end Serving

theorem serving_started (s : Store) (root : Location) (attempts : Attempts) (found : List FileTree) (p : Publisher)
    (d next : Disk) (place : s.InPlace root d.files) (marked : Marked root d.files)
    (doomed : s.Doomed markers d)
    (queued : ∀ index, Path.Plain index → s.indexDir index ∈ d.doomed → Taken root attempts found index)
    (spared : ∀ index, s.Names root d.files index → s.indexDir index ∉ d.doomed)
    (started : Publisher.start s d = (.ok p, next))
    (held : ∀ index, attempts.last? = some index → s.Names root d.files index ∧ ∃ keys, s.Holds index keys d.files) :
    Serving s root attempts (d.files :: found) p next := by
  obtain ⟨paths, marker, listed, store, shape⟩ := Store.publisher_started s d p (by rw [started])
  obtain rfl : { d with doomed := d.doomed ++ paths } = next := congrArg Prod.snd (shape.symm.trans started)
  have orphans := Store.orphans_listed s root d.files place p.current paths listed
  have names (index : String) : p.current = some index ↔ s.Names root d.files index := by
    rw [← read_marker_iff s root d.files place marked index, marker, Except.ok.injEq]
  have there (index : String) (named : s.Names root d.files index) :
      d.files.get? (indexAt root index) = some .directory :=
    ((FileTree.is_directory_join d.files s.indexRoot index _ named.named.1 (s.place_index_way root _ place)).mp
      named.there).2
  have plainOf (index : String) (there : d.files.get? (indexAt root index) = some .directory) : Path.Plain index :=
    place.formed.plain (indexesAt root) index (by simp [Store.index_at_append, there])
  have here (index : String) (there : d.files.get? (indexAt root index) = some .directory) :
      Taken root attempts (d.files :: found) index := .inr ⟨d.files, List.mem_cons_self, there⟩
  have unlisted (index : String) (named : s.Names root d.files index) : s.indexDir index ∉ paths := by
    intro member
    obtain ⟨name, same, here, other⟩ := (orphans _).mp member
    obtain rfl := Path.join_injective s.indexRoot index name named.named.1 (plainOf name here) same
    exact other ((names index).mpr named).symm
  exact {
    store
    place
    marked
    current := fun index current =>
      ⟨(names index).mp current, here index (there index ((names index).mp current))⟩
    doomed := by
      intro path member
      rcases List.mem_append.mp member with before | orphan
      · obtain ⟨index, plain, other, rfl⟩ := doomed path before
        refine ⟨index, plain, ?_, rfl⟩
        rw [List.mem_append, not_or]
        exact ⟨fun current => spared index ((names index).mp (Option.mem_toList.mp current)) before, other⟩
      · obtain ⟨index, rfl, there, other⟩ := (orphans path).mp orphan
        refine ⟨index, plainOf index there, ?_, rfl⟩
        rw [List.mem_append, not_or]
        refine ⟨fun current => other (Option.mem_toList.mp current).symm, fun inside => ?_⟩
        simp only [markers, List.mem_cons, List.not_mem_nil, or_false] at inside
        rcases inside with rfl | rfl
        · rw [Store.index_at_current] at there
          rcases marked.marker with vacant | ⟨name, -, file⟩
          · rw [vacant] at there
            cases there
          · rw [file] at there
            cases there
        · exact marked.beside there
    queued := by
      intro index plain member
      rcases List.mem_append.mp member with before | orphan
      · refine (queued index plain before).imp id ?_
        rintro ⟨t, listed, there⟩
        exact ⟨t, List.mem_cons_of_mem _ listed, there⟩
      · obtain ⟨name, same, there, -⟩ := (orphans _).mp orphan
        exact here index (Path.join_injective s.indexRoot index name plain (plainOf name there) same ▸ there)
    spared := fun index named member => (List.mem_append.mp member).elim (spared index named) (unlisted index named)
    only := by
      intro index plain usable there
      by_cases current : p.current = some index
      · exact .inl (.inl current)
      · exact .inr (List.mem_append_right _ ((orphans _).mpr ⟨index, rfl, there, fun same => current same.symm⟩))
    held := by
      intro index last
      obtain ⟨named, keys, holds⟩ := held index last
      exact ⟨(names index).mpr named, keys, holds⟩ }

theorem fresh_not_taken (root : Location) (attempts : Attempts) (found : List FileTree) (index : String)
    (unused : ∀ done, (index, done) ∉ attempts)
    (absent : ∀ t ∈ found, t.get? (indexAt root index) ≠ some .directory) : ¬ Taken root attempts found index :=
  fun taken => taken.elim (unused true) fun ⟨t, listed, there⟩ => absent t listed there

theorem publishing_serving (s : Store) (root : Location) (attempts : Attempts) (found : List FileTree) (p : Publisher)
    (d : Disk) (reached : Publishing s root attempts found p d) : Serving s root attempts found p d := by
  induction reached with
  | opened p d next place marked idle started =>
      refine serving_started s root [] [] p d next place marked ?_ ?_ ?_ started nofun
      · exact fun path member => absurd (idle ▸ member) List.not_mem_nil
      · exact fun index plain member => absurd (idle ▸ member) List.not_mem_nil
      · exact fun index names member => absurd (idle ▸ member) List.not_mem_nil
  | reopened attempts found p next d after pending fates reached left started ih =>
      exact serving_started s root attempts found next ⟨d.files, pending, fates⟩ after ih.place ih.marked
        (fun path member =>
          doomed_narrower s markers _ (fun _ => List.mem_append_right _) d ih.doomed path (left path member))
        (fun index plain member => ih.queued index plain (left _ member))
        (fun index names member => ih.spared index names (left _ member)) started fun index last =>
          have held := ih.held index last
          ⟨(ih.current index held.1).1, held.2⟩
  | attempted attempts found p d index reached named unused absent ih =>
      exact serving_attempted s root attempts found p d ih index named
        (fresh_not_taken root attempts found index unused absent)
  | reclaimed attempts found p d which reached ih => exact serving_reclaimed s root attempts found p d ih which
  | elsewhere attempts found p d next reached doomed files ih =>
      exact serving_elsewhere s root attempts found p d ih next doomed files

structure Served (s : Store) (root : Location) (attempts : Attempts) (found : List FileTree) (p : Publisher)
    (d : Disk) (index : String) : Prop where
  current : p.current = some index
  marker : s.readMarker d.files = .ok (some index)
  held : ∃ keys, s.Holds index keys d.files
  spared : s.indexDir index ∉ d.doomed
  restored : ∀ pending fates, ∃ next,
    Publisher.start s ⟨d.files, pending, fates⟩ = (.ok ⟨s, some index⟩, next)
  superseded : ∀ other, Path.Plain other → d.files.isDirectory (s.indexDir other) = true →
    Taken root attempts found other → other = index ∨ s.indexDir other ∈ d.doomed
  settled : ∀ other, Path.Plain other → d.settle.files.isDirectory (s.indexDir other) = true →
    Taken root attempts found other → other = index

theorem some_last_iff (attempts : Attempts) :
    (∃ index, attempts.last? = some index) ↔ ∃ index, (index, true) ∈ attempts := by
  induction attempts with
  | nil => simp [Attempts.last?]
  | cons attempt older ih =>
      obtain ⟨index, done⟩ := attempt
      cases done with
      | true => exact ⟨fun _ => ⟨index, List.mem_cons_self⟩, fun _ => ⟨index, rfl⟩⟩
      | false =>
          rw [last_after_failure, ih]
          simp

theorem named_index_restored (s : Store) (root : Location) (t : FileTree) (place : s.InPlace root t)
    (marked : Marked root t) (index : String) (names : s.Names root t index) (pending : List String)
    (fates : List Fate) : ∃ next, Publisher.start s ⟨t, pending, fates⟩ = (.ok ⟨s, some index⟩, next) := by
  have usable := ((FileTree.is_directory_join t s.indexRoot index _ names.named.1
    (s.place_index_way root t place)).mp names.there).1
  have above : FileTree.Usable s.root "index" := usable_above s.root "index" index names.named.1 usable (by decide)
  have there : t.isDirectory s.indexRoot = true :=
    (FileTree.is_directory_join t s.root "index" root (by decide) (s.place_way root t place)).mpr
      ⟨above, place.index⟩
  obtain ⟨paths, listed, -⟩ := Store.orphans_there s root t place there (some index)
  exact ⟨_, Store.publisher_starts s ⟨t, pending, fates⟩ (some index) paths
    ((read_marker_iff s root t place marked index).mpr names) listed⟩

theorem serving_served (s : Store) (root : Location) (attempts : Attempts) (found : List FileTree) (p : Publisher)
    (d : Disk) (serving : Serving s root attempts found p d) (index : String) (last : attempts.last? = some index) :
    Served s root attempts found p d index := by
  obtain ⟨current, held⟩ := serving.held index last
  have names := (serving.current index current).1
  have standing := serving_standing s root attempts found p d serving _ serving.doomed
  have steps := settle_steps s root _ d standing
  have left (d : Disk) (place : s.InPlace root d.files)
      (only : s.OnlyKept root (fun name => p.current = some name ∨ ¬ Taken root attempts found name) d)
      (other : String) (plain : Path.Plain other) (there : d.files.isDirectory (s.indexDir other) = true)
      (taken : Taken root attempts found other) : other = index ∨ s.indexDir other ∈ d.doomed := by
    obtain ⟨usable, here⟩ := (FileTree.is_directory_join d.files s.indexRoot other _ plain
      (s.place_index_way root d.files place)).mp there
    refine (only other plain usable here).imp (fun kept => ?_) id
    rcases kept with now | fresh
    · exact Option.some.inj (now.symm.trans current)
    · exact absurd taken fresh
  constructor
  case current => exact current
  case marker => exact (read_marker_iff s root d.files serving.place serving.marked index).mpr names
  case held => exact held
  case spared =>
    exact doomed_spares s _ d serving.doomed index names.named.1
      (List.mem_append_left _ (Option.mem_toList.mpr current))
  case restored => exact named_index_restored s root d.files serving.place serving.marked index names
  case superseded => exact left d serving.place serving.only
  case settled =>
    intro other plain there taken
    have only := s.only_kept_steps root _ Nothing _ d _ serving.only steps fun _ none => False.elim none
    have place := s.place_moves root d.files serving.place _ Nothing _ steps.files
    exact (left d.settle place only other plain there taken).resolve_right (by simp [Disk.settle])

theorem published_index_is_served (s : Store) (root : Location) (attempts : Attempts) (found : List FileTree)
    (p : Publisher) (d : Disk) (reached : Publishing s root attempts found p d) :
    (∀ index, p.current = some index → s.readMarker d.files = .ok (some index)) ∧
    ((∃ index, (index, true) ∈ attempts) →
      ∃ index, attempts.last? = some index ∧ Served s root attempts found p d index) ∧
    ∀ (index : String) (mid : Disk), IndexName index → (∀ done, (index, done) ∉ attempts) →
      (∀ t ∈ found, t.get? (indexAt root index) ≠ some .directory) → p.ready d.files index = .ok () →
      s.writeMarker d index = (.ok (), mid) →
        s.readMarker mid.files = .ok (some index) ∧
          ∀ name, name = index ∨ attempts.last? = some name →
            (∃ keys, s.Holds name keys mid.files) ∧ s.indexDir name ∉ mid.doomed := by
  have serving := publishing_serving s root attempts found p d reached
  refine ⟨fun index current => ?_, ?_, ?_⟩
  · exact (read_marker_iff s root d.files serving.place serving.marked index).mpr (serving.current index current).1
  · intro succeeded
    obtain ⟨index, last⟩ := (some_last_iff attempts).mpr succeeded
    exact ⟨index, last, serving_served s root attempts found p d serving index last⟩
  · intro index mid named unused absent ready marked
    have fresh := fresh_not_taken root attempts found index unused absent
    obtain ⟨steps, place, beside, names, kept⟩ :=
      serving_marked s root attempts found p d serving index named fresh mid ready marked
    have doomed := doomed_steps s root d mid _ _ _
      (fresh_not_doomed s root attempts found p d serving index fresh) steps
    refine ⟨(read_marker_iff s root mid.files place ⟨.inr ⟨index, named, names.file⟩, beside⟩ index).mpr names, ?_⟩
    rintro name (rfl | last)
    · obtain ⟨keys, held⟩ := (ready_iff p d.files name).mp ready
      rw [serving.store] at held
      exact ⟨⟨keys, kept name keys named List.mem_cons_self held⟩,
        doomed_spares s _ mid doomed name named.1 List.mem_cons_self⟩
    · obtain ⟨current, keys, held⟩ := serving.held name last
      have older := (serving.current name current).1.named
      have stays : name ∈ index :: (p.current.toList ++ markers) :=
        List.mem_cons_of_mem _ (List.mem_append_left _ (Option.mem_toList.mpr current))
      exact ⟨⟨keys, kept name keys older stays held⟩, doomed_spares s _ mid doomed name older.1 stays⟩

namespace TwoIndexes

def store : Store := ⟨"data"⟩

def empty : FileTree :=
  ⟨[(["data"], .directory), (["data", "source"], .directory), (["data", "index"], .directory)], []⟩

def made (t : FileTree) (index : String) : FileTree :=
  (t.set (indexAt ["data"] index) .directory).set (indexAt ["data"] index ++ [".complog-index.json"])
    (.file (Manifest.render NameMap.empty))

def opened : Disk := (Publisher.start store ⟨empty, [], []⟩).2

def first : Except StoreError Unit × Publisher × Disk :=
  Publisher.publish ⟨store, none⟩ { opened with files := made opened.files "a" } "a"

def second : Except StoreError Unit × Publisher × Disk :=
  first.2.1.publish { first.2.2 with files := made first.2.2.files "b" } "b"

def attempts : Attempts := [("b", second.1.isOk), ("a", first.1.isOk)]

theorem empty_in_place : store.InPlace ["data"] empty where
  formed := FileTree.well_formed_of_entries _ (by decide) (by decide)
  reaches := Store.reaches_entered empty "data" ["data"] (by decide) (by decide) (by decide)
  source := by decide
  index := by decide

theorem made_spares (t : FileTree) (place : store.InPlace ["data"] t) (taken : String → Prop) (index : String)
    (named : IndexName index) (fresh : ¬ taken index) (absent : t.get? (indexAt ["data"] index) = none) :
    store.Spares ["data"] taken t (made t index) := by
  have directory := set_directory_moves Nothing t _ index place.index named.1
  have there := FileTree.get_set t (indexAt ["data"] index) (indexAt ["data"] index) .directory (by simp [indexAt])
  have vacant : (t.set (indexAt ["data"] index) .directory).get?
      (indexAt ["data"] index ++ [".complog-index.json"]) = none := by
    rw [FileTree.get_set _ _ _ _ (by simp [indexAt]), if_neg (fun same => by simpa using congrArg List.length same)]
    exact FileTree.nothing_below t place.formed _ _ (by simp [absent])
  have file := set_file_moves Nothing (t.set (indexAt ["data"] index) .directory) _
    ".complog-index.json" (Manifest.render NameMap.empty) (there.trans (if_pos rfl)) (by decide)
    (by simp [vacant])
  have moves : Moves Nothing (indexAt ["data"] index <+: ·) t (made t index) :=
    moves_trans _ _ _ _ _ (moves_weaken _ _ _ _ _ directory fun _ same => same ▸ List.prefix_rfl)
      (moves_weaken _ _ _ _ _ file fun _ same => same ▸ List.prefix_append _ _)
  have apart := Store.marker_apart ["data"] index named.2.2
  refine ⟨store.place_moves ["data"] t place markers _ _ (moves_wider _ _ _ _ _ moves fun _ none => False.elim none),
    moves.get _ id apart.1, moves.get _ id apart.2, fun other tail kept => moves.get _ id ?_⟩
  rintro ⟨rest, same⟩
  simp only [indexAt, List.append_assoc, List.append_cancel_left_eq, List.cons_append, List.nil_append,
    List.cons.injEq] at same
  exact fresh (same.1 ▸ kept)

theorem reached : Publishing store ["data"] attempts [empty] second.2.1 second.2.2 := by
  have start : Publisher.start store ⟨empty, [], []⟩ = (.ok ⟨store, none⟩, opened) :=
    Prod.ext (by decide +kernel) rfl
  have begun := Publishing.opened ⟨store, none⟩ _ opened empty_in_place ⟨.inl (by decide), by decide⟩ rfl start
  have unfound (index : String) : ∀ t ∈ [empty], t.get? (indexAt ["data"] index) ≠ some .directory :=
    List.forall_mem_singleton.mpr (by simp [empty, FileTree.get?, indexAt, indexesAt, List.lookup_cons])
  have step (attempts : Attempts) (p : Publisher) (d : Disk) (index : String)
      (reached : Publishing store ["data"] attempts [empty] p d) (named : IndexName index)
      (unused : ∀ done, (index, done) ∉ attempts) (absent : d.files.get? (indexAt ["data"] index) = none) :
      Publishing store ["data"]
        ((index, (p.publish { d with files := made d.files index } index).1.isOk) :: attempts) [empty]
        (p.publish { d with files := made d.files index } index).2.1
        (p.publish { d with files := made d.files index } index).2.2 := by
    have place := (publishing_serving _ _ _ _ _ _ reached).place
    have spares := made_spares d.files place (Taken ["data"] attempts [empty]) index named
      (fresh_not_taken _ _ _ index unused (unfound index)) absent
    exact .attempted attempts [empty] p _ index (.elsewhere attempts [empty] p d _ reached rfl spares) named unused
      (unfound index)
  have next := step [] ⟨store, none⟩ opened "a" begun (by decide +kernel) (by simp) (by decide +kernel)
  exact step [("a", first.1.isOk)] first.2.1 first.2.2 "b" next (by decide +kernel) (by simp) (by decide +kernel)

end TwoIndexes

open TwoIndexes in
theorem second_index_is_served :
    Publishing store ["data"] attempts [empty] second.2.1 second.2.2 ∧ attempts = [("b", true), ("a", true)] ∧
      Served store ["data"] attempts [empty] second.2.1 second.2.2 "b" ∧
      second.2.2.doomed = ["data/index/a"] := by
  have succeeded : attempts = [("b", true), ("a", true)] := by decide +kernel
  obtain ⟨index, last, served⟩ := (published_index_is_served store ["data"] attempts [empty] _ _ reached).2.1
    ⟨"b", by rw [succeeded]; exact List.mem_cons_self⟩
  rw [succeeded] at last
  obtain rfl : "b" = index := Option.some.inj last
  exact ⟨reached, succeeded, served, by decide +kernel⟩

end IndexKeeper
