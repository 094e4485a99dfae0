import IndexKeeper.Proofs.RecordedPairs
import IndexKeeper.Proofs.StoredTexts

set_option autoImplicit false

namespace IndexKeeper

def markers : List String := ["current", "current.tmp"]

theorem hex_no_marker (index : String) (hex : HexText index) : index ∉ markers := by
  intro member
  simp only [markers, List.mem_cons, List.not_mem_nil, or_false] at member
  rcases member with rfl | rfl
  · exact hex_text_lacks "current" hex 'u' (by decide) (by decide)
  · exact hex_text_lacks "current.tmp" hex 'u' (by decide) (by decide)

namespace Store

def indexesAt (root : Location) : Location := root ++ ["index"]

def indexAt (root : Location) (index : String) : Location := indexesAt root ++ [index]

def markerAt (root : Location) : Location := indexAt root "current"

def besideMarkerAt (root : Location) : Location := indexAt root "current.tmp"

def Indexed (root l : Location) : Prop := indexesAt root <+: l

def Unkept (root : Location) (keep : List String) (l : Location) : Prop :=
  ∃ index, index ∉ keep ∧ indexAt root index <+: l

structure InPlace (s : Store) (root : Location) (t : FileTree) : Prop where
  formed : t.WellFormed
  reaches : t.Reaches (Indexed root) s.root root
  source : t.get? (root ++ ["source"]) = some .directory
  index : t.get? (indexesAt root) = some .directory

-- Only where a call was cut off half way may the artifact be another than that of the key.
def PairAt (root : Location) (half : Option (String × Bytes)) (t : FileTree) (source : String) : Prop :=
  t.get? (versionAt root source) = none ∨
    ∃ bytes stored, t.get? (versionAt root source) =
        some (.file (Bytes.ofText (Source.contentKey bytes))) ∧
      t.get? (artifactAt root source) = some (.file stored) ∧
      (stored = bytes ∨ half = some (source, stored))

structure Kept (s : Store) (root : Location) (half : Option (String × Bytes)) (t : FileTree) : Prop where
  formed : t.WellFormed
  reaches : t.Reaches (Indexed root) s.root root
  source : t.isDirectory s.sourceRoot = true
  index : t.isDirectory s.indexRoot = true
  fits : FileTree.Usable s.indexRoot "current"
  pairs : ∀ source, PairAt root half t source
  marker : t.get? (markerAt root) = none ∨
    ∃ index, HexText index ∧ t.get? (markerAt root) = some (.file (Bytes.ofText index))
  beside : t.get? (besideMarkerAt root) ≠ some .directory

def Doomed (s : Store) (keep : List String) (d : Disk) : Prop :=
  ∀ path ∈ d.doomed, ∃ index, Path.Plain index ∧ index ∉ keep ∧ path = s.indexDir index

theorem index_at_append (root : Location) (index : String) :
    indexesAt root ++ [index] = indexAt root index := rfl

theorem index_at_current (root : Location) : indexAt root "current" = markerAt root := rfl

theorem indexed_of_unkept (root : Location) (keep : List String) (l : Location)
    (inside : Unkept root keep l) : Indexed root l := by
  obtain ⟨index, -, below⟩ := inside
  exact (List.prefix_append (indexesAt root) [index]).trans below

theorem unkept_narrower (root : Location) (keep more : List String) (fewer : ∀ index ∈ keep, index ∈ more)
    (l : Location) (inside : Unkept root more l) : Unkept root keep l := by
  obtain ⟨index, absent, below⟩ := inside
  exact ⟨index, fun member => absent (fewer index member), below⟩

theorem indexes_stay (root : Location) (keep : List String) : ¬ Unkept root keep (indexesAt root) := by
  rintro ⟨index, -, below⟩
  have longer := below.length_le
  rw [indexAt, List.length_append, List.length_singleton] at longer
  omega

theorem index_stays (root : Location) (keep : List String) (index : String) (tail : Location)
    (kept : index ∈ keep) : ¬ Unkept root keep (indexAt root index ++ tail) := by
  rintro ⟨other, absent, below⟩
  simp only [indexAt, List.append_assoc] at below
  obtain ⟨rest, same⟩ := (List.prefix_append_right_inj _).mp below
  simp only [List.cons_append, List.nil_append, List.cons.injEq] at same
  exact absent (same.1 ▸ kept)

theorem index_dir_stays (root : Location) (keep : List String) (index : String) (kept : index ∈ keep) :
    ¬ Unkept root keep (indexAt root index) := by
  simpa using index_stays root keep index [] kept

theorem source_not_indexed (root : Location) (tail : Location) : ¬ Indexed root (root ++ "source" :: tail) :=
  source_stays root (Indexed root) (fun _ inside => inside) tail

theorem source_at_not_indexed (root : Location) (source : String) (tail : Location) :
    ¬ Indexed root (sourceAt root source ++ tail) := by
  simpa [sourceAt] using source_not_indexed root (source :: tail)

theorem root_not_indexed (root : Location) : ¬ Indexed root root :=
  root_stays root (Indexed root) fun _ inside => inside

theorem reaches_entered (t : FileTree) (path : String) (root : Location)
    (segments : Path.segments path = [path]) (entered : t.enter (t.startOf path) path = .ok root)
    (there : t.get? root = some .directory) : t.Reaches (Indexed root) path root := by
  refine ⟨?_, there⟩
  rw [segments]
  exact .step _ root root path [] entered (root_not_indexed root) (.here root)

theorem marker_not_index (root : Location) (index : String) (other : index ∉ markers) (tail : Location) :
    markerAt root ≠ indexAt root index ++ tail ∧ besideMarkerAt root ≠ indexAt root index ++ tail := by
  have apart (name : String) (listed : name ∈ markers) : indexAt root name ≠ indexAt root index ++ tail := by
    intro same
    simp only [indexAt, List.append_assoc, List.append_cancel_left_eq, List.cons_append, List.nil_append,
      List.cons.injEq] at same
    exact other (same.1 ▸ listed)
  exact ⟨apart "current" (by decide), apart "current.tmp" (by decide)⟩

theorem marker_apart (root : Location) (index : String) (other : index ∉ markers) :
    ¬ indexAt root index <+: markerAt root ∧ ¬ indexAt root index <+: besideMarkerAt root :=
  ⟨fun ⟨tail, same⟩ => (marker_not_index root index other tail).1 same.symm,
    fun ⟨tail, same⟩ => (marker_not_index root index other tail).2 same.symm⟩

theorem pair_wider (root : Location) (half : Option (String × Bytes)) (t : FileTree) (source : String)
    (pair : PairAt root none t source) : PairAt root half t source :=
  pair.imp id fun ⟨old, stored, version, artifact, same⟩ =>
    ⟨old, stored, version, artifact, .inl (same.resolve_right nofun)⟩

section InPlace

variable (s : Store) (root : Location) (t : FileTree) (place : s.InPlace root t)
include place

theorem place_way : t.way s.root = .ok root := reaches_way _ _ _ _ place.reaches

theorem place_source_way : t.way s.sourceRoot = .ok (root ++ ["source"]) :=
  source_root_way s root t (place_way s root t place) place.source

theorem place_index_reaches (swept : Location → Prop) (apart : ∀ l, swept l → Indexed root l)
    (stays : ¬ swept (indexesAt root)) : t.Reaches swept s.indexRoot (indexesAt root) :=
  reaches_join t swept s.root "index" root (reaches_narrower swept (Indexed root) t _ _ place.reaches apart)
    (by decide) (by decide) place.index stays

theorem place_index_way : t.way s.indexRoot = .ok (indexesAt root) :=
  reaches_way _ _ _ _ (place_index_reaches s root t place Nothing (fun _ none => False.elim none) id)

theorem place_standing (keep : List String) (d : Disk) (files : d.files = t) (doomed : s.Doomed keep d) :
    s.Standing root (Unkept root keep) d where
  formed := files ▸ place.formed
  reaches := files ▸ reaches_narrower _ (Indexed root) t _ _ place.reaches (indexed_of_unkept root keep)
  source := files ▸ place.source
  apart := indexed_of_unkept root keep
  doomed := by
    intro path member
    obtain ⟨index, plain, absent, same⟩ := doomed path member
    exact ⟨index, plain, same, fun l below => ⟨index, absent, by simpa [indexAt, indexesAt] using below⟩⟩

theorem place_moves (keep : List String) (touched : Location → Prop) (next : FileTree)
    (moves : Moves (Unkept root keep) touched t next) : s.InPlace root next := by
  have wide := moves_wider _ (Indexed root) touched t next moves (indexed_of_unkept root keep)
  exact {
    formed := moves.formed place.formed
    reaches := reaches_moves (Indexed root) touched t next s.root root wide (root_not_indexed root)
      place.reaches
    source := wide.directories _ (source_not_indexed root []) place.source
    index := moves.directories _ (indexes_stay root keep) place.index }

end InPlace

section Kept

variable (s : Store) (root : Location) (half : Option (String × Bytes)) (t : FileTree)
  (kept : s.Kept root half t)
include kept

theorem kept_way : t.way s.root = .ok root := reaches_way _ _ _ _ kept.reaches

theorem source_there : FileTree.Usable s.root "source" ∧ t.get? (root ++ ["source"]) = some .directory :=
  (FileTree.is_directory_join t s.root "source" root (by decide) (kept_way s root half t kept)).mp kept.source

theorem index_there : FileTree.Usable s.root "index" ∧ t.get? (indexesAt root) = some .directory :=
  (FileTree.is_directory_join t s.root "index" root (by decide) (kept_way s root half t kept)).mp kept.index

theorem kept_in_place : s.InPlace root t where
  formed := kept.formed
  reaches := kept.reaches
  source := (source_there s root half t kept).2
  index := (index_there s root half t kept).2

theorem index_root_reaches (swept : Location → Prop) (apart : ∀ l, swept l → Indexed root l)
    (stays : ¬ swept (indexesAt root)) : t.Reaches swept s.indexRoot (indexesAt root) :=
  place_index_reaches s root t (kept_in_place s root half t kept) swept apart stays

theorem kept_standing (keep : List String) (d : Disk) (files : d.files = t) (doomed : s.Doomed keep d) :
    s.Standing root (Unkept root keep) d :=
  place_standing s root t (kept_in_place s root half t kept) keep d files doomed

theorem kept_moves (keep : List String) (touched : Location → Prop) (next : FileTree)
    (moves : Moves (Unkept root keep) touched t next) (left : Option (String × Bytes))
    (pairs : ∀ source, PairAt root left next source)
    (marker : next.get? (markerAt root) = none ∨
      ∃ index, HexText index ∧ next.get? (markerAt root) = some (.file (Bytes.ofText index)))
    (beside : next.get? (besideMarkerAt root) ≠ some .directory) : s.Kept root left next := by
  have place := place_moves s root t (kept_in_place s root half t kept) keep touched next moves
  have way := place_way s root next place
  exact {
    formed := place.formed
    reaches := place.reaches
    source := (FileTree.is_directory_join next s.root "source" root (by decide) way).mpr
      ⟨(source_there s root half t kept).1, place.source⟩
    index := (FileTree.is_directory_join next s.root "index" root (by decide) way).mpr
      ⟨(index_there s root half t kept).1, place.index⟩
    fits := kept.fits
    pairs
    marker
    beside }

end Kept

theorem pair_same (root : Location) (half : Option (String × Bytes)) (t next : FileTree) (source : String)
    (version : next.get? (versionAt root source) = t.get? (versionAt root source))
    (artifact : next.get? (artifactAt root source) = t.get? (artifactAt root source))
    (pair : PairAt root half t source) : PairAt root half next source := by
  unfold PairAt
  rw [version, artifact]
  exact pair

theorem pairs_kept (root : Location) (half : Option (String × Bytes)) (t next : FileTree)
    (keep : List String) (touched : Location → Prop) (moves : Moves (Unkept root keep) touched t next)
    (apart : ∀ l, touched l → Indexed root l) (pairs : ∀ source, PairAt root half t source)
    (source : String) : PairAt root half next source := by
  have same (file : String) : next.get? (sourceAt root source ++ [file]) =
      t.get? (sourceAt root source ++ [file]) := by
    have outside := source_at_not_indexed root source [file]
    exact moves.get _ (fun inside => outside (indexed_of_unkept root keep _ inside))
      fun inside => outside (apart _ inside)
  exact pair_same root half t next source (same "version") (same "build.complog") (pairs source)

theorem marker_moves (root : Location) (keep : List String) (current : "current" ∈ keep)
    (beside : "current.tmp" ∈ keep) (touched : Location → Prop) (t next : FileTree)
    (moves : Moves (Unkept root keep) touched t next)
    (apart : ∀ name, ¬ touched (indexAt root name)) :
    next.get? (markerAt root) = t.get? (markerAt root) ∧
      next.get? (besideMarkerAt root) = t.get? (besideMarkerAt root) :=
  ⟨moves.get _ (index_dir_stays root keep "current" current) (apart "current"),
    moves.get _ (index_dir_stays root keep "current.tmp" beside) (apart "current.tmp")⟩

theorem kept_swept (s : Store) (root : Location) (half : Option (String × Bytes)) (t next : FileTree)
    (kept : s.Kept root half t) (keep : List String) (current : "current" ∈ keep)
    (beside : "current.tmp" ∈ keep) (moves : Moves (Unkept root keep) Nothing t next) :
    s.Kept root half next := by
  obtain ⟨marker, besideMarker⟩ := marker_moves root keep current beside Nothing t next moves fun _ => id
  exact s.kept_moves root half t kept keep Nothing next moves half
    (pairs_kept root half t next keep Nothing moves (fun _ none => False.elim none) kept.pairs)
    (marker ▸ kept.marker) (besideMarker ▸ kept.beside)

end Store
end IndexKeeper
