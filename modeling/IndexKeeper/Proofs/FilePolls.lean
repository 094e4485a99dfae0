import IndexKeeper.Proofs.OpenedStore
import IndexKeeper.Proofs.SourcePolls

set_option autoImplicit false

namespace IndexKeeper

open Store (Unkept indexesAt indexAt markerAt besideMarkerAt Indexed PairAt sourceAt versionAt artifactAt)

theorem try_file_cases (t : FileTree) (path : String) (existing : Option String) :
    (Source.tryFile t path existing = .error (.unreadable path) ∧ ∀ bytes, t.read path ≠ .ok bytes) ∨
      (Source.tryFile t path existing = .ok .unchanged ∧
        ∀ bytes, t.read path = .ok bytes → existing = some (Source.contentKey bytes)) ∨
      ∃ bytes, t.read path = .ok bytes ∧ existing ≠ some (Source.contentKey bytes) ∧
        Source.tryFile t path existing = .ok (.changed (Source.contentKey bytes) bytes) := by
  unfold Source.tryFile
  cases read : t.read path with
  | error reason =>
      by_cases missing : reason = .notFound
      · subst missing
        exact .inr (.inl ⟨rfl, nofun⟩)
      · refine .inl ⟨?_, nofun⟩
        cases reason <;> first | exact absurd rfl missing | rfl
  | ok bytes =>
      dsimp only
      by_cases known : existing = some (Source.contentKey bytes)
      · rw [if_pos known]
        refine .inr (.inl ⟨rfl, ?_⟩)
        rintro other ⟨⟩
        exact known
      · rw [if_neg known]
        exact .inr (.inr ⟨bytes, rfl, known, rfl⟩)

theorem file_changed_iff (e : Engine) (source : Source) (path : String) (file : source.kind = .filesystem path)
    (key : String) (bytes : Bytes) : (e.answer source).1 = .gives (.changed key bytes) ↔
      e.disk.files.read path = .ok bytes ∧ key = Source.contentKey bytes ∧
        e.coordinator.versionKey? source.name ≠ some key := by
  unfold Engine.answer Source.tryIngest
  rw [file]
  dsimp only
  rcases try_file_cases e.disk.files path (e.coordinator.versionKey? source.name) with
    ⟨failed, unread⟩ | ⟨idle, same⟩ | ⟨found, read, other, changed⟩
  · rw [failed]
    exact iff_of_false nofun fun there => unread bytes there.1
  · rw [idle]
    refine iff_of_false nofun ?_
    rintro ⟨there, rfl, other⟩
    exact other (same bytes there)
  · rw [changed, read]
    constructor
    · rintro ⟨⟩
      exact ⟨rfl, rfl, other⟩
    · rintro ⟨there, rfl, -⟩
      obtain rfl := Except.ok.inj there
      rfl

def Sourced (root l : Location) : Prop := root ++ ["source"] <+: l

theorem index_not_sourced (root tail : Location) : ¬ Sourced root (indexesAt root ++ tail) := by
  rintro ⟨rest, same⟩
  simp [indexesAt] at same

theorem indexed_not_sourced (root l : Location) (inside : Indexed root l) : ¬ Sourced root l := by
  obtain ⟨tail, rfl⟩ := inside
  exact index_not_sourced root tail

namespace Store

section Reads

variable (s : Store) (root : Location) (t next : FileTree) (place : s.InPlace root t) (after : s.InPlace root next)
  (source file : String) (plain : Path.Plain source) (filePlain : Path.Plain file)
  (short : file.utf8ByteSize ≤ FileTree.nameLimit)
include place after plain filePlain short

theorem source_reads_alike
    (same : ∀ tail, next.get? (sourceAt root source ++ tail) = t.get? (sourceAt root source ++ tail)) :
    next.read (Path.join (s.sourceDir source) file) = t.read (Path.join (s.sourceDir source) file) :=
  read_source_file_same s root t next place.formed (s.place_source_way root t place)
    (s.place_source_way root next after) source file plain filePlain (.inl (by simpa using same [])) (same [file])
    short

theorem source_reads_same (keep : List String) (touched : Location → Prop)
    (moves : Moves (Unkept root keep) touched t next) (apart : ∀ l, touched l → Indexed root l) :
    next.read (Path.join (s.sourceDir source) file) = t.read (Path.join (s.sourceDir source) file) := by
  refine source_reads_alike s root t next place after source file plain filePlain short fun tail => ?_
  have outside := source_at_not_indexed root source tail
  exact moves.get _ (fun inside => outside (indexed_of_unkept root keep _ inside))
    fun inside => outside (apart _ inside)

end Reads

theorem pair_reads_same (s : Store) (root : Location) (t next : FileTree) (place : s.InPlace root t)
    (after : s.InPlace root next) (source : String) (plain : Path.Plain source) (keep : List String)
    (touched : Location → Prop) (moves : Moves (Unkept root keep) touched t next)
    (apart : ∀ l, touched l → Indexed root l) :
    next.read (s.versionPath source) = t.read (s.versionPath source) ∧
      next.read (s.artifactPath source) = t.read (s.artifactPath source) :=
  have read (file : String) (filePlain : Path.Plain file) (short : file.utf8ByteSize ≤ FileTree.nameLimit) :=
    source_reads_same s root t next place after source file plain filePlain short keep touched moves apart
  ⟨read "version" (by decide) (by decide), read "build.complog" (by decide) (by decide)⟩

end Store

theorem record_steps (c : Coordinator) (root : Location) (swept : Location → Prop) (d : Disk)
    (standing : c.store.Standing root swept d) (source : String) (plain : Path.Plain source) (key : String)
    (bytes : Bytes) : c.store.Steps root swept (Sourced root) d (c.record d source key bytes).2.2 := by
  have steps := (write_artifact c.store root swept d standing source plain key bytes).1
  rw [record_disk]
  refine steps_weaken c.store root _ _ _ _ _ steps ?_
  rintro l (⟨rfl, -⟩ | ⟨file, rfl⟩)
  · exact ⟨[source], rfl⟩
  · exact ⟨[source, file], by simp [sourceAt]⟩

section Recording

variable (s : Store) (root : Location) (keep : List String)
  (current : "current" ∈ keep) (beside : "current.tmp" ∈ keep)
include current beside

theorem kept_sourced (half left : Option (String × Bytes)) (t next : FileTree) (kept : s.Kept root half t)
    (moves : Moves (Unkept root keep) (Sourced root) t next)
    (pairs : ∀ source, PairAt root left next source) : s.Kept root left next := by
  obtain ⟨marker, besideMarker⟩ := Store.marker_moves root keep current beside (Sourced root) t next moves
    fun name => index_not_sourced root [name]
  exact s.kept_moves root half t kept keep (Sourced root) next moves left pairs (marker ▸ kept.marker)
    (besideMarker ▸ kept.beside)

theorem kept_recorded (c : Coordinator) (store : c.store = s) (half : Option (String × Bytes)) (d : Disk)
    (kept : s.Kept root half d.files) (doomed : s.Doomed keep d) (source : String)
    (plain : Path.Plain source) (bytes : Bytes) :
    let done := c.record d source (Source.contentKey bytes) bytes
    s.Steps root (Unkept root keep) (Sourced root) d done.2.2 ∧
      (∀ path, done.1 = .ok path → s.Kept root half done.2.2.files) ∧
      (half = none → s.Kept root (some (source, bytes)) done.2.2.files) := by
  have standing := s.kept_standing root half d.files kept keep d rfl doomed
  obtain ⟨steps, -, pair⟩ := write_artifact s root _ d standing source plain (Source.contentKey bytes) bytes
  intro done
  subst store
  have inside : c.store.Steps root (Unkept root keep) (Sourced root) d done.2.2 :=
    record_steps c root _ d standing source plain (Source.contentKey bytes) bytes
  obtain ⟨result, next, written, disk, worked⟩ : ∃ result next,
      c.store.writeArtifact d source (Source.contentKey bytes) bytes = (result, next) ∧ done.2.2 = next ∧
        ∀ path, done.1 = .ok path → result = .ok () := by
    rcases record_cases c d source (Source.contentKey bytes) bytes with ⟨e, next, written, same⟩ |
      ⟨next, written, same⟩
    · exact ⟨_, next, written, congrArg (·.2.2) same, fun path answered => by
        rw [show done.1 = .error e from congrArg (·.1) same] at answered
        cases answered⟩
    · exact ⟨_, next, written, congrArg (·.2.2) same, fun _ _ => rfl⟩
  rw [written] at steps pair
  rw [disk] at inside ⊢
  have others (left : Option (String × Bytes)) (other : String) (apart : other ≠ source)
      (before : PairAt root left d.files other) : PairAt root left next.files other := by
    have same (file : String) : next.files.get? (sourceAt root other ++ [file]) =
        d.files.get? (sourceAt root other ++ [file]) := by
      apply steps.files.get _ (source_file_stays c.store root _ d standing other file)
      rintro (⟨dir, -⟩ | ⟨name, dir⟩)
      · simpa [sourceAt] using congrArg List.length dir
      · exact apart (source_file_injective root _ _ _ _ dir)
    exact Store.pair_same root left d.files next.files other (same "version") (same "build.complog") before
  refine ⟨inside, ?_, ?_⟩
  · intro path answered
    obtain ⟨artifact, version, -, -⟩ := pair.whole (worked path answered)
    refine kept_sourced c.store root keep current beside half half _ _ kept inside.files fun other => ?_
    by_cases here : other = source
    · subst here
      exact .inr ⟨bytes, bytes, version, artifact, .inl rfl⟩
    · exact others half other here (kept.pairs other)
  · rintro rfl
    refine kept_sourced c.store root keep current beside none _ _ _ kept inside.files fun other => ?_
    by_cases here : other = source
    · subst here
      have before := Store.pair_wider root (some (other, bytes)) _ other (kept.pairs other)
      cases result with
      | ok =>
          obtain ⟨artifact, version, -, -⟩ := pair.whole rfl
          exact .inr ⟨bytes, bytes, version, artifact, .inl rfl⟩
      | error e =>
          obtain ⟨version, artifact⟩ := pair.partly e rfl
          by_cases lost : c.store.KeyLost other e
          · rw [if_pos lost] at artifact
            rcases before with vacant | ⟨old, stored, there, -, -⟩
            · exact .inl (version.trans vacant)
            · exact .inr ⟨old, bytes, version.trans there, artifact.1, .inr rfl⟩
          · rw [if_neg lost] at artifact
            exact Store.pair_same root _ d.files next.files other version artifact before
    · exact others _ other here (Store.pair_wider root _ _ other (kept.pairs other))

end Recording

end IndexKeeper
