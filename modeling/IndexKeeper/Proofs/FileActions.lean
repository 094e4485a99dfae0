import IndexKeeper.Proofs.RecordedPairs

set_option autoImplicit false

namespace IndexKeeper

open Store (sourceAt artifactAt versionAt)

inductive FileAction where
  | makeDirectories (path : String)
  | truncate (path : String)
  | append (path : String) (bytes : Bytes)
  | rename (source target : String)

namespace FileAction

def apply (t : FileTree) : FileAction → Except FileError FileTree
  | .makeDirectories path => match t.makeDirectories path with
      | (.ok (), next) => .ok next
      | (.error e, _) => .error e
  | .truncate path => t.write path []
  | .append path bytes => t.append path bytes
  | .rename source target => t.rename source target

def replacing (path : String) (bytes : Bytes) : List FileAction :=
  [.truncate (Store.temporary path), .append (Store.temporary path) bytes, .rename (Store.temporary path) path]

def storing (s : Store) (call : Call) : List FileAction :=
  .makeDirectories (s.sourceDir call.source) ::
    (replacing (s.artifactPath call.source) call.bytes ++
      replacing (s.versionPath call.source) (Bytes.ofText call.key))

def applyAll (t : FileTree) : List FileAction → Except FileError FileTree
  | [] => .ok t
  | action :: rest => (action.apply t).bind fun next => applyAll next rest

-- The next action is taken whole, or only the first part of what it is to write.
inductive Takes : List FileAction → FileAction → List FileAction → Prop where
  | whole (action : FileAction) (rest : List FileAction) : Takes (action :: rest) action rest
  | part (path : String) (first more : Bytes) (rest : List FileAction) :
      Takes (.append path (first ++ more) :: rest) (.append path first) (.append path more :: rest)

end FileAction

namespace FileTree

theorem set_set (t : FileTree) (l : Location) (e last : Entry) : (t.set l e).set l last = t.set l last := by
  simp [set, List.filter_filter]

section Join

variable (t : FileTree) (base name : String) (l : Location) (plain : Path.Plain name) (leads : t.way base = .ok l)
include plain leads

theorem write_join (bytes : Bytes) : t.write (Path.join base name) bytes =
    if Usable base name then
      if t.get? (l ++ [name]) = some .directory then .error .isDirectory
      else .ok (t.set (l ++ [name]) (.file bytes))
    else .error (refusal base name) := by
  rw [write, file_location_join t base name l plain leads]
  split
  · split <;> rfl
  · rfl

theorem append_join (old part : Bytes) (held : t.get? (l ++ [name]) = some (.file old)) :
    t.append (Path.join base name) part =
      if Usable base name then .ok (t.set (l ++ [name]) (.file (old ++ part)))
      else .error (refusal base name) := by
  have noDirectory : t.get? (l ++ [name]) ≠ some .directory := by rw [held]; nofun
  rw [append, file_location_join t base name l plain leads, if_neg noDirectory]
  split
  · simp only [Except.map, held]
  · rfl

end Join

variable (t : FileTree) (base name : String) (l : Location) (reaches : t.Reaches Nothing base l)
  (plain : Path.Plain name)
include reaches plain

theorem append_parts (old first more : Bytes) (held : t.get? (l ++ [name]) = some (.file old)) :
    t.append (Path.join base name) (first ++ more) =
      (t.append (Path.join base name) first).bind fun next => next.append (Path.join base name) more := by
  have leads := reaches_way _ _ _ _ reaches
  rw [append_join t base name l plain leads old _ held, append_join t base name l plain leads old _ held]
  by_cases usable : Usable base name
  · have moves := set_file_moves Nothing t l name (old ++ first) reaches.2 plain (by rw [held]; nofun)
    have next := reaches_way _ _ _ _ (reaches_moves Nothing _ _ _ base l moves id reaches)
    rw [if_pos usable, if_pos usable]
    change _ = append _ _ _
    rw [append_join _ base name l plain next (old ++ first) more (by rw [get_set _ _ _ _ (by simp), if_pos rfl]),
      if_pos usable, set_set, List.append_assoc]
  · rw [if_neg usable, if_neg usable]
    rfl

theorem write_parts (bytes : Bytes) : t.write (Path.join base name) bytes =
    (t.write (Path.join base name) []).bind fun next => next.append (Path.join base name) bytes := by
  have leads := reaches_way _ _ _ _ reaches
  rw [write_join t base name l plain leads, write_join t base name l plain leads]
  by_cases usable : Usable base name
  · rw [if_pos usable, if_pos usable]
    by_cases directory : t.get? (l ++ [name]) = some .directory
    · rw [if_pos directory, if_pos directory]
      rfl
    · have moves := set_file_moves Nothing t l name [] reaches.2 plain directory
      have next := reaches_way _ _ _ _ (reaches_moves Nothing _ _ _ base l moves id reaches)
      rw [if_neg directory, if_neg directory]
      change _ = append _ _ _
      rw [append_join _ base name l plain next [] bytes (by rw [get_set _ _ _ _ (by simp), if_pos rfl]),
        if_pos usable, set_set, List.nil_append]
  · rw [if_neg usable, if_neg usable]
    rfl

end FileTree

def FileTree.idle (t : FileTree) : Disk := ⟨t, [], []⟩

theorem idle_perform (t : FileTree) (s : Step) : t.idle.perform s = ((s.apply t).1, (s.apply t).2.idle) := rfl

theorem standing_idle (s : Store) (root : Location) (touched : Location → Prop) (t next : FileTree)
    (standing : s.Standing root Nothing t.idle) (moves : Moves Nothing touched t next) :
    s.Standing root Nothing next.idle :=
  standing_steps s root Nothing touched _ _ standing (steps_of_moves s root Nothing touched t.idle next [] moves)

namespace FileAction

theorem replaced (t last : FileTree) (base name : String) (l : Location) (reaches : t.Reaches Nothing base l)
    (longer : Path.Plain (name ++ ".tmp")) (plain : Path.Plain name) (bytes : Bytes) (more : List FileAction)
    (done : applyAll t (replacing (Path.join base name) bytes ++ more) = .ok last) :
    ∃ next, t.idle.performAll (Store.replaceWork (Path.join base name) bytes) = (.ok (), next.idle) ∧
      applyAll next more = .ok last := by
  have named := temporary_join base name plain longer
  obtain ⟨emptied, truncated, done⟩ := bind_ok _ _ _ done
  obtain ⟨written, appended, done⟩ := bind_ok _ _ _ done
  obtain ⟨next, renamed, done⟩ := bind_ok _ _ _ done
  simp only [apply, named] at truncated appended renamed
  have wrote := FileTree.write_parts t base (name ++ ".tmp") l reaches longer bytes
  rw [truncated] at wrote
  have wrote : t.write (Path.join base (name ++ ".tmp")) bytes = .ok written := wrote.trans appended
  refine ⟨next, ?_, done⟩
  simp [Store.replaceWork, Disk.performAll, idle_perform, Step.write, Step.rename, Step.whole, Step.total, named,
    wrote, renamed]

theorem applied (t next : FileTree) (action : FileAction) (rest : List FileAction) (works : action.apply t = .ok next) :
    applyAll t (action :: rest) = applyAll next rest := by
  rw [applyAll, works]
  rfl

section Directories

variable (t next : FileTree)

theorem made (path : String) (works : apply t (.makeDirectories path) = .ok next) :
    t.makeDirectories path = (.ok (), next) := by
  simp only [apply] at works
  split at works
  · next found => exact found.trans (congrArg _ (Except.ok.inj works))
  · cases works

theorem make_moves (base name : String) (l : Location) (reaches : t.Reaches Nothing base l) (plain : Path.Plain name)
    (works : apply t (.makeDirectories (Path.join base name)) = .ok next) :
    Moves Nothing (· = l ++ [name]) t next ∧ next.Reaches Nothing (Path.join base name) (l ++ [name]) := by
  have works := made t next _ works
  have make := make_directories_join t base name l plain (reaches_way _ _ _ _ reaches)
  rw [works] at make
  by_cases usable : FileTree.Usable base name
  · rw [if_pos usable] at make
    have moves : Moves Nothing (· = l ++ [name]) t next ∧ next.get? (l ++ [name]) = some .directory := by
      by_cases vacant : t.get? (l ++ [name]) = none
      · rw [if_pos vacant] at make
        obtain rfl := (Prod.mk.inj make).2
        exact ⟨set_directory_moves Nothing t l name reaches.2 plain,
          by rw [FileTree.get_set _ _ _ _ (by simp), if_pos rfl]⟩
      · rw [if_neg vacant] at make
        obtain ⟨there, rfl⟩ := Prod.mk.inj make
        refine ⟨moves_refl _ _ _, ?_⟩
        split at there
        · next found => exact found
        · cases there
    exact ⟨moves.1, reaches_join next Nothing base name l (reaches_moves Nothing _ _ _ _ _ moves.1 id reaches) plain
      usable.2.2 moves.2 id⟩
  · rw [if_neg usable] at make
    cases (Prod.mk.inj make).1

end Directories

theorem stored (s : Store) (root : Location) (t next : FileTree) (standing : s.Standing root Nothing t.idle)
    (call : Call) (plain : Path.Plain call.source) (done : applyAll t (storing s call) = .ok next) :
    s.writeArtifact t.idle call.source call.key call.bytes = (.ok (), next.idle) := by
  obtain ⟨inside, works, done⟩ := bind_ok _ _ _ done
  obtain ⟨moves, reaches⟩ := make_moves t inside s.sourceRoot call.source (root ++ ["source"])
    (source_root_reaches s root Nothing t.idle standing) plain works
  have standing := standing_idle s root _ t inside standing moves
  obtain ⟨placed, first, done⟩ := replaced inside next _ "build.complog" _ reaches (by decide) (by decide) call.bytes
    _ done
  have moved := (replace_file Nothing s root inside.idle standing _ "build.complog" _ call.bytes
    reaches id (by decide) (by decide) id).1
  rw [first] at moved
  have reaches := reaches_moves Nothing _ _ _ _ _ moved.files id reaches
  obtain ⟨keyed, second, done⟩ := replaced placed next _ "version" _ reaches (by decide) (by decide)
    (Bytes.ofText call.key) [] done
  obtain rfl := Except.ok.inj done
  have make : t.idle.perform (.makeDirectories (s.sourceDir call.source)) = (.ok (), inside.idle) := by
    rw [idle_perform]
    change ((t.makeDirectories _).1, (t.makeDirectories _).2.idle) = _
    rw [made t inside _ works]
  have artifact : inside.idle.performAll (Store.replaceWork (s.artifactPath call.source) call.bytes) =
    (.ok (), placed.idle) := first
  rw [Store.writeArtifact, Store.artifactWork, Disk.performAll, make]
  change inside.idle.performAll _ = _
  rw [perform_all_append, artifact]
  exact second

end FileAction

inductive Handle where
  | linked (l : Location)
  | unlinked (bytes : Bytes)
deriving DecidableEq

namespace Handle

def contents (t : FileTree) : Handle → Bytes
  | .linked l => match t.get? l with
      | some (.file bytes) => bytes
      | _ => []
  | .unlinked bytes => bytes

def opened (t : FileTree) (path : String) : Except FileError Handle :=
  match t.find path with
  | .error e => .error e
  | .ok (_, .directory) => .error .isDirectory
  | .ok (l, .file _) => .ok (.linked l)

def carried (t : FileTree) (action : FileAction) (handle : Handle) : Handle :=
  match action, handle with
  | .rename source target, .linked l => match t.find source, t.fileLocation target with
      | .ok (here, _), .ok there =>
          if l = here then .linked there
          else if l = there then .unlinked (contents t (.linked l))
          else .linked l
      | _, _ => .linked l
  | _, _ => handle

end Handle

section Artifacts

variable (s : Store) (root : Location) (t : FileTree) (standing : s.Standing root Nothing t.idle) (source : String)
  (plain : Path.Plain source) (bytes : Bytes)
include standing plain

theorem artifact_read_iff : t.read (s.artifactPath source) = .ok bytes ↔ source.utf8ByteSize ≤ FileTree.nameLimit ∧
    FileTree.Usable (s.sourceDir source) "build.complog" ∧ t.get? (artifactAt root source) = some (.file bytes) := by
  have leads := reaches_way _ _ _ _ (source_root_reaches s root Nothing t.idle standing)
  have way := source_way s root t source leads plain
  constructor
  · intro read
    cases entered : t.way (s.sourceDir source) with
    | error e => cases (FileTree.read_astray t _ "build.complog" (by decide) e entered).symm.trans read
    | ok l =>
        obtain ⟨rfl, short, -⟩ := (FileTree.enter_plain t _ l source plain).mp (way.symm.trans entered)
        have joined := FileTree.read_join t _ "build.complog" _ (by decide) entered
        rw [show Path.join (s.sourceDir source) "build.complog" = s.artifactPath source from rfl, read] at joined
        by_cases usable : FileTree.Usable (s.sourceDir source) "build.complog"
        · rw [if_pos usable] at joined
          refine ⟨short, usable, ?_⟩
          rw [artifactAt, sourceAt]
          split at joined
          · cases joined
          · cases joined
          · next found => rw [found, Except.ok.inj joined]
        · rw [if_neg usable] at joined
          cases joined
  · rintro ⟨short, usable, found⟩
    have directory := standing.formed.rooted (sourceAt root source) "build.complog" fun absent => by
      cases found.symm.trans absent
    have entered := way.trans ((FileTree.enter_plain t _ _ source plain).mpr ⟨rfl, short, directory⟩)
    rw [artifactAt, sourceAt] at found
    rw [Store.artifactPath, FileTree.read_join t _ "build.complog" _ (by decide) entered, if_pos usable, found]

theorem artifact_opened (read : t.read (s.artifactPath source) = .ok bytes) :
    Handle.opened t (s.artifactPath source) = .ok (.linked (artifactAt root source)) := by
  obtain ⟨short, usable, found⟩ := (artifact_read_iff s root t standing source plain bytes).mp read
  have leads := reaches_way _ _ _ _ (source_root_reaches s root Nothing t.idle standing)
  have directory := standing.formed.rooted (sourceAt root source) "build.complog" fun absent => by
    cases found.symm.trans absent
  have entered := (source_way s root t source leads plain).trans
    ((FileTree.enter_plain t _ _ source plain).mpr ⟨rfl, short, directory⟩)
  rw [artifactAt, sourceAt] at found
  rw [Handle.opened, Store.artifactPath, FileTree.find_join t _ "build.complog" _ (by decide) entered, if_pos usable,
    found]
  rfl

end Artifacts

inductive Replacing (t : FileTree) (path : String) (beside : Location) (bytes : Bytes) : List FileAction → Prop where
  | fresh : Replacing t path beside bytes (FileAction.replacing path bytes)
  | writing (written rest : Bytes) (there : t.get? beside = some (.file written)) (whole : written ++ rest = bytes) :
      Replacing t path beside bytes
        [.append (Store.temporary path) rest, .rename (Store.temporary path) path]
  | written (there : t.get? beside = some (.file bytes)) :
      Replacing t path beside bytes [.rename (Store.temporary path) path]

structure WrittenBeside (t next : FileTree) (path : String) (beside : Location) (bytes : Bytes)
    (action : FileAction) (rest more : List FileAction) : Prop where
  left : ∃ left, rest = left ++ more ∧ Replacing next path beside bytes left
  moves : Moves Nothing (· = beside) t next
  carried : ∀ handle, Handle.carried t action handle = handle

structure MovedIn (t next : FileTree) (beside place : Location) (bytes : Bytes) (action : FileAction)
    (rest more : List FileAction) : Prop where
  rest : rest = more
  moves : Moves Nothing (fun l => l = beside ∨ l = place) t next
  there : next.get? place = some (.file bytes)
  replaced : Handle.carried t action (.linked place) = .unlinked (Handle.contents t (.linked place))
  others : ∀ l, l ≠ beside → l ≠ place → Handle.carried t action (.linked l) = .linked l

section Replacement

variable (t next : FileTree) (formed : t.WellFormed) (base name : String) (l : Location)
  (reaches : t.Reaches Nothing base l) (plain : Path.Plain name) (longer : Path.Plain (name ++ ".tmp"))
  (bytes : Bytes)
include reaches plain

theorem append_moves (part old : Bytes) (there : t.get? (l ++ [name]) = some (.file old))
    (appended : t.append (Path.join base name) part = .ok next) :
    Moves Nothing (· = l ++ [name]) t next ∧ next.get? (l ++ [name]) = some (.file (old ++ part)) := by
  rw [FileTree.append_join t base name l plain (reaches_way _ _ _ _ reaches) old part there] at appended
  split at appended
  · obtain rfl := Except.ok.inj appended
    exact ⟨set_file_moves Nothing t l name _ reaches.2 plain (by rw [there]; nofun),
      by rw [FileTree.get_set _ _ _ _ (by simp), if_pos rfl]⟩
  · cases appended

include formed longer

theorem moved_in (more : List FileAction) (there : t.get? (l ++ [name ++ ".tmp"]) = some (.file bytes))
    (renamed : t.rename (Path.join base (name ++ ".tmp")) (Path.join base name) = .ok next) :
    MovedIn t next (l ++ [name ++ ".tmp"]) (l ++ [name]) bytes
        (.rename (Path.join base (name ++ ".tmp")) (Path.join base name)) more more ∧ FileTree.Usable base name := by
  have leads := reaches_way _ _ _ _ reaches
  obtain ⟨moves, placed, -, usable⟩ := rename_moves Nothing t formed base (name ++ ".tmp") name l bytes reaches longer
    plain there next renamed
  have shape := renamed
  unfold FileTree.rename at shape
  have found : t.find (Path.join base (name ++ ".tmp")) = .ok (l ++ [name ++ ".tmp"], .file bytes) := by
    have joined := FileTree.find_join t base (name ++ ".tmp") l longer leads
    by_cases fits : FileTree.Usable base (name ++ ".tmp")
    · rw [joined, if_pos fits, there]
    · rw [joined, if_neg fits] at shape
      cases shape
  rw [found] at shape
  obtain ⟨target, located, -⟩ := map_ok _ _ _ shape
  have joined := FileTree.file_location_join t base name l plain leads
  rw [if_pos usable, located] at joined
  have here : target = l ++ [name] := by
    split at joined
    · cases joined
    · exact Except.ok.inj joined
  have apart : l ++ [name] ≠ l ++ [name ++ ".tmp"] := fun same => by
    have longer := congrArg String.length (List.singleton_inj.mp (List.append_cancel_left same))
    simp [String.length_append] at longer
  refine ⟨⟨rfl, moves, placed, ?_, fun other notBeside notPlace => ?_⟩, usable⟩
  · simp [Handle.carried, found, located, here, apart]
  · simp [Handle.carried, found, located, here, notBeside, notPlace]

theorem replacing_step (todo more : List FileAction) (action : FileAction) (rest : List FileAction)
    (progress : Replacing t (Path.join base name) (l ++ [name ++ ".tmp"]) bytes todo)
    (takes : FileAction.Takes (todo ++ more) action rest) (works : action.apply t = .ok next) :
    FileAction.applyAll t (todo ++ more) = FileAction.applyAll next rest ∧
      (WrittenBeside t next (Path.join base name) (l ++ [name ++ ".tmp"]) bytes action rest more ∨
        MovedIn t next (l ++ [name ++ ".tmp"]) (l ++ [name]) bytes action rest more ∧ FileTree.Usable base name) := by
  have named := temporary_join base name plain longer
  cases progress with
  | fresh =>
      cases takes with
      | whole =>
          have written := works
          simp only [FileAction.apply, named] at written
          obtain ⟨moves, there, -⟩ := write_moves Nothing t base (name ++ ".tmp") l [] reaches longer next written
          refine ⟨FileAction.applied t next _ _ works, .inl ⟨⟨_, rfl, .writing [] bytes there rfl⟩, moves, ?_⟩⟩
          exact fun _ => rfl
  | writing old new there whole =>
      cases takes with
      | whole =>
          have appended := works
          simp only [FileAction.apply, named] at appended
          obtain ⟨moves, there⟩ := append_moves t next base (name ++ ".tmp") l reaches longer new old there appended
          refine ⟨FileAction.applied t next _ _ works, .inl ⟨⟨_, rfl, .written (whole ▸ there)⟩, moves, ?_⟩⟩
          exact fun _ => rfl
      | part path first later =>
          have appended := works
          simp only [FileAction.apply, named] at appended
          have parts := FileTree.append_parts t base (name ++ ".tmp") l reaches longer old first later there
          obtain ⟨moves, there⟩ := append_moves t next base (name ++ ".tmp") l reaches longer first old there appended
          refine ⟨?_, .inl ⟨⟨_, rfl, .writing (old ++ first) later there ?_⟩, moves, fun _ => rfl⟩⟩
          · rw [appended] at parts
            simp only [List.cons_append, FileAction.applyAll, FileAction.apply, named, parts]
            rfl
          · rw [List.append_assoc, whole]
  | written there =>
      cases takes with
      | whole =>
          have renamed := works
          simp only [FileAction.apply, named] at renamed
          refine ⟨FileAction.applied t next _ _ works, .inr ?_⟩
          rw [named]
          exact moved_in t next formed base name l reaches plain longer bytes more there renamed

end Replacement

-- How far a call is: its directory is still to be made, its artifact or its key is being replaced, or all is done.
inductive Underway (s : Store) (root : Location) (call : Call) (t : FileTree) : List FileAction → Prop where
  | entering : Underway s root call t (FileAction.storing s call)
  | artifact (todo : List FileAction)
      (inside : t.Reaches Nothing (s.sourceDir call.source) (sourceAt root call.source))
      (progress : Replacing t (s.artifactPath call.source) (sourceAt root call.source ++ ["build.complog.tmp"])
        call.bytes todo) :
      Underway s root call t (todo ++ FileAction.replacing (s.versionPath call.source) (Bytes.ofText call.key))
  | version (todo : List FileAction)
      (inside : t.Reaches Nothing (s.sourceDir call.source) (sourceAt root call.source))
      (placed : t.read (s.artifactPath call.source) = .ok call.bytes)
      (progress : Replacing t (s.versionPath call.source) (sourceAt root call.source ++ ["version.tmp"])
        (Bytes.ofText call.key) todo) : Underway s root call t todo
  | complete (placed : t.read (s.artifactPath call.source) = .ok call.bytes) : Underway s root call t []

inductive Seen (s : Store) (root : Location) (call : Call) (t next : FileTree) (action : FileAction)
    (source : String) : Prop where
  | kept (same : ∀ bytes, t.read (s.artifactPath source) = .ok bytes → next.read (s.artifactPath source) = .ok bytes)
      (open_ : Handle.carried t action (.linked (artifactAt root source)) = .linked (artifactAt root source))
  | replaced (own : call.source = source) (placed : next.read (s.artifactPath source) = .ok call.bytes)
      (open_ : ∀ bytes, t.read (s.artifactPath source) = .ok bytes →
        Handle.carried t action (.linked (artifactAt root source)) = .unlinked bytes)

structure CallStep (s : Store) (root : Location) (call : Call) (t next : FileTree) (todo rest : List FileAction)
    (action : FileAction) : Prop where
  underway : Underway s root call next rest
  standing : s.Standing root Nothing next.idle
  same : FileAction.applyAll t todo = FileAction.applyAll next rest
  seen : ∀ source, Path.Plain source → Seen s root call t next action source

theorem artifact_apart (root : Location) (source other file : String) (apart : file ≠ "build.complog") :
    artifactAt root source ≠ sourceAt root other ++ [file] := by
  intro same
  exact apart (List.singleton_inj.mp (List.append_inj' same rfl).2).symm

section Calls

variable (s : Store) (root : Location) (t next : FileTree) (standing : s.Standing root Nothing t.idle)
include standing

theorem artifact_kept (touched : Location → Prop) (moves : Moves Nothing touched t next) (source : String)
    (plain : Path.Plain source) (untouched : ¬ touched (artifactAt root source)) (bytes : Bytes)
    (read : t.read (s.artifactPath source) = .ok bytes) : next.read (s.artifactPath source) = .ok bytes := by
  obtain ⟨short, usable, found⟩ := (artifact_read_iff s root t standing source plain bytes).mp read
  refine (artifact_read_iff s root next (standing_idle s root touched t next standing moves) source plain bytes).mpr
    ⟨short, usable, ?_⟩
  rw [moves.get _ id untouched, found]

variable (call : Call) (action : FileAction)

theorem beside_kept (path file : String) (bytes : Bytes) (apart : file ≠ "build.complog")
    (rest more : List FileAction)
    (beside : WrittenBeside t next path (sourceAt root call.source ++ [file]) bytes action rest more)
    (source : String) (plain : Path.Plain source) : Seen s root call t next action source :=
  .kept (artifact_kept s root t next standing _ beside.moves source plain (artifact_apart root source _ file apart))
    (beside.carried _)

variable (plain : Path.Plain call.source) (todo rest : List FileAction)
include plain

theorem entering_step (takes : FileAction.Takes (FileAction.storing s call) action rest)
    (works : action.apply t = .ok next) :
    CallStep s root call t next (FileAction.storing s call) rest action := by
  cases takes with
  | whole =>
      obtain ⟨moves, inside⟩ := FileAction.make_moves t next s.sourceRoot call.source (root ++ ["source"])
        (source_root_reaches s root Nothing t.idle standing) plain works
      have untouched (source : String) : artifactAt root source ≠ sourceAt root call.source := fun same => by
        simpa [artifactAt, sourceAt] using congrArg List.length same
      exact ⟨.artifact _ inside .fresh, standing_idle s root _ t next standing moves,
        FileAction.applied t next _ _ works, fun source plain =>
          .kept (artifact_kept s root t next standing _ moves source plain (untouched source)) rfl⟩

theorem artifact_step (inside : t.Reaches Nothing (s.sourceDir call.source) (sourceAt root call.source))
    (progress : Replacing t (s.artifactPath call.source) (sourceAt root call.source ++ ["build.complog.tmp"])
      call.bytes todo)
    (takes : FileAction.Takes
      (todo ++ FileAction.replacing (s.versionPath call.source) (Bytes.ofText call.key)) action rest)
    (works : action.apply t = .ok next) :
    CallStep s root call t next
      (todo ++ FileAction.replacing (s.versionPath call.source) (Bytes.ofText call.key)) rest action := by
  have short := ((FileTree.enter_plain t _ _ call.source plain).mp ((source_way s root t call.source
    (reaches_way _ _ _ _ (source_root_reaches s root Nothing t.idle standing)) plain).symm.trans
    (reaches_way _ _ _ _ inside))).2.1
  obtain ⟨same, beside | ⟨moved, usable⟩⟩ := replacing_step t next standing.formed _ "build.complog" _ inside
    (by decide) (by decide) call.bytes todo _ action rest progress takes works
  · obtain ⟨left, rfl, progress⟩ := beside.left
    exact ⟨.artifact left (reaches_moves Nothing _ _ _ _ _ beside.moves id inside) progress,
      standing_idle s root _ t next standing beside.moves, same,
      beside_kept s root t next standing call action _ "build.complog.tmp" _ (by decide) _ _ beside⟩
  · have nextStanding := standing_idle s root _ t next standing moved.moves
    have placed := (artifact_read_iff s root next nextStanding call.source plain call.bytes).mpr
      ⟨short, usable, moved.there⟩
    obtain rfl := moved.rest
    refine ⟨.version _ (reaches_moves Nothing _ _ _ _ _ moved.moves id inside) placed .fresh, nextStanding, same,
      fun source sourcePlain => ?_⟩
    have apart := artifact_apart root source call.source "build.complog.tmp" (by decide)
    by_cases own : call.source = source
    · subst own
      refine .replaced rfl placed fun bytes read => moved.replaced.trans ?_
      have found := ((artifact_read_iff s root t standing call.source plain bytes).mp read).2.2
      rw [artifactAt] at found
      rw [Handle.contents, found]
    · have other : artifactAt root source ≠ sourceAt root call.source ++ ["build.complog"] := fun same =>
        own (source_file_injective root _ _ _ _ same).symm
      exact .kept (artifact_kept s root t next standing _ moved.moves source sourcePlain
        fun touched => touched.elim apart other) (moved.others _ apart other)

theorem version_step (inside : t.Reaches Nothing (s.sourceDir call.source) (sourceAt root call.source))
    (placed : t.read (s.artifactPath call.source) = .ok call.bytes)
    (progress : Replacing t (s.versionPath call.source) (sourceAt root call.source ++ ["version.tmp"])
      (Bytes.ofText call.key) todo)
    (takes : FileAction.Takes todo action rest) (works : action.apply t = .ok next) :
    CallStep s root call t next todo rest action := by
  obtain ⟨same, beside | ⟨moved, -⟩⟩ := replacing_step t next standing.formed _ "version" _ inside (by decide)
    (by decide) (Bytes.ofText call.key) todo [] action rest progress (by simpa using takes) works
  · have seen := beside_kept s root t next standing call action _ "version.tmp" _ (by decide) _ _ beside
    obtain ⟨left, rfl, progress⟩ := beside.left
    have still := artifact_kept s root t next standing _ beside.moves call.source plain
      (artifact_apart root call.source _ "version.tmp" (by decide)) _ placed
    rw [List.append_nil, List.append_nil] at same
    rw [List.append_nil]
    exact ⟨.version left (reaches_moves Nothing _ _ _ _ _ beside.moves id inside) still progress,
      standing_idle s root _ t next standing beside.moves, same, seen⟩
  · have apart (source : String) := artifact_apart root source call.source "version.tmp" (by decide)
    have other (source : String) := artifact_apart root source call.source "version" (by decide)
    have kept (source : String) (plain : Path.Plain source) := artifact_kept s root t next standing _ moved.moves
      source plain fun touched => touched.elim (apart source) (other source)
    obtain rfl := moved.rest
    rw [List.append_nil] at same
    exact ⟨.complete (kept call.source plain _ placed), standing_idle s root _ t next standing moved.moves, same,
      fun source plain => .kept (kept source plain) (moved.others _ (apart source) (other source))⟩

theorem call_step (underway : Underway s root call t todo) (takes : FileAction.Takes todo action rest)
    (works : action.apply t = .ok next) : CallStep s root call t next todo rest action := by
  cases underway with
  | entering => exact entering_step s root t next standing call action plain rest takes works
  | artifact todo inside progress =>
      exact artifact_step s root t next standing call action plain todo rest inside progress takes works
  | version todo inside placed progress =>
      exact version_step s root t next standing call action plain todo rest inside placed progress takes works
  | complete => cases takes

end Calls

end IndexKeeper
