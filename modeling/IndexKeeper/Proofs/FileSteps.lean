import IndexKeeper.Proofs.StandingStore

set_option autoImplicit false

namespace IndexKeeper

variable (swept : Location → Prop)

theorem set_file_moves (t : FileTree) (l : Location) (name : String) (bytes : Bytes)
    (above : t.get? l = some .directory) (plain : Path.Plain name)
    (noDirectory : t.get? (l ++ [name]) ≠ some .directory) :
    Moves swept (· = l ++ [name]) t (t.set (l ++ [name]) (.file bytes)) := by
  have look (other : Location) := FileTree.get_set t (l ++ [name]) other (.file bytes) (by simp)
  refine ⟨?_, ?_, ?_, ?_, rfl⟩
  · intro other _ apart
    rw [look, if_neg apart]
  · intro other apart
    exact .inl (by rw [look, if_neg apart])
  · intro other _ directory
    rw [look, if_neg, directory]
    intro same
    exact noDirectory (same ▸ directory)
  · intro formed
    exact FileTree.well_formed_set t formed l name _ above plain (.inr noDirectory)

theorem write_moves (t : FileTree) (base name : String) (l : Location) (bytes : Bytes)
    (reaches : t.Reaches swept base l) (plain : Path.Plain name) (next : FileTree)
    (written : t.write (Path.join base name) bytes = .ok next) :
    Moves swept (· = l ++ [name]) t next ∧ next.get? (l ++ [name]) = some (.file bytes) ∧
      FileTree.Usable base name := by
  unfold FileTree.write at written
  rw [FileTree.file_location_join t base name l plain (reaches_way t swept base l reaches)] at written
  by_cases usable : FileTree.Usable base name
  · rw [if_pos usable] at written
    by_cases directory : t.get? (l ++ [name]) = some .directory
    · rw [if_pos directory] at written
      cases written
    · rw [if_neg directory] at written
      obtain rfl := Except.ok.inj written
      refine ⟨set_file_moves swept t l name bytes reaches.2 plain directory, ?_, usable⟩
      rw [FileTree.get_set _ _ _ _ (by simp), if_pos rfl]
  · rw [if_neg usable] at written
    cases written

theorem rename_join (t : FileTree) (base name target : String) (l : Location) (plain : Path.Plain name)
    (targetPlain : Path.Plain target) (leads : t.way base = .ok l) :
    t.rename (Path.join base name) (Path.join base target) =
      if FileTree.Usable base name then
        match t.get? (l ++ [name]) with
        | none => .error .notFound
        | some .directory => .error .isDirectory
        | some (.file bytes) =>
            if FileTree.Usable base target then
              if t.get? (l ++ [target]) = some .directory then .error .isDirectory
              else .ok ((t.erase (l ++ [name])).set (l ++ [target]) (.file bytes))
            else .error (FileTree.refusal base target)
      else .error (FileTree.refusal base name) := by
  unfold FileTree.rename
  rw [FileTree.find_join t base name l plain leads]
  by_cases usable : FileTree.Usable base name
  · rw [if_pos usable, if_pos usable]
    cases t.get? (l ++ [name]) with
    | none => rfl
    | some entry =>
        cases entry with
        | directory => rfl
        | file bytes =>
            dsimp only
            rw [FileTree.file_location_join t base target l targetPlain leads]
            split
            · split <;> rfl
            · rfl
  · rw [if_neg usable, if_neg usable]

theorem rename_moves (t : FileTree) (formed : t.WellFormed) (base name target : String) (l : Location)
    (bytes : Bytes) (reaches : t.Reaches swept base l) (plain : Path.Plain name)
    (targetPlain : Path.Plain target) (held : t.get? (l ++ [name]) = some (.file bytes)) (next : FileTree)
    (renamed : t.rename (Path.join base name) (Path.join base target) = .ok next) :
    Moves swept (fun place => place = l ++ [name] ∨ place = l ++ [target]) t next ∧
      next.get? (l ++ [target]) = some (.file bytes) ∧ next.get? (l ++ [name]) ≠ some .directory ∧
      FileTree.Usable base target := by
  rw [rename_join t base name target l plain targetPlain (reaches_way t swept base l reaches), held] at renamed
  by_cases usable : FileTree.Usable base name
  · rw [if_pos usable] at renamed
    dsimp only at renamed
    by_cases fits : FileTree.Usable base target
    · rw [if_pos fits] at renamed
      by_cases directory : t.get? (l ++ [target]) = some .directory
      · rw [if_pos directory] at renamed
        cases renamed
      · rw [if_neg directory] at renamed
        obtain rfl := Except.ok.inj renamed
        have leaf : t.get? (l ++ [name]) ≠ some .directory := by simp [held]
        have gone (other : Location) := FileTree.get_erase_file t formed (l ++ [name]) other (by simp) leaf
        have erased : Moves swept (· = l ++ [name]) t (t.erase (l ++ [name])) := by
          refine ⟨?_, ?_, ?_, fun formed => FileTree.well_formed_erase t formed _ (by simp), rfl⟩
          · intro other _ apart
            rw [gone, if_neg apart]
          · intro other apart
            exact .inl (by rw [gone, if_neg apart])
          · intro other _ found
            rw [gone, if_neg, found]
            intro same
            exact leaf (same ▸ found)
        have above : (t.erase (l ++ [name])).get? l = some .directory := by
          rw [gone, if_neg, reaches.2]
          intro long
          simpa using congrArg List.length long
        have vacant : (t.erase (l ++ [name])).get? (l ++ [target]) ≠ some .directory := by
          rw [gone]
          split
          · simp
          · exact directory
        have set := set_file_moves swept (t.erase (l ++ [name])) l target bytes above targetPlain vacant
        refine ⟨moves_trans swept _ _ _ _ (moves_weaken swept _ _ _ _ erased fun _ => Or.inl)
          (moves_weaken swept _ _ _ _ set fun _ => Or.inr), ?_, ?_, fits⟩
        · rw [FileTree.get_set _ _ _ _ (by simp), if_pos rfl]
        · rw [FileTree.get_set _ _ _ _ (by simp), gone, if_pos rfl]
          split <;> simp
    · rw [if_neg fits] at renamed
      cases renamed
  · rw [if_neg usable] at renamed
    cases renamed

theorem set_directory_moves (t : FileTree) (l : Location) (name : String)
    (above : t.get? l = some .directory) (plain : Path.Plain name) :
    Moves swept (· = l ++ [name]) t (t.set (l ++ [name]) .directory) := by
  have look (other : Location) := FileTree.get_set t (l ++ [name]) other .directory (by simp)
  refine ⟨?_, ?_, ?_, ?_, rfl⟩
  · intro other _ apart
    rw [look, if_neg apart]
  · intro other apart
    exact .inl (by rw [look, if_neg apart])
  · intro other _ directory
    rw [look]
    split
    · rfl
    · exact directory
  · intro formed
    exact FileTree.well_formed_set t formed l name _ above plain (.inl rfl)

theorem make_directory_join (t : FileTree) (base name : String) (l : Location)
    (plain : Path.Plain name) (leads : t.way base = .ok l) :
    t.makeDirectory (Path.join base name) =
      if FileTree.Usable base name then
        if t.get? (l ++ [name]) = none then .ok (t.set (l ++ [name]) .directory) else .error .exists
      else .error (FileTree.refusal base name) := by
  unfold FileTree.makeDirectory
  rw [FileTree.locate_join t base name l plain leads]
  by_cases usable : FileTree.Usable base name
  · rw [if_pos usable, if_pos usable]
    dsimp only
    cases t.get? (l ++ [name]) with
    | none => rfl
    | some e => rfl
  · rw [if_neg usable, if_neg usable]

theorem make_directories_join (t : FileTree) (base name : String) (l : Location)
    (plain : Path.Plain name) (leads : t.way base = .ok l) :
    t.makeDirectories (Path.join base name) =
      if FileTree.Usable base name then
        if t.get? (l ++ [name]) = none then (.ok (), t.set (l ++ [name]) .directory)
        else (if t.get? (l ++ [name]) = some .directory then .ok () else .error .exists, t)
      else (.error (FileTree.refusal base name), t) := by
  have isDirectory := FileTree.is_directory_join t base name l plain leads
  unfold FileTree.makeDirectories
  rw [FileTree.makeAll, if_neg (Path.join_ne_empty base name plain),
    make_directory_join t base name l plain leads]
  by_cases usable : FileTree.Usable base name
  · rw [if_pos usable, if_pos usable]
    by_cases vacant : t.get? (l ++ [name]) = none
    · rw [if_pos vacant, if_pos vacant]
    · rw [if_neg vacant, if_neg vacant]
      dsimp only
      by_cases directory : t.get? (l ++ [name]) = some .directory
      · rw [if_pos directory, if_pos (isDirectory.mpr ⟨usable, directory⟩)]
      · rw [if_neg directory, if_neg fun found => directory (isDirectory.mp found).2]
  · rw [if_neg usable, if_neg usable]
    have noDirectory : t.isDirectory (Path.join base name) ≠ true := fun found =>
      usable (isDirectory.mp found).1
    have other := FileTree.refusal_ne_not_found base name
    generalize FileTree.refusal base name = e at other ⊢
    cases e with
    | notFound => exact absurd rfl other
    | _ => simp [noDirectory]

theorem perform_cases (d : Disk) (s : Step) :
    d.perform s = ((s.apply d.grant.2.files).1, { d.grant.2 with files := (s.apply d.grant.2.files).2 }) ∨
      (∃ e, d.perform s = (.error e, d.grant.2)) ∨
      ∃ e kept, d.perform s = (.error e, { d.grant.2 with files := s.cutOff kept d.grant.2.files }) := by
  unfold Disk.perform
  generalize d.grant = granted
  obtain ⟨grant, next⟩ := granted
  cases grant with
  | all => exact .inl rfl
  | nothing => exact .inr (.inl ⟨.refused, rfl⟩)
  | part kept => exact .inr (.inr ⟨.refused, kept, rfl⟩)

theorem total_cases (change : FileTree → Except FileError FileTree) (t : FileTree) :
    (∃ next, change t = .ok next ∧ Step.total change t = (.ok (), next)) ∨
      ∃ e, Step.total change t = (.error e, t) := by
  unfold Step.total
  cases change t with
  | ok next => exact .inl ⟨next, rfl, rfl⟩
  | error e => exact .inr ⟨e, rfl⟩

theorem temporary_join (base name : String) (plain : Path.Plain name)
    (longer : Path.Plain (name ++ ".tmp")) :
    Store.temporary (Path.join base name) = Path.join base (name ++ ".tmp") :=
  Path.join_append base name ".tmp" plain longer

section Steps

variable (s : Store) (root : Location) (d : Disk) (standing : s.Standing root swept d)
include standing

theorem granted_reaches (base : String) (l : Location) (reaches : d.files.Reaches swept base l)
    (stays : ¬ swept l) : d.grant.2.files.Reaches swept base l :=
  reaches_moves swept Nothing _ _ base l (grant_steps s root swept d standing).files stays reaches

theorem steps_after_grant (touched : Location → Prop) (files : FileTree)
    (moves : Moves swept touched d.grant.2.files files) :
    s.Steps root swept touched d { d.grant.2 with files } := by
  have granted := steps_weaken s root swept Nothing touched _ _ (grant_steps s root swept d standing)
    fun _ inside => False.elim inside
  exact steps_trans s root swept touched _ _ _ granted
    (steps_of_moves s root swept touched d.grant.2 files d.grant.2.fates moves)

theorem perform_write (base name : String) (l : Location) (bytes : Bytes)
    (reaches : d.files.Reaches swept base l) (stays : ¬ swept l) (plain : Path.Plain name) :
    s.Steps root swept (· = l ++ [name]) d (d.perform (.write (Path.join base name) bytes)).2 ∧
      ((d.perform (.write (Path.join base name) bytes)).1 = .ok () →
        (d.perform (.write (Path.join base name) bytes)).2.files.get? (l ++ [name]) =
            some (.file bytes) ∧ FileTree.Usable base name) ∧
      ((d.perform (.write (Path.join base name) bytes)).2.files.get? (l ++ [name]) = some .directory →
        d.files.get? (l ++ [name]) = some .directory) := by
  have near := granted_reaches swept s root d standing base l reaches stays
  have idle := steps_after_grant swept s root d standing (· = l ++ [name]) _ (moves_refl swept _ _)
  have change (part : Bytes) (next : FileTree)
      (written : d.grant.2.files.write (Path.join base name) part = .ok next) :=
    write_moves swept d.grant.2.files base name l part near plain next written
  have kept (found : d.grant.2.files.get? (l ++ [name]) = some .directory) :
      d.files.get? (l ++ [name]) = some .directory :=
    moves_before swept Nothing _ _ (grant_steps s root swept d standing).files _ _ id found
  have noDirectory (next : FileTree) (part : Bytes)
      (there : next.get? (l ++ [name]) = some (.file part)) :
      next.get? (l ++ [name]) = some .directory → d.files.get? (l ++ [name]) = some .directory := by
    rw [there]
    nofun
  rcases perform_cases d (.write (Path.join base name) bytes) with whole | ⟨e, refused⟩ | ⟨e, upTo, torn⟩
  · rw [whole]
    rcases total_cases (fun t => t.write (Path.join base name) bytes) d.grant.2.files with
      ⟨next, written, done⟩ | ⟨e, failed⟩
    · have moved := change bytes next written
      simp only [Step.write, done]
      exact ⟨steps_after_grant swept s root d standing _ next moved.1, fun _ => moved.2,
        noDirectory next bytes moved.2.1⟩
    · simp only [Step.write, failed]
      exact ⟨idle, nofun, kept⟩
  · rw [refused]
    exact ⟨idle, nofun, kept⟩
  · rw [torn]
    rcases total_cases (fun t => t.write (Path.join base name) (bytes.take upTo)) d.grant.2.files with
      ⟨next, written, done⟩ | ⟨e, failed⟩
    · have moved := change (bytes.take upTo) next written
      simp only [Step.write, done]
      exact ⟨steps_after_grant swept s root d standing _ next moved.1, nofun,
        noDirectory next (bytes.take upTo) moved.2.1⟩
    · simp only [Step.write, failed]
      exact ⟨idle, nofun, kept⟩

theorem perform_rename (base name target : String) (l : Location) (bytes : Bytes)
    (reaches : d.files.Reaches swept base l) (stays : ¬ swept l) (plain : Path.Plain name)
    (targetPlain : Path.Plain target) (held : d.files.get? (l ++ [name]) = some (.file bytes))
    (heldStays : ¬ swept (l ++ [name])) :
    let done := d.perform (.rename (Path.join base name) (Path.join base target))
    (done.1 = .ok () →
        s.Steps root swept (fun place => place = l ++ [name] ∨ place = l ++ [target]) d done.2 ∧
          done.2.files.get? (l ++ [target]) = some (.file bytes) ∧
          done.2.files.get? (l ++ [name]) ≠ some .directory ∧ FileTree.Usable base target) ∧
      (done.1 ≠ .ok () → s.Steps root swept Nothing d done.2) := by
  intro done
  have near := granted_reaches swept s root d standing base l reaches stays
  have granted := grant_steps s root swept d standing
  have still : d.grant.2.files.get? (l ++ [name]) = some (.file bytes) :=
    (granted.files.get _ heldStays id).trans held
  rcases perform_cases d (.rename (Path.join base name) (Path.join base target)) with
    whole | ⟨e, refused⟩ | ⟨e, kept, torn⟩
  · rcases total_cases (fun t => t.rename (Path.join base name) (Path.join base target))
      d.grant.2.files with ⟨next, renamed, ended⟩ | ⟨e, failed⟩
    · have shape : done = (.ok (), { d.grant.2 with files := next }) := by
        simp only [done, whole, Step.rename, Step.whole, ended]
      rw [shape]
      have moved := rename_moves swept d.grant.2.files (granted.files.formed standing.formed) base name
        target l bytes near plain targetPlain still next renamed
      exact ⟨fun _ => ⟨steps_after_grant swept s root d standing _ next moved.1, moved.2⟩,
        fun failed => absurd rfl failed⟩
    · have shape : done = (.error e, d.grant.2) := by
        simp only [done, whole, Step.rename, Step.whole, failed]
      rw [shape]
      exact ⟨nofun, fun _ => granted⟩
  · have shape : done = (.error e, d.grant.2) := refused
    rw [shape]
    exact ⟨nofun, fun _ => granted⟩
  · have shape : done = (.error e, d.grant.2) := torn
    rw [shape]
    exact ⟨nofun, fun _ => granted⟩

theorem perform_make_directories (base name : String) (l : Location)
    (reaches : d.files.Reaches swept base l) (stays : ¬ swept l) (plain : Path.Plain name)
    (placeStays : ¬ swept (l ++ [name])) :
    let done := d.perform (.makeDirectories (Path.join base name))
    (done.1 = .ok () →
        s.Steps root swept (fun place => place = l ++ [name] ∧ d.files.get? place = none) d done.2 ∧
          done.2.files.get? (l ++ [name]) = some .directory ∧ FileTree.Usable base name) ∧
      (done.1 ≠ .ok () → s.Steps root swept Nothing d done.2) := by
  intro done
  have near := granted_reaches swept s root d standing base l reaches stays
  have granted := grant_steps s root swept d standing
  have same : d.grant.2.files.get? (l ++ [name]) = d.files.get? (l ++ [name]) :=
    granted.files.get _ placeStays id
  have idle := steps_after_grant swept s root d standing
    (fun place => place = l ++ [name] ∧ d.files.get? place = none) _ (moves_refl swept _ _)
  rcases perform_cases d (.makeDirectories (Path.join base name)) with
    whole | ⟨e, refused⟩ | ⟨e, kept, torn⟩
  · have made := make_directories_join d.grant.2.files base name l plain (reaches_way _ _ _ _ near)
    rw [same] at made
    have shape : done = ((d.grant.2.files.makeDirectories (Path.join base name)).1,
        { d.grant.2 with files := (d.grant.2.files.makeDirectories (Path.join base name)).2 }) := whole
    rw [shape, made]
    by_cases usable : FileTree.Usable base name
    · rw [if_pos usable]
      by_cases vacant : d.files.get? (l ++ [name]) = none
      · rw [if_pos vacant]
        have moved := set_directory_moves swept d.grant.2.files l name near.2 plain
        refine ⟨fun _ => ⟨?_, ?_, usable⟩, fun failed => absurd rfl failed⟩
        · refine steps_weaken s root swept (· = l ++ [name]) _ _ _
            (steps_after_grant swept s root d standing _ _ moved) ?_
          intro place here
          exact ⟨here, here ▸ vacant⟩
        · rw [FileTree.get_set _ _ _ _ (by simp), if_pos rfl]
      · rw [if_neg vacant]
        by_cases directory : d.files.get? (l ++ [name]) = some .directory
        · rw [if_pos directory]
          exact ⟨fun _ => ⟨idle, same.trans directory, usable⟩, fun failed => absurd rfl failed⟩
        · rw [if_neg directory]
          exact ⟨nofun, fun _ => granted⟩
    · rw [if_neg usable]
      exact ⟨nofun, fun _ => granted⟩
  · have shape : done = (.error e, d.grant.2) := refused
    rw [shape]
    exact ⟨nofun, fun _ => granted⟩
  · have shape : done = (.error e, d.grant.2) := torn
    rw [shape]
    exact ⟨nofun, fun _ => granted⟩

omit standing in
theorem read_kept (next : Disk) (touched : Location → Prop) (base name : String) (l : Location)
    (reaches : d.files.Reaches swept base l) (stays : ¬ swept l) (plain : Path.Plain name)
    (steps : s.Steps root swept touched d next)
    (same : next.files.get? (l ++ [name]) = d.files.get? (l ++ [name])) :
    next.files.read (Path.join base name) = d.files.read (Path.join base name) := by
  have nextReaches := reaches_moves swept touched _ _ base l steps.files stays reaches
  rw [FileTree.read_join _ base name l plain (reaches_way _ _ _ _ reaches),
    FileTree.read_join _ base name l plain (reaches_way _ _ _ _ nextReaches), same]

theorem replace_file (base name : String) (l : Location) (bytes : Bytes)
    (reaches : d.files.Reaches swept base l) (stays : ¬ swept l) (plain : Path.Plain name)
    (longer : Path.Plain (name ++ ".tmp")) (besideStays : ¬ swept (l ++ [name ++ ".tmp"])) :
    let done := d.performAll (Store.replaceWork (Path.join base name) bytes)
    s.Steps root swept (fun place => place = l ++ [name] ∨ place = l ++ [name ++ ".tmp"]) d done.2 ∧
      (done.1 = .ok () → done.2.files.get? (l ++ [name]) = some (.file bytes) ∧
        done.2.files.read (Path.join base name) = .ok bytes) ∧
      (∀ e, done.1 = .error e →
        (e = .unwritable (Store.temporary (Path.join base name)) ∨ e = .unmovable (Path.join base name)) ∧
          s.Steps root swept (· = l ++ [name ++ ".tmp"]) d done.2) ∧
      (done.2.files.get? (l ++ [name ++ ".tmp"]) = some .directory →
        d.files.get? (l ++ [name ++ ".tmp"]) = some .directory) := by
  intro done
  obtain ⟨wrote, written, beside⟩ := perform_write swept s root d standing base (name ++ ".tmp") l bytes reaches
    stays longer
  have named := temporary_join base name plain longer
  rw [← named] at wrote written beside
  have shape : done = d.performAll (Store.replaceWork (Path.join base name) bytes) := rfl
  simp only [Store.replaceWork, Disk.performAll] at shape
  generalize d.perform (.write (Store.temporary (Path.join base name)) bytes) = first
    at wrote written beside shape
  obtain ⟨result, mid⟩ := first
  cases result with
  | error e =>
      rw [shape]
      refine ⟨steps_weaken s root swept _ _ _ _ wrote fun _ => Or.inr, nofun, ?_, beside⟩
      intro other failed
      cases failed
      exact ⟨.inl rfl, wrote⟩
  | ok =>
      have held := (written rfl).1
      have midStanding := standing_steps s root swept _ _ _ standing wrote
      have midReaches := reaches_moves swept _ _ _ base l wrote.files stays reaches
      obtain ⟨moved, failed⟩ := perform_rename swept s root mid midStanding base (name ++ ".tmp") name l
        bytes midReaches stays longer plain held besideStays
      rw [← named] at moved failed
      dsimp only at shape
      generalize mid.perform (.rename (Store.temporary (Path.join base name)) (Path.join base name)) =
        second at moved failed shape
      obtain ⟨result, last⟩ := second
      cases result with
      | error e =>
          rw [shape]
          have unmoved := steps_weaken s root swept Nothing (· = l ++ [name ++ ".tmp"]) _ _ (failed nofun)
            fun _ inside => False.elim inside
          have both := steps_trans s root swept _ _ _ _ wrote unmoved
          refine ⟨steps_weaken s root swept _ _ _ _ both fun _ => Or.inr, nofun, ?_, ?_⟩
          · intro other failed
            cases failed
            exact ⟨.inr rfl, both⟩
          · rw [((failed nofun).files.get _ besideStays id).trans held]
            nofun
      | ok =>
          rw [shape]
          obtain ⟨renamed, there, noDirectory, usable⟩ := moved rfl
          have lastReaches := reaches_moves swept _ _ _ base l renamed.files stays midReaches
          have read := FileTree.read_join last.files base name l plain (reaches_way _ _ _ _ lastReaches)
          rw [if_pos usable, there] at read
          exact ⟨steps_trans s root swept _ _ _ _ (steps_weaken s root swept _ _ _ _ wrote fun _ => Or.inr)
            (steps_weaken s root swept _ _ _ _ renamed fun _ => Or.symm), fun _ => ⟨there, read⟩, nofun,
            fun found => absurd found noDirectory⟩

end Steps

theorem perform_all_last {ε : Type} (d : Disk) (s : Step) (e : ε) :
    (d.performAll [(s, e)]).2 = (d.perform s).2 := by
  rw [Disk.performAll]
  generalize d.perform s = answer
  obtain ⟨result, next⟩ := answer
  cases result <;> rfl

theorem perform_all_append {ε : Type} (d : Disk) (first second : List (Step × ε)) :
    d.performAll (first ++ second) = match d.performAll first with
      | (.ok (), next) => next.performAll second
      | (.error e, next) => (.error e, next) := by
  induction first generalizing d with
  | nil => rfl
  | cons step rest ih =>
      obtain ⟨s, e⟩ := step
      rw [List.cons_append, Disk.performAll, Disk.performAll]
      generalize d.perform s = answer
      obtain ⟨result, next⟩ := answer
      cases result with
      | ok => exact ih next
      | error reason => rfl

theorem grant_front (d : Disk) : ∃ front, ∀ rest,
    { d with fates := front ++ rest }.grant = (d.grant.1, { d.grant.2 with fates := rest }) := by
  have all (fates : List Fate) (d : Disk) : ∃ front, ∀ rest others,
      { d with fates := others }.grantFrom (front ++ rest) =
        ((d.grantFrom fates).1, { (d.grantFrom fates).2 with fates := rest }) := by
    induction fates generalizing d with
    | nil => exact ⟨[.works], fun _ _ => rfl⟩
    | cons fate later ih =>
        cases fate with
        | works => exact ⟨[.works], fun _ _ => rfl⟩
        | refused => exact ⟨[.refused], fun _ _ => rfl⟩
        | torn kept => exact ⟨[.torn kept], fun _ _ => rfl⟩
        | reclaims which =>
            obtain ⟨front, split⟩ := ih (d.reclaim which)
            refine ⟨.reclaims which :: front, fun rest others => ?_⟩
            have moved : { d with fates := others }.reclaim which = { d.reclaim which with fates := others } := by
              unfold Disk.reclaim
              dsimp only
              split <;> rfl
            rw [List.cons_append, Disk.grantFrom, moved]
            exact split rest others
  obtain ⟨front, split⟩ := all d.fates d
  exact ⟨front, fun rest => split rest _⟩

theorem perform_front (d next : Disk) (s : Step) (done : d.perform s = (.ok (), next)) :
    ∃ front, ∀ rest, { d with fates := front ++ rest }.perform s = (.ok (), { next with fates := rest }) := by
  obtain ⟨front, split⟩ := grant_front d
  refine ⟨front, fun rest => ?_⟩
  unfold Disk.perform at done ⊢
  rw [split rest]
  generalize d.grant = granted at done ⊢
  obtain ⟨grant, mid⟩ := granted
  cases grant with
  | all =>
      obtain ⟨answer, rfl⟩ := Prod.mk.inj done
      exact Prod.ext answer rfl
  | nothing => cases done
  | part kept => cases done

-- To give work up after some of its steps leaves what it leaves if the next step is refused.
theorem perform_all_take {ε : Type} (work : List (Step × ε)) (d next : Disk) (steps : Nat)
    (done : d.performAll (work.take steps) = (.ok (), next)) : d.performAll work = (.ok (), next) ∨
      ∃ fates e, { d with fates }.performAll work = (.error e, { next with fates := [] }) := by
  induction work generalizing d steps with
  | nil => exact .inl (by simpa using done)
  | cons step rest ih =>
      obtain ⟨s, e⟩ := step
      cases steps with
      | zero =>
          obtain ⟨-, rfl⟩ := Prod.mk.inj done
          exact .inr ⟨[.refused], e, rfl⟩
      | succ steps =>
          rw [List.take_succ_cons, Disk.performAll] at done
          rw [Disk.performAll]
          cases performed : d.perform s with
          | mk result mid =>
            rw [performed] at done
            cases result with
            | error reason => cases done
            | ok =>
                rcases ih mid steps done with whole | ⟨fates, error, refused⟩
                · exact .inl whole
                · obtain ⟨front, split⟩ := perform_front d mid s performed
                  exact .inr ⟨front ++ fates, error, by rw [Disk.performAll, split fates]; exact refused⟩

theorem perform_all_take_error {ε : Type} (work : List (Step × ε)) (d next : Disk) (steps : Nat) (error : ε)
    (failed : d.performAll (work.take steps) = (.error error, next)) : d.performAll work = (.error error, next) := by
  rw [← List.take_append_drop steps work, perform_all_append, failed]

theorem bind_ok {ε α β : Type} (x : Except ε α) (f : α → Except ε β) (result : β) (bound : x.bind f = .ok result) :
    ∃ value, x = .ok value ∧ f value = .ok result := by
  cases x with
  | error e => cases bound
  | ok value => exact ⟨value, rfl, bound⟩

theorem map_ok {ε α β : Type} (x : Except ε α) (f : α → β) (result : β) (mapped : x.map f = .ok result) :
    ∃ value, x = .ok value ∧ f value = result := by
  cases x with
  | error e => cases mapped
  | ok value => exact ⟨value, rfl, Except.ok.inj mapped⟩

end IndexKeeper
