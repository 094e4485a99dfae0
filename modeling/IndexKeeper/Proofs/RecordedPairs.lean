import IndexKeeper.Config
import IndexKeeper.Coordinator
import IndexKeeper.Proofs.FileSteps

set_option autoImplicit false

namespace IndexKeeper

instance decideExceptEq {ε α : Type} [DecidableEq ε] [DecidableEq α] : DecidableEq (Except ε α)
  | .error e, .error f => decidable_of_iff (e = f) (by simp)
  | .ok a, .ok b => decidable_of_iff (a = b) (by simp)
  | .error _, .ok _ => isFalse (by simp)
  | .ok _, .error _ => isFalse (by simp)

namespace Store

def sourceAt (root : Location) (source : String) : Location := root ++ ["source"] ++ [source]

def artifactAt (root : Location) (source : String) : Location := sourceAt root source ++ ["build.complog"]

def versionAt (root : Location) (source : String) : Location := sourceAt root source ++ ["version"]

def KeyLost (s : Store) (source : String) (e : StoreError) : Prop :=
  e = .unwritable (temporary (s.versionPath source)) ∨ e = .unmovable (s.versionPath source)

instance (s : Store) (source : String) (e : StoreError) : Decidable (s.KeyLost source e) :=
  inferInstanceAs (Decidable (_ ∨ _))

theorem artifact_error_keeps_key (s : Store) (source : String) (e : StoreError)
    (failed : e = .unwritable (temporary (s.artifactPath source)) ∨ e = .unmovable (s.artifactPath source)) :
    ¬ s.KeyLost source e := by
  have apart : s.artifactPath source ≠ s.versionPath source := fun same =>
    absurd (Path.join_injective (s.sourceDir source) "build.complog" "version" (by decide) (by decide) same)
      (by decide)
  have besideApart : temporary (s.artifactPath source) ≠ temporary (s.versionPath source) := by
    intro same
    have chars := String.toList_inj.mpr same
    simp only [temporary, String.toList_append] at chars
    exact apart (String.toList_inj.mp (List.append_cancel_right chars))
  rcases failed with rfl | rfl
  · rintro (same | same)
    · exact besideApart (StoreError.unwritable.inj same)
    · cases same
  · rintro (same | same)
    · cases same
    · exact apart (StoreError.unmovable.inj same)

end Store

open Store (sourceAt artifactAt versionAt)

section Writing

variable (s : Store) (root : Location) (swept : Location → Prop) (d : Disk)
  (standing : s.Standing root swept d) (source : String)
include standing

theorem source_root_reaches : d.files.Reaches swept s.sourceRoot (root ++ ["source"]) :=
  reaches_join d.files swept s.root "source" root standing.reaches (by decide) (by decide) standing.source
    (source_stays root swept standing.apart [])

theorem source_dir_stays : ¬ swept (sourceAt root source) := by
  simpa [sourceAt] using source_stays root swept standing.apart [source]

theorem source_file_stays (file : String) : ¬ swept (sourceAt root source ++ [file]) := by
  simpa [sourceAt] using source_stays root swept standing.apart [source, file]

-- A failure at the key leaves the artifact replaced.
structure PairWritten (key : String) (bytes : Bytes) (result : Except StoreError Unit) (next : Disk) :
    Prop where
  whole : result = .ok () → next.files.get? (artifactAt root source) = some (.file bytes) ∧
    next.files.get? (versionAt root source) = some (.file (Bytes.ofText key)) ∧
    next.files.read (s.artifactPath source) = .ok bytes ∧
    next.files.read (s.versionPath source) = .ok (Bytes.ofText key)
  partly : ∀ e, result = .error e →
    next.files.get? (versionAt root source) = d.files.get? (versionAt root source) ∧
      if s.KeyLost source e then next.files.get? (artifactAt root source) = some (.file bytes) ∧
        next.files.read (s.artifactPath source) = .ok bytes
      else next.files.get? (artifactAt root source) = d.files.get? (artifactAt root source)

theorem write_pair (reaches : d.files.Reaches swept (s.sourceDir source) (sourceAt root source))
    (key : String) (bytes : Bytes) :
    let done := d.performAll (Store.replaceWork (s.artifactPath source) bytes ++
      Store.replaceWork (s.versionPath source) (Bytes.ofText key))
    s.Steps root swept (fun l => ∃ file, l = sourceAt root source ++ [file]) d done.2 ∧
      PairWritten s root d source key bytes done.1 done.2 := by
  have dirStays := source_dir_stays s root swept d standing source
  have fileStays := source_file_stays s root swept d standing source
  have first := replace_file swept s root d standing (s.sourceDir source) "build.complog"
    (sourceAt root source) bytes reaches dirStays (by decide) (by decide) (fileStays _)
  have artifactNamed : Path.join (s.sourceDir source) "build.complog" = s.artifactPath source := rfl
  rw [artifactNamed] at first
  intro done
  have shape : done = _ := perform_all_append d (Store.replaceWork (s.artifactPath source) bytes)
    (Store.replaceWork (s.versionPath source) (Bytes.ofText key))
  generalize d.performAll (Store.replaceWork (s.artifactPath source) bytes) = answer at first shape
  obtain ⟨result, mid⟩ := answer
  obtain ⟨moved, placed, failed, -⟩ := first
  have one (file : String) : ∃ name, sourceAt root source ++ [file] = sourceAt root source ++ [name] :=
    ⟨file, rfl⟩
  cases result with
  | error e =>
      obtain ⟨which, beside⟩ := failed e rfl
      rw [show done = (.error e, mid) from shape]
      refine ⟨steps_weaken s root swept _ _ _ _ beside fun l here => here ▸ one _, nofun, ?_⟩
      rintro other ⟨⟩
      rw [if_neg (s.artifact_error_keeps_key source e which)]
      exact ⟨beside.files.get _ (fileStays "version") (by simp [versionAt]),
        beside.files.get _ (fileStays "build.complog") (by simp [artifactAt])⟩
  | ok =>
      have midStanding := standing_steps s root swept _ d mid standing moved
      have midReaches := reaches_moves swept _ _ _ _ _ moved.files dirStays reaches
      have last := replace_file swept s root mid midStanding (s.sourceDir source) "version"
        (sourceAt root source) (Bytes.ofText key) midReaches dirStays (by decide) (by decide) (fileStays _)
      have versionNamed : Path.join (s.sourceDir source) "version" = s.versionPath source := rfl
      rw [versionNamed] at last
      dsimp only at shape
      rw [shape]
      generalize mid.performAll (Store.replaceWork (s.versionPath source) (Bytes.ofText key)) = answer
        at last
      obtain ⟨result, next⟩ := answer
      obtain ⟨movedLast, placedLast, failedLast, -⟩ := last
      have both := steps_trans s root swept (fun l => ∃ file, l = sourceAt root source ++ [file]) _ _ _
        (steps_weaken s root swept _ _ _ _ moved fun l here => here.elim (· ▸ one _) (· ▸ one _))
        (steps_weaken s root swept _ _ _ _ movedLast fun l here => here.elim (· ▸ one _) (· ▸ one _))
      obtain ⟨artifact, read⟩ := placed rfl
      have still (touched : Location → Prop) (steps : s.Steps root swept touched mid next)
          (apart : ¬ touched (artifactAt root source)) :
          next.files.get? (artifactAt root source) = some (.file bytes) ∧
            next.files.read (s.artifactPath source) = .ok bytes := by
        have same := steps.files.get _ (fileStays "build.complog") apart
        exact ⟨same.trans artifact, (read_kept swept s root mid next _ _ "build.complog" _ midReaches dirStays
          (by decide) steps same).trans read⟩
      refine ⟨both, ?_, ?_⟩
      · intro done
        obtain ⟨there, readBack⟩ := still _ movedLast (by simp [artifactAt])
        exact ⟨there, (placedLast done).1, readBack, (placedLast done).2⟩
      · intro e failed
        obtain ⟨which, beside⟩ := failedLast e failed
        have lost : s.KeyLost source e := which
        rw [if_pos lost]
        exact ⟨(beside.files.get _ (fileStays "version") (by simp)).trans
            (moved.files.get _ (fileStays "version") (by simp)), still _ beside (by simp [artifactAt])⟩

theorem write_artifact (plain : Path.Plain source) (key : String) (bytes : Bytes) :
    let done := s.writeArtifact d source key bytes
    s.Steps root swept (fun l => (l = sourceAt root source ∧ d.files.get? l = none) ∨
        ∃ file, l = sourceAt root source ++ [file]) d done.2 ∧
      (done.2.files.get? (sourceAt root source) = d.files.get? (sourceAt root source) ∨
        d.files.get? (sourceAt root source) = none ∧
          done.2.files.get? (sourceAt root source) = some .directory) ∧
      PairWritten s root d source key bytes done.1 done.2 := by
  have dirStays := source_dir_stays s root swept d standing source
  have fileStays := source_file_stays s root swept d standing source
  have make := perform_make_directories swept s root d standing s.sourceRoot source (root ++ ["source"])
    (source_root_reaches s root swept d standing) (source_stays root swept standing.apart []) plain dirStays
  have dirNamed : Path.join s.sourceRoot source = s.sourceDir source := rfl
  rw [dirNamed] at make
  intro done
  have shape : done = d.performAll (s.artifactWork source key bytes) := rfl
  rw [Store.artifactWork, Disk.performAll] at shape
  generalize d.perform (.makeDirectories (s.sourceDir source)) = answer at make shape
  obtain ⟨result, made⟩ := answer
  cases result with
  | error e =>
      have still : s.Steps root swept Nothing d made := make.2 (by simp)
      rw [show done = (.error (.noSourceDirectory (s.sourceDir source)), made) from shape]
      refine ⟨steps_weaken s root swept Nothing _ _ _ still fun _ none => False.elim none,
        .inl (still.files.get _ dirStays id), fun none => (by cases none), ?_⟩
      rintro other ⟨⟩
      have kept : ¬ s.KeyLost source (.noSourceDirectory (s.sourceDir source)) := by
        rintro (same | same) <;> cases same
      rw [if_neg kept]
      exact ⟨still.files.get _ (fileStays "version") id, still.files.get _ (fileStays "build.complog") id⟩
  | ok =>
      obtain ⟨making, there, usable⟩ := make.1 rfl
      have making : s.Steps root swept (fun l => l = sourceAt root source ∧ d.files.get? l = none) d made := making
      have madeStanding := standing_steps s root swept _ d made standing making
      have reaches : made.files.Reaches swept (s.sourceDir source) (sourceAt root source) :=
        reaches_join made.files swept s.sourceRoot source (root ++ ["source"])
          (source_root_reaches s root swept made madeStanding) plain usable.2.2 there dirStays
      obtain ⟨writing, whole, partly⟩ := write_pair s root swept made madeStanding source reaches key bytes
      have kept (file : String) : made.files.get? (sourceAt root source ++ [file]) =
          d.files.get? (sourceAt root source ++ [file]) := by
        apply making.files.get _ (fileStays file)
        rintro ⟨same, -⟩
        simpa using congrArg List.length same
      rw [show done = _ from shape]
      have thereStill := writing.files.directories _ dirStays there
      have dir : made.files.get? (sourceAt root source) = d.files.get? (sourceAt root source) ∨
          d.files.get? (sourceAt root source) = none := by
        by_cases vacant : d.files.get? (sourceAt root source) = none
        · exact .inr vacant
        · exact .inl (making.files.get _ dirStays fun touched => vacant (touched.1 ▸ touched.2))
      refine ⟨steps_trans s root swept _ _ _ _ (steps_weaken s root swept _ _ _ _ making fun _ => Or.inl)
        (steps_weaken s root swept _ _ _ _ writing fun _ => Or.inr),
        dir.imp (fun same => (thereStill.trans there.symm).trans same) fun vacant => ⟨vacant, thereStill⟩,
        whole, ?_⟩
      intro e failed
      obtain ⟨version, artifact⟩ := partly e failed
      refine ⟨version.trans (kept "version"), ?_⟩
      by_cases lost : s.KeyLost source e
      · rw [if_pos lost] at artifact ⊢
        exact artifact
      · rw [if_neg lost] at artifact ⊢
        exact artifact.trans (kept "build.complog")

end Writing

theorem source_root_way (s : Store) (root : Location) (t : FileTree) (leads : t.way s.root = .ok root)
    (opened : t.get? (root ++ ["source"]) = some .directory) : t.way s.sourceRoot = .ok (root ++ ["source"]) := by
  rw [Store.sourceRoot, FileTree.way_join t s.root "source" (by decide), leads]
  exact (FileTree.enter_plain t root _ "source" (by decide)).mpr ⟨rfl, by decide, opened⟩

section Reading

variable (s : Store) (root : Location) (t next : FileTree) (formed : t.WellFormed)
  (leads : t.way s.sourceRoot = .ok (root ++ ["source"]))
  (nextLeads : next.way s.sourceRoot = .ok (root ++ ["source"])) (source file : String)

theorem source_way : t.way s.sourceRoot = .ok (root ++ ["source"]) → Path.Plain source →
    t.way (s.sourceDir source) = t.enter (root ++ ["source"]) source := by
  intro leads plain
  rw [Store.sourceDir, FileTree.way_join t s.sourceRoot source plain, leads]
  rfl

include formed leads nextLeads

theorem read_source_file_same (plain : Path.Plain source) (filePlain : Path.Plain file)
    (dir : next.get? (sourceAt root source) = t.get? (sourceAt root source) ∨
      (t.get? (sourceAt root source) = none ∧ next.get? (sourceAt root source) = some .directory))
    (same : next.get? (sourceAt root source ++ [file]) = t.get? (sourceAt root source ++ [file]))
    (short : file.utf8ByteSize ≤ FileTree.nameLimit) :
    next.read (Path.join (s.sourceDir source) file) = t.read (Path.join (s.sourceDir source) file) := by
  have way := source_way s root t source leads plain
  have nextWay := source_way s root next source nextLeads plain
  rcases dir with unchanged | ⟨vacant, made⟩
  · have entered : next.enter (root ++ ["source"]) source = t.enter (root ++ ["source"]) source := by
      unfold FileTree.enter
      rw [show next.get? (root ++ ["source"] ++ [source]) = t.get? (root ++ ["source"] ++ [source]) from unchanged]
    rw [entered, ← way] at nextWay
    cases reached : t.way (s.sourceDir source) with
    | error e =>
        rw [FileTree.read_astray t _ file filePlain e reached,
          FileTree.read_astray next _ file filePlain e (nextWay.trans reached)]
    | ok l =>
        have here : l = sourceAt root source :=
          ((FileTree.enter_plain t _ l source plain).mp (way.symm.trans reached)).1
        subst here
        rw [FileTree.read_join t _ file _ filePlain reached,
          FileTree.read_join next _ file _ filePlain (nextWay.trans reached), same]
  · by_cases long : FileTree.nameLimit < source.utf8ByteSize
    · have enters (tree : FileTree) : tree.enter (root ++ ["source"]) source = .error .nameTooLong := by
        rw [FileTree.enter, if_neg plain.2.1, if_neg plain.2.2.1, if_pos long]
      rw [enters] at way nextWay
      rw [FileTree.read_astray t _ file filePlain _ way, FileTree.read_astray next _ file filePlain _ nextWay]
    · have enters : t.enter (root ++ ["source"]) source = .error .notFound := by
        rw [FileTree.enter, if_neg plain.2.1, if_neg plain.2.2.1, if_neg long,
          show t.get? (root ++ ["source"] ++ [source]) = none from vacant]
      have entered : next.enter (root ++ ["source"]) source = .ok (sourceAt root source) :=
        (FileTree.enter_plain next _ _ source plain).mpr ⟨rfl, Nat.not_lt.mp long, made⟩
      rw [enters] at way
      rw [entered] at nextWay
      have missing : next.get? (sourceAt root source ++ [file]) = none :=
        same.trans (FileTree.nothing_below t formed _ file (by simp [vacant]))
      rw [FileTree.read_astray t _ file filePlain _ way, FileTree.read_join next _ file _ filePlain nextWay,
        missing]
      unfold FileTree.strayed FileTree.refusal FileTree.Usable
      by_cases zero : Char.ofNat 0 ∈ (Path.join (s.sourceDir source) file).toList
      · simp [zero]
      · by_cases longPath : FileTree.pathLimit < (Path.join (s.sourceDir source) file).utf8ByteSize
        · simp [zero, longPath, Nat.not_le.mpr longPath]
        · simp [zero, longPath, Nat.not_lt.mp longPath, short]

end Reading

theorem plain_of_check_name (name : String) (accepted : Config.checkName name = .ok ()) :
    Path.Plain name := by
  unfold Config.checkName at accepted
  split at accepted
  · cases accepted
  · next filled =>
      split at accepted
      · cases accepted
      · next noDots =>
          split at accepted
          · cases accepted
          · next clean =>
              refine ⟨filled, fun dot => noDots (.inl dot), fun dots => noDots (.inr dots), fun slash => ?_⟩
              have allowed := List.find?_eq_none.mp clean '/' slash
              exact absurd allowed (by decide)

structure Call where
  source : String
  key : String
  bytes : Bytes

structure CallDone (c : Coordinator) (d : Disk) (call : Call) (answer : Except StoreError String)
    (after : Coordinator) (next : Disk) : Prop where
  store : after.store = c.store
  others : ∀ other, Path.Plain other → other ≠ call.source →
    after.versionKey? other = c.versionKey? other ∧
      next.files.read (c.store.versionPath other) = d.files.read (c.store.versionPath other) ∧
      next.files.read (c.store.artifactPath other) = d.files.read (c.store.artifactPath other)
  whole : ∀ path, answer = .ok path → after.versionKey? call.source = some call.key ∧
    next.files.read (c.store.versionPath call.source) = .ok (Bytes.ofText call.key) ∧
    next.files.read (c.store.artifactPath call.source) = .ok call.bytes
  partly : ∀ e, answer = .error e → after = c ∧
    next.files.read (c.store.versionPath call.source) = d.files.read (c.store.versionPath call.source) ∧
    next.files.read (c.store.artifactPath call.source) =
      if c.store.KeyLost call.source e then .ok call.bytes
      else d.files.read (c.store.artifactPath call.source)

theorem source_at_injective (root : Location) (source other : String)
    (same : sourceAt root source = sourceAt root other) : source = other := by
  simpa [sourceAt] using same

theorem source_file_injective (root : Location) (source other first second : String)
    (same : sourceAt root source ++ [first] = sourceAt root other ++ [second]) : source = other :=
  source_at_injective root source other (List.append_inj' same rfl).1

theorem record_done (c : Coordinator) (root : Location) (swept : Location → Prop) (d : Disk)
    (standing : c.store.Standing root swept d) (call : Call) (plain : Path.Plain call.source) :
    let done := c.record d call.source call.key call.bytes
    c.store.Standing root swept done.2.2 ∧ CallDone c d call done.1 done.2.1 done.2.2 := by
  obtain ⟨steps, dir, pair⟩ := write_artifact c.store root swept d standing call.source plain call.key call.bytes
  intro done
  have shape : done = c.record d call.source call.key call.bytes := rfl
  unfold Coordinator.record at shape
  generalize c.store.writeArtifact d call.source call.key call.bytes = answer at steps dir pair shape
  obtain ⟨result, next⟩ := answer
  have nextStanding := standing_steps c.store root swept _ d next standing steps
  have leads := reaches_way _ _ _ _ (source_root_reaches c.store root swept d standing)
  have nextLeads := reaches_way _ _ _ _ (source_root_reaches c.store root swept next nextStanding)
  have elsewhere (other file : String) (otherPlain : Path.Plain other) (filePlain : Path.Plain file)
      (short : file.utf8ByteSize ≤ FileTree.nameLimit) (apart : other ≠ call.source) :
      next.files.read (Path.join (c.store.sourceDir other) file) =
        d.files.read (Path.join (c.store.sourceDir other) file) := by
    refine read_source_file_same c.store root d.files next.files standing.formed leads nextLeads other file
      otherPlain filePlain (.inl (steps.files.get _ (source_dir_stays _ _ _ _ standing other) ?_))
      (steps.files.get _ (source_file_stays _ _ _ _ standing other file) ?_) short
    · rintro (⟨same, -⟩ | ⟨name, same⟩)
      · exact apart (source_at_injective root _ _ same)
      · simpa [sourceAt] using congrArg List.length same
    · rintro (⟨same, -⟩ | ⟨name, same⟩)
      · simpa [sourceAt] using congrArg List.length same
      · exact apart (source_file_injective root _ _ _ _ same)
  have here (file : String) (filePlain : Path.Plain file) (short : file.utf8ByteSize ≤ FileTree.nameLimit)
      (same : next.files.get? (sourceAt root call.source ++ [file]) =
        d.files.get? (sourceAt root call.source ++ [file])) :
      next.files.read (Path.join (c.store.sourceDir call.source) file) =
        d.files.read (Path.join (c.store.sourceDir call.source) file) := by
    exact read_source_file_same c.store root d.files next.files standing.formed leads nextLeads call.source
      file plain filePlain dir same short
  have others (after : Coordinator)
      (same : ∀ other, other ≠ call.source → after.versionKey? other = c.versionKey? other) (other : String)
      (otherPlain : Path.Plain other) (apart : other ≠ call.source) :
      after.versionKey? other = c.versionKey? other ∧
        next.files.read (c.store.versionPath other) = d.files.read (c.store.versionPath other) ∧
        next.files.read (c.store.artifactPath other) = d.files.read (c.store.artifactPath other) :=
    ⟨same other apart, elsewhere other "version" otherPlain (by decide) (by decide) apart,
      elsewhere other "build.complog" otherPlain (by decide) (by decide) apart⟩
  cases result with
  | error e =>
      rw [show done = (.error e, c, next) from shape]
      refine ⟨nextStanding, rfl, others c fun _ _ => rfl, nofun, ?_⟩
      rintro other ⟨⟩
      obtain ⟨version, artifact⟩ := pair.partly e rfl
      refine ⟨rfl, here "version" (by decide) (by decide) version, ?_⟩
      by_cases lost : c.store.KeyLost call.source e
      · rw [if_pos lost] at artifact ⊢
        exact artifact.2
      · rw [if_neg lost] at artifact ⊢
        exact here "build.complog" (by decide) (by decide) artifact
  | ok =>
      let stored : StoredArtifact := ⟨call.source, call.key, c.store.artifactPath call.source⟩
      let after : Coordinator := ⟨c.store, c.entries.insert call.source stored⟩
      rw [show done = (.ok stored.path, after, next) from shape]
      obtain ⟨-, -, artifact, version⟩ := pair.whole rfl
      refine ⟨nextStanding, rfl, others after ?_, fun _ _ => ⟨?_, version, artifact⟩, nofun⟩
      · intro other apart
        simp [Coordinator.versionKey?, after, apart]
      · simp [Coordinator.versionKey?, after, stored]

inductive Recorded (c : Coordinator) (d : Disk) :
    List (Call × Except StoreError String) → Coordinator → Disk → Prop where
  | start : Recorded c d [] c d
  | call (history : List (Call × Except StoreError String)) (before : Coordinator) (disk : Disk)
      (call : Call) (reached : Recorded c d history before disk)
      (accepted : Config.checkName call.source = .ok ()) :
      Recorded c d ((call, (before.record disk call.source call.key call.bytes).1) :: history)
        (before.record disk call.source call.key call.bytes).2.1
        (before.record disk call.source call.key call.bytes).2.2

def lastStored (history : List (Call × Except StoreError String)) (source : String) : Option Call :=
  (history.find? fun entry => entry.1.source = source && entry.2.isOk).map Prod.fst

def placed (s : Store) (call : Call) : Except StoreError String → Bool
  | .ok _ => true
  | .error e => decide (s.KeyLost call.source e)

def lastPlaced (s : Store) (history : List (Call × Except StoreError String)) (source : String) :
    Option Call :=
  (history.find? fun entry => entry.1.source = source && placed s entry.1 entry.2).map Prod.fst

theorem last_stored_cons (call : Call) (answer : Except StoreError String)
    (history : List (Call × Except StoreError String)) (source : String) :
    lastStored ((call, answer) :: history) source =
      if call.source = source ∧ answer.isOk = true then some call else lastStored history source := by
  by_cases counts : call.source = source ∧ answer.isOk = true
  · simp [lastStored, counts.1, counts.2]
  · have skipped : (decide (call.source = source) && answer.isOk) = false := by simpa using counts
    simp [lastStored, skipped, counts]

theorem last_placed_cons (s : Store) (call : Call) (answer : Except StoreError String)
    (history : List (Call × Except StoreError String)) (source : String) :
    lastPlaced s ((call, answer) :: history) source =
      if call.source = source ∧ placed s call answer = true then some call
      else lastPlaced s history source := by
  by_cases counts : call.source = source ∧ placed s call answer = true
  · simp [lastPlaced, counts.1, counts.2]
  · have skipped : (decide (call.source = source) && placed s call answer) = false := by simpa using counts
    simp [lastPlaced, skipped, counts]

structure Stored (c : Coordinator) (d : Disk) (history : List (Call × Except StoreError String))
    (after : Coordinator) (next : Disk) (source : String) : Prop where
  key : match lastStored history source with
    | some call => after.versionKey? source = some call.key ∧
        next.files.read (c.store.versionPath source) = .ok (Bytes.ofText call.key)
    | none => after.versionKey? source = c.versionKey? source ∧
        next.files.read (c.store.versionPath source) = d.files.read (c.store.versionPath source)
  artifact : next.files.read (c.store.artifactPath source) =
    match lastPlaced c.store history source with
    | some call => .ok call.bytes
    | none => d.files.read (c.store.artifactPath source)

theorem stored_after (c : Coordinator) (root : Location) (swept : Location → Prop) (d : Disk)
    (standing : c.store.Standing root swept d) (history : List (Call × Except StoreError String))
    (after : Coordinator) (next : Disk) (recorded : Recorded c d history after next) :
    after.store = c.store ∧ c.store.Standing root swept next ∧
      ∀ source, Path.Plain source → Stored c d history after next source := by
  induction recorded with
  | start => exact ⟨rfl, standing, fun source _ => ⟨⟨rfl, rfl⟩, rfl⟩⟩
  | call history before disk call reached accepted ih =>
      obtain ⟨store, stands, stored⟩ := ih
      have plain := plain_of_check_name call.source accepted
      rw [← store] at stands
      obtain ⟨nextStanding, done⟩ := record_done before root swept disk stands call plain
      generalize before.record disk call.source call.key call.bytes = answer at nextStanding done ⊢
      obtain ⟨result, after, next⟩ := answer
      rw [store] at nextStanding
      refine ⟨done.store.trans store, nextStanding, fun source sourcePlain => ?_⟩
      obtain ⟨key, artifact⟩ := stored source sourcePlain
      by_cases same : call.source = source
      · subst same
        cases result with
        | ok path =>
            obtain ⟨newKey, version, there⟩ := done.whole path rfl
            rw [store] at version there
            refine ⟨?_, ?_⟩
            · rw [last_stored_cons, if_pos ⟨rfl, rfl⟩]
              exact ⟨newKey, version⟩
            · rw [last_placed_cons, if_pos ⟨rfl, rfl⟩]
              exact there
        | error e =>
            obtain ⟨rfl, version, there⟩ := done.partly e rfl
            rw [store] at version there
            refine ⟨?_, ?_⟩
            · rw [last_stored_cons, if_neg fun counts => Bool.false_ne_true counts.2, version]
              exact key
            · rw [last_placed_cons, there]
              by_cases lost : c.store.KeyLost call.source e
              · rw [if_pos lost, if_pos ⟨rfl, decide_eq_true lost⟩]
              · rw [if_neg lost, if_neg fun counts => lost (of_decide_eq_true counts.2)]
                exact artifact
      · obtain ⟨other, version, there⟩ := done.others source sourcePlain (Ne.symm same)
        rw [store] at version there
        refine ⟨?_, ?_⟩
        · rw [last_stored_cons, if_neg fun counts => same counts.1, other, version]
          exact key
        · rw [last_placed_cons, if_neg fun counts => same counts.1, there]
          exact artifact

theorem stored_pair_after_calls (c : Coordinator) (root : Location) (swept : Location → Prop) (d : Disk)
    (standing : c.store.Standing root swept d) (history : List (Call × Except StoreError String))
    (after : Coordinator) (next : Disk) (recorded : Recorded c d history after next) :
    (∀ source, Config.checkName source = .ok () → Stored c d history after next source) ∧
    ∀ (call : Call) (e : StoreError), Config.checkName call.source = .ok () →
      (after.record next call.source call.key call.bytes).1 = .error e →
        let left := (after.record next call.source call.key call.bytes).2
        left.1 = after ∧
          left.2.files.read (c.store.versionPath call.source) =
            next.files.read (c.store.versionPath call.source) ∧
          left.2.files.read (c.store.artifactPath call.source) =
            if c.store.KeyLost call.source e then .ok call.bytes
            else next.files.read (c.store.artifactPath call.source) := by
  obtain ⟨store, stands, stored⟩ := stored_after c root swept d standing history after next recorded
  constructor
  · intro source accepted
    exact stored source (plain_of_check_name source accepted)
  · intro call e accepted failed
    rw [← store] at stands ⊢
    exact (record_done after root swept next stands call (plain_of_check_name call.source accepted)).2.partly
      e failed

theorem opened_standing (s : Store) (d : Disk) (formed : d.files.WellFormed)
    (opened : d.files.isDirectory s.sourceRoot = true) (idle : d.doomed = []) :
    ∃ root, s.Standing root Nothing d := by
  cases leads : d.files.way s.root with
  | error e =>
      have astray := FileTree.locate_astray d.files s.root "source" (by decide) e leads
      have path : Path.join s.root "source" = s.sourceRoot := rfl
      rw [path] at astray
      simp [FileTree.isDirectory, FileTree.find, astray] at opened
  | ok root =>
      have there := ((FileTree.is_directory_join d.files s.root "source" root (by decide) leads).mp opened).2
      refine ⟨root, formed, ⟨FileTree.leads_of_enter_all d.files _ root _ leads, ?_⟩, there,
        fun _ none => False.elim none, ?_⟩
      · exact formed.rooted root "source" (by simp [there])
      · rw [idle]
        intro path member
        cases member

namespace KeyRefused

def disk : Disk where
  files := ⟨[(["data"], .directory), (["data", "source"], .directory)], []⟩
  doomed := []
  fates := List.replicate 8 .works ++ [.refused]

def coordinator : Coordinator := ⟨⟨"data"⟩, .empty⟩

def one : Call := ⟨"a", "k1", Bytes.ofText "one"⟩

def two : Call := ⟨"a", "k2", Bytes.ofText "two"⟩

def first : Except StoreError String × Coordinator × Disk :=
  coordinator.record disk one.source one.key one.bytes

def second : Except StoreError String × Coordinator × Disk :=
  first.2.1.record first.2.2 two.source two.key two.bytes

theorem accepted : Config.checkName "a" = .ok () := by decide +kernel

theorem standing : ∃ root, coordinator.store.Standing root Nothing disk :=
  opened_standing coordinator.store disk (FileTree.well_formed_of_entries _ (by decide) (by decide))
    (by decide +kernel) rfl

theorem recorded : Recorded coordinator disk [(one, first.1)] first.2.1 first.2.2 := by
  unfold first
  exact .call [] coordinator disk one .start accepted

end KeyRefused

open KeyRefused in
theorem refused_key_leaves_old_one :
    second.1 = .error (.unwritable "data/source/a/version.tmp") ∧ second.2.1 = first.2.1 ∧
      second.2.2.files.read (coordinator.store.versionPath two.source) =
        first.2.2.files.read (coordinator.store.versionPath two.source) ∧
      second.2.2.files.read (coordinator.store.artifactPath two.source) = .ok two.bytes := by
  obtain ⟨root, stands⟩ := standing
  have failed : second.1 = .error (.unwritable "data/source/a/version.tmp") := by decide +kernel
  have lost : coordinator.store.KeyLost two.source (.unwritable "data/source/a/version.tmp") := by
    decide +kernel
  have every := stored_pair_after_calls coordinator root Nothing disk stands [(one, first.1)] first.2.1
    first.2.2 recorded
  refine ⟨failed, ?_⟩
  unfold second at failed ⊢
  have left := every.2 two (.unwritable "data/source/a/version.tmp") accepted failed
  rw [if_pos lost] at left
  exact left

open KeyRefused in
theorem refused_key_parts_artifact_and_key :
    first.2.2.files.read "data/source/a/build.complog" = .ok (Bytes.ofText "one") ∧
      second.1.isOk = false ∧ second.2.1.versionKey? "a" = some "k1" ∧
      second.2.2.files.read "data/source/a/version" = .ok (Bytes.ofText "k1") ∧
      second.2.2.files.read "data/source/a/build.complog" = .ok (Bytes.ofText "two") := by
  decide +kernel

end IndexKeeper
