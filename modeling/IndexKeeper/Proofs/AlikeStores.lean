import IndexKeeper.Proofs.FilePolls

set_option autoImplicit false

namespace IndexKeeper

open Store (Unkept Indexed sourceAt)

namespace FileTree

def Avoids (t : FileTree) (foreign : Location → Prop) : Location → List String → Prop
  | _, [] => True
  | l, name :: rest => (name ≠ "." → name ≠ ".." → ¬ foreign (l ++ [name])) ∧
      ∀ next, t.enter l name = .ok next → Avoids t foreign next rest

section Avoids

variable (t other : FileTree) (foreign : Location → Prop) (same : ∀ l, ¬ foreign l → other.get? l = t.get? l)
include same

theorem enter_alike (l : Location) (name : String)
    (avoids : name ≠ "." → name ≠ ".." → ¬ foreign (l ++ [name])) : other.enter l name = t.enter l name := by
  unfold enter
  by_cases dot : name = "."
  · rw [if_pos dot, if_pos dot]
  · by_cases dots : name = ".."
    · rw [if_neg dot, if_neg dot, if_pos dots, if_pos dots]
    · rw [same _ (avoids dot dots)]

theorem walk_alike (slash : Bool) (l : Location) (names : List String) (avoids : t.Avoids foreign l names) :
    other.walk slash l names = t.walk slash l names ∧ ∀ parent name ends,
      t.walk slash l names = .ok (.named parent name ends) → ¬ foreign (parent ++ [name]) := by
  induction names generalizing l with
  | nil => exact ⟨rfl, fun _ _ _ found => by cases found⟩
  | cons name rest ih =>
      obtain ⟨here, further⟩ := avoids
      have entered := enter_alike t other foreign same l name here
      cases rest with
      | nil =>
          unfold walk
          by_cases dots : name = "." ∨ name = ".."
          · rw [if_pos dots, if_pos dots, entered]
            refine ⟨rfl, fun parent last ends found => ?_⟩
            cases reached : t.enter l name with
            | error e => rw [reached] at found; cases found
            | ok next => rw [reached] at found; cases found
          · rw [if_neg dots, if_neg dots]
            refine ⟨rfl, fun parent last ends found => ?_⟩
            split at found
            · cases found
            · cases found
              exact here (fun dot => dots (.inl dot)) fun dot => dots (.inr dot)
      | cons second more =>
          rw [walk, walk, entered]
          · cases reached : t.enter l name with
            | error e => exact ⟨rfl, fun _ _ _ found => by cases found⟩
            | ok next => exact ih next (further next reached)
          all_goals simp

theorem read_alike (path : String) (here : other.workingDirectory = t.workingDirectory)
    (avoids : t.Avoids foreign (t.startOf path) (Path.segments path)) : other.read path = t.read path := by
  obtain ⟨walked, last⟩ := walk_alike t other foreign same (Path.endsWithSlash path) _ _ avoids
  have located : other.locate path = t.locate path := by
    unfold locate
    rw [here]
    unfold startOf at walked
    rw [walked]
  have found : other.find path = t.find path := by
    unfold find
    rw [located]
    cases place : t.locate path with
    | error e => rfl
    | ok place' =>
        cases place' with
        | directory l => rfl
        | named parent name ends =>
            have named : t.walk (Path.endsWithSlash path) (t.startOf path) (Path.segments path) =
                .ok (.named parent name ends) := by
              unfold locate at place
              split at place
              · cases place
              · split at place
                · cases place
                · split at place
                  · cases place
                  · exact place
            dsimp only
            rw [same _ (last parent name ends named)]
  unfold read
  rw [found]

end Avoids

end FileTree

namespace Store

-- Two trees with one store in place that differ in a part of them only.
structure Alike (s : Store) (root : Location) (foreign : Location → Prop) (t other : FileTree) : Prop where
  place : s.InPlace root t
  otherPlace : s.InPlace root other
  here : other.workingDirectory = t.workingDirectory
  same : ∀ l, ¬ foreign l → other.get? l = t.get? l

def Agree (s : Store) (root : Location) (foreign : Location → Prop) (change otherChange : Except FileError FileTree) :
    Prop :=
  (∃ e, change = .error e ∧ otherChange = .error e) ∨
    ∃ t other, change = .ok t ∧ otherChange = .ok other ∧ s.Alike root foreign t other

def Local (s : Store) (root : Location) (foreign : Location → Prop) (step : Step) : Prop :=
  ∀ t other, s.Alike root foreign t other →
    (step.apply other).1 = (step.apply t).1 ∧ s.Alike root foreign (step.apply t).2 (step.apply other).2 ∧
      ∀ kept, s.Alike root foreign (step.cutOff kept t) (step.cutOff kept other)

section Alike

variable (s : Store) (root : Location) (foreign : Location → Prop)

theorem agree_total (change : FileTree → Except FileError FileTree) (t other : FileTree)
    (alike : s.Alike root foreign t other) (agree : s.Agree root foreign (change t) (change other)) :
    (Step.total change other).1 = (Step.total change t).1 ∧
      s.Alike root foreign (Step.total change t).2 (Step.total change other).2 := by
  unfold Step.total
  rcases agree with ⟨e, failed, otherFailed⟩ | ⟨next, otherNext, done, otherDone, still⟩
  · rw [failed, otherFailed]
    exact ⟨rfl, alike⟩
  · rw [done, otherDone]
    exact ⟨rfl, still⟩

theorem alike_moves (touched otherTouched : Location → Prop) (t other next otherNext : FileTree)
    (alike : s.Alike root foreign t other) (moves : Moves Nothing touched t next)
    (otherMoves : Moves Nothing otherTouched other otherNext)
    (same : ∀ l, ¬ foreign l → otherNext.get? l = next.get? l) : s.Alike root foreign next otherNext where
  place := s.place_moves root t alike.place [] touched next
    (moves_wider _ _ _ _ _ moves fun _ none => False.elim none)
  otherPlace := s.place_moves root other alike.otherPlace [] otherTouched otherNext
    (moves_wider _ _ _ _ _ otherMoves fun _ none => False.elim none)
  here := otherMoves.here.trans (alike.here.trans moves.here.symm)
  same := same

theorem get_set_alike (t other : FileTree) (same : ∀ l, ¬ foreign l → other.get? l = t.get? l) (l : Location)
    (inside : l ≠ []) (e : Entry) (place : Location) (own : ¬ foreign place) :
    (other.set l e).get? place = (t.set l e).get? place := by
  rw [FileTree.get_set _ _ _ _ inside, FileTree.get_set _ _ _ _ inside, same place own]

theorem get_erase_alike (t other : FileTree) (same : ∀ l, ¬ foreign l → other.get? l = t.get? l) (l : Location)
    (inside : l ≠ []) (place : Location) (own : ¬ foreign place) :
    (other.erase l).get? place = (t.erase l).get? place := by
  rw [FileTree.get_erase _ _ _ inside, FileTree.get_erase _ _ _ inside, same place own]

end Alike

section Source

variable (s : Store) (root : Location) (foreign : Location → Prop) (name : String) (plain : Path.Plain name)
  (own : ∀ tail, ¬ foreign (sourceAt root name ++ tail))

theorem source_dir_reaches (t : FileTree) (place : s.InPlace root t) (plain : Path.Plain name) (l : Location)
    (leads : t.way (s.sourceDir name) = .ok l) :
    l = sourceAt root name ∧ t.Reaches Nothing (s.sourceDir name) (sourceAt root name) := by
  have entered := (source_way s root t name (s.place_source_way root t place) plain).symm.trans leads
  obtain ⟨rfl, -, found⟩ := (FileTree.enter_plain t _ l name plain).mp entered
  exact ⟨rfl, FileTree.leads_of_enter_all t _ _ _ leads, found⟩

include own plain

theorem source_dir_alike (t other : FileTree) (alike : s.Alike root foreign t other) :
    other.way (s.sourceDir name) = t.way (s.sourceDir name) := by
  rw [source_way s root t name (s.place_source_way root t alike.place) plain,
    source_way s root other name (s.place_source_way root other alike.otherPlace) plain]
  exact FileTree.enter_alike t other foreign alike.same _ name fun _ _ => by simpa [sourceAt] using own []

theorem make_directory_local : s.Local root foreign (.makeDirectories (s.sourceDir name)) := by
  intro t other alike
  refine ⟨?_, ?_, fun _ => alike⟩
  all_goals
    dsimp only [Step.makeDirectories, Step.whole, sourceDir]
    rw [make_directories_join t s.sourceRoot name _ plain (s.place_source_way root t alike.place),
      make_directories_join other s.sourceRoot name _ plain (s.place_source_way root other alike.otherPlace),
      alike.same _ (by simpa [sourceAt] using own [])]
  · split
    · split <;> rfl
    · rfl
  · split
    · split
      · have moves (tree : FileTree) (place : s.InPlace root tree) :=
          set_directory_moves Nothing tree (root ++ ["source"]) name place.source plain
        exact alike_moves s root foreign _ _ _ _ _ _ alike (moves t alike.place) (moves other alike.otherPlace)
          (get_set_alike foreign t other alike.same _ (by simp) .directory)
      · exact alike
    · exact alike

theorem write_agrees (file : String) (filePlain : Path.Plain file) (bytes : Bytes) (t other : FileTree)
    (alike : s.Alike root foreign t other) :
    s.Agree root foreign (t.write (Path.join (s.sourceDir name) file) bytes)
      (other.write (Path.join (s.sourceDir name) file) bytes) := by
  have ways := source_dir_alike s root foreign name plain own t other alike
  unfold FileTree.write
  cases way : t.way (s.sourceDir name) with
  | error e =>
      unfold FileTree.fileLocation
      rw [FileTree.locate_astray t _ file filePlain e way,
        FileTree.locate_astray other _ file filePlain e (ways.trans way)]
      exact .inl ⟨_, rfl, rfl⟩
  | ok l =>
      obtain ⟨rfl, reaches⟩ := source_dir_reaches s root name t alike.place plain l way
      have otherReaches := (source_dir_reaches s root name other alike.otherPlace plain _ (ways.trans way)).2
      rw [FileTree.file_location_join t _ file _ filePlain way,
        FileTree.file_location_join other _ file _ filePlain (ways.trans way), alike.same _ (own [file])]
      split
      · split
        · exact .inl ⟨_, rfl, rfl⟩
        · next noDirectory =>
            have otherNone := (alike.same _ (own [file])).symm ▸ noDirectory
            exact .inr ⟨_, _, rfl, rfl, alike_moves s root foreign _ _ _ _ _ _ alike
              (set_file_moves Nothing t _ file bytes reaches.2 filePlain noDirectory)
              (set_file_moves Nothing other _ file bytes otherReaches.2 filePlain otherNone)
              (get_set_alike foreign t other alike.same _ (by simp) _)⟩
      · exact .inl ⟨_, rfl, rfl⟩

theorem write_local (file : String) (filePlain : Path.Plain file) (bytes : Bytes) :
    s.Local root foreign (.write (Path.join (s.sourceDir name) file) bytes) := by
  intro t other alike
  have agrees (part : Bytes) := agree_total s root foreign (fun t => t.write (Path.join (s.sourceDir name) file) part)
    t other alike (write_agrees s root foreign name plain own file filePlain part t other alike)
  exact ⟨(agrees bytes).1, (agrees bytes).2, fun kept => (agrees (bytes.take kept)).2⟩

theorem rename_agrees (file target : String) (filePlain : Path.Plain file) (targetPlain : Path.Plain target)
    (t other : FileTree) (alike : s.Alike root foreign t other) :
    s.Agree root foreign (t.rename (Path.join (s.sourceDir name) file) (Path.join (s.sourceDir name) target))
      (other.rename (Path.join (s.sourceDir name) file) (Path.join (s.sourceDir name) target)) := by
  have ways := source_dir_alike s root foreign name plain own t other alike
  cases way : t.way (s.sourceDir name) with
  | error e =>
      unfold FileTree.rename FileTree.find
      rw [FileTree.locate_astray t _ file filePlain e way,
        FileTree.locate_astray other _ file filePlain e (ways.trans way)]
      exact .inl ⟨_, rfl, rfl⟩
  | ok l =>
      obtain ⟨rfl, reaches⟩ := source_dir_reaches s root name t alike.place plain l way
      have otherReaches := (source_dir_reaches s root name other alike.otherPlace plain _ (ways.trans way)).2
      have renamed := rename_join t _ file target _ filePlain targetPlain way
      have otherRenamed := rename_join other _ file target _ filePlain targetPlain (ways.trans way)
      rw [alike.same _ (own [file]), alike.same _ (own [target])] at otherRenamed
      by_cases usable : FileTree.Usable (s.sourceDir name) file
      · rw [if_pos usable] at renamed otherRenamed
        cases held : t.get? (sourceAt root name ++ [file]) with
        | none =>
            rw [held] at renamed otherRenamed
            exact .inl ⟨_, renamed, otherRenamed⟩
        | some entry =>
            rw [held] at renamed otherRenamed
            cases entry with
            | directory => exact .inl ⟨_, renamed, otherRenamed⟩
            | file bytes =>
                dsimp only at renamed otherRenamed
                split at renamed
                · next fits =>
                    rw [if_pos fits] at otherRenamed
                    split at renamed
                    · next directory =>
                        rw [if_pos directory] at otherRenamed
                        exact .inl ⟨_, renamed, otherRenamed⟩
                    · next noDirectory =>
                        rw [if_neg noDirectory] at otherRenamed
                        exact .inr ⟨_, _, renamed, otherRenamed, alike_moves s root foreign _ _ _ _ _ _ alike
                          (rename_moves Nothing t alike.place.formed _ file target _ bytes reaches filePlain
                            targetPlain held _ renamed).1
                          (rename_moves Nothing other alike.otherPlace.formed _ file target _ bytes otherReaches
                            filePlain targetPlain ((alike.same _ (own [file])).trans held) _ otherRenamed).1
                          (get_set_alike foreign _ _ (get_erase_alike foreign t other alike.same _ (by simp)) _
                            (by simp) _)⟩
                · next unfit =>
                    rw [if_neg unfit] at otherRenamed
                    exact .inl ⟨_, renamed, otherRenamed⟩
      · rw [if_neg usable] at renamed otherRenamed
        exact .inl ⟨_, renamed, otherRenamed⟩

theorem rename_local (file target : String) (filePlain : Path.Plain file) (targetPlain : Path.Plain target) :
    s.Local root foreign
      (.rename (Path.join (s.sourceDir name) file) (Path.join (s.sourceDir name) target)) := by
  intro t other alike
  obtain ⟨answer, after⟩ := agree_total s root foreign
    (fun t => t.rename (Path.join (s.sourceDir name) file) (Path.join (s.sourceDir name) target)) t other alike
    (rename_agrees s root foreign name plain own file target filePlain targetPlain t other alike)
  exact ⟨answer, after, fun _ => alike⟩

theorem artifact_work_local (key : String) (bytes : Bytes) :
    ∀ step ∈ s.artifactWork name key bytes, s.Local root foreign step.1 := by
  have beside (file : String) (filePlain : Path.Plain file) (longer : Path.Plain (file ++ ".tmp")) (part : Bytes) :
      ∀ step ∈ replaceWork (Path.join (s.sourceDir name) file) part, s.Local root foreign step.1 := by
    rw [replaceWork, temporary_join _ file filePlain longer]
    simp only [List.forall_mem_cons, List.not_mem_nil, false_implies, implies_true, and_true]
    exact ⟨write_local s root foreign name plain own _ longer part,
      rename_local s root foreign name plain own _ file longer filePlain⟩
  rw [artifactWork]
  simp only [List.forall_mem_cons, List.forall_mem_append]
  exact ⟨make_directory_local s root foreign name plain own, beside "build.complog" (by decide) (by decide) bytes,
    beside "version" (by decide) (by decide) _⟩

end Source

structure AlikeDisks (s : Store) (root : Location) (foreign : Location → Prop) (d other : Disk) : Prop where
  files : s.Alike root foreign d.files other.files
  doomed : s.Doomed markers d
  otherDoomed : s.Doomed markers other
  fates : other.fates = d.fates

end Store

theorem grant_alike (d other : Disk) (fates : other.fates = d.fates) :
    other.grant.1 = d.grant.1 ∧ other.grant.2.fates = d.grant.2.fates := by
  unfold Disk.grant
  rw [fates]
  clear fates
  generalize d.fates = fates
  induction fates generalizing d other with
  | nil => exact ⟨rfl, rfl⟩
  | cons fate rest ih =>
      cases fate with
      | works => exact ⟨rfl, rfl⟩
      | refused => exact ⟨rfl, rfl⟩
      | torn kept => exact ⟨rfl, rfl⟩
      | reclaims which => exact ih (d.reclaim which) (other.reclaim which)

section Disks

variable (s : Store) (root : Location) (foreign : Location → Prop)
  (swept : ∀ l, Unkept root markers l → foreign l)
include swept

theorem grant_keeps_alike (d other : Disk) (alike : s.AlikeDisks root foreign d other) :
    other.grant.1 = d.grant.1 ∧ s.AlikeDisks root foreign d.grant.2 other.grant.2 := by
  obtain ⟨granted, fates⟩ := grant_alike d other alike.fates
  have steps := grant_steps s root _ d (s.place_standing root _ alike.files.place markers d rfl alike.doomed)
  have otherSteps := grant_steps s root _ other
    (s.place_standing root _ alike.files.otherPlace markers other rfl alike.otherDoomed)
  refine ⟨granted, ⟨?_, ?_, ?_, ?_⟩, fun path member => alike.doomed path (steps.doomed path member),
    fun path member => alike.otherDoomed path (otherSteps.doomed path member), fates⟩
  · exact s.place_moves root _ alike.files.place markers Nothing _ steps.files
  · exact s.place_moves root _ alike.files.otherPlace markers Nothing _ otherSteps.files
  · exact otherSteps.files.here.trans (alike.files.here.trans steps.files.here.symm)
  · intro l inside
    have stays : ¬ Unkept root markers l := fun gone => inside (swept l gone)
    rw [otherSteps.files.get l stays id, steps.files.get l stays id, alike.files.same l inside]

theorem perform_alike (step : Step) (within : s.Local root foreign step) (d other : Disk)
    (alike : s.AlikeDisks root foreign d other) :
    (other.perform step).1 = (d.perform step).1 ∧
      s.AlikeDisks root foreign (d.perform step).2 (other.perform step).2 := by
  obtain ⟨granted, after⟩ := grant_keeps_alike s root foreign swept d other alike
  unfold Disk.perform
  generalize d.grant = grant at granted after ⊢
  generalize other.grant = otherGrant at granted after ⊢
  obtain ⟨grant, mid⟩ := grant
  obtain ⟨otherGrant, otherMid⟩ := otherGrant
  obtain rfl : otherGrant = grant := granted
  obtain ⟨answer, whole, part⟩ := within mid.files otherMid.files after.files
  cases otherGrant with
  | all => exact ⟨answer, whole, after.doomed, after.otherDoomed, after.fates⟩
  | nothing => exact ⟨rfl, after⟩
  | part kept => exact ⟨rfl, part kept, after.doomed, after.otherDoomed, after.fates⟩

theorem perform_all_alike (work : Store.Work) (within : ∀ step ∈ work, s.Local root foreign step.1) (d other : Disk)
    (alike : s.AlikeDisks root foreign d other) :
    (other.performAll work).1 = (d.performAll work).1 ∧
      s.AlikeDisks root foreign (d.performAll work).2 (other.performAll work).2 := by
  induction work generalizing d other with
  | nil => exact ⟨rfl, alike⟩
  | cons step rest ih =>
      obtain ⟨step, e⟩ := step
      obtain ⟨answer, after⟩ := perform_alike s root foreign swept step (within _ List.mem_cons_self) d other alike
      rw [Disk.performAll, Disk.performAll]
      generalize d.perform step = done at answer after ⊢
      generalize other.perform step = otherDone at answer after ⊢
      obtain ⟨result, mid⟩ := done
      obtain ⟨otherResult, otherMid⟩ := otherDone
      obtain rfl : otherResult = result := answer
      cases otherResult with
      | error reason => exact ⟨rfl, after⟩
      | ok => exact ih (fun next member => within next (List.mem_cons_of_mem _ member)) mid otherMid after

end Disks

end IndexKeeper
