import IndexKeeper.Proofs.TreeWays
import IndexKeeper.Store

set_option autoImplicit false

namespace IndexKeeper

-- What a change is not about can only vanish.
structure Moves (swept touched : Location → Prop) (t next : FileTree) : Prop where
  get : ∀ l, ¬ swept l → ¬ touched l → next.get? l = t.get? l
  lost : ∀ l, ¬ touched l → next.get? l = t.get? l ∨ next.get? l = none
  directories : ∀ l, ¬ swept l → t.get? l = some .directory → next.get? l = some .directory
  formed : t.WellFormed → next.WellFormed
  here : next.workingDirectory = t.workingDirectory

def Nothing (_ : Location) : Prop := False

theorem moves_refl (swept touched : Location → Prop) (t : FileTree) : Moves swept touched t t :=
  ⟨fun _ _ _ => rfl, fun _ _ => .inl rfl, fun _ _ found => found, id, rfl⟩

theorem moves_trans (swept touched : Location → Prop) (a b c : FileTree) (first : Moves swept touched a b)
    (second : Moves swept touched b c) : Moves swept touched a c :=
  ⟨fun l stays apart => (second.get l stays apart).trans (first.get l stays apart),
    fun l apart => (second.lost l apart).elim
      (fun same => (first.lost l apart).imp same.trans same.trans) .inr,
    fun l stays found => second.directories l stays (first.directories l stays found),
    fun formed => second.formed (first.formed formed), second.here.trans first.here⟩

theorem moves_weaken (swept touched more : Location → Prop) (t next : FileTree)
    (moves : Moves swept touched t next) (wider : ∀ l, touched l → more l) : Moves swept more t next :=
  ⟨fun l stays apart => moves.get l stays fun inside => apart (wider l inside),
    fun l apart => moves.lost l fun inside => apart (wider l inside), moves.directories, moves.formed,
    moves.here⟩

theorem moves_before (swept touched : Location → Prop) (t next : FileTree) (moves : Moves swept touched t next)
    (l : Location) (e : Entry) (apart : ¬ touched l) (found : next.get? l = some e) : t.get? l = some e := by
  rcases moves.lost l apart with same | vanished
  · exact same ▸ found
  · rw [vanished] at found
    cases found

theorem moves_wider (swept wide touched : Location → Prop) (t next : FileTree)
    (moves : Moves swept touched t next) (wider : ∀ l, swept l → wide l) : Moves wide touched t next :=
  ⟨fun l stays => moves.get l fun inside => stays (wider l inside), moves.lost,
    fun l stays => moves.directories l fun inside => stays (wider l inside), moves.formed, moves.here⟩

def FileTree.Reaches (t : FileTree) (swept : Location → Prop) (path : String) (l : Location) : Prop :=
  t.Leads swept (t.startOf path) (Path.segments path) l ∧ t.get? l = some .directory

theorem reaches_way (t : FileTree) (swept : Location → Prop) (path : String) (l : Location)
    (reaches : t.Reaches swept path l) : t.way path = .ok l :=
  FileTree.enter_all_of_leads t swept _ l _ reaches.1

theorem reaches_moves (swept touched : Location → Prop) (t next : FileTree) (path : String) (l : Location)
    (moves : Moves swept touched t next) (stays : ¬ swept l) (reaches : t.Reaches swept path l) :
    next.Reaches swept path l := by
  refine ⟨?_, moves.directories l stays reaches.2⟩
  have start : next.startOf path = t.startOf path := by unfold FileTree.startOf; rw [moves.here]
  rw [start]
  exact FileTree.leads_kept t next swept _ l _ reaches.1 moves.directories

theorem reaches_narrower (swept wide : Location → Prop) (t : FileTree) (path : String) (l : Location)
    (reaches : t.Reaches wide path l) (wider : ∀ place, swept place → wide place) :
    t.Reaches swept path l := by
  obtain ⟨leads, found⟩ := reaches
  refine ⟨?_, found⟩
  generalize t.startOf path = start at leads ⊢
  generalize Path.segments path = names at leads ⊢
  clear found
  induction leads with
  | here l => exact .here l
  | step l next last name rest entered stays further ih =>
      exact .step l next last name rest entered (fun inside => stays (wider next inside)) ih

theorem leads_append (t : FileTree) (swept : Location → Prop) (l next last : Location)
    (names : List String) (name : String) (leads : t.Leads swept l names next)
    (entered : t.enter next name = .ok last) (stays : ¬ swept last) :
    t.Leads swept l (names ++ [name]) last := by
  induction leads with
  | here l => exact .step l last last name [] entered stays (.here last)
  | step l middle next first rest enters middleStays further ih =>
      exact .step l middle last first (rest ++ [name]) enters middleStays (ih entered)

theorem reaches_join (t : FileTree) (swept : Location → Prop) (base name : String) (l : Location)
    (reaches : t.Reaches swept base l) (plain : Path.Plain name)
    (short : name.utf8ByteSize ≤ FileTree.nameLimit) (found : t.get? (l ++ [name]) = some .directory)
    (stays : ¬ swept (l ++ [name])) : t.Reaches swept (Path.join base name) (l ++ [name]) := by
  refine ⟨?_, found⟩
  unfold FileTree.startOf
  rw [Path.segments_join base name plain, Path.absolute_join base name plain]
  exact leads_append t swept _ l _ _ name reaches.1
    ((FileTree.enter_plain t l _ name plain).mpr ⟨rfl, short, found⟩) stays

structure Store.Standing (s : Store) (root : Location) (swept : Location → Prop) (d : Disk) : Prop where
  formed : d.files.WellFormed
  reaches : d.files.Reaches swept s.root root
  source : d.files.get? (root ++ ["source"]) = some .directory
  apart : ∀ l, swept l → root ++ ["index"] <+: l
  doomed : ∀ path ∈ d.doomed, ∃ index, Path.Plain index ∧ path = s.indexDir index ∧
    ∀ l, root ++ ["index", index] <+: l → swept l

theorem source_stays (root : Location) (swept : Location → Prop)
    (apart : ∀ l, swept l → root ++ ["index"] <+: l) (tail : Location) :
    ¬ swept (root ++ "source" :: tail) := by
  intro inside
  obtain ⟨rest, same⟩ := apart _ inside
  simp at same

theorem root_stays (root : Location) (swept : Location → Prop)
    (apart : ∀ l, swept l → root ++ ["index"] <+: l) : ¬ swept root := by
  intro inside
  have longer := (apart _ inside).length_le
  rw [List.length_append, List.length_singleton] at longer
  exact Nat.not_succ_le_self _ longer

-- A directory given up before is let go of only once it is gone.
structure Store.Steps (s : Store) (root : Location) (swept touched : Location → Prop) (d next : Disk) :
    Prop where
  files : Moves swept touched d.files next.files
  doomed : ∀ path ∈ next.doomed, path ∈ d.doomed
  dropped : ∀ index, Path.Plain index → ¬ touched (root ++ ["index"] ++ [index]) →
    s.indexDir index ∈ d.doomed → s.indexDir index ∉ next.doomed → FileTree.Usable s.indexRoot index →
    next.files.get? (root ++ ["index"] ++ [index]) ≠ some .directory

section Steps

variable (s : Store) (root : Location) (swept touched : Location → Prop)

theorem steps_refl (d : Disk) : s.Steps root swept touched d d :=
  ⟨moves_refl swept touched d.files, fun _ member => member, fun _ _ _ member gone => absurd member gone⟩

theorem steps_trans (a b c : Disk) (first : s.Steps root swept touched a b)
    (second : s.Steps root swept touched b c) : s.Steps root swept touched a c := by
  refine ⟨moves_trans swept touched _ _ _ first.files second.files,
    fun path member => first.doomed path (second.doomed path member), ?_⟩
  intro index plain apart member gone usable
  by_cases still : s.indexDir index ∈ b.doomed
  · exact second.dropped index plain apart still gone usable
  · have left := first.dropped index plain apart member still usable
    rcases second.files.lost _ apart with same | vanished
    · rwa [same]
    · rw [vanished]
      simp

theorem steps_weaken (more : Location → Prop) (d next : Disk) (steps : s.Steps root swept touched d next)
    (wider : ∀ l, touched l → more l) : s.Steps root swept more d next :=
  ⟨moves_weaken swept touched more _ _ steps.files wider, steps.doomed,
    fun index plain apart => steps.dropped index plain fun inside => apart (wider _ inside)⟩

theorem steps_wider (wide : Location → Prop) (d next : Disk) (steps : s.Steps root swept touched d next)
    (wider : ∀ l, swept l → wide l) : s.Steps root wide touched d next :=
  ⟨moves_wider swept wide touched _ _ steps.files wider, steps.doomed, steps.dropped⟩

theorem steps_of_moves (d : Disk) (files : FileTree) (fates : List Fate)
    (moves : Moves swept touched d.files files) :
    s.Steps root swept touched d ⟨files, d.doomed, fates⟩ :=
  ⟨moves, fun _ member => member, fun _ _ _ member gone => absurd member gone⟩

end Steps

theorem standing_steps (s : Store) (root : Location) (swept touched : Location → Prop) (d next : Disk)
    (standing : s.Standing root swept d) (steps : s.Steps root swept touched d next) :
    s.Standing root swept next where
  formed := steps.files.formed standing.formed
  reaches := reaches_moves swept touched _ _ _ _ steps.files (root_stays root swept standing.apart)
    standing.reaches
  source := steps.files.directories _ (source_stays root swept standing.apart []) standing.source
  apart := standing.apart
  doomed := fun path member => standing.doomed path (steps.doomed path member)

theorem remove_index (s : Store) (root : Location) (swept : Location → Prop) (t : FileTree)
    (formed : t.WellFormed) (index : String) (way : t.way s.root = .ok root) (plain : Path.Plain index)
    (covered : ∀ l, root ++ ["index", index] <+: l → swept l) :
    Moves swept Nothing t (t.removeDirectory (s.indexDir index)).2 ∧
      (FileTree.Usable s.indexRoot index →
        (t.removeDirectory (s.indexDir index)).2.get? (root ++ ["index"] ++ [index]) ≠ some .directory) := by
  have branch : t.way s.indexRoot = t.enter root "index" := by
    rw [Store.indexRoot, FileTree.way_join t s.root "index" (by decide), way]
    rfl
  rcases FileTree.remove_directory_join t s.indexRoot index plain with ⟨unmoved, absent⟩ | ⟨l, leads, gone⟩
  · have unmoved : (t.removeDirectory (s.indexDir index)).2 = t := unmoved
    rw [unmoved]
    refine ⟨moves_refl swept Nothing t, fun usable found => ?_⟩
    have above := formed.rooted (root ++ ["index"]) index (by rw [found]; simp)
    have entered := (FileTree.enter_plain t root _ "index" (by decide)).mpr ⟨rfl, by decide, above⟩
    exact absent _ (branch.trans entered) usable found
  · have erased : (t.removeDirectory (s.indexDir index)).2 = t.erase (l ++ [index]) := gone
    rw [erased]
    rw [branch] at leads
    obtain ⟨rfl, -, -⟩ := (FileTree.enter_plain t root l "index" (by decide)).mp leads
    have look (other : Location) := FileTree.get_erase t (root ++ ["index"] ++ [index]) other (by simp)
    have outside : ∀ other, ¬ swept other → ¬ root ++ ["index"] ++ [index] <+: other := by
      intro other stays below
      exact stays (covered other (by simpa using below))
    refine ⟨⟨?_, ?_, ?_, fun formed => FileTree.well_formed_erase t formed _ (by simp), rfl⟩, ?_⟩
    · intro other stays _
      rw [look, if_neg (outside other stays)]
    · intro other _
      rw [look]
      split
      · exact .inr rfl
      · exact .inl rfl
    · intro other stays directory
      rw [look, if_neg (outside other stays), directory]
    · intro _
      rw [look, if_pos List.prefix_rfl]
      simp

theorem reclaim_steps (s : Store) (root : Location) (swept : Location → Prop) (d : Disk) (which : Nat)
    (standing : s.Standing root swept d) : s.Steps root swept Nothing d (d.reclaim which) := by
  unfold Disk.reclaim
  split
  · exact steps_refl s root swept Nothing d
  · next path found =>
      obtain ⟨index, plain, rfl, covered⟩ := standing.doomed path (List.mem_of_getElem? found)
      obtain ⟨moves, gone⟩ := remove_index s root swept d.files standing.formed index
        (reaches_way _ _ _ _ standing.reaches) plain covered
      refine ⟨moves, fun other member => List.mem_of_mem_eraseIdx member, ?_⟩
      intro other otherPlain _ member left usable
      obtain ⟨place, there⟩ := List.mem_iff_getElem?.mp member
      have same : place = which := by
        by_cases same : place = which
        · exact same
        · exact absurd (List.mem_eraseIdx_iff_getElem?.mpr ⟨place, same, there⟩) left
      subst same
      have paths := Option.some.inj (there.symm.trans found)
      obtain rfl := Path.join_injective s.indexRoot other index otherPlain plain paths
      exact gone usable

theorem grant_steps (s : Store) (root : Location) (swept : Location → Prop) (d : Disk)
    (standing : s.Standing root swept d) : s.Steps root swept Nothing d d.grant.2 := by
  unfold Disk.grant
  generalize d.fates = fates
  induction fates generalizing d with
  | nil => exact steps_of_moves s root swept Nothing d _ _ (moves_refl swept Nothing d.files)
  | cons fate rest ih =>
      cases fate with
      | works => exact steps_of_moves s root swept Nothing d _ _ (moves_refl swept Nothing d.files)
      | refused => exact steps_of_moves s root swept Nothing d _ _ (moves_refl swept Nothing d.files)
      | torn kept => exact steps_of_moves s root swept Nothing d _ _ (moves_refl swept Nothing d.files)
      | reclaims which =>
          have first := reclaim_steps s root swept d which standing
          exact steps_trans s root swept Nothing _ _ _ first
            (ih (d.reclaim which) (standing_steps s root swept Nothing d _ standing first))

end IndexKeeper
