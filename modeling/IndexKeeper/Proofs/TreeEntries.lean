import IndexKeeper.Files.Tree
import IndexKeeper.Proofs.PathNames

set_option autoImplicit false

namespace IndexKeeper.FileTree

theorem lookup_filter (keep : Location → Bool) (entries : List (Location × Entry)) (l : Location) :
    (entries.filter fun entry => keep entry.1).lookup l =
      if keep l = true then entries.lookup l else none := by
  induction entries with
  | nil => simp
  | cons entry rest ih =>
      obtain ⟨key, value⟩ := entry
      rw [List.filter_cons]
      by_cases same : l = key
      · subst same
        cases kept : keep l with
        | true => simp
        | false => simp [ih, kept]
      · have other : (l == key) = false := beq_eq_false_iff_ne.mpr same
        cases kept : keep key with
        | true => simp [List.lookup_cons, other, ih]
        | false => simp [List.lookup_cons, other, ih]

@[simp] theorem get_root (t : FileTree) : t.get? [] = some .directory := if_pos rfl

theorem get_below_root (t : FileTree) (l : Location) (inside : l ≠ []) :
    t.get? l = t.entries.lookup l := if_neg inside

theorem get_set (t : FileTree) (l other : Location) (e : Entry) (inside : l ≠ []) :
    (t.set l e).get? other = if other = l then some e else t.get? other := by
  by_cases root : other = []
  · subst root
    rw [get_root, get_root, if_neg (Ne.symm inside)]
  · rw [get_below_root _ other root, get_below_root _ other root]
    have kept := lookup_filter (fun key => decide (key ≠ l)) t.entries other
    by_cases same : other = l
    · simp [set, same]
    · have different : (other == l) = false := beq_eq_false_iff_ne.mpr same
      simp only [set, List.lookup_cons, different, kept]
      simp [same]

theorem get_erase (t : FileTree) (l other : Location) (inside : l ≠ []) :
    (t.erase l).get? other = if l <+: other then none else t.get? other := by
  by_cases root : other = []
  · subst root
    rw [get_root, get_root, if_neg]
    exact fun below => inside (List.prefix_nil.mp below)
  · rw [get_below_root _ other root, get_below_root _ other root]
    have kept := lookup_filter (fun key => !l.isPrefixOf key) t.entries other
    simp only [erase, kept]
    by_cases below : l <+: other
    · rw [if_pos below, List.isPrefixOf_iff_prefix.mpr below]
      rfl
    · simp [below]

structure WellFormed (t : FileTree) : Prop where
  rooted : ∀ l name, t.get? (l ++ [name]) ≠ none → t.get? l = some .directory
  plain : ∀ l name, t.get? (l ++ [name]) ≠ none → Path.Plain name
  distinct : (t.entries.map Prod.fst).Nodup

theorem well_formed_of_entries (t : FileTree)
    (each : ∀ entry ∈ t.entries,
      t.get? entry.1.dropLast = some .directory ∧ ∀ name ∈ entry.1, Path.Plain name)
    (distinct : (t.entries.map Prod.fst).Nodup) : t.WellFormed := by
  have listed (l : Location) (name : String) (found : t.get? (l ++ [name]) ≠ none) :
      ∃ e, (l ++ [name], e) ∈ t.entries := by
    rw [get_below_root t _ (by simp)] at found
    obtain ⟨e, same⟩ := Option.ne_none_iff_exists'.mp found
    obtain ⟨before, after, split, -⟩ := List.lookup_eq_some_iff.mp same
    exact ⟨e, by simp [split]⟩
  refine ⟨?_, ?_, distinct⟩
  · intro l name found
    obtain ⟨e, member⟩ := listed l name found
    simpa using (each _ member).1
  · intro l name found
    obtain ⟨e, member⟩ := listed l name found
    exact (each _ member).2 name (by simp)

theorem nothing_below (t : FileTree) (formed : t.WellFormed) (l : Location) (name : String)
    (absent : t.get? l ≠ some .directory) : t.get? (l ++ [name]) = none := by
  cases found : t.get? (l ++ [name]) with
  | none => rfl
  | some e => exact absurd (formed.rooted l name (by simp [found])) absent

theorem rooted_below (t : FileTree) (formed : t.WellFormed) (l tail : Location) (below : tail ≠ [])
    (found : t.get? (l ++ tail) ≠ none) : t.get? l = some .directory := by
  induction tail generalizing l with
  | nil => exact absurd rfl below
  | cons name rest ih =>
      by_cases ends : rest = []
      · subst ends
        exact formed.rooted l name found
      · have next : t.get? (l ++ [name]) = some .directory := ih (l ++ [name]) ends (by simpa using found)
        exact formed.rooted l name (by simp [next])

theorem distinct_filter (t : FileTree) (keep : Location × Entry → Bool) (formed : t.WellFormed) :
    ((t.entries.filter keep).map Prod.fst).Nodup :=
  formed.distinct.sublist (List.filter_sublist.map Prod.fst)

theorem well_formed_set (t : FileTree) (formed : t.WellFormed) (parent : Location) (name : String)
    (e : Entry) (above : t.get? parent = some .directory) (plain : Path.Plain name)
    (alone : e = .directory ∨ t.get? (parent ++ [name]) ≠ some .directory) :
    (t.set (parent ++ [name]) e).WellFormed := by
  have look (other : Location) := get_set t (parent ++ [name]) other e (by simp)
  refine ⟨?_, ?_, ?_⟩
  · intro l last found
    rw [look] at found ⊢
    by_cases same : l ++ [last] = parent ++ [name]
    · have parts := List.append_inj' same rfl
      rw [parts.1, if_neg, above]
      intro long
      simpa using congrArg List.length long
    · rw [if_neg same] at found
      have dir := formed.rooted l last found
      by_cases here : l = parent ++ [name]
      · rw [if_pos here]
        rcases alone with directory | noDirectory
        · rw [directory]
        · exact absurd (here ▸ dir) noDirectory
      · rw [if_neg here, dir]
  · intro l last found
    rw [look] at found
    by_cases same : l ++ [last] = parent ++ [name]
    · have parts := List.append_inj' same rfl
      have lastEq : last = name := by simpa using parts.2
      exact lastEq ▸ plain
    · rw [if_neg same] at found
      exact formed.plain l last found
  · simp only [set, List.map_cons, List.nodup_cons]
    refine ⟨?_, distinct_filter t _ formed⟩
    simp

theorem well_formed_erase (t : FileTree) (formed : t.WellFormed) (l : Location) (inside : l ≠ []) :
    (t.erase l).WellFormed := by
  have look (other : Location) := get_erase t l other inside
  refine ⟨?_, ?_, distinct_filter t _ formed⟩
  · intro above name found
    rw [look] at found ⊢
    by_cases below : l <+: above ++ [name]
    · exact absurd (if_pos below) found
    · rw [if_neg below] at found
      rw [if_neg, formed.rooted above name found]
      exact fun higher => below (higher.trans (List.prefix_append above [name]))
  · intro above name found
    rw [look] at found
    by_cases below : l <+: above ++ [name]
    · exact absurd (if_pos below) found
    · rw [if_neg below] at found
      exact formed.plain above name found

theorem get_erase_file (t : FileTree) (formed : t.WellFormed) (l other : Location) (inside : l ≠ [])
    (leaf : t.get? l ≠ some .directory) :
    (t.erase l).get? other = if other = l then none else t.get? other := by
  rw [get_erase t l other inside]
  by_cases below : l <+: other
  · obtain ⟨tail, rfl⟩ := below
    rw [if_pos (List.prefix_append l tail)]
    by_cases ends : tail = []
    · subst ends
      rw [List.append_nil, if_pos rfl]
    · rw [if_neg (by simpa using ends)]
      cases found : t.get? (l ++ tail) with
      | none => rfl
      | some e => exact absurd (rooted_below t formed l tail ends (by simp [found])) leaf
  · rw [if_neg below, if_neg]
    exact fun same => below (same ▸ List.prefix_rfl)

theorem mem_entries_iff (t : FileTree) (formed : t.WellFormed) (l : Location) (e : Entry)
    (inside : l ≠ []) : (l, e) ∈ t.entries ↔ t.get? l = some e := by
  rw [get_below_root t l inside, List.lookup_eq_some_iff]
  constructor
  · intro member
    obtain ⟨before, after, split⟩ := List.append_of_mem member
    refine ⟨before, after, split, ?_⟩
    intro entry earlier
    have distinct := formed.distinct
    rw [split, List.map_append, List.map_cons] at distinct
    have apart := (List.nodup_append.mp distinct).2.2 entry.1 (List.mem_map_of_mem earlier) l
      List.mem_cons_self
    simpa using Ne.symm apart
  · rintro ⟨before, after, split, _⟩
    simp [split]

def childOf (l : Location) (entry : Location × Entry) : Option (String × Entry) :=
  if entry.1.dropLast = l then entry.1.getLast?.map fun name => (name, entry.2) else none

theorem child_of_some (l : Location) (entry : Location × Entry) (child : String × Entry) :
    childOf l entry = some child ↔ entry = (l ++ [child.1], child.2) := by
  obtain ⟨key, value⟩ := entry
  obtain ⟨name, e⟩ := child
  unfold childOf
  constructor
  · intro taken
    by_cases directly : key.dropLast = l
    · rw [if_pos directly] at taken
      cases last : key.getLast? with
      | none => simp [last] at taken
      | some found =>
          obtain ⟨front, rfl⟩ := List.getLast?_eq_some_iff.mp last
          rw [List.dropLast_concat] at directly
          subst directly
          simpa using taken
    · rw [if_neg directly] at taken
      exact absurd taken (by simp)
  · intro same
    obtain ⟨rfl, rfl⟩ := Prod.mk.inj same
    simp

theorem mem_children_iff (t : FileTree) (formed : t.WellFormed) (l : Location) (name : String)
    (e : Entry) : (name, e) ∈ t.children l ↔ t.get? (l ++ [name]) = some e := by
  rw [← mem_entries_iff t formed (l ++ [name]) e (by simp)]
  change (name, e) ∈ t.entries.filterMap (childOf l) ↔ _
  simp [List.mem_filterMap, child_of_some]

end IndexKeeper.FileTree
