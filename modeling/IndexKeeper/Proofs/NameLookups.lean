import IndexKeeper.NameMap

set_option autoImplicit false

namespace IndexKeeper.NameMap

variable {α β : Type}

theorem get_iff_mem (m : NameMap α) (name : String) (value : α) :
    m.get? name = some value ↔ (name, value) ∈ m.entries := by
  rw [show m.get? name = m.entries.lookup name from rfl, List.lookup_eq_some_iff]
  constructor
  · rintro ⟨before, after, split, -⟩
    simp [split]
  · intro member
    obtain ⟨before, after, split⟩ := List.append_of_mem member
    refine ⟨before, after, split, fun entry earlier => ?_⟩
    have sorted := m.sorted
    rw [split] at sorted
    have below := (List.pairwise_append.mp sorted).2.2 entry earlier (name, value) List.mem_cons_self
    refine bne_iff_ne.mpr fun same => ?_
    rw [same] at below
    exact String.lt_irrefl _ below

theorem get_map (m : NameMap α) (f : α → β) (name : String) : (m.map f).get? name = (m.get? name).map f := by
  rw [show (m.map f).get? name = (m.entries.map fun entry => (entry.1, f entry.2)).lookup name from rfl,
    show m.get? name = m.entries.lookup name from rfl]
  induction m.entries with
  | nil => rfl
  | cons entry rest ih =>
      rw [List.map_cons, lookup_cons, ih, show (entry :: rest).lookup name = _ from lookup_cons _ _ _ _]
      split <;> rfl

theorem names_sorted (m : NameMap α) : m.names.Pairwise (· < ·) := List.pairwise_map.mpr m.sorted

theorem mem_names_iff (m : NameMap α) (name : String) : name ∈ m.names ↔ m.get? name ≠ none := by
  rw [names, List.mem_map, Option.ne_none_iff_exists']
  constructor
  · rintro ⟨entry, member, rfl⟩
    exact ⟨entry.2, (get_iff_mem m _ _).mpr member⟩
  · rintro ⟨value, found⟩
    exact ⟨(name, value), (get_iff_mem m name value).mp found, rfl⟩

theorem names_map (m : NameMap α) (f : α → β) : (m.map f).names = m.names := by
  rw [names, names, map, List.map_map]
  rfl

theorem values_by_name (m : NameMap α) (f : α → β) (g : String → β)
    (same : ∀ name value, m.get? name = some value → f value = g name) : m.values.map f = m.names.map g := by
  rw [values, names, List.map_map, List.map_map]
  exact List.map_congr_left fun entry member => same entry.1 entry.2 ((get_iff_mem m _ _).mpr member)

theorem entries_nodup (m : NameMap α) : m.entries.Nodup := by
  refine m.sorted.imp ?_
  rintro entry other before rfl
  exact String.lt_irrefl _ before

theorem eq_of_get (m other : NameMap α) (same : ∀ name, m.get? name = other.get? name) : m = other := by
  have entries : m.entries.Perm other.entries :=
    (List.perm_ext_iff_of_nodup (entries_nodup m) (entries_nodup other)).mpr fun entry => by
      rw [← get_iff_mem, ← get_iff_mem, same]
  have equal := entries.eq_of_pairwise (fun a b _ _ before after =>
    absurd (String.lt_trans before after) (String.lt_irrefl _)) m.sorted other.sorted
  cases m
  cases other
  cases equal
  rfl

theorem get_fold_insert (m : NameMap α) (entries : List (String × α)) (name : String) (value : α)
    (found : (entries.foldl (fun m entry => m.insert entry.1 entry.2) m).get? name = some value) :
    m.get? name = some value ∨ (name, value) ∈ entries := by
  induction entries generalizing m with
  | nil => exact .inl found
  | cons entry rest ih =>
      rcases ih (m.insert entry.1 entry.2) found with before | later
      · rw [get_insert] at before
        by_cases same : name = entry.1
        · rw [if_pos same] at before
          obtain rfl := Option.some.inj before
          exact .inr (same ▸ List.mem_cons_self)
        · rw [if_neg same] at before
          exact .inl before
      · exact .inr (List.mem_cons_of_mem _ later)

theorem get_of_list (entries : List (String × α)) (name : String) (value : α)
    (found : (ofList entries).get? name = some value) : (name, value) ∈ entries :=
  (get_fold_insert empty entries name value found).resolve_left (by simp)

theorem fold_insert_known (m : NameMap α) (entries : List (String × α)) (name : String)
    (known : m.get? name ≠ none ∨ ∃ value, (name, value) ∈ entries) :
    (entries.foldl (fun m entry => m.insert entry.1 entry.2) m).get? name ≠ none := by
  induction entries generalizing m with
  | nil => exact known.resolve_right (by simp)
  | cons entry rest ih =>
      apply ih
      by_cases same : name = entry.1
      · exact .inl (by simp [same])
      · rcases known with before | ⟨value, member⟩
        · exact .inl (by simpa [same] using before)
        · rcases List.mem_cons.mp member with here | later
          · exact absurd (congrArg Prod.fst here) same
          · exact .inr ⟨value, later⟩

theorem of_list_known (entries : List (String × α)) (name : String) (value : α)
    (member : (name, value) ∈ entries) : ∃ last, (ofList entries).get? name = some last :=
  Option.ne_none_iff_exists'.mp (fold_insert_known empty entries name (.inr ⟨value, member⟩))

theorem get_of_list_iff (entries : List (String × α)) (name : String) (value : α)
    (unique : ∀ a b, (name, a) ∈ entries → (name, b) ∈ entries → a = b) :
    (ofList entries).get? name = some value ↔ (name, value) ∈ entries := by
  refine ⟨get_of_list entries name value, fun member => ?_⟩
  obtain ⟨last, found⟩ := of_list_known entries name value member
  rw [found, unique last value (get_of_list entries name last found) member]

end IndexKeeper.NameMap
