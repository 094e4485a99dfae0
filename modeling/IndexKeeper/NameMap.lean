set_option autoImplicit false

namespace IndexKeeper

-- Entries in strictly rising order of their names.
structure NameMap (α : Type) where
  entries : List (String × α)
  sorted : entries.Pairwise fun a b => a.1 < b.1
deriving DecidableEq, Repr

namespace NameMap

variable {α β : Type}

def insertEntry (name : String) (value : α) : List (String × α) → List (String × α)
  | [] => [(name, value)]
  | entry :: rest =>
      if name < entry.1 then (name, value) :: entry :: rest
      else if name = entry.1 then (name, value) :: rest
      else entry :: insertEntry name value rest

theorem mem_insert_entry (name : String) (value : α) (entries : List (String × α))
    (e : String × α) (member : e ∈ insertEntry name value entries) :
    e = (name, value) ∨ e ∈ entries := by
  induction entries with
  | nil => simpa [insertEntry] using member
  | cons entry rest ih =>
      unfold insertEntry at member
      split at member
      · simpa using member
      · split at member
        · rcases List.mem_cons.mp member with same | inRest
          · exact .inl same
          · exact .inr (List.mem_cons_of_mem _ inRest)
        · rcases List.mem_cons.mp member with same | inRest
          · exact .inr (same ▸ List.mem_cons_self)
          · exact (ih inRest).imp id (List.mem_cons_of_mem _)

theorem lt_of_not_before (a b : String) (notBefore : ¬ a < b) (different : a ≠ b) : b < a :=
  Decidable.byContradiction fun notAfter =>
    different (String.le_antisymm (String.not_lt.mp notAfter) (String.not_lt.mp notBefore))

theorem insert_entry_sorted (name : String) (value : α) (entries : List (String × α))
    (sorted : entries.Pairwise fun a b => a.1 < b.1) :
    (insertEntry name value entries).Pairwise fun a b => a.1 < b.1 := by
  induction entries with
  | nil => simp [insertEntry]
  | cons entry rest ih =>
      have ⟨above, restSorted⟩ := List.pairwise_cons.mp sorted
      unfold insertEntry
      split
      · next before =>
          refine List.pairwise_cons.mpr ⟨fun e member => ?_, sorted⟩
          rcases List.mem_cons.mp member with same | inRest
          · exact same ▸ before
          · exact String.lt_trans before (above e inRest)
      · next notBefore =>
          split
          · next same =>
              exact List.pairwise_cons.mpr ⟨fun e member => by subst same; exact above e member,
                restSorted⟩
          · next different =>
              refine List.pairwise_cons.mpr ⟨fun e member => ?_, ih restSorted⟩
              rcases mem_insert_entry name value rest e member with new | old
              · exact new ▸ lt_of_not_before name entry.1 notBefore different
              · exact above e old

def empty : NameMap α := ⟨[], .nil⟩

def insert (m : NameMap α) (name : String) (value : α) : NameMap α :=
  ⟨insertEntry name value m.entries, insert_entry_sorted name value m.entries m.sorted⟩

def get? (m : NameMap α) (name : String) : Option α := m.entries.lookup name

def ofList (entries : List (String × α)) : NameMap α :=
  entries.foldl (fun m entry => m.insert entry.1 entry.2) empty

def isEmpty (m : NameMap α) : Bool := m.entries.isEmpty

def names (m : NameMap α) : List String := m.entries.map Prod.fst

def values (m : NameMap α) : List α := m.entries.map Prod.snd

def map (f : α → β) (m : NameMap α) : NameMap β :=
  ⟨m.entries.map fun entry => (entry.1, f entry.2), List.pairwise_map.mpr m.sorted⟩

@[simp] theorem get_empty (name : String) : (empty : NameMap α).get? name = none := rfl

theorem lookup_cons (name other : String) (value : α) (rest : List (String × α)) :
    ((name, value) :: rest).lookup other = if other = name then some value else rest.lookup other := by
  by_cases same : other = name
  · simp [same]
  · simp [List.lookup_cons, beq_eq_false_iff_ne.mpr same, same]

theorem lookup_insert_entry (name other : String) (value : α) (entries : List (String × α)) :
    (insertEntry name value entries).lookup other =
      if other = name then some value else entries.lookup other := by
  induction entries with
  | nil => simp [insertEntry, lookup_cons]
  | cons entry rest ih =>
      unfold insertEntry
      split
      · rw [lookup_cons]
      · split
        · next here => rw [lookup_cons, lookup_cons, here]; split <;> rfl
        · next different =>
            rw [lookup_cons, lookup_cons, ih]
            by_cases same : other = entry.1
            · rw [if_pos same, if_neg (same ▸ Ne.symm different), if_pos same]
            · rw [if_neg same, if_neg same]

@[simp] theorem get_insert (m : NameMap α) (name other : String) (value : α) :
    (m.insert name value).get? other = if other = name then some value else m.get? other :=
  lookup_insert_entry name other value m.entries

end NameMap
end IndexKeeper
