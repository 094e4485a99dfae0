import IndexKeeper.Proofs.TreeEntries

set_option autoImplicit false

namespace IndexKeeper.FileTree

def enterAll (t : FileTree) : Location → List String → Except FileError Location
  | l, [] => .ok l
  | l, name :: rest => (t.enter l name).bind fun next => t.enterAll next rest

def startOf (t : FileTree) (path : String) : Location :=
  if Path.isAbsolute path then [] else t.workingDirectory

def way (t : FileTree) (path : String) : Except FileError Location :=
  t.enterAll (t.startOf path) (Path.segments path)

-- The way to a directory comes by no location that may be swept away.
inductive Leads (t : FileTree) (swept : Location → Prop) : Location → List String → Location → Prop where
  | here (l : Location) : Leads t swept l [] l
  | step (l next last : Location) (name : String) (rest : List String) (entered : t.enter l name = .ok next)
      (stays : ¬ swept next) (further : Leads t swept next rest last) :
      Leads t swept l (name :: rest) last

theorem enter_kept (t other : FileTree) (swept : Location → Prop) (l next : Location) (name : String)
    (entered : t.enter l name = .ok next) (stays : ¬ swept next)
    (kept : ∀ place, ¬ swept place → t.get? place = some .directory →
      other.get? place = some .directory) : other.enter l name = .ok next := by
  unfold enter at entered ⊢
  split at entered
  · next dot => rw [if_pos dot]; exact entered
  · next noDot =>
      rw [if_neg noDot]
      split at entered
      · next dots => rw [if_pos dots]; exact entered
      · next noDots =>
          rw [if_neg noDots]
          split at entered
          · cases entered
          · next short =>
              rw [if_neg short]
              split at entered
              · cases entered
              · cases entered
              · next found =>
                  cases entered
                  rw [kept (l ++ [name]) stays found]

theorem leads_kept (t other : FileTree) (swept : Location → Prop) (l last : Location) (names : List String)
    (leads : t.Leads swept l names last)
    (kept : ∀ place, ¬ swept place → t.get? place = some .directory →
      other.get? place = some .directory) : other.Leads swept l names last := by
  induction leads with
  | here l => exact .here l
  | step l next last name rest entered stays further ih =>
      exact .step l next last name rest (enter_kept t other swept l next name entered stays kept) stays ih

theorem enter_all_of_leads (t : FileTree) (swept : Location → Prop) (l last : Location)
    (names : List String) (leads : t.Leads swept l names last) : t.enterAll l names = .ok last := by
  induction leads with
  | here l => rfl
  | step l next last name rest entered stays further ih => rw [enterAll, entered]; exact ih

theorem leads_of_enter_all (t : FileTree) (l last : Location) (names : List String)
    (reached : t.enterAll l names = .ok last) : t.Leads (fun _ => False) l names last := by
  induction names generalizing l with
  | nil => exact Except.ok.inj reached ▸ .here l
  | cons name rest ih =>
      rw [enterAll] at reached
      cases entered : t.enter l name with
      | error e => rw [entered] at reached; cases reached
      | ok next => rw [entered] at reached; exact .step l next last name rest entered id (ih next reached)

theorem enter_all_append (t : FileTree) (l : Location) (names : List String) (name : String) :
    t.enterAll l (names ++ [name]) = (t.enterAll l names).bind fun next => t.enter next name := by
  induction names generalizing l with
  | nil =>
      change (t.enter l name).bind (fun next => .ok next) = t.enter l name
      cases t.enter l name <;> rfl
  | cons first rest ih =>
      simp only [List.cons_append, enterAll]
      cases t.enter l first with
      | error e => rfl
      | ok next => exact ih next

theorem way_join (t : FileTree) (base name : String) (plain : Path.Plain name) :
    t.way (Path.join base name) = (t.way base).bind fun l => t.enter l name := by
  unfold way startOf
  rw [Path.segments_join base name plain, Path.absolute_join base name plain, enter_all_append]

theorem enter_plain (t : FileTree) (l next : Location) (name : String) (plain : Path.Plain name) :
    t.enter l name = .ok next ↔ next = l ++ [name] ∧ name.utf8ByteSize ≤ nameLimit ∧
      t.get? (l ++ [name]) = some .directory := by
  unfold enter
  rw [if_neg plain.2.1, if_neg plain.2.2.1]
  constructor
  · intro entered
    split at entered
    · cases entered
    · next short =>
        split at entered
        · cases entered
        · cases entered
        · next found => cases entered; exact ⟨rfl, Nat.not_lt.mp short, found⟩
  · rintro ⟨rfl, short, found⟩
    rw [if_neg (Nat.not_lt.mpr short), found]

theorem walk_append (t : FileTree) (slash : Bool) (l : Location) (names : List String) (name : String) :
    t.walk slash l (names ++ [name]) =
      (t.enterAll l names).bind fun next => t.walk slash next [name] := by
  induction names generalizing l with
  | nil => rfl
  | cons first rest ih =>
      obtain ⟨second, more, split⟩ := List.exists_cons_of_ne_nil (l := rest ++ [name]) (by simp)
      rw [List.cons_append, split, walk, ← split, enterAll]
      · cases t.enter l first with
        | error e => rfl
        | ok next => exact ih next
      · simp

def Usable (base name : String) : Prop :=
  Char.ofNat 0 ∉ (Path.join base name).toList ∧ (Path.join base name).utf8ByteSize ≤ pathLimit ∧
    name.utf8ByteSize ≤ nameLimit

instance (base name : String) : Decidable (Usable base name) := inferInstanceAs (Decidable (_ ∧ _))

def refusal (base name : String) : FileError :=
  if Char.ofNat 0 ∈ (Path.join base name).toList then .invalidPath else .nameTooLong

theorem refusal_ne_not_found (base name : String) : refusal base name ≠ .notFound := by
  unfold refusal
  split <;> simp

variable (t : FileTree) (base name : String) (l : Location)

theorem locate_join (plain : Path.Plain name) (leads : t.way base = .ok l) :
    t.locate (Path.join base name) =
      if Usable base name then .ok (.named l name false) else .error (refusal base name) := by
  unfold locate
  rw [if_neg (Path.join_ne_empty base name plain)]
  by_cases zero : Char.ofNat 0 ∈ (Path.join base name).toList
  · rw [if_pos (by simpa using zero), if_neg fun usable : Usable base name => usable.1 zero, refusal,
      if_pos zero]
  · rw [if_neg (by simpa using zero), refusal, if_neg zero]
    by_cases long : pathLimit < (Path.join base name).utf8ByteSize
    · rw [if_pos long, if_neg fun usable : Usable base name => Nat.not_lt.mpr usable.2.1 long]
    · rw [if_neg long, Path.ends_with_slash_join base name plain, Path.absolute_join base name plain,
        Path.segments_join base name plain, walk_append]
      have start : t.enterAll (if Path.isAbsolute base = true then [] else t.workingDirectory)
        (Path.segments base) = .ok l := leads
      rw [start]
      change t.walk false l [name] = _
      have noDots : ¬ (name = "." ∨ name = "..") := fun dots => dots.elim plain.2.1 plain.2.2.1
      rw [walk, if_neg noDots]
      by_cases longName : nameLimit < name.utf8ByteSize
      · rw [if_pos longName, if_neg fun usable : Usable base name => Nat.not_lt.mpr usable.2.2 longName]
      · rw [if_neg longName, if_pos ⟨zero, Nat.not_lt.mp long, Nat.not_lt.mp longName⟩]

def strayed (e : FileError) : FileError :=
  if Char.ofNat 0 ∈ (Path.join base name).toList then .invalidPath
  else if pathLimit < (Path.join base name).utf8ByteSize then .nameTooLong
  else e

theorem locate_astray (plain : Path.Plain name) (e : FileError) (astray : t.way base = .error e) :
    t.locate (Path.join base name) = .error (strayed base name e) := by
  unfold locate strayed
  rw [if_neg (Path.join_ne_empty base name plain)]
  by_cases zero : Char.ofNat 0 ∈ (Path.join base name).toList
  · rw [if_pos (by simpa using zero), if_pos zero]
  · rw [if_neg (by simpa using zero), if_neg zero]
    by_cases long : pathLimit < (Path.join base name).utf8ByteSize
    · rw [if_pos long, if_pos long]
    · rw [if_neg long, if_neg long, Path.absolute_join base name plain, Path.segments_join base name plain,
        walk_append]
      have start : t.enterAll (if Path.isAbsolute base = true then [] else t.workingDirectory)
        (Path.segments base) = .error e := astray
      rw [start]
      rfl

theorem read_astray (plain : Path.Plain name) (e : FileError) (astray : t.way base = .error e) :
    t.read (Path.join base name) = .error (strayed base name e) := by
  unfold read find
  rw [locate_astray t base name plain e astray]

theorem remove_directory_join (plain : Path.Plain name) :
    ((t.removeDirectory (Path.join base name)).2 = t ∧ ∀ l, t.way base = .ok l → Usable base name →
        t.get? (l ++ [name]) ≠ some .directory) ∨
      ∃ l, t.way base = .ok l ∧ (t.removeDirectory (Path.join base name)).2 = t.erase (l ++ [name]) := by
  unfold removeDirectory
  cases leads : t.way base with
  | error e =>
      rw [locate_astray t base name plain e leads]
      exact .inl ⟨rfl, nofun⟩
  | ok l =>
      rw [locate_join t base name l plain leads]
      by_cases usable : Usable base name
      · rw [if_pos usable]
        dsimp only
        cases found : t.get? (l ++ [name]) with
        | none =>
            refine .inl ⟨rfl, ?_⟩
            rintro other ⟨⟩ _
            simp [found]
        | some entry =>
            cases entry with
            | file bytes =>
                refine .inl ⟨rfl, ?_⟩
                rintro other ⟨⟩ _
                simp [found]
            | directory => exact .inr ⟨l, rfl, rfl⟩
      · rw [if_neg usable]
        exact .inl ⟨rfl, fun _ _ possible => absurd possible usable⟩

theorem find_join (plain : Path.Plain name) (leads : t.way base = .ok l) :
    t.find (Path.join base name) =
      if Usable base name then
        match t.get? (l ++ [name]) with
        | none => .error .notFound
        | some e => .ok (l ++ [name], e)
      else .error (refusal base name) := by
  unfold find
  rw [locate_join t base name l plain leads]
  by_cases usable : Usable base name
  · rw [if_pos usable, if_pos usable]
    dsimp only
    cases t.get? (l ++ [name]) with
    | none => rfl
    | some e => cases e <;> rfl
  · rw [if_neg usable, if_neg usable]

theorem read_join (plain : Path.Plain name) (leads : t.way base = .ok l) :
    t.read (Path.join base name) =
      if Usable base name then
        match t.get? (l ++ [name]) with
        | none => .error .notFound
        | some .directory => .error .isDirectory
        | some (.file bytes) => .ok bytes
      else .error (refusal base name) := by
  unfold read
  rw [find_join t base name l plain leads]
  by_cases usable : Usable base name
  · rw [if_pos usable, if_pos usable]
    cases t.get? (l ++ [name]) with
    | none => rfl
    | some e => cases e <;> rfl
  · rw [if_neg usable, if_neg usable]

theorem is_directory_join (plain : Path.Plain name) (leads : t.way base = .ok l) :
    t.isDirectory (Path.join base name) = true ↔
      Usable base name ∧ t.get? (l ++ [name]) = some .directory := by
  unfold isDirectory
  rw [find_join t base name l plain leads]
  by_cases usable : Usable base name
  · rw [if_pos usable]
    cases t.get? (l ++ [name]) with
    | none => simp
    | some e => cases e <;> simp [usable]
  · simp [usable]

theorem path_exists_join (plain : Path.Plain name) (leads : t.way base = .ok l) :
    t.pathExists (Path.join base name) = true ↔ Usable base name ∧ t.get? (l ++ [name]) ≠ none := by
  unfold pathExists
  rw [find_join t base name l plain leads]
  by_cases usable : Usable base name
  · rw [if_pos usable]
    cases t.get? (l ++ [name]) <;> simp [usable, Except.isOk, Except.toBool]
  · simp [usable, Except.isOk, Except.toBool]

theorem file_location_join (plain : Path.Plain name) (leads : t.way base = .ok l) :
    t.fileLocation (Path.join base name) =
      if Usable base name then
        if t.get? (l ++ [name]) = some .directory then .error .isDirectory else .ok (l ++ [name])
      else .error (refusal base name) := by
  unfold fileLocation
  rw [locate_join t base name l plain leads]
  by_cases usable : Usable base name
  · rw [if_pos usable, if_pos usable]
    simp
  · rw [if_neg usable, if_neg usable]

end IndexKeeper.FileTree
