import IndexKeeper.Proofs.PackedFiles

set_option autoImplicit false

namespace IndexKeeper.Archive

structure Lead where
  dotted : Bool
  back : Bool

namespace Lead

def chars (lead : Lead) : List Char :=
  (if lead.dotted then ['.'] else []) ++ [if lead.back then '\\' else '/']

def text (front : List Lead) : String := String.ofList (front.flatMap chars)

-- No `./` stands right behind a slash alone.
def Ordered (front : List Lead) : Prop := front.IsChain fun lead next => lead.dotted = false → next.dotted = false

end Lead

def forward (name : String) : List Char := name.toList.map fun c => if c = '\\' then '/' else c

def Dotted (name : String) : Prop := ['.', '/'] <+: forward name

structure Falls (front : List Lead) (name : String) : Prop where
  ordered : Lead.Ordered front
  behind : ∀ last ∈ front.getLast?, last.dotted = false → ¬ Dotted name

instance (front : List Lead) : Decidable (Lead.Ordered front) := inferInstanceAs (Decidable (List.IsChain _ _))

instance (name : String) : Decidable (Dotted name) := inferInstanceAs (Decidable (_ <+: _))

instance (front : List Lead) (name : String) : Decidable (Falls front name) :=
  decidable_of_iff (Lead.Ordered front ∧ ∀ last ∈ front.getLast?, last.dotted = false → ¬ Dotted name)
    ⟨fun ⟨ordered, behind⟩ => ⟨ordered, behind⟩, fun falls => ⟨falls.ordered, falls.behind⟩⟩

section Steps

variable (name rest : String)

theorem normalized_parts : ∃ dots slashes, forward name =
      (List.replicate dots ['.', '/']).flatten ++ (List.replicate slashes '/' ++ (normalize name).toList) ∧
    ¬ ['.', '/'] <+: List.replicate slashes '/' ++ (normalize name).toList ∧ ¬ ['/'] <+: (normalize name).toList :=
  (reduces_iff name _).mpr rfl

theorem normalize_behind_dot (written : forward name = '.' :: '/' :: forward rest) :
    normalize name = normalize rest := by
  obtain ⟨dots, slashes, chars, noDot, noSlash⟩ := normalized_parts rest
  refine (reduces_iff name _).mp ⟨dots + 1, slashes, written.trans ?_, noDot, noSlash⟩
  rw [chars, List.replicate_succ]
  rfl

theorem normalize_behind_slash (written : forward name = '/' :: forward rest) (plain : ¬ Dotted rest) :
    normalize name = normalize rest := by
  obtain ⟨dots, slashes, chars, noDot, noSlash⟩ := normalized_parts rest
  obtain rfl : dots = 0 := by
    refine Nat.eq_zero_of_not_pos fun more => plain ?_
    obtain ⟨dots, rfl⟩ := Nat.exists_eq_add_one.mpr more
    rw [Dotted, chars, List.replicate_succ, List.flatten_cons, List.append_assoc]
    exact List.prefix_append _ _
  refine (reduces_iff name _).mp ⟨0, slashes + 1, written.trans ?_, ?_, noSlash⟩
  · rw [chars, List.replicate_succ]
    rfl
  · simp [List.replicate_succ]

-- A slash alone hides a `./` behind it: nothing but the slash is taken away.
theorem normalize_hidden_dot (written : forward name = '/' :: forward rest) (dotted : Dotted rest) :
    normalize name = String.ofList (forward rest) := by
  obtain ⟨tail, chars⟩ := dotted
  refine (reduces_iff name _).mp ⟨0, 1, written.trans ?_, by simp, by simp [← chars]⟩
  simp

theorem normalize_bare (plain : ¬ Dotted name) (bare : ¬ ['/'] <+: forward name) :
    normalize name = String.ofList (forward name) := by
  refine (reduces_iff name _).mp ⟨0, 0, ?_, ?_, ?_⟩
  · simp [forward]
  · rwa [String.toList_ofList]
  · rwa [String.toList_ofList]

theorem normalized_length : (normalize name).toList.length ≤ (forward name).length := by
  obtain ⟨dots, slashes, chars, -, -⟩ := normalized_parts name
  rw [chars, List.length_append, List.length_append]
  omega

theorem dotted_shortened (dotted : Dotted name) : (normalize name).toList.length < (forward name).length := by
  obtain ⟨dots, slashes, chars, noDot, -⟩ := normalized_parts name
  cases dots with
  | zero => exact absurd (chars ▸ dotted) noDot
  | succ dots =>
      rw [chars, List.replicate_succ]
      simp only [List.flatten_cons, List.length_append, List.length_cons]
      omega

theorem forward_of_forward (chars : List Char) (whole : '\\' ∉ chars) : forward (String.ofList chars) = chars := by
  have each : ∀ c ∈ chars, (if c = '\\' then '/' else c) = c := fun c member =>
    if_neg fun same : c = '\\' => whole (same ▸ member)
  rw [forward, String.toList_ofList, List.map_congr_left each, List.map_id']

theorem forward_no_back : '\\' ∉ forward name := by
  intro member
  obtain ⟨c, -, same⟩ := List.mem_map.mp member
  split at same
  · cases same
  · contradiction

theorem forward_normalize : forward (normalize name) = (normalize name).toList := by
  obtain ⟨dots, slashes, chars, -, -⟩ := normalized_parts name
  have whole : '\\' ∉ (normalize name).toList := fun member => forward_no_back name (by
    rw [chars]
    exact List.mem_append_right _ (List.mem_append_right _ member))
  simpa using forward_of_forward _ whole

theorem normalized_fixed_iff : normalize (normalize name) = normalize name ↔ ¬ Dotted (normalize name) := by
  obtain ⟨-, -, -, -, noSlash⟩ := normalized_parts name
  constructor
  · intro same dotted
    have shorter := dotted_shortened (normalize name) dotted
    rw [same, forward_normalize] at shorter
    exact Nat.lt_irrefl _ shorter
  · intro plain
    have bare : ¬ ['/'] <+: forward (normalize name) := by rwa [forward_normalize]
    rw [normalize_bare (normalize name) plain bare, forward_normalize, String.ofList_toList]

end Steps

section Fronts

variable (lead : Lead) (front : List Lead) (name : String)

theorem forward_text_cons : forward (Lead.text (lead :: front) ++ name) =
    (if lead.dotted then ['.', '/'] else ['/']) ++ forward (Lead.text front ++ name) := by
  obtain ⟨dotted, back⟩ := lead
  cases dotted <;> cases back <;> simp [forward, Lead.text, Lead.chars]

theorem dotted_text_cons : Dotted (Lead.text (lead :: front) ++ name) ↔ lead.dotted = true := by
  rw [Dotted, forward_text_cons]
  cases lead.dotted <;> simp

theorem text_nil : Lead.text [] ++ name = name := by simp [Lead.text]

theorem falls_nil : Falls [] name := ⟨.nil, nofun⟩

theorem falls_cons : Falls (lead :: front) name ↔
    (lead.dotted = false → ¬ Dotted (Lead.text front ++ name)) ∧ Falls front name := by
  cases front with
  | nil =>
      rw [text_nil]
      refine ⟨fun falls => ⟨falls.behind lead rfl, falls_nil name⟩, fun ⟨plain, _⟩ => ⟨.singleton lead, ?_⟩⟩
      rintro last ⟨⟩
      exact plain
  | cons next front =>
      rw [dotted_text_cons, Bool.not_eq_true]
      constructor
      · rintro ⟨ordered, behind⟩
        obtain ⟨first, ordered⟩ := List.isChain_cons_cons.mp ordered
        exact ⟨first, ordered, by rwa [List.getLast?_cons_cons] at behind⟩
      · rintro ⟨first, ordered, behind⟩
        exact ⟨List.isChain_cons_cons.mpr ⟨first, ordered⟩, by rwa [List.getLast?_cons_cons]⟩

theorem lead_taken (plain : lead.dotted = false → ¬ Dotted (Lead.text front ++ name)) :
    normalize (Lead.text (lead :: front) ++ name) = normalize (Lead.text front ++ name) := by
  have written := forward_text_cons lead front name
  cases alone : lead.dotted with
  | true => exact normalize_behind_dot _ _ (by rw [written, alone]; rfl)
  | false => exact normalize_behind_slash _ _ (by rw [written, alone]; rfl) (plain alone)

theorem lead_hides (alone : lead.dotted = false) (dotted : Dotted (Lead.text front ++ name)) :
    normalize (Lead.text (lead :: front) ++ name) = String.ofList (forward (Lead.text front ++ name)) :=
  normalize_hidden_dot _ _ (by rw [forward_text_cons, alone]; rfl) dotted

theorem falling_front (falls : Falls front name) : normalize (Lead.text front ++ name) = normalize name := by
  induction front with
  | nil => rw [text_nil]
  | cons lead front ih =>
      obtain ⟨plain, falls⟩ := (falls_cons lead front name).mp falls
      rw [lead_taken lead front name plain, ih falls]

theorem hiding_front (hides : ¬ Falls front name) : ∃ left, Dotted (Lead.text left ++ name) ∧
    normalize (Lead.text front ++ name) = String.ofList (forward (Lead.text left ++ name)) := by
  induction front with
  | nil => exact absurd (falls_nil name) hides
  | cons lead front ih =>
      by_cases hidden : lead.dotted = false ∧ Dotted (Lead.text front ++ name)
      · exact ⟨front, hidden.2, lead_hides lead front name hidden.1 hidden.2⟩
      · have plain (alone : lead.dotted = false) : ¬ Dotted (Lead.text front ++ name) :=
          fun dotted => hidden ⟨alone, dotted⟩
        obtain ⟨left, dotted, same⟩ := ih fun falls => hides ((falls_cons lead front name).mpr ⟨plain, falls⟩)
        exact ⟨left, dotted, (lead_taken lead front name plain).trans same⟩

theorem normalize_front_iff : normalize (Lead.text front ++ name) = normalize name ↔ Falls front name := by
  refine ⟨fun same => Classical.byContradiction fun hides => ?_, falling_front front name⟩
  obtain ⟨left, dotted, kept⟩ := hiding_front front name hides
  have size : (normalize name).toList.length = (forward (Lead.text left ++ name)).length := by
    rw [← same, kept, String.toList_ofList]
  cases left with
  | nil =>
      rw [text_nil] at dotted size
      exact Nat.ne_of_lt (dotted_shortened name dotted) size
  | cons lead left =>
      have shorter := normalized_length name
      simp only [Lead.text, forward, String.toList_append, List.map_append, List.length_append, List.length_map,
        String.toList_ofList, List.flatMap_cons, Lead.chars, List.length_cons] at size shorter
      omega

end Fronts

section Again

theorem slash_of_forward (dotted : Bool) (c : Char) (same : (if c = '\\' then '/' else c) = '/') :
    ∃ lead : Lead, lead.chars = (if dotted then ['.'] else []) ++ [c] := by
  by_cases back : c = '\\'
  · exact ⟨⟨dotted, true⟩, by rw [back]; rfl⟩
  · rw [if_neg back] at same
    exact ⟨⟨dotted, false⟩, by rw [same]; rfl⟩

theorem front_split (chars : List Char) : ∃ (front : List Lead) (rest : List Char),
    chars = front.flatMap Lead.chars ++ rest ∧
      ¬ Dotted (String.ofList rest) ∧ ¬ ['/'] <+: forward (String.ofList rest) := by
  by_cases more : ∃ (lead : Lead) (behind : List Char), chars = lead.chars ++ behind
  · obtain ⟨lead, behind, split⟩ := more
    obtain ⟨front, rest, same, bare⟩ := front_split behind
    exact ⟨lead :: front, rest, by rw [split, same, List.flatMap_cons, List.append_assoc], bare⟩
  · refine ⟨[], chars, rfl, ?_, ?_⟩
    · rintro ⟨tail, written⟩
      rw [forward, String.toList_ofList] at written
      obtain ⟨first, others, rfl, dot, second⟩ := List.map_eq_cons_iff.mp written.symm
      obtain ⟨c, behind, rfl, slash, -⟩ := List.map_eq_cons_iff.mp second
      obtain ⟨lead, same⟩ := slash_of_forward true c slash
      have isDot : first = '.' := by
        split at dot
        · cases dot
        · exact dot
      exact more ⟨lead, behind, by rw [same, isDot]; rfl⟩
    · rintro ⟨tail, written⟩
      rw [forward, String.toList_ofList] at written
      obtain ⟨c, behind, rfl, slash, -⟩ := List.map_eq_cons_iff.mp written.symm
      obtain ⟨lead, same⟩ := slash_of_forward false c slash
      exact more ⟨lead, behind, by rw [same]; rfl⟩
termination_by chars.length
decreasing_by
  rw [split, List.length_append, Lead.chars, List.length_append, List.length_singleton]
  omega

theorem normalize_idempotent_iff (name : String) : normalize (normalize name) = normalize name ↔
    ∀ front rest, name = Lead.text front ++ rest → Lead.Ordered front := by
  rw [normalized_fixed_iff]
  constructor
  · rintro plain front rest rfl
    refine Classical.byContradiction fun unordered => plain ?_
    obtain ⟨left, dotted, kept⟩ := hiding_front front rest fun falls => unordered falls.ordered
    rwa [kept, Dotted, forward_of_forward _ (forward_no_back _)]
  · intro ordered
    obtain ⟨front, rest, split, plain, bare⟩ := front_split name.toList
    have written : name = Lead.text front ++ String.ofList rest := by
      rw [Lead.text, ← String.ofList_append, ← split, String.ofList_toList]
    have falls : Falls front (String.ofList rest) := ⟨ordered front _ written, fun _ _ _ => plain⟩
    rw [written, falling_front front _ falls, normalize_bare _ plain bare, Dotted,
      forward_of_forward _ (forward_no_back _)]
    exact plain

end Again

section Lookups

def passesOver (wanted entry : String) : Bool := isDirectoryName entry || normalize entry != normalize wanted

theorem extract_renamed (bytes : Bytes) (wanted : String) (limit : Nat) (before : List Record) (r : Record)
    (after : List Record) (name other : String) (same : passesOver wanted name = passesOver wanted other) :
    extractFrom bytes wanted limit (before ++ { r with name := name } :: after) =
      extractFrom bytes wanted limit (before ++ { r with name := other } :: after) := by
  induction before with
  | nil =>
      have opened : openEntry bytes { r with name := name } = openEntry bytes { r with name := other } := rfl
      have unpacked (packed : Bytes) : unpack wanted limit { r with name := name } packed =
          unpack wanted limit { r with name := other } packed := rfl
      unfold passesOver at same
      rw [List.nil_append, List.nil_append, extractFrom, extractFrom, opened]
      simp only [same, unpacked]
  | cons first before ih =>
      rw [List.cons_append, List.cons_append, extractFrom, extractFrom, ih]

def emptyFile : Bytes := localSignature ++ List.replicate 26 0

def emptyRecord (name : String) : Record := ⟨name, [], "", false, false, 0, 0, 0, 0, 0⟩

theorem extract_empty (name wanted : String) : extractFrom emptyFile wanted 0 [emptyRecord name] =
    if passesOver wanted name then .ok none else .ok (some []) := by
  have opened : openEntry emptyFile (emptyRecord name) = .ok [] := by rfl
  have unpacked : unpack wanted 0 (emptyRecord name) [] = .ok [] := by rfl
  rw [extractFrom, opened]
  dsimp only
  rw [unpacked]
  rfl

def Alike (name other : String) : Prop :=
  ∀ (bytes : Bytes) (wanted : String) (limit : Nat) (before : List Record) (r : Record) (after : List Record),
    extractFrom bytes wanted limit (before ++ { r with name := name } :: after) =
      extractFrom bytes wanted limit (before ++ { r with name := other } :: after)

theorem alike_iff_passed (name other : String) :
    Alike name other ↔ ∀ wanted, passesOver wanted name = passesOver wanted other := by
  refine ⟨fun alike wanted => ?_, fun same bytes wanted limit before r after =>
    extract_renamed bytes wanted limit before r after name other (same wanted)⟩
  have answers := alike emptyFile wanted 0 [] (emptyRecord name) []
  have renamed := (extract_empty name wanted).symm.trans (answers.trans (extract_empty other wanted))
  cases here : passesOver wanted name <;> cases there : passesOver wanted other <;> simp_all

theorem alike_iff (name other : String) : Alike name other ↔ isDirectoryName name = isDirectoryName other ∧
    (isDirectoryName name = false → normalize name = normalize other) := by
  rw [alike_iff_passed]
  unfold passesOver
  constructor
  · intro same
    have here := same name
    have there := same other
    cases directory : isDirectoryName name <;> cases otherDirectory : isDirectoryName other <;> simp_all
  · rintro ⟨kind, same⟩ wanted
    cases directory : isDirectoryName name with
    | true => rw [← kind, directory, Bool.true_or, Bool.true_or]
    | false => rw [← kind, directory, same directory]

variable (front : List Lead) (name : String)

theorem directory_behind_front (filled : name ≠ "") :
    isDirectoryName (Lead.text front ++ name) = isDirectoryName name := by
  have chars : name.toList ≠ [] := fun none => filled (String.toList_eq_nil_iff.mp none)
  have last : (Lead.text front ++ name).toList.getLast? = name.toList.getLast? := by
    rw [String.toList_append, List.getLast?_append_of_ne_nil _ chars]
  rw [isDirectoryName, isDirectoryName, last]

theorem front_directory (filled : front ≠ []) : isDirectoryName (Lead.text front) = true := by
  obtain ⟨others, lead, rfl⟩ := (List.eq_nil_or_concat front).resolve_left filled
  obtain ⟨dotted, back⟩ := lead
  rw [isDirectoryName, Lead.text, String.toList_ofList]
  cases back <;> simp [Lead.chars]

theorem alike_behind_front_iff : Alike (Lead.text front ++ name) name ↔
    isDirectoryName name = true ∨ Falls front name ∧ (name = "" → front = []) := by
  rw [alike_iff, normalize_front_iff]
  by_cases empty : name = ""
  · subst empty
    rw [String.append_empty]
    by_cases none : front = []
    · subst none
      exact iff_of_true ⟨rfl, fun _ => falls_nil _⟩ (.inr ⟨falls_nil _, fun _ => rfl⟩)
    · rw [front_directory front none]
      refine iff_of_false (fun both => nomatch both.1) ?_
      rintro (directory | ⟨-, all⟩)
      · cases directory
      · exact none (all rfl)
  · rw [directory_behind_front front name empty]
    cases directory : isDirectoryName name <;> simp [empty]

end Lookups

theorem front_ignored_iff (front : List Lead) (name : String) :
    (Alike (Lead.text front ++ name) name ↔
      isDirectoryName name = true ∨ Falls front name ∧ (name = "" → front = [])) ∧
    (normalize (Lead.text front ++ name) = normalize name ↔ Falls front name) ∧
    (normalize (normalize name) = normalize name ↔
      ∀ start rest, name = Lead.text start ++ rest → Lead.Ordered start) :=
  ⟨alike_behind_front_iff front name, normalize_front_iff front name, normalize_idempotent_iff name⟩

theorem mixed_front_ignored : Alike ".\\.//\\Logs\\a.complog" "Logs\\a.complog" := by
  have text : Lead.text [⟨true, true⟩, ⟨true, false⟩, ⟨false, false⟩, ⟨false, true⟩] ++ "Logs\\a.complog" =
      ".\\.//\\Logs\\a.complog" := by decide +kernel
  exact text ▸ (front_ignored_iff _ "Logs\\a.complog").1.mpr (.inr (by decide +kernel))

def packed (name : String) : Bytes := pack [{ name := name, data := Bytes.ofText "one" }]

theorem dot_behind_slash_missed :
    "/./a.complog" = Lead.text [⟨false, false⟩, ⟨true, false⟩] ++ "a.complog" ∧
      extract (packed "a.complog") "a.complog" = .ok (some (Bytes.ofText "one")) ∧
      extract (packed "./a.complog") "a.complog" = .ok (some (Bytes.ofText "one")) ∧
      extract (packed "/./a.complog") "a.complog" = .ok none ∧
      normalize "/./a.complog" = "./a.complog" ∧ normalize (normalize "/./a.complog") = "a.complog" := by
  decide +kernel

end IndexKeeper.Archive
