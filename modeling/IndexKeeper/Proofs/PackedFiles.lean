import IndexKeeper.Proofs.PackedDirectory

set_option autoImplicit false

namespace IndexKeeper.Archive

section Names

def Reduces (name rest : String) : Prop :=
  ∃ dots slashes, name.toList.map (fun c => if c = '\\' then '/' else c) =
      (List.replicate dots ['.', '/']).flatten ++ (List.replicate slashes '/' ++ rest.toList) ∧
    ¬ ['.', '/'] <+: List.replicate slashes '/' ++ rest.toList ∧ ¬ ['/'] <+: rest.toList

theorem trim_go (front text : List Char) (filled : front ≠ []) (times fuel : Nat) (ends : ¬ front <+: text)
    (enough : ((List.replicate times front).flatten ++ text).length ≤ fuel) :
    trimStart.go front fuel ((List.replicate times front).flatten ++ text) = text := by
  induction times generalizing fuel with
  | zero =>
      cases fuel with
      | zero => rfl
      | succ fuel =>
          have other : front.isPrefixOf text = false := by simpa [← Bool.not_eq_true] using ends
          simp [trimStart.go, other]
  | succ times ih =>
      have pos : 0 < front.length := List.length_pos_of_ne_nil filled
      rw [List.replicate_succ, List.flatten_cons, List.append_assoc] at enough ⊢
      rw [List.length_append] at enough
      obtain ⟨fuel, rfl⟩ : ∃ more, fuel = more + 1 := Nat.exists_eq_add_one.mpr (by omega)
      rw [trimStart.go, if_pos (List.isPrefixOf_iff_prefix.mpr (List.prefix_append _ _)), List.drop_left]
      exact ih fuel (by omega)

theorem trim_start (front text : List Char) (filled : front ≠ []) (times : Nat) (ends : ¬ front <+: text) :
    trimStart front ((List.replicate times front).flatten ++ text) = text := by
  rw [trimStart, if_neg (by simpa using filled)]
  exact trim_go front text filled times _ ends (Nat.le_refl _)

theorem front_counted (front text : List Char) (filled : front ≠ []) :
    ∃ times rest, text = (List.replicate times front).flatten ++ rest ∧ ¬ front <+: rest := by
  by_cases more : front <+: text
  · obtain ⟨behind, split⟩ := more
    have pos : 0 < front.length := List.length_pos_of_ne_nil filled
    obtain ⟨times, rest, same, ends⟩ := front_counted front behind filled
    exact ⟨times + 1, rest, by rw [List.replicate_succ, List.flatten_cons, List.append_assoc, ← same, split], ends⟩
  · exact ⟨0, text, rfl, more⟩
termination_by text.length
decreasing_by
  rw [← split, List.length_append]
  omega

theorem reduces_iff (name rest : String) : Reduces name rest ↔ normalize name = rest := by
  have slashes (n : Nat) : (List.replicate n ['/']).flatten = List.replicate n '/' := List.flatten_replicate_singleton
  constructor
  · rintro ⟨dots, count, written, noDot, noSlash⟩
    rw [normalize, normalizeChars, written, trim_start _ _ (by simp) dots noDot, ← slashes,
      trim_start _ _ (by simp) count noSlash, String.ofList_toList]
  · rintro rfl
    obtain ⟨dots, behind, written, noDot⟩ :=
      front_counted ['.', '/'] (name.toList.map fun c => if c = '\\' then '/' else c) (by simp)
    obtain ⟨count, rest, left, noSlash⟩ := front_counted ['/'] behind (by simp)
    have same : (normalize name).toList = rest := by
      rw [normalize, normalizeChars, String.toList_ofList, written, trim_start _ _ (by simp) dots noDot, left,
        trim_start _ _ (by simp) count noSlash]
    rw [slashes] at left
    refine ⟨dots, count, ?_, ?_, ?_⟩
    · rw [same, ← left, written]
    · rwa [same, ← left]
    · rwa [same]

structure Member.Named (m : Member) (asked : String) : Prop where
  file : ∀ front c, m.name.toList = front ++ [c] → c ≠ '/' ∧ c ≠ '\\'
  alike : ∃ rest, Reduces m.name rest ∧ Reduces asked rest

theorem file_iff (name : String) :
    isDirectoryName name = false ↔ ∀ front c, name.toList = front ++ [c] → c ≠ '/' ∧ c ≠ '\\' := by
  unfold isDirectoryName
  cases last : name.toList.getLast? with
  | none =>
      rw [List.getLast?_eq_none_iff.mp last]
      simp
  | some c =>
      constructor
      · intro plain front d written
        rw [written, List.getLast?_concat, Option.some.injEq] at last
        simpa [last] using plain
      · intro each
        obtain ⟨front, written⟩ := List.getLast?_eq_some_iff.mp last
        simpa using each front c written

theorem named_iff (m : Member) (asked : String) :
    m.Named asked ↔ (isDirectoryName m.name || normalize m.name != normalize asked) = false := by
  rw [Bool.or_eq_false_iff, file_iff]
  constructor
  · rintro ⟨file, rest, here, there⟩
    rw [reduces_iff] at here there
    exact ⟨file, by simp [here, there]⟩
  · rintro ⟨file, same⟩
    refine ⟨file, normalize asked, (reduces_iff _ _).mpr (by simpa using same), (reduces_iff _ _).mpr rfl⟩

end Names

section Opening

theorem data_found (m : Member) (packable : m.Packable) (before after : Bytes) :
    ∃ start, dataStart? (before ++ (m.localRecord ++ after)) (m.entry before.length) = some start ∧
      ((before ++ (m.localRecord ++ after)).drop start).take m.data.length = m.data := by
  have whole : before ++ (m.localRecord ++ after) = before ++ m.header ++ (m.data ++ after) := by
    simp only [local_record_header, List.append_assoc]
  have number (n place : Nat) {width value : Nat}
      (listed : ((2, versionFor m.localExtra) :: m.description m.localExtra)[n]? = some (width, value))
      (fits : value < Nat.pow 256 width) (here : place = localSignature.length + (localWidths.take n).sum) :
      numberAt (before ++ m.header ++ (m.data ++ after)) (before.length + place) width = value := by
    rw [List.append_assoc, number_at_skip, Member.header, List.append_assoc, List.append_assoc]
    exact number_at_field _ _ _ localWidths (local_widths m) n place listed fits here
  have extraFits : m.localExtra.length < Nat.pow 256 2 := Nat.lt_of_le_of_lt (wide_field_length _) (by simp)
  have nameLength := number 8 26 rfl packable.name (by decide)
  have extraLength := number 9 28 rfl extraFits (by decide)
  have front : (before ++ m.header).length = before.length + 30 + m.nameBytes.length + m.localExtra.length := by
    rw [List.length_append, header_length]
    omega
  have long : ¬ (before ++ m.header ++ (m.data ++ after)).length < before.length + 30 := by
    rw [List.length_append, front]
    omega
  have signed : ((before ++ m.header ++ (m.data ++ after)).drop before.length).take 4 = localSignature := by
    rw [List.append_assoc, List.drop_left, Member.header, List.append_assoc]
    rfl
  refine ⟨before.length + 30 + m.nameBytes.length + m.localExtra.length, ?_, ?_⟩
  · have place : (m.entry before.length).offset = before.length := rfl
    unfold dataStart?
    rw [place, whole, nameLength, extraLength]
    exact if_neg (not_or.mpr ⟨long, fun other => other signed⟩)
  · rw [whole, ← front, List.drop_left, List.take_left]

theorem open_listed (m : Member) (packable : m.Packable) (before after : Bytes) :
    openEntry (before ++ (m.localRecord ++ after)) (m.entry before.length) =
      if m.encrypted then .error .encrypted
      else if Method.ofNumber m.method = .unsupported then .error .unsupportedMethod
      else .ok m.data := by
  obtain ⟨start, found, data⟩ := data_found m packable before after
  have sized : (m.entry before.length).packedSize = m.data.length := rfl
  unfold openEntry
  rw [found]
  dsimp only
  rw [sized, data]
  rfl

structure Member.Stored (m : Member) : Prop where
  plain : m.encrypted = false
  method : m.method = 0

def Member.Unopenable (m : Member) : Prop := m.encrypted = true ∨ Method.ofNumber m.method = .unsupported

theorem open_stored (m : Member) (packable : m.Packable) (stored : m.Stored) (before after : Bytes) :
    openEntry (before ++ (m.localRecord ++ after)) (m.entry before.length) = .ok m.data := by
  rw [open_listed m packable, stored.plain, stored.method]
  rfl

theorem open_unopenable (m : Member) (packable : m.Packable) (unopenable : m.Unopenable) (before after : Bytes) :
    ∃ e, openEntry (before ++ (m.localRecord ++ after)) (m.entry before.length) = .error e := by
  rw [open_listed m packable]
  rcases unopenable with encrypted | unsupported
  · exact ⟨.encrypted, if_pos encrypted⟩
  · rw [if_pos unsupported]
    exact ⟨_, (apply_ite Except.error _ _ _).symm⟩

end Opening

section Extraction

variable (name : String) (limit : Nat)

theorem extract_passed (passed rest : List Member) (packable : ∀ m ∈ passed, m.Packable)
    (others : ∀ m ∈ passed, m.Stored ∧ ¬ m.Named name) (before after : Bytes) :
    extractFrom (before ++ (localRecords (passed ++ rest) ++ after)) name limit (listing before.length (passed ++ rest)) =
      extractFrom ((before ++ localRecords passed) ++ (localRecords rest ++ after)) name limit
        (listing (before ++ localRecords passed).length rest) := by
  induction passed generalizing before with
  | nil => simp [localRecords]
  | cons m passed ih =>
      obtain ⟨stored, other⟩ := others m List.mem_cons_self
      have records : localRecords (m :: (passed ++ rest)) = m.localRecord ++ localRecords (passed ++ rest) := rfl
      have opened := open_stored m (packable m List.mem_cons_self) stored before (localRecords (passed ++ rest) ++ after)
      have different : (isDirectoryName (m.entry before.length).name ||
          normalize (m.entry before.length).name != normalize name) = true := by
        rw [← Bool.not_eq_false]
        exact fun same => other ((named_iff m name).mpr same)
      have further := ih (fun e member => packable e (List.mem_cons_of_mem _ member))
        (fun e member => others e (List.mem_cons_of_mem _ member)) (before ++ m.localRecord)
      have shift : before ++ m.localRecord ++ localRecords passed = before ++ localRecords (m :: passed) := by
        simp [localRecords]
      rw [shift, List.length_append, List.append_assoc before m.localRecord] at further
      rw [← further, List.cons_append, listing, records, List.append_assoc, extractFrom, opened]
      exact if_pos different

theorem extract_taken (m : Member) (rest : List Member) (packable : m.Packable) (stored : m.Stored)
    (named : m.Named name) (before after : Bytes) :
    extractFrom (before ++ (localRecords (m :: rest) ++ after)) name limit (listing before.length (m :: rest)) =
      if limit < m.data.length then .error (.tooLarge name limit) else .ok (some m.data) := by
  have opened := open_stored m packable stored before (localRecords rest ++ after)
  have same : ¬ (isDirectoryName (m.entry before.length).name ||
      normalize (m.entry before.length).name != normalize name) = true := by
    rw [Bool.not_eq_true]
    exact (named_iff m name).mp named
  have records : localRecords (m :: rest) = m.localRecord ++ localRecords rest := rfl
  have plain : Method.ofNumber (m.entry before.length).method = .stored := by
    rw [show (m.entry before.length).method = m.method from rfl, stored.method]
    rfl
  have checked : Crc32.checksum m.data = (m.entry before.length).checksum := rfl
  rw [listing, records, List.append_assoc, extractFrom, opened]
  dsimp only
  rw [if_neg same, unpack, plain]
  dsimp only
  by_cases large : limit < m.data.length
  · rw [if_pos large, if_pos large]
    rfl
  · rw [if_neg large, if_neg large, if_pos checked]
    rfl

theorem extract_blocked (m : Member) (rest : List Member) (packable : m.Packable) (unopenable : m.Unopenable)
    (before after : Bytes) :
    ∃ e, extractFrom (before ++ (localRecords (m :: rest) ++ after)) name limit (listing before.length (m :: rest)) =
      .error e := by
  obtain ⟨e, closed⟩ := open_unopenable m packable unopenable before (localRecords rest ++ after)
  have records : localRecords (m :: rest) = m.localRecord ++ localRecords rest := rfl
  rw [listing, records, List.append_assoc, extractFrom, closed]
  exact ⟨e, rfl⟩

end Extraction

theorem extraction_undoes_packing (members : List Member) (name : String) (distinct : (members.map Member.name).Nodup)
    (packable : ∀ m ∈ members, m.Packable) (fits : (pack members).length < 2 ^ 64) :
    (∀ before m after, members = before ++ m :: after → (∀ e ∈ before, e.Stored ∧ ¬ e.Named name) → m.Stored →
      m.Named name →
        (m.data.length ≤ entryLimit → extract (pack members) name = .ok (some m.data)) ∧
        (entryLimit < m.data.length → extract (pack members) name = .error (.tooLarge name entryLimit))) ∧
    ((∀ m ∈ members, m.Stored ∧ ¬ m.Named name) → extract (pack members) name = .ok none) ∧
    ∀ before m after, members = before ++ m :: after → (∀ e ∈ before, e.Stored ∧ ¬ e.Named name) → m.Unopenable →
      ∃ e, extract (pack members) name = .error e := by
  have entries := packed_entries members distinct packable (by simpa using fits)
  obtain ⟨tail, whole⟩ : ∃ tail, pack members = [] ++ (localRecords members ++ tail) :=
    ⟨_, by rw [pack, closed, List.nil_append, List.append_assoc, List.append_assoc]⟩
  have opened : extract (pack members) name =
      extractFrom ([] ++ (localRecords members ++ tail)) name entryLimit (listing ([] : Bytes).length members) := by
    rw [extract, extractBounded, entries, whole]
    rfl
  have reached (before : List Member) (m : Member) (after : List Member) (split : members = before ++ m :: after)
      (others : ∀ e ∈ before, e.Stored ∧ ¬ e.Named name) :
      extract (pack members) name = extractFrom (([] ++ localRecords before) ++ (localRecords (m :: after) ++ tail)) name
        entryLimit (listing ([] ++ localRecords before).length (m :: after)) := by
    rw [opened, split]
    exact extract_passed name entryLimit before (m :: after)
      (fun e member => packable e (split ▸ List.mem_append_left _ member)) others [] tail
  refine ⟨fun before m after split others stored named => ?_, fun others => ?_, fun before m after split others
    unopenable => ?_⟩
  · have taken := extract_taken name entryLimit m after (packable m (by simp [split])) stored named
      ([] ++ localRecords before) tail
    rw [reached before m after split others, taken]
    exact ⟨fun small => if_neg (Nat.not_lt.mpr small), fun large => if_pos large⟩
  · have all := extract_passed name entryLimit members [] packable others [] tail
    rw [List.append_nil] at all
    rw [opened, all]
    rfl
  · rw [reached before m after split others]
    exact extract_blocked name entryLimit m after (packable m (by simp [split])) unopenable _ tail

namespace LogArchive

def folder : Member := { name := "Logs/", data := [] }

def file : Member := { name := "./Logs\\a.complog", data := centralSignature ++ endRecord 1 2 3 }

def secret : Member := { name := "secret", data := Bytes.ofText "s", encrypted := true }

def copy : Member := { name := "Logs/a.complog", data := Bytes.ofText "two" }

theorem packable : ∀ m ∈ [folder, file, secret, copy], m.Packable := by
  intro m listed
  simp only [List.mem_cons, List.not_mem_nil, or_false] at listed
  rcases listed with rfl | rfl | rfl | rfl <;> exact ⟨by decide +kernel, by decide, by decide⟩

theorem folder_unnamed (asked : String) : folder.Stored ∧ ¬ folder.Named asked := by
  refine ⟨⟨rfl, rfl⟩, fun named => ?_⟩
  have directory : isDirectoryName folder.name = true := by decide +kernel
  rw [(file_iff _).mpr named.file] at directory
  cases directory

theorem file_named : file.Named "Logs/a.complog" := (named_iff _ _).mpr (by decide +kernel)

end LogArchive

open LogArchive in
theorem first_log_extracted :
    extract (pack [folder, file, secret, copy]) "Logs/a.complog" = .ok (some file.data) ∧
      extract (pack [folder]) "Logs/a.complog" = .ok none ∧
      ∃ e, extract (pack [secret, file, copy]) "Logs/a.complog" = .error e := by
  obtain ⟨found, -, -⟩ := extraction_undoes_packing [folder, file, secret, copy] "Logs/a.complog" (by decide +kernel)
    packable (by decide +kernel)
  obtain ⟨-, none, -⟩ := extraction_undoes_packing [folder] "Logs/a.complog" (by decide +kernel)
    (fun m listed => packable m (List.mem_cons.mpr (.inl (List.mem_singleton.mp listed)))) (by decide +kernel)
  obtain ⟨-, -, blocked⟩ := extraction_undoes_packing [secret, file, copy] "Logs/a.complog" (by decide +kernel)
    (fun m listed => packable m (by
      simp only [List.mem_cons, List.not_mem_nil, or_false] at listed ⊢
      rcases listed with rfl | rfl | rfl <;> simp)) (by decide +kernel)
  refine ⟨(found [folder] file [secret, copy] rfl ?_ ⟨rfl, rfl⟩ file_named).1 (by decide +kernel), none ?_,
    blocked [] secret [file, copy] rfl (by simp) (.inl rfl)⟩
  · intro e listed
    rw [List.mem_singleton.mp listed]
    exact folder_unnamed _
  · intro e listed
    rw [List.mem_singleton.mp listed]
    exact folder_unnamed _

end IndexKeeper.Archive
