import IndexKeeper.Config
import IndexKeeper.Proofs.FileSteps

set_option autoImplicit false

namespace IndexKeeper

theorem guard_passed {ε : Type} (p : Prop) [Decidable p] (e : ε) (rest : Except ε Unit) :
    (if p then .error e else rest) = .ok () ↔ ¬ p ∧ rest = .ok () := by
  by_cases fails : p <;> simp [fails]

namespace Config

def nameAlphabet : List Char :=
  ['A', 'B', 'C', 'D', 'E', 'F', 'G', 'H', 'I', 'J', 'K', 'L', 'M',
    'N', 'O', 'P', 'Q', 'R', 'S', 'T', 'U', 'V', 'W', 'X', 'Y', 'Z',
    'a', 'b', 'c', 'd', 'e', 'f', 'g', 'h', 'i', 'j', 'k', 'l', 'm',
    'n', 'o', 'p', 'q', 'r', 's', 't', 'u', 'v', 'w', 'x', 'y', 'z',
    '0', '1', '2', '3', '4', '5', '6', '7', '8', '9', '.', '_', '-']

theorem name_alphabet_allowed : nameAlphabet.all isNameChar = true := by
  decide

theorem name_ranges_listed :
    (∀ n, n < 26 → Char.ofNat (65 + n) ∈ nameAlphabet) ∧ (∀ n, n < 26 → Char.ofNat (97 + n) ∈ nameAlphabet) ∧
      ∀ n, n < 10 → Char.ofNat (48 + n) ∈ nameAlphabet := by
  decide

theorem name_range_listed (c : Char) (first length : Nat) (above : first ≤ c.toNat) (below : c.toNat < first + length)
    (listed : ∀ n, n < length → Char.ofNat (first + n) ∈ nameAlphabet) : c ∈ nameAlphabet := by
  have member := listed (c.toNat - first) (by omega)
  rwa [Nat.add_sub_cancel' above, Char.ofNat_toNat] at member

theorem alphanumeric_ranges (c : Char) (allowed : c.isAlphanum = true) :
    (65 ≤ c.toNat ∧ c.toNat ≤ 90) ∨ (97 ≤ c.toNat ∧ c.toNat ≤ 122) ∨ (48 ≤ c.toNat ∧ c.toNat ≤ 57) := by
  have parts : ((c.isUpper || c.isLower) || c.isDigit) = true := allowed
  simp only [Bool.or_eq_true] at parts
  rcases parts with (upper | lower) | digit
  · exact .inl (of_decide_eq_true upper)
  · have range : (decide (97 ≤ c.toNat) && decide (c.toNat ≤ 122)) = true := lower
    simp only [Bool.and_eq_true, decide_eq_true_eq] at range
    exact .inr (.inl range)
  · have range : (decide (48 ≤ c.toNat) && decide (c.toNat ≤ 57)) = true := digit
    simp only [Bool.and_eq_true, decide_eq_true_eq] at range
    exact .inr (.inr range)

theorem name_char_iff (c : Char) : isNameChar c = true ↔ c ∈ nameAlphabet := by
  constructor
  · intro allowed
    obtain ⟨upper, lower, digit⟩ := name_ranges_listed
    simp only [isNameChar, Bool.or_eq_true, beq_iff_eq] at allowed
    rcases allowed with ((alphanumeric | rfl) | rfl) | rfl
    · rcases alphanumeric_ranges c alphanumeric with ⟨above, below⟩ | ⟨above, below⟩ | ⟨above, below⟩
      · exact name_range_listed c 65 26 above (by omega) upper
      · exact name_range_listed c 97 26 above (by omega) lower
      · exact name_range_listed c 48 10 above (by omega) digit
    · decide
    · decide
    · decide
  · exact List.all_eq_true.mp name_alphabet_allowed c

structure ProperName (name : String) : Prop where
  filled : name ≠ ""
  here : name ≠ "."
  above : name ≠ ".."
  listed : ∀ c ∈ name.toList, c ∈ nameAlphabet

theorem check_name_iff (name : String) : checkName name = .ok () ↔ ProperName name := by
  have allowed : (∀ c ∈ name.toList, c ∈ nameAlphabet) ↔ name.toList.find? (fun c => !isNameChar c) = none := by
    simp [List.find?_eq_none, name_char_iff]
  rw [checkName, guard_passed, guard_passed, not_or]
  constructor
  · intro ⟨filled, ⟨here, above⟩, clean⟩
    refine ⟨filled, here, above, allowed.mpr ?_⟩
    cases found : name.toList.find? fun c => !isNameChar c with
    | none => rfl
    | some c =>
        rw [found] at clean
        cases clean
  · intro ⟨filled, here, above, listed⟩
    rw [allowed.mp listed]
    exact ⟨filled, ⟨here, above⟩, rfl⟩

structure Acceptable (c : Config) : Prop where
  interval : 0 < c.poll.intervalSecs
  timeout : 0 < c.poll.sourceTimeoutSecs
  visited : 2 ≤ c.poll.maxVisitedBuilds
  command : ∃ letter ∈ c.generator.command.toList, Text.isBlank letter = false
  named : ∀ source ∈ c.sources, ProperName source.name
  distinct : (c.sources.map NamedSource.name).Nodup
  paths : ∀ source ∈ c.sources, ∀ path, source.settings = .filesystem path → path ≠ ""

theorem check_source_iff (seen : List String) (source : NamedSource) (rest : List NamedSource) :
    checkSources seen (source :: rest) = .ok () ↔
      ProperName source.name ∧ source.name ∉ seen ∧ source.settings ≠ .filesystem "" ∧
        checkSources (source.name :: seen) rest = .ok () := by
  rw [← check_name_iff, checkSources]
  cases checkName source.name with
  | error e => simp
  | ok => simp [guard_passed]

theorem check_sources_iff (seen : List String) (sources : List NamedSource) :
    checkSources seen sources = .ok () ↔
      (∀ source ∈ sources, ProperName source.name) ∧ (sources.map NamedSource.name).Nodup ∧
        (∀ source ∈ sources, source.name ∉ seen) ∧ ∀ source ∈ sources, source.settings ≠ .filesystem "" := by
  induction sources generalizing seen with
  | nil => simp [checkSources]
  | cons source rest ih =>
      have own : (∀ other ∈ rest, other.name ≠ source.name) ↔ source.name ∉ rest.map NamedSource.name := by
        simp
      rw [check_source_iff, ih, List.map_cons, List.nodup_cons, ← own]
      simp only [List.forall_mem_cons]
      simp only [List.mem_cons, not_or, imp_and, forall_and]
      constructor
      · intro ⟨name, unseen, path, names, distinct, ⟨apart, fresh⟩, paths⟩
        exact ⟨⟨name, names⟩, ⟨apart, distinct⟩, ⟨unseen, fresh⟩, path, paths⟩
      · intro ⟨⟨name, names⟩, ⟨apart, distinct⟩, ⟨unseen, fresh⟩, path, paths⟩
        exact ⟨name, unseen, path, names, distinct, ⟨apart, fresh⟩, paths⟩

theorem check_iff (c : Config) : c.check = .ok () ↔ c.Acceptable := by
  have command : ¬ Text.allBlank c.generator.command = true ↔
      ∃ letter ∈ c.generator.command.toList, Text.isBlank letter = false := by
    simp [Text.allBlank]
  rw [check, guard_passed, guard_passed, guard_passed, guard_passed, check_sources_iff, command]
  constructor
  · intro ⟨interval, timeout, visited, command, named, distinct, _, paths⟩
    refine ⟨by omega, by omega, by omega, command, named, distinct, ?_⟩
    exact fun source listed path settings empty => paths source listed (empty ▸ settings)
  · intro ⟨interval, timeout, visited, command, named, distinct, paths⟩
    refine ⟨by omega, by omega, by omega, command, named, distinct, by simp, ?_⟩
    exact fun source listed settings => paths source listed "" settings rfl

theorem parse_iff (document : String) (c : Config) :
    parse document = .ok c ↔ (Toml.parse? document).bind ofFields? = some c ∧ c.Acceptable := by
  rw [parse, ← check_iff]
  cases (Toml.parse? document).bind ofFields? with
  | none => simp
  | some decoded =>
      constructor
      · intro accepted
        obtain ⟨passed, checked, rfl⟩ := map_ok _ _ _ accepted
        exact ⟨rfl, checked⟩
      · intro ⟨same, passed⟩
        cases same
        simp [passed, Except.map]

end Config

end IndexKeeper
