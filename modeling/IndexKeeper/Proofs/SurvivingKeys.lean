import Mathlib.Data.List.TakeWhile
import IndexKeeper.CommandLine
import IndexKeeper.Proofs.LoadedStore
import IndexKeeper.Proofs.OwnStorage
import IndexKeeper.Proofs.PublishingRounds
import IndexKeeper.Proofs.SurfacingRuns

set_option autoImplicit false

namespace IndexKeeper

theorem trim_chars_front (front : List Char) (last : Char) (solid : Text.isBlank last = false) :
    Text.trimChars (front ++ [last]) = (front ++ [last]).dropWhile Text.isBlank := by
  have kept : (front ++ [last]).dropWhile Text.isBlank = front.dropWhile Text.isBlank ++ [last] := by
    rw [List.dropWhile_append]
    split
    · next gone => simp [List.isEmpty_iff.mp gone, solid]
    · rfl
  rw [Text.trimChars, kept]
  simp [solid]

namespace RunRule

def StartsBlank : RunRule → Prop
  | .pipeline organization .. => organization.toList.head?.any Text.isBlank = true
  | .workflow .. => False

variable (rule : RunRule) (run : Run)

theorem key_ends : ∃ front last, (rule.key run).toList = front ++ [last] ∧ Text.isBlank last = false := by
  obtain ⟨filled, solid⟩ := int_text_solid run.attempt.id
  have some : (toString run.attempt.id).toList ≠ [] := fun none => filled (String.toList_inj.mp none)
  have last := solid _ (List.getLast_mem some)
  have split := List.dropLast_concat_getLast some
  cases rule with
  | pipeline organization project artifactName fileName =>
      refine ⟨(organization ++ "/" ++ project ++ "/").toList ++ (toString run.attempt.id).toList.dropLast, _, ?_, last⟩
      rw [key, String.toList_append, List.append_assoc, split]
  | workflow artifactName fileName => exact ⟨_, _, split.symm, last⟩

theorem key_filled : Text.allBlank (rule.key run) = false := by
  obtain ⟨front, last, chars, solid⟩ := rule.key_ends run
  rw [Text.allBlank, chars, List.all_eq_false]
  exact ⟨last, by simp, by simp [solid]⟩

theorem key_starts_iff : (∃ first rest, (rule.key run).toList = first :: rest ∧ Text.isBlank first = true) ↔
    rule.StartsBlank := by
  cases rule with
  | pipeline organization project artifactName fileName =>
      rw [key, StartsBlank, String.toList_append, String.toList_append, String.toList_append, String.toList_append]
      cases organization.toList with
      | nil =>
          refine iff_of_false ?_ (by simp)
          rintro ⟨first, rest, same, blank⟩
          obtain rfl : '/' = first := by simpa using congrArg List.head? same
          revert blank
          decide
      | cons first rest =>
          constructor
          · rintro ⟨other, more, same, blank⟩
            obtain rfl : first = other := by simpa using congrArg List.head? same
            simpa using blank
          · exact fun blank => ⟨first, _, rfl, by simpa using blank⟩
  | workflow artifactName fileName =>
      refine iff_of_false ?_ id
      rintro ⟨first, rest, same, blank⟩
      have solid := (int_text_solid run.attempt.id).2 first (by
        rw [show (toString run.attempt.id).toList = _ from same]
        exact List.mem_cons_self)
      rw [blank] at solid
      cases solid

theorem key_trimmed_chars : (Text.trim (rule.key run)).toList = (rule.key run).toList.dropWhile Text.isBlank := by
  obtain ⟨front, last, chars, solid⟩ := rule.key_ends run
  rw [Text.trim, String.toList_ofList, chars, trim_chars_front front last solid]

theorem key_trimmed_iff : Text.trim (rule.key run) = rule.key run ↔ ¬ rule.StartsBlank := by
  rw [← rule.key_starts_iff run, ← String.toList_inj, key_trimmed_chars]
  cases (rule.key run).toList with
  | nil => exact iff_of_true rfl nofun
  | cons first rest =>
      cases blank : Text.isBlank first with
      | true =>
          refine iff_of_false (fun same => ?_) fun solid => solid ⟨first, rest, rfl, blank⟩
          rw [List.dropWhile_cons_of_pos blank] at same
          have shorter := List.length_dropWhile_le Text.isBlank rest
          rw [same, List.length_cons] at shorter
          omega
      | false =>
          refine iff_of_true (List.dropWhile_cons_of_neg (by simp [blank])) ?_
          rintro ⟨other, more, same, starts⟩
          obtain ⟨rfl, rfl⟩ := List.cons.inj same
          cases blank.symm.trans starts

theorem trimmed_no_key (starts : rule.StartsBlank) (other : Run) : Text.trim (rule.key run) ≠ rule.key other := by
  intro same
  obtain ⟨first, rest, chars, blank⟩ := (rule.key_starts_iff other).mpr starts
  have trimmed := rule.key_trimmed_chars run
  rw [same, chars] at trimmed
  have solid := List.head?_dropWhile_not Text.isBlank (rule.key run).toList
  rw [← trimmed] at solid
  cases blank.symm.trans solid

section Scan

variable (p : Provider) (existing : Option String) (visited : VisitedSet) (asked : List Question)

theorem look_at_stored (stored : existing = some (rule.key run)) :
    (look rule p existing visited asked run).1 = .gives .reached ∨
      (look rule p existing visited asked run = look rule p none visited asked run ∧
        ∀ key bytes, (look rule p none visited asked run).1 ≠ .gives (.found key bytes)) := by
  cases early : rule.stopsEarly with
  | true => exact .inl (by simp [look, early, stored])
  | false =>
      cases known : rule.passes visited run with
      | true => exact .inr (by simp [look, early, known])
      | false =>
          cases listing : (p.artifacts asked run).mapError PollError.provider with
          | gives artifacts =>
              cases chosen : rule.choose artifacts with
              | none => exact .inr (by simp [look, early, known, listing, chosen])
              | some artifact => exact .inl (by simp [look, early, known, listing, chosen, stored])
          | fails e => exact .inr (by simp [look, early, known, listing])
          | hangs => exact .inr (by simp [look, early, known, listing])
          | cancels => exact .inr (by simp [look, early, known, listing])

theorem made_unstored (s : Sight) (made : s.Made rule p existing) (onward : s.reply ≠ .gives .reached) :
    s.Made rule p none := by
  by_cases stored : existing = some (rule.key s.run)
  · rcases rule.look_at_stored s.run p existing s.visited s.asked stored with reached | ⟨same, -⟩
    · rw [made] at reached
      exact absurd reached onward
    · exact same.symm.trans made
  · exact (rule.look_unstored p existing s.visited s.asked s.run stored).symm.trans made

theorem found_unstored (s : Sight) (made : s.Made rule p existing) (key : String) (bytes : Bytes)
    (found : s.reply = .gives (.found key bytes)) : existing ≠ some (rule.key s.run) := by
  intro stored
  rcases rule.look_at_stored s.run p existing s.visited s.asked stored with reached | ⟨same, nothing⟩
  · rw [made, found] at reached
    cases reached
  · rw [← same, made] at nothing
    exact nothing key bytes found

theorem scan_finds (runs : List Run) (key : String) (bytes : Bytes)
    (found : (scan rule p existing visited asked runs).reply = .gives (.changed key bytes)) :
    existing ≠ some key ∧ scan rule p existing visited asked runs = scan rule p none visited asked runs := by
  refine scan_keeps rule p existing (fun visited asked runs done _ => done.reply = .gives (.changed key bytes) →
    existing ≠ some key ∧ done = scan rule p none visited asked runs) (fun _ _ => nofun)
    (fun s rest made stops found => ?_) (fun s rest done _ made going onward found => ?_) visited asked runs found
  · have found := (outcome_found_iff s key bytes).mp found
    have named := (looked_found (made_looked rule p existing s made) found).2.1
    have unstored := rule.made_unstored p existing s made (by rw [found]; nofun)
    exact ⟨named ▸ rule.found_unstored p existing s made key bytes found, (scan_stops rule p none s unstored stops rest).symm⟩
  · have unstored := rule.made_unstored p existing s made (by rcases going with same | same <;> rw [same] <;> nofun)
    rw [scan_onward rule p none s unstored going rest]
    exact onward found

theorem scan_unstored (runs : List Run) (others : ∀ run, existing ≠ some (rule.key run)) :
    scan rule p existing visited asked runs = scan rule p none visited asked runs := by
  have unstored (s : Sight) (made : s.Made rule p existing) : s.Made rule p none :=
    (rule.look_unstored p existing s.visited s.asked s.run (others s.run)).symm.trans made
  refine scan_keeps rule p existing (fun visited asked runs done _ => done = scan rule p none visited asked runs)
    (fun _ _ => rfl) (fun s rest made stops => (scan_stops rule p none s (unstored s made) stops rest).symm)
    (fun s rest done _ made going onward => ?_) visited asked runs
  rw [scan_onward rule p none s (unstored s made) going rest]
  exact onward

end Scan

end RunRule

theorem listing_scanned (w : RunWatch) (existing : Option String) (key : String) (bytes : Bytes)
    (changed : (w.tryIngest existing).1 = .gives (.changed key bytes)) :
    ∃ runs, ∀ stored, (w.tryIngest stored).1 =
      (scan w.rule w.provider stored w.visited [.runs w.rule.limit] runs).reply := by
  cases listing : w.provider.runs w.rule.limit with
  | gives runs => exact ⟨runs, fun stored => by rw [w.try_ingest_listed stored runs listing]⟩
  | _ => simp [RunWatch.tryIngest, scanListed, listing] at changed

namespace SourceSettings

def rule? : SourceSettings → Option RunRule
  | .filesystem _ => none
  | .pipeline organization project _ artifactName fileName => some (.pipeline organization project artifactName fileName)
  | .workflow _ _ _ artifactName fileName => some (.workflow artifactName fileName)

-- A source as these settings make it, whatever its provider answers and whatever it remembers by now.
def Makes (settings : SourceSettings) : SourceKind → Prop
  | .filesystem path => settings = .filesystem path
  | .runs w => settings.rule? = some w.rule

def StartsBlank : SourceSettings → Prop
  | .pipeline organization .. => organization.toList.head?.any Text.isBlank = true
  | _ => False

def Recognizes (settings : SourceSettings) (stored : Option String) (key : String) : Prop :=
  ∀ (source : Source) (t : FileTree) (bytes : Bytes), settings.Makes source.kind →
    (source.tryIngest t stored).1 ≠ .gives (.changed key bytes)

theorem starts_blank_iff (settings : SourceSettings) (rule : RunRule) (same : settings.rule? = some rule) :
    rule.StartsBlank ↔ settings.StartsBlank := by
  cases settings with
  | filesystem path => cases same
  | pipeline organization project definition artifactName fileName =>
      obtain rfl := Option.some.inj same
      exact Iff.rfl
  | workflow owner repo workflowFileName artifactName fileName =>
      obtain rfl := Option.some.inj same
      exact Iff.rfl

section Polled

variable (settings : SourceSettings) (source : Source) (made : settings.Makes source.kind) (t : FileTree)
  (existing : Option String)
include made

variable (key : String) (bytes : Bytes) (changed : (source.tryIngest t existing).1 = .gives (.changed key bytes))
include changed

omit made in
theorem poll_finds : existing ≠ some key ∧ (source.tryIngest t none).1 = .gives (.changed key bytes) := by
  obtain ⟨name, kind⟩ := source
  cases kind with
  | filesystem path =>
      rcases try_file_cases t path existing with ⟨failed, -⟩ | ⟨idle, -⟩ | ⟨found, read, other, taken⟩
      · simp only [Source.tryIngest, failed] at changed
        cases changed
      · simp only [Source.tryIngest, idle] at changed
        cases changed
      · simp only [Source.tryIngest, taken] at changed
        cases changed
        refine ⟨other, ?_⟩
        simp [Source.tryIngest, Source.tryFile, read, Reply.ofExcept]
  | runs w =>
      have changed : (w.tryIngest existing).1 = .gives (.changed key bytes) := changed
      obtain ⟨runs, scanned⟩ := listing_scanned w existing key bytes changed
      rw [scanned] at changed
      obtain ⟨other, same⟩ := w.rule.scan_finds w.provider existing w.visited _ runs key bytes changed
      refine ⟨other, ?_⟩
      change (w.tryIngest none).1 = _
      rw [scanned, ← same]
      exact changed

theorem found_key : (settings.rule? = none ∧ key = Source.contentKey bytes) ∨
    ∃ rule run, settings.rule? = some rule ∧ key = rule.key run := by
  obtain ⟨name, kind⟩ := source
  cases kind with
  | filesystem path =>
      rcases try_file_cases t path existing with ⟨failed, -⟩ | ⟨idle, -⟩ | ⟨found, -, -, taken⟩
      · simp only [Source.tryIngest, failed] at changed
        cases changed
      · simp only [Source.tryIngest, idle] at changed
        cases changed
      · simp only [Source.tryIngest, taken] at changed
        cases changed
        obtain rfl : settings = .filesystem path := made
        exact .inl ⟨rfl, rfl⟩
  | runs w =>
      have changed : (w.tryIngest existing).1 = .gives (.changed key bytes) := changed
      obtain ⟨runs, scanned⟩ := listing_scanned w existing key bytes changed
      rw [scanned] at changed
      obtain ⟨run, -, -, same⟩ := w.rule.scan_offers w.provider existing w.visited _ runs key bytes changed
      exact .inr ⟨w.rule, run, made, same⟩

theorem found_filled : Text.allBlank key = false := by
  rcases settings.found_key source made t existing key bytes changed with ⟨-, rfl⟩ | ⟨rule, run, -, rfl⟩
  · exact (content_key_durable bytes).1
  · exact rule.key_filled run

theorem found_trimmed_iff : Text.trim key = key ↔ ¬ settings.StartsBlank := by
  rcases settings.found_key source made t existing key bytes changed with ⟨file, rfl⟩ | ⟨rule, run, same, rfl⟩
  · refine iff_of_true (content_key_durable bytes).2 fun blank => ?_
    cases settings with
    | filesystem path => exact blank
    | _ => cases file
  · rw [rule.key_trimmed_iff run, settings.starts_blank_iff rule same]

theorem trimmed_recognized_iff : settings.Recognizes (some (Text.trim key)) key ↔ ¬ settings.StartsBlank := by
  constructor
  · intro recognizes blank
    refine recognizes source t bytes made ?_
    have unstored := (poll_finds source t existing key bytes changed).2
    rcases settings.found_key source made t existing key bytes changed with ⟨file, -⟩ | ⟨rule, run, same, rfl⟩
    · cases settings with
      | filesystem path => exact blank.elim
      | _ => cases file
    · have starts := (settings.starts_blank_iff rule same).mpr blank
      obtain ⟨name, kind⟩ := source
      cases kind with
      | filesystem path =>
          obtain rfl : settings = .filesystem path := made
          cases same
      | runs w =>
          obtain rfl : w.rule = rule := Option.some.inj (Eq.trans (Eq.symm made) same)
          have others (other : Run) : some (Text.trim (w.rule.key run)) ≠ some (w.rule.key other) := fun same =>
            w.rule.trimmed_no_key run starts other (Option.some.inj same)
          have unstored : (w.tryIngest none).1 = .gives (.changed (w.rule.key run) bytes) := unstored
          obtain ⟨runs, scanned⟩ := listing_scanned w none _ bytes unstored
          change (w.tryIngest (some (Text.trim (w.rule.key run)))).1 = _
          rw [scanned, w.rule.scan_unstored w.provider _ w.visited _ runs others, ← scanned]
          exact unstored
  · intro solid other tree more otherMade found
    rw [(settings.found_trimmed_iff source made t existing key bytes changed).mpr solid] at found
    exact (poll_finds other tree (some key) key more found).1 rfl

end Polled

end SourceSettings

namespace Store

structure Retains (s : Store) (root : Location) (source : String) (t later : FileTree) : Prop where
  formed : later.WellFormed
  leads : later.way s.root = .ok root
  opened : later.get? (root ++ ["source"]) = some .directory
  version : later.read (s.versionPath source) = t.read (s.versionPath source)
  artifact : later.read (s.artifactPath source) = t.read (s.artifactPath source)

theorem retains_standing (s : Store) (root : Location) (swept : Location → Prop) (d : Disk)
    (standing : s.Standing root swept d) (source : String) : s.Retains root source d.files d.files :=
  ⟨standing.formed, reaches_way _ _ _ _ standing.reaches, standing.source, rfl, rfl⟩

theorem loaded_trimmed (s : Store) (t : FileTree) (source key : String) (bytes : Bytes)
    (filled : Text.allBlank key = false) (version : t.read (s.versionPath source) = .ok (Bytes.ofText key))
    (artifact : t.read (s.artifactPath source) = .ok bytes) (root : Location) (formed : t.WellFormed)
    (leads : t.way s.root = .ok root) (opened : t.get? (root ++ ["source"]) = some .directory) (names : List String)
    (included : source ∈ names) (plain : Path.Plain source) (c : Coordinator)
    (loaded : Coordinator.load s t names = .ok c) : c.versionKey? source = some (Text.trim key) := by
  obtain ⟨-, entries⟩ := s.loaded_entries root t formed leads opened names c loaded
  have entry := (entries source _).mpr ⟨included, plain, s.stored_trimmed t source key bytes filled version artifact⟩
  rw [Coordinator.versionKey?, entry]
  rfl

end Store

theorem recorded_loads (c : Coordinator) (root : Location) (swept : Location → Prop) (d : Disk)
    (standing : c.store.Standing root swept d) (source key : String) (bytes : Bytes) (plain : Path.Plain source)
    (filled : Text.allBlank key = false) (path : String) (next : Coordinator) (after : Disk)
    (recorded : c.record d source key bytes = (.ok path, next, after)) (names : List String) (old : Coordinator)
    (loaded : Coordinator.load c.store d.files names = .ok old) :
    ∃ new, Coordinator.load c.store after.files names = .ok new := by
  obtain ⟨afterStanding, done⟩ := record_done c root swept d standing ⟨source, key, bytes⟩ plain
  dsimp only at afterStanding done
  rw [recorded] at afterStanding done
  obtain ⟨-, version, artifact⟩ := done.whole path rfl
  obtain ⟨fits, readable⟩ := c.store.readable_of_load root d.files standing.formed
    (reaches_way _ _ _ _ standing.reaches) standing.source names old loaded
  obtain ⟨new, again, -⟩ := c.store.load_readable root after.files afterStanding.formed
    (reaches_way _ _ _ _ afterStanding.reaches) afterStanding.source names fits fun name namePlain => by
      by_cases same : name = source
      · exact ⟨_, same ▸ c.store.stored_trimmed after.files source key bytes filled version artifact⟩
      · obtain ⟨-, sameVersion, sameArtifact⟩ := done.others name namePlain same
        rw [c.store.stored_alike d.files after.files name sameVersion sameArtifact]
        exact readable name namePlain
  exact ⟨new, again⟩

theorem recorded_key_survives_iff (document : String) (config : Config) (parsed : Config.parse document = .ok config)
    (setting : NamedSource) (listed : setting ∈ config.sources) (source : Source) (named : source.name = setting.name)
    (made : setting.settings.Makes source.kind) (t : FileTree) (existing : Option String) (key : String)
    (bytes : Bytes) (changed : (source.tryIngest t existing).1 = .gives (.changed key bytes)) (c : Coordinator)
    (root : Location) (swept : Location → Prop) (d : Disk) (standing : c.store.Standing root swept d) (path : String)
    (next : Coordinator) (after : Disk) (recorded : c.record d source.name key bytes = (.ok path, next, after))
    (names : List String) (included : source.name ∈ names) :
    next.versionKey? source.name = some key ∧
    ((∃ old, Coordinator.load c.store d.files names = .ok old) →
      ∃ new, Coordinator.load c.store after.files names = .ok new) ∧
    ∀ (later : FileTree) (new : Coordinator), c.store.Retains root source.name after.files later →
      Coordinator.load c.store later names = .ok new →
        new.versionKey? source.name = some (Text.trim key) ∧
        (new.versionKey? source.name = some key ↔ ¬ setting.settings.StartsBlank) ∧
        (setting.settings.Recognizes (new.versionKey? source.name) key ↔ ¬ setting.settings.StartsBlank) := by
  have plain : Path.Plain source.name :=
    named ▸ proper_name_plain _ (((Config.parse_iff document config).mp parsed).2.named setting listed)
  have filled := setting.settings.found_filled source made t existing key bytes changed
  have trimmed := setting.settings.found_trimmed_iff source made t existing key bytes changed
  have recognized := setting.settings.trimmed_recognized_iff source made t existing key bytes changed
  have done := (record_done c root swept d standing ⟨source.name, key, bytes⟩ plain).2
  dsimp only at done
  rw [recorded] at done
  obtain ⟨known, version, artifact⟩ := done.whole path rfl
  refine ⟨known, ?_, fun later new retains loaded => ?_⟩
  · rintro ⟨old, loaded⟩
    exact recorded_loads c root swept d standing source.name key bytes plain filled path next after recorded names old
      loaded
  · have found := c.store.loaded_trimmed later source.name key bytes filled (retains.version.trans version)
      (retains.artifact.trans artifact) root retains.formed retains.leads retains.opened names included plain new loaded
    rw [found]
    exact ⟨rfl, Option.some_inj.trans trimmed, recognized⟩

namespace Organizations

open TwoIndexes (store empty)

def lines (organization : String) : List String := [
  "[storage]\n", "root = \"data\"\n", "[generator]\n", "command = \"scip\"\n", "[[sources]]\n", "name = \"ci\"\n",
  "kind = \"pipeline\"\n", "organization = \"" ++ organization ++ "\"\n", "project = \"p\"\n", "definition = 1\n",
  "artifact_name = \"Logs\"\n", "file_name = \"a.complog\"\n"]

def document (organization : String) : String := String.ofList ((lines organization).flatMap String.toList)

def setting (organization : String) : NamedSource := ⟨"ci", .pipeline organization "p" 1 "Logs" "a.complog"⟩

def config (organization : String) : Config where
  storageRoot := "data"
  poll := {}
  generator := ⟨"scip", []⟩
  bind := Config.defaultBind
  tokens := {}
  sources := [setting organization]

def source (organization : String) : Source :=
  ⟨"ci", .runs (RunWatch.start (.pipeline organization "p" "Logs" "a.complog") SpacedKey.built 50)⟩

def recorded (key : String) : Except StoreError String × Coordinator × Disk :=
  Coordinator.record ⟨store, .empty⟩ ⟨empty, [], []⟩ "ci" key (Bytes.ofText "one")

def reloaded (key : String) : Option Coordinator :=
  (Coordinator.load store (recorded key).2.2.files ["ci"]).toOption

theorem standing : store.Standing ["data"] (Store.Unkept ["data"] markers) ⟨empty, [], []⟩ :=
  store.place_standing ["data"] empty TwoIndexes.empty_in_place markers _ rfl nofun

theorem parsed : Config.parse (document "o o") = .ok (config "o o") ∧
    Config.parse (document " o") = .ok (config " o") := by
  rw [Config.parse, Toml.parse?, document, String.toList_ofList, Config.parse, Toml.parse?, document,
    String.toList_ofList]
  decide +kernel

theorem build_found :
    ((source "o o").tryIngest empty none).1 = .gives (.changed "o o/p/1" (Bytes.ofText "one")) := by decide +kernel

theorem build_recorded : (recorded "o o/p/1").1 = .ok "data/source/ci/build.complog" ∧
    (reloaded "o o/p/1").isSome = true := by decide +kernel

end Organizations

open Organizations in
theorem inner_space_survives :
    Config.parse (document "o o") = .ok (config "o o") ∧
      ((source "o o").tryIngest TwoIndexes.empty none).1 = .gives (.changed "o o/p/1" (Bytes.ofText "one")) ∧
      ∃ new, reloaded "o o/p/1" = some new ∧ new.versionKey? "ci" = some "o o/p/1" ∧
        (setting "o o").settings.Recognizes (some "o o/p/1") "o o/p/1" := by
  have changed := build_found
  obtain ⟨stored, loads⟩ := build_recorded
  obtain ⟨new, loaded⟩ := Option.isSome_iff_exists.mp loads
  rw [loaded]
  unfold reloaded at loaded
  generalize call : recorded "o o/p/1" = answer at stored loaded
  obtain ⟨result, next, after⟩ := answer
  obtain rfl : result = .ok "data/source/ci/build.complog" := stored
  unfold recorded at call
  obtain ⟨-, -, survives⟩ := recorded_key_survives_iff (document "o o") (config "o o") parsed.1
    (setting "o o") List.mem_cons_self (source "o o") rfl rfl TwoIndexes.empty none "o o/p/1" (Bytes.ofText "one") changed
    ⟨TwoIndexes.store, .empty⟩ ["data"] _ ⟨TwoIndexes.empty, [], []⟩ standing _ next after call ["ci"] (by decide)
  have stands := (record_done ⟨TwoIndexes.store, .empty⟩ ["data"] _ _ standing
    ⟨"ci", "o o/p/1", Bytes.ofText "one"⟩ (by decide)).1
  dsimp only at stands loaded
  rw [call] at stands
  obtain ⟨-, exact, recognized⟩ := survives after.files new
    (TwoIndexes.store.retains_standing ["data"] _ after stands "ci") (ok_of_to_option _ new loaded)
  have solid : ¬ (setting "o o").settings.StartsBlank := by
    change ¬ ("o o".toList.head?.any Text.isBlank = true)
    decide
  have known := exact.mpr solid
  exact ⟨parsed.1, changed, new, rfl, known, known ▸ recognized.mpr solid⟩

open Organizations in
theorem leading_space_is_lost :
    Config.parse (document " o") = .ok (config " o") ∧
      ((source " o").tryIngest TwoIndexes.empty none).1 = .gives (.changed " o/p/1" (Bytes.ofText "one")) ∧
      (recorded " o/p/1").1 = .ok "data/source/ci/build.complog" ∧
      (recorded " o/p/1").2.1.versionKey? "ci" = some " o/p/1" ∧
      (reloaded " o/p/1").bind (fun new => new.versionKey? "ci") = some "o/p/1" ∧
      ((source " o").tryIngest (recorded " o/p/1").2.2.files (some "o/p/1")).1 =
        .gives (.changed " o/p/1" (Bytes.ofText "one")) := by
  refine ⟨parsed.2, ?_⟩
  decide +kernel

end IndexKeeper
