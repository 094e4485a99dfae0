import IndexKeeper.Proofs.PublishingRounds
import IndexKeeper.Proofs.QuietEngines

set_option autoImplicit false

namespace IndexKeeper

open Store (Indexed indexesAt indexAt markerAt)

-- Whenever they are polled, the files of the sources are what they were in a tree; all other files may change.
inductive Later (allowed : Generator → Prop) (u : Setup) (root : Location) (t : FileTree) (first : Engine) :
    Engine → Prop where
  | first : Later allowed u root t first first
  | round (e : Engine) (later : Later allowed u root t first e) (reads : ∀ source ∈ e.sources, e.ReadsAs t source) :
      Later allowed u root t first e.runRound.2
  | reclaimed (e : Engine) (which : Nat) (later : Later allowed u root t first e) :
      Later allowed u root t first { e with disk := e.disk.reclaim which }
  | elsewhere (e next : Engine) (later : Later allowed u root t first e) (sources : next.sources = e.sources)
      (coordinator : next.coordinator = e.coordinator) (publisher : next.publisher = e.publisher)
      (loop : next.loop = e.loop) (indexes : ∀ n, IndexName (next.indexName n))
      (generators : ∀ n, allowed (next.generator n)) (doomed : next.disk.doomed = e.disk.doomed)
      (files : u.store.Elsewhere root e.disk.files next.disk.files) : Later allowed u root t first next
  | restarted (v : Setup) (e next : Engine) (fates : List Fate) (later : Later allowed u root t first e)
      (store : v.store = u.store) (sources : v.sources = u.sources)
      (idle : v.loop.pendingRegeneration = false) (indexes : ∀ n, IndexName (v.indexName n))
      (generators : ∀ n, allowed (v.generator n))
      (started : (v.start ⟨e.disk.files, [], fates⟩).1 = .ok next) : Later allowed u root t first next

structure Engine.Idles (e : Engine) : Prop where
  changed : e.runRound.1.changed = []
  published : e.runRound.1.published = none
  unfailed : e.runRound.1.generationFailed = false
  generated : e.runRound.2.generatorCalls = e.generatorCalls
  coordinator : e.runRound.2.coordinator = e.coordinator
  publisher : e.runRound.2.publisher = e.publisher
  disk : e.runRound.2.disk = e.disk

section Quiet

variable {allowed : Generator → Prop} (confined : ∀ g, allowed g → g.Confined) (u : Setup) (prepared : u.Prepared)
  (root : Location) (t : FileTree) (e : Engine) (quiet : Quiet allowed u root t e)

include quiet in
theorem quiet_round_idle (reads : ∀ source ∈ e.sources, e.ReadsAs t source) :
    e.runRound = (e.polled.2.2, e.regenerating) ∧ e.Idles ∧
      ∀ source ∈ e.regenerating.sources, source.Spent t (e.coordinator.versionKey? source.name) := by
  obtain ⟨coordinator, disk, changed, after⟩ := spent_sources_polled t e.sources e.begun {} quiet.spent reads
  obtain ⟨-, calls, unpublished, unfailed⟩ := e.polled_start
  have none : e.polled.2.2.changed = [] := changed
  have notDue : e.isDue e.polled.2.2 (e.loop.firstRound && e.indexIsBehind) = false := by
    simp [Engine.isDue, none, quiet.idle, quiet.abreast]
  have idle := Engine.run_round_idle e (.inr notDue)
  refine ⟨idle, ?_, after⟩
  constructor <;> rw [idle]
  · exact none
  · exact unpublished
  · exact unfailed
  · exact calls
  · exact coordinator
  · exact e.regenerating_frame.1
  · exact disk

include confined prepared quiet in
theorem quiet_round (reads : ∀ source ∈ e.sources, e.ReadsAs t source) :
    Alike root e e.runRound.2 ∧ Quiet allowed u root t e.runRound.2 := by
  obtain ⟨idle, idles, spent⟩ := quiet_round_idle u root t e quiet reads
  obtain ⟨a, running⟩ := quiet.running
  have alike : Alike root e e.runRound.2 := by
    refine ⟨idles.coordinator, idles.publisher, ?_, ?_⟩
    · rw [idles.disk]
      exact fun _ _ => rfl
    · rw [idles.disk]
      exact intact_of_same root _ _ _ fun _ _ => rfl
  have pending : e.runRound.2.loop.pendingRegeneration = false := by
    have owed := e.round_pending
    rw [idles.changed, quiet.idle] at owed
    simpa using owed
  refine ⟨alike, quiet_alike confined u prepared.named root t e _ quiet ⟨a, ?_⟩ alike pending ?_⟩
  · obtain ⟨-, indexName, generator, -⟩ := e.regenerating_frame
    refine running_same_files u.store root confined a e _ running idles.coordinator idles.publisher ?_ ?_ idles.disk
    · rw [idle]
      exact indexName
    · rw [idle]
      exact generator
  · rw [idle]
    exact spent

include confined prepared quiet in
theorem quiet_reclaimed (which : Nat) :
    Alike root e { e with disk := e.disk.reclaim which } ∧
      Quiet allowed u root t { e with disk := e.disk.reclaim which } := by
  obtain ⟨a, running⟩ := quiet.running
  have sound := running_sound u.store root confined a e running
  have steps := reclaim_steps u.store root _ e.disk which
    (serves_standing u.store root a e sound (running_serves u.store root confined a e running))
  have alike : Alike root e { e with disk := e.disk.reclaim which } := by
    refine ⟨rfl, rfl, fun l sourced => steps.files.get l (fun inside => ?_) id,
      intact_moves root e Nothing _ steps.files fun _ _ => id⟩
    exact indexed_not_sourced root l (Store.indexed_of_unkept root _ l inside) sourced
  exact ⟨alike, quiet_alike confined u prepared.named root t e _ quiet ⟨a, .reclaimed a e which running⟩ alike
    quiet.idle quiet.spent⟩

include confined prepared quiet in
theorem quiet_elsewhere (next : Engine) (sources : next.sources = e.sources)
    (coordinator : next.coordinator = e.coordinator) (publisher : next.publisher = e.publisher)
    (loop : next.loop = e.loop) (indexes : ∀ n, IndexName (next.indexName n))
    (generators : ∀ n, allowed (next.generator n)) (doomed : next.disk.doomed = e.disk.doomed)
    (files : u.store.Elsewhere root e.disk.files next.disk.files) :
    Alike root e next ∧ Quiet allowed u root t next := by
  obtain ⟨a, running⟩ := quiet.running
  have alike : Alike root e next := ⟨coordinator, publisher, fun l sourced => files.same l (.inl sourced),
    intact_of_same root _ _ _ fun l inside => files.same l (.inr inside)⟩
  exact ⟨alike, quiet_alike confined u prepared.named root t e next quiet
    ⟨a, .elsewhere a e next running coordinator publisher indexes generators doomed files⟩ alike (loop ▸ quiet.idle)
    (sources ▸ quiet.spent)⟩

include confined prepared quiet in
theorem quiet_restarted (v : Setup) (next : Engine) (fates : List Fate) (store : v.store = u.store)
    (sources : v.sources = u.sources) (idle : v.loop.pendingRegeneration = false)
    (indexes : ∀ n, IndexName (v.indexName n)) (generators : ∀ n, allowed (v.generator n))
    (started : (v.start ⟨e.disk.files, [], fates⟩).1 = .ok next) :
    Alike root e next ∧ Quiet allowed u root t next := by
  obtain ⟨a, running⟩ := quiet.running
  have sound := running_sound u.store root confined a e running
  have again : Running allowed u.store root a.restored next :=
    .reopened a v e next fates running store indexes generators started
  obtain ⟨sameSources, loop, -⟩ := v.start_keeps _ next started
  obtain ⟨disk, made, -, loaded, opened, -, -⟩ := v.started _ next rfl started
  rw [store] at made loaded opened
  rw [sources] at loaded
  have there : disk.files = e.disk.files :=
    made ▸ init_in_place u.store root ⟨e.disk.files, [], fates⟩ sound.place rfl
  have files : next.disk.files = e.disk.files :=
    (publisher_start_files u.store disk next.disk next.publisher opened).trans there
  obtain ⟨-, marker, -, from_store, -⟩ := Store.publisher_started u.store disk next.publisher (by rw [opened])
  rw [there] at loaded marker
  have coordinator : next.coordinator = e.coordinator :=
    Except.ok.inj (loaded.symm.trans
      ((u.store.load_in_place_iff root _ sound.place _ (u.plain_names prepared) _).mpr quiet.mirrored))
  have publisher : next.publisher = e.publisher := by
    have current := Except.ok.inj (marker.symm.trans quiet.marker)
    have same := from_store.trans sound.publisher.symm
    generalize next.publisher = p at current same
    generalize e.publisher = q at current same
    cases p
    cases q
    cases current
    cases same
    rfl
  have alike : Alike root e next := by
    refine ⟨coordinator, publisher, ?_, ?_⟩
    · rw [files]
      exact fun _ _ => rfl
    · rw [files]
      exact intact_of_same root _ _ _ fun _ _ => rfl
  exact ⟨alike, quiet_alike confined u prepared.named root t e next quiet ⟨_, again⟩ alike (loop ▸ idle)
    (sameSources ▸ sources ▸ quiet.anew)⟩

include confined prepared quiet in
theorem quiet_reopens (fits : FileTree.Usable u.store.root "index") (v : Setup) (fates : List Fate)
    (store : v.store = u.store) (sources : v.sources = u.sources)
    (made : (u.store.init ⟨e.disk.files, [], fates⟩).1 = .ok ()) :
    ∃ next, (v.start ⟨e.disk.files, [], fates⟩).1 = .ok next := by
  obtain ⟨a, running⟩ := quiet.running
  have place := (running_sound u.store root confined a e running).place
  have files : (u.store.init ⟨e.disk.files, [], fates⟩).2.files = e.disk.files :=
    init_in_place u.store root ⟨e.disk.files, [], fates⟩ place rfl
  have there : e.disk.files.isDirectory u.store.indexRoot = true :=
    (FileTree.is_directory_join e.disk.files u.store.root "index" root (by decide)
      (u.store.place_way root _ place)).mpr ⟨fits, place.index⟩
  have loaded := (u.store.load_in_place_iff root _ place _ (u.plain_names prepared) _).mpr quiet.mirrored
  have marker := quiet.marker
  obtain ⟨paths, orphans, -⟩ := u.store.orphans_there root _ place there e.publisher.current
  rw [← files] at loaded marker orphans
  rw [← store] at made loaded marker orphans
  rw [← sources] at loaded
  exact v.start_opens _ _ e.coordinator (Prod.ext made rfl) loaded _ _
    (Store.publisher_starts v.store _ _ paths marker orphans)

end Quiet

theorem later_quiet {allowed : Generator → Prop} (confined : ∀ g, allowed g → g.Confined) (u : Setup)
    (prepared : u.Prepared) (root : Location) (t : FileTree) (first e : Engine)
    (quiet : Quiet allowed u root t first) (later : Later allowed u root t first e) :
    Alike root first e ∧ Quiet allowed u root t e := by
  -- A quiet engine stays quiet in a round and in a restart alike.
  induction later with
  | first => exact ⟨alike_refl root first, quiet⟩
  | round e later reads ih =>
      obtain ⟨alike, quiet⟩ := quiet_round confined u prepared root t e ih.2 reads
      exact ⟨alike_trans root _ _ _ ih.1 alike, quiet⟩
  | reclaimed e which later ih =>
      obtain ⟨alike, quiet⟩ := quiet_reclaimed confined u prepared root t e ih.2 which
      exact ⟨alike_trans root _ _ _ ih.1 alike, quiet⟩
  | elsewhere e next later sources coordinator publisher loop indexes generators doomed files ih =>
      obtain ⟨alike, quiet⟩ := quiet_elsewhere confined u prepared root t e ih.2 next sources coordinator publisher
        loop indexes generators doomed files
      exact ⟨alike_trans root _ _ _ ih.1 alike, quiet⟩
  | restarted v e next fates later store sources idle indexes generators started ih =>
      obtain ⟨alike, quiet⟩ := quiet_restarted confined u prepared root t e ih.2 v next fates store sources idle
        indexes generators started
      exact ⟨alike_trans root _ _ _ ih.1 alike, quiet⟩

theorem unchanged_world_is_indexed_once {allowed : Generator → Prop} (confined : ∀ g, allowed g → g.Confined)
    (u : Setup) (prepared : u.Prepared) (root : Location) (a : Annals) (t : FileTree) (d : Disk) (e : Engine)
    (idle : d.doomed = []) (started : (u.start d).1 = .ok e) (running : Running allowed u.store root a e)
    (round : FirstRound root t e) (next : Engine) (later : Later allowed u root t e.runRound.2 next) :
    Alike root e.runRound.2 next ∧ ((∀ source ∈ next.sources, next.ReadsAs t source) → next.Idles) ∧
      ∀ (v : Setup) (fates : List Fate), v.store = u.store → v.sources = u.sources →
        (u.store.init ⟨next.disk.files, [], fates⟩).1 = .ok () →
        ∃ again, (v.start ⟨next.disk.files, [], fates⟩).1 = .ok again := by
  have begins := started_begins confined u prepared root a d e idle started running
  have quiet := first_round_quiet confined u prepared root t a e begins running round
  obtain ⟨alike, still⟩ := later_quiet confined u prepared root t _ next quiet later
  exact ⟨alike, fun reads => (quiet_round_idle u root t next still reads).2.1,
    fun v fates store sources made => quiet_reopens confined u prepared root t next still begins.fits v fates store
      sources made⟩

namespace FirstOpened

open HalfMade (files)

def setup (sources : List Source) (generator : Generator) (digit : Char) : Setup :=
  { CutBetween.setup digit with sources, generator := fun _ => generator }

def pipeline (p : Provider) : Source :=
  ⟨"ci", .runs (RunWatch.start (.pipeline "o" "p" "Logs" "a.complog") p 2)⟩

def archive : Bytes := Archive.pack [{ name := "Logs/a.complog", data := Bytes.ofText "one" }]

def run (id : Int) (pullRequest : Bool) : Run := ⟨⟨id, Instant.ofNanos id⟩, pullRequest⟩

theorem pipeline_trimmed (run : Run) :
    Text.trim (RunRule.key (.pipeline "o" "p" "Logs" "a.complog") run) =
      RunRule.key (.pipeline "o" "p" "Logs" "a.complog") run :=
  solid_trimmed _ (build_key_solid "o" "p" "Logs" "a.complog" (by decide) (by decide) run)

theorem stores_of_unfailed (e : Engine) (o : RoundOutcome) (sources : List Source)
    (undisturbed : ∀ name, e.interrupts name = .never) (through : (e.pollSources o sources).2.2.cancelled = false)
    (unfailed : (e.pollSources o sources).2.2.failed = []) :
    Engine.AtPolls Engine.Stores e sources ∧ o.failed = [] := by
  induction sources generalizing e o with
  | nil => exact ⟨trivial, unfailed⟩
  | cons source rest ih =>
      obtain ⟨going, split⟩ := e.poll_sources_through o source rest through
      rw [split] at through unfailed
      obtain ⟨later, noted⟩ := ih _ _ ((e.poll_source_frame source).interrupts ▸ undisturbed) through unfailed
      rw [(Engine.note_lists o source.name _).2, List.append_eq_nil_iff] at noted
      refine ⟨⟨⟨fun error refused => ?_, fun cause steps => by simp [undisturbed]⟩, later⟩, noted.1⟩
      have running : e.clock.cancelled = false := by
        cases off : e.clock.cancelled with
        | false => rfl
        | true => exact absurd (by rw [Engine.pollSource, off]; rfl) going
      obtain ⟨next, verdict, polled, -, -, -, failed⟩ := ingestion_poll e source running
      simp [polled, failed _ refused] at noted

theorem first_round_of_unfailed (e : Engine) (undisturbed : ∀ name, e.interrupts name = .never)
    (through : e.runRound.1.cancelled = false) (unfailed : e.runRound.1.failed = [])
    (regenerated : e.regenerating.regenerate.1.isOk = true)
    (reads : Engine.AtPolls (Engine.ReadsAs files) e.begun e.sources)
    (fresh : e.disk.files.get? (indexAt ["data"] (e.indexName e.generations)) = none) :
    FirstRound ["data"] files e := by
  obtain ⟨polled, -, failed, -⟩ := e.run_round_rest through
  have stores := stores_of_unfailed e.begun {} e.sources undisturbed polled (failed.symm.trans unfailed)
  exact first_round_computed ["data"] files e polled regenerated reads stores.1 fresh

theorem regenerates_of_published (e : Engine) (index : String) (published : e.runRound.1.published = some index) :
    e.regenerating.regenerate.1.isOk = true := by
  obtain ⟨-, next, answer, -⟩ := published_regenerated e index published
  rw [answer]
  rfl

end FirstOpened

namespace BarrenRun

open TwoIndexes (store)
open HalfMade (files)
open FirstOpened

def provider : Provider where
  runs _ := .gives [run 2 false, run 1 false]
  artifacts _ run := .gives (if run.attempt.id = 1 then [⟨none, "Logs"⟩] else [])
  download _ _ _ := .gives archive

def sources : List Source := [CutBetween.source, pipeline provider]

def annals : Annals := ⟨fun _ => none, false⟩

theorem unchanging : provider.Unchanging 100 where
  steady := ⟨fun _ _ => rfl, fun _ _ _ => rfl⟩
  alike := by
    intro runs _ run _ other _ same
    simp only [provider, same, and_self]

theorem prepared (digit : Char) : (setup sources CutBetween.maker digit).Prepared where
  named := by
    simp only [setup, sources, List.forall_mem_cons]
    exact ⟨CutBetween.named, by decide +kernel, nofun⟩
  distinct := (by decide : ["a", "ci"].Nodup)
  fresh := by
    simp only [setup, sources, List.forall_mem_cons]
    exact ⟨.file "a" "a.log", .builds "ci" _ provider 2 rfl unchanging pipeline_trimmed, nofun⟩
  first := rfl
  idle := rfl

theorem indexes (digit : Char) (listed : digit ∈ "0123456789abcdef-".toList) (n : Nat) :
    IndexName ((setup sources CutBetween.maker digit).indexName n) :=
  hex_index_name _ (hex_repeated digit listed n)

def first : Engine := ((setup sources CutBetween.maker 'a').start ⟨files, [], []⟩).1.toOption.get (by decide +kernel)

theorem first_started : ((setup sources CutBetween.maker 'a').start ⟨files, [], []⟩).1 = .ok first :=
  Setup.start_get _ _ _

theorem name_free : first.disk.files.get? (indexAt ["data"] (first.indexName first.generations)) = none := by
  decide +kernel

theorem first_publishes : first.runRound.1 = { changed := ["a", "ci"], published := some "a" } ∧
    first.runRound.2.disk.files.read "a.log" = files.read "a.log" ∧
    (store.init ⟨first.runRound.2.disk.files, [], []⟩).1 = .ok () := by decide +kernel

theorem first_files : first.disk.files = files := Setup.start_files _ ["data"] _ first HalfMade.place rfl first_started

theorem running : Running Generator.Confined store ["data"] annals.restored first :=
  .opened annals _ ⟨files, [], []⟩ first rfl (indexes 'a' (by decide)) (fun _ => CutBetween.maker_confined) rfl
    first_started (first_files ▸ HalfMade.place) (first_files ▸ ⟨.inl (by decide), by decide⟩) nofun

theorem round : FirstRound ["data"] files first := by
  obtain ⟨outcome, -⟩ := first_publishes
  refine first_round_of_unfailed first (Setup.start_keeps _ _ first first_started).2.2 (by rw [outcome])
    (by rw [outcome]) (regenerates_of_published first "a" (by rw [outcome])) ?_ name_free
  rw [(Setup.start_keeps _ _ first first_started).1]
  refine ⟨fun path _ => ?_, nofun, trivial⟩
  exact congrArg (FileTree.read · path) first_files

theorem left_in_place : store.InPlace ["data"] first.runRound.2.disk.files := by
  have begins := started_begins (fun _ => id) _ (prepared 'a') ["data"] _ _ first rfl first_started running
  obtain ⟨a, after⟩ := (first_round_quiet (fun _ => id) _ (prepared 'a') ["data"] files _ first begins running
    round).running
  exact (running_sound _ _ (fun _ => id) a _ after).place

end BarrenRun

open BarrenRun in
theorem barren_run_is_passed_after_restart :
    FirstRound ["data"] HalfMade.files first ∧
      first.runRound.1 = { changed := ["a", "ci"], published := some "a" } ∧
      ∃ second, ((FirstOpened.setup sources CutBetween.maker 'b').start
          ⟨first.runRound.2.disk.files, [], []⟩).1 = .ok second ∧
        Alike ["data"] first.runRound.2 second ∧ second.Idles := by
  obtain ⟨outcome, read, made⟩ := first_publishes
  have unchanged := unchanged_world_is_indexed_once (fun _ => id) _ (prepared 'a') ["data"] _ HalfMade.files _ first rfl
    first_started running round
  obtain ⟨-, -, reopens⟩ := unchanged first.runRound.2 .first
  obtain ⟨second, started⟩ := reopens (FirstOpened.setup sources CutBetween.maker 'b') [] rfl rfl made
  obtain ⟨alike, idles, -⟩ := unchanged second (.restarted (FirstOpened.setup sources CutBetween.maker 'b') _ second []
    .first rfl rfl rfl (indexes 'b' (by decide)) (fun _ => CutBetween.maker_confined) started)
  refine ⟨round, outcome, second, started, alike, idles ?_⟩
  rw [(Setup.start_keeps _ _ second started).1]
  simp only [FirstOpened.setup, sources, List.forall_mem_cons]
  refine ⟨fun path same => ?_, nofun, nofun⟩
  obtain rfl := SourceKind.filesystem.inj same
  rw [Setup.start_files _ ["data"] _ second left_in_place rfl started]
  exact read

-- While the repeated run is remembered it is passed over both times, but the other runs drive it from the memory.
namespace RepeatedRun

open HalfMade (files)
open FirstOpened

def provider : Provider where
  runs _ := .gives [run 1 false, run 2 false, run 1 true, run 3 false]
  artifacts _ run := .gives (if run.pullRequest then [⟨none, "Logs"⟩] else [])
  download _ _ _ := .gives archive

theorem steady : provider.Steady := ⟨fun _ _ => rfl, fun _ _ _ => rfl⟩

def first : Engine := ((setup [pipeline provider] CutBetween.maker 'a').start ⟨files, [], []⟩).1.toOption.get (by decide +kernel)

theorem first_started : ((setup [pipeline provider] CutBetween.maker 'a').start ⟨files, [], []⟩).1 = .ok first :=
  Setup.start_get _ _ _

theorem name_free : first.disk.files.get? (indexAt ["data"] (first.indexName first.generations)) = none := by
  decide +kernel

theorem first_finds_nothing : first.runRound.1 = {} ∧ first.regenerating.regenerate.1.isOk = true := by
  decide +kernel

theorem second_finds_run : first.runRound.2.runRound.1 = { changed := ["ci"], published := some "a" } := by
  decide +kernel

theorem round : FirstRound ["data"] files first := by
  obtain ⟨outcome, regenerated⟩ := first_finds_nothing
  refine first_round_of_unfailed first (Setup.start_keeps _ _ first first_started).2.2 (by rw [outcome])
    (by rw [outcome]) regenerated ?_ name_free
  rw [(Setup.start_keeps _ _ first first_started).1]
  exact ⟨nofun, trivial⟩

end RepeatedRun

namespace OverwrittenKey

open HalfMade (files)
open FirstOpened

def generator : Generator := fun artifacts out t =>
  ((CutBetween.maker artifacts out t).1, (CutBetween.maker artifacts out t).2.set ["data", "source", "a", "version"]
    (.file (Bytes.ofText "old\n")))

def first : Engine := ((setup [CutBetween.source] generator 'a').start ⟨files, [], []⟩).1.toOption.get (by decide +kernel)

theorem first_started : ((setup [CutBetween.source] generator 'a').start ⟨files, [], []⟩).1 = .ok first :=
  Setup.start_get _ _ _

def outcome (t : FileTree) : Option (Except FileError Bytes × RoundOutcome) :=
  ((setup [CutBetween.source] generator 'b').start ⟨t, [], []⟩).1.toOption.map fun e =>
    (e.disk.files.read "a.log", e.runRound.1)

theorem name_free : first.disk.files.get? (indexAt ["data"] (first.indexName first.generations)) = none := by
  decide +kernel

theorem first_publishes : first.runRound.1 = { changed := ["a"], published := some "a" } ∧
    first.runRound.2.disk.files.isDirectory "data/index/a" = true := by decide +kernel

theorem second_stores_again : outcome first.runRound.2.disk.files =
    some (files.read "a.log", { changed := ["a"], published := some "b" }) := by decide +kernel

theorem round : FirstRound ["data"] files first := by
  obtain ⟨outcome, -⟩ := first_publishes
  refine first_round_of_unfailed first (Setup.start_keeps _ _ first first_started).2.2 (by rw [outcome])
    (by rw [outcome]) (regenerates_of_published first "a" (by rw [outcome])) ?_ name_free
  rw [(Setup.start_keeps _ _ first first_started).1]
  refine ⟨fun path _ => ?_, trivial⟩
  exact congrArg (FileTree.read · path) (Setup.start_files _ ["data"] _ first HalfMade.place rfl first_started)

end OverwrittenKey

theorem unchanged_world_is_indexed_again :
    ((RepeatedRun.provider.Steady ∧ (∀ run, Text.trim (RunRule.key (.pipeline "o" "p" "Logs" "a.complog") run) =
        RunRule.key (.pipeline "o" "p" "Logs" "a.complog") run) ∧
      ((FirstOpened.setup [FirstOpened.pipeline RepeatedRun.provider] CutBetween.maker 'a').start
        ⟨HalfMade.files, [], []⟩).1 = .ok RepeatedRun.first) ∧
      FirstRound ["data"] HalfMade.files RepeatedRun.first ∧ RepeatedRun.first.runRound.1 = {} ∧
      RepeatedRun.first.runRound.2.runRound.1 = { changed := ["ci"], published := some "a" }) ∧
    (((FirstOpened.setup [CutBetween.source] OverwrittenKey.generator 'a').start ⟨HalfMade.files, [], []⟩).1 =
        .ok OverwrittenKey.first ∧
      FirstRound ["data"] HalfMade.files OverwrittenKey.first ∧
      OverwrittenKey.first.runRound.2.disk.files.isDirectory "data/index/a" = true ∧
      ∃ second, ((FirstOpened.setup [CutBetween.source] OverwrittenKey.generator 'b').start
          ⟨OverwrittenKey.first.runRound.2.disk.files, [], []⟩).1 = .ok second ∧
        second.disk.files.read "a.log" = HalfMade.files.read "a.log" ∧
        second.runRound.1 = { changed := ["a"], published := some "b" }) := by
  constructor
  · exact ⟨⟨RepeatedRun.steady, FirstOpened.pipeline_trimmed, RepeatedRun.first_started⟩, RepeatedRun.round,
      RepeatedRun.first_finds_nothing.1, RepeatedRun.second_finds_run⟩
  · have again := OverwrittenKey.second_stores_again
    refine ⟨OverwrittenKey.first_started, OverwrittenKey.round, OverwrittenKey.first_publishes.2, ?_⟩
    unfold OverwrittenKey.outcome at again
    generalize ((FirstOpened.setup [CutBetween.source] OverwrittenKey.generator 'b').start
      ⟨OverwrittenKey.first.runRound.2.disk.files, [], []⟩).1 = answer at again ⊢
    cases answer with
    | error error => cases again
    | ok second =>
        obtain ⟨read, outcome⟩ := Prod.mk.inj (Option.some.inj again)
        exact ⟨second, rfl, read, outcome⟩

end IndexKeeper
