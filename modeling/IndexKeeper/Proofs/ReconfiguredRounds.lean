import IndexKeeper.Proofs.LoadedStore
import IndexKeeper.Proofs.PublishingRounds
import IndexKeeper.Proofs.UnpublishedRounds

set_option autoImplicit false

namespace IndexKeeper

open Store (Unkept Indexed indexesAt indexAt markerAt)

namespace Engine

theorem poll_source_known (e : Engine) (source : Source) (name : String)
    (known : (e.pollSource source).1.coordinator.versionKey? name ≠ none) :
    e.coordinator.versionKey? name ≠ none ∨ name = source.name := by
  by_cases own : name = source.name
  · exact .inr own
  · rcases poll_source_coordinator e source with ⟨-, same⟩ | ⟨-, key, bytes, -, -, grown⟩
    · exact .inl (same ▸ known)
    · left
      simpa [Coordinator.versionKey?, grown, own] using known

theorem poll_sources_known (e : Engine) (o : RoundOutcome) (sources : List Source) :
    (e.pollSources o sources).2.1.map Source.name = sources.map Source.name ∧
      ((e.pollSources o sources).2.2.changed = [] →
        (e.pollSources o sources).1.coordinator = e.coordinator) ∧
      ∀ name, (e.pollSources o sources).1.coordinator.versionKey? name ≠ none →
        e.coordinator.versionKey? name ≠ none ∨ name ∈ sources.map Source.name := by
  induction sources generalizing e o with
  | nil => exact ⟨rfl, fun _ => rfl, fun _ => .inl⟩
  | cons source rest ih =>
      have named := poll_source_name e source
      have own := poll_source_coordinator e source
      have here := poll_source_known e source
      rw [poll_sources_cons]
      by_cases off : (e.pollSource source).2.2 = .cancelled
      · rw [if_pos off]
        refine ⟨by simp [named], fun _ => ?_, fun name known => ?_⟩
        · exact (own.resolve_right fun grown => by rw [off] at grown; cases grown.1).2
        · exact (here name known).imp id fun same => by simp [same]
      · rw [if_neg off]
        dsimp only
        obtain ⟨names, quiet, known⟩ := ih (e.pollSource source).1 (o.note source.name (e.pollSource source).2.2)
        refine ⟨by simp [named, names], fun unchanged => ?_, fun name found => ?_⟩
        · rw [quiet unchanged]
          refine (own.resolve_right fun grown => ?_).2
          obtain ⟨changed, -, noted, -⟩ := poll_sources_notes (e.pollSource source).1
            (o.note source.name (e.pollSource source).2.2) rest
          rw [unchanged, (note_lists o source.name _).1, grown.1] at noted
          simp at noted
        · rcases known name found with before | later
          · exact (here name before).imp id fun same => by simp [same]
          · exact .inr (List.mem_cons_of_mem _ later)

theorem version_keys_empty_iff (c : Coordinator) :
    c.versionKeys.isEmpty = true ↔ ∀ name, c.versionKey? name = none := by
  have names : c.versionKeys.isEmpty = true ↔ c.entries.names = [] := by
    simp [Coordinator.versionKeys, NameMap.isEmpty, NameMap.map, NameMap.names]
  rw [names, List.eq_nil_iff_forall_not_mem]
  exact forall_congr' fun name => (not_congr (version_key_none_iff c name)).trans Classical.not_not

theorem behind_iff (e : Engine) : e.indexIsBehind = true ↔
    (∃ name, e.coordinator.versionKey? name ≠ none) ∧ e.indexedKeys? ≠ some e.coordinator.versionKeys := by
  have stored : (∃ name, e.coordinator.versionKey? name ≠ none) ↔ e.coordinator.versionKeys.isEmpty = false := by
    rw [← Bool.not_eq_true, version_keys_empty_iff, Classical.not_forall]
  rw [stored]
  simp [indexIsBehind]

theorem round_rest (e : Engine) : e.runRound.1.changed = e.polled.2.2.changed ∧
    e.runRound.2.coordinator = e.polled.1.coordinator ∧ e.runRound.2.sources = e.polled.2.1 := by
  rcases idle_or_due e e.polled.2.2 (e.loop.firstRound && e.indexIsBehind) with idle | ⟨going, due⟩
  · rw [run_round_idle e idle]
    exact ⟨rfl, rfl, rfl⟩
  · have frame := (regenerate_frame e.regenerating).1
    rw [run_round_due e going due]
    generalize e.regenerating.regenerate = answer at frame ⊢
    obtain ⟨result, next⟩ := answer
    cases result with
    | error error => exact ⟨rfl, frame.coordinator, frame.sources⟩
    | ok index => exact ⟨rfl, frame.coordinator, frame.sources⟩

end Engine

def Engine.InLine (e : Engine) (s : Store) : Prop :=
  ∀ index, e.publisher.current = some index →
    s.readManifest e.disk.files index = .ok (some e.coordinator.versionKeys)

structure Setup.Configured (allowed : Generator → Prop) (u : Setup) : Prop where
  named : ∀ source ∈ u.sources, Config.checkName source.name = .ok ()
  first : u.loop.firstRound = true
  idle : u.loop.pendingRegeneration = false
  indexes : ∀ n, IndexName (u.indexName n)
  generators : ∀ n, allowed (u.generator n)

theorem config_configured (allowed : Generator → Prop) (c : Config) (m : Machine) (clock : Clock)
    (generator : Nat → Generator) (accepted : c.check = .ok ()) (indexes : ∀ n, IndexName (m.indexName n))
    (generators : ∀ n, allowed (generator n)) :
    { Setup.ofConfig c m clock with generator }.Configured allowed := by
  have acceptable := c.check_iff.mp accepted
  refine ⟨fun source member => ?_, rfl, rfl, indexes, generators⟩
  obtain ⟨setting, listed, rfl⟩ := List.mem_map.mp member
  exact (Config.check_name_iff _).mpr (acceptable.named setting listed)

-- In between all may change but the store and what the engine knows of it.
inductive Reopened (allowed : Generator → Prop) (s : Store) (root : Location) (u : Setup) (old : Engine) :
    List RoundOutcome → Engine → Prop where
  | started (fates : List Fate) (e : Engine) (started : (u.start ⟨old.disk.files, [], fates⟩).1 = .ok e) :
      Reopened allowed s root u old [] e
  | calledOff (history : List RoundOutcome) (e : Engine) (reopened : Reopened allowed s root u old history e)
      (off : e.runRound.1.cancelled = true)
      (absent : e.regenerating.disk.files.get?
        (indexAt root (e.regenerating.indexName e.regenerating.generations)) = none)
      (spared : s.indexDir (e.regenerating.indexName e.regenerating.generations) ∉ e.regenerating.disk.doomed) :
      Reopened allowed s root u old (e.runRound.1 :: history) e.runRound.2
  | reclaimed (history : List RoundOutcome) (e : Engine) (which : Nat)
      (reopened : Reopened allowed s root u old history e) :
      Reopened allowed s root u old history { e with disk := e.disk.reclaim which }
  | elsewhere (history : List RoundOutcome) (e next : Engine) (reopened : Reopened allowed s root u old history e)
      (sources : next.sources.map Source.name = e.sources.map Source.name)
      (coordinator : next.coordinator = e.coordinator) (publisher : next.publisher = e.publisher)
      (loop : next.loop = e.loop) (indexes : ∀ n, IndexName (next.indexName n))
      (generators : ∀ n, allowed (next.generator n)) (doomed : next.disk.doomed = e.disk.doomed)
      (files : s.Elsewhere root e.disk.files next.disk.files) : Reopened allowed s root u old history next

structure Awaiting (allowed : Generator → Prop) (s : Store) (root : Location) (u : Setup) (history : List RoundOutcome)
    (e : Engine) : Prop where
  running : ∃ a, Running allowed s root a e
  after : Engine.After history e
  names : e.sources.map Source.name = u.sources.map Source.name
  known : ∀ name, e.coordinator.versionKey? name ≠ none → name ∈ u.sources.map Source.name
  retry : e.loop.retryFailedGeneration = u.loop.retryFailedGeneration

section Awaiting

variable {allowed : Generator → Prop} (u : Setup) (configured : u.Configured allowed)
include configured

theorem configured_accepted (name : String) (member : name ∈ u.sources.map Source.name) :
    Config.checkName name = .ok () := by
  obtain ⟨source, listed, rfl⟩ := List.mem_map.mp member
  exact configured.named source listed

variable (s : Store) (root : Location)

theorem awaiting_named (history : List RoundOutcome) (e : Engine) (awaiting : Awaiting allowed s root u history e) :
    ∀ source ∈ e.sources, Config.checkName source.name = .ok () := by
  intro source member
  exact configured_accepted u configured _ (awaiting.names ▸ List.mem_map_of_mem member)

variable (confined : ∀ g, allowed g → g.Confined)
include confined

theorem started_awaiting (store : u.store = s) (a : Annals) (old : Engine) (running : Running allowed s root a old)
    (fates : List Fate) (e : Engine) (started : (u.start ⟨old.disk.files, [], fates⟩).1 = .ok e) :
    Awaiting allowed s root u [] e := by
  subst store
  have sound := running_sound u.store root confined a old running
  obtain ⟨sources, loop, -⟩ := u.start_keeps _ e started
  obtain ⟨disk, made, -, loaded, -⟩ := u.started _ e rfl started
  have files : disk.files = old.disk.files := made ▸ init_in_place u.store root _ sound.place rfl
  rw [files] at loaded
  have mirrored := (u.store.load_in_place_iff root _ sound.place _
    (fun name member => plain_of_check_name name (configured_accepted u configured name member)) _).mp loaded
  constructor
  · exact ⟨a.restored, .reopened a u old e fates running rfl configured.indexes configured.generators started⟩
  · exact .start e (loop ▸ configured.idle) (loop ▸ configured.first)
  · rw [sources]
  · intro name known
    refine Classical.byContradiction fun other => known ?_
    simp [Coordinator.versionKey?, mirrored.others name other]
  · rw [loop]

theorem called_off_awaiting (history : List RoundOutcome) (e : Engine) (awaiting : Awaiting allowed s root u history e)
    (absent : e.regenerating.disk.files.get?
      (indexAt root (e.regenerating.indexName e.regenerating.generations)) = none)
    (spared : s.indexDir (e.regenerating.indexName e.regenerating.generations) ∉ e.regenerating.disk.doomed) :
    Awaiting allowed s root u (e.runRound.1 :: history) e.runRound.2 := by
  obtain ⟨a, running⟩ := awaiting.running
  have named := awaiting_named u configured s root history e awaiting
  obtain ⟨-, coordinator, sources⟩ := e.round_rest
  obtain ⟨names, -, known⟩ := e.begun.poll_sources_known {} e.sources
  constructor
  · exact ⟨_, running_round s root confined a e running named absent spared⟩
  · exact .round history e awaiting.after
  · rw [sources]
    exact names.trans awaiting.names
  · intro name found
    rw [coordinator] at found
    exact (known name found).elim (awaiting.known name) fun member => awaiting.names ▸ member
  · exact (e.round_loop.2).trans awaiting.retry

theorem reopened_awaiting (store : u.store = s) (a : Annals) (old : Engine) (running : Running allowed s root a old)
    (history : List RoundOutcome) (e : Engine) (reopened : Reopened allowed s root u old history e) :
    Awaiting allowed s root u history e := by
  induction reopened with
  | started fates e started => exact started_awaiting u configured s root confined store a old running fates e started
  | calledOff history e reopened off absent spared ih =>
      exact called_off_awaiting u configured s root confined history e ih absent spared
  | reclaimed history e which reopened ih =>
      obtain ⟨a, running⟩ := ih.running
      exact { ih with running := ⟨a, .reclaimed a e which running⟩, after := .between history e _ ih.after rfl }
  | elsewhere history e next reopened sources coordinator publisher loop indexes generators doomed files ih =>
      obtain ⟨a, running⟩ := ih.running
      constructor
      · exact ⟨a, .elsewhere a e next running coordinator publisher indexes generators doomed files⟩
      · exact .between history e next ih.after loop
      · exact sources.trans ih.names
      · exact coordinator ▸ ih.known
      · exact loop ▸ ih.retry

end Awaiting

section Round

variable {allowed : Generator → Prop} (confined : ∀ g, allowed g → g.Confined) (s : Store) (root : Location)
  (a : Annals) (e : Engine) (running : Running allowed s root a e)
  (named : ∀ source ∈ e.sources, Config.checkName source.name = .ok ())
include confined running named

theorem published_in_line (index : String) (published : e.runRound.1.published = some index)
    (absent : e.regenerating.disk.files.get?
      (indexAt root (e.regenerating.indexName e.regenerating.generations)) = none)
    (spared : s.indexDir (e.regenerating.indexName e.regenerating.generations) ∉ e.regenerating.disk.doomed) :
    e.runRound.2.InLine s := by
  have sound := running_sound s root confined _ _ (running_regenerating s root confined a e running named)
  obtain ⟨-, next, regenerated, after⟩ := published_regenerated e index published
  have done := fresh_regenerated s root _ _ sound absent spared
  have frame := (Engine.regenerate_frame e.regenerating).1
  rw [regenerated] at done frame
  obtain ⟨rfl, d, -, held, -, swapped⟩ := done.published index rfl
  have coordinator : next.coordinator = e.regenerating.coordinator := frame.coordinator
  have publisher : next.publisher = (e.regenerating.publisher.swap d _).1 := congrArg Prod.fst swapped
  have disk : next.disk = (e.regenerating.publisher.swap d _).2 := congrArg Prod.snd swapped
  intro other current
  rw [after] at current ⊢
  rw [publisher, swap_current] at current
  obtain rfl := Option.some.inj current
  rw [disk, swap_files, coordinator]
  exact held.manifest

theorem idle_in_line_iff (idle : e.runRound = (e.polled.2.2, e.regenerating)) (unchanged : e.runRound.1.changed = []) :
    e.runRound.2.InLine s ↔ e.InLine s := by
  have sound := running_sound s root confined a e running
  have serves := running_serves s root confined a e running
  have polls := regenerating_steps s root a e sound serves named
  obtain ⟨-, manifest⟩ := published_reads_same s root a e sound serves _ _ polls.files
    (index_not_sourced root ["current"]) fun index _ => index_at_not_sourced root index
  have publisher := e.regenerating_frame.1
  obtain ⟨-, quiet, -⟩ := e.begun.poll_sources_known {} e.sources
  have coordinator : e.regenerating.coordinator = e.coordinator := quiet (e.round_rest.1 ▸ unchanged)
  rw [idle]
  simp only [Engine.InLine, publisher, coordinator]
  exact forall_congr' fun index => forall_congr' fun current => by rw [manifest index current]

omit confined running named in
theorem working_round_cases (through : e.runRound.1.cancelled = false)
    (works : ∃ index, e.regenerating.regenerate.1 = .ok index) :
    (e.isDue e.polled.2.2 (e.loop.firstRound && e.indexIsBehind) = true ∧
      ∃ index, e.runRound.1.published = some index) ∨
    (e.isDue e.polled.2.2 (e.loop.firstRound && e.indexIsBehind) = false ∧
      e.runRound = (e.polled.2.2, e.regenerating)) := by
  cases due : e.isDue e.polled.2.2 (e.loop.firstRound && e.indexIsBehind) with
  | false => exact .inr ⟨rfl, e.run_round_idle (.inr due)⟩
  | true =>
      obtain ⟨index, works⟩ := works
      refine .inl ⟨rfl, index, ?_⟩
      rw [e.run_round_due (e.run_round_rest through).1 due]
      generalize e.regenerating.regenerate = answer at works ⊢
      obtain ⟨result, next⟩ := answer
      obtain rfl : result = .ok index := works
      rfl

omit confined running named in
theorem indexed_in_line (store : e.coordinator.store = s)
    (indexed : e.indexedKeys? = some e.coordinator.versionKeys) : e.InLine s := by
  intro index current
  rw [Engine.indexedKeys?, current, store] at indexed
  simp only [Option.bind_some] at indexed
  split at indexed
  · next keys read => rw [read, indexed]
  · cases indexed

theorem round_in_line_iff (through : e.runRound.1.cancelled = false)
    (works : ∃ index, e.regenerating.regenerate.1 = .ok index)
    (absent : e.regenerating.disk.files.get?
      (indexAt root (e.regenerating.indexName e.regenerating.generations)) = none)
    (spared : s.indexDir (e.regenerating.indexName e.regenerating.generations) ∉ e.regenerating.disk.doomed) :
    e.runRound.2.InLine s ↔ e.runRound.1.changed ≠ [] ∨
      (e.loop.retryFailedGeneration = true ∧ e.loop.pendingRegeneration = true) ∨
      (e.loop.firstRound = true ∧ ∃ name, e.coordinator.versionKey? name ≠ none) ∨ e.InLine s := by
  have changed := e.round_rest.1
  rcases working_round_cases e through works with ⟨due, index, published⟩ | ⟨notDue, idle⟩
  · rw [Engine.is_due_iff, Bool.and_eq_true, Engine.behind_iff, ← changed] at due
    refine iff_of_true (published_in_line confined s root a e running named index published absent spared) ?_
    rcases due with change | owed | ⟨first, stored, -⟩
    · exact .inl change
    · exact .inr (.inl owed)
    · exact .inr (.inr (.inl ⟨first, stored⟩))
  · rw [← Bool.not_eq_true, Engine.is_due_iff, Bool.and_eq_true, Engine.behind_iff, ← changed] at notDue
    obtain ⟨unchanged, notDue⟩ := not_or.mp notDue
    obtain ⟨settled, abreast⟩ := not_or.mp notDue
    have unchanged := Classical.not_not.mp unchanged
    rw [idle_in_line_iff confined s root a e running named idle unchanged]
    constructor
    · exact fun before => .inr (.inr (.inr before))
    · rintro (change | owed | ⟨first, stored⟩ | before)
      · exact absurd unchanged change
      · exact absurd owed settled
      · have indexed : e.indexedKeys? = some e.coordinator.versionKeys :=
          Classical.byContradiction fun behind => abreast ⟨first, stored, behind⟩
        exact indexed_in_line s e (running_sound s root confined a e running).store indexed
      · exact before

end Round

theorem reconfigured_index_in_line_iff {allowed : Generator → Prop} (confined : ∀ g, allowed g → g.Confined)
    (s : Store) (root : Location) (a : Annals) (old : Engine) (running : Running allowed s root a old) (u : Setup)
    (store : u.store = s) (configured : u.Configured allowed) (history : List RoundOutcome) (e : Engine)
    (reopened : Reopened allowed s root u old history e)
    (through : e.runRound.1.cancelled = false) (works : ∃ index, e.regenerating.regenerate.1 = .ok index)
    (absent : e.regenerating.disk.files.get?
      (indexAt root (e.regenerating.indexName e.regenerating.generations)) = none)
    (spared : s.indexDir (e.regenerating.indexName e.regenerating.generations) ∉ e.regenerating.disk.doomed) :
    (e.runRound.2.InLine s ↔ e.runRound.1.changed ≠ [] ∨
      (u.loop.retryFailedGeneration = true ∧ Engine.Owed history) ∨
      (history = [] ∧ ∃ name, e.coordinator.versionKey? name ≠ none) ∨ e.InLine s) ∧
    ∀ name, e.runRound.2.coordinator.versionKey? name ≠ none → name ∈ u.sources.map Source.name := by
  have awaiting := reopened_awaiting u configured s root confined store a old running history e reopened
  obtain ⟨a, running⟩ := awaiting.running
  have named := awaiting_named u configured s root history e awaiting
  have after := called_off_awaiting u configured s root confined history e awaiting absent spared
  refine ⟨?_, after.known⟩
  rw [round_in_line_iff confined s root a e running named through works absent spared, awaiting.retry,
    Engine.after_pending history e awaiting.after, Engine.after_first history e awaiting.after]

namespace DroppedSource

open TwoIndexes (store)
open HalfMade (files)

def setup (names : List String) (digit : Char) : Setup :=
  { Setup.ofConfig (CutBetween.config names) (CutBetween.machine digit) (Clock.start none) with
    generator := fun _ => CutBetween.maker }

theorem configured (names : List String) (digit : Char) (accepted : (CutBetween.config names).check = .ok ())
    (listed : digit ∈ "0123456789abcdef-".toList) : (setup names digit).Configured Generator.Confined :=
  config_configured Generator.Confined _ (CutBetween.machine digit) _ _ accepted
    (fun n => hex_index_name _ (hex_repeated digit listed n)) fun _ => CutBetween.maker_confined

def opened (u : Setup) (t : FileTree) : Option Engine := (u.start ⟨t, [], []⟩).1.toOption

def first : Engine := (opened (setup ["a"] 'a') files).get (by decide +kernel)

def old : Engine := first.runRound.2

def bare : Engine := (opened (setup [] 'b') old.disk.files).get (by decide +kernel)

def renamed : Engine := (opened (setup ["b"] 'b') old.disk.files).get (by decide +kernel)

theorem source_names : first.sources.map Source.name = ["a"] := by decide +kernel

-- The name of the next index is not taken, and nothing of it is given up.
def NameFree (e : Engine) : Prop :=
  e.regenerating.disk.files.get? (indexAt ["data"] (e.regenerating.indexName e.regenerating.generations)) = none ∧
    store.indexDir (e.regenerating.indexName e.regenerating.generations) ∉ e.regenerating.disk.doomed

instance (e : Engine) : Decidable (NameFree e) := inferInstanceAs (Decidable (_ ∧ _))

theorem first_name_free : NameFree first := by decide +kernel

theorem bare_keeps_index : bare.runRound.1 = {} ∧ bare.regenerating.regenerate.1 = .ok "b" ∧
    bare.runRound.2.publisher.current = some "a" ∧
    (store.readManifest bare.runRound.2.disk.files "a").toOption.map (Option.map NameMap.names) =
      some (some ["a"]) ∧ bare.runRound.2.coordinator.versionKeys.names = [] := by decide +kernel

theorem renamed_publishes :
    NameFree renamed ∧ renamed.runRound.1 = { changed := ["b"], published := some "b" } := by decide +kernel

def history : Annals := HalfMade.annals.restored.round first

theorem running : Running Generator.Confined store ["data"] history old := by
  obtain ⟨absent, spared⟩ := first_name_free
  have set := configured ["a"] 'a' (by decide +kernel) (by decide)
  have started : ((setup ["a"] 'a').start ⟨files, [], []⟩).1 = .ok first := Setup.start_get _ _ _
  have opened : first.disk.files = files := Setup.start_files _ ["data"] _ first HalfMade.place rfl started
  have start : Running Generator.Confined store ["data"] HalfMade.annals.restored first :=
    .opened HalfMade.annals _ ⟨files, [], []⟩ first rfl set.indexes set.generators rfl started
      (opened ▸ HalfMade.place) (opened ▸ ⟨.inl (by decide), by decide⟩) nofun
  exact running_round store ["data"] (fun _ => id) _ first start (HalfMade.named first source_names) absent spared

theorem bare_reopened : Reopened Generator.Confined store ["data"] (setup [] 'b') old [] bare :=
  .started [] bare (Setup.start_get _ _ _)

theorem renamed_reopened : Reopened Generator.Confined store ["data"] (setup ["b"] 'b') old [] renamed :=
  .started [] renamed (Setup.start_get _ _ _)

end DroppedSource

open DroppedSource in
theorem renamed_source_is_indexed_anew :
    Running Generator.Confined TwoIndexes.store ["data"] history old ∧
      Reopened Generator.Confined TwoIndexes.store ["data"] (setup ["b"] 'b') old [] renamed ∧
      renamed.runRound.1 = { changed := ["b"], published := some "b" } ∧ renamed.runRound.2.InLine TwoIndexes.store ∧
      ∀ name, renamed.runRound.2.coordinator.versionKey? name ≠ none → name = "b" := by
  obtain ⟨⟨absent, spared⟩, outcome⟩ := renamed_publishes
  obtain ⟨-, next, regenerated, -⟩ := published_regenerated renamed "b" (by rw [outcome])
  obtain ⟨line, known⟩ := reconfigured_index_in_line_iff (fun _ => id) TwoIndexes.store ["data"] history old running
    (setup ["b"] 'b') rfl (configured ["b"] 'b' (by decide +kernel) (by decide)) [] renamed renamed_reopened
    (by rw [outcome]) ⟨"b", by rw [regenerated]⟩ absent spared
  refine ⟨running, renamed_reopened, outcome, line.mpr (.inl ?_), fun name found => ?_⟩
  · rw [outcome]
    nofun
  · exact List.mem_singleton.mp (known name found)

open DroppedSource in
theorem dropped_source_stays_indexed :
    (Running Generator.Confined TwoIndexes.store ["data"] history old ∧ (setup [] 'b').Configured Generator.Confined ∧
      Reopened Generator.Confined TwoIndexes.store ["data"] (setup [] 'b') old [] bare ∧
      bare.regenerating.regenerate.1 = .ok "b") ∧
    bare.runRound.1 = {} ∧ bare.runRound.2.publisher.current = some "a" ∧
      (∃ keys, TwoIndexes.store.readManifest bare.runRound.2.disk.files "a" = .ok (some keys) ∧
        keys.names = ["a"]) ∧ ¬ bare.runRound.2.InLine TwoIndexes.store := by
  obtain ⟨outcome, works, current, listed, none⟩ := bare_keeps_index
  obtain ⟨keys, read, names⟩ : ∃ keys,
      TwoIndexes.store.readManifest bare.runRound.2.disk.files "a" = .ok (some keys) ∧ keys.names = ["a"] := by
    generalize TwoIndexes.store.readManifest bare.runRound.2.disk.files "a" = answer at listed
    match answer, listed with
    | .ok (some keys), listed => exact ⟨keys, rfl, Option.some.inj (Option.some.inj listed)⟩
  refine ⟨⟨running, configured [] 'b' (by decide +kernel) (by decide), bare_reopened, works⟩, outcome, current, ⟨keys, read, names⟩,
    fun line => ?_⟩
  obtain rfl := Option.some.inj (Except.ok.inj (read.symm.trans (line "a" current)))
  rw [names] at none
  cases none

end IndexKeeper
