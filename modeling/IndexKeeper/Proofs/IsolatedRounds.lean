import IndexKeeper.Proofs.SourceIsolation

set_option autoImplicit false

namespace IndexKeeper

open Store (Unkept Indexed indexAt sourceAt)

namespace Engine

theorem poll_sources_cons (e : Engine) (o : RoundOutcome) (source : Source) (rest : List Source) :
    e.pollSources o (source :: rest) =
      if (e.pollSource source).2.2 = .cancelled then
        ((e.pollSource source).1, (e.pollSource source).2.1 :: rest, o.note source.name .cancelled)
      else
        let done := (e.pollSource source).1.pollSources (o.note source.name (e.pollSource source).2.2) rest
        (done.1, (e.pollSource source).2.1 :: done.2.1, done.2.2) := by
  have name := poll_source_name e source
  rw [pollSources, ← name]
  generalize e.pollSource source = answer
  obtain ⟨next, polled, verdict⟩ := answer
  cases verdict <;> rfl

theorem poll_sources_through (e : Engine) (o : RoundOutcome) (source : Source) (rest : List Source)
    (through : (e.pollSources o (source :: rest)).2.2.cancelled = false) :
    (e.pollSource source).2.2 ≠ .cancelled ∧
      e.pollSources o (source :: rest) =
        let done := (e.pollSource source).1.pollSources (o.note source.name (e.pollSource source).2.2) rest
        (done.1, (e.pollSource source).2.1 :: done.2.1, done.2.2) := by
  rw [poll_sources_cons] at through ⊢
  by_cases off : (e.pollSource source).2.2 = .cancelled
  · rw [if_pos off] at through
    cases through
  · rw [if_neg off]
    exact ⟨off, rfl⟩

theorem poll_sources_append (e : Engine) (o : RoundOutcome) (first rest : List Source)
    (through : (e.pollSources o (first ++ rest)).2.2.cancelled = false) :
    e.pollSources o (first ++ rest) =
      let done := e.pollSources o first
      let more := done.1.pollSources done.2.2 rest
      (more.1, done.2.1 ++ more.2.1, more.2.2) := by
  induction first generalizing e o with
  | nil => rfl
  | cons source others ih =>
      rw [List.cons_append] at through ⊢
      obtain ⟨going, split⟩ := poll_sources_through e o source (others ++ rest) through
      rw [split] at through ⊢
      rw [poll_sources_cons e o source others, if_neg going, ih _ _ through]
      rfl

theorem poll_sources_split (e : Engine) (o : RoundOutcome) (before : List Source) (source : Source)
    (after : List Source) (through : (e.pollSources o (before ++ source :: after)).2.2.cancelled = false) :
    let turn := e.pollSources o before
    let done := turn.1.pollSource source
    let rest := done.1.pollSources (turn.2.2.note source.name done.2.2) after
    done.2.2 ≠ .cancelled ∧
      e.pollSources o (before ++ source :: after) = (rest.1, turn.2.1 ++ done.2.1 :: rest.2.1, rest.2.2) := by
  have appended := poll_sources_append e o before (source :: after) through
  rw [appended] at through ⊢
  obtain ⟨going, split⟩ := poll_sources_through _ _ source after through
  exact ⟨going, by dsimp only; rw [split]⟩

theorem poll_sources_length (e : Engine) (o : RoundOutcome) (sources : List Source) :
    (e.pollSources o sources).2.1.length = sources.length := by
  induction sources generalizing e o with
  | nil => rfl
  | cons source rest ih =>
      rw [pollSources]
      generalize e.pollSource source = answer
      obtain ⟨next, polled, verdict⟩ := answer
      cases verdict with
      | cancelled => rfl
      | changed => exact congrArg (· + 1) (ih next _)
      | unchanged => exact congrArg (· + 1) (ih next _)
      | failed => exact congrArg (· + 1) (ih next _)

theorem poll_sources_notes (e : Engine) (o : RoundOutcome) (sources : List Source) : ∃ changed failed,
    (e.pollSources o sources).2.2.changed = o.changed ++ changed ∧
      (e.pollSources o sources).2.2.failed = o.failed ++ failed ∧
      changed.Sublist (sources.map Source.name) ∧ failed.Sublist (sources.map Source.name) := by
  induction sources generalizing e o with
  | nil => exact ⟨[], [], (List.append_nil _).symm, (List.append_nil _).symm, .slnil, .slnil⟩
  | cons source rest ih =>
      have name := poll_source_name e source
      rw [pollSources]
      generalize e.pollSource source = answer at name ⊢
      obtain ⟨next, polled, verdict⟩ := answer
      have name : polled.name = source.name := name
      obtain ⟨changed, failed, noted, missed, inOrder, alsoInOrder⟩ := ih next (o.note polled.name verdict)
      rw [List.map_cons, ← name]
      cases verdict with
      | cancelled => exact ⟨[], [], (List.append_nil _).symm, (List.append_nil _).symm, List.nil_sublist _,
          List.nil_sublist _⟩
      | changed =>
          refine ⟨polled.name :: changed, failed, ?_, missed, inOrder.cons_cons _, alsoInOrder.cons _⟩
          exact noted.trans (List.append_assoc _ [polled.name] _)
      | unchanged => exact ⟨changed, failed, noted, missed, inOrder.cons _, alsoInOrder.cons _⟩
      | failed =>
          refine ⟨changed, polled.name :: failed, noted, ?_, inOrder.cons _, alsoInOrder.cons_cons _⟩
          exact missed.trans (List.append_assoc _ [polled.name] _)

theorem note_lists (o : RoundOutcome) (name : String) (verdict : Verdict) :
    (o.note name verdict).changed = o.changed ++ (if verdict = .changed then [name] else []) ∧
      (o.note name verdict).failed = o.failed ++ (if verdict = .failed then [name] else []) := by
  cases verdict <;> simp [RoundOutcome.note]

theorem mem_middle_iff (name : String) (first last : List String) (told : Prop) [Decidable told]
    (before : name ∉ first) (after : name ∉ last) :
    name ∈ first ++ (if told then [name] else []) ++ last ↔ told := by
  by_cases told <;> simp [*]

theorem noted_iff (e : Engine) (before : List Source) (source : Source) (after : List Source)
    (apart : ∀ other, other ∈ before ∨ other ∈ after → other.name ≠ source.name)
    (through : (e.pollSources {} (before ++ source :: after)).2.2.cancelled = false) :
    let done := (e.pollSources {} before).1.pollSource source
    (e.pollSources {} (before ++ source :: after)).2.1[before.length]? = some done.2.1 ∧
      (source.name ∈ (e.pollSources {} (before ++ source :: after)).2.2.changed ↔ done.2.2 = .changed) ∧
      (source.name ∈ (e.pollSources {} (before ++ source :: after)).2.2.failed ↔ done.2.2 = .failed) := by
  have absent (part : List Source) (inside : ∀ other ∈ part, other ∈ before ∨ other ∈ after)
      (names : List String) (order : names.Sublist (part.map Source.name)) : source.name ∉ names := by
    intro member
    obtain ⟨other, listed, same⟩ := List.mem_map.mp (order.subset member)
    exact apart other (inside other listed) same
  have early := absent before fun _ => .inl
  have late := absent after fun _ => .inr
  have length := poll_sources_length e {} before
  obtain ⟨changed, failed, noted, missed, order, alsoOrder⟩ := poll_sources_notes e {} before
  rw [(poll_sources_split e {} before source after through).2]
  generalize e.pollSources {} before = turn at length noted missed ⊢
  obtain ⟨later, laterFailed, notedLater, missedLater, orderLater, alsoOrderLater⟩ := poll_sources_notes
    (turn.1.pollSource source).1 (turn.2.2.note source.name (turn.1.pollSource source).2.2) after
  obtain ⟨note, alsoNote⟩ := note_lists turn.2.2 source.name (turn.1.pollSource source).2.2
  refine ⟨?_, ?_, ?_⟩
  · rw [List.getElem?_append_right (Nat.le_of_eq length), length, Nat.sub_self]
    rfl
  · rw [notedLater, note, noted]
    exact mem_middle_iff source.name _ _ _ (early _ order) (late _ orderLater)
  · rw [missedLater, alsoNote, missed]
    exact mem_middle_iff source.name _ _ _ (early _ alsoOrder) (late _ alsoOrderLater)

def begun (e : Engine) : Engine := { e with loop := { e.loop with firstRound := false } }

theorem polled_split (e : Engine) (before : List Source) (source : Source) (after : List Source)
    (split : e.sources = before ++ source :: after) :
    e.polled = e.begun.pollSources {} (before ++ source :: after) := by
  rw [← split]
  rfl

def fatesAfter (e : Engine) (before : List Source) : List Fate := (e.begun.pollSources {} before).1.disk.fates

def alone (e : Engine) (fates : List Fate) (source : Source) : Engine × Source × Verdict :=
  pollSource { e with sources := [source], disk := { e.disk with fates } } source

theorem run_round_rest (e : Engine) (through : e.runRound.1.cancelled = false) :
    e.polled.2.2.cancelled = false ∧ e.runRound.1.changed = e.polled.2.2.changed ∧
      e.runRound.1.failed = e.polled.2.2.failed ∧ e.runRound.2.coordinator = e.polled.1.coordinator ∧
      e.runRound.2.sources = e.polled.2.1 ∧
      (e.runRound.2.disk = e.polled.1.disk ∨ e.runRound.2.disk = e.regenerating.regenerate.2.disk) := by
  rcases idle_or_due e e.polled.2.2 (e.loop.firstRound && e.indexIsBehind) with idle | ⟨going, due⟩
  · rw [run_round_idle e idle] at through ⊢
    exact ⟨through, rfl, rfl, rfl, rfl, .inl rfl⟩
  · have frame := (regenerate_frame e.regenerating).1
    rw [run_round_due e going due]
    generalize e.regenerating.regenerate = answer at frame ⊢
    obtain ⟨result, next⟩ := answer
    cases result with
    | error error => exact ⟨going, rfl, rfl, frame.coordinator, frame.sources, .inr rfl⟩
    | ok index => exact ⟨going, rfl, rfl, frame.coordinator, frame.sources, .inr rfl⟩

end Engine

structure AsAlone (s : Store) (root : Location) (e : Engine) (place : Nat) (name : String)
    (alone : Engine × Source × Verdict) : Prop where
  entry : e.runRound.2.coordinator.entries.get? name = alone.1.coordinator.entries.get? name
  source : e.runRound.2.sources[place]? = some alone.2.1
  changed : name ∈ e.runRound.1.changed ↔ alone.2.2 = .changed
  failed : name ∈ e.runRound.1.failed ↔ alone.2.2 = .failed
  polled : ∀ tail, e.polled.1.disk.files.get? (sourceAt root name ++ tail) =
    alone.1.disk.files.get? (sourceAt root name ++ tail)
  files : NewIndex s root e.regenerating → ∀ tail, e.runRound.2.disk.files.get? (sourceAt root name ++ tail) =
    alone.1.disk.files.get? (sourceAt root name ++ tail)

def Engine.Others (e : Engine) (name other : String) : Prop := other ∈ e.sources.map Source.name ∧ other ≠ name

-- The file of no source is reached through the directory of another or of an index.
structure Separate (root : Location) (e : Engine) : Prop where
  named : ∀ source ∈ e.sources, Config.checkName source.name = .ok ()
  distinct : (e.sources.map Source.name).Nodup
  avoids : ∀ source ∈ e.sources, source.Avoids e.disk.files (Foreign root (e.Others source.name))

theorem separate_others (root : Location) (e : Engine) (separate : Separate root e) (before : List Source)
    (source : Source) (after : List Source) (split : e.sources = before ++ source :: after) (other : Source)
    (member : other ∈ before ∨ other ∈ after) : Path.Plain other.name ∧ e.Others source.name other.name := by
  have listed : other ∈ e.sources := by
    rw [split, List.mem_append, List.mem_cons]
    exact member.imp id .inr
  have distinct := separate.distinct
  rw [split, List.map_append, List.map_cons] at distinct
  obtain ⟨-, tail, apart⟩ := List.nodup_append.mp distinct
  refine ⟨plain_of_check_name _ (separate.named other listed), List.mem_map_of_mem listed, ?_⟩
  rcases member with earlier | later
  · exact apart _ (List.mem_map_of_mem earlier) _ List.mem_cons_self
  · exact fun same => (List.nodup_cons.mp tail).1 (same ▸ List.mem_map_of_mem later)

section Split

variable (s : Store) (root : Location) (e : Engine) (store : e.coordinator.store = s)
  (place : s.InPlace root e.disk.files) (doomed : s.Doomed markers e.disk) (separate : Separate root e)
  (before : List Source) (source : Source) (after : List Source) (split : e.sources = before ++ source :: after)
include store place doomed separate split

theorem source_turn (through : e.polled.2.2.cancelled = false) :
    let turn := (e.begun.pollSources {} before).1
    let alone := e.alone (e.fatesAfter before) source
    (turn.pollSource source).2 = alone.2 ∧
      e.polled.1.coordinator.entries.get? source.name = alone.1.coordinator.entries.get? source.name ∧
      (∀ tail, e.polled.1.disk.files.get? (sourceAt root source.name ++ tail) =
        alone.1.disk.files.get? (sourceAt root source.name ++ tail)) ∧
      e.polled.1.coordinator.store = s ∧ s.InPlace root e.polled.1.disk.files ∧ s.Doomed markers e.polled.1.disk := by
  have others := separate_others root e separate before source after split
  have listed : source ∈ e.sources := split ▸ List.mem_append_right _ List.mem_cons_self
  have plain := plain_of_check_name _ (separate.named source listed)
  have apart : ¬ e.Others source.name source.name := fun both => both.2 rfl
  have own := own_not_foreign root _ _ apart
  have polled := e.polled_split before source after split
  rw [polled] at through ⊢
  obtain ⟨going, whole⟩ := Engine.poll_sources_split e.begun {} before source after through
  have earlier := polls_beside s root (e.Others source.name) source.name before e.begun {} store place doomed
    fun other member => have both := others other (.inl member); ⟨both.1, both.2, both.2.2⟩
  have alikeBefore := beside_alike s root (e.Others source.name) source.name e.begun _ store place doomed earlier
  obtain ⟨same, alike⟩ := poll_alike s root _ source plain own (fun l swept => .inr swept)
    { e with sources := [source], disk := { e.disk with fates := e.fatesAfter before } } _ alikeBefore
    (separate.avoids source listed) (by rw [earlier.loop]; rfl) (by rw [earlier.interrupts]; rfl) earlier.clock going
  have later (o : RoundOutcome) := polls_beside s root (e.Others source.name) source.name after _ o alike.otherStore
    alike.disks.files.otherPlace alike.disks.otherDoomed
    fun other member => have both := others other (.inr member); ⟨both.1, both.2, both.2.2⟩
  rw [whole]
  refine ⟨same, (later _).entry.trans alike.entry, fun tail => ?_, (later _).store, (later _).place, (later _).doomed⟩
  rw [(later _).moves.get _ (own_not_unkept root markers _ tail) (own_not_others root _ _ apart tail)]
  exact alike.disks.files.same _ (own tail)

theorem source_as_alone (through : e.runRound.1.cancelled = false) :
    AsAlone s root e before.length source.name (e.alone (e.fatesAfter before) source) := by
  obtain ⟨going, changed, failed, coordinator, sources, disk⟩ := Engine.run_round_rest e through
  obtain ⟨same, entry, files, polledStore, polledPlace, polledDoomed⟩ :=
    source_turn s root e store place doomed separate before source after split going
  have polled := e.polled_split before source after split
  obtain ⟨there, noted, missed⟩ := Engine.noted_iff e.begun before source after
    (fun other member => (separate_others root e separate before source after split other member).2.2)
    (polled ▸ going)
  rw [← polled, same] at there noted missed
  constructor
  case entry => rw [coordinator]; exact entry
  case source => rw [sources]; exact there
  case changed => rw [changed]; exact noted
  case failed => rw [failed]; exact missed
  case polled => exact files
  case files =>
    intro new tail
    rw [← files tail]
    rcases disk with idle | regenerated
    · rw [idle]
    · have done := new_index_regenerated e.regenerating s root polledStore polledPlace polledDoomed new
      rw [regenerated]
      exact regenerated_elsewhere_same e.regenerating s root _ _ _ done _
        (Store.source_at_not_indexed root source.name tail)

end Split

theorem sources_polled_as_alone (s : Store) (root : Location) (e : Engine) (store : e.coordinator.store = s)
    (place : s.InPlace root e.disk.files) (doomed : s.Doomed markers e.disk) (separate : Separate root e)
    (through : e.runRound.1.cancelled = false) :
    (∀ before source after, e.sources = before ++ source :: after →
      AsAlone s root e before.length source.name (e.alone (e.fatesAfter before) source)) ∧
    e.runRound.1.changed.Sublist (e.sources.map Source.name) ∧
    e.runRound.1.failed.Sublist (e.sources.map Source.name) ∧
    ∀ name ∈ e.runRound.1.changed, name ∉ e.runRound.1.failed := by
  have each := source_as_alone s root e store place doomed separate
  obtain ⟨-, changed, failed, -⟩ := Engine.run_round_rest e through
  obtain ⟨changedNames, failedNames, noted, missed, order, alsoOrder⟩ := Engine.poll_sources_notes e.begun {} e.sources
  have noted : e.runRound.1.changed = changedNames := changed.trans noted
  have missed : e.runRound.1.failed = failedNames := failed.trans missed
  refine ⟨fun before source after split => each before source after split through, noted ▸ order,
    missed ▸ alsoOrder, fun name change failure => ?_⟩
  obtain ⟨source, listed, rfl⟩ := List.mem_map.mp (order.subset (noted ▸ change))
  obtain ⟨before, after, split⟩ := List.append_of_mem listed
  have alone := each before source after split through
  have verdict := (alone.changed.mp change).symm.trans (alone.failed.mp failure)
  cases verdict

namespace BehindSource

def files : FileTree :=
  ⟨[(["a.log"], .file (Bytes.ofText "A")), (["b.log"], .file (Bytes.ofText "B")), (["data"], .directory),
    (["data", "source"], .directory), (["data", "index"], .directory)], []⟩

def first : Source := ⟨"a", .filesystem "a.log"⟩

def second (path : String) : Source := ⟨"b", .filesystem path⟩

def engine (path : String) (g : Generator) : Engine where
  sources := [first, second path]
  coordinator := ⟨⟨"data"⟩, .empty⟩
  publisher := ⟨⟨"data"⟩, none⟩
  loop := { intervalSecs := 60, sourceTimeoutSecs := 300, retryFailedGeneration := true }
  disk := ⟨files, [], []⟩
  clock := Clock.start none
  indexName _ := "i"
  generator _ := g
  generations := 0
  events := []

def refusing : Generator := fun _ _ t => (.fails (.reported "refused"), t)

def careless : Generator := fun _ _ t =>
  (.fails (.reported "refused"), t.set (sourceAt ["data"] "a" ++ ["build.complog"]) (.file []))

def behind : String := "data/source/a/../../../b.log"

theorem place : (⟨"data"⟩ : Store).InPlace ["data"] files where
  formed := FileTree.well_formed_of_entries _ (by decide) (by decide)
  reaches := Store.reaches_entered files "data" ["data"] (by decide) (by decide) (by decide)
  source := by decide
  index := by decide

theorem short_not_foreign (others : String → Prop) (name : String) : ¬ Foreign ["data"] others [name] := by
  rintro (⟨other, -, below⟩ | ⟨index, -, below⟩)
  · exact absurd below.length_le (by simp [sourceAt])
  · exact absurd below.length_le (by simp [indexAt, Store.indexesAt])

theorem short_path_avoids (others : String → Prop) (name path : String) (segments : Path.segments path = [path]) :
    Source.Avoids ⟨name, .filesystem path⟩ files (Foreign ["data"] others) := by
  intro other file
  obtain rfl := SourceKind.filesystem.inj file
  have start : files.startOf path = [] := by
    unfold FileTree.startOf
    split <;> rfl
  rw [segments, start]
  exact ⟨fun _ _ => short_not_foreign others path, fun _ _ => trivial⟩

theorem separate (g : Generator) : Separate ["data"] (engine "b.log" g) where
  named := List.forall_mem_cons.mpr ⟨by decide +kernel, List.forall_mem_singleton.mpr (by decide +kernel)⟩
  distinct := show ["a", "b"].Nodup by decide
  avoids := List.forall_mem_cons.mpr ⟨short_path_avoids _ "a" "a.log" (by decide),
    List.forall_mem_singleton.mpr (short_path_avoids _ "b" "b.log" (by decide))⟩

theorem both_changed : (engine "b.log" refusing).runRound.1.cancelled = false ∧
    (engine "b.log" refusing).runRound.1.changed = ["a", "b"] ∧
    (engine "b.log" refusing).fatesAfter [first] = [] := by decide +kernel

theorem name_free : (engine "b.log" refusing).regenerating.disk.files.get? (indexAt ["data"] "i") = none ∧
    (engine "b.log" refusing).regenerating.disk.doomed = [] := by decide +kernel

theorem new_index : NewIndex ⟨"data"⟩ ["data"] (engine "b.log" refusing).regenerating := by
  obtain ⟨absent, spared⟩ := name_free
  obtain ⟨publisher, indexName, generator, -⟩ := (engine "b.log" refusing).regenerating_frame
  generalize (engine "b.log" refusing).regenerating = e at *
  have name : e.indexName e.generations = "i" := congrFun indexName _
  have generator : e.generator e.generations = refusing := congrFun generator _
  constructor
  case publisher => exact congrArg Publisher.store publisher
  case plain => rw [name]; decide
  case other => rw [name]; decide
  case absent => rw [name]; exact absent
  case spared => rw [spared]; exact List.not_mem_nil
  case confined =>
    rw [generator]
    exact fun _ _ _ _ _ _ _ _ formed => ⟨formed, rfl, fun _ _ => rfl⟩

end BehindSource

open BehindSource in
theorem second_source_as_alone :
    Separate ["data"] (engine "b.log" refusing) ∧ (engine "b.log" refusing).runRound.1.cancelled = false ∧
      (engine "b.log" refusing).runRound.1.changed = ["a", "b"] ∧
      NewIndex ⟨"data"⟩ ["data"] (engine "b.log" refusing).regenerating ∧
      AsAlone ⟨"data"⟩ ["data"] (engine "b.log" refusing) 1 "b"
        ((engine "b.log" refusing).alone [] (second "b.log")) := by
  obtain ⟨through, changed, fates⟩ := both_changed
  have each := (sources_polled_as_alone ⟨"data"⟩ ["data"] (engine "b.log" refusing) rfl place nofun
    (separate _) through).1 [first] (second "b.log") [] rfl
  rw [fates] at each
  exact ⟨separate _, through, changed, new_index, each⟩

open BehindSource in
theorem file_behind_source_changed :
    ((engine behind refusing).runRound.1.cancelled = false ∧
      (engine behind refusing).runRound.2.disk.files.locate behind = .ok (.named [] "b.log" false) ∧
      (engine behind refusing).runRound.1.changed = ["a", "b"] ∧
      ((engine behind refusing).alone [] (second behind)).2.2 = .unchanged) ∧
    (engine "b.log" careless).runRound.1.cancelled = false ∧
      (engine "b.log" careless).runRound.2.disk.files.get? (sourceAt ["data"] "a" ++ ["build.complog"]) ≠
        ((engine "b.log" careless).alone [] first).1.disk.files.get? (sourceAt ["data"] "a" ++ ["build.complog"]) := by
  decide +kernel

end IndexKeeper
