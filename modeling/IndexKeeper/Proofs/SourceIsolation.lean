import IndexKeeper.Proofs.AlikeStores
import IndexKeeper.Proofs.EngineRuns

set_option autoImplicit false

namespace IndexKeeper

open Store (Unkept Indexed indexAt sourceAt)

structure Clock.Later (c next : Clock) : Prop where
  cancelAt : next.cancelAt = c.cancelAt
  now : c.now ≤ next.now
  running : next.cancelled = false → c.cancelled = false

namespace Clock

theorem later_refl (c : Clock) : c.Later c := ⟨rfl, Nat.le_refl _, id⟩

theorem later_trans (a b c : Clock) (first : a.Later b) (second : b.Later c) : a.Later c :=
  ⟨second.cancelAt.trans first.cancelAt, Nat.le_trans first.now second.now,
    fun running => first.running (second.running running)⟩

theorem later_wait (c : Clock) (secs : Nat) : c.Later (c.wait secs) := by
  unfold wait
  split
  · exact ⟨rfl, Nat.le_add_right _ _, id⟩
  · split
    · exact ⟨rfl, Nat.le_max_left _ _, nofun⟩
    · exact ⟨rfl, Nat.le_add_right _ _, id⟩

theorem wait_running (c next : Clock) (later : c.Later next) (secs : Nat)
    (running : (next.wait secs).cancelled = false) : (c.wait secs).cancelled = false := by
  have before := later.running ((later_wait next secs).running running)
  unfold wait at running ⊢
  rw [later.cancelAt] at running
  cases called : c.cancelAt with
  | none => exact before
  | some t =>
      rw [called] at running
      dsimp only at running ⊢
      split at running
      · cases running
      · next beyond =>
          rw [if_neg fun soon => beyond (Nat.le_trans soon (Nat.add_le_add_right later.now secs))]
          exact before

theorem later_ending (c next : Clock) (later : c.Later next) (ends : Prop) [Decidable ends] :
    (if ends then c.cancel else c).Later (if ends then next.cancel else next) := by
  split
  · exact ⟨later.cancelAt, later.now, nofun⟩
  · exact later

end Clock

def OthersAt (root : Location) (others : String → Prop) (l : Location) : Prop :=
  ∃ other, others other ∧ sourceAt root other <+: l

def Foreign (root : Location) (others : String → Prop) (l : Location) : Prop :=
  OthersAt root others l ∨ Unkept root markers l

theorem own_not_others (root : Location) (others : String → Prop) (name : String) (apart : ¬ others name)
    (tail : Location) : ¬ OthersAt root others (sourceAt root name ++ tail) := by
  rintro ⟨other, member, rest, same⟩
  simp only [sourceAt, List.append_assoc, List.append_cancel_left_eq, List.cons_append, List.nil_append,
    List.cons.injEq] at same
  exact apart (same.2.1 ▸ member)

theorem own_not_unkept (root : Location) (keep : List String) (name : String) (tail : Location) :
    ¬ Unkept root keep (sourceAt root name ++ tail) := fun inside =>
  Store.source_at_not_indexed root name tail (Store.indexed_of_unkept root keep _ inside)

theorem own_not_foreign (root : Location) (others : String → Prop) (name : String) (apart : ¬ others name)
    (tail : Location) : ¬ Foreign root others (sourceAt root name ++ tail) := by
  rintro (inside | inside)
  · exact own_not_others root others name apart tail inside
  · exact own_not_unkept root markers name tail inside

def Source.Avoids (source : Source) (t : FileTree) (foreign : Location → Prop) : Prop :=
  ∀ path, source.kind = .filesystem path → t.Avoids foreign (t.startOf path) (Path.segments path)

structure AlikeFor (s : Store) (root : Location) (foreign : Location → Prop) (name : String)
    (c other : Coordinator) (d otherDisk : Disk) : Prop where
  store : c.store = s
  otherStore : other.store = s
  entry : other.entries.get? name = c.entries.get? name
  disks : s.AlikeDisks root foreign d otherDisk

section Alike

variable (s : Store) (root : Location) (foreign : Location → Prop) (name : String) (plain : Path.Plain name)
  (own : ∀ tail, ¬ foreign (sourceAt root name ++ tail)) (swept : ∀ l, Unkept root markers l → foreign l)
  (c other : Coordinator) (d otherDisk : Disk) (alike : AlikeFor s root foreign name c other d otherDisk)

theorem try_ingest_alike (source : Source) (t otherTree : FileTree) (trees : s.Alike root foreign t otherTree)
    (avoids : source.Avoids t foreign) (existing : Option String) :
    source.tryIngest otherTree existing = source.tryIngest t existing := by
  unfold Source.tryIngest
  cases kind : source.kind with
  | filesystem path =>
      have read := FileTree.read_alike t otherTree foreign trees.same path trees.here (avoids path kind)
      dsimp only
      rw [Source.tryFile, Source.tryFile, read]
  | runs watch => rfl

include plain own swept alike

theorem record_alike (key : String) (bytes : Bytes) :
    (other.record otherDisk name key bytes).1 = (c.record d name key bytes).1 ∧
      AlikeFor s root foreign name (c.record d name key bytes).2.1 (other.record otherDisk name key bytes).2.1
        (c.record d name key bytes).2.2 (other.record otherDisk name key bytes).2.2 := by
  obtain ⟨store, otherStore, entry, disks⟩ := alike
  obtain ⟨answer, after⟩ := perform_all_alike s root foreign swept (s.artifactWork name key bytes)
    (s.artifact_work_local root foreign name plain own key bytes) d otherDisk disks
  unfold Coordinator.record Store.writeArtifact
  rw [store, otherStore]
  generalize d.performAll (s.artifactWork name key bytes) = done at answer after ⊢
  generalize otherDisk.performAll (s.artifactWork name key bytes) = otherDone at answer after ⊢
  obtain ⟨result, next⟩ := done
  obtain ⟨otherResult, otherNext⟩ := otherDone
  obtain rfl : otherResult = result := answer
  cases otherResult with
  | error e => exact ⟨rfl, store, otherStore, entry, after⟩
  | ok =>
      refine ⟨rfl, rfl, rfl, ?_, after⟩
      rw [NameMap.get_insert, NameMap.get_insert, if_pos rfl, if_pos rfl]

theorem ingest_alike (source : Source) (named : source.name = name) (avoids : source.Avoids d.files foreign) :
    (other.ingestIfChanged otherDisk source).reply = (c.ingestIfChanged d source).reply ∧
      (other.ingestIfChanged otherDisk source).source = (c.ingestIfChanged d source).source ∧
      AlikeFor s root foreign name (c.ingestIfChanged d source).coordinator
        (other.ingestIfChanged otherDisk source).coordinator (c.ingestIfChanged d source).disk
        (other.ingestIfChanged otherDisk source).disk := by
  subst named
  have keys : other.versionKey? source.name = c.versionKey? source.name := congrArg _ alike.entry
  have asked := try_ingest_alike s root foreign source d.files otherDisk.files alike.disks.files avoids
    (c.versionKey? source.name)
  have nextName := try_ingest_name source d.files (c.versionKey? source.name)
  unfold Coordinator.ingestIfChanged
  rw [keys, asked]
  generalize source.tryIngest d.files (c.versionKey? source.name) = answer at nextName ⊢
  obtain ⟨reply, next, questions⟩ := answer
  cases reply with
  | fails e => exact ⟨rfl, rfl, alike⟩
  | hangs => exact ⟨rfl, rfl, alike⟩
  | cancels => exact ⟨rfl, rfl, alike⟩
  | gives outcome =>
      cases outcome with
      | unchanged => exact ⟨rfl, rfl, alike⟩
      | changed key bytes =>
          dsimp only at nextName ⊢
          rw [nextName]
          obtain ⟨result, after⟩ := record_alike s root foreign source.name plain own swept c other d otherDisk alike
            key bytes
          generalize c.record d source.name key bytes = done at result after ⊢
          generalize other.record otherDisk source.name key bytes = otherDone at result after ⊢
          obtain ⟨answer, coordinator, disk⟩ := done
          obtain ⟨otherAnswer, otherCoordinator, otherNext⟩ := otherDone
          obtain rfl : otherAnswer = answer := result
          cases otherAnswer with
          | error e => exact ⟨rfl, rfl, after⟩
          | ok path => exact ⟨rfl, rfl, after⟩

theorem ingest_until_alike (source : Source) (named : source.name = name) (avoids : source.Avoids d.files foreign)
    (interrupt : Interrupt) :
    (other.ingestUntil otherDisk source interrupt).reply = (c.ingestUntil d source interrupt).reply ∧
      (other.ingestUntil otherDisk source interrupt).source = (c.ingestUntil d source interrupt).source ∧
      AlikeFor s root foreign name (c.ingestUntil d source interrupt).coordinator
        (other.ingestUntil otherDisk source interrupt).coordinator (c.ingestUntil d source interrupt).disk
        (other.ingestUntil otherDisk source interrupt).disk := by
  have whole := ingest_alike s root foreign name plain own swept c other d otherDisk alike source named avoids
  cases interrupt with
  | never => exact whole
  | ending => exact whole
  | reading cause => exact ⟨rfl, rfl, alike⟩
  | storing cause steps =>
      subst named
      have keys : other.versionKey? source.name = c.versionKey? source.name := congrArg _ alike.entry
      have asked := try_ingest_alike s root foreign source d.files otherDisk.files alike.disks.files avoids
        (c.versionKey? source.name)
      have nextName := try_ingest_name source d.files (c.versionKey? source.name)
      unfold Coordinator.ingestUntil
      dsimp only
      rw [keys, asked, alike.store, alike.otherStore]
      generalize source.tryIngest d.files (c.versionKey? source.name) = answer at nextName ⊢
      split
      · next key bytes next questions =>
          dsimp only at nextName
          rw [nextName]
          obtain ⟨result, after⟩ := perform_all_alike s root foreign swept
            ((s.artifactWork source.name key bytes).take steps)
            (fun step member => s.artifact_work_local root foreign source.name plain own key bytes step
              (List.mem_of_mem_take member)) d otherDisk alike.disks
          generalize d.performAll ((s.artifactWork source.name key bytes).take steps) = done at result after ⊢
          generalize otherDisk.performAll ((s.artifactWork source.name key bytes).take steps) = otherDone
            at result after ⊢
          obtain ⟨answer, disk⟩ := done
          obtain ⟨otherAnswer, otherNext⟩ := otherDone
          obtain rfl : otherAnswer = answer := result
          have alike : AlikeFor s root foreign source.name c other disk otherNext :=
            ⟨alike.store, alike.otherStore, alike.entry, after⟩
          cases otherAnswer with
          | error e => exact ⟨rfl, rfl, alike⟩
          | ok => exact ⟨rfl, rfl, alike⟩
      · exact whole

end Alike

theorem poll_alike (s : Store) (root : Location) (foreign : Location → Prop) (source : Source)
    (plain : Path.Plain source.name) (own : ∀ tail, ¬ foreign (sourceAt root source.name ++ tail))
    (swept : ∀ l, Unkept root markers l → foreign l) (e m : Engine)
    (alike : AlikeFor s root foreign source.name e.coordinator m.coordinator e.disk m.disk)
    (avoids : source.Avoids e.disk.files foreign) (loop : m.loop.sourceTimeoutSecs = e.loop.sourceTimeoutSecs)
    (interrupts : m.interrupts source.name = e.interrupts source.name)
    (clock : e.clock.Later m.clock) (through : (m.pollSource source).2.2 ≠ .cancelled) :
    (m.pollSource source).2 = (e.pollSource source).2 ∧
      AlikeFor s root foreign source.name (e.pollSource source).1.coordinator (m.pollSource source).1.coordinator
        (e.pollSource source).1.disk (m.pollSource source).1.disk := by
  obtain ⟨reply, next, after⟩ := ingest_until_alike s root foreign source.name plain own swept e.coordinator
    m.coordinator e.disk m.disk alike source rfl avoids (e.interrupts source.name)
  unfold Engine.pollSource at through ⊢
  cases running : m.clock.cancelled with
  | true => rw [running] at through; exact absurd rfl through
  | false =>
      rw [running, if_neg Bool.false_ne_true] at through
      rw [clock.running running, if_neg Bool.false_ne_true, if_neg Bool.false_ne_true]
      rw [interrupts] at through ⊢
      generalize e.coordinator.ingestUntil e.disk source (e.interrupts source.name) = i at reply next after ⊢
      generalize m.coordinator.ingestUntil m.disk source (e.interrupts source.name) = j at reply next after through ⊢
      dsimp only at through ⊢
      rw [reply] at through ⊢
      cases verdict : i.reply with
      | gives news => cases news <;> exact ⟨by rw [next], after⟩
      | fails error => exact ⟨by rw [next], after⟩
      | cancels => rw [verdict] at through; exact absurd rfl through
      | hangs =>
          have clock := Clock.later_ending _ _ clock (e.interrupts source.name = .ending)
          generalize (if e.interrupts source.name = .ending then e.clock.cancel else e.clock) = before at clock ⊢
          generalize (if e.interrupts source.name = .ending then m.clock.cancel else m.clock) = behind
            at clock through ⊢
          rw [verdict] at through
          dsimp only at through ⊢
          cases late : (behind.wait m.loop.sourceTimeoutSecs).cancelled with
          | true => rw [late] at through; exact absurd rfl through
          | false =>
              have early := Clock.wait_running before behind clock _ late
              rw [loop] at early
              rw [early, next]
              exact ⟨rfl, after⟩

structure Beside (s : Store) (root : Location) (others : String → Prop) (name : String) (e next : Engine) :
    Prop where
  store : next.coordinator.store = s
  entry : next.coordinator.entries.get? name = e.coordinator.entries.get? name
  loop : next.loop = e.loop
  interrupts : next.interrupts = e.interrupts
  clock : e.clock.Later next.clock
  place : s.InPlace root next.disk.files
  doomed : s.Doomed markers next.disk
  moves : Moves (Unkept root markers) (OthersAt root others) e.disk.files next.disk.files

theorem poll_source_clock (e : Engine) (source : Source) : e.clock.Later (e.pollSource source).1.clock := by
  have ended : e.clock.Later (if e.interrupts source.name = .ending then e.clock.cancel else e.clock) := by
    split
    · exact ⟨rfl, Nat.le_refl _, nofun⟩
    · exact e.clock.later_refl
  unfold Engine.pollSource
  split
  · exact e.clock.later_refl
  · dsimp only
    split
    · exact ended
    · exact ended
    · exact ended
    · exact Clock.later_trans _ _ _ ended (Clock.later_wait _ _)
    · exact Clock.later_trans _ _ _ ended ⟨rfl, Nat.le_refl _, nofun⟩

section Beside

variable (s : Store) (root : Location) (others : String → Prop) (name : String)

theorem beside_refl (e : Engine) (store : e.coordinator.store = s) (place : s.InPlace root e.disk.files)
    (doomed : s.Doomed markers e.disk) : Beside s root others name e e :=
  ⟨store, rfl, rfl, rfl, e.clock.later_refl, place, doomed, moves_refl _ _ _⟩

theorem beside_trans (a b c : Engine) (first : Beside s root others name a b)
    (second : Beside s root others name b c) : Beside s root others name a c :=
  ⟨second.store, second.entry.trans first.entry, second.loop.trans first.loop,
    second.interrupts.trans first.interrupts, Clock.later_trans _ _ _ first.clock second.clock, second.place,
    second.doomed, moves_trans _ _ _ _ _ first.moves second.moves⟩

theorem poll_beside (e : Engine) (store : e.coordinator.store = s) (place : s.InPlace root e.disk.files)
    (doomed : s.Doomed markers e.disk) (source : Source) (plain : Path.Plain source.name)
    (other : others source.name) (apart : source.name ≠ name) :
    Beside s root others name e (e.pollSource source).1 := by
  have frame := Engine.poll_source_frame e source
  have standing := s.place_standing root _ place markers e.disk rfl doomed
  obtain ⟨steps, sameStore⟩ := poll_source_steps s root _ e source store plain standing
  have moves := moves_weaken _ _ (OthersAt root others) _ _ steps.files fun l inside => ⟨source.name, other, inside⟩
  have entry : (e.pollSource source).1.coordinator.entries.get? name = e.coordinator.entries.get? name := by
    rcases e.poll_source_coordinator source with ⟨-, same⟩ | ⟨-, key, bytes, -, -, entries⟩
    · rw [same]
    · rw [entries, NameMap.get_insert, if_neg (Ne.symm apart)]
  exact ⟨sameStore, entry, frame.loop, frame.interrupts, poll_source_clock e source,
    s.place_moves root _ place markers _ _ moves, doomed_steps s root _ _ _ _ markers doomed steps, moves⟩

theorem polls_beside (sources : List Source) (e : Engine) (o : RoundOutcome) (store : e.coordinator.store = s)
    (place : s.InPlace root e.disk.files) (doomed : s.Doomed markers e.disk)
    (beside : ∀ source ∈ sources, Path.Plain source.name ∧ others source.name ∧ source.name ≠ name) :
    Beside s root others name e (e.pollSources o sources).1 := by
  induction sources generalizing e o with
  | nil => exact beside_refl s root others name e store place doomed
  | cons source rest ih =>
      obtain ⟨plain, other, apart⟩ := beside source List.mem_cons_self
      have first := poll_beside s root others name e store place doomed source plain other apart
      have further (o : RoundOutcome) := beside_trans s root others name _ _ _ first
        (ih _ o first.store first.place first.doomed fun next member => beside next (List.mem_cons_of_mem _ member))
      rw [Engine.pollSources]
      generalize e.pollSource source = answer at first further ⊢
      obtain ⟨next, polled, verdict⟩ := answer
      cases verdict with
      | cancelled => exact first
      | changed => exact further _
      | unchanged => exact further _
      | failed => exact further _

theorem beside_alike (e next : Engine) (store : e.coordinator.store = s) (place : s.InPlace root e.disk.files)
    (doomed : s.Doomed markers e.disk) (beside : Beside s root others name e next) :
    AlikeFor s root (Foreign root others) name e.coordinator next.coordinator
      { e.disk with fates := next.disk.fates } next.disk where
  store := store
  otherStore := beside.store
  entry := beside.entry
  disks := {
    files := ⟨place, beside.place, beside.moves.here, fun l outside =>
      beside.moves.get l (fun swept => outside (.inr swept)) fun touched => outside (.inl touched)⟩
    doomed := doomed
    otherDoomed := beside.doomed
    fates := rfl }

end Beside

end IndexKeeper
