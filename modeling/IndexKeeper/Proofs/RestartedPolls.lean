import IndexKeeper.Proofs.Lifetimes

set_option autoImplicit false

namespace IndexKeeper

open Store (Unkept)

def Engine.ReadsAs (t : FileTree) (e : Engine) (source : Source) : Prop :=
  ∀ path, source.kind = .filesystem path → e.disk.files.read path = t.read path

-- The stored key is that of some bytes, and the artifact is other bytes.
def Store.Stale (s : Store) (t : FileTree) (source : String) (bytes : Bytes) : Prop :=
  t.read (s.versionPath source) = .ok (Bytes.ofText (Source.contentKey bytes)) ∧
    ∃ stored, t.read (s.artifactPath source) = .ok stored ∧ stored ≠ bytes

structure Untouched (s : Store) (e next : Engine) (source : String) : Prop where
  key : next.coordinator.versionKey? source = e.coordinator.versionKey? source
  version : next.disk.files.read (s.versionPath source) = e.disk.files.read (s.versionPath source)
  artifact : next.disk.files.read (s.artifactPath source) = e.disk.files.read (s.artifactPath source)

def Known (s : Store) (e : Engine) (source : String) : Prop :=
  ∀ key, e.coordinator.versionKey? source = some key ↔
    e.disk.files.read (s.versionPath source) = .ok (Bytes.ofText key) ∧ HexText key ∧
      ∃ bytes, e.disk.files.read (s.artifactPath source) = .ok bytes

structure Current (s : Store) (e next : Engine) (source : String) (bytes : Bytes) : Prop where
  key : next.coordinator.versionKey? source = some (Source.contentKey bytes)
  version : next.disk.files.read (s.versionPath source) = .ok (Bytes.ofText (Source.contentKey bytes))
  artifact : ∃ stored, next.disk.files.read (s.artifactPath source) = .ok stored ∧
    (stored = bytes ↔ ¬ s.Stale e.disk.files source bytes)

theorem untouched_refl (s : Store) (e : Engine) (source : String) : Untouched s e e source := ⟨rfl, rfl, rfl⟩

theorem untouched_trans (s : Store) (a b c : Engine) (source : String) (first : Untouched s a b source)
    (second : Untouched s b c source) : Untouched s a c source :=
  ⟨second.key.trans first.key, second.version.trans first.version, second.artifact.trans first.artifact⟩

theorem known_untouched (s : Store) (e next : Engine) (source : String) (same : Untouched s e next source)
    (known : Known s e source) : Known s next source := by
  intro key
  rw [same.key, same.version, same.artifact]
  exact known key

theorem stale_untouched (s : Store) (e next : Engine) (source : String) (bytes : Bytes)
    (same : Untouched s e next source) :
    s.Stale next.disk.files source bytes ↔ s.Stale e.disk.files source bytes := by
  unfold Store.Stale
  rw [same.version, same.artifact]

structure Restarted (s : Store) (root : Location) (half : Option (String × Bytes)) (keep : List String)
    (e : Engine) : Prop where
  store : e.coordinator.store = s
  kept : s.Kept root half e.disk.files
  doomed : s.Doomed keep e.disk

structure CaughtUp (s : Store) (root : Location) (half : Option (String × Bytes)) (keep : List String)
    (t : FileTree) (sources : List Source) (e next : Engine) : Prop where
  restarted : Restarted s root half keep next
  steps : s.Steps root (Unkept root keep) (Sourced root) e.disk next.disk
  others : ∀ other, Path.Plain other → other ∉ sources.map Source.name → Untouched s e next other
  current : ∀ source ∈ sources, ∀ path bytes, source.kind = .filesystem path → t.read path = .ok bytes →
    Current s e next source.name bytes

section Polls

variable (s : Store) (root : Location) (half : Option (String × Bytes)) (keep : List String) (t : FileTree)

theorem caught_up_refl (e : Engine) (restarted : Restarted s root half keep e) :
    CaughtUp s root half keep t [] e e :=
  ⟨restarted, steps_refl s root _ _ e.disk, fun other _ _ => untouched_refl s e other, nofun⟩

theorem caught_up_cons (source : Source) (rest : List Source) (e mid next : Engine)
    (plain : ∀ other ∈ source :: rest, Path.Plain other.name)
    (distinct : ((source :: rest).map Source.name).Nodup) (first : CaughtUp s root half keep t [source] e mid)
    (later : CaughtUp s root half keep t rest mid next) :
    CaughtUp s root half keep t (source :: rest) e next := by
  rw [List.map_cons, List.nodup_cons] at distinct
  have untouched (other : String) (otherPlain : Path.Plain other) (apart : other ≠ source.name) :
      Untouched s e mid other := first.others other otherPlain (by simpa using apart)
  refine ⟨later.restarted, steps_trans s root _ _ _ _ _ first.steps later.steps, ?_, ?_⟩
  · intro other otherPlain outside
    rw [List.map_cons, List.mem_cons, not_or] at outside
    exact untouched_trans s e mid next other (untouched other otherPlain outside.1)
      (later.others other otherPlain outside.2)
  · intro one member path bytes kind there
    rcases List.mem_cons.mp member with rfl | inRest
    · have kept := later.others one.name (plain one member) distinct.1
      obtain ⟨key, version, stored, artifact, exactly⟩ :=
        first.current one List.mem_cons_self path bytes kind there
      exact ⟨kept.key.trans key, kept.version.trans version, stored, kept.artifact.trans artifact, exactly⟩
    · have apart : one.name ≠ source.name := fun same => distinct.1 (same ▸ List.mem_map_of_mem inRest)
      have kept := untouched one.name (plain one member) apart
      obtain ⟨key, version, stored, artifact, exactly⟩ := later.current one inRest path bytes kind there
      exact ⟨key, version, stored, artifact,
        exactly.trans (not_congr (stale_untouched s e mid one.name bytes kept))⟩

variable (current : "current" ∈ keep) (beside : "current.tmp" ∈ keep)
include current beside

theorem poll_restarted (e : Engine) (restarted : Restarted s root half keep e) (source : Source)
    (path : String) (named : Config.checkName source.name = .ok ()) (file : source.kind = .filesystem path)
    (known : Known s e source.name) (reads : e.ReadsAs t source) (stores : e.Stores source)
    (undisturbed : e.interrupts source.name = .never)
    (through : (e.pollSource source).2.2 ≠ .cancelled) :
    let done := e.pollSource source
    CaughtUp s root half keep t [source] e done.1 ∧
      (done.2.2 ≠ .changed → done.1.coordinator = e.coordinator) := by
  have plain := plain_of_check_name source.name named
  have same := reads path file
  have polled := source_polled e source
  have one (next : Engine) (now : ∀ bytes, t.read path = .ok bytes → Current s e next source.name bytes) :
      ∀ other ∈ [source], ∀ place bytes, other.kind = .filesystem place → t.read place = .ok bytes →
        Current s e next other.name bytes := by
    intro other member place bytes kind there
    obtain rfl := List.mem_singleton.mp member
    obtain rfl := SourceKind.filesystem.inj (file.symm.trans kind)
    exact now bytes there
  -- where nothing is stored nothing moves
  have idle (next : Engine) (coordinator : next.coordinator = e.coordinator) (disk : next.disk = e.disk)
      (now : ∀ bytes, t.read path = .ok bytes → Current s e next source.name bytes) :
      CaughtUp s root half keep t [source] e next := by
    refine ⟨⟨coordinator ▸ restarted.store, disk ▸ restarted.kept, disk ▸ restarted.doomed⟩, ?_, ?_,
      one next now⟩
    · rw [disk]
      exact steps_refl s root _ _ e.disk
    · intro other _ _
      exact ⟨by rw [coordinator], by rw [disk], by rw [disk]⟩
  generalize e.pollSource source = done at polled through ⊢
  cases polled with
  | off offered called => exact absurd rfl through
  | early next verdict cause offered broken coordinator disk unchanged => cases undisturbed.symm.trans broken
  | halfway next verdict cause steps key bytes offered changed broken coordinator performed unchanged =>
      cases undisturbed.symm.trans broken
  | left next verdict offered coordinator disk nothing unchanged =>
      refine ⟨idle next coordinator disk fun bytes there => ?_, fun _ => coordinator⟩
      have key : e.coordinator.versionKey? source.name = some (Source.contentKey bytes) :=
        Decidable.byContradiction fun other => nothing _ _
          ((file_changed_iff e source path file _ bytes).mpr ⟨same.trans there, rfl, other⟩)
      obtain ⟨version, -, stored, artifact⟩ := (known _).mp key
      refine ⟨coordinator ▸ key, disk ▸ version, stored, disk ▸ artifact, ?_, ?_⟩
      · rintro rfl ⟨-, other, again, different⟩
        exact different (Except.ok.inj (again.symm.trans artifact))
      · intro fresh
        exact Decidable.byContradiction fun different => fresh ⟨version, stored, artifact, different⟩
  | stored next key answer bytes offered changed recorded =>
      obtain ⟨read, rfl, other⟩ := (file_changed_iff e source path file key bytes).mp changed
      have standing := s.kept_standing root half _ restarted.kept keep e.disk rfl restarted.doomed
      rw [← restarted.store] at standing
      obtain ⟨-, done⟩ := record_done e.coordinator root _ e.disk standing
        ⟨source.name, Source.contentKey bytes, bytes⟩ plain
      obtain ⟨steps, whole, -⟩ := kept_recorded s root keep current beside e.coordinator restarted.store half
        e.disk restarted.kept restarted.doomed source.name plain bytes
      dsimp only at done
      rw [recorded] at done steps whole
      obtain ⟨store, others, written, -⟩ := done
      obtain ⟨key, version, artifact⟩ := written answer rfl
      rw [restarted.store] at others version artifact store
      have still : Restarted s root half keep next :=
        ⟨store, whole answer rfl, doomed_steps s root _ _ _ _ keep restarted.doomed steps⟩
      refine ⟨⟨still, steps, ?_, one next fun found there => ?_⟩, fun unchanged => absurd rfl unchanged⟩
      · intro name namePlain apart
        obtain ⟨key, version, artifact⟩ := others name namePlain (by simpa using apart)
        exact ⟨key, version, artifact⟩
      · obtain rfl := Except.ok.inj ((same.trans there).symm.trans read)
        refine ⟨key, version, found, artifact, fun _ => ?_, fun _ => rfl⟩
        rintro ⟨oldVersion, oldStored, oldArtifact, -⟩
        exact other ((known _).mpr ⟨oldVersion, content_key_hex found, oldStored, oldArtifact⟩)
  | unstored next key bytes error offered changed recorded reply => exact absurd reply (stores.written error)

omit current beside in
theorem changed_grows (e : Engine) (o : RoundOutcome) (sources : List Source)
    (idle : (e.pollSources o sources).2.2.changed = []) : o.changed = [] := by
  induction sources generalizing e o with
  | nil => exact idle
  | cons source rest ih =>
      rw [Engine.pollSources] at idle
      generalize e.pollSource source = answer at idle
      obtain ⟨next, polled, verdict⟩ := answer
      cases verdict with
      | cancelled => exact idle
      | changed =>
          have before := ih next (o.note polled.name .changed) idle
          simp [RoundOutcome.note] at before
      | unchanged => exact ih next (o.note polled.name .unchanged) idle
      | failed => exact ih next (o.note polled.name .failed) idle

theorem polls_restarted (sources : List Source) (e : Engine) (o : RoundOutcome)
    (restarted : Restarted s root half keep e)
    (named : ∀ source ∈ sources, Config.checkName source.name = .ok ())
    (files : ∀ source ∈ sources, ∃ path, source.kind = .filesystem path)
    (distinct : (sources.map Source.name).Nodup)
    (known : ∀ source ∈ sources, Known s e source.name)
    (reads : Engine.AtPolls (Engine.ReadsAs t) e sources) (stores : Engine.AtPolls Engine.Stores e sources)
    (undisturbed : ∀ source ∈ sources, e.interrupts source.name = .never)
    (through : (e.pollSources o sources).2.2.cancelled = false) :
    let done := e.pollSources o sources
    CaughtUp s root half keep t sources e done.1 ∧
      (done.2.2.changed = [] → done.1.coordinator = e.coordinator) := by
  -- What is known of the sources still to come is carried along.
  induction sources generalizing e o with
  | nil => exact ⟨caught_up_refl s root half keep t e restarted, fun _ => rfl⟩
  | cons source rest ih =>
      obtain ⟨path, file⟩ := files source List.mem_cons_self
      obtain ⟨read, laterReads⟩ := reads
      obtain ⟨stored, laterStores⟩ := stores
      have polled := poll_restarted s root half keep t current beside e restarted source path
        (named source List.mem_cons_self) file (known source List.mem_cons_self) read stored
        (undisturbed source List.mem_cons_self)
      have calm : (e.pollSource source).1.interrupts = e.interrupts := (Engine.poll_source_frame e source).interrupts
      have plain (other : Source) (member : other ∈ source :: rest) : Path.Plain other.name :=
        plain_of_check_name other.name (named other member)
      rw [Engine.pollSources] at through ⊢
      generalize e.pollSource source = answer at polled calm through laterReads laterStores ⊢
      obtain ⟨next, after, verdict⟩ := answer
      have further (o : RoundOutcome) (onward : verdict ≠ .cancelled)
          (through : (next.pollSources o rest).2.2.cancelled = false) :
          let done := next.pollSources o rest
          CaughtUp s root half keep t (source :: rest) e done.1 ∧
            (verdict ≠ .changed → done.2.2.changed = [] → done.1.coordinator = e.coordinator) := by
        obtain ⟨first, same⟩ := polled onward
        have knownNext (other : Source) (member : other ∈ rest) : Known s next other.name := by
          have apart : other.name ≠ source.name := fun same =>
            (List.nodup_cons.mp distinct).1 (same ▸ List.mem_map_of_mem member)
          have listed := List.mem_cons_of_mem source member
          exact known_untouched s e next other.name
            (first.others other.name (plain other listed) (by simpa using apart)) (known other listed)
        obtain ⟨later, lastSame⟩ := ih next o first.restarted
          (fun other member => named other (List.mem_cons_of_mem _ member))
          (fun other member => files other (List.mem_cons_of_mem _ member)) (List.nodup_cons.mp distinct).2
          knownNext laterReads laterStores
          (fun other member => calm ▸ undisturbed other (List.mem_cons_of_mem _ member))
          through
        exact ⟨caught_up_cons s root half keep t source rest e next _ plain distinct first later,
          fun unchanged idle => (lastSame idle).trans (same unchanged)⟩
      cases verdict with
      | cancelled => simp [RoundOutcome.note] at through
      | changed =>
          refine ⟨(further _ (by simp) through).1, fun idle => ?_⟩
          have before := changed_grows next (o.note after.name .changed) rest idle
          simp [RoundOutcome.note] at before
      | unchanged =>
          obtain ⟨caught, same⟩ := further _ (by simp) through
          exact ⟨caught, same (by simp)⟩
      | failed =>
          obtain ⟨caught, same⟩ := further _ (by simp) through
          exact ⟨caught, same (by simp)⟩

end Polls

end IndexKeeper
