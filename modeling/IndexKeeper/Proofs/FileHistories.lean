import IndexKeeper.Proofs.UnchangedWorld
import IndexKeeper.Proofs.UnpublishedRounds

set_option autoImplicit false

namespace IndexKeeper

open Store (Indexed indexesAt)

structure FilePoll where
  found : Except FileError Bytes
  reply : Reply PollError Bool

namespace FilePoll

def lastRead (before : Option Bytes) : List FilePoll → Option Bytes
  | [] => before
  | poll :: older => match poll.found with
      | .ok bytes => some bytes
      | .error _ => lastRead before older

def lastChanged (before : Option Bytes) : List FilePoll → Option Bytes
  | [] => before
  | poll :: older => match poll.found, poll.reply with
      | .ok bytes, .gives true => some bytes
      | _, _ => lastChanged before older

def contents (before : Option Bytes) : List FilePoll → List Bytes
  | [] => before.toList
  | poll :: older => poll.found.toOption.toList ++ contents before older

theorem last_read_listed (before : Option Bytes) (history : List FilePoll) (bytes : Bytes)
    (last : lastRead before history = some bytes) : bytes ∈ contents before history := by
  induction history with
  | nil => simpa [contents, lastRead] using last
  | cons poll older ih =>
      obtain ⟨found, reply⟩ := poll
      cases found with
      | error e => exact List.mem_append_right _ (ih last)
      | ok read => simp [contents, Option.some.inj last, Except.toOption]

theorem last_changed_listed (before : Option Bytes) (history : List FilePoll) (bytes : Bytes)
    (last : lastChanged before history = some bytes) : bytes ∈ contents before history := by
  induction history with
  | nil => simpa [contents, lastChanged] using last
  | cons poll older ih =>
      obtain ⟨found, reply⟩ := poll
      simp only [lastChanged] at last
      split at last
      · simp_all [contents, Except.toOption]
      · exact List.mem_append_right _ (ih last)

theorem last_changed_kept (before : Option Bytes) (history : List FilePoll) (poll : FilePoll)
    (kept : poll.reply ≠ .gives true) : lastChanged before (poll :: history) = lastChanged before history := by
  obtain ⟨found, reply⟩ := poll
  simp only [lastChanged]
  split
  · exact absurd rfl kept
  · rfl

end FilePoll

namespace Bytes

theorem of_hex_of (bytes : Bytes) : ofHexDigits? (bytes.flatMap hexOf) = some bytes := by
  induction bytes with
  | nil => rfl
  | cons byte rest ih =>
      have small := byte.toNat_lt
      have high := Json.hex_value_digit (byte.toNat / 16) (by omega)
      have low := Json.hex_value_digit (byte.toNat % 16) (by omega)
      simp [ofHexDigits?, hexOf, high, low, ih, Nat.div_add_mod]

theorem of_hex_to_hex (bytes : Bytes) : ofHex? bytes.toHex = some bytes := by
  simp [ofHex?, toHex, of_hex_of]

end Bytes

theorem content_key_same (a b : Bytes) :
    Source.contentKey a = Source.contentKey b ↔ Sha256.digest a = Sha256.digest b := by
  constructor
  · intro same
    have digests := congrArg Bytes.ofHex? same
    simpa [Source.contentKey, Bytes.of_hex_to_hex] using digests
  · exact congrArg Bytes.toHex

structure Store.Tracks (s : Store) (c : Coordinator) (t : FileTree) (name : String) (last : Option Bytes) : Prop where
  known : c.versionKey? name = last.map Source.contentKey
  stored : s.stored? t name = .ok (last.map fun bytes => ⟨name, Source.contentKey bytes, s.artifactPath name⟩)
  artifact : ∀ bytes, last = some bytes → t.read (s.artifactPath name) = .ok bytes

theorem Store.tracks_stored (s : Store) (c : Coordinator) (t : FileTree) (name : String) (bytes : Bytes)
    (has : s.HasStored c t name (Source.contentKey bytes) bytes) : s.Tracks c t name (some bytes) := by
  constructor
  · exact has.known
  · exact s.stored_pair t name _ bytes (content_key_durable bytes) has.version has.artifact
  · exact fun other same => Option.some.inj same ▸ has.artifact

def Coordinator.Writes (c : Coordinator) (d : Disk) (name path : String) : Prop :=
  ∀ bytes, d.files.read path = .ok bytes → c.versionKey? name ≠ some (Source.contentKey bytes) →
    (c.store.writeArtifact d name (Source.contentKey bytes) bytes).1 = .ok ()

-- Between two polls all may change but what is stored of the source.
inductive FilePolls (s : Store) (root : Location) (source : Source) (path : String) (before : Option Bytes) :
    List FilePoll → Coordinator → Disk → Prop where
  | loaded (names : List String) (c : Coordinator) (d : Disk) (place : s.InPlace root d.files)
      (doomed : s.Doomed markers d) (named : ∀ name ∈ names, Config.checkName name = .ok ())
      (member : source.name ∈ names) (loaded : Coordinator.load s d.files names = .ok c)
      (stored : s.stored? d.files source.name =
        .ok (before.map fun bytes => ⟨source.name, Source.contentKey bytes, s.artifactPath source.name⟩))
      (artifact : ∀ bytes, before = some bytes → d.files.read (s.artifactPath source.name) = .ok bytes) :
      FilePolls s root source path before [] c d
  | polled (history : List FilePoll) (c : Coordinator) (d : Disk)
      (reached : FilePolls s root source path before history c d) (writes : c.Writes d source.name path) :
      FilePolls s root source path before
        (⟨d.files.read path, (c.ingestIfChanged d source).reply⟩ :: history)
        (c.ingestIfChanged d source).coordinator (c.ingestIfChanged d source).disk
  | between (history : List FilePoll) (c next : Coordinator) (d after : Disk)
      (reached : FilePolls s root source path before history c d) (store : next.store = s)
      (known : next.versionKey? source.name = c.versionKey? source.name) (place : s.InPlace root after.files)
      (doomed : s.Doomed markers after)
      (stored : s.stored? after.files source.name = s.stored? d.files source.name)
      (artifact : after.files.read (s.artifactPath source.name) = d.files.read (s.artifactPath source.name)) :
      FilePolls s root source path before history next after

section Ingestion

variable (c : Coordinator) (d : Disk) (source : Source) (path : String) (file : source.kind = .filesystem path)
include file

theorem ingest_missing (missing : d.files.read path = .error .notFound) :
    c.ingestIfChanged d source = ⟨.gives false, c, d, source, []⟩ := by
  simp [Coordinator.ingestIfChanged, Source.tryIngest, file, Source.tryFile, missing, Reply.ofExcept]

theorem ingest_unreadable (e : FileError) (unread : d.files.read path = .error e) (other : e ≠ .notFound) :
    c.ingestIfChanged d source = ⟨.fails (.unreadable path), c, d, source, []⟩ := by
  cases e <;>
    simp_all [Coordinator.ingestIfChanged, Source.tryIngest, Source.tryFile, Reply.ofExcept]

theorem ingest_same (bytes : Bytes) (read : d.files.read path = .ok bytes)
    (same : c.versionKey? source.name = some (Source.contentKey bytes)) :
    c.ingestIfChanged d source = ⟨.gives false, c, d, source, []⟩ := by
  simp [Coordinator.ingestIfChanged, Source.tryIngest, file, Source.tryFile, read, same, Reply.ofExcept]

theorem ingest_new (bytes : Bytes) (read : d.files.read path = .ok bytes)
    (new : c.versionKey? source.name ≠ some (Source.contentKey bytes)) (writes : c.Writes d source.name path) :
    (c.ingestIfChanged d source).reply = .gives true ∧
      ∃ stored, c.record d source.name (Source.contentKey bytes) bytes =
        (.ok stored, (c.ingestIfChanged d source).coordinator, (c.ingestIfChanged d source).disk) := by
  have asked : source.tryIngest d.files (c.versionKey? source.name) =
      (.gives (.changed (Source.contentKey bytes) bytes), source, []) := by
    simp [Source.tryIngest, file, Source.tryFile, read, new, Reply.ofExcept]
  unfold Coordinator.ingestIfChanged
  rw [asked]
  dsimp only
  rcases record_cases c d source.name (Source.contentKey bytes) bytes with ⟨e, next, written, -⟩ | ⟨next, -, done⟩
  · have whole := writes bytes read new
    rw [written] at whole
    cases whole
  · rw [done]
    exact ⟨rfl, _, rfl⟩

theorem file_ingest_cases (writes : c.Writes d source.name path) :
    (∃ bytes, d.files.read path = .ok bytes ∧ c.versionKey? source.name ≠ some (Source.contentKey bytes) ∧
      (c.ingestIfChanged d source).reply = .gives true ∧
      ∃ stored, c.record d source.name (Source.contentKey bytes) bytes =
        (.ok stored, (c.ingestIfChanged d source).coordinator, (c.ingestIfChanged d source).disk)) ∨
    ((c.ingestIfChanged d source).reply ≠ .gives true ∧ (c.ingestIfChanged d source).coordinator = c ∧
      (c.ingestIfChanged d source).disk = d ∧
      ∀ bytes, d.files.read path = .ok bytes → c.versionKey? source.name = some (Source.contentKey bytes)) := by
  cases read : d.files.read path with
  | error e =>
      right
      by_cases missing : e = .notFound
      · rw [ingest_missing c d source path file (missing ▸ read)]
        exact ⟨nofun, rfl, rfl, nofun⟩
      · rw [ingest_unreadable c d source path file e read missing]
        exact ⟨nofun, rfl, rfl, nofun⟩
  | ok bytes =>
      by_cases same : c.versionKey? source.name = some (Source.contentKey bytes)
      · right
        rw [ingest_same c d source path file bytes read same]
        exact ⟨nofun, rfl, rfl, fun other found => Except.ok.inj found ▸ same⟩
      · exact .inl ⟨bytes, rfl, same, ingest_new c d source path file bytes read same writes⟩

end Ingestion

structure AnsweredPoll (s : Store) (source : Source) (path : String) (before : Option Bytes)
    (history : List FilePoll) (c : Coordinator) (d : Disk) (poll : FilePoll) (next : Coordinator) (after : Disk) :
    Prop where
  changed : poll.reply = .gives true ↔ ∃ bytes, d.files.read path = .ok bytes ∧
    ∀ last, FilePoll.lastRead before history = some last → Sha256.digest last ≠ Sha256.digest bytes
  same : ∀ bytes last, d.files.read path = .ok bytes → FilePoll.lastRead before history = some last →
    Sha256.digest last = Sha256.digest bytes → poll.reply = .gives false
  missing : d.files.read path = .error .notFound → poll.reply = .gives false
  unreadable : ∀ e, d.files.read path = .error e → e ≠ .notFound → poll.reply = .fails (.unreadable path)
  kept : poll.reply ≠ .gives true → next = c ∧ after = d
  written : ∀ bytes, d.files.read path = .ok bytes → poll.reply = .gives true →
    s.HasStored next after.files source.name (Source.contentKey bytes) bytes
  stored : s.Tracks next after.files source.name (FilePoll.lastChanged before (poll :: history))
  latest : (∀ a ∈ FilePoll.contents before (poll :: history), ∀ b ∈ FilePoll.contents before (poll :: history),
    Sha256.digest a = Sha256.digest b → a = b) →
      s.Tracks next after.files source.name (FilePoll.lastRead before (poll :: history))

-- What holds between two polls: the store holds what the last change was, under the key of what was read last.
structure Followed (s : Store) (root : Location) (source : Source) (before : Option Bytes)
    (history : List FilePoll) (c : Coordinator) (d : Disk) : Prop where
  store : c.store = s
  place : s.InPlace root d.files
  doomed : s.Doomed markers d
  tracks : s.Tracks c d.files source.name (FilePoll.lastChanged before history)
  keys : (FilePoll.lastChanged before history).map Source.contentKey =
    (FilePoll.lastRead before history).map Source.contentKey

section Polls

variable (s : Store) (root : Location) (source : Source) (path : String) (before : Option Bytes)
  (file : source.kind = .filesystem path) (plain : Path.Plain source.name)

theorem followed_key (history : List FilePoll) (c : Coordinator) (d : Disk)
    (followed : Followed s root source before history c d) :
    c.versionKey? source.name = (FilePoll.lastRead before history).map Source.contentKey :=
  followed.tracks.known.trans followed.keys

theorem last_changed_read (history : List FilePoll)
    (keys : (FilePoll.lastChanged before history).map Source.contentKey =
      (FilePoll.lastRead before history).map Source.contentKey)
    (apart : ∀ a ∈ FilePoll.contents before history, ∀ b ∈ FilePoll.contents before history,
      Sha256.digest a = Sha256.digest b → a = b) :
    FilePoll.lastChanged before history = FilePoll.lastRead before history := by
  cases changed : FilePoll.lastChanged before history with
  | none =>
      rw [changed] at keys
      exact (Option.map_eq_none_iff.mp keys.symm).symm
  | some bytes =>
      rw [changed] at keys
      obtain ⟨last, read, same⟩ := Option.map_eq_some_iff.mp keys.symm
      rw [read]
      exact congrArg some (apart bytes (FilePoll.last_changed_listed before history bytes changed) last
        (FilePoll.last_read_listed before history last read) ((content_key_same _ _).mp same.symm))

theorem kept_follows (history : List FilePoll) (c : Coordinator) (d : Disk)
    (followed : Followed s root source before history c d) (poll : FilePoll) (kept : poll.reply ≠ .gives true)
    (keys : (FilePoll.lastRead before (poll :: history)).map Source.contentKey =
      (FilePoll.lastRead before history).map Source.contentKey) :
    Followed s root source before (poll :: history) c d := by
  have still := FilePoll.last_changed_kept before history poll kept
  constructor
  · exact followed.store
  · exact followed.place
  · exact followed.doomed
  · rw [still]
    exact followed.tracks
  · rw [still, keys]
    exact followed.keys

include plain

theorem recorded_has (c : Coordinator) (d : Disk) (place : c.store.InPlace root d.files)
    (doomed : c.store.Doomed markers d) (key : String) (bytes : Bytes) (path : String) (next : Coordinator)
    (after : Disk) (recorded : c.record d source.name key bytes = (.ok path, next, after)) :
    c.store.HasStored next after.files source.name key bytes := by
  have standing := c.store.place_standing root _ place markers d rfl doomed
  obtain ⟨-, call⟩ := record_done c root _ d standing ⟨source.name, key, bytes⟩ plain
  dsimp only at call
  rw [recorded] at call
  obtain ⟨known, version, artifact⟩ := call.whole path rfl
  exact ⟨known, version, artifact⟩

theorem stored_follows (history : List FilePoll) (c : Coordinator) (d : Disk)
    (followed : Followed s root source before history c d) (bytes : Bytes) (path : String) (next : Coordinator)
    (after : Disk) (recorded : c.record d source.name (Source.contentKey bytes) bytes = (.ok path, next, after)) :
    Followed s root source before (⟨.ok bytes, .gives true⟩ :: history) next after := by
  obtain ⟨rfl, place, doomed, -, -⟩ := followed
  have has := recorded_has root source plain c d place doomed _ bytes path next after recorded
  have standing := c.store.place_standing root _ place markers d rfl doomed
  have steps := record_steps c root _ d standing source.name plain (Source.contentKey bytes) bytes
  have stores := record_store c d source.name (Source.contentKey bytes) bytes
  rw [recorded] at steps stores
  constructor
  · exact stores
  · exact c.store.place_moves root _ place _ _ _ steps.files
  · exact doomed_steps c.store root _ _ _ _ _ doomed steps
  · exact c.store.tracks_stored next after.files source.name bytes has
  · rfl

include file

theorem poll_follows (history : List FilePoll) (c : Coordinator) (d : Disk)
    (followed : Followed s root source before history c d) (writes : c.Writes d source.name path) :
    Followed s root source before (⟨d.files.read path, (c.ingestIfChanged d source).reply⟩ :: history)
      (c.ingestIfChanged d source).coordinator (c.ingestIfChanged d source).disk := by
  rcases file_ingest_cases c d source path file writes with ⟨bytes, read, -, reply, stored, recorded⟩ |
    ⟨kept, coordinator, disk, old⟩
  · rw [read, reply]
    exact stored_follows s root source before plain history c d followed bytes stored _ _ recorded
  · rw [coordinator, disk]
    apply kept_follows s root source before history c d followed _ kept
    cases read : d.files.read path with
    | error e => rfl
    | ok bytes => exact (old bytes read).symm.trans (followed_key s root source before history c d followed)

theorem poll_answers (history : List FilePoll) (c : Coordinator) (d : Disk)
    (followed : Followed s root source before history c d) (writes : c.Writes d source.name path) :
    AnsweredPoll s source path before history c d ⟨d.files.read path, (c.ingestIfChanged d source).reply⟩
      (c.ingestIfChanged d source).coordinator (c.ingestIfChanged d source).disk := by
  have key := followed_key s root source before history c d followed
  have next := poll_follows s root source path before file plain history c d followed writes
  have cases := file_ingest_cases c d source path file writes
  have new (bytes : Bytes) : c.versionKey? source.name ≠ some (Source.contentKey bytes) ↔
      ∀ last, FilePoll.lastRead before history = some last → Sha256.digest last ≠ Sha256.digest bytes := by
    simp [key, content_key_same]
  constructor
  · constructor
    · intro changed
      rcases cases with ⟨bytes, read, differs, -⟩ | ⟨kept, -⟩
      · exact ⟨bytes, read, (new bytes).mp differs⟩
      · exact absurd changed kept
    · intro ⟨bytes, read, differs⟩
      exact (ingest_new c d source path file bytes read ((new bytes).mpr differs) writes).1
  · intro bytes last read before same
    refine congrArg Ingestion.reply (ingest_same c d source path file bytes read ?_)
    simp [key, before, (content_key_same _ _).mpr same]
  · exact fun read => congrArg Ingestion.reply (ingest_missing c d source path file read)
  · exact fun e read other => congrArg Ingestion.reply (ingest_unreadable c d source path file e read other)
  · intro unchanged
    rcases cases with ⟨_, -, -, changed, -⟩ | ⟨-, coordinator, disk, -⟩
    · exact absurd changed unchanged
    · exact ⟨coordinator, disk⟩
  · intro bytes read changed
    rcases cases with ⟨other, found, -, -, stored, recorded⟩ | ⟨kept, -⟩
    · cases read.symm.trans found
      obtain ⟨rfl, place, doomed, -, -⟩ := followed
      exact recorded_has root source plain c d place doomed _ bytes stored _ _ recorded
    · exact absurd changed kept
  · exact next.tracks
  · intro apart
    rw [← last_changed_read before _ next.keys apart]
    exact next.tracks

end Polls

theorem polls_followed (s : Store) (root : Location) (source : Source) (path : String) (before : Option Bytes)
    (file : source.kind = .filesystem path) (plain : Path.Plain source.name) (history : List FilePoll)
    (c : Coordinator) (d : Disk) (polls : FilePolls s root source path before history c d) :
    Followed s root source before history c d := by
  -- Contents of one digest are no change, so the last change and the last contents read are told apart.
  induction polls with
  | loaded names c d place doomed named member loaded stored artifact =>
      have mirrored := (s.load_in_place_iff root _ place names
        (fun name member => plain_of_check_name name (named name member)) c).mp loaded
      have known := Except.ok.inj ((mirrored.known source.name member).symm.trans stored)
      refine ⟨mirrored.store, place, doomed, ⟨?_, stored, artifact⟩, rfl⟩
      simp [Coordinator.versionKey?, known, FilePoll.lastChanged, Function.comp_def]
  | polled history c d reached writes ih =>
      exact poll_follows s root source path before file plain history c d ih writes
  | between history c next d after reached store known place doomed stored artifact ih =>
      refine ⟨store, place, doomed, ⟨known.trans ih.tracks.known, stored.trans ih.tracks.stored, ?_⟩, ih.keys⟩
      exact fun bytes last => artifact.trans (ih.tracks.artifact bytes last)

theorem file_polls_store_what_changed (s : Store) (root : Location) (source : Source) (path : String)
    (before : Option Bytes) (file : source.kind = .filesystem path) (named : Config.checkName source.name = .ok ())
    (history : List FilePoll) (c : Coordinator) (d : Disk)
    (polls : FilePolls s root source path before history c d) (writes : c.Writes d source.name path) :
    AnsweredPoll s source path before history c d ⟨d.files.read path, (c.ingestIfChanged d source).reply⟩
      (c.ingestIfChanged d source).coordinator (c.ingestIfChanged d source).disk :=
  have plain := plain_of_check_name source.name named
  poll_answers s root source path before file plain history c d
    (polls_followed s root source path before file plain history c d polls) writes

namespace TwoContents

open TwoIndexes (store)
open HalfMade (files)
open CutBetween (source old new named)

def unread : Disk := ⟨files, [], []⟩

def start : Coordinator := (Coordinator.load store files ["a"]).toOption.get (by decide +kernel)

def stored : Ingestion := start.ingestIfChanged unread source

def rewritten : Disk :=
  { stored.disk with files := stored.disk.files.set ["a.log"] (.file new) }

theorem start_loaded : Coordinator.load store files ["a"] = .ok start :=
  ok_of_to_option _ _ (Option.some_get _).symm

theorem nothing_stored : store.stored? files "a" = .ok none := by decide +kernel

theorem old_writable : files.read "a.log" = .ok old ∧
    (start.store.writeArtifact unread "a" (Source.contentKey old) old).1 = .ok () := by decide +kernel

theorem first_changed : stored.reply = .gives true ∧ stored.coordinator.store = store ∧
    stored.disk.files.get? ["a.log"] = some (.file old) := by decide +kernel

theorem pair_left : store.stored? rewritten.files "a" = store.stored? stored.disk.files "a" ∧
    rewritten.files.read (store.artifactPath "a") = stored.disk.files.read (store.artifactPath "a") := by
  decide +kernel

theorem new_writable : rewritten.files.read "a.log" = .ok new ∧
    (store.writeArtifact rewritten "a" (Source.contentKey new) new).1 = .ok () := by decide +kernel

theorem writes_of_read (c : Coordinator) (d : Disk) (name path : String) (bytes : Bytes)
    (read : d.files.read path = .ok bytes)
    (written : (c.store.writeArtifact d name (Source.contentKey bytes) bytes).1 = .ok ()) :
    c.Writes d name path := by
  intro other found _
  rw [Except.ok.inj (found.symm.trans read)]
  exact written

theorem first_poll : FilePolls store ["data"] source "a.log" none [⟨.ok old, .gives true⟩] stored.coordinator
    stored.disk := by
  obtain ⟨read, written⟩ := old_writable
  have loaded : FilePolls store ["data"] source "a.log" none [] start unread :=
    .loaded ["a"] start unread HalfMade.place nofun (List.forall_mem_singleton.mpr named) (by decide) start_loaded
      nothing_stored nofun
  have next := FilePolls.polled _ _ _ loaded (writes_of_read _ _ _ _ old read written)
  rw [show unread.files.read "a.log" = .ok old from read,
    show (start.ingestIfChanged unread source).reply = .gives true from first_changed.1] at next
  exact next

theorem polls : FilePolls store ["data"] source "a.log" none [⟨.ok old, .gives true⟩] stored.coordinator rewritten := by
  obtain ⟨-, same, there⟩ := first_changed
  have followed := polls_followed store ["data"] source "a.log" none rfl
    (plain_of_check_name "a" named) _ _ _ first_poll
  refine .between _ _ _ _ rewritten first_poll same rfl ?_ followed.doomed pair_left.1 pair_left.2
  refine elsewhere_in_place store ["data"] stored.disk.files _ followed.place ?_
  exact elsewhere_file store ["data"] stored.disk.files followed.place [] "a.log" _ rfl (by decide)
    (by rw [show ([] : Location) ++ ["a.log"] = ["a.log"] from rfl, there]; nofun)
    ⟨fun inside => by simp [Sourced] at inside, fun inside => by simp [Indexed, indexesAt] at inside⟩

end TwoContents

open TwoContents in
theorem rewritten_file_is_stored_again :
    (CutBetween.source.kind = .filesystem "a.log" ∧ Config.checkName CutBetween.source.name = .ok () ∧
      FilePolls TwoIndexes.store ["data"] CutBetween.source "a.log" none [⟨.ok CutBetween.old, .gives true⟩]
        stored.coordinator rewritten ∧
      stored.coordinator.Writes rewritten CutBetween.source.name "a.log" ∧
      rewritten.files.read "a.log" = .ok CutBetween.new) ∧
    AnsweredPoll TwoIndexes.store CutBetween.source "a.log" none [⟨.ok CutBetween.old, .gives true⟩]
      stored.coordinator rewritten
      ⟨rewritten.files.read "a.log", (stored.coordinator.ingestIfChanged rewritten CutBetween.source).reply⟩
      (stored.coordinator.ingestIfChanged rewritten CutBetween.source).coordinator
      (stored.coordinator.ingestIfChanged rewritten CutBetween.source).disk := by
  obtain ⟨-, same, -⟩ := first_changed
  obtain ⟨read, written⟩ := new_writable
  have writes : stored.coordinator.Writes rewritten CutBetween.source.name "a.log" :=
    writes_of_read _ _ _ _ CutBetween.new read (same ▸ written)
  exact ⟨⟨rfl, CutBetween.named, polls, writes, read⟩,
    file_polls_store_what_changed _ _ _ _ _ rfl CutBetween.named _ _ _ polls writes⟩

end IndexKeeper
