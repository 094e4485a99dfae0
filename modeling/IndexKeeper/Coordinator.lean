import IndexKeeper.Source

set_option autoImplicit false

namespace IndexKeeper

structure Coordinator where
  store : Store
  entries : NameMap StoredArtifact
deriving DecidableEq, Repr

structure Snapshot where
  paths : List String
  versionKeys : VersionKeys
deriving DecidableEq, Repr

structure Ingestion where
  reply : Reply PollError Bool
  coordinator : Coordinator
  disk : Disk
  source : Source
  asked : List Question

inductive Cause where
  | calledOff
  | overdue
deriving DecidableEq, Repr

def Cause.reply : Cause → Reply PollError Bool
  | .calledOff => .cancels
  | .overdue => .hangs

-- Where a poll is broken off, other than by a provider that leaves a question without an answer.
inductive Interrupt where
  | never
  -- Before anything came of the source: in its turn, or while its file is read.
  | reading (cause : Cause)
  -- While what is new is stored, once so many steps were done.
  | storing (cause : Cause) (steps : Nat)
  -- Work is called off by the time that the poll is done.
  | ending
deriving DecidableEq, Repr

namespace Coordinator

def load (store : Store) (t : FileTree) (names : List String) : Except StoreError Coordinator :=
  (store.listStored t).map fun stored =>
    ⟨store, NameMap.ofList ((stored.filter fun s => names.contains s.source).map fun s =>
      (s.source, s))⟩

def versionKey? (c : Coordinator) (source : String) : Option String :=
  (c.entries.get? source).map StoredArtifact.versionKey

def versionKeys (c : Coordinator) : VersionKeys := c.entries.map StoredArtifact.versionKey

def snapshot (c : Coordinator) : Snapshot :=
  ⟨c.entries.values.map StoredArtifact.path, c.versionKeys⟩

def record (c : Coordinator) (d : Disk) (source key : String) (bytes : Bytes) :
    Except StoreError String × Coordinator × Disk :=
  let path := c.store.artifactPath source
  match c.store.writeArtifact d source key bytes with
  | (.error e, d) => (.error e, c, d)
  | (.ok (), d) =>
      (.ok path, { c with entries := c.entries.insert source ⟨source, key, path⟩ }, d)

def ingestIfChanged (c : Coordinator) (d : Disk) (s : Source) : Ingestion :=
  match s.tryIngest d.files (c.versionKey? s.name) with
  | (.gives .unchanged, s, asked) => ⟨.gives false, c, d, s, asked⟩
  | (.gives (.changed key bytes), s, asked) =>
      match c.record d s.name key bytes with
      | (.error e, c, d) => ⟨.fails (.store e), c, d, s, asked⟩
      | (.ok _, c, d) => ⟨.gives true, c, d, s.confirm, asked⟩
  | (.fails e, s, asked) => ⟨.fails e, c, d, s, asked⟩
  | (.hangs, s, asked) => ⟨.hangs, c, d, s, asked⟩
  | (.cancels, s, asked) => ⟨.cancels, c, d, s, asked⟩

-- Polls a source up to where the poll is broken off. What was stored by then is not known of.
def ingestUntil (c : Coordinator) (d : Disk) (s : Source) : Interrupt → Ingestion
  | .never | .ending => c.ingestIfChanged d s
  | .reading cause => ⟨cause.reply, c, d, s, []⟩
  | .storing cause steps =>
      match s.tryIngest d.files (c.versionKey? s.name) with
      | (.gives (.changed key bytes), s, asked) =>
          match d.performAll ((c.store.artifactWork s.name key bytes).take steps) with
          | (.error e, d) => ⟨.fails (.store e), c, d, s, asked⟩
          | (.ok (), d) => ⟨cause.reply, c, d, s, asked⟩
      | _ => c.ingestIfChanged d s

end Coordinator

structure SourceStatus where
  name : String
  kind : String
  versionKey : Option String
deriving DecidableEq, Repr

def Coordinator.statuses (c : Coordinator) (sources : List Source) : List SourceStatus :=
  sources.map fun s => ⟨s.name, s.label, c.versionKey? s.name⟩

end IndexKeeper
