import IndexKeeper.Config
import IndexKeeper.Coordinator
import IndexKeeper.Generator
import IndexKeeper.Publisher
import IndexKeeper.Time.Clock

set_option autoImplicit false

/-!
The engine: in each round it polls every source in order, and generates and publishes a new index if
that is due. A round regenerates if a source changed, if an earlier regeneration failed and is to be
tried again, and, in the first round only, if the current index was not built from what is stored.
Nothing that fails ends the engine.
-/

namespace IndexKeeper

structure PollLoop where
  intervalSecs : Nat
  sourceTimeoutSecs : Nat
  retryFailedGeneration : Bool
  -- Something changed, and no index has been published since.
  pendingRegeneration : Bool := false
  firstRound : Bool := true
deriving DecidableEq, Repr

def PollLoop.ofSettings (s : PollSettings) : PollLoop where
  intervalSecs := s.intervalSecs
  sourceTimeoutSecs := s.sourceTimeoutSecs
  retryFailedGeneration := s.retryFailedGeneration

structure RoundOutcome where
  changed : List String := []
  failed : List String := []
  published : Option String := none
  generationFailed : Bool := false
  cancelled : Bool := false
deriving DecidableEq, Repr

def RoundOutcome.regenerated (o : RoundOutcome) : Bool := o.published.isSome || o.generationFailed

inductive Event where
  | asked (source : String) (question : Question)
  | generated (index : String) (artifacts : List String)
deriving DecidableEq, Repr

structure Engine where
  sources : List Source
  coordinator : Coordinator
  publisher : Publisher
  loop : PollLoop
  disk : Disk
  clock : Clock
  indexName : Nat → String
  generator : Nat → Generator
  generations : Nat
  events : List Event
  -- Where the polls of a round are broken off, by the name of the source.
  interrupts : String → Interrupt := fun _ => .never

inductive Verdict where
  | changed
  | unchanged
  | failed
  | cancelled
deriving DecidableEq, Repr

def RoundOutcome.note (o : RoundOutcome) (source : String) : Verdict → RoundOutcome
  | .changed => { o with changed := o.changed ++ [source] }
  | .unchanged => o
  | .failed => { o with failed := o.failed ++ [source] }
  | .cancelled => { o with cancelled := true }

inductive RegenerationError where
  | cancelled
  | generator (error : GeneratorError)
  | store (error : StoreError)
deriving DecidableEq, Repr

def RegenerationError.message : RegenerationError → String
  | .cancelled => "index generation cancelled"
  | .generator e => e.message
  | .store e => e.message

namespace Engine

def pollSource (e : Engine) (s : Source) : Engine × Source × Verdict :=
  if e.clock.cancelled then (e, s, .cancelled)
  else
    let i := e.coordinator.ingestUntil e.disk s (e.interrupts s.name)
    let e := { e with
      coordinator := i.coordinator
      disk := i.disk
      clock := if e.interrupts s.name = .ending then e.clock.cancel else e.clock
      events := e.events ++ i.asked.map (.asked s.name) }
    match i.reply with
    | .gives true => (e, i.source, .changed)
    | .gives false => (e, i.source, .unchanged)
    | .fails _ => (e, i.source, .failed)
    | .hangs =>
        let clock := e.clock.wait e.loop.sourceTimeoutSecs
        ({ e with clock }, i.source, if clock.cancelled then .cancelled else .failed)
    | .cancels => ({ e with clock := e.clock.cancel }, i.source, .cancelled)

def pollSources (e : Engine) (o : RoundOutcome) : List Source → Engine × List Source × RoundOutcome
  | [] => (e, [], o)
  | s :: rest =>
      match e.pollSource s with
      | (e, s, .cancelled) => (e, s :: rest, o.note s.name .cancelled)
      | (e, s, verdict) =>
          let (e, rest, o) := e.pollSources (o.note s.name verdict) rest
          (e, s :: rest, o)

def indexedKeys? (e : Engine) : Option VersionKeys :=
  e.publisher.current.bind fun index =>
    match e.coordinator.store.readManifest e.disk.files index with
    | .ok keys => keys
    | .error _ => none

def indexIsBehind (e : Engine) : Bool :=
  !e.coordinator.versionKeys.isEmpty && decide (e.indexedKeys? ≠ some e.coordinator.versionKeys)

def runGenerator (e : Engine) (artifacts : List String) (index out : String) :
    Except RegenerationError Unit × Engine :=
  let (reply, disk) := e.disk.generate (e.generator e.generations) artifacts out
  let e := { e with
    disk
    generations := e.generations + 1
    events := e.events ++ [.generated index artifacts] }
  match reply with
  | .gives () => (.ok (), e)
  | .fails error => (.error (.generator error), e)
  | .hangs => (.error .cancelled, { e with clock := e.clock.waitForCancel })
  | .cancels => (.error .cancelled, { e with clock := e.clock.cancel })

def publishGenerated (e : Engine) (index : String) (keys : VersionKeys) :
    Except StoreError Unit × Engine :=
  match e.coordinator.store.writeManifest e.disk index keys with
  | (.error error, disk) => (.error error, { e with disk })
  | (.ok (), disk) =>
      let (result, publisher, disk) := e.publisher.publish disk index
      (result, { e with publisher, disk })

def discard (e : Engine) (out : String) : Engine :=
  if e.disk.files.pathExists out then { e with disk := (Store.removeIndexDir e.disk out).2 } else e

def regenerate (e : Engine) : Except RegenerationError String × Engine :=
  let snapshot := e.coordinator.snapshot
  let index := e.indexName e.generations
  let out := e.coordinator.store.indexDir index
  if e.clock.cancelled then (.error .cancelled, e.discard out)
  else match e.runGenerator snapshot.paths index out with
    | (.error error, e) => (.error error, e.discard out)
    | (.ok (), e) => match e.publishGenerated index snapshot.versionKeys with
        | (.error error, e) => (.error (.store error), e.discard out)
        | (.ok (), e) => (.ok index, e)

def finishRound (e : Engine) (o : RoundOutcome) (behind : Bool) : RoundOutcome × Engine :=
  let pending := !o.changed.isEmpty || e.loop.pendingRegeneration
  let e := { e with loop := { e.loop with pendingRegeneration := pending } }
  if o.cancelled then (o, e)
  else if o.changed.isEmpty && !(e.loop.retryFailedGeneration && pending) && !behind then (o, e)
  else match e.regenerate with
    | (.ok index, e) =>
        ({ o with published := some index },
          { e with loop := { e.loop with pendingRegeneration := false } })
    | (.error _, e) => ({ o with generationFailed := true, cancelled := e.clock.cancelled }, e)

def runRound (e : Engine) : RoundOutcome × Engine :=
  let behind := e.loop.firstRound && e.indexIsBehind
  let e := { e with loop := { e.loop with firstRound := false } }
  let (e, sources, o) := e.pollSources {} e.sources
  { e with sources }.finishRound o behind

def runRounds : Nat → Engine → Engine
  | 0, e => e
  | fuel + 1, e =>
      if e.clock.cancelled then e
      else
        let (o, e) := e.runRound
        if o.cancelled then e
        else runRounds fuel { e with clock := e.clock.wait e.loop.intervalSecs }

-- Runs rounds until cancellation. Every round takes at least a second of waiting, so there are no more rounds than
-- seconds.
def run (e : Engine) : Engine :=
  runRounds (e.clock.cancelAt.getD e.clock.now - e.clock.now + 1) e

end Engine
end IndexKeeper
