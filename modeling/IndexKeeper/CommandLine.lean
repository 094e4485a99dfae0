import IndexKeeper.CommandGenerator
import IndexKeeper.CommandLine.Arguments
import IndexKeeper.Engine
import IndexKeeper.Environment
import IndexKeeper.Http.ListenAddress
import IndexKeeper.Provider.AzureDevOps
import IndexKeeper.Provider.GitHub

set_option autoImplicit false

namespace IndexKeeper

structure Machine where
  disk : Disk
  environment : Environment
  server : Http.Server
  indexName : Nat → String
  generations : Nat

def Machine.after (m : Machine) (e : Engine) : Machine :=
  { m with disk := e.disk.settle, generations := e.generations }

structure Ending where
  exitCode : Nat
  stdout : String
  stderr : String
deriving DecidableEq, Repr

namespace Config

def kindOf (c : Config) (m : Machine) : SourceSettings → SourceKind
  | .filesystem path => .filesystem path
  | .pipeline organization project definition artifactName fileName =>
      let client : AzureDevOps := ⟨AzureDevOps.defaultBase, organization, project, definition,
        m.environment.token? c.tokens.azureDevops⟩
      .runs (RunWatch.start (.pipeline organization project artifactName fileName)
        (client.provider m.server) c.poll.maxVisitedBuilds)
  | .workflow owner repo workflowFileName artifactName fileName =>
      let client : GitHub := ⟨GitHub.defaultBase, owner, repo, workflowFileName,
        m.environment.token? c.tokens.github⟩
      .runs (RunWatch.start (.workflow artifactName fileName) (client.provider m.server)
        c.poll.maxVisitedBuilds)

def buildSources (c : Config) (m : Machine) : List Source :=
  c.sources.map fun s => ⟨s.name, c.kindOf m s.settings⟩

end Config

structure Setup where
  store : Store
  sources : List Source
  loop : PollLoop
  clock : Clock
  indexName : Nat → String
  generator : Nat → Generator
  generations : Nat

namespace Setup

def ofConfig (c : Config) (m : Machine) (clock : Clock) : Setup where
  store := ⟨c.storageRoot⟩
  sources := c.buildSources m
  loop := .ofSettings c.poll
  clock := clock
  indexName := m.indexName
  generator := fun _ => c.generator.generator c.storageRoot
  generations := m.generations

def start (u : Setup) (d : Disk) : Except StoreError Engine × Disk :=
  match u.store.init d with
  | (.error e, disk) => (.error e, disk)
  | (.ok (), disk) =>
      match Coordinator.load u.store disk.files (u.sources.map Source.name) with
      | .error e => (.error e, disk)
      | .ok coordinator =>
          match Publisher.start u.store disk with
          | (.error e, disk) => (.error e, disk)
          | (.ok publisher, disk) =>
              (.ok {
                sources := u.sources
                coordinator
                publisher
                loop := u.loop
                disk
                clock := u.clock
                indexName := u.indexName
                generator := u.generator
                generations := u.generations
                events := [] }, disk)

end Setup

def Config.openEngine (c : Config) (m : Machine) (clock : Clock) : Except StoreError Engine × Disk :=
  (Setup.ofConfig c m clock).start m.disk

namespace CommandLine

def joinOrDash (names : List String) : String :=
  if names.isEmpty then "-" else ", ".intercalate names

def describeRound (o : RoundOutcome) : String :=
  "changed:   " ++ joinOrDash o.changed ++ "\nfailed:    " ++ joinOrDash o.failed ++
    "\npublished: " ++ (match o.published with
      | some index => index
      | none => if o.generationFailed then "- (generation failed)" else "-") ++ "\n"

def tableRow (name kind key : String) : String :=
  padTo 20 name ++ " " ++ padTo 12 kind ++ " " ++ key ++ "\n"

def describeSources (statuses : List SourceStatus) : String :=
  tableRow "SOURCE" "KIND" "VERSION" ++
    String.join (statuses.map fun s => tableRow s.name s.kind (s.versionKey.getD "-"))

def succeed (stdout : String) : Ending := ⟨0, stdout, ""⟩

def fail (message : String) : Ending := ⟨1, "", "Error: " ++ message ++ "\n"⟩

-- When a serving command is interrupted: as soon as the files look a certain way after a round, or else when some
-- seconds have passed.
structure Interruption where
  seen : FileTree → Bool
  patience : Nat

def serveRounds (i : Interruption) : Nat → Engine → Engine
  | 0, e => e
  | fuel + 1, e =>
      if e.clock.cancelled then e
      else
        let (o, e) := e.runRound
        if o.cancelled || i.seen e.disk.files then e
        else serveRounds i fuel { e with clock := e.clock.wait e.loop.intervalSecs }

def runCommand (m : Machine) (i : Interruption) (c : Config) (command : Command) :
    Ending × Machine :=
  match c.openEngine m (Clock.start (if command = .serve then some i.patience else none)) with
  | (.error e, disk) => (fail e.message, { m with disk := disk.settle })
  | (.ok e, _) =>
      match command with
      | .sources => (succeed (describeSources (e.coordinator.statuses e.sources)), m.after e)
      | .poll =>
          let (o, e) := e.runRound
          (succeed (describeRound o), m.after e)
      | .serve =>
          if Http.canListen c.bind then
            (succeed "", m.after (serveRounds i (i.patience + 1) e))
          else (fail (Http.listenError c.bind), m.after e)

def run (m : Machine) (i : Interruption) (arguments : List String) : Ending × Machine :=
  match read arguments with
  | .tell text => (succeed text, m)
  | .nothing => (⟨2, "", help false⟩, m)
  | .misused how => (⟨2, "", "error: " ++ how.message ++ "\n"⟩, m)
  | .run path command =>
      match Config.load m.disk.files path with
      | .error e => (fail e.message, m)
      | .ok c => runCommand m i c command

end CommandLine
end IndexKeeper
