import IndexKeeper.Files.Tree
import IndexKeeper.Text.Blank
import IndexKeeper.Toml.Document

set_option autoImplicit false

namespace IndexKeeper

structure PollSettings where
  intervalSecs : Nat := 60
  sourceTimeoutSecs : Nat := 300
  retryFailedGeneration : Bool := true
  maxVisitedBuilds : Nat := 200
deriving DecidableEq, Repr

structure GeneratorSettings where
  command : String
  args : List String
deriving DecidableEq, Repr

structure TokenVariables where
  azureDevops : String := "AZDO_TOKEN"
  github : String := "GITHUB_TOKEN"
deriving DecidableEq, Repr

inductive SourceSettings where
  | filesystem (path : String)
  | pipeline (organization project : String) (definition : Int) (artifactName fileName : String)
  | workflow (owner repo workflowFileName artifactName fileName : String)
deriving DecidableEq, Repr

def SourceSettings.label : SourceSettings → String
  | .filesystem _ => "filesystem"
  | .pipeline .. => "pipeline"
  | .workflow .. => "workflow"

structure NamedSource where
  name : String
  settings : SourceSettings
deriving DecidableEq, Repr

structure Config where
  storageRoot : String
  poll : PollSettings
  generator : GeneratorSettings
  bind : String
  tokens : TokenVariables
  sources : List NamedSource
deriving DecidableEq, Repr

inductive ConfigError where
  | unreadable (path : String)
  | malformed
  | zeroInterval
  | zeroTimeout
  | fewVisited
  | blankCommand
  | emptyName
  | reservedName (name : String)
  | forbiddenCharacter (name : String) (c : Char)
  | duplicateName (name : String)
  | emptyPath (name : String)
deriving DecidableEq, Repr

def ConfigError.message : ConfigError → String
  | .unreadable path => "Failed to read config file: " ++ path
  | .malformed => "Failed to parse config file"
  | .zeroInterval => "poll.interval_secs must be > 0"
  | .zeroTimeout => "poll.source_timeout_secs must be > 0"
  | .fewVisited => "poll.max_visited_builds must be >= 2"
  | .blankCommand => "generator.command must not be empty"
  | .emptyName => "Source name must not be empty"
  | .reservedName name => "Invalid source name: '" ++ name ++ "'"
  | .forbiddenCharacter name c => "Invalid source name: '" ++ name ++ "' (character '" ++
      String.singleton c ++ "' not allowed; use A-Z a-z 0-9 . _ -)"
  | .duplicateName name => "Duplicate source name: '" ++ name ++ "'"
  | .emptyPath name => "sources." ++ name ++ ": path must not be empty"

namespace Toml.Value

def text? : Value → Option String
  | .text s => some s
  | _ => none

def integer? : Value → Option Int
  | .integer i => some i
  | _ => none

def natural? : Value → Option Nat
  | .integer i => if 0 ≤ i then some i.toNat else none
  | _ => none

def boolean? : Value → Option Bool
  | .boolean b => some b
  | _ => none

def items? : Value → Option (List Value)
  | .array items => some items
  | .tables items => some items
  | _ => none

def texts? (v : Value) : Option (List String) := v.items?.bind (·.mapM text?)

inductive Record where
  | named (fields : Fields)
  | placed (items : List Value)

def record? : Value → Option Record
  | .table _ fields => some (.named fields)
  | .array items => some (.placed items)
  | .tables items => some (.placed items)
  | .moment _ => some (.named [])
  | _ => none

def Record.get? (r : Record) (place : Nat) (name : String) : Option Value :=
  match r with
  | .named fields => fields.lookup name
  | .placed items => items[place]?

def Record.required? {α : Type} (r : Record) (place : Nat) (name : String)
    (read : Value → Option α) : Option α := (r.get? place name).bind read

def Record.optional? {α : Type} (r : Record) (place : Nat) (name : String)
    (read : Value → Option α) (default : α) : Option α :=
  match r.get? place name with
  | none => some default
  | some v => read v

end Toml.Value

namespace Config

open Toml (Value Fields)

def pollSettings? (v : Value) : Option PollSettings := do
  let r ← v.record?
  let d : PollSettings := {}
  return {
    intervalSecs := ← r.optional? 0 "interval_secs" Value.natural? d.intervalSecs
    sourceTimeoutSecs := ← r.optional? 1 "source_timeout_secs" Value.natural? d.sourceTimeoutSecs
    retryFailedGeneration :=
      ← r.optional? 2 "retry_failed_generation" Value.boolean? d.retryFailedGeneration
    maxVisitedBuilds := ← r.optional? 3 "max_visited_builds" Value.natural? d.maxVisitedBuilds }

def generatorSettings? (v : Value) : Option GeneratorSettings := do
  let r ← v.record?
  return {
    command := ← r.required? 0 "command" Value.text?
    args := ← r.optional? 1 "args" Value.texts? [] }

def storageRoot? (v : Value) : Option String := do
  (← v.record?).required? 0 "root" Value.text?

def defaultBind : String := "127.0.0.1:7340"

def bind? (v : Value) : Option String := do
  (← v.record?).optional? 0 "bind" Value.text? defaultBind

def tokenVariables? (v : Value) : Option TokenVariables := do
  let r ← v.record?
  let d : TokenVariables := {}
  return {
    azureDevops := ← r.optional? 0 "azure_devops_token_env" Value.text? d.azureDevops
    github := ← r.optional? 1 "github_token_env" Value.text? d.github }

def sourceSettings? (fields : Fields) : Option SourceSettings := do
  let text (name : String) : Option String := (fields.lookup name).bind Value.text?
  match ← text "kind" with
  | "filesystem" => return .filesystem (← text "path")
  | "pipeline" =>
      return .pipeline (← text "organization") (← text "project")
        (← (fields.lookup "definition").bind Value.integer?)
        (← text "artifact_name") (← text "file_name")
  | "workflow" =>
      return .workflow (← text "owner") (← text "repo") (← text "workflow_file_name")
        (← text "artifact_name") (← text "file_name")
  | _ => none

def namedSource? : Value → Option NamedSource
  | .table _ fields => do
      return ⟨← (fields.lookup "name").bind Value.text?, ← sourceSettings? fields⟩
  | _ => none

def ofFields? (fields : Fields) : Option Config := do
  let optional {α : Type} (name : String) (read : Value → Option α) (default : α) : Option α :=
    match fields.lookup name with
    | none => some default
    | some v => read v
  return {
    storageRoot := ← (fields.lookup "storage").bind storageRoot?
    poll := ← optional "poll" pollSettings? {}
    generator := ← (fields.lookup "generator").bind generatorSettings?
    bind := ← optional "server" bind? defaultBind
    tokens := ← optional "credentials" tokenVariables? {}
    sources := ← optional "sources" (fun v => v.items?.bind (·.mapM namedSource?)) [] }

def isNameChar (c : Char) : Bool := c.isAlphanum || c == '.' || c == '_' || c == '-'

-- A source name becomes a directory, so it is one harmless path segment.
def checkName (name : String) : Except ConfigError Unit :=
  if name = "" then .error .emptyName
  else if name = "." ∨ name = ".." then .error (.reservedName name)
  else match name.toList.find? fun c => !isNameChar c with
    | some c => .error (.forbiddenCharacter name c)
    | none => .ok ()

def checkSources (seen : List String) : List NamedSource → Except ConfigError Unit
  | [] => .ok ()
  | s :: rest =>
      match checkName s.name with
      | .error e => .error e
      | .ok () =>
          if seen.contains s.name then .error (.duplicateName s.name)
          else if s.settings = .filesystem "" then .error (.emptyPath s.name)
          else checkSources (s.name :: seen) rest

def check (c : Config) : Except ConfigError Unit :=
  if c.poll.intervalSecs = 0 then .error .zeroInterval
  else if c.poll.sourceTimeoutSecs = 0 then .error .zeroTimeout
  else if c.poll.maxVisitedBuilds < 2 then .error .fewVisited
  else if Text.allBlank c.generator.command then .error .blankCommand
  else checkSources [] c.sources

def parse (document : String) : Except ConfigError Config :=
  match (Toml.parse? document).bind ofFields? with
  | none => .error .malformed
  | some c => (check c).map fun _ => c

def load (t : FileTree) (path : String) : Except ConfigError Config :=
  match (t.read path).toOption.bind Bytes.toText? with
  | none => .error (.unreadable path)
  | some document => parse document

end Config
end IndexKeeper
