import IndexKeeper.Archive.Entry
import IndexKeeper.Provider
import IndexKeeper.Store

set_option autoImplicit false

/-!
Looking through the runs that a provider lists, newest first, for one that yields the file a source
wants. Runs found without it are remembered, so that no later poll inspects them again.
-/

namespace IndexKeeper

inductive PollError where
  | store (error : StoreError)
  | unreadable (path : String)
  | archive (error : Archive.ArchiveError)
  | provider (error : ProviderError)
deriving DecidableEq, Repr

def PollError.message? : PollError → Option String
  | .store e => some e.message
  | .unreadable path => some ("Failed to read " ++ path)
  | .archive e => e.message?
  | .provider (.reported message) => some message
  | .provider .connection => none

inductive Outcome where
  | unchanged
  | changed (versionKey : String) (bytes : Bytes)
deriving DecidableEq, Repr

inductive RunRule where
  | pipeline (organization project artifactName fileName : String)
  | workflow (artifactName fileName : String)
deriving DecidableEq, Repr

inductive Look where
  -- This run was ingested last, and those after it are older.
  | reached
  | passed
  | barren
  | found (versionKey : String) (bytes : Bytes)
deriving DecidableEq, Repr

namespace RunRule

def limit : RunRule → Nat
  | pipeline .. => 100
  | workflow .. => 50

def key (rule : RunRule) (run : Run) : String :=
  match rule with
  | pipeline organization project _ _ =>
      organization ++ "/" ++ project ++ "/" ++ toString run.attempt.id
  | workflow .. => toString run.attempt.id

def entry : RunRule → String
  | pipeline _ _ artifactName fileName => artifactName ++ "/" ++ fileName
  | workflow _ fileName => fileName

def choose (rule : RunRule) (artifacts : List Artifact) : Option Artifact :=
  match rule with
  | pipeline _ _ artifactName _ => artifacts.find? fun a => a.name = artifactName
  | workflow artifactName _ =>
      match artifacts.filter fun a => a.name = artifactName with
      | [a] => some a
      | _ => none

def passes (rule : RunRule) (visited : VisitedSet) (run : Run) : Bool :=
  match rule with
  | pipeline .. => visited.contains run.attempt
  | workflow .. => run.pullRequest || visited.contains run.attempt

-- Whether the stored key shows before anything is asked that a run was ingested last. A workflow run shows it only
-- once its artifact is seen to be there.
def stopsEarly : RunRule → Bool
  | pipeline .. => true
  | workflow .. => false

end RunRule

def lookInside (rule : RunRule) (run : Run) (archive : Bytes) : Reply PollError Look :=
  match Archive.extract archive rule.entry with
  | .error e => .fails (.archive e)
  | .ok none => .gives .barren
  | .ok (some bytes) => .gives (.found (rule.key run) bytes)

-- Looks at one run, with the questions asked before in this poll; they come back longer.
def look (rule : RunRule) (p : Provider) (existing : Option String) (visited : VisitedSet)
    (asked : List Question) (run : Run) : Reply PollError Look × List Question :=
  if rule.stopsEarly ∧ existing = some (rule.key run) then (.gives .reached, asked)
  else if rule.passes visited run then (.gives .passed, asked)
  else
    let listed := asked ++ [.artifacts run]
    match (p.artifacts asked run).mapError PollError.provider with
    | .fails e => (.fails e, listed)
    | .hangs => (.hangs, listed)
    | .cancels => (.cancels, listed)
    | .gives artifacts =>
        match rule.choose artifacts with
        | none => (.gives .barren, listed)
        | some artifact =>
            if existing = some (rule.key run) then (.gives .reached, listed)
            else
              (((p.download listed run artifact).mapError PollError.provider).bind
                  (lookInside rule run),
                listed ++ [.download run artifact])

structure ScanEnd where
  reply : Reply PollError Outcome
  visited : VisitedSet
  offered : Option Attempt
  asked : List Question

def scan (rule : RunRule) (p : Provider) (existing : Option String) :
    VisitedSet → List Question → List Run → ScanEnd
  | visited, asked, [] => ⟨.gives .unchanged, visited, none, asked⟩
  | visited, asked, run :: rest =>
      match look rule p existing visited asked run with
      | (.gives .reached, asked) => ⟨.gives .unchanged, visited, none, asked⟩
      | (.gives .passed, asked) => scan rule p existing visited asked rest
      | (.gives .barren, asked) => scan rule p existing (visited.insert run.attempt) asked rest
      | (.gives (.found key bytes), asked) =>
          ⟨.gives (.changed key bytes), visited, some run.attempt, asked⟩
      | (.fails e, asked) => ⟨.fails e, visited, none, asked⟩
      | (.hangs, asked) => ⟨.hangs, visited, none, asked⟩
      | (.cancels, asked) => ⟨.cancels, visited, none, asked⟩

def scanListed (rule : RunRule) (p : Provider) (existing : Option String) (visited : VisitedSet) :
    ScanEnd :=
  let asked := [.runs rule.limit]
  match p.runs rule.limit with
  | .gives runs => scan rule p existing visited asked runs
  | .fails e => ⟨.fails (.provider e), visited, none, asked⟩
  | .hangs => ⟨.hangs, visited, none, asked⟩
  | .cancels => ⟨.cancels, visited, none, asked⟩

end IndexKeeper
