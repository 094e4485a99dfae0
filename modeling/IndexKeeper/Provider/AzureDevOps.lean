import IndexKeeper.Provider.Request
import IndexKeeper.Text.Base64

set_option autoImplicit false

namespace IndexKeeper

structure AzureDevOps where
  base : String
  organization : String
  project : String
  definition : Int
  token : Option String
deriving DecidableEq, Repr

namespace AzureDevOps

open Provider (Answer)

def defaultBase : String := "https://dev.azure.com"

def apiVersion : String × String := ("api-version", "7.1")

def buildsAddress (c : AzureDevOps) : String :=
  Provider.trimSlashes c.base ++ "/" ++ c.organization ++ "/" ++ c.project ++ "/_apis/build/builds"

def artifactsAddress (c : AzureDevOps) (run : Run) : String :=
  c.buildsAddress ++ "/" ++ toString run.attempt.id ++ "/artifacts"

def headers (c : AzureDevOps) : List (String × String) :=
  [("accept", "*/*"), Provider.userAgent] ++ match c.token with
    | none => []
    | some token =>
        [("authorization", "Basic " ++ String.ofList (Text.base64 (Bytes.ofText (":" ++ token))))]

def listRequest (c : AzureDevOps) (top : Nat) (continuation : Option String) : Http.Request where
  address := c.buildsAddress
  parameters := [("definitions", toString c.definition), ("statusFilter", "completed"),
    ("queryOrder", "finishTimeDescending"), ("$top", toString top), apiVersion] ++
      continuation.toList.map fun token => ("continuationToken", token)
  headers := c.headers

-- A build as it is listed; one without a finish time is still running.
def build? (v : Json.Value) : Option (Option Run) := do
  match ← v.record? ["id", "finishTime", "reason"] with
  | [id, finished, reason] =>
      let id ← id.bind Json.Value.integer?
      let finished ← Json.Value.nullable? Provider.timestamp? finished
      let reason ← Json.Value.nullable? Json.Value.text? reason
      return finished.map fun t => ⟨⟨id, t⟩, reason == some "pullRequest"⟩
  | _ => none

def readBuilds (r : Http.Response) : Except ProviderError (List Run) :=
  (Provider.readBody (Json.Value.listed? "value" build?) "Invalid build list response" r).map
    (·.filterMap id)

def continuation? (r : Http.Response) : Option String :=
  (r.header? "x-ms-continuationtoken").filter (· ≠ "")

def listError (c : AzureDevOps) : String :=
  "Failed to list builds for " ++ c.organization ++ "/" ++ c.project ++ " definition " ++
    toString c.definition

def askPage (c : AzureDevOps) (server : Http.Server) (sent : List Http.Request) (top : Nat)
    (continuation : Option String) : Answer (List Run × Option String) :=
  match Provider.send server sent (c.listRequest top continuation) "Azure DevOps build listing"
      c.listError with
  | (.error e, sent) => (.error e, sent)
  | (.ok r, sent) => ((readBuilds r).map fun page => (page, continuation? r), sent)

-- Asks for pages until there are enough builds, a page is empty or none follows.
def listFrom (c : AzureDevOps) (server : Http.Server) (max : Nat) (sent : List Http.Request)
    (continuation : Option String) (runs : List Run) : Answer (List Run) :=
  if _more : runs.length < max then
    match c.askPage server sent (max - runs.length) continuation with
    | (.error e, sent) => (.error e, sent)
    | (.ok ([], _), sent) => (.ok (runs.take max), sent)
    | (.ok (page, none), sent) => (.ok ((runs ++ page).take max), sent)
    | (.ok (run :: page, some token), sent) =>
        c.listFrom server max sent (some token) (runs ++ run :: page)
  else (.ok (runs.take max), sent)
termination_by max - runs.length
decreasing_by simp only [List.length_append, List.length_cons]; omega

def runs (c : AzureDevOps) (server : Http.Server) (max : Nat) : Answer (List Run) :=
  c.listFrom server max [] none []

def artifact? (v : Json.Value) : Option Artifact := do
  match ← v.record? ["id", "name"] with
  | [id, name] =>
      return ⟨← Json.Value.nullable? Json.Value.integer? id, ← name.bind Json.Value.text?⟩
  | _ => none

def artifactsRequest (c : AzureDevOps) (run : Run) : Http.Request where
  address := c.artifactsAddress run
  parameters := [apiVersion]
  headers := c.headers

def artifacts (c : AzureDevOps) (server : Http.Server) (run : Run) : Answer (List Artifact) :=
  match Provider.send server [] (c.artifactsRequest run) "Azure DevOps artifact listing"
      ("Failed to list artifacts of build " ++ toString run.attempt.id) with
  | (.error e, sent) => (.error e, sent)
  | (.ok r, sent) =>
      (Provider.readBody (Json.Value.listed? "value" artifact?) "Invalid artifact list response" r,
        sent)

def downloadRequest (c : AzureDevOps) (run : Run) (a : Artifact) : Http.Request where
  address := c.artifactsAddress run
  parameters := [("artifactName", a.name), ("$format", "zip"), apiVersion]
  headers := c.headers

def download (c : AzureDevOps) (server : Http.Server) (run : Run) (a : Artifact) : Answer Bytes :=
  match Provider.send server [] (c.downloadRequest run a) "Azure DevOps artifact download"
      ("Failed to download artifact '" ++ a.name ++ "' of build " ++ toString run.attempt.id) with
  | (.error e, sent) => (.error e, sent)
  | (.ok r, sent) => (.ok r.body, sent)

def provider (c : AzureDevOps) (server : Http.Server) : Provider where
  runs := fun max => .ofExcept (c.runs server max).1
  artifacts := fun _ run => .ofExcept (c.artifacts server run).1
  download := fun _ run a => .ofExcept (c.download server run a).1

end AzureDevOps
end IndexKeeper
