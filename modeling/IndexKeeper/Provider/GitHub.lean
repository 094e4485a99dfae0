import IndexKeeper.Provider.Request

set_option autoImplicit false

namespace IndexKeeper

structure GitHub where
  base : String
  owner : String
  repo : String
  workflowFileName : String
  token : Option String
deriving DecidableEq, Repr

namespace GitHub

open Provider (Answer)

def defaultBase : String := "https://api.github.com"

def pageLimit : Nat := 100

def repoAddress (c : GitHub) : String :=
  Provider.trimSlashes c.base ++ "/repos/" ++ c.owner ++ "/" ++ c.repo

def headers (c : GitHub) : List (String × String) :=
  [("accept", "application/vnd.github+json"), Provider.userAgent,
    ("x-github-api-version", "2022-11-28")] ++ match c.token with
    | none => []
    | some token => [("authorization", "Bearer " ++ token)]

def listRequest (c : GitHub) (perPage page : Nat) : Http.Request where
  address := c.repoAddress ++ "/actions/workflows/" ++ c.workflowFileName ++ "/runs"
  parameters := [("status", "completed"), ("per_page", toString perPage), ("page", toString page)]
  headers := c.headers

def run? (v : Json.Value) : Option Run := do
  match ← v.record? ["id", "event", "updated_at"] with
  | [id, event, updated] =>
      let id ← id.bind Json.Value.integer?
      let event ← event.bind Json.Value.text?
      let updated ← updated.bind Provider.timestamp?
      return ⟨⟨id, updated⟩, "pull_request".toList.isPrefixOf event.toList⟩
  | _ => none

def readRuns : Http.Response → Except ProviderError (List Run) :=
  Provider.readBody (Json.Value.listed? "workflow_runs" run?) "Invalid workflow run list response"

def listError (c : GitHub) : String :=
  "Failed to list runs of " ++ c.owner ++ "/" ++ c.repo ++ " workflow " ++ c.workflowFileName

def askPage (c : GitHub) (server : Http.Server) (sent : List Http.Request) (perPage page : Nat) :
    Answer (List Run) :=
  match Provider.send server sent (c.listRequest perPage page) "GitHub workflow run listing"
      c.listError with
  | (.error e, sent) => (.error e, sent)
  | (.ok r, sent) => (readRuns r, sent)

-- Pages are as large as they need to be, but never empty.
def perPage (max : Nat) : Nat := Nat.max 1 (Nat.min max pageLimit)

theorem per_page_pos (max : Nat) : 0 < perPage max := Nat.le_max_left 1 _

-- Asks for pages until there are enough runs or a page is short.
def listFrom (c : GitHub) (server : Http.Server) (max : Nat) (sent : List Http.Request)
    (page : Nat) (runs : List Run) : Answer (List Run) :=
  if _more : runs.length < max then
    match c.askPage server sent (perPage max) page with
    | (.error e, sent) => (.error e, sent)
    | (.ok batch, sent) =>
        if _short : batch.length < perPage max then (.ok ((runs ++ batch).take max), sent)
        else c.listFrom server max sent (page + 1) (runs ++ batch)
  else (.ok (runs.take max), sent)
termination_by max - runs.length
decreasing_by
  have := per_page_pos max
  simp only [List.length_append]
  omega

def runs (c : GitHub) (server : Http.Server) (max : Nat) : Answer (List Run) :=
  c.listFrom server max [] 1 []

def artifact? (v : Json.Value) : Option (Option Artifact) := do
  match ← v.record? ["id", "name", "expired"] with
  | [id, name, expired] =>
      let id ← id.bind Json.Value.integer?
      let name ← name.bind Json.Value.text?
      let expired ← match expired with
        | none => some false
        | some v => v.boolean?
      return if expired then none else some ⟨some id, name⟩
  | _ => none

def artifactsRequest (c : GitHub) (run : Run) : Http.Request where
  address := c.repoAddress ++ "/actions/runs/" ++ toString run.attempt.id ++ "/artifacts"
  parameters := [("per_page", toString pageLimit)]
  headers := c.headers

def artifacts (c : GitHub) (server : Http.Server) (run : Run) : Answer (List Artifact) :=
  match Provider.send server [] (c.artifactsRequest run) "GitHub artifact listing"
      ("Failed to list artifacts of run " ++ toString run.attempt.id) with
  | (.error e, sent) => (.error e, sent)
  | (.ok r, sent) =>
      ((Provider.readBody (Json.Value.listed? "artifacts" artifact?)
        "Invalid artifact list response" r).map (·.filterMap id), sent)

def downloadRequest (c : GitHub) (id : Int) : Http.Request where
  address := c.repoAddress ++ "/actions/artifacts/" ++ toString id ++ "/zip"
  parameters := []
  headers := c.headers

def download (c : GitHub) (server : Http.Server) (run : Run) (a : Artifact) : Answer Bytes :=
  match a.id with
  | none => (.error (.reported ("Artifact '" ++ a.name ++ "' of run " ++ toString run.attempt.id ++
      " has no id")), [])
  | some id =>
      match Provider.send server [] (c.downloadRequest id) "GitHub artifact download"
          ("Failed to download artifact '" ++ a.name ++ "' of run " ++ toString run.attempt.id) with
      | (.error e, sent) => (.error e, sent)
      | (.ok r, sent) => (.ok r.body, sent)

def provider (c : GitHub) (server : Http.Server) : Provider where
  runs := fun max => .ofExcept (c.runs server max).1
  artifacts := fun _ run => .ofExcept (c.artifacts server run).1
  download := fun _ run a => .ofExcept (c.download server run a).1

end GitHub
end IndexKeeper
