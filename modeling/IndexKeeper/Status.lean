import IndexKeeper.Coordinator
import IndexKeeper.Json.Printer
import IndexKeeper.Publisher
import IndexKeeper.RequestPath
import IndexKeeper.Text.Percent

set_option autoImplicit false

namespace IndexKeeper

def version : String := "0.1.0"

namespace Status

structure Request where
  method : String
  target : String
deriving DecidableEq, Repr

inductive Body where
  | empty
  | text (s : String)
  | json (v : Json.Value)
deriving Repr

structure Response where
  status : Nat
  headers : List (String × String)
  body : Body
deriving Repr

def Body.render : Body → String
  | .empty => ""
  | .text s => s
  | .json v => Json.compact v

inductive Route where
  | health
  | sources
  | index
  | resolve (path : Option String)
deriving DecidableEq, Repr

structure View where
  statuses : List SourceStatus
  index : Option String

def View.of (sources : List Source) (c : Coordinator) (p : Publisher) : View :=
  ⟨c.statuses sources, p.current⟩

def pathOf (target : String) : String :=
  String.ofList (target.toList.takeWhile fun c => c ≠ '?' && c ≠ '#')

def resolvePrefix : List Char := "/resolve/".toList

def route? (path : String) : Option Route :=
  if path = "/health" then some .health
  else if path = "/sources" then some .sources
  else if path = "/index" then some .index
  else if path = "/resolve" then some (.resolve none)
  else
    let chars := path.toList
    if resolvePrefix.isPrefixOf chars ∧ resolvePrefix.length < chars.length then
      some (.resolve (some (String.ofList (chars.drop resolvePrefix.length))))
    else none

def anyOrigin : String × String := ("access-control-allow-origin", "*")

def anyRequest : List (String × String) := [
  anyOrigin, ("access-control-allow-methods", "*"), ("access-control-allow-headers", "*")]

def allowed : String × String := ("allow", "GET,HEAD")

def jsonResponse (status : Nat) (v : Json.Value) : Response :=
  ⟨status, [anyOrigin, ("content-type", "application/json")], .json v⟩

def textResponse (status : Nat) (s : String) : Response :=
  ⟨status, [anyOrigin, ("content-type", "text/plain; charset=utf-8")], .text s⟩

def sourceValue (s : SourceStatus) : Json.Value :=
  .ofFields [("name", .text s.name), ("kind", .text s.kind), ("version_key", .ofText? s.versionKey)]

def notFound (message : String) : Response :=
  jsonResponse 404 (.ofFields [
    ("error", .ofFields [("code", .text "not_found"), ("message", .text message)])])

def resolved (v : View) (path : String) : Response :=
  match RequestPath.resolve v.index path with
  | some path => jsonResponse 200 (.ofFields [("path", .text path)])
  | none => notFound "no index has been published"

def get (v : View) : Route → Response
  | .health => jsonResponse 200 (.ofFields [("status", .text "ok"), ("version", .text version)])
  | .sources =>
      jsonResponse 200 (.ofFields [("sources", .array (v.statuses.map sourceValue))])
  | .index => jsonResponse 200 (.ofFields [("index", .ofText? v.index)])
  | .resolve none => resolved v "/"
  | .resolve (some escaped) =>
      match (Text.percentDecode (Bytes.ofText escaped)).toText? with
      | some path => resolved v ("/" ++ path)
      | none => textResponse 400 "Invalid URL: Invalid UTF-8 in \x60path\x60"

def respond (v : View) (r : Request) : Response :=
  let route := route? (pathOf r.target)
  if r.method = "OPTIONS" then
    ⟨200, anyRequest ++ (if route.isSome then [allowed] else []), .empty⟩
  else match route with
    | none => ⟨404, [anyOrigin], .empty⟩
    | some route =>
        if r.method = "GET" then get v route
        else if r.method = "HEAD" then { get v route with body := .empty }
        else ⟨405, [anyOrigin, allowed], .empty⟩

end Status
end IndexKeeper
