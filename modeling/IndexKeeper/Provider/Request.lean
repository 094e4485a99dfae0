import IndexKeeper.Http.Exchange
import IndexKeeper.Json.Reader
import IndexKeeper.Json.Record
import IndexKeeper.Provider
import IndexKeeper.Time.Timestamp

set_option autoImplicit false

namespace IndexKeeper.Provider

abbrev Answer (α : Type) := Except ProviderError α × List Http.Request

def userAgent : String × String := ("user-agent", "complog-index/0.1.0")

def shownLength : Nat := 500

def refusal (operation : String) (r : Http.Response) : ProviderError :=
  .reported (operation ++ " failed (HTTP " ++ Http.describeStatus r.status ++ "): " ++
    String.ofList (r.text.toList.take shownLength))

def send (server : Http.Server) (sent : List Http.Request) (r : Http.Request)
    (operation unsent : String) : Answer Http.Response :=
  match Http.ask server sent r with
  | (none, sent) => (.error (.reported unsent), sent)
  | (some response, sent) =>
      if response.isSuccess then (.ok response, sent)
      else (.error (refusal operation response), sent)

def readBody {α : Type} (read : Json.Value → Option α) (invalid : String) (r : Http.Response) :
    Except ProviderError α :=
  match (Json.parse? r.text).bind read with
  | some value => .ok value
  | none => .error (.reported invalid)

def timestamp? (v : Json.Value) : Option Instant := v.text?.bind Timestamp.parse?

def trimSlashes (base : String) : String :=
  String.ofList ((base.toList.reverse.dropWhile (· = '/')).reverse)

end IndexKeeper.Provider
