import IndexKeeper.Http.Url
import IndexKeeper.Text.Utf8

set_option autoImplicit false

namespace IndexKeeper.Http

structure Request where
  address : String
  parameters : List (String × String)
  headers : List (String × String)
deriving DecidableEq, Repr

structure Response where
  status : Nat
  headers : List (String × Bytes)
  body : Bytes
deriving DecidableEq, Repr

-- What a server answers, given the requests it had before; none if it cannot be reached.
abbrev Server := List Request → Request → Option Response

def unreachable : Server := fun _ _ => none

def Request.url? (r : Request) : Option Url :=
  (Url.parse? none r.address).map (·.withParameters r.parameters)

def validHeader (value : String) : Bool :=
  value.toList.all fun c => !Url.isControl c || c == '\t'

def Request.sendable (r : Request) : Bool :=
  r.url?.isSome && r.headers.all fun (_, value) => validHeader value

def Response.isSuccess (r : Response) : Bool := decide (200 ≤ r.status ∧ r.status < 300)

def Response.header? (r : Response) (name : String) : Option String :=
  (r.headers.lookup name).bind fun value =>
    if value.all fun byte => (0x20 ≤ byte && byte < 0x7f) || byte == 9 then value.toText? else none

def Response.text (r : Response) : String := Utf8.decodeLossy r.body

def Response.redirection? (r : Response) (u : Url) : Option Url :=
  if [301, 302, 303, 307, 308].contains r.status then
    (r.headers.lookup "location").bind fun value => value.toText?.bind fun text => Url.parse? (some u) text
  else none

def Url.render (u : Url) : String :=
  (if u.secure then "https://" else "http://") ++ u.host ++
    (match u.port with | none => "" | some port => ":" ++ toString port) ++ u.target

-- The request that a redirection leads to. Another host is told nothing secret.
def Request.redirected (r : Request) (here there : Url) : Request where
  address := there.render
  parameters := []
  headers := if here.sameHost there then r.headers
    else r.headers.filter fun (name, _) => name ≠ "authorization"

def redirectLimit : Nat := 10

def follow (server : Server) : Nat → List Request → Request → Option Response × List Request
  | fuel, sent, r =>
      if !r.sendable then (none, sent)
      else match server sent r with
        | none => (none, sent)
        | some response =>
            match r.url?.bind fun u => (response.redirection? u).map (u, ·) with
            | none => (some response, sent ++ [r])
            | some (here, there) => match fuel with
                | 0 => (none, sent ++ [r])
                | fuel + 1 => follow server fuel (sent ++ [r]) (r.redirected here there)

def ask (server : Server) (sent : List Request) (r : Request) : Option Response × List Request :=
  follow server redirectLimit sent r

def reasons : List (Nat × String) := [
  (100, "Continue"), (101, "Switching Protocols"), (102, "Processing"), (200, "OK"),
  (201, "Created"), (202, "Accepted"), (203, "Non Authoritative Information"),
  (204, "No Content"), (205, "Reset Content"), (206, "Partial Content"), (207, "Multi-Status"),
  (208, "Already Reported"), (226, "IM Used"), (300, "Multiple Choices"),
  (301, "Moved Permanently"), (302, "Found"), (303, "See Other"), (304, "Not Modified"),
  (305, "Use Proxy"), (307, "Temporary Redirect"), (308, "Permanent Redirect"),
  (400, "Bad Request"), (401, "Unauthorized"), (402, "Payment Required"), (403, "Forbidden"),
  (404, "Not Found"), (405, "Method Not Allowed"), (406, "Not Acceptable"),
  (407, "Proxy Authentication Required"), (408, "Request Timeout"), (409, "Conflict"),
  (410, "Gone"), (411, "Length Required"), (412, "Precondition Failed"),
  (413, "Payload Too Large"), (414, "URI Too Long"), (415, "Unsupported Media Type"),
  (416, "Range Not Satisfiable"), (417, "Expectation Failed"), (418, "I'm a teapot"),
  (421, "Misdirected Request"), (422, "Unprocessable Entity"), (423, "Locked"),
  (424, "Failed Dependency"), (425, "Too Early"), (426, "Upgrade Required"),
  (428, "Precondition Required"), (429, "Too Many Requests"),
  (431, "Request Header Fields Too Large"), (451, "Unavailable For Legal Reasons"),
  (500, "Internal Server Error"), (501, "Not Implemented"), (502, "Bad Gateway"),
  (503, "Service Unavailable"), (504, "Gateway Timeout"), (505, "HTTP Version Not Supported"),
  (506, "Variant Also Negotiates"), (507, "Insufficient Storage"), (508, "Loop Detected"),
  (510, "Not Extended"), (511, "Network Authentication Required")]

def describeStatus (status : Nat) : String :=
  toString status ++ " " ++ (reasons.lookup status).getD "<unknown status code>"

end IndexKeeper.Http
