import IndexKeeper.Http.Exchange
import IndexKeeper.Status

set_option autoImplicit false

namespace IndexKeeper.Status

def Request.parse? (head : String) : Option Request :=
  match ((head.splitOn "\r\n").headD "").splitOn " " with
  | [method, target, _] => some ⟨method, target⟩
  | _ => none

def crlf : String := "\r\n"

def headerLine (header : String × String) : String := header.1 ++ ": " ++ header.2 ++ crlf

def Response.render (r : Response) : String :=
  let body := r.body.render
  "HTTP/1.1 " ++ Http.describeStatus r.status ++ crlf ++
    String.join ((r.headers ++ [("content-length", toString body.utf8ByteSize),
      ("connection", "close")]).map headerLine) ++ crlf ++ body

def reply (v : View) (head : String) : String :=
  (match Request.parse? head with
    | some r => respond v r
    | none => ⟨400, [anyOrigin], .empty⟩).render

end IndexKeeper.Status
