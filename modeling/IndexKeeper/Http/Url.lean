import IndexKeeper.Text.Percent

set_option autoImplicit false

namespace IndexKeeper.Http

structure Url where
  secure : Bool
  host : String
  port : Option Nat
  path : List String
  query : Option String
deriving DecidableEq, Repr

namespace Url

def isControl (c : Char) : Bool := c.toNat < 0x20 || c == Char.ofNat 0x7f

def cleaned (text : String) : List Char :=
  let blank (c : Char) : Bool := c.toNat ≤ 0x20
  let inner := ((text.toList.dropWhile blank).reverse.dropWhile blank).reverse
  inner.filter fun c => c ≠ '\t' && c ≠ '\n' && c ≠ '\r'

def isSlash (c : Char) : Bool := c == '/' || c == '\\'

def keptInPath (c : Char) : Bool :=
  decide (0x20 < c.toNat) && decide (c.toNat < 0x7f) && !("\"#<>?\x60\x7b\x7d".toList.contains c)

def keptInQuery (c : Char) : Bool :=
  decide (0x20 < c.toNat) && decide (c.toNat < 0x7f) && !("\"#<>'".toList.contains c)

def escapedText (keep : Char → Bool) (text : List Char) : String :=
  String.ofList (Text.percentEncode keep (Bytes.ofText (String.ofList text)))

def splitPath : List Char → List (List Char)
  | [] => [[]]
  | c :: rest =>
      match splitPath rest with
      | [] => [[c]]
      | part :: parts => if isSlash c then [] :: part :: parts else (c :: part) :: parts

def dots (segment : List Char) : String :=
  (String.ofList segment).toLower.replace "%2e" "."

def addSegments (base : List String) : List (List Char) → List String
  | [] => base
  | segment :: rest =>
      let last := rest.isEmpty
      if dots segment = ".." then
        addSegments (if last then base.dropLast ++ [""] else base.dropLast) rest
      else if dots segment = "." then addSegments (if last then base ++ [""] else base) rest
      else addSegments (base ++ [escapedText keptInPath segment]) rest

def splitTail (text : List Char) : List Char × Option (List Char) :=
  let text := text.takeWhile (· ≠ '#')
  let path := text.takeWhile (· ≠ '?')
  match text.drop path.length with
  | [] => (path, none)
  | _ :: query => (path, some query)

def withTail (u : Url) (base : List String) (path : List Char) (query : Option (List Char)) : Url :=
  { u with path := addSegments base (splitPath path), query := query.map (escapedText keptInQuery) }

def isHostChar (c : Char) : Bool :=
  decide (0x20 < c.toNat) && decide (c.toNat < 0x7f) &&
    !("#/:<>?@[\\]^|%".toList.contains c)

def authority? (secure : Bool) (text : List Char) : Option (String × Option Nat) :=
  let afterUser := (text.reverse.takeWhile (· ≠ '@')).reverse
  let (host, rest) :=
    if afterUser.head? = some '[' then
      let inner := afterUser.takeWhile (· ≠ ']')
      (inner ++ [']'], afterUser.drop (inner.length + 1))
    else
      let host := afterUser.takeWhile (· ≠ ':')
      (host, afterUser.drop host.length)
  let fine := if afterUser.head? = some '[' then afterUser.contains ']' else host.all isHostChar
  if host.isEmpty ∨ !fine then none
  else
    let name := String.ofList (host.map Char.toLower)
    match rest with
    | [] => some (name, none)
    | ':' :: digits =>
        let port := digits.foldl (fun n c => 10 * n + (c.toNat - 48)) 0
        if digits.isEmpty then some (name, none)
        else if !digits.all Char.isDigit ∨ 65535 < port then none
        else some (name, if port = (if secure then 443 else 80) then none else some port)
    | _ => none

def afterScheme? (secure : Bool) (text : List Char) : Option Url :=
  let text := text.dropWhile isSlash
  let host := text.takeWhile fun c => !isSlash c && c != '?' && c != '#'
  (authority? secure host).map fun (name, port) =>
    let (path, query) := splitTail (text.drop host.length)
    withTail ⟨secure, name, port, [], none⟩ [] (path.drop 1) query

def scheme? (text : List Char) : Option (String × List Char) :=
  let name := text.takeWhile fun c => c.isAlphanum || c == '+' || c == '-' || c == '.'
  match name, text.drop name.length with
  | c :: _, ':' :: rest =>
      if c.isAlpha then some ((String.ofList name).toLower, rest) else none
  | _, _ => none

def parse? (base : Option Url) (text : String) : Option Url :=
  let text := cleaned text
  match scheme? text with
  | some ("http", rest) => afterScheme? false rest
  | some ("https", rest) => afterScheme? true rest
  | some _ => none
  | none =>
      base.bind fun u =>
        let (path, query) := splitTail text
        match path with
        | a :: b :: _ =>
            if isSlash a ∧ isSlash b then afterScheme? u.secure text
            else if isSlash a then some (withTail u [] (path.drop 1) query)
            else some (withTail u u.path.dropLast path query)
        | [a] =>
            if isSlash a then some (withTail u [] [] query)
            else some (withTail u u.path.dropLast path query)
        | [] =>
            match query with
            | some query => some { u with query := some (escapedText keptInQuery query) }
            | none => some u

def keptInForm (c : Char) : Bool :=
  c.isAlphanum || c == '*' || c == '-' || c == '.' || c == '_' || c == ' '

def formEncoded (text : String) : String :=
  String.ofList ((Text.percentEncode keptInForm (Bytes.ofText text)).map fun c =>
    if c = ' ' then '+' else c)

def withParameters (u : Url) (parameters : List (String × String)) : Url :=
  if parameters.isEmpty then u
  else
    let added := "&".intercalate (parameters.map fun (name, value) =>
      formEncoded name ++ "=" ++ formEncoded value)
    { u with query := some (match u.query with
        | none => added
        | some "" => added
        | some query => query ++ "&" ++ added) }

def target (u : Url) : String :=
  "/" ++ "/".intercalate u.path ++ match u.query with
    | none => ""
    | some query => "?" ++ query

def sameHost (a b : Url) : Bool := a.host == b.host && a.port == b.port && a.secure == b.secure

end Url
end IndexKeeper.Http
