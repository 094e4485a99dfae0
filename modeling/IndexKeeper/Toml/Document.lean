import IndexKeeper.Toml.Scalar

set_option autoImplicit false

namespace IndexKeeper.Toml

def depthLimit : Nat := 80

def isBareKey (c : Char) : Bool := c.isAlphanum || c == '_' || c == '-'

def simpleKey? (text : List Char) : Option (String × List Char) :=
  match text with
  | '"' :: rest => basicBody (rest.length + 1) [] rest
  | '\'' :: rest => literalBody rest
  | _ =>
      let key := text.takeWhile isBareKey
      if key.isEmpty then none else some (String.ofList key, text.drop key.length)

def keyPath : Nat → Reader (List String)
  | 0, _ => none
  | fuel + 1, text =>
      match simpleKey? (skipSpaces text) with
      | none => none
      | some (key, rest) =>
          match skipSpaces rest with
          | '.' :: rest => (keyPath fuel rest).map fun (keys, rest) => (key :: keys, rest)
          | rest => some ([key], rest)

def keyPath? (text : List Char) : Option (List String × List Char) :=
  match keyPath (text.length + 1) text with
  | some (keys, rest) => if keys.length < depthLimit then some (keys, rest) else none
  | none => none

def assignment? (keys : List String) (value : Value) : Option Fields.Assignment :=
  keys.getLast?.map fun key => ⟨keys.dropLast, key, value⟩

mutual
def value? (depth : Nat) : Nat → Reader Value
  | 0, _ => none
  | fuel + 1, text =>
      match text with
      | '[' :: rest =>
          if depth + 1 < depthLimit then
            (items? (depth + 1) fuel rest).map fun (items, rest) => (.array items, rest)
          else none
      | '\x7b' :: rest =>
          if depth + 1 < depthLimit then
            match fields? (depth + 1) fuel rest with
            | none => none
            | some (assignments, rest) =>
                (Fields.assign? [] assignments).map fun fields => (.table .inline fields, rest)
          else none
      | _ => scalar? text
def items? (depth : Nat) : Nat → Reader (List Value)
  | 0, _ => none
  | fuel + 1, text =>
      match skipLayout text with
      | ']' :: rest => some ([], rest)
      | text =>
          match value? depth fuel text with
          | none => none
          | some (v, rest) =>
              match skipLayout rest with
              | ',' :: rest => (items? depth fuel rest).map fun (vs, rest) => (v :: vs, rest)
              | ']' :: rest => some ([v], rest)
              | _ => none
def fields? (depth : Nat) : Nat → Reader (List Fields.Assignment)
  | 0, _ => none
  | fuel + 1, text =>
      match skipSpaces text with
      | '\x7d' :: rest => some ([], rest)
      | text => moreFields? depth fuel text
def moreFields? (depth : Nat) : Nat → Reader (List Fields.Assignment)
  | 0, _ => none
  | fuel + 1, text =>
      match keyPath? text with
      | some (keys, '=' :: rest) =>
          match value? depth fuel (skipSpaces rest) with
          | none => none
          | some (v, rest) =>
              match assignment? keys v, skipSpaces rest with
              | some a, ',' :: rest =>
                  (moreFields? depth fuel rest).map fun (as, rest) => (a :: as, rest)
              | some a, '\x7d' :: rest => some ([a], rest)
              | _, _ => none
      | _ => none
end

structure Section where
  path : List String
  repeated : Bool
  body : List Fields.Assignment

def lineEnd? (text : List Char) : Option (List Char) :=
  let rest := skipComment (skipSpaces text)
  if rest.isEmpty then some [] else newline? rest

def header? : Reader (List String × Bool)
  | '[' :: '[' :: text =>
      match keyPath? text with
      | some (keys, ']' :: ']' :: rest) => (lineEnd? rest).map fun rest => ((keys, true), rest)
      | _ => none
  | '[' :: text =>
      match keyPath? text with
      | some (keys, ']' :: rest) => (lineEnd? rest).map fun rest => ((keys, false), rest)
      | _ => none
  | _ => none

def keyValue? (text : List Char) : Option (Fields.Assignment × List Char) :=
  match keyPath? text with
  | some (keys, '=' :: rest) =>
      match value? 0 (2 * rest.length + 2) (skipSpaces rest) with
      | none => none
      | some (v, rest) =>
          match assignment? keys v, lineEnd? rest with
          | some a, some rest => some (a, rest)
          | _, _ => none
  | _ => none

def sections (current : Section) : Nat → List Char → Option (List Section)
  | 0, _ => none
  | fuel + 1, text =>
      let done : Section := { current with body := current.body.reverse }
      match skipLayout text with
      | [] => some [done]
      | '[' :: rest =>
          match header? ('[' :: rest) with
          | none => none
          | some ((path, repeated), rest) =>
              (sections ⟨path, repeated, []⟩ fuel rest).map (done :: ·)
      | text =>
          match keyValue? text with
          | none => none
          | some (a, rest) => sections { current with body := a :: current.body } fuel rest

def addSection? (fields : Fields) (s : Section) : Option Fields :=
  match s.path.getLast? with
  | none => Fields.assign? fields s.body
  | some name =>
      let change := if s.repeated then Fields.appendTable? name s.body
        else Fields.openTable? name s.body
      Fields.modify? change s.path.dropLast fields

def parse? (document : String) : Option Fields :=
  let text := match document.toList with
    | c :: rest => if c.toNat = 0xfeff then rest else c :: rest
    | [] => []
  match sections ⟨[], false, []⟩ (text.length + 1) text with
  | none => none
  | some parts => parts.foldlM addSection? []

end IndexKeeper.Toml
