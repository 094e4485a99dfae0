import IndexKeeper.Bytes
import IndexKeeper.Files.Path

set_option autoImplicit false

/-!
A file tree as seen from a working directory: how paths are followed and what each operation finds
or changes. Every directory on the way to an entry is an entry itself; the root always exists.
-/

namespace IndexKeeper

inductive FileError where
  | notFound
  | notDirectory
  | isDirectory
  | exists
  | nameTooLong
  | invalidPath
  | refused
deriving DecidableEq, Repr

inductive Entry where
  | file (bytes : Bytes)
  | directory
deriving DecidableEq, Repr

abbrev Location := List String

structure FileTree where
  entries : List (Location × Entry)
  workingDirectory : Location
deriving Repr

namespace FileTree

def get? (t : FileTree) (l : Location) : Option Entry :=
  if l = [] then some .directory else t.entries.lookup l

def workingPath (t : FileTree) : String := Path.ofSegments true t.workingDirectory

def set (t : FileTree) (l : Location) (e : Entry) : FileTree :=
  { t with entries := (l, e) :: t.entries.filter fun old => old.1 ≠ l }

def erase (t : FileTree) (l : Location) : FileTree :=
  { t with entries := t.entries.filter fun old => !l.isPrefixOf old.1 }

def eraseBelow (t : FileTree) (l : Location) : FileTree :=
  { t with entries := t.entries.filter fun old => !(l.isPrefixOf old.1 && old.1 != l) }

inductive Place where
  | directory (l : Location)
  | named (parent : Location) (name : String) (slash : Bool)
deriving DecidableEq, Repr

def nameLimit : Nat := 255
def pathLimit : Nat := 4095

def enter (t : FileTree) (l : Location) (name : String) : Except FileError Location :=
  if name = "." then .ok l
  else if name = ".." then .ok l.dropLast
  else if nameLimit < name.utf8ByteSize then .error .nameTooLong
  else match t.get? (l ++ [name]) with
    | none => .error .notFound
    | some (.file _) => .error .notDirectory
    | some .directory => .ok (l ++ [name])

def walk (t : FileTree) (slash : Bool) : Location → List String → Except FileError Place
  | l, [] => .ok (.directory l)
  | l, [name] =>
      if name = "." ∨ name = ".." then (t.enter l name).map .directory
      else if nameLimit < name.utf8ByteSize then .error .nameTooLong
      else .ok (.named l name slash)
  | l, name :: rest => (t.enter l name).bind fun l => walk t slash l rest

def locate (t : FileTree) (path : String) : Except FileError Place :=
  if path = "" then .error .notFound
  else if path.toList.contains (Char.ofNat 0) then .error .invalidPath
  else if pathLimit < path.utf8ByteSize then .error .nameTooLong
  else walk t (Path.endsWithSlash path) (if Path.isAbsolute path then [] else t.workingDirectory)
    (Path.segments path)

def find (t : FileTree) (path : String) : Except FileError (Location × Entry) :=
  match t.locate path with
  | .error e => .error e
  | .ok (.directory l) => .ok (l, .directory)
  | .ok (.named parent name slash) =>
      match t.get? (parent ++ [name]) with
      | none => .error .notFound
      | some .directory => .ok (parent ++ [name], .directory)
      | some (.file bytes) =>
          if slash then .error .notDirectory else .ok (parent ++ [name], .file bytes)

def pathExists (t : FileTree) (path : String) : Bool := (t.find path).isOk

def isDirectory (t : FileTree) (path : String) : Bool :=
  match t.find path with
  | .ok (_, .directory) => true
  | _ => false

def read (t : FileTree) (path : String) : Except FileError Bytes :=
  match t.find path with
  | .error e => .error e
  | .ok (_, .directory) => .error .isDirectory
  | .ok (_, .file bytes) => .ok bytes

def children (t : FileTree) (l : Location) : List (String × Entry) :=
  t.entries.filterMap fun (key, e) =>
    if key.dropLast = l then key.getLast?.map fun name => (name, e) else none

def readDirectory (t : FileTree) (path : String) : Except FileError (List (String × Entry)) :=
  match t.find path with
  | .error e => .error e
  | .ok (l, .directory) => .ok (t.children l)
  | .ok (_, .file _) => .error .notDirectory

def fileLocation (t : FileTree) (path : String) : Except FileError Location :=
  match t.locate path with
  | .error e => .error e
  | .ok (.directory _) => .error .isDirectory
  | .ok (.named parent name slash) =>
      if slash ∨ t.get? (parent ++ [name]) = some .directory then .error .isDirectory
      else .ok (parent ++ [name])

def write (t : FileTree) (path : String) (bytes : Bytes) : Except FileError FileTree :=
  (t.fileLocation path).map fun l => t.set l (.file bytes)

def append (t : FileTree) (path : String) (bytes : Bytes) : Except FileError FileTree :=
  (t.fileLocation path).map fun l =>
    match t.get? l with
    | some (.file old) => t.set l (.file (old ++ bytes))
    | _ => t.set l (.file bytes)

def rename (t : FileTree) (source target : String) : Except FileError FileTree :=
  match t.find source with
  | .error e => .error e
  | .ok (_, .directory) => .error .isDirectory
  | .ok (l, .file bytes) => (t.fileLocation target).map fun l' => (t.erase l).set l' (.file bytes)

def makeDirectory (t : FileTree) (path : String) : Except FileError FileTree :=
  match t.locate path with
  | .error e => .error e
  | .ok (.directory _) => .error .exists
  | .ok (.named parent name _) =>
      match t.get? (parent ++ [name]) with
      | some _ => .error .exists
      | none => .ok (t.set (parent ++ [name]) .directory)

def makeAll (t : FileTree) : List String → Except FileError Unit × FileTree
  | [] => (.error .notFound, t)
  | path :: outer =>
      if path = "" then (.ok (), t)
      else match t.makeDirectory path with
        | .ok t => (.ok (), t)
        | .error .notFound =>
            match t.makeAll outer with
            | (.error e, t) => (.error e, t)
            | (.ok (), t) => match t.makeDirectory path with
                | .ok t => (.ok (), t)
                | .error e => (if t.isDirectory path then .ok () else .error e, t)
        | .error e => (if t.isDirectory path then .ok () else .error e, t)

def makeDirectories (t : FileTree) (path : String) : Except FileError Unit × FileTree :=
  t.makeAll (path :: Path.ancestors path)

-- Removes a directory with all its contents. One named by a dot loses its contents only.
def removeDirectory (t : FileTree) (path : String) : Except FileError Unit × FileTree :=
  match t.locate path with
  | .error e => (.error e, t)
  | .ok (.directory l) => (.error .invalidPath, t.eraseBelow l)
  | .ok (.named parent name _) =>
      match t.get? (parent ++ [name]) with
      | none => (.error .notFound, t)
      | some (.file _) => (.error .notDirectory, t)
      | some .directory => (.ok (), t.erase (parent ++ [name]))

def removeFile (t : FileTree) (path : String) : Except FileError FileTree :=
  match t.find path with
  | .error e => .error e
  | .ok (_, .directory) => .error .isDirectory
  | .ok (l, .file _) => .ok (t.erase l)

def below (t : FileTree) (l : Location) : List String :=
  t.entries.filterMap fun (key, e) =>
    if l.isPrefixOf key && key != l then
      some ("/".intercalate (key.drop l.length) ++ if e = .directory then "/" else "")
    else none

end FileTree
end IndexKeeper
