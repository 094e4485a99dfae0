import IndexKeeper.Files.Disk
import IndexKeeper.Manifest
import IndexKeeper.Text.Blank

set_option autoImplicit false

/-!
The content store: where artifacts, version keys and generated indexes lie below a root directory.

    source/<name>/build.complog      the newest artifact of a source
    source/<name>/version            the version key of that artifact
    index/<index>/                   a generated index
    index/<index>/.complog-index.json    the manifest, written last
    index/current                    the name of the published index

Every file is written beside its place and then moved there, so that a reader sees the old contents
or the new ones and never a part.
-/

namespace IndexKeeper

inductive StoreError where
  | noDirectory (path : String)
  | noSourceDirectory (path : String)
  | unwritable (path : String)
  | unmovable (path : String)
  | unreadable (path : String)
  | badManifest (path : String)
  | unremovable (path : String)
  | missingIndex (path : String)
  | incompleteIndex (path : String)
deriving DecidableEq, Repr

def StoreError.message : StoreError → String
  | .noDirectory path => "Failed to create directory: " ++ path
  | .noSourceDirectory path => "Failed to create source directory: " ++ path
  | .unwritable path => "Failed to write " ++ path
  | .unmovable path => "Failed to move " ++ path ++ " into place"
  | .unreadable path => "Failed to read " ++ path
  | .badManifest path => "Invalid index manifest: " ++ path
  | .unremovable path => "Failed to remove index directory: " ++ path
  | .missingIndex path => "Generated index directory does not exist: " ++ path
  | .incompleteIndex path => "Generated index is incomplete (no manifest): " ++ path

structure StoredArtifact where
  source : String
  versionKey : String
  path : String
deriving DecidableEq, Repr

structure Store where
  root : String
deriving DecidableEq, Repr

namespace Store

abbrev Work := List (Step × StoreError)

def sourceRoot (s : Store) : String := Path.join s.root "source"

def indexRoot (s : Store) : String := Path.join s.root "index"

def sourceDir (s : Store) (source : String) : String := Path.join s.sourceRoot source

def artifactPath (s : Store) (source : String) : String :=
  Path.join (s.sourceDir source) "build.complog"

def versionPath (s : Store) (source : String) : String := Path.join (s.sourceDir source) "version"

def indexDir (s : Store) (index : String) : String := Path.join s.indexRoot index

def manifestPath (s : Store) (index : String) : String :=
  Path.join (s.indexDir index) ".complog-index.json"

def markerPath (s : Store) : String := Path.join s.indexRoot "current"

def openWork (s : Store) : Work := [
  (.makeDirectories s.sourceRoot, .noDirectory s.sourceRoot),
  (.makeDirectories s.indexRoot, .noDirectory s.indexRoot)]

def init (s : Store) (d : Disk) : Except StoreError Unit × Disk := d.performAll s.openWork

def temporary (path : String) : String := path ++ ".tmp"

def replaceWork (path : String) (bytes : Bytes) : Work := [
  (.write (temporary path) bytes, .unwritable (temporary path)),
  (.rename (temporary path) path, .unmovable path)]

-- The artifact comes before its key: cut off in between, the old key stays, and the source is ingested again.
def artifactWork (s : Store) (source key : String) (bytes : Bytes) : Work :=
  (.makeDirectories (s.sourceDir source), .noSourceDirectory (s.sourceDir source)) ::
    (replaceWork (s.artifactPath source) bytes ++
      replaceWork (s.versionPath source) (Bytes.ofText key))

def writeArtifact (s : Store) (d : Disk) (source key : String) (bytes : Bytes) :
    Except StoreError Unit × Disk := d.performAll (s.artifactWork source key bytes)

def writeMarker (s : Store) (d : Disk) (index : String) : Except StoreError Unit × Disk :=
  d.performAll (replaceWork s.markerPath (Bytes.ofText index))

def writeManifest (s : Store) (d : Disk) (index : String) (keys : VersionKeys) :
    Except StoreError Unit × Disk :=
  d.performAll (replaceWork (s.manifestPath index) (Manifest.render keys))

def removeIndexDir (d : Disk) (path : String) : Except StoreError Unit × Disk :=
  d.performAll [(.removeDirectory path, .unremovable path)]

def readBytes (t : FileTree) (path : String) : Except StoreError (Option Bytes) :=
  match t.read path with
  | .ok bytes => .ok (some bytes)
  | .error .notFound => .ok none
  | .error _ => .error (.unreadable path)

def readTrimmed (t : FileTree) (path : String) : Except StoreError (Option String) :=
  match readBytes t path with
  | .error e => .error e
  | .ok none => .ok none
  | .ok (some bytes) => match bytes.toText? with
      | none => .error (.unreadable path)
      | some text => .ok (if Text.allBlank text then none else some (Text.trim text))

def readVersionKey (s : Store) (t : FileTree) (source : String) :
    Except StoreError (Option String) := readTrimmed t (s.versionPath source)

def directoryNames (t : FileTree) (path : String) : Except StoreError (List String) :=
  match t.readDirectory path with
  | .error _ => .error (.unreadable path)
  | .ok children =>
      .ok ((children.filterMap fun (name, e) => if e = .directory then some name else none).mergeSort
        fun a b => !decide (b < a))

def stored? (s : Store) (t : FileTree) (source : String) :
    Except StoreError (Option StoredArtifact) :=
  if t.pathExists (s.artifactPath source) then
    (s.readVersionKey t source).map fun key =>
      key.map fun key => ⟨source, key, s.artifactPath source⟩
  else .ok none

-- All sources stored, in order. One key that cannot be read spoils the list.
def listStored (s : Store) (t : FileTree) : Except StoreError (List StoredArtifact) :=
  (directoryNames t s.sourceRoot).bind fun names =>
    (names.mapM (s.stored? t)).map fun found => found.filterMap id

def readMarker (s : Store) (t : FileTree) : Except StoreError (Option String) :=
  (readTrimmed t s.markerPath).map fun name =>
    name.filter fun name => t.isDirectory (s.indexDir name)

def readManifest (s : Store) (t : FileTree) (index : String) :
    Except StoreError (Option VersionKeys) :=
  match readBytes t (s.manifestPath index) with
  | .error e => .error e
  | .ok none => .ok none
  | .ok (some bytes) => match Manifest.parse? bytes with
      | none => .error (.badManifest (s.manifestPath index))
      | some keys => .ok (some keys)

def orphans (s : Store) (t : FileTree) (keep : Option String) : Except StoreError (List String) :=
  (directoryNames t s.indexRoot).map fun names =>
    (names.filter fun name => some name ≠ keep).map s.indexDir

end Store
end IndexKeeper
