import IndexKeeper.Store

set_option autoImplicit false

namespace IndexKeeper

structure Publisher where
  store : Store
  current : Option String
deriving DecidableEq, Repr

namespace Publisher

def start (store : Store) (d : Disk) : Except StoreError Publisher × Disk :=
  match store.readMarker d.files with
  | .error e => (.error e, d)
  | .ok current =>
      match store.orphans d.files current with
      | .error e => (.error e, d)
      | .ok orphans => (.ok ⟨store, current⟩, orphans.foldl Disk.giveUp d)

-- Only a directory with a manifest can be published: the manifest is written last.
def ready (p : Publisher) (t : FileTree) (index : String) : Except StoreError Unit :=
  let dir := p.store.indexDir index
  if !t.isDirectory dir then .error (.missingIndex dir)
  else match p.store.readManifest t index with
    | .error e => .error e
    | .ok none => .error (.incompleteIndex dir)
    | .ok (some _) => .ok ()

def swap (p : Publisher) (d : Disk) (index : String) : Publisher × Disk :=
  let next := { p with current := some index }
  match p.current with
  | none => (next, d)
  | some old => if old = index then (next, d) else (next, d.giveUp (p.store.indexDir old))

def publish (p : Publisher) (d : Disk) (index : String) : Except StoreError Unit × Publisher × Disk :=
  match p.ready d.files index with
  | .error e => (.error e, p, d)
  | .ok () =>
      match p.store.writeMarker d index with
      | (.error e, d) => (.error e, p, d)
      | (.ok (), d) => (.ok (), p.swap d index)

end Publisher
end IndexKeeper
