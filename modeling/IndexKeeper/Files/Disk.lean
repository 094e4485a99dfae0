import IndexKeeper.Files.Tree

set_option autoImplicit false

/-!
A file tree that is changed step by step, together with what may go wrong between the steps: a step
may be refused, a write may stop half way, and directories that were given up are removed at some
later moment. Without such fates every step works and nothing is removed until `settle`.
-/

namespace IndexKeeper

inductive Fate where
  | works
  | refused
  -- A write fails after the first `kept` bytes; any other step is refused.
  | torn (kept : Nat)
  -- Before the step, one of the directories given up is removed.
  | reclaims (which : Nat)
deriving DecidableEq, Repr

structure Disk where
  files : FileTree
  doomed : List String
  fates : List Fate
deriving Repr

-- A change of the files: what it comes to, and what it leaves when it is cut off.
structure Step where
  apply : FileTree → Except FileError Unit × FileTree
  cutOff : Nat → FileTree → FileTree

namespace Step

def whole (apply : FileTree → Except FileError Unit × FileTree) : Step := ⟨apply, fun _ t => t⟩

def total (change : FileTree → Except FileError FileTree) (t : FileTree) :
    Except FileError Unit × FileTree :=
  match change t with
  | .ok t => (.ok (), t)
  | .error e => (.error e, t)

def write (path : String) (bytes : Bytes) : Step where
  apply := total fun t => t.write path bytes
  cutOff := fun kept t => (total (fun t => t.write path (bytes.take kept)) t).2

def rename (source target : String) : Step := whole (total fun t => t.rename source target)

def makeDirectories (path : String) : Step := whole fun t => t.makeDirectories path

def removeDirectory (path : String) : Step := whole fun t => t.removeDirectory path

end Step

namespace Disk

def reclaim (d : Disk) (which : Nat) : Disk :=
  match d.doomed[which]? with
  | none => d
  | some path =>
      { d with files := (d.files.removeDirectory path).2, doomed := d.doomed.eraseIdx which }

def settle (d : Disk) : Disk :=
  { d with files := d.doomed.foldl (fun t path => (t.removeDirectory path).2) d.files, doomed := [] }

inductive Grant where
  | all
  | nothing
  | part (kept : Nat)
deriving DecidableEq, Repr

def grantFrom (d : Disk) : List Fate → Grant × Disk
  | [] => (.all, { d with fates := [] })
  | .works :: fates => (.all, { d with fates })
  | .refused :: fates => (.nothing, { d with fates })
  | .torn kept :: fates => (.part kept, { d with fates })
  | .reclaims which :: fates => grantFrom (d.reclaim which) fates

def grant (d : Disk) : Grant × Disk := d.grantFrom d.fates

def perform (d : Disk) (s : Step) : Except FileError Unit × Disk :=
  match d.grant with
  | (.all, d) => ((s.apply d.files).1, { d with files := (s.apply d.files).2 })
  | (.nothing, d) => (.error .refused, d)
  | (.part kept, d) => (.error .refused, { d with files := s.cutOff kept d.files })

def performAll {ε : Type} (d : Disk) : List (Step × ε) → Except ε Unit × Disk
  | [] => (.ok (), d)
  | (s, e) :: rest =>
      match d.perform s with
      | (.ok (), d) => d.performAll rest
      | (.error _, d) => (.error e, d)

def giveUp (d : Disk) (path : String) : Disk := { d with doomed := d.doomed ++ [path] }

end Disk
end IndexKeeper
