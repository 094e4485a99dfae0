import IndexKeeper.CommandLine
import IndexKeeper.Status.Wire
import Std.Async.Signal
import Std.Async.TCP

set_option autoImplicit false

/-!
The program. It brings the files that a command needs into a file tree, runs the command on the tree
and carries the changes back to the disk. Providers are only reached over encrypted connections, which
it cannot make, so that for it their servers are out of reach.
-/

namespace IndexKeeper.Program

open Std.Async

def pathOf (l : Location) : String := Path.ofSegments true l

def locationOf (t : FileTree) (path : String) : Location :=
  (Path.segments path).foldl
    (fun l name => if name = "." then l else if name = ".." then l.dropLast else l ++ [name])
    (if Path.isAbsolute path then [] else t.workingDirectory)

def addEntry (t : FileTree) (l : Location) : IO FileTree := do
  let path := (← IO.currentDir) / pathOf l
  if ← path.isDir then return t.set l .directory
  try
    return t.set l (.file (← IO.FS.readBinFile path).toList)
  catch _ => return t

partial def addBelow (t : FileTree) (l : Location) : IO FileTree := do
  let path := (← IO.currentDir) / pathOf l
  unless ← path.isDir do return t
  let mut t := t
  for child in ← path.readDir do
    t ← addEntry t (l ++ [child.fileName])
    t ← addBelow t (l ++ [child.fileName])
  return t

def addPath (t : FileTree) (path : String) : IO FileTree := do
  let l := locationOf t path
  (List.range l.length).foldlM (fun t n => addEntry t (l.take (n + 1))) t

def loadFiles (t : FileTree) (c : Config) : IO FileTree := do
  let t ← addPath t c.storageRoot
  let t ← addBelow t (locationOf t c.storageRoot)
  c.sources.foldlM (fun t s => match s.settings with
    | .filesystem path => addPath t path
    | _ => return t) t

def removeFrom (l : Location) : IO Unit := do
  let path := (← IO.currentDir) / pathOf l
  if ← path.isDir then IO.FS.removeDirAll path
  else if ← path.pathExists then IO.FS.removeFile path

def saveChanges (old new : FileTree) : IO Unit := do
  for (l, e) in old.entries do
    match new.get? l, e with
    | some .directory, .directory => pure ()
    | some (.file _), .file _ => pure ()
    | _, _ => removeFrom l
  for (l, e) in new.entries.mergeSort fun a b => a.1.length ≤ b.1.length do
    if old.get? l ≠ some e then
      match e with
      | .directory => IO.FS.createDirAll (pathOf l)
      | .file bytes => IO.FS.writeBinFile (pathOf l) ⟨bytes.toArray⟩

def hexNumber (width n : Nat) : String :=
  String.ofList ((List.range width).reverse.map fun place => hexDigit (n / Nat.pow 16 place % 16))

def freshNames : IO (Nat → String) := do
  let a ← IO.rand 0 0xffffffff
  let b ← IO.rand 0 0xffffffff
  let c ← IO.rand 0 0xffffffff
  return fun n =>
    hexNumber 8 a ++ "-" ++ hexNumber 4 b ++ "-4" ++ hexNumber 3 (b / 65536) ++ "-8" ++
      hexNumber 3 c ++ "-" ++ hexNumber 12 (c / 4096 * 4294967296 + n)

def environmentOf (c : Config) : IO Environment := do
  let entry? (name : String) : IO (List Bytes) := do
    return ((← IO.getEnv name).map fun value => Environment.entry name (Bytes.ofText value)).toList
  return (← entry? c.tokens.azureDevops) ++ (← entry? c.tokens.github)

def answerClient (view : IO.Ref Status.View) (client : TCP.Socket.Client) : Async Unit := do
  if let some bytes ← client.recv? 65536 then
    let head := (Bytes.toText? bytes.toList).getD ""
    client.send (Status.reply (← view.get) head).toUTF8
  client.shutdown

partial def acceptClients (view : IO.Ref Status.View) (socket : TCP.Socket.Server) : Async Unit := do
  let client ← socket.accept
  try answerClient view client catch _ => pure ()
  acceptClients view socket

partial def pollRounds (c : Config) (view : IO.Ref Status.View) (e : Engine) : IO Unit := do
  let files ← loadFiles { e.disk.files with entries := [] } c
  let (_, e) := { e with disk := { e.disk with files } }.runRound
  let e := { e with disk := e.disk.settle }
  saveChanges files e.disk.files
  view.set (.of e.sources e.coordinator e.publisher)
  let rec rest (secs : Nat) : IO Bool := do
    if ← IO.checkCanceled then return false
    if secs = 0 then return true
    IO.sleep 1000
    rest (secs - 1)
  if ← rest c.poll.intervalSecs then pollRounds c view e

def listen? (bind : String) : IO (Option TCP.Socket.Server) := do
  let some (host, port) := Http.hostAndPort? bind | return none
  let parts := ((Http.numericHost? host).getD [127, 0, 0, 1]).map UInt8.ofNat
  match parts with
  | [a, b, c, d] =>
      try
        let socket ← TCP.Socket.Server.mk
        socket.bind (.v4 ⟨.ofParts a b c d, UInt16.ofNat port⟩)
        socket.listen 128
        return some socket
      catch _ => return none
  | _ => return none

def serve (c : Config) (m : Machine) : IO UInt32 := do
  match c.openEngine m (Clock.start none) with
  | (.error e, disk) =>
      saveChanges m.disk.files disk.settle.files
      IO.eprint (CommandLine.fail e.message).stderr
      return 1
  | (.ok e, disk) =>
      saveChanges m.disk.files disk.settle.files
      let e := { e with disk := disk.settle }
      let some socket ← listen? c.bind
        | IO.eprint (CommandLine.fail (Http.listenError c.bind)).stderr
          return 1
      let view ← IO.mkRef (Status.View.of e.sources e.coordinator e.publisher)
      let interrupted ← (← Signal.Waiter.mk .sigint false).wait
      let _accepting ← (acceptClients view socket).toIO
      let polling ← IO.asTask (pollRounds c view e) .dedicated
      let _ ← interrupted.block
      IO.cancel polling
      let _ ← IO.wait polling
      return 0

def runOnce (m : Machine) (arguments : List String) : IO UInt32 := do
  let (ending, after) := CommandLine.run m ⟨fun _ => true, 0⟩ arguments
  saveChanges m.disk.files after.disk.files
  IO.print ending.stdout
  IO.eprint ending.stderr
  return UInt32.ofNat ending.exitCode

def start (arguments : List String) : IO UInt32 := do
  let here := (← IO.currentDir).toString
  let t ← addPath ⟨[], Path.segments here⟩ "."
  let m : Machine := ⟨⟨t, [], []⟩, [], Http.unreachable, ← freshNames, 0⟩
  match CommandLine.read arguments with
  | .run path command =>
      let t ← addPath t path
      let m := { m with disk := { m.disk with files := t } }
      match Config.load t path with
      | .error _ => runOnce m arguments
      | .ok c =>
          let m := { m with
            disk := { m.disk with files := ← loadFiles t c }
            environment := ← environmentOf c }
          if command = .serve then serve c m else runOnce m arguments
  | _ => runOnce m arguments

end IndexKeeper.Program

def main (arguments : List String) : IO UInt32 := IndexKeeper.Program.start arguments
