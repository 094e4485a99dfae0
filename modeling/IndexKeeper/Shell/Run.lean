import IndexKeeper.Shell.Expansion
import IndexKeeper.Shell.Script
import IndexKeeper.Shell.Utility

set_option autoImplicit false

namespace IndexKeeper.Shell

structure State where
  context : Context
  files : FileTree
  out : Bytes := []
  err : Bytes := []
  ended : Option ExitStatus := none

inductive Stream where
  | out
  | err
  | file (path : String)
  | nowhere
deriving DecidableEq, Repr

def directoryVariable : String := "PWD"

structure Streams where
  out : Stream := .out
  err : Stream := .err
  input : Bytes := []

def Streams.send (s : Streams) (number : Nat) (target : Stream) : Streams :=
  if number = 1 then { s with out := target } else { s with err := target }

namespace State

def emit (s : State) (bytes : Bytes) : Stream → State
  | .out => { s with out := s.out ++ bytes }
  | .err => { s with err := s.err ++ bytes }
  | .file path => match s.files.append path bytes with
      | .ok files => { s with files }
      | .error _ => s
  | .nowhere => s

def setStatus (s : State) (status : Nat) : State :=
  { s with context := { s.context with status } }

def set (s : State) (name value : String) : State :=
  { s with context := { s.context with bindings := s.context.bindings.insert name value } }

def complain (s : State) (stream : Stream) (what : String) (status : Nat) : State :=
  (s.emit (Bytes.ofText (s.context.name ++ ": 1: " ++ what ++ "\n")) stream).setStatus status

def abandon (s : State) (stream : Stream) (what : String) : State :=
  { s.complain stream what 2 with ended := some (.code 2) }

end State

def openReason : FileError → String
  | .notFound => "Directory nonexistent"
  | e => reason e

def emptyDevice : String := "/dev/null"

def readInput (t : FileTree) (path : String) : Except FileError Bytes :=
  if path = emptyDevice then .ok [] else t.read path

def openOutput (t : FileTree) (append : Bool) (path : String) :
    Except FileError (FileTree × Stream) :=
  if path = emptyDevice then .ok (t, .nowhere)
  else (if append then t.append path [] else t.write path []).map (·, .file path)

def redirect (s : State) (streams : Streams) : List Redirection → State × Option Streams
  | [] => (s, some streams)
  | .copy stream source :: rest =>
      redirect s (streams.send stream (if source = 1 then streams.out else streams.err)) rest
  | .input target :: rest =>
      let path := expandText s.context target
      match readInput s.files path with
      | .ok bytes => redirect s { streams with input := bytes } rest
      | .error _ => (s.complain streams.err ("cannot open " ++ path ++ ": No such file") 2, none)
  | .output stream append target :: rest =>
      let path := expandText s.context target
      match openOutput s.files append path with
      | .ok (files, opened) => redirect { s with files } (streams.send stream opened) rest
      | .error e =>
          (s.complain streams.err ("cannot create " ++ path ++ ": " ++ openReason e) 2, none)

-- Signals that do nothing unless a program asks for them.
def harmlessSignals : List Nat := [17, 18, 23, 28]

def signalNumber? (text : String) : Option Nat :=
  match text.toNat? with
  | some n => some n
  | none => (signalNames.find? fun (_, name) => name = text ∨ name = "SIG" ++ text).map Prod.fst

def killTargets? : List String → Option (Nat × List String)
  | "-s" :: name :: targets => (signalNumber? name).map (·, targets)
  | first :: targets =>
      match first.toList with
      | '-' :: signal => (signalNumber? (String.ofList signal)).map (·, targets)
      | _ => some (15, first :: targets)
  | [] => none

def kill (s : State) (streams : Streams) (args : List String) : State :=
  match killTargets? args with
  | none => s.complain streams.err "kill: Illegal option" 2
  | some (signal, targets) =>
      if targets.contains processNumber then
        if signal = 0 ∨ harmlessSignals.contains signal then s.setStatus 0
        else { s with ended := some (.signal signal) }
      else s.complain streams.err "kill: No such process" 1

def exit (s : State) (streams : Streams) : List String → State
  | [] => { s with ended := some (.code s.context.status) }
  | text :: _ => match text.toNat? with
      | some n => { s with ended := some (.code (n % 256)) }
      | none => s.abandon streams.err ("exit: Illegal number: " ++ text)

def changeDirectory (s : State) (streams : Streams) (args : List String) : State :=
  let path := args.headD ""
  match s.files.find path with
  | .ok (l, .directory) =>
      let s := { s with files := { s.files with workingDirectory := l } }
      (s.set directoryVariable s.files.workingPath).setStatus 0
  | _ => s.complain streams.err ("cd: can't cd to " ++ path) 2

def shift (s : State) (streams : Streams) (args : List String) : State :=
  match (args.headD "1").toNat? with
  | none => s.abandon streams.err ("shift: Illegal number: " ++ args.headD "")
  | some n =>
      let arguments := s.context.arguments
      if arguments.length < n then s.abandon streams.err "shift: can't shift that many"
      else { s with context := { s.context with arguments := arguments.drop n } }.setStatus 0

def runCommand (s : State) (streams : Streams) (name : String) (args : List String) : State :=
  match name with
  | ":" => s.setStatus 0
  | "exit" => exit s streams args
  | "kill" => kill s streams args
  | "cd" => changeDirectory s streams args
  | "shift" => shift s streams args
  | _ =>
      match runUtility? name args streams.input s.files with
      | none => s.complain streams.err (name ++ ": not found") 127
      | some done =>
          ((({ s with files := done.files }).emit done.out streams.out).emit done.err
            streams.err).setStatus done.status

def assign (s : State) (assignments : List (String × Word)) : State :=
  assignments.foldl (fun s a => s.set a.1 (expandText s.context a.2)) s

def runSimple (s : State) (c : Simple) : State :=
  let fields := c.words.flatMap (expand s.context)
  match redirect s {} c.redirections with
  | (s, none) => s
  | (s, some streams) =>
      match fields with
      | [] => (assign s c.assignments).setStatus 0
      | name :: args => runCommand s streams name args

namespace Script

def run : Script → State → State
  | .nothing, s => s
  | .simple c, s => if s.ended.isSome then s else runSimple s c
  | .inTurn a b, s => run b (run a s)
  | .ifWorks a b, s =>
      let s := run a s
      if s.ended.isNone ∧ s.context.status = 0 then run b s else s
  | .ifFails a b, s =>
      let s := run a s
      if s.ended.isNone ∧ s.context.status ≠ 0 then run b s else s
  | .negated a, s =>
      let s := run a s
      if s.ended.isSome then s else s.setStatus (if s.context.status = 0 then 1 else 0)
  | .forEach name items body, s =>
      if s.ended.isSome then s
      else (items.flatMap (expand s.context)).foldl (fun s item =>
        if s.ended.isSome then s else run body (s.set name item)) s
  | .whenMatches subject patterns body otherwise, s =>
      if s.ended.isSome then s
      else if patterns.any fun p =>
          fits (expandWhole s.context p) ((expandWhole s.context subject).map Prod.fst) then
        run body (s.setStatus 0)
      else run otherwise (s.setStatus 0)
  | .branch condition yes no, s =>
      let s := run condition s
      if s.ended.isSome then s
      else if s.context.status = 0 then run yes s else run no (s.setStatus 0)

def start (script : Script) (name : String) (arguments : List String) (t : FileTree) : State :=
  let bindings := NameMap.empty.insert directoryVariable t.workingPath
  script.run { context := ⟨name, arguments, bindings, 0⟩, files := t }

end Script
end IndexKeeper.Shell
