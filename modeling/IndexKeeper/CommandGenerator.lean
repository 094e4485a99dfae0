import IndexKeeper.Config
import IndexKeeper.Shell.Run
import IndexKeeper.Text.Blank
import IndexKeeper.Text.Utf8

set_option autoImplicit false

/-!
The generator that is a command of the configuration: it is run in a working directory as
`command args… artifacts… /out:directory`, with no input.
-/

namespace IndexKeeper

structure ProgramEnd where
  files : FileTree
  out : Bytes
  err : Bytes
  status : ExitStatus

def programName? (command : String) : Option String :=
  match (Path.segments command).reverse with
  | [] => none
  | name :: folders =>
      if name = command then some name
      else if Path.isAbsolute command ∧ (folders = ["bin"] ∨ folders = ["bin", "usr"]) ∧
          ¬Path.endsWithSlash command then some name
      else none

def runScript (text name : String) (args : List String) (t : FileTree) : ProgramEnd :=
  match Shell.Script.parse? text with
  | none => ⟨t, [], Bytes.ofText (name ++ ": 1: Syntax error\n"), .code 2⟩
  | some script =>
      let s := script.start name args t
      ⟨s.files, s.out, s.err, s.ended.getD (.code s.context.status)⟩

def runShell (args : List String) (t : FileTree) : ProgramEnd :=
  match args with
  | "-c" :: script :: rest => runScript script (rest.headD "sh") (rest.drop 1) t
  | "-c" :: [] => ⟨t, [], Bytes.ofText "sh: 0: -c requires an argument\n", .code 2⟩
  | path :: rest =>
      match (t.read path).toOption.bind Bytes.toText? with
      | none => ⟨t, [], Bytes.ofText ("sh: 0: cannot open " ++ path ++ ": No such file\n"), .code 2⟩
      | some text => runScript text path rest t
  | [] => ⟨t, [], [], .code 0⟩

def runProgram? (command : String) (args : List String) (t : FileTree) : Option ProgramEnd :=
  if (command :: args).any fun s => s.toList.contains (Char.ofNat 0) then none
  else match programName? command with
    | none => none
    | some name =>
        if name = "sh" ∨ name = "bash" ∨ name = "dash" then some (runShell args t)
        else (Shell.runUtility? name args [] t).map fun done =>
          ⟨done.files, done.out, done.err, .code done.status⟩

def inDirectory? (t : FileTree) (path : String) (run : FileTree → Option ProgramEnd) :
    Option ProgramEnd :=
  match t.find path with
  | .ok (l, .directory) =>
      (run { t with workingDirectory := l }).map fun done =>
        { done with files := { done.files with workingDirectory := t.workingDirectory } }
  | _ => none

def GeneratorSettings.commandLine (g : GeneratorSettings) (artifacts : List String) (out : String) :
    List String := g.args ++ artifacts ++ ["/out:" ++ out]

def trimmedOutput (bytes : Bytes) : String := Text.trim (Utf8.decodeLossy bytes)

-- The generator that runs a command. It does not touch a directory that is there already.
def GeneratorSettings.generator (g : GeneratorSettings) (workingDirectory : String) : Generator :=
  fun artifacts out t =>
    if t.pathExists out then (.fails (.outputExists out), t)
    else match inDirectory? t workingDirectory
        (runProgram? g.command (g.commandLine artifacts out)) with
      | none => (.fails (.notStarted g.command), t)
      | some done =>
          if done.status = .code 0 then (.gives (), done.files)
          else (.fails (.exited done.status (trimmedOutput done.out) (trimmedOutput done.err)),
            done.files)

end IndexKeeper
