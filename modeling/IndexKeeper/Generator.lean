import IndexKeeper.Files.Disk
import IndexKeeper.Provider

set_option autoImplicit false

namespace IndexKeeper

inductive ExitStatus where
  | code (n : Nat)
  | signal (n : Nat)
deriving DecidableEq, Repr

inductive GeneratorError where
  | outputExists (path : String)
  | notStarted (command : String)
  | exited (status : ExitStatus) (stdout stderr : String)
  | reported (message : String)
deriving DecidableEq, Repr

def signalNames : List (Nat × String) := [
  (1, "SIGHUP"), (2, "SIGINT"), (3, "SIGQUIT"), (4, "SIGILL"), (5, "SIGTRAP"), (6, "SIGABRT"),
  (7, "SIGBUS"), (8, "SIGFPE"), (9, "SIGKILL"), (10, "SIGUSR1"), (11, "SIGSEGV"), (12, "SIGUSR2"),
  (13, "SIGPIPE"), (14, "SIGALRM"), (15, "SIGTERM"), (16, "SIGSTKFLT"), (24, "SIGXCPU"),
  (25, "SIGXFSZ"), (26, "SIGVTALRM"), (27, "SIGPROF"), (29, "SIGIO"), (30, "SIGPWR"),
  (31, "SIGSYS")]

def ExitStatus.describe : ExitStatus → String
  | .code n => "exit status: " ++ toString n
  | .signal n => "signal: " ++ toString n ++ match signalNames.lookup n with
      | some name => " (" ++ name ++ ")"
      | none => ""

def GeneratorError.message : GeneratorError → String
  | .outputExists path => "Output directory already exists: " ++ path
  | .notStarted command => "Failed to start generator '" ++ command ++ "'"
  | .exited status stdout stderr =>
      "Generator exited with " ++ status.describe ++ "\nstdout:\n" ++ stdout ++ "\nstderr:\n" ++ stderr
  | .reported message => message

abbrev Generator := List String → String → FileTree → Reply GeneratorError Unit × FileTree

-- Runs a generator as one step of a disk. If the step is refused it does not run.
def Disk.generate (d : Disk) (g : Generator) (artifacts : List String) (out : String) :
    Reply GeneratorError Unit × Disk :=
  match d.grant with
  | (.all, d) => ((g artifacts out d.files).1, { d with files := (g artifacts out d.files).2 })
  | (_, d) => (.fails (.reported "The generator was cut off"), d)

end IndexKeeper
