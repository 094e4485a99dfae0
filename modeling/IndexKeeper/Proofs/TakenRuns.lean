import IndexKeeper.Proofs.ReachedRuns
import IndexKeeper.Proofs.WorkflowPolls

set_option autoImplicit false

namespace IndexKeeper

section Look

variable (rule : RunRule) (p : Provider) (existing : Option String) (s : Sight) (made : s.Made rule p existing)

include made

end Look

section Workflow

variable (w : RunWatch) (existing : Option String) (artifactName fileName : String)
  (workflow : w.rule = .workflow artifactName fileName) (s : Sight) (made : s.Made w.rule w.provider existing)

include workflow made

end Workflow

namespace MixedRuns

def rule : RunRule := .workflow "complog" "build.complog"

def run (id : Int) (pullRequest : Bool) : Run := ⟨⟨id, Instant.ofNanos id⟩, pullRequest⟩

def runs : List Run := [run 6 true, run 5 false, run 4 false, run 3 false, run 2 false]

def archive (run : Run) : Bytes :=
  if run.attempt.id = 3 then Archive.pack [{ name := "build.complog", data := Bytes.ofText "3" }] else Archive.pack []

def provider : Provider where
  runs _ := .gives runs
  artifacts _ run := .gives
    (if run.attempt.id = 5 then [⟨some 1, "complog"⟩, ⟨some 2, "complog"⟩] else [⟨none, "complog"⟩])
  download _ run _ := .gives (archive run)

def watch : RunWatch := ⟨rule, provider, ⟨2, [(run 4 false).attempt, (run 1 false).attempt]⟩, none⟩

end MixedRuns

end IndexKeeper
