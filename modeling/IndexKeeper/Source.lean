import IndexKeeper.Hash.Sha256
import IndexKeeper.Source.Scan

set_option autoImplicit false

namespace IndexKeeper

structure RunWatch where
  rule : RunRule
  provider : Provider
  visited : VisitedSet
  offered : Option Attempt

inductive SourceKind where
  | filesystem (path : String)
  | runs (watch : RunWatch)

structure Source where
  name : String
  kind : SourceKind

namespace RunWatch

def start (rule : RunRule) (provider : Provider) (maxVisited : Nat) : RunWatch :=
  ⟨rule, provider, VisitedSet.empty maxVisited, none⟩

-- An offer not taken up by now has lapsed.
def tryIngest (w : RunWatch) (existing : Option String) :
    Reply PollError Outcome × RunWatch × List Question :=
  let done := scanListed w.rule w.provider existing w.visited
  (done.reply, { w with visited := done.visited, offered := done.offered }, done.asked)

-- The run offered last was stored: it needs no second look.
def confirm (w : RunWatch) : RunWatch :=
  match w.offered with
  | none => w
  | some a => { w with visited := w.visited.insert a, offered := none }

end RunWatch

namespace Source

def label (s : Source) : String :=
  match s.kind with
  | .filesystem _ => "filesystem"
  | .runs w => match w.rule with
      | .pipeline .. => "pipeline"
      | .workflow .. => "workflow"

def contentKey (bytes : Bytes) : String := Bytes.toHex (Sha256.digest bytes)

-- A file that is missing is unchanged, one that cannot be read is an error.
def tryFile (t : FileTree) (path : String) (existing : Option String) : Except PollError Outcome :=
  match t.read path with
  | .error .notFound => .ok .unchanged
  | .error _ => .error (.unreadable path)
  | .ok bytes =>
      if existing = some (contentKey bytes) then .ok .unchanged
      else .ok (.changed (contentKey bytes) bytes)

def tryIngest (s : Source) (t : FileTree) (existing : Option String) :
    Reply PollError Outcome × Source × List Question :=
  match s.kind with
  | .filesystem path => (.ofExcept (tryFile t path existing), s, [])
  | .runs w =>
      let (reply, w, asked) := w.tryIngest existing
      (reply, { s with kind := .runs w }, asked)

def confirm (s : Source) : Source :=
  match s.kind with
  | .filesystem _ => s
  | .runs w => { s with kind := .runs w.confirm }

end Source
end IndexKeeper
