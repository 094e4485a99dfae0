import IndexKeeper.Time.Instant

set_option autoImplicit false

/-!
The bounded memory of runs that need no second look. A run that is retried keeps its id but
finishes later, so what is remembered is the pair of both.
-/

namespace IndexKeeper

structure Attempt where
  id : Int
  finishedAt : Instant
deriving DecidableEq, Repr, Inhabited

namespace Attempt

def newer (a b : Attempt) : Bool :=
  b.finishedAt.before a.finishedAt || (a.finishedAt == b.finishedAt && decide (b.id < a.id))

end Attempt

structure VisitedSet where
  max : Nat
  members : List Attempt
deriving Repr

namespace VisitedSet

-- At least two attempts are remembered, so that trimming keeps something.
def empty (max : Nat) : VisitedSet := ⟨Nat.max 2 max, []⟩

def contains (s : VisitedSet) (a : Attempt) : Bool := s.members.contains a

def rank (members : List Attempt) (a : Attempt) : Nat := members.countP fun b => b.newer a

-- Keeps the newest half of what the set may hold.
def trim (s : VisitedSet) : VisitedSet :=
  { s with members := s.members.filter fun a => rank s.members a < s.max / 2 }

def insert (s : VisitedSet) (a : Attempt) : VisitedSet :=
  let grown := if s.contains a then s else { s with members := s.members ++ [a] }
  if s.max < grown.members.length then grown.trim else grown

end VisitedSet
end IndexKeeper
