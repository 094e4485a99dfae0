set_option autoImplicit false

namespace IndexKeeper

-- Whole seconds since 1970-01-01T00:00:00Z and the nanoseconds after them. A leap second repeats the second before
-- it with a fraction of 10^9 nanoseconds or more.
structure Instant where
  seconds : Int
  nanos : Nat
deriving DecidableEq, Repr, Inhabited

namespace Instant

def nanosPerSecond : Nat := 1000000000

def ofNanos (n : Int) : Instant :=
  ⟨n.fdiv nanosPerSecond, (n.fmod nanosPerSecond).toNat⟩

def toNanos (t : Instant) : Int := t.seconds * nanosPerSecond + t.nanos

def before (s t : Instant) : Bool :=
  decide (s.seconds < t.seconds) || (decide (s.seconds = t.seconds) && decide (s.nanos < t.nanos))

theorem before_iff (s t : Instant) :
    s.before t = true ↔ s.seconds < t.seconds ∨ (s.seconds = t.seconds ∧ s.nanos < t.nanos) := by
  simp [before]

end Instant
end IndexKeeper
