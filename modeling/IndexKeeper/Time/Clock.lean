set_option autoImplicit false

/-!
A clock that only moves while something is waited for, with a cancellation that may come at a set time.
-/

namespace IndexKeeper

structure Clock where
  now : Nat
  cancelAt : Option Nat
  cancelled : Bool
deriving DecidableEq, Repr

namespace Clock

def start (cancelAt : Option Nat) : Clock := ⟨0, cancelAt, cancelAt == some 0⟩

def cancel (c : Clock) : Clock := { c with cancelled := true }

def wait (c : Clock) (secs : Nat) : Clock :=
  match c.cancelAt with
  | none => { c with now := c.now + secs }
  | some t =>
      if t ≤ c.now + secs then { c with now := Nat.max c.now t, cancelled := true }
      else { c with now := c.now + secs }

def waitForCancel (c : Clock) : Clock :=
  { c with now := Nat.max c.now (c.cancelAt.getD c.now), cancelled := true }

end Clock
end IndexKeeper
