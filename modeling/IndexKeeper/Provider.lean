import IndexKeeper.Bytes
import IndexKeeper.Visited

set_option autoImplicit false

namespace IndexKeeper

inductive Reply (ε α : Type) where
  | gives (value : α)
  | fails (error : ε)
  | hangs
  -- The work is called off while the answer is still awaited.
  | cancels
deriving DecidableEq, Repr

namespace Reply

variable {ε δ α β : Type}

def bind (r : Reply ε α) (next : α → Reply ε β) : Reply ε β :=
  match r with
  | gives value => next value
  | fails error => fails error
  | hangs => hangs
  | cancels => cancels

def mapError (f : ε → δ) : Reply ε α → Reply δ α
  | gives value => gives value
  | fails error => fails (f error)
  | hangs => hangs
  | cancels => cancels

def ofExcept : Except ε α → Reply ε α
  | .ok value => gives value
  | .error error => fails error

end Reply

structure Run where
  attempt : Attempt
  pullRequest : Bool
deriving DecidableEq, Repr

structure Artifact where
  id : Option Int
  name : String
deriving DecidableEq, Repr

inductive Question where
  | runs (max : Nat)
  | artifacts (run : Run)
  | download (run : Run) (artifact : Artifact)
deriving DecidableEq, Repr

inductive ProviderError where
  | reported (message : String)
  | connection
deriving DecidableEq, Repr

-- The answers of a provider. Those within a poll may depend on what the poll has asked before. A download that
-- hangs or is called off stands also for one whose archive is still being unpacked at that time.
structure Provider where
  runs : Nat → Reply ProviderError (List Run)
  artifacts : List Question → Run → Reply ProviderError (List Artifact)
  download : List Question → Run → Artifact → Reply ProviderError Bytes

end IndexKeeper
