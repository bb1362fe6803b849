import Unbounded.Tokio.Mpsc

/-!
# Watch channels

The model of a `tokio::sync::watch` channel with one sender. The channel holds one value and a
version that every send advances. A receiver is the version it has seen: reading the value with
`borrow` does not mark it as seen, and waiting for a change compares versions, so that a receiver
learns of an unseen value even after the sender is gone.
-/

namespace Unbounded.Tokio

/-- A watch channel: the current value, its version, and whether the sender was dropped. -/
structure Watch (α : Type) where
  value : α
  version : Nat
  closed : Bool
  deriving DecidableEq

namespace Watch

variable {α : Type}

/-- A new channel. -/
def new (value : α) : Watch α :=
  ⟨value, 0, false⟩

/-- `send_replace`: put a value in place, whether or not there are receivers. -/
def sendReplace (watch : Watch α) (value : α) : Watch α :=
  { watch with value := value, version := watch.version + 1 }

/-- Drop the sender. -/
def close (watch : Watch α) : Watch α :=
  { watch with closed := true }

/-- Poll `changed` on a receiver that has seen a version: the result, and the version it has then
seen. An unseen version is reported before the end of the channel. -/
def changed (watch : Watch α) (seen : Nat) : Poll (Except Unit Unit) × Nat :=
  if seen ≠ watch.version then (.ready (.ok ()), watch.version)
  else if watch.closed then (.ready (.error ()), seen)
  else (.pending, seen)

end Watch

end Unbounded.Tokio
