import PoolControl.Channel
import PoolControl.Error

/-! # The outbox

Notices are handed over without waiting: an `Outbox` holds a bounded backlog, and a notice that
finds it full is dropped (`Outbox.post`). A courier takes the notices in order and sends each, one
channel after the other, to every channel that serves one of the notice's platforms; a channel that
fails does not keep the others from their turn (`Outbox.move?`, `Outbox.answered`).

The channels of an outbox that is managed follow the configured platforms. A closed outbox takes no
more notices, and its courier leaves once the backlog is empty. -/

namespace PoolControl

open Settings (Platform)

/-- What the courier of an outbox is doing. -/
inductive Courier where
  /-- It waits for a notice. -/
  | idle
  /-- It has a notice, and these channels are left to be served. -/
  | delivering (notice : Notice) (left : List Channel)
  /-- It waits for the channel's answer. -/
  | sending (notice : Notice) (channel : Channel) (left : List Channel)
  /-- It has left. -/
  | gone
  deriving DecidableEq, Repr

/-- A bounded backlog of notices with its courier. -/
structure Outbox where
  /-- The most notices that wait at once. -/
  capacity : Nat
  backlog : List Notice := []
  isOpen : Bool := true
  /-- Whether the channels follow the platforms. -/
  managed : Bool
  platforms : List Platform := []
  channels : List Channel
  courier : Courier := .idle
  deriving DecidableEq, Repr

namespace Outbox

/-- The largest capacity that a backlog can have. -/
def largestCapacity : Nat := 2305843009213693951

/-- The capacity that a backlog is given. At least one notice can wait. -/
def capacityOf (wanted : Nat) : Except Fault Nat :=
  if wanted ≤ largestCapacity then .ok (max wanted 1) else .error .backlogTooLarge

/-- An outbox whose channels are those of the platforms. -/
def ofPlatforms (platforms : List Platform) (wanted : Nat) : Except Fault Outbox := do
  return {
    capacity := ← capacityOf wanted
    managed := true
    platforms
    channels := Channel.ofPlatforms platforms }

/-- An outbox with fixed channels. -/
def ofChannels (channels : List Channel) (wanted : Nat) : Except Fault Outbox := do
  return { capacity := ← capacityOf wanted, managed := false, channels }

/-- The number of notices that wait, not counting the one that the courier has. -/
def pending (o : Outbox) : Nat := if o.isOpen then o.backlog.length else 0

/-- Hands a notice over; it is dropped where the outbox is closed or its backlog full. -/
def post (o : Outbox) (n : Notice) : Bool × Outbox :=
  if o.isOpen ∧ o.backlog.length < o.capacity then (true, { o with backlog := o.backlog ++ [n] })
  else (false, o)

/-- Whether other platforms call for other channels. -/
def needsSync (o : Outbox) (platforms : List Platform) : Bool :=
  o.managed && o.platforms != platforms

/-- The outbox with the channels of the platforms, if it is managed. -/
def sync (o : Outbox) (platforms : List Platform) : Outbox :=
  if o.needsSync platforms then { o with platforms, channels := Channel.ofPlatforms platforms }
  else o

/-- The outbox takes no more notices. -/
def close (o : Outbox) : Outbox := { o with isOpen := false }

/-- A step of the courier that needs no answer, if there is one. -/
def move? (o : Outbox) : Option Outbox :=
  match o.courier with
  | .idle =>
    match o.backlog with
    | n :: backlog =>
      some { o with backlog, courier := .delivering n (o.channels.filter (·.serves n)) }
    | [] => if o.isOpen then none else some { o with courier := .gone }
  | .delivering _ [] => some { o with courier := .idle }
  | .delivering n (c :: left) => some { o with courier := .sending n c left }
  | .sending .. => none
  | .gone => none

/-- The channel has answered, well or badly. -/
def answered (o : Outbox) : Outbox :=
  match o.courier with
  | .sending n _ left => { o with courier := .delivering n left }
  | _ => o

end Outbox
end PoolControl
