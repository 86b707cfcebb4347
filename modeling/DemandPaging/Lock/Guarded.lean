import DemandPaging.Lock.Ticket
import DemandPaging.Text.Record

/-!
# Values behind a lock

A machine word behind a lock, and at most one guard that gives access to it. The lock is a ticket
lock, or a spin lock, which is a single flag and serves those who wait in no order.

Waiting for a lock that nobody will leave is a halt.
-/

set_option autoImplicit false

namespace DemandPaging

/-- A lock of one of the two kinds. -/
inductive Lock where
  /-- A ticket lock. -/
  | ticket (state : TicketLock)
  /-- A spin lock, and whether somebody has it. -/
  | spin (locked : Bool)
  deriving DecidableEq, Repr, Inhabited

namespace Lock

/-- Whether somebody has the lock. -/
def isLocked : Lock → Bool
  | ticket state => state.isLocked
  | spin locked => locked

/-- Take the lock if nobody has it. Answers the ticket; all tickets of a spin lock are zero. -/
def tryTake : Lock → Except Halt (Option UInt64 × Lock)
  | ticket state =>
    match state.tryTake with
    | .error halt => .error halt
    | .ok (number, state) => .ok (number, ticket state)
  | spin locked => .ok (if locked then none else some 0, spin true)

/-- Take the lock, which somebody must leave first. -/
def take (lock : Lock) : Except Halt (UInt64 × Lock) :=
  if lock.isLocked then .error .blocked
  else match lock with
    | ticket state =>
      let (number, state) := state.takeTicket
      .ok (number, ticket state)
    | spin _ => .ok (0, spin true)

/-- Leave the lock. -/
def release (lock : Lock) (number : UInt64) : Except Halt Lock :=
  match lock with
  | ticket state =>
    match state.release number with
    | .error halt => .error halt
    | .ok state => .ok (ticket state)
  | spin _ => .ok (spin false)

end Lock

/-- A value behind a lock. -/
structure Guarded where
  /-- The lock. -/
  lock : Lock
  /-- The value. -/
  value : UInt64
  /-- The guard, with its ticket. -/
  guard : Option UInt64 := none
  deriving DecidableEq, Repr, Inhabited

namespace Guarded

/-- Take the guard, which must not be out. -/
def acquire (cell : Guarded) : Except Halt Guarded :=
  match cell.lock.take with
  | .error halt => .error halt
  | .ok (number, lock) => .ok { cell with lock, guard := some number }

/-- Take the guard if it is not out. Answers whether it was taken. -/
def tryAcquire (cell : Guarded) : Except Halt (Bool × Guarded) :=
  match cell.lock.tryTake with
  | .error halt => .error halt
  | .ok (none, _) => .ok (false, cell)
  | .ok (some number, lock) => .ok (true, { cell with lock, guard := some number })

/-- Give the guard back if it is out. -/
def release (cell : Guarded) : Except Halt Guarded :=
  match cell.guard with
  | none => .ok cell
  | some number =>
    match cell.lock.release number with
    | .error halt => .error halt
    | .ok lock => .ok { cell with lock, guard := none }

/-- The value, as it is seen through the guard. -/
def get? (cell : Guarded) : Option UInt64 := cell.guard.map fun _ => cell.value

/-- Replace the value through the guard. Answers whether the guard is out. -/
def set (cell : Guarded) (value : UInt64) : Bool × Guarded :=
  match cell.guard with
  | none => (false, cell)
  | some _ => (true, { cell with value })

/-- Add to the value. It must stay a machine word. -/
def add (cell : Guarded) (n : UInt64) : Except Halt Guarded :=
  if cell.value.toNat + n.toNat < UInt64.size then .ok { cell with value := cell.value + n }
  else .error .overflow

/-- Let `n` others take the lock in turn and add one each. -/
def serve : Nat → Guarded → Except Halt Guarded
  | 0, cell => .ok cell
  | n + 1, cell => do serve n (← (← (← cell.acquire).add 1).release)

/-- Let `n` others wait to add one each. The holder of the guard, if there is one, doubles the value
and gives the guard back; the others are served; then the guard is taken again. -/
def contend (cell : Guarded) (n : Nat) : Except Halt Guarded := do
  let cell ← if cell.guard.isSome then (← cell.add cell.value).release else pure cell
  (← serve n cell).acquire

/-- The value with its lock as it is shown. A value whose guard is out cannot be looked at. -/
def text (cell : Guarded) : String :=
  if cell.lock.isLocked then "Mutex \x7b <locked> \x7d"
  else Record.text "Mutex" [("data", toString cell.value)]

/-- The value as it is shown through the guard. -/
def guardText? (cell : Guarded) : Option String := cell.get?.map toString

end Guarded

end DemandPaging
