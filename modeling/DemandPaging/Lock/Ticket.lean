import DemandPaging.Halt

/-!
# Ticket locks

A lock that serves those who want it in the order in which they came. Whoever wants the lock takes
a ticket and waits until its number is served; whoever leaves it serves the next number.

Each function here is one atomic step on the two counters. Both are machine words. Taking a ticket
may go round; serving a number past the last one halts.
-/

set_option autoImplicit false

namespace DemandPaging

/-- The two counters of a ticket lock. -/
structure TicketLock where
  /-- The number of the next ticket. -/
  nextTicket : UInt64 := 0
  /-- The number that is served. -/
  nextServing : UInt64 := 0
  deriving DecidableEq, Repr, Inhabited

namespace TicketLock

/-- Take a ticket, to wait with. -/
def takeTicket (lock : TicketLock) : UInt64 × TicketLock :=
  (lock.nextTicket, { lock with nextTicket := lock.nextTicket + 1 })

/-- Whether a ticket is served. -/
def isServing (lock : TicketLock) (ticket : UInt64) : Bool := lock.nextServing == ticket

/-- Whether somebody has the lock or waits for it. -/
def isLocked (lock : TicketLock) : Bool := !lock.isServing lock.nextTicket

/-- Whether a number has no number after it. -/
def isLast (ticket : UInt64) : Bool := ticket.toNat + 1 == UInt64.size

/-- The second half of taking a ticket only if it is served at once: having seen that `ticket` is
served, take it if it is still the next one. Answers whether that worked. -/
def exchange (lock : TicketLock) (ticket : UInt64) : Except Halt (Bool × TicketLock) :=
  if isLast ticket then .error .overflow
  else if lock.nextTicket = ticket then .ok (true, { lock with nextTicket := ticket + 1 })
  else .ok (false, lock)

/-- Take a ticket if it is served at once. -/
def tryTake (lock : TicketLock) : Except Halt (Option UInt64 × TicketLock) :=
  if lock.isServing lock.nextTicket then
    match lock.exchange lock.nextTicket with
    | .error halt => .error halt
    | .ok (_, after) => .ok (some lock.nextTicket, after)
  else .ok (none, lock)

/-- Leave the lock and serve the next number. -/
def release (lock : TicketLock) (ticket : UInt64) : Except Halt TicketLock :=
  if isLast ticket then .error .overflow else .ok { lock with nextServing := ticket + 1 }

end TicketLock

end DemandPaging
