import DemandPaging.Error

/-!
# Halts

An operation that is refused answers with an error and the system goes on. A halt is different: the
system stops, because a promise of a caller or of the memory manager itself was broken. Operations
that can halt return `Except Halt`, so a theorem can say of any of them that it does not.

Only the halts with a text of their own are told apart by `message?`; the others stop the system
silently.
-/

set_option autoImplicit false

namespace DemandPaging

/-- Why the system stopped. -/
inductive Halt where
  /-- A frame was given back that nobody had. -/
  | doubleFree (frame : Nat)
  /-- A swap slot was given back that does not exist. -/
  | slotOutOfRange (slot : Nat)
  /-- A swap slot was given back that was already free. -/
  | slotFreedTwice (slot : Nat)
  /-- A frame number has more bits than a page table entry can hold. -/
  | frameTooLarge (frame : Nat)
  /-- A page was registered at an address inside a page. -/
  | unalignedPage (address : Nat)
  /-- A page fault found the memory manager unable to go on. -/
  | failure (cause : VmError)
  /-- The system-wide memory manager was installed a second time. -/
  | initialisedTwice
  /-- The system-wide memory manager was used before it was installed. -/
  | notInitialised
  /-- A number left its machine word. -/
  | overflow
  /-- An index or a range reached past the end of a table, a page or a buffer. -/
  | outOfBounds
  /-- A condition that callers promise, or that the memory manager keeps, did not hold. -/
  | brokenPromise
  /-- The operation would wait for ever. -/
  | blocked
  deriving DecidableEq, Repr, Inhabited

namespace Halt

/-- The last words of the system, if it has any. -/
def message? : Halt → Option String
  | doubleFree frame => some ("double free of FrameNumber(" ++ toString frame ++ ")")
  | slotOutOfRange slot => some ("swap slot " ++ toString slot ++ " out of range")
  | slotFreedTwice slot => some ("swap slot " ++ toString slot ++ " freed twice")
  | frameTooLarge frame => some ("frame " ++ toString frame ++ " does not fit in a PTE")
  | unalignedPage address => some ("unaligned page " ++ Numeral.hex address)
  | failure cause => some ("virtual memory failure: " ++ cause.message)
  | initialisedTwice => some "virtual memory initialised twice"
  | notInitialised => some "virtual memory not initialised"
  | overflow | outOfBounds | brokenPromise | blocked => none

end Halt

end DemandPaging
