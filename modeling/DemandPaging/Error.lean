import DemandPaging.Block.Error
import DemandPaging.File.Error
import DemandPaging.Text.Numeral

/-!
# Errors of the memory manager

Two levels. A `VmError` says why one operation of the memory manager did not happen. A `FaultError`
says what becomes of a page fault: either the access itself was wrong and the faulting process is
killed, or the memory manager can no longer make progress. `FaultError.ofVm` draws the line between
the two, and `VmError.isFatal` is that line: shortage of frames or swap, and lost transfers.
-/

set_option autoImplicit false

namespace DemandPaging

/-- Why an operation of the memory manager was refused. -/
inductive VmError where
  /-- The pool is empty and there is nothing to evict. -/
  | outOfFrames
  /-- Every frame is pinned or not yet bound to a page. -/
  | noVictim
  /-- No free swap slot for a page that has to go to swap. -/
  | swapFull
  /-- The swap device failed. -/
  | block (cause : BlockError)
  /-- A file failed. -/
  | file (cause : FileError)
  /-- A changed page of a mapped file could not be saved while it was evicted. -/
  | writeBack (cause : FileError)
  /-- The page already has an entry. -/
  | alreadyRegistered
  /-- The page is already in the page directory. -/
  | alreadyMapped
  /-- The page directory refused the page. -/
  | mapFailed
  /-- The page or range cannot be used for a mapping. -/
  | invalidMapping
  /-- The address space was torn down. -/
  | destroyed
  deriving DecidableEq, Repr, Inhabited

namespace VmError

/-- Every cause. -/
def all : List VmError :=
  [outOfFrames, noVictim, swapFull] ++ BlockError.all.map block ++ FileError.all.map file ++
    FileError.all.map writeBack ++
    [alreadyRegistered, alreadyMapped, mapFailed, invalidMapping, destroyed]

/-- The short form of the cause, with the cause it carries in parentheses. -/
def name : VmError → String
  | outOfFrames => "OutOfFrames"
  | noVictim => "NoVictim"
  | swapFull => "SwapFull"
  | block cause => "Block(" ++ cause.name ++ ")"
  | file cause => "File(" ++ cause.name ++ ")"
  | writeBack cause => "WriteBack(" ++ cause.name ++ ")"
  | alreadyRegistered => "AlreadyRegistered"
  | alreadyMapped => "AlreadyMapped"
  | mapFailed => "MapFailed"
  | invalidMapping => "InvalidMapping"
  | destroyed => "Destroyed"

/-- The cause as a sentence. -/
def message : VmError → String
  | outOfFrames => "out of physical frames"
  | noVictim => "no evictable frame"
  | swapFull => "swap is full"
  | block cause => "swap device: " ++ cause.message
  | file cause => "file: " ++ cause.message
  | writeBack cause => "write-back of evicted page: " ++ cause.message
  | alreadyRegistered => "page already registered"
  | alreadyMapped => "page already mapped"
  | mapFailed => "could not install mapping"
  | invalidMapping => "invalid mapping"
  | destroyed => "address space destroyed"

/-- Whether progress can no longer be promised after the error. -/
def isFatal : VmError → Bool
  | outOfFrames | noVictim | swapFull | block _ | writeBack _ => true
  | file _ | alreadyRegistered | alreadyMapped | mapFailed | invalidMapping | destroyed => false

end VmError

/-- What becomes of a page fault that was not resolved. -/
inductive FaultError where
  /-- The access was invalid; the process is killed. -/
  | unrecoverable (address : Nat)
  /-- The memory manager failed; the system halts. -/
  | fatal (cause : VmError)
  deriving DecidableEq, Repr, Inhabited

namespace FaultError

/-- The outcome of a fault at `address` that met `cause`. -/
def ofVm (address : Nat) (cause : VmError) : FaultError :=
  if cause.isFatal then fatal cause else unrecoverable address

/-- The short form of the outcome; the address is in decimal. -/
def name : FaultError → String
  | unrecoverable address => "Unrecoverable(" ++ toString address ++ ")"
  | fatal cause => "Fatal(" ++ cause.name ++ ")"

/-- The outcome as a sentence. -/
def message : FaultError → String
  | unrecoverable address => "invalid access at " ++ Numeral.hex address
  | fatal cause => "fatal: " ++ cause.message

end FaultError

end DemandPaging
