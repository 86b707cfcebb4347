import DemandPaging.Kernel.Registration
import DemandPaging.Kernel.Teardown
import DemandPaging.Kernel.UserCopy

/-!
# Calls

The memory manager as its users see it: every operation with its arguments as a value, and every
answer as a value. A run of the system is a list of calls, and `Kernel.perform` says what each of
them does.
-/

set_option autoImplicit false

namespace DemandPaging

/-- An operation of the memory manager with its arguments. -/
inductive Call where
  /-- Load one page from a file when it is first used. -/
  | registerPage (s : SpaceId) (f : FileId) (offset page readBytes zeroBytes : Nat)
      (writable : Bool)
  /-- Load the pages of a segment from a file when they are first used. -/
  | registerSegment (s : SpaceId) (f : FileId) (offset page readBytes zeroBytes : Nat)
      (writable : Bool)
  /-- Map all of a file. -/
  | mapFile (s : SpaceId) (f : FileId) (page : Nat)
  /-- Remove a mapping. -/
  | unmapFile (s : SpaceId) (id : Nat)
  /-- Resolve a page fault. -/
  | resolveFault (s : SpaceId) (address stackPointer : Nat) (code : FaultCode)
  /-- Resolve a page fault, or kill the process, or halt. -/
  | handleFault (s : SpaceId) (address stackPointer : Nat) (code : FaultCode)
  /-- Map a fresh page of zeroes. -/
  | growStack (s : SpaceId) (address : Nat)
  /-- Read user memory. -/
  | copyFromUser (s : SpaceId) (start length stackPointer : Nat)
  /-- Store in user memory. -/
  | copyToUser (s : SpaceId) (start : Nat) (data : Bytes) (stackPointer : Nat)
  /-- Tear an address space down. -/
  | destroy (s : SpaceId)
  /-- Get a frame that is bound to no page. -/
  | allocate (s : SpaceId) (zeroed : Bool)
  /-- Get a frame for a page, pinned. -/
  | allocateFor (s : SpaceId) (page : Nat) (zeroed : Bool)
  /-- Bind a frame to a page. -/
  | bind (frame page : Nat)
  /-- Let evictions have a frame. -/
  | unpin (frame : Nat)
  /-- Give a frame back. -/
  | free (frame : Nat)
  /-- Give back all frames of an address space. -/
  | freeOwnedBy (s : SpaceId)

/-- What a call answers. -/
inductive Reply where
  /-- It was done. -/
  | done
  /-- It was refused. -/
  | refused (cause : VmError)
  /-- The access that it was about did not go through. -/
  | faulted (cause : FaultError)
  /-- It yielded the number of a mapping. -/
  | mapping (id : Nat)
  /-- It yielded a frame. -/
  | frame (number : Nat)
  /-- It told whether the process may live. -/
  | alive (yes : Bool)
  /-- It read user memory: all of it, or what comes before the access that did not go through. -/
  | read (data : Bytes) (cause : Option FaultError)
  /-- It took these frames out of use. -/
  | freed (records : List FrameRecord)
  deriving DecidableEq

namespace Reply

/-- The reply of an operation that yields nothing. -/
def ofVm : Except VmError Unit → Reply
  | .ok () => done
  | .error cause => refused cause

/-- The reply of an operation that makes an access. -/
def ofFault : Except FaultError Unit → Reply
  | .ok () => done
  | .error cause => faulted cause

/-- The reply of an operation that yields a number. -/
def ofNumber (yielded : Nat → Reply) : Except VmError Nat → Reply
  | .ok number => yielded number
  | .error cause => refused cause

/-- The reply of a read. -/
def ofRead : Bytes × Except FaultError Unit → Reply
  | (data, .ok ()) => read data none
  | (data, .error cause) => read data (some cause)

end Reply

namespace Kernel

variable {m : Type → Type} [Kernel m]

/-- Carry out a call. -/
def perform : Call → m Reply
  | .registerPage s f offset page readBytes zeroBytes writable => do
    return .ofVm (← holding (.supplement s)
      (Transition.registerPage s f offset page readBytes zeroBytes writable))
  | .registerSegment s f offset page readBytes zeroBytes writable => do
    return .ofVm (← holding (.supplement s)
      (Transition.registerSegment s f offset page readBytes zeroBytes writable))
  | .mapFile s f page => return .ofNumber .mapping (← mapFile s f page)
  | .unmapFile s id => return .ofVm (← unmapFile s id)
  | .resolveFault s address stackPointer code =>
    return .ofFault (← resolveFault s address stackPointer code)
  | .handleFault s address stackPointer code =>
    return .alive (← handleFault s address stackPointer code)
  | .growStack s address => return .ofVm (← growStack s address)
  | .copyFromUser s start length stackPointer =>
    return .ofRead (← copyFromUser s start length stackPointer)
  | .copyToUser s start data stackPointer =>
    return .ofFault (← copyToUser s start data stackPointer)
  | .destroy s => do
    destroy s
    return .done
  | .allocate s zeroed => return .ofNumber .frame (← allocate s zeroed)
  | .allocateFor s page zeroed => return .ofNumber .frame (← allocateFor s page zeroed)
  | .bind frame page => do
    bindPage frame page
    return .done
  | .unpin frame => do
    unpin frame
    return .done
  | .free frame => do
    free frame
    return .done
  | .freeOwnedBy s => return .freed (← freeOwnedBy s)

end Kernel

end DemandPaging
