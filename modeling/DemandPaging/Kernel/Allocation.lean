import DemandPaging.Kernel.Eviction

/-!
# Frames for processes

Handing a frame to a process, and the small operations on a frame in use. When no frame is free, one
is taken from a page by eviction. A frame that is handed out for a page stays pinned until it is
unpinned, and a frame asked for as zero is all zero, wherever it came from.

The operations on a frame take a number that may be stale; a frame that is not in use is left alone.
-/

set_option autoImplicit false

namespace DemandPaging

namespace Transition

/-- Take a free frame for an address space, if there is one. -/
def allocFree (owner : SpaceId) (page : Option Nat) : Transition (Option Nat) := do
  let (frame, table) ← ofExcept ((← frames).allocFree owner page)
  setFrames table
  pure frame

/-- Record a frame that an eviction has made free. -/
def record (frame : Nat) (owner : SpaceId) (page : Option Nat) : Transition Unit := do
  setFrames (← ofExcept ((← frames).insert { frame, owner, page } page.isSome))

/-- Bind a frame in use to a page. -/
def bind (frame page : Nat) : Transition Unit := do
  let table ← frames
  match table.position? frame with
  | none => notify (.bindUnknown frame)
  | some _ => setFrames (table.bind frame page)

/-- Let evictions have a frame in use. -/
def unpin (frame : Nat) : Transition Unit := do
  setFrames (← ofExcept ((← frames).unpin frame))

/-- Pin a frame if it still backs a page. Answers whether it does. -/
def pinIfBacking (frame : Nat) (owner : SpaceId) (page : Nat) : Transition Bool := do
  let (backs, table) ← ofExcept ((← frames).pinIfBacking frame owner page)
  setFrames table
  pure backs

/-- Give a frame in use back to the pool. -/
def free (frame : Nat) : Transition Unit := do
  let table ← frames
  match table.position? frame with
  | none => notify (.freeUnknown frame)
  | some _ => setFrames (← ofExcept (table.free frame))

/-- Unmap the pages that some frames were bound to. -/
def clearPages : List FrameRecord → Transition Unit
  | [] => pure ()
  | record :: rest => do
    match record.page with
    | none => pure ()
    | some page => do
      let _ ← clear record.owner page
    clearPages rest

/-- Give back all frames of an address space and unmap their pages. Answers their records in scan
order. -/
def freeOwnedBy (owner : SpaceId) : Transition (List FrameRecord) := do
  let (gone, table) ← ofExcept ((← frames).freeOwnedBy owner)
  setFrames table
  clearPages gone
  pure gone

/-- What is known of a frame in use. -/
def lookup (frame : Nat) : Transition (Option FrameInfo) := return (← frames).info? frame

end Transition

namespace Kernel

variable {m : Type → Type} [Kernel m]

/-- Hand a frame over, zeroed if that is asked for and not done yet. -/
def handOver (owner : SpaceId) (page : Option Nat) (zeroed clean : Bool) (frame : Nat) :
    m Unit := do
  if zeroed && !clean then holding (.contents frame) (Transition.zero frame)
  Transition.notify (.allocated (← Transition.space owner).pid frame page)

/-- A frame for an address space, bound to a page or not. -/
def allocateRecord (owner : SpaceId) (page : Option Nat) (zeroed : Bool) :
    m (Except VmError Nat) := do
  match ← holding .frames (Transition.allocFree owner page) with
  | some frame => do
    handOver owner page zeroed false frame
    pure (.ok frame)
  | none =>
    match ← evict with
    | .error cause => pure (.error cause)
    | .ok (frame, clean) => do
      holding .frames (Transition.record frame owner page)
      handOver owner page zeroed clean frame
      pure (.ok frame)

/-- A frame for an address space, not bound to any page yet. -/
def allocate (owner : SpaceId) (zeroed : Bool) : m (Except VmError Nat) :=
  allocateRecord owner none zeroed

/-- A frame for a page of an address space, pinned until it is unpinned. -/
def allocateFor (owner : SpaceId) (page : Nat) (zeroed : Bool) : m (Except VmError Nat) :=
  allocateRecord owner (some page) zeroed

/-- Bind a frame in use to a page. -/
def bindPage (frame page : Nat) : m Unit := holding .frames (Transition.bind frame page)

/-- Let evictions have a frame in use. -/
def unpin (frame : Nat) : m Unit := holding .frames (Transition.unpin frame)

/-- Pin a frame if it still backs a page. Answers whether it does. -/
def pinIfBacking (frame : Nat) (owner : SpaceId) (page : Nat) : m Bool :=
  holding .frames (Transition.pinIfBacking frame owner page)

/-- Give a frame in use back to the pool. -/
def free (frame : Nat) : m Unit := holding .frames (Transition.free frame)

/-- Give back all frames of an address space and unmap their pages. Answers their records in scan
order. -/
def freeOwnedBy (owner : SpaceId) : m (List FrameRecord) :=
  holding .frames (Transition.freeOwnedBy owner)

/-- What is known of a frame in use. -/
def lookup (frame : Nat) : m (Option FrameInfo) := holding .frames (Transition.lookup frame)

/-- The `n` bytes of a frame from `start` on. -/
def readFrame (frame start n : Nat) : m Bytes :=
  holding (.contents frame) (Transition.readFrame frame start n)

/-- Store `data` in a frame from `start` on. -/
def writeFrame (frame start : Nat) (data : Bytes) : m Unit :=
  holding (.contents frame) (Transition.writeFrame frame start data)

end Kernel

end DemandPaging
