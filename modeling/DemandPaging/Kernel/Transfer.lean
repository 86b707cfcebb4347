import DemandPaging.Kernel.Basic

/-!
# Moving pages in and out

A page in a frame is moved to a swap slot or from one, sector by sector, and the file part of a page
is written back to its file or read from it. Each sector that reaches the disk, and each call that
reaches a file, is an event; what came before it is done and what comes after it is not.

The contents of the frame are held for the whole of a transfer, and the swap device is held while a
page goes through it. Reading over a frame is not undone by a failure: the frame keeps what arrived.
-/

set_option autoImplicit false

namespace DemandPaging

namespace Transition

/-- Halt unless the machine has a frame of this number. -/
def requireFrame (frame : Nat) : Transition Unit := do
  let _ ← page frame

/-- Halt unless a slot is in use. -/
def requireUsed (slot : Nat) : Transition Unit := do
  if (← swap).isUsed slot then pure () else throw .brokenPromise

/-- Let the disk write one part of a frame to a slot. -/
def writePart (slot frame : Nat) (k : Fin sectorsPerPage) :
    Transition (Except BlockError Unit) := do
  let (outcome, store) ← ofExcept ((← swap).writePart slot (← page frame) k)
  setSwap store
  pure outcome

/-- Let the disk read one part of a frame from a slot. -/
def readPart (slot frame : Nat) (k : Fin sectorsPerPage) :
    Transition (Except BlockError Unit) := do
  let (outcome, store) ← ofExcept ((← swap).readPart slot (← page frame) k)
  setSwap store
  match outcome with
  | .error cause => pure (.error cause)
  | .ok page => do
    setPage frame page
    pure (.ok ())

/-- Halt unless the bytes that a window takes from its file fit in a page. -/
def requireWindow (segment : Segment) : Transition Unit :=
  if segment.readBytes ≤ pageSize then pure () else throw .outOfBounds

/-- Put into a frame what was read from its file, and zeroes behind the window. -/
def fillFrame (frame : Nat) (segment : Segment) (data : Bytes) : Transition Unit := do
  setPage frame (((← page frame).store 0 data).clearFrom segment.readBytes)

end Transition

namespace Kernel

variable {m : Type → Type} [Kernel m]

/-- Write a frame to a slot in use. -/
def writeSlot (slot frame : Nat) : m (Except BlockError Unit) := do
  Transition.requireFrame frame
  holding (.contents frame) do
    Transition.requireUsed slot
    holding .device do
      let outcome ← upToFailure (fun k => do
        match (← Transition.swap).refuseWrite? slot k with
        | some cause => pure (.error cause)
        | none => do
          interrupt .swapWrite
          Transition.writePart slot frame k) SwapStore.parts
      match outcome with
      | .error cause => pure (.error cause)
      | .ok () => do
        Transition.notify (.swapWrote slot)
        pure (.ok ())

/-- Read a slot in use over a frame. -/
def readSlot (slot frame : Nat) : m (Except BlockError Unit) := do
  Transition.requireFrame frame
  holding (.contents frame) do
    Transition.requireUsed slot
    holding .device do
      let outcome ← upToFailure (fun k => do
        match (← Transition.swap).refuseRead? slot k with
        | some cause => pure (.error cause)
        | none => do
          interrupt .swapRead
          Transition.readPart slot frame k) SwapStore.parts
      match outcome with
      | .error cause => pure (.error cause)
      | .ok () => do
        Transition.notify (.swapRead slot)
        pure (.ok ())

/-- Write the file part of a frame back to its file. A short write leaves the rest of the page
unsaved and counts as running out of room. -/
def writeBack (frame : Nat) (segment : Segment) : m (Except FileError Unit) :=
  holding (.contents frame) do
    Transition.requireWindow segment
    let data := (← Transition.page frame).window 0 segment.readBytes
    interrupt (.fileWrite segment.file)
    match ← Transition.writeFile segment.file segment.offset data with
    | .error cause => pure (.error cause)
    | .ok stored => pure (if stored = segment.readBytes then .ok () else .error .noSpace)

/-- Read the file part of a frame from its file and fill the frame up with zeroes. Answers how many
bytes the file gave. -/
def readIn (frame : Nat) (segment : Segment) : m (Except FileError Nat) :=
  holding (.contents frame) do
    Transition.requireWindow segment
    interrupt (.fileRead segment.file)
    match ← Transition.readFile segment.file segment.offset segment.readBytes with
    | .error cause => do
      Transition.fillFrame frame segment #[]
      pure (.error cause)
    | .ok data => do
      Transition.fillFrame frame segment data
      pure (.ok data.size)

end Kernel

end DemandPaging
