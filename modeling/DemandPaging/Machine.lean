import DemandPaging.Console
import DemandPaging.Frame.Table
import DemandPaging.Space.Basic
import DemandPaging.Swap.Store

/-!
# The machine

All that the memory manager works on: the frame table and the swap store, which every process
shares, the address spaces and files in order of creation, and what was said on the console.

A `Transition` is one step that nothing can interrupt. It reads and changes the machine and either
answers or halts. The transitions here are the primitive ones: each acts on one part of the machine,
and all others are built from them.
-/

set_option autoImplicit false

namespace DemandPaging

/-- The state of the whole system. -/
structure Machine where
  /-- The frames. -/
  frames : FrameTable
  /-- The swap store. -/
  swap : SwapStore
  /-- How far below `kernelBase` a stack may grow. -/
  stackLimit : Nat
  /-- The address spaces, in order of creation. -/
  spaces : Array AddressSpace := #[]
  /-- The files, in order of creation. -/
  files : Array MemoryFile := #[]
  /-- What was said, oldest first. -/
  notices : Array Notice := #[]

namespace Machine

/-- The console with all that was said. -/
def console (machine : Machine) : Console := .ofNotices machine.notices.toList

/-- The machine with all that was said forgotten. -/
def hushed (machine : Machine) : Machine := { machine with notices := #[] }

end Machine

/-- A step that nothing can interrupt. -/
abbrev Transition := EStateM Halt Machine

namespace Transition

/-- Go on with the answer of a part of the machine, or halt with it. -/
def ofExcept {α : Type} : Except Halt α → Transition α
  | .ok a => pure a
  | .error halt => throw halt

/-- Say something. -/
def notify (notice : Notice) : Transition Unit :=
  modify fun machine => { machine with notices := machine.notices.push notice }

/-- How far a stack may grow. -/
def stackLimit : Transition Nat := return (← get).stackLimit

/-! ### Address spaces -/

/-- An address space. -/
def space (s : SpaceId) : Transition AddressSpace := do
  match (← get).spaces[s]? with
  | some space => pure space
  | none => throw .outOfBounds

/-- Change an address space. -/
def modifySpace (s : SpaceId) (f : AddressSpace → AddressSpace) : Transition Unit :=
  modify fun machine => { machine with spaces := machine.spaces.modify s f }

/-- Make an address space. -/
def addSpace (pid : Nat) : Transition SpaceId :=
  modifyGet fun machine =>
    (machine.spaces.size, { machine with spaces := machine.spaces.push (.ofPid pid) })

/-- The page directory of an address space. -/
def directory (s : SpaceId) : Transition PageDirectory := return (← space s).directory

/-- Replace the page directory of an address space. -/
def setDirectory (s : SpaceId) (directory : PageDirectory) : Transition Unit :=
  modifySpace s ({ · with directory })

/-- The supplemental page table of an address space. -/
def supplement (s : SpaceId) : Transition Supplement := return (← space s).supplement

/-- Replace the supplemental page table of an address space. -/
def setSupplement (s : SpaceId) (supplement : Supplement) : Transition Unit :=
  modifySpace s ({ · with supplement })

/-- Change the entry of a page, if it has one. -/
def modifyInfo (s : SpaceId) (page : Nat) (f : PageInfo → PageInfo) : Transition Unit :=
  modifySpace s fun space => { space with supplement := space.supplement.modify page f }

/-- Map a page. Answers `false` if the directory refuses. -/
def install (s : SpaceId) (page frame : Nat) (writable : Bool) : Transition Bool := do
  let (done, directory) ← ofExcept ((← directory s).install page frame writable)
  setDirectory s directory
  pure done

/-- Unmap a page. Answers its last entry, if it was mapped. -/
def clear (s : SpaceId) (page : Nat) : Transition (Option PageTableEntry) := do
  let (entry, directory) := (← directory s).clear page
  setDirectory s directory
  pure entry

/-- Set or clear the accessed flag of a mapped page. -/
def setAccessed (s : SpaceId) (page : Nat) (on : Bool) : Transition Unit :=
  modifySpace s fun space => { space with directory := space.directory.setAccessed page on }

/-- Set or clear the dirty flag of a mapped page. -/
def setDirty (s : SpaceId) (page : Nat) (on : Bool) : Transition Unit :=
  modifySpace s fun space => { space with directory := space.directory.setDirty page on }

/-! ### Files -/

/-- A file. -/
def file (f : FileId) : Transition MemoryFile := do
  match (← get).files[f]? with
  | some file => pure file
  | none => throw .outOfBounds

/-- Replace a file. -/
def setFile (f : FileId) (file : MemoryFile) : Transition Unit :=
  modify fun machine => { machine with files := machine.files.setIfInBounds f file }

/-- Make a file. -/
def addFile (file : MemoryFile) : Transition FileId :=
  modifyGet fun machine => (machine.files.size, { machine with files := machine.files.push file })

/-- Read up to `n` bytes of a file. -/
def readFile (f : FileId) (offset n : Nat) : Transition (Except FileError Bytes) := do
  let (outcome, file) := (← file f).read offset n
  setFile f file
  pure outcome

/-- Write to a file. Answers how many bytes were stored. -/
def writeFile (f : FileId) (offset : Nat) (data : Bytes) : Transition (Except FileError Nat) := do
  let (outcome, file) := (← file f).write offset data
  setFile f file
  pure outcome

/-! ### Frames -/

/-- The frame table. -/
def frames : Transition FrameTable := return (← get).frames

/-- Replace the frame table. -/
def setFrames (frames : FrameTable) : Transition Unit :=
  modify fun machine => { machine with frames }

/-- The contents of a frame. -/
def page (frame : Nat) : Transition Page := do ofExcept ((← frames).memory.page frame)

/-- Replace the contents of a frame. -/
def setPage (frame : Nat) (page : Page) : Transition Unit := do
  let table ← frames
  setFrames { table with memory := table.memory.setPage frame page }

/-- Fill a frame with zeroes. -/
def zero (frame : Nat) : Transition Unit := do
  let table ← frames
  setFrames { table with memory := ← ofExcept (table.memory.zero frame) }

/-- The `n` bytes of a frame from `start` on. -/
def readFrame (frame start n : Nat) : Transition Bytes := do
  ofExcept ((← frames).memory.read frame start n)

/-- Store `data` in a frame from `start` on. -/
def writeFrame (frame start : Nat) (data : Bytes) : Transition Unit := do
  let table ← frames
  setFrames { table with memory := ← ofExcept (table.memory.write frame start data) }

/-! ### Swap -/

/-- The swap store. -/
def swap : Transition SwapStore := return (← get).swap

/-- Replace the swap store. -/
def setSwap (swap : SwapStore) : Transition Unit := modify fun machine => { machine with swap }

/-- Change the disk under the swap store, as by turning its switches. -/
def modifyDisk (f : RamDisk → RamDisk) : Transition Unit := do
  let store ← swap
  setSwap { store with device := { store.device with disk := f store.device.disk } }

/-- Claim a swap slot. There is none if swap is full. -/
def allocateSlot : Transition (Option Nat) := do
  let (slot, store) ← ofExcept (← swap).allocate
  setSwap store
  pure slot

/-- Give back a swap slot that is in use. -/
def releaseSlot (slot : Nat) : Transition Unit := do
  setSwap (← ofExcept ((← swap).release slot))

end Transition

end DemandPaging
