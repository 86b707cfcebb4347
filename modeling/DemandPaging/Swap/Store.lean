import DemandPaging.Block.Basic
import DemandPaging.Swap.SlotBitmap

/-!
# The swap store

Page-sized slots on a block device: slot `i` occupies the `sectorsPerPage` sectors from
`i * sectorsPerPage` on, so distinct slots share no sector, and the sectors left over at the end of
the device are not used. Only page contents are on the device; which slots are in use is known in
memory alone, and at first all are free.

A page goes out and comes back sector by sector. A failure ends the transfer where it stands: the
sectors before it are done, and which slots are in use does not change.
-/

set_option autoImplicit false

namespace DemandPaging

/-- A block device cut into slots. -/
structure SwapStore where
  /-- Which slots are free. -/
  slots : SlotBitmap
  /-- The device that holds the pages. -/
  device : Block

namespace SwapStore

/-- The slots that fit on a device, all free. -/
def ofDevice (device : Block) : SwapStore where
  slots := .ofCount (device.size / sectorsPerPage)
  device

/-- What is said when a device becomes the swap store. -/
def announcements (device : Block) : List Notice :=
  (if device.kind = .swap then [] else [.notSwapDevice device.text]) ++
    [.swapReady device.name device.size (device.size / sectorsPerPage)]

/-- The number of slots. -/
def slotCount (store : SwapStore) : Nat := store.slots.count

/-- The number of slots in use. -/
def usedCount (store : SwapStore) : Nat := store.slots.used

/-- Whether the slot exists and is in use. -/
def isUsed (store : SwapStore) (slot : Nat) : Bool := store.slots.isUsed slot

/-- Claim a free slot, if there is one. -/
def allocate (store : SwapStore) : Except Halt (Option Nat × SwapStore) :=
  match store.slots.allocate with
  | .error halt => .error halt
  | .ok (slot, slots) => .ok (slot, { store with slots })

/-- Give back a slot that is in use. -/
def release (store : SwapStore) (slot : Nat) : Except Halt SwapStore :=
  match store.slots.free slot with
  | .error halt => .error halt
  | .ok slots => .ok { store with slots }

/-- The sector that holds the `k`-th part of a slot. -/
def sectorOf (slot : Nat) (k : Fin sectorsPerPage) : Nat := slot * sectorsPerPage + k

/-- The parts of a page, in the order in which they are transferred. -/
def parts : List (Fin sectorsPerPage) := List.finRange sectorsPerPage

/-- Whether the device itself lets a part of a slot be written. -/
def refuseWrite? (store : SwapStore) (slot : Nat) (k : Fin sectorsPerPage) : Option BlockError :=
  store.device.refuseWrite? (sectorOf slot k)

/-- Whether the device itself lets a part of a slot be read. -/
def refuseRead? (store : SwapStore) (slot : Nat) (k : Fin sectorsPerPage) : Option BlockError :=
  store.device.refuseRead? (sectorOf slot k)

/-- Let the disk write one part of a page to a slot. -/
def writePart (store : SwapStore) (slot : Nat) (page : Page) (k : Fin sectorsPerPage) :
    Except Halt (Except BlockError Unit × SwapStore) :=
  match store.device.writeDisk (sectorOf slot k) (page.sector k) with
  | .error halt => .error halt
  | .ok (result, device) => .ok (result, { store with device })

/-- Let the disk read one part of a page from a slot. Answers the page with that part replaced. -/
def readPart (store : SwapStore) (slot : Nat) (page : Page) (k : Fin sectorsPerPage) :
    Except Halt (Except BlockError Page × SwapStore) :=
  match store.device.readDisk (sectorOf slot k) with
  | .error halt => .error halt
  | .ok (.error cause, device) => .ok (.error cause, { store with device })
  | .ok (.ok sector, device) => .ok (.ok (page.setSector k sector), { store with device })

end SwapStore

end DemandPaging
