import DemandPaging.Address
import DemandPaging.PageTable.Entry
import DemandPaging.PageTable.FaultCode
import Std.Data.ExtTreeMap

/-!
# Page directories

The page directory of one process: which pages are mapped, and how. Entries are kept by page
number, in ascending order, so every address inside a page names the same entry.

`translate` is the access that the processor makes on behalf of the process: it either finds the
frame and marks the page as used, or reports the code of the fault and changes nothing.

A directory can also be told to turn down its next mappings (`refusals`), as one does whose page
tables cannot be allocated.
-/

set_option autoImplicit false

namespace DemandPaging

/-- The mapped pages of one process. -/
structure PageDirectory where
  /-- The entries by page number. -/
  entries : Std.ExtTreeMap Nat PageTableEntry := ∅
  /-- How many of the next mappings will be turned down. -/
  refusals : Nat := 0

namespace PageDirectory

/-- A directory that maps nothing. -/
def empty : PageDirectory := {}

/-- The entry of the page that holds `address`, if it is mapped. -/
def find? (d : PageDirectory) (address : Nat) : Option PageTableEntry :=
  d.entries[pageNumber address]?

/-- The number of mapped pages. -/
def count (d : PageDirectory) : Nat := d.entries.size

/-- The mapped pages with their entries, lowest address first. -/
def toList (d : PageDirectory) : List (Nat × PageTableEntry) :=
  d.entries.toList.map fun e => (e.1 * pageSize, e.2)

/-- Map `page` to `frame`. Answers `false`, and maps nothing, if the page is mapped already or the
directory turns the mapping down. The page must be aligned and the frame must fit in an entry. -/
def install (d : PageDirectory) (page frame : Nat) (writable : Bool) :
    Except Halt (Bool × PageDirectory) :=
  if 0 < d.refusals then .ok (false, { d with refusals := d.refusals - 1 })
  else if ¬ IsAligned page then .error .brokenPromise
  else if d.entries.contains (pageNumber page) then .ok (false, d)
  else match PageTableEntry.userPage? frame writable with
    | none => .error (.frameTooLarge frame)
    | some entry => .ok (true, { d with entries := d.entries.insert (pageNumber page) entry })

/-- Unmap the page that holds `address`. Answers its entry as the processor last left it. -/
def clear (d : PageDirectory) (address : Nat) : Option PageTableEntry × PageDirectory :=
  (d.find? address, { d with entries := d.entries.erase (pageNumber address) })

/-- Change the entry of the page that holds `address`, if it is mapped. -/
def modify (d : PageDirectory) (address : Nat) (f : PageTableEntry → PageTableEntry) :
    PageDirectory :=
  { d with entries := d.entries.modify (pageNumber address) f }

/-- Set or clear the accessed flag of a mapped page. -/
def setAccessed (d : PageDirectory) (address : Nat) (on : Bool) : PageDirectory :=
  d.modify address fun e => { e with accessed := on }

/-- Set or clear the dirty flag of a mapped page. -/
def setDirty (d : PageDirectory) (address : Nat) (on : Bool) : PageDirectory :=
  d.modify address fun e => { e with dirty := on }

/-- Whether the page that holds `address` is mapped and was used. -/
def isAccessed (d : PageDirectory) (address : Nat) : Bool := (d.find? address).any (·.accessed)

/-- Whether the page that holds `address` is mapped and was written. -/
def isDirty (d : PageDirectory) (address : Nat) : Bool := (d.find? address).any (·.dirty)

/-- A user access to `address`: the frame, and the page marked as used; or the code of the fault,
and nothing changed. -/
def translate (d : PageDirectory) (address : Nat) (write : Bool) :
    Except FaultCode Nat × PageDirectory :=
  match d.find? address with
  | none => (.error (.notPresent write), d)
  | some e =>
    if write && !e.writable then (.error (.protection write), d)
    else (.ok e.frame.toNat, d.modify address (·.touch write))

end PageDirectory

end DemandPaging
