import DemandPaging.File.Basic
import DemandPaging.Text.Record

/-!
# What backs a page

A page that the process may use, but that need not be in memory, has an entry that says where its
contents are: a window of a file, a swap slot, or both. With both, the slot is right and the file is
stale; the window stays known because the page keeps its protection.

`movedToSwap` and `movedIn?` are the two moves between swap and memory. A page that had only a swap
slot needs no entry once it is back.
-/

set_option autoImplicit false

namespace DemandPaging

/-- A window of a file that fills one page: `readBytes` bytes, then zeroes. -/
structure Segment where
  /-- The file. -/
  file : FileId
  /-- Where in the file the window begins. -/
  offset : Nat
  /-- How many bytes of the page come from the file. -/
  readBytes : Nat
  /-- How many zeroes follow. -/
  zeroBytes : Nat
  /-- The page may be written. -/
  writable : Bool
  /-- Changes go back to the file and not to swap, as for a mapped file. -/
  writeBack : Bool
  deriving DecidableEq, Repr, Inhabited

/-- A page parked in a swap slot. -/
structure SwapCopy where
  /-- The slot. -/
  slot : Nat
  /-- The page may be written. -/
  writable : Bool
  deriving DecidableEq, Repr, Inhabited

/-- Where the contents of a page are while it is not in memory. -/
inductive Backing where
  /-- In the file: nothing changed since. -/
  | file (segment : Segment)
  /-- In a swap slot, and nowhere else. -/
  | swap (copy : SwapCopy)
  /-- In a swap slot; the file window is stale. -/
  | fileThenSwap (segment : Segment) (copy : SwapCopy)
  /-- Nowhere yet: the page is about to leave memory for the first time. -/
  | anonymous
  deriving DecidableEq, Repr, Inhabited

namespace Backing

/-- The short form of the backing. -/
def name : Backing → String
  | file _ => "File"
  | swap _ => "Swap"
  | fileThenSwap .. => "FileThenSwap"
  | anonymous => "Anonymous"

/-- The file window, if there is one. -/
def segment? : Backing → Option Segment
  | file segment | fileThenSwap segment _ => some segment
  | swap _ | anonymous => none

/-- The swap copy, if there is one. -/
def copy? : Backing → Option SwapCopy
  | swap copy | fileThenSwap _ copy => some copy
  | file _ | anonymous => none

end Backing

/-- What is known of a page besides its place in memory. -/
structure PageInfo where
  /-- The address of the page. -/
  page : Nat
  /-- Where its contents are while it is not in memory. -/
  backing : Backing
  /-- It is in memory. -/
  resident : Bool
  /-- An eviction is moving it out. -/
  evicting : Bool := false
  deriving DecidableEq, Repr, Inhabited

namespace PageInfo

/-- A page to be loaded from a file when it is first used. -/
def fileBacked (page : Nat) (segment : Segment) : PageInfo :=
  { page, backing := .file segment, resident := false }

/-- A page in memory that has never been anywhere else. -/
def anonymous (page : Nat) : PageInfo := { page, backing := .anonymous, resident := true }

/-- The file window, if there is one. -/
def segment? (info : PageInfo) : Option Segment := info.backing.segment?

/-- The swap copy, if there is one. -/
def copy? (info : PageInfo) : Option SwapCopy := info.backing.copy?

/-- The page after its contents have gone to swap. -/
def movedToSwap (info : PageInfo) (copy : SwapCopy) : PageInfo :=
  { info with
    backing := match info.backing with
      | .file segment | .fileThenSwap segment _ => .fileThenSwap segment copy
      | .swap _ | .anonymous => .swap copy
    resident := false }

/-- The page after its contents have come back from swap, if it still needs an entry. -/
def movedIn? (info : PageInfo) : Option PageInfo :=
  match info.backing with
  | .file segment | .fileThenSwap segment _ =>
    some { info with backing := .file segment, resident := true }
  | .swap _ | .anonymous => none

/-! ### Shown form

An entry is shown as a record with named fields. The file of a window is left out. -/

/-- A file window as it is shown. -/
def segmentText (segment : Segment) : String :=
  Record.textOpen "FileSegment"
    [("offset", toString segment.offset), ("read_bytes", toString segment.readBytes),
      ("zero_bytes", toString segment.zeroBytes), ("writable", toString segment.writable),
      ("write_back", toString segment.writeBack)]

/-- A swap copy as it is shown. -/
def copyText (copy : SwapCopy) : String :=
  Record.text "SwapPage"
    [("slot", "SwapSlot(" ++ toString copy.slot ++ ")"), ("writable", toString copy.writable)]

/-- A backing as it is shown: its name with what it carries in parentheses. -/
def backingText : Backing → String
  | .file segment => "File(" ++ segmentText segment ++ ")"
  | .swap copy => "Swap(" ++ copyText copy ++ ")"
  | .fileThenSwap segment copy =>
    "FileThenSwap(" ++ segmentText segment ++ ", " ++ copyText copy ++ ")"
  | .anonymous => "Anonymous"

/-- The entry as it is shown. -/
def text (info : PageInfo) : String :=
  Record.text "Spte"
    [("upage", toString info.page), ("backing", backingText info.backing),
      ("resident", toString info.resident), ("evicting", toString info.evicting)]

end PageInfo

end DemandPaging
