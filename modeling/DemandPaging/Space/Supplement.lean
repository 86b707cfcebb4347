import DemandPaging.Halt
import DemandPaging.Space.Backing
import Std.Data.ExtTreeMap

/-!
# The supplemental page table

Per address space, what the page directory cannot say: an entry for each page that may have to be
brought in, and the live mappings of files. Entries are kept by page address and mappings by number,
both in ascending order. Mapping numbers are given out in order and never twice; they have 32 bits,
and asking for one more halts.

A destroyed table takes no entries any more.
-/

set_option autoImplicit false

namespace DemandPaging

/-- A file mapped to consecutive pages. -/
structure Mapping where
  /-- The file. -/
  file : FileId
  /-- The first page. -/
  page : Nat
  /-- The number of pages. -/
  pages : Nat
  deriving DecidableEq, Repr, Inhabited

/-- The largest mapping number, which is never given out. -/
abbrev maxMappingId : Nat := 0xffffffff

/-- The entries and mappings of one address space. -/
structure Supplement where
  /-- The entries by page address. -/
  entries : Std.ExtTreeMap Nat PageInfo := ∅
  /-- The live mappings by number. -/
  mappings : Std.ExtTreeMap Nat Mapping := ∅
  /-- The number of the next mapping. -/
  nextMapping : Nat := 0
  /-- The address space was torn down. -/
  destroyed : Bool := false

namespace Supplement

/-- The entry of a page. -/
def find? (table : Supplement) (page : Nat) : Option PageInfo := table.entries[page]?

/-- Whether a page has an entry. -/
def contains (table : Supplement) (page : Nat) : Bool := table.entries.contains page

/-- The number of entries. -/
def size (table : Supplement) : Nat := table.entries.size

/-- All entries, lowest page first. -/
def toList (table : Supplement) : List PageInfo := table.entries.values

/-- Add an entry for a page that has none. -/
def insert (table : Supplement) (info : PageInfo) : Except VmError Supplement :=
  if table.destroyed then .error .destroyed
  else if table.contains info.page then .error .alreadyRegistered
  else .ok { table with entries := table.entries.insert info.page info }

/-- Drop the entry of a page. -/
def erase (table : Supplement) (page : Nat) : Supplement :=
  { table with entries := table.entries.erase page }

/-- Change the entry of a page, if it has one. -/
def modify (table : Supplement) (page : Nat) (f : PageInfo → PageInfo) : Supplement :=
  { table with entries := table.entries.modify page f }

/-- The entry of a page about to be evicted, made on the spot if the page never had one. A destroyed
table has none. -/
def findOrAnonymous (table : Supplement) (page : Nat) : Option (PageInfo × Supplement) :=
  if table.destroyed then none
  else match table.find? page with
    | some info => some (info, table)
    | none =>
      let info := PageInfo.anonymous page
      some (info, { table with entries := table.entries.insert page info })

/-- Drop everything and take no entries any more. -/
def destroy (table : Supplement) : Supplement :=
  { table with entries := ∅, mappings := ∅, destroyed := true }

/-- Add a mapping and give it a number. -/
def addMapping (table : Supplement) (mapping : Mapping) : Except Halt (Nat × Supplement) :=
  if table.nextMapping < maxMappingId then
    .ok (table.nextMapping,
      { table with
        mappings := table.mappings.insert table.nextMapping mapping
        nextMapping := table.nextMapping + 1 })
  else .error .overflow

/-- Remove a mapping, if it is live. -/
def takeMapping (table : Supplement) (id : Nat) : Option (Mapping × Supplement) :=
  table.mappings[id]?.map fun mapping =>
    (mapping, { table with mappings := table.mappings.erase id })

/-- The numbers of the live mappings, lowest first. -/
def mappingIds (table : Supplement) : List Nat := table.mappings.keys

/-- The number of live mappings. -/
def mappingCount (table : Supplement) : Nat := table.mappings.size

end Supplement

end DemandPaging
