import DemandPaging.PageTable.Directory
import DemandPaging.Space.Supplement

/-!
# Address spaces

One process's view of user memory: its page directory, and what is needed to bring in the pages that
are not mapped.
-/

set_option autoImplicit false

namespace DemandPaging

/-- The user memory of one process. -/
structure AddressSpace where
  /-- The number of the process. -/
  pid : Nat
  /-- Which pages are mapped. -/
  directory : PageDirectory := {}
  /-- What is known of pages besides. -/
  supplement : Supplement := {}

namespace AddressSpace

/-- The address space of a new process. -/
def ofPid (pid : Nat) : AddressSpace := { pid }

/-- Whether the address space was torn down. -/
def isDestroyed (space : AddressSpace) : Bool := space.supplement.destroyed

/-- The address space as it is shown. -/
def text (space : AddressSpace) : String :=
  Record.textOpen "AddressSpace" [("pid", toString space.pid)]

end AddressSpace

end DemandPaging
