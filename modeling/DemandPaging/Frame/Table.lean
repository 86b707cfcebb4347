import DemandPaging.Frame.Memory
import DemandPaging.Frame.Pool
import DemandPaging.Replacement.SecondChance

/-!
# The frame table

Every user frame in use: who owns it and which page it backs. Records stand in the order in which
the clock hand meets them, and a new record goes to the back. A frame is pinned while its contents
are being loaded, so that no eviction takes it half filled.

A frame that an eviction has taken out has no record and stays allocated in the pool. Most functions
here take a frame number that may be stale, and do nothing if the frame has no record.
-/

set_option autoImplicit false

namespace DemandPaging

/-- Names an address space by its place in the order of creation. -/
abbrev SpaceId := Nat

/-- A frame in use. -/
structure FrameRecord where
  /-- The frame. -/
  frame : Nat
  /-- The address space it belongs to. -/
  owner : SpaceId
  /-- The page it backs, once it is bound to one. -/
  page : Option Nat
  deriving DecidableEq, Repr, Inhabited

/-- What may be asked about a frame in use. -/
structure FrameInfo where
  /-- The address space it belongs to. -/
  owner : SpaceId
  /-- The page it backs. -/
  page : Option Nat
  /-- It must not be evicted. -/
  pinned : Bool
  deriving DecidableEq, Repr, Inhabited

/-- The frames of the user pool with their records and contents. -/
structure FrameTable where
  /-- The frames in use, in the order in which the clock hand meets them. -/
  records : List FrameRecord := []
  /-- The clock. -/
  clock : SecondChance := {}
  /-- Which frames are out. -/
  pool : FramePool
  /-- The contents of the frames. -/
  memory : FrameMemory

namespace FrameTable

/-- A table of `frames` free frames. -/
def ofSize (frames : Nat) (placement : Placement) : FrameTable where
  pool := .ofSize frames placement
  memory := .ofSize frames

/-- The number of frames in use. -/
def size (table : FrameTable) : Nat := table.records.length

/-- The number of frames, in use or not. -/
def capacity (table : FrameTable) : Nat := table.memory.size

/-- The number of frames out of the pool, the one that an eviction is moving included. -/
def allocated (table : FrameTable) : Nat := table.pool.allocated

/-- Where in the scan order a frame is. -/
def position? (table : FrameTable) (frame : Nat) : Option Nat :=
  table.records.findIdx? (·.frame == frame)

/-- The record of a frame. -/
def record? (table : FrameTable) (frame : Nat) : Option FrameRecord :=
  table.records.find? (·.frame == frame)

/-- What is known of a frame in use. -/
def info? (table : FrameTable) (frame : Nat) : Option FrameInfo :=
  (table.record? frame).map fun r =>
    { owner := r.owner, page := r.page, pinned := table.pool.isPinned frame }

/-- Whether the record at an index may be evicted: bound to a page and not pinned. -/
def isEligible (table : FrameTable) (index : Nat) : Bool :=
  table.records[index]?.any fun r => r.page.isSome && !table.pool.isPinned r.frame

/-- Record a frame that the pool has already handed out. -/
def insert (table : FrameTable) (record : FrameRecord) (pinned : Bool) :
    Except Halt FrameTable :=
  match table.pool.setPinned record.frame pinned with
  | .error halt => .error halt
  | .ok pool => .ok { table with pool, records := table.records ++ [record] }

/-- Take a free frame from the pool and record it, pinned if it is bound to a page. -/
def allocFree (table : FrameTable) (owner : SpaceId) (page : Option Nat) :
    Except Halt (Option Nat × FrameTable) :=
  match table.pool.alloc with
  | .error halt => .error halt
  | .ok (none, pool) => .ok (none, { table with pool })
  | .ok (some frame, pool) =>
    match { table with pool }.insert { frame, owner, page } page.isSome with
    | .error halt => .error halt
    | .ok table => .ok (some frame, table)

/-- Take the record at an index out of the table. -/
def removeAt (table : FrameTable) (index : Nat) : FrameTable :=
  { table with records := table.records.eraseIdx index, clock := table.clock.removed index }

/-- Bind a frame in use to a page. -/
def bind (table : FrameTable) (frame page : Nat) : FrameTable :=
  match table.position? frame with
  | none => table
  | some index =>
    { table with records := table.records.modify index ({ · with page := some page }) }

/-- Let evictions have a frame again. -/
def unpin (table : FrameTable) (frame : Nat) : Except Halt FrameTable :=
  match table.position? frame with
  | none => .ok table
  | some _ => match table.pool.setPinned frame false with
    | .error halt => .error halt
    | .ok pool => .ok { table with pool }

/-- Whether a frame still backs a page of an address space. -/
def isBacking (table : FrameTable) (frame : Nat) (owner : SpaceId) (page : Nat) : Bool :=
  (table.record? frame).any fun r => r.owner == owner && r.page == some page

/-- Pin a frame if it still backs the page. Answers `false` when an eviction was faster. -/
def pinIfBacking (table : FrameTable) (frame : Nat) (owner : SpaceId) (page : Nat) :
    Except Halt (Bool × FrameTable) :=
  if table.isBacking frame owner page then
    match table.pool.setPinned frame true with
    | .error halt => .error halt
    | .ok pool => .ok (true, { table with pool })
  else .ok (false, table)

/-- Drop the record of a frame and give the frame back to the pool. -/
def free (table : FrameTable) (frame : Nat) : Except Halt FrameTable :=
  match table.position? frame with
  | none => .ok table
  | some index =>
    match table.pool.dealloc frame with
    | .error halt => .error halt
    | .ok pool => .ok { table.removeAt index with pool }

/-- Go through the records from `index` on and take out those of `owner`: the records that stay,
those that go, and the clock after all removals. -/
def partitionOwned (owner : SpaceId) :
    (index : Nat) → List FrameRecord → SecondChance →
      List FrameRecord × List FrameRecord × SecondChance
  | _, [], clock => ([], [], clock)
  | index, record :: rest, clock =>
    if record.owner = owner then
      let (kept, gone, clock) := partitionOwned owner index rest (clock.removed index)
      (kept, record :: gone, clock)
    else
      let (kept, gone, clock) := partitionOwned owner (index + 1) rest clock
      (record :: kept, gone, clock)

/-- Give frames back to the pool, one after the other. -/
def deallocAll (pool : FramePool) : List FrameRecord → Except Halt FramePool
  | [] => .ok pool
  | record :: rest =>
    match pool.dealloc record.frame with
    | .error halt => .error halt
    | .ok pool => deallocAll pool rest

/-- Drop all records of an address space and give its frames back. Answers the records in scan
order. -/
def freeOwnedBy (table : FrameTable) (owner : SpaceId) :
    Except Halt (List FrameRecord × FrameTable) :=
  let (kept, gone, clock) := partitionOwned owner 0 table.records table.clock
  match deallocAll table.pool gone with
  | .error halt => .error halt
  | .ok pool => .ok (gone, { table with records := kept, clock, pool })

end FrameTable

end DemandPaging
