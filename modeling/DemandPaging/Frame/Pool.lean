import DemandPaging.Frame.Placement
import DemandPaging.Halt

/-!
# The frame pool

The pool hands out single frames and takes them back. It keeps no record of who has a frame or what
is in it; it only knows which frames are out, which of those are pinned, and how many are out.

Giving back a frame that is free, or pinning one, is a broken promise of the caller and halts. The
pool also checks its own promise, that a frame it hands out was free.
-/

set_option autoImplicit false

namespace DemandPaging

/-- The pool of user frames. -/
structure FramePool where
  /-- What is known of each frame. -/
  map : CoreMap
  /-- The policy that chooses the next frame. -/
  placer : Placer
  /-- The number of frames that are out. -/
  allocated : Nat := 0
  deriving DecidableEq, Repr, Inhabited

namespace FramePool

/-- A pool of `frames` free frames. -/
def ofSize (frames : Nat) (placement : Placement) : FramePool where
  map := Array.replicate frames {}
  placer := .ofPlacement placement

/-- The number of frames, free or not. -/
def capacity (pool : FramePool) : Nat := pool.map.size

/-- Whether some frame is free, by the count. -/
def hasRoom (pool : FramePool) : Bool := pool.allocated < pool.capacity

/-- Whether the frame is handed out. -/
def isAllocated (pool : FramePool) (frame : Nat) : Bool := pool.map[frame]?.any (·.allocated)

/-- Whether the frame is pinned. -/
def isPinned (pool : FramePool) (frame : Nat) : Bool := pool.map[frame]?.any (·.pinned)

/-- What is known of a frame; there is no frame past the end of the pool. -/
def entry (pool : FramePool) (frame : Nat) : Except Halt CoreMapEntry :=
  match pool.map[frame]? with
  | some entry => .ok entry
  | none => .error .outOfBounds

/-- Replace what is known of one frame. -/
def setEntry (pool : FramePool) (frame : Nat) (entry : CoreMapEntry) : FramePool :=
  { pool with map := pool.map.setIfInBounds frame entry }

/-- Hand out a free frame, unpinned. There is none if every frame is out. -/
def alloc (pool : FramePool) : Except Halt (Option Nat × FramePool) :=
  if pool.allocated = pool.capacity then .ok (none, pool)
  else
    let (place, placer) := pool.placer.place pool.map 1
    let pool := { pool with placer }
    match place with
    | none => .ok (none, pool)
    | some frame =>
      if pool.map.isFree frame then
        .ok (some frame, { pool.setEntry frame { allocated := true } with
          allocated := pool.allocated + 1 })
      else .error .brokenPromise

/-- Take back a frame. Its pin goes with it. -/
def dealloc (pool : FramePool) (frame : Nat) : Except Halt FramePool :=
  match pool.entry frame with
  | .error halt => .error halt
  | .ok entry =>
    if ¬ entry.allocated then .error (.doubleFree frame)
    else if pool.allocated = 0 then .error .overflow
    else .ok { pool.setEntry frame {} with allocated := pool.allocated - 1 }

/-- Pin or unpin a frame that is out. -/
def setPinned (pool : FramePool) (frame : Nat) (on : Bool) : Except Halt FramePool :=
  match pool.entry frame with
  | .error halt => .error halt
  | .ok entry =>
    if ¬ entry.allocated then .error .brokenPromise
    else .ok (pool.setEntry frame { entry with pinned := on })

end FramePool

end DemandPaging
