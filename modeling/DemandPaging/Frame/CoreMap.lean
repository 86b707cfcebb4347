/-!
# The core map

One entry per frame of the user pool: is the frame handed out, and is it pinned. A run of frames is
given by its first index and its length.
-/

set_option autoImplicit false

namespace DemandPaging

/-- What the pool knows of one frame. -/
structure CoreMapEntry where
  /-- The frame is handed out. -/
  allocated : Bool := false
  /-- The frame must not be evicted. -/
  pinned : Bool := false
  deriving DecidableEq, Repr, Inhabited

/-- The entries of all frames, by frame number. -/
abbrev CoreMap := Array CoreMapEntry

namespace CoreMap

/-- Whether the pool has a frame of this number and it is free. -/
def isFree (map : CoreMap) (frame : Nat) : Bool := map[frame]?.any fun e => !e.allocated

/-- The number of free frames that follow one another from `start` on, counted up to `limit`. -/
def freeRun (map : CoreMap) (start : Nat) : (limit : Nat) → Nat
  | 0 => 0
  | limit + 1 => if map.isFree start then freeRun map (start + 1) limit + 1 else 0

end CoreMap

end DemandPaging
