import DemandPaging.Bytes
import DemandPaging.Halt

/-!
# Frame memory

The contents of the frames. Reading or writing is done within one frame; a range that reaches past
the end of its frame, or a frame that does not exist, halts.
-/

set_option autoImplicit false

namespace DemandPaging

/-- The contents of all frames, by frame number. -/
structure FrameMemory where
  /-- The frames. -/
  pages : Array Page

namespace FrameMemory

/-- Memory of `frames` frames, all zero. -/
def ofSize (frames : Nat) : FrameMemory := { pages := Array.replicate frames Page.blank }

/-- The number of frames. -/
def size (memory : FrameMemory) : Nat := memory.pages.size

/-- The contents of a frame. -/
def page (memory : FrameMemory) (frame : Nat) : Except Halt Page :=
  match memory.pages[frame]? with
  | some page => .ok page
  | none => .error .outOfBounds

/-- Replace the contents of a frame. -/
def setPage (memory : FrameMemory) (frame : Nat) (page : Page) : FrameMemory :=
  { pages := memory.pages.setIfInBounds frame page }

/-- The `n` bytes of a frame from `start` on. -/
def read (memory : FrameMemory) (frame start n : Nat) : Except Halt Bytes :=
  match memory.page frame with
  | .error halt => .error halt
  | .ok page => if start + n ≤ pageSize then .ok (page.window start n) else .error .outOfBounds

/-- Store `data` in a frame from `start` on. -/
def write (memory : FrameMemory) (frame start : Nat) (data : Bytes) : Except Halt FrameMemory :=
  match memory.page frame with
  | .error halt => .error halt
  | .ok page =>
    if start + data.size ≤ pageSize then .ok (memory.setPage frame (page.store start data))
    else .error .outOfBounds

/-- Fill a frame with zeroes. -/
def zero (memory : FrameMemory) (frame : Nat) : Except Halt FrameMemory :=
  match memory.page frame with
  | .error halt => .error halt
  | .ok _ => .ok (memory.setPage frame Page.blank)

end FrameMemory

end DemandPaging
