import DemandPaging.Kernel.Fault

/-!
# Copying to and from user memory

A range of user memory is cut at page boundaries into pieces, and each piece is reached just like an
access of the process itself: pages that are missing are faulted in, and the flags of the pages are
set as the processor would set them. The pieces are done in order, and the first one that cannot be
reached ends the copy; so what was copied is always a prefix.

Between finding a frame and holding its contents an eviction may take the page away. So the page
directory is asked again, and the piece is tried again if the answer has changed.
-/

set_option autoImplicit false

namespace DemandPaging

/-- A part of a user range that lies within one page. -/
structure Piece where
  /-- Its first address. -/
  address : Nat
  /-- How far into the range it begins. -/
  done : Nat
  /-- How many bytes it has. -/
  size : Nat
  deriving DecidableEq, Repr, Inhabited

namespace Piece

/-- The `i`-th piece of `length` bytes at `start`: what the range has in common with its `i`-th
page. -/
def ofRange (start length i : Nat) : Piece :=
  let first := max start (pageOf start + i * pageSize)
  let last := min (start + length) (pageOf start + (i + 1) * pageSize)
  { address := first, done := first - start, size := last - first }

/-- The number of pages that `length` bytes at `start` touch. -/
def count (start length : Nat) : Nat :=
  if length = 0 then 0 else (pageOffset start + length + (pageSize - 1)) / pageSize

/-- All pieces of `length` bytes at `start`, in order. -/
def all (start length : Nat) : List Piece :=
  (List.range (count start length)).map (ofRange start length)

end Piece

/-- How often a copy tries one piece before it gives up. The number of rounds is bounded only by
what other work does in between, so this is far more than can be needed. -/
abbrev copyRounds : Nat := 0x100000000

namespace Kernel

variable {m : Type → Type} [Kernel m]

/-- Do `act` with the frame that a page was found at, if the page is still there. -/
def withFrame {α : Type} (s : SpaceId) (page frame : Nat) (act : Nat → Transition α) :
    m (Option α) := do
  Transition.requireFrame frame
  holding (.contents frame) do
    if ((← findEntry s page).map (·.frame.toNat)) = some frame then do
      let a ← act frame
      pure (some a)
    else pure none

/-- Reach one piece and do `act` with its frame, in at most so many rounds. A round either does it,
or resolves a fault, or finds that the page was taken away. -/
def reachIn {α : Type} (s : SpaceId) (piece : Piece) (stackPointer : Nat) (write : Bool)
    (act : Nat → Transition α) : (rounds : Nat) → m (Except FaultError α)
  | 0 => atomically (throw .blocked)
  | rounds + 1 => do
    let page := pageOf piece.address
    match ← translate s page write with
    | .error code =>
      match ← resolveFault s piece.address stackPointer code with
      | .error cause => pure (.error cause)
      | .ok () => reachIn s piece stackPointer write act rounds
    | .ok frame =>
      match ← withFrame s page frame act with
      | some a => pure (.ok a)
      | none => reachIn s piece stackPointer write act rounds

/-- Reach one piece of a range that begins at `start`, if it lies in user memory at all. -/
def reach {α : Type} (s : SpaceId) (start : Nat) (piece : Piece) (stackPointer : Nat)
    (write : Bool) (act : Nat → Transition α) : m (Except FaultError α) :=
  if wordLimit ≤ piece.address then pure (.error (.unrecoverable start))
  else if ¬ IsUser piece.address then pure (.error (.unrecoverable piece.address))
  else reachIn s piece stackPointer write act copyRounds

/-- Store `data` in user memory at `start`. Fails on pages that must not be written. -/
def copyToUser (s : SpaceId) (start : Nat) (data : Bytes) (stackPointer : Nat) :
    m (Except FaultError Unit) :=
  upToFailure (fun piece =>
    reach s start piece stackPointer true fun frame =>
      Transition.writeFrame frame (pageOffset piece.address) (data.window piece.done piece.size))
    (Piece.all start data.size)

/-- Read the remaining pieces of a range, after `data`. -/
def copyPieces (s : SpaceId) (start stackPointer : Nat) :
    List Piece → Bytes → m (Bytes × Except FaultError Unit)
  | [], data => pure (data, .ok ())
  | piece :: rest, data => do
    let outcome ← reach s start piece stackPointer false fun frame =>
      Transition.readFrame frame (pageOffset piece.address) piece.size
    match outcome with
    | .error cause => pure (data, .error cause)
    | .ok bytes => copyPieces s start stackPointer rest (data ++ bytes)

/-- Read `length` bytes of user memory at `start`. Answers what was read, all of it or up to the
piece that could not be reached. -/
def copyFromUser (s : SpaceId) (start length stackPointer : Nat) :
    m (Bytes × Except FaultError Unit) :=
  copyPieces s start stackPointer (Piece.all start length) #[]

end Kernel

end DemandPaging
