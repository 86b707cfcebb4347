/-!
# Second chance

Which frame to give up when all are in use. The clock hand goes round the list of frames. A frame
that may not be evicted is passed by; a frame that was accessed loses that mark and is passed over
once; the first frame without the mark is the victim.

The hand makes at most two turns. The first turn clears every mark that it meets, so the second one
comes back without a victim only if pages are used while the hand moves; then the first frame that
may be evicted at all is taken (`sweep`, its `fallback`).

Looking at a mark may have effects, so the search runs in any monad. The list itself is a snapshot:
its length and which of its frames may be evicted do not change during one search.
-/

set_option autoImplicit false

namespace DemandPaging

/-- The list of frames as the clock hand sees it. -/
structure Candidates (m : Type → Type) where
  /-- The length of the list. -/
  size : Nat
  /-- Whether the frame at an index may be evicted at all. -/
  eligible : Nat → Bool
  /-- Read the accessed mark of the frame at an index, and clear it. -/
  testAndClear : Nat → m Bool

/-- The clock: the index at which the next search begins. -/
structure SecondChance where
  /-- The index under the hand. -/
  hand : Nat := 0
  deriving DecidableEq, Repr, Inhabited

namespace SecondChance

/-- The indices that the hand visits, in order: two turns from where it stands. -/
def visits (clock : SecondChance) (size : Nat) : List Nat :=
  (List.range (2 * size)).map fun step => (clock.hand + step) % size

/-- Go through the remaining visits. `fallback` is the first frame seen that may be evicted. -/
def sweep {m : Type → Type} [Monad m] (frames : Candidates m) :
    List Nat → Option Nat → m (Option Nat)
  | [], fallback => pure fallback
  | index :: rest, fallback =>
    if frames.eligible index then do
      if ← frames.testAndClear index then sweep frames rest (fallback <|> some index)
      else pure (some index)
    else sweep frames rest fallback

/-- The frame to evict, if any may be, and the clock with its hand on that frame. The victim is
about to leave the list, so the frame after it slides under the hand. -/
def select {m : Type → Type} [Monad m] (clock : SecondChance) (frames : Candidates m) :
    m (Option Nat × SecondChance) := do
  match ← sweep frames (clock.visits frames.size) none with
  | none => pure (none, clock)
  | some victim => pure (some victim, { hand := victim })

/-- The frame at `index` has left the list and later ones have moved up. -/
def removed (clock : SecondChance) (index : Nat) : SecondChance :=
  if index < clock.hand then { hand := clock.hand - 1 } else clock

end SecondChance

end DemandPaging
