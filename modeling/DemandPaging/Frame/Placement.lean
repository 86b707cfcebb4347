import DemandPaging.Frame.CoreMap

/-!
# Placement

Where in the core map to find `n` free frames in a row. First fit takes the lowest place. Next fit
goes on where its last search ended, and starts over at the front once it reaches the end; so
allocations spread over the pool and the clock hand meets frames in about the order in which they
were handed out.

Both rest on one search, `CoreMap.firstRun`: the first place in a range of places. It skips ahead
over a run that is too short, together with the frame that ended it.
-/

set_option autoImplicit false

namespace DemandPaging

/-- The ways to choose a place. -/
inductive Placement where
  /-- Go on where the last search ended. -/
  | nextFit
  /-- The lowest place. -/
  | firstFit
  deriving DecidableEq, Repr, Inhabited

namespace Placement

/-- The name of the policy. -/
def name : Placement → String
  | nextFit => "NextFit"
  | firstFit => "FirstFit"

end Placement

namespace CoreMap

/-- Search from `start` on, for at most `steps` places. -/
def searchRun (map : CoreMap) (n stop : Nat) : (steps : Nat) → (start : Nat) → Option Nat
  | 0, _ => none
  | steps + 1, start =>
    if start < stop ∧ start + n ≤ map.size then
      let run := map.freeRun start n
      if run = n then some start else searchRun map n stop steps (start + run + 1)
    else none

/-- The first place in `start ≤ place < stop` at which `n` free frames follow one another. -/
def firstRun (map : CoreMap) (n start stop : Nat) : Option Nat :=
  searchRun map n stop (stop - start) start

end CoreMap

/-- A policy together with what it remembers between searches. -/
inductive Placer where
  /-- Next fit, with the place at which to go on. -/
  | nextFit (position : Nat)
  /-- First fit, which remembers nothing. -/
  | firstFit
  deriving DecidableEq, Repr, Inhabited

namespace Placer

/-- The policy before its first search. -/
def ofPlacement : Placement → Placer
  | .nextFit => nextFit 0
  | .firstFit => firstFit

/-- The place that a policy chooses for `n ≥ 1` frames. -/
def choose (placer : Placer) (map : CoreMap) (n : Nat) : Option Nat :=
  match placer with
  | firstFit => map.firstRun n 0 map.size
  | nextFit position =>
    match map.firstRun n (position % map.size) map.size with
    | some start => some start
    | none => map.firstRun n 0 position

/-- The policy after it has handed out the `n` frames from `start` on. -/
def advance (placer : Placer) (size start n : Nat) : Placer :=
  match placer with
  | firstFit => firstFit
  | nextFit _ => nextFit ((start + n) % size)

/-- Find `n` free frames in a row. Nobody gets zero frames, and nobody more than there are. -/
def place (placer : Placer) (map : CoreMap) (n : Nat) : Option Nat × Placer :=
  if n = 0 ∨ map.size < n then (none, placer)
  else match placer.choose map n with
    | none => (none, placer)
    | some start => (some start, placer.advance map.size start n)

end Placer

end DemandPaging
