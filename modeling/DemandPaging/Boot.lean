import DemandPaging.Config.Basic
import DemandPaging.Machine

/-!
# Starting up

A machine at its start, with all frames free and all swap slots free; and the one machine that the
whole system uses, which is installed once.
-/

set_option autoImplicit false

namespace DemandPaging

namespace Machine

/-- A machine at its start, if `available` frames can be had for user pages. -/
def boot (config : Config) (available : Nat) (device : Block) : Machine where
  frames := .ofSize (config.poolFrames available) config.placement
  swap := .ofDevice device
  stackLimit := config.maxStack
  notices := (Notice.poolReady (config.poolFrames available) config.maxStack config.placement ::
    SwapStore.announcements device).toArray

end Machine

/-- The place of the machine that the whole system uses. -/
structure Installation where
  /-- The machine, once it is installed. -/
  machine? : Option Machine := none

namespace Installation

/-- Install the machine, which may be done once. -/
def install (place : Installation) (machine : Machine) : Except Halt Installation :=
  match place.machine? with
  | none => .ok { machine? := some machine }
  | some _ => .error .initialisedTwice

/-- The machine, which must be installed. -/
def machine (place : Installation) : Except Halt Machine :=
  match place.machine? with
  | none => .error .notInitialised
  | some machine => .ok machine

end Installation

end DemandPaging
