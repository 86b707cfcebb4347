import DemandPaging.Address
import DemandPaging.Frame.Placement
import DemandPaging.Text.Numeral

/-!
# Configuration

What can be chosen when the system starts: a cap on the number of user frames, how far stacks may
grow, and how frames are placed; and what can be wrong with a choice.
-/

set_option autoImplicit false

namespace DemandPaging

/-- The choices made at the start. -/
structure Config where
  /-- The most frames that the user pool may have. -/
  poolLimit : Option Nat := none
  /-- How far below `kernelBase` a stack may grow. -/
  maxStack : Nat := defaultStackLimit
  /-- How frames are placed. -/
  placement : Placement := .nextFit
  deriving DecidableEq, Repr, Inhabited

namespace Config

/-- The size of the user pool if `available` frames can be had. -/
def poolFrames (config : Config) (available : Nat) : Nat :=
  match config.poolLimit with
  | none => available
  | some limit => min limit available

end Config

/-- What is wrong with a choice. -/
inductive ConfigError where
  /-- The value of the named option cannot be read. -/
  | invalidValue (option : String)
  /-- A pool of no frames at all. -/
  | emptyPool
  /-- A stack limit smaller than a page, or reaching below address zero. -/
  | stackOutOfRange (size : Nat)
  deriving DecidableEq, Repr, Inhabited

namespace ConfigError

/-- The short form of the cause. -/
def name : ConfigError → String
  | invalidValue option => "InvalidValue(\"" ++ option ++ "\")"
  | emptyPool => "EmptyPool"
  | stackOutOfRange size => "StackOutOfRange(" ++ toString size ++ ")"

/-- The cause as a sentence. -/
def message : ConfigError → String
  | invalidValue option => "invalid value for -" ++ option
  | emptyPool => "user pool limit must be at least one frame"
  | stackOutOfRange size => "stack limit " ++ Numeral.hex size ++ " out of range"

end ConfigError

end DemandPaging
