import DemandPaging.Config.Basic

/-!
# Writing a configuration

A configuration as the options that choose it. An absent cap is written by leaving its option out;
sizes are written in bytes.
-/

set_option autoImplicit false

namespace DemandPaging.Config

/-- An option with its value. -/
def optionText (name value : String) : String := "-" ++ name ++ "=" ++ value

/-- A placement policy as a value. -/
def placementValue : Placement → String
  | .nextFit => "next"
  | .firstFit => "first"

/-- A number as a value. -/
def numberValue (n : Nat) : String := String.ofList (Nat.toDigits 10 n)

/-- The options that choose a configuration. -/
def options (config : Config) : List String :=
  (config.poolLimit.toList.map fun limit => optionText "ul" (numberValue limit)) ++
    [optionText "stack" (numberValue config.maxStack),
      optionText "placement" (placementValue config.placement)]

/-- A command line that chooses a configuration. -/
def render (config : Config) : String := " ".intercalate config.options

end DemandPaging.Config
