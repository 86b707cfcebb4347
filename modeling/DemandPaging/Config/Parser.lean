import DemandPaging.Config.Basic
import DemandPaging.Text.Blank

/-!
# Reading the command line

The command line is shared with other parts of the system. It is cut into words at white space, and
each word that has the form `-name` or `-name=value` is an option. Three options are ours:

* `-ul=COUNT` caps the user pool at so many frames, at least one;
* `-stack=SIZE` is how far stacks may grow, in bytes, or with `K` or `M` behind it in units of 1024
  or 1024² bytes; at least a page and below `kernelBase`;
* `-placement=next` or `-placement=first`.

Every other word is passed over, also one that is an option only in part. The words are read from
left to right: a later choice replaces an earlier one, and the first one that is wrong ends it all.
-/

set_option autoImplicit false

namespace DemandPaging

/-- A word of the form `-name` or `-name=value`. -/
structure OptionWord where
  /-- What stands before the equals sign. -/
  name : List Char
  /-- What stands behind the equals sign, if there is one. -/
  value : Option (List Char)
  deriving DecidableEq, Repr, Inhabited

namespace OptionWord

/-- The characters that a name may have. -/
def isNameChar (c : Char) : Bool := c.isAlphanum || c == '_'

/-- Read a word as an option. -/
def ofWord? : List Char → Option OptionWord
  | '-' :: rest =>
    let name := rest.takeWhile isNameChar
    if name = [] then none
    else match rest.dropWhile isNameChar with
      | [] => some { name, value := none }
      | '=' :: value => some { name, value := some value }
      | _ => none
  | _ => none

end OptionWord

namespace Config

/-- The number that decimal digits stand for. -/
def digitsValue (digits : List Char) : Nat :=
  digits.foldl (fun n c => 10 * n + (c.toNat - '0'.toNat)) 0

/-- Read a count: one digit or more, and a number that fits in a machine word. -/
def readCount? (text : List Char) : Option Nat :=
  if text ≠ [] ∧ text.all Char.isDigit ∧ digitsValue text < wordLimit then
    some (digitsValue text)
  else none

/-- Read the unit of a size. -/
def readUnit? : List Char → Option Nat
  | [] => some 1
  | ['K'] | ['k'] => some 1024
  | ['M'] | ['m'] => some (1024 * 1024)
  | _ => none

/-- Read a size: a count, perhaps with a unit behind it, that fits in a machine word. -/
def readSize? (text : List Char) : Option Nat :=
  match readCount? (text.takeWhile Char.isDigit), readUnit? (text.dropWhile Char.isDigit) with
  | some count, some unit => if count * unit < wordLimit then some (count * unit) else none
  | _, _ => none

/-- Choose a cap on the user pool. -/
def withPoolLimit (config : Config) (value : Option (List Char)) : Except ConfigError Config :=
  match value.bind readCount? with
  | none => .error (.invalidValue "ul")
  | some 0 => .error .emptyPool
  | some limit => .ok { config with poolLimit := some limit }

/-- Choose how far stacks may grow. -/
def withMaxStack (config : Config) (value : Option (List Char)) : Except ConfigError Config :=
  match value.bind readSize? with
  | none => .error (.invalidValue "stack")
  | some size =>
    if size < pageSize ∨ kernelBase ≤ size then .error (.stackOutOfRange size)
    else .ok { config with maxStack := size }

/-- Read a placement policy. -/
def readPlacement? (text : List Char) : Option Placement :=
  if text = "next".toList then some .nextFit
  else if text = "first".toList then some .firstFit
  else none

/-- Choose how frames are placed. -/
def withPlacement (config : Config) (value : Option (List Char)) : Except ConfigError Config :=
  match value.bind readPlacement? with
  | none => .error (.invalidValue "placement")
  | some placement => .ok { config with placement }

/-- What an option changes. -/
def withOption (config : Config) (option : OptionWord) : Except ConfigError Config :=
  if option.name = "ul".toList then config.withPoolLimit option.value
  else if option.name = "stack".toList then config.withMaxStack option.value
  else if option.name = "placement".toList then config.withPlacement option.value
  else .ok config

/-- What a word changes. -/
def withWord (config : Config) (word : List Char) : Except ConfigError Config :=
  match OptionWord.ofWord? word with
  | none => .ok config
  | some option => config.withOption option

/-- What some words change, from left to right. -/
def withWords : Config → List (List Char) → Except ConfigError Config
  | config, [] => .ok config
  | config, word :: rest =>
    match config.withWord word with
    | .error cause => .error cause
    | .ok config => config.withWords rest

/-- Read a command line. -/
def parse (line : String) : Except ConfigError Config :=
  withWords {} (Blank.words line.toList)

example : (parse "-q -ul=16 -stack=64K -placement=first").toOption =
    some { poolLimit := some 16, maxStack := 65536, placement := .firstFit } := by decide
example : (parse "-ul=4 -ul=9 -ul").toOption = none := by decide

end Config

end DemandPaging
