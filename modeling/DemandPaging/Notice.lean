import DemandPaging.Error
import DemandPaging.Frame.Placement

/-!
# Notices

What the memory manager says on the console while it works. A notice is a value; its wording is in
`Notice.text`, so that no rule of the library depends on a text. Most notices belong to the trace,
which marks its lines; complaints about lost data go to the error output.
-/

set_option autoImplicit false

namespace DemandPaging

/-- Where a notice is printed. -/
inductive Channel where
  /-- Standard output. -/
  | out
  /-- Standard output, marked as part of the trace. -/
  | trace
  /-- Error output. -/
  | err
  deriving DecidableEq, Repr, Inhabited

/-- Something that the memory manager says. -/
inductive Notice where
  /-- A block device was asked for a sector that it does not have. -/
  | invalidSector (device : String) (sector size : Nat)
  /-- The user pool was set up. -/
  | poolReady (frames stackLimit : Nat) (placement : Placement)
  /-- The swap store was set up. -/
  | swapReady (device : String) (sectors pages : Nat)
  /-- The swap store was set up on a device meant for something else. -/
  | notSwapDevice (device : String)
  /-- A page was written to swap. -/
  | swapWrote (slot : Nat)
  /-- A page was read from swap. -/
  | swapRead (slot : Nat)
  /-- A process got a frame. -/
  | allocated (pid frame : Nat) (page : Option Nat)
  /-- A frame that is not in use should have been bound. -/
  | bindUnknown (frame : Nat)
  /-- A frame that is not in use should have been freed. -/
  | freeUnknown (frame : Nat)
  /-- A victim was moved out of its frame. -/
  | evicted (pid page frame : Nat) (slot : Option Nat)
  /-- A page came back from swap. -/
  | pageFromSwap (pid page slot : Nat)
  /-- A page came in from its file. -/
  | pageFromFile (pid page offset : Nat)
  /-- The file of a page did not give all its bytes. -/
  | shortRead (pid page : Nat) (outcome : Except FileError Nat)
  /-- The stack of a process got a page. -/
  | stackGrew (pid page : Nat)
  /-- A process made an invalid access. -/
  | unresolvable (pid address : Nat)
  /-- A page fault found the memory manager unable to go on. -/
  | unserviceable (pid address : Nat) (cause : VmError)
  /-- A file was mapped. -/
  | mapped (pid id page pages : Nat)
  /-- A mapping was removed. -/
  | unmapped (pid id : Nat)
  /-- A page of a mapping could not be saved during teardown. -/
  | writeBackFailed (pid id : Nat) (cause : VmError)
  /-- A process was torn down and gave back its frames. -/
  | released (pid frames : Nat)

namespace Notice

/-- The name of a frame in a notice. -/
def frameText (frame : Nat) : String := "frame#" ++ toString frame

/-- The name of a swap slot in a notice. -/
def slotText (slot : Nat) : String := "slot#" ++ toString slot

/-- The name of a mapping. -/
def mappingText (id : Nat) : String := "map#" ++ toString id

/-- An optional value: `Some(value)`, or `None`. -/
def optionText : Option String → String
  | none => "None"
  | some text => "Some(" ++ text ++ ")"

/-- The outcome of a read: `Ok(count)`, or `Err(cause)`. -/
def outcomeText : Except FileError Nat → String
  | .ok count => "Ok(" ++ toString count ++ ")"
  | .error cause => "Err(" ++ cause.name ++ ")"

/-- How a notice about a process begins. -/
def pidText (pid : Nat) : String := "pid " ++ toString pid ++ ": "

/-- Where the notice is printed. -/
def channel : Notice → Channel
  | invalidSector .. => .out
  | notSwapDevice _ | unserviceable .. | writeBackFailed .. => .err
  | _ => .trace

/-- The words of the notice. -/
def text : Notice → String
  | invalidSector device sector size =>
    device ++ ": Invalid sector " ++ toString sector ++ " (block size: " ++ toString size ++ ")"
  | poolReady frames stackLimit placement =>
    "user pool: " ++ toString frames ++ " frames, stack limit " ++ Numeral.hex stackLimit ++ ", "
      ++ placement.name
  | swapReady device sectors pages =>
    "swap: " ++ device ++ " (" ++ toString sectors ++ " sectors) holds " ++ toString pages
      ++ " pages"
  | notSwapDevice device => "swap: " ++ device ++ " is not a swap device, using it anyway"
  | swapWrote slot => "swap: wrote " ++ slotText slot
  | swapRead slot => "swap: read " ++ slotText slot
  | allocated pid frame page =>
    pidText pid ++ "allocated " ++ frameText frame ++ " for "
      ++ optionText (page.map Numeral.hexDigits)
  | bindUnknown frame => "bind: " ++ frameText frame ++ " is not registered"
  | freeUnknown frame => "free: " ++ frameText frame ++ " is not registered"
  | evicted pid page frame slot =>
    pidText pid ++ "evicted " ++ Numeral.hex page ++ " from " ++ frameText frame ++ " to "
      ++ optionText (slot.map fun s => "SwapSlot(" ++ toString s ++ ")")
  | pageFromSwap pid page slot => pidText pid ++ Numeral.hex page ++ " in from " ++ slotText slot
  | pageFromFile pid page offset =>
    pidText pid ++ Numeral.hex page ++ " in from file offset " ++ Numeral.hex offset
  | shortRead pid page outcome =>
    pidText pid ++ "short read for " ++ Numeral.hex page ++ ": " ++ outcomeText outcome
  | stackGrew pid page => pidText pid ++ "stack grew to " ++ Numeral.hex page
  | unresolvable pid address => pidText pid ++ "unresolvable fault at " ++ Numeral.hex address
  | unserviceable pid address cause =>
    pidText pid ++ "page fault at " ++ Numeral.hex address ++ " cannot be serviced: "
      ++ cause.message
  | mapped pid id page pages =>
    pidText pid ++ mappingText id ++ " at " ++ Numeral.hex page ++ ", " ++ toString pages
      ++ " pages"
  | unmapped pid id => pidText pid ++ "unmapped " ++ mappingText id
  | writeBackFailed pid id cause =>
    pidText pid ++ "write-back of " ++ mappingText id ++ " failed: " ++ cause.message
  | released pid frames => pidText pid ++ "released " ++ toString frames ++ " frames"

end Notice

end DemandPaging
