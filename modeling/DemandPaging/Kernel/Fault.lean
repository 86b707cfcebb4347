import DemandPaging.Kernel.Allocation

/-!
# Page faults

Turning an access to a page that is not mapped into a mapped page with the right contents. What is
done hangs on the entry of the page: one in swap is read back, one in a file is loaded, and one
without an entry may be a new page of the stack.

A page counts as stack if it lies within the stack limit and the access is no further below the
stack pointer than an instruction may store before it moves the pointer. Any other access is
invalid and kills the process (`FaultError.unrecoverable`); a shortage of frames or swap, or a
transfer that failed, is fatal.
-/

set_option autoImplicit false

namespace DemandPaging

/-- How far below the stack pointer an instruction may store before it moves the pointer. -/
abbrev stackSlack : Nat := 32

/-- How often a fault looks again after it waited for the eviction of its page. The number of rounds
is bounded only by what other work does in between, so this is far more than can be needed. -/
abbrev faultRounds : Nat := 0x100000000

/-- Whether an access may make the stack grow. -/
def isStackAccess (stackLimit address stackPointer : Nat) : Bool :=
  stackPointer - stackSlack ≤ address && kernelBase - stackLimit ≤ address && address < kernelBase

namespace Transition

/-- The page is in memory again: bring its entry up to date and give back its swap slot. If the page
also has a file, the file is stale, and the page must not be dropped as unchanged later. -/
def settleSwapIn (s : SpaceId) (page : Nat) (copy : SwapCopy) (fileBacked : Bool) :
    Transition Unit := do
  let table ← supplement s
  setSupplement s (match (table.find? page).bind (·.movedIn?) with
    | some info => table.modify page fun _ => info
    | none => table.erase page)
  if fileBacked then setDirty s page true
  releaseSlot copy.slot

end Transition

namespace Kernel

variable {m : Type → Type} [Kernel m]

/-- Bring a page back from its swap slot. -/
def loadFromSwap (s : SpaceId) (page : Nat) (copy : SwapCopy) (fileBacked : Bool)
    (address : Nat) : m (Except FaultError Unit) := do
  match ← allocateFor s page false with
  | .error cause => pure (.error (.ofVm address cause))
  | .ok frame =>
    match ← readSlot copy.slot frame with
    | .error cause => do
      free frame
      pure (.error (.fatal (.block cause)))
    | .ok () =>
      if ← Transition.install s page frame copy.writable then do
        holding (.supplement s) (Transition.settleSwapIn s page copy fileBacked)
        unpin frame
        Transition.notify (.pageFromSwap (← Transition.space s).pid page copy.slot)
        pure (.ok ())
      else do
        free frame
        pure (.error (.unrecoverable address))

/-- Load a page from its file. A file that does not give all the bytes of its window makes the
access invalid. -/
def loadFromFile (s : SpaceId) (page : Nat) (segment : Segment) (address : Nat) :
    m (Except FaultError Unit) := do
  match ← allocateFor s page false with
  | .error cause => pure (.error (.ofVm address cause))
  | .ok frame => do
    let outcome ← readIn frame segment
    if outcome.toOption ≠ some segment.readBytes then do
      Transition.notify (.shortRead (← Transition.space s).pid page outcome)
      free frame
      pure (.error (.unrecoverable address))
    else if ← Transition.install s page frame segment.writable then do
      holding (.supplement s) (Transition.modifyInfo s page ({ · with resident := true }))
      unpin frame
      Transition.notify (.pageFromFile (← Transition.space s).pid page segment.offset)
      pure (.ok ())
    else do
      free frame
      pure (.error (.unrecoverable address))

/-- Map a fresh page of zeroes, writable. -/
def addStackPage (s : SpaceId) (page : Nat) : m (Except VmError Unit) := do
  if (← supplement s).destroyed then pure (.error .destroyed)
  else if (← findEntry s page).isSome then pure (.error .alreadyMapped)
  else
    match ← allocateFor s page true with
    | .error cause => pure (.error cause)
    | .ok frame =>
      if ← Transition.install s page frame true then do
        unpin frame
        Transition.notify (.stackGrew (← Transition.space s).pid page)
        pure (.ok ())
      else do
        free frame
        pure (.error .mapFailed)

/-- Map a fresh page of zeroes at the page that holds `address`, as for the first page of a
stack. -/
def growStack (s : SpaceId) (address : Nat) : m (Except VmError Unit) :=
  if ¬ IsUser address ∨ address < pageSize then pure (.error .invalidMapping)
  else holding (.faults s) (addStackPage s (pageOf address))

/-- A fault on a page without an entry: a stack that grows, or an invalid access. -/
def faultWithoutInfo (s : SpaceId) (address stackPointer : Nat) : m (Except FaultError Unit) := do
  if isStackAccess (← Transition.stackLimit) address stackPointer then
    match ← addStackPage s (pageOf address) with
    | .error cause => pure (.error (.ofVm address cause))
    | .ok () => pure (.ok ())
  else pure (.error (.unrecoverable address))

/-- A fault on a page with an entry that no eviction is moving. A page that is in memory was brought
in by an access that came first. -/
def faultWithInfo (s : SpaceId) (info : PageInfo) (address : Nat) :
    m (Except FaultError Unit) := do
  let page := pageOf address
  if info.resident then
    if (← findEntry s page).isSome then pure (.ok ()) else pure (.error (.unrecoverable address))
  else
    match info.copy?, info.segment? with
    | some copy, segment => loadFromSwap s page copy segment.isSome address
    | none, some segment => loadFromFile s page segment address
    | none, none => pure (.error (.unrecoverable address))

/-- Resolve a fault at a user address, in at most so many rounds. Another round is needed whenever
the page was just being evicted. -/
def resolveIn (s : SpaceId) (address stackPointer : Nat) :
    (rounds : Nat) → m (Except FaultError Unit)
  | 0 => atomically (throw .blocked)
  | rounds + 1 => do
    let table ← supplement s
    if table.destroyed then pure (.error (.unrecoverable address))
    else
      match table.find? (pageOf address) with
      | none => faultWithoutInfo s address stackPointer
      | some info =>
        if info.evicting then do
          await .eviction
          resolveIn s address stackPointer rounds
        else faultWithInfo s info address

/-- Resolve a fault at `address` on a page that is not mapped. -/
def resolveFault (s : SpaceId) (address stackPointer : Nat) (code : FaultCode) :
    m (Except FaultError Unit) :=
  if ¬ IsUser address ∨ address < pageSize ∨ code.present then
    pure (.error (.unrecoverable address))
  else holding (.faults s) (resolveIn s address stackPointer faultRounds)

/-- What the trap does with a fault. Answers `false` if the process has to be killed, and halts if
the memory manager cannot go on. -/
def handleFault (s : SpaceId) (address stackPointer : Nat) (code : FaultCode) : m Bool := do
  match ← resolveFault s address stackPointer code with
  | .ok () => pure true
  | .error (.unrecoverable address) => do
    Transition.notify (.unresolvable (← Transition.space s).pid address)
    pure false
  | .error (.fatal cause) => do
    Transition.notify (.unserviceable (← Transition.space s).pid address cause)
    atomically (throw (.failure cause))

end Kernel

end DemandPaging
