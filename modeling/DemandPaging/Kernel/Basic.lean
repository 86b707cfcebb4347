import DemandPaging.Machine

/-!
# Interruptible operations

Operations of the memory manager are chains of transitions. Between two of them other work may run:
a process may be torn down while one of its pages is on its way to swap. The points at which this
matters are named by events, and an operation announces each event when it comes to it.

Operations that share the machine exclude each other by resources, each of which one operation at a
time may hold. An operation holds a resource while it does some part of its work, and whoever needs
it meanwhile has to wait.

`Kernel m` says that the monad `m` can carry out transitions, be told of events and hold resources.
The operations are written once for every such `m`. In `Transition` itself events pass unnoticed and
nobody else wants a resource, so an operation is one uninterrupted step. In `Attended` an attendant
is called at each event and may run operations of its own before the interrupted one goes on; since
that one goes on only after them, an operation that needs what it holds would wait for ever.
Operations that do wait for each other are the threads of `DemandPaging.Kernel.Thread`.
-/

set_option autoImplicit false

namespace DemandPaging

/-- A point at which other work may come in between. -/
inductive Event where
  /-- A sector is about to be written to swap. -/
  | swapWrite
  /-- A sector is about to be read from swap. -/
  | swapRead
  /-- A file is about to be written. -/
  | fileWrite (file : FileId)
  /-- A file is about to be read. -/
  | fileRead (file : FileId)
  /-- A page directory has just translated an address. -/
  | translate (space : SpaceId)
  /-- A page directory has just been asked for an entry. -/
  | getPage (space : SpaceId)
  deriving DecidableEq, Repr, Inhabited

/-- What one operation at a time may hold. -/
inductive Resource where
  /-- The right to evict. -/
  | eviction
  /-- The pool and the records of the frame table. -/
  | frames
  /-- The contents of a frame. -/
  | contents (frame : Nat)
  /-- The swap device. -/
  | device
  /-- The right to resolve the faults of an address space and to change what it maps. -/
  | faults (space : SpaceId)
  /-- The supplemental page table of an address space. -/
  | supplement (space : SpaceId)
  deriving DecidableEq, Repr, Inhabited

/-- A monad in which operations of the memory manager can run. -/
class Kernel (m : Type → Type) extends Monad m where
  /-- Carry out a transition. -/
  atomically {α : Type} : Transition α → m α
  /-- Let other work come in between. -/
  interrupt : Event → m Unit
  /-- Do some work while holding a resource. -/
  holding {α : Type} : Resource → m α → m α

/-- A transition may stand wherever an operation is expected. -/
instance {m : Type → Type} [Kernel m] : MonadLift Transition m := ⟨Kernel.atomically⟩

/-- Operations without other work in between. -/
instance : Kernel Transition where
  atomically step := step
  interrupt _ := pure ()
  holding _ work := work

/-- Steps of the machine together with the notes `σ` of an attendant. -/
abbrev Visit (σ : Type) := EStateM Halt (Machine × σ)

namespace Visit

/-- Carry out a transition, with no change to the notes. -/
def ofTransition {σ α : Type} (step : Transition α) : Visit σ α := fun (machine, notes) =>
  match step machine with
  | .ok a machine => .ok a (machine, notes)
  | .error halt machine => .error halt (machine, notes)

end Visit

/-- Who watches an operation, and what it holds. -/
structure Watch (σ : Type) where
  /-- What is done at an event, while the operation holds some resources. -/
  attendant : List Resource → Event → Visit σ Unit
  /-- What the operation and those that it interrupts hold. -/
  held : List Resource := []

/-- Operations that an attendant watches. -/
abbrev Attended (σ : Type) := ReaderT (Watch σ) (Visit σ)

/-- At an event the attendant is told what is held. To ask for a resource that is held already blocks. -/
instance {σ : Type} : Kernel (Attended σ) where
  atomically step := fun _ => Visit.ofTransition step
  interrupt event := fun watch => watch.attendant watch.held event
  holding resource work := fun watch =>
    if resource ∈ watch.held then throw .blocked
    else work { watch with held := resource :: watch.held }

namespace Kernel

variable {m : Type → Type} [Kernel m]

/-- Carry out steps in order, up to the first that is refused. -/
def upToFailure {ε α : Type} (step : α → m (Except ε Unit)) : List α → m (Except ε Unit)
  | [] => pure (.ok ())
  | a :: rest => do
    match ← step a with
    | .error cause => pure (.error cause)
    | .ok () => upToFailure step rest

/-- Carry out all steps in order. Answers the first refusal, if there was one. -/
def throughFailures {ε α : Type} (step : α → m (Except ε Unit)) : List α → m (Except ε Unit)
  | [] => pure (.ok ())
  | a :: rest => do
    let first ← step a
    let later ← throughFailures step rest
    match first with
    | .error cause => pure (.error cause)
    | .ok () => pure later

/-- Wait until nobody holds a resource. -/
def await (resource : Resource) : m Unit := holding resource (pure ())

/-- The supplemental page table of an address space, once nobody holds it. -/
def supplement (s : SpaceId) : m Supplement :=
  holding (.supplement s) (Transition.supplement s)

/-- The entry of a page in the page directory, if it is mapped. -/
def findEntry (s : SpaceId) (page : Nat) : m (Option PageTableEntry) := do
  let entry := (← Transition.directory s).find? page
  interrupt (.getPage s)
  pure entry

/-- A user access to a page: its frame, or the code of the fault. -/
def translate (s : SpaceId) (page : Nat) (write : Bool) : m (Except FaultCode Nat) := do
  let (outcome, directory) := (← Transition.directory s).translate page write
  Transition.setDirectory s directory
  interrupt (.translate s)
  pure outcome

end Kernel

end DemandPaging
