import DemandPaging.Kernel.Mapping

/-!
# Teardown

Giving back all that an address space holds: its mappings, with changed pages saved; its swap slots;
its mapped pages and their frames. A page of a mapping that cannot be saved is lost, which is said
on the error output. Afterwards the address space takes no pages any more, and tearing it down again
does nothing.
-/

set_option autoImplicit false

namespace DemandPaging

namespace Transition

/-- Give back the swap slots of some entries. -/
def releaseCopies : List PageInfo → Transition Unit
  | [] => pure ()
  | info :: rest => do
    match info.copy? with
    | none => pure ()
    | some copy => releaseSlot copy.slot
    releaseCopies rest

/-- Drop all entries of an address space for good and give back their swap slots. -/
def dropEntries (s : SpaceId) : Transition Unit := do
  let table ← supplement s
  setSupplement s table.destroy
  releaseCopies table.toList

end Transition

namespace Kernel

variable {m : Type → Type} [Kernel m]

/-- Remove some mappings and complain about those whose pages could not all be saved. -/
def removeMappings (s : SpaceId) : List Nat → m Unit
  | [] => pure ()
  | id :: rest => do
    match ← removeMapping s id with
    | .ok () => pure ()
    | .error cause =>
      Transition.notify (.writeBackFailed (← Transition.space s).pid id cause)
    removeMappings s rest

/-- Give back the frames of an address space and say how many there were. -/
def dropFrames (s : SpaceId) : m Unit := do
  let gone ← freeOwnedBy s
  Transition.notify (.released (← Transition.space s).pid gone.length)

/-- Tear an address space down. -/
def destroy (s : SpaceId) : m Unit :=
  holding (.faults s) do
    let table ← supplement s
    if table.destroyed then pure ()
    else do
      removeMappings s table.mappingIds
      holding (.supplement s) (Transition.dropEntries s)
      dropFrames s

end Kernel

end DemandPaging
