import DemandPaging.Kernel.Allocation

/-!
# Mapped files

A mapping makes all of a file appear at consecutive pages. Pages are loaded when they are first
used, like those of an executable, but changes go back to the file and never to swap.

`mapFile` checks the whole range before it registers the first page, so a refusal leaves nothing
behind. `unmapFile` unmaps every page of the mapping even if some of them cannot be saved, and then
reports the first failure.
-/

set_option autoImplicit false

namespace DemandPaging

/-- The pages that `length` bytes fill. -/
def pageCount (length : Nat) : Nat := (length + (pageSize - 1)) / pageSize

/-- The addresses of consecutive pages. -/
def pageRange (page pages : Nat) : List Nat := (List.range pages).map fun i => page + i * pageSize

/-- Whether a file of `length` bytes may be mapped at `page` as far as the addresses go. -/
def IsMappable (length page : Nat) : Prop :=
  length ≠ 0 ∧ page ≠ 0 ∧ IsAligned page ∧ page + pageCount length * pageSize ≤ kernelBase

/-- Whether addresses allow a mapping can be computed. -/
instance (length page : Nat) : Decidable (IsMappable length page) :=
  inferInstanceAs (Decidable (_ ∧ _))

/-- The window of the `i`-th page of a mapped file. -/
def mappedSegment (f : FileId) (length i : Nat) : Segment :=
  let readBytes := min (length - i * pageSize) pageSize
  { file := f, offset := i * pageSize, readBytes, zeroBytes := pageSize - readBytes,
    writable := true, writeBack := true }

/-- How often an unmapping looks again after an eviction got in its way. The number of rounds is
bounded only by what other work does in between, so this is far more than can be needed. -/
abbrev unmapRounds : Nat := 0x100000000

namespace Transition

/-- Register the `i`-th page and all later ones of a mapped file, `pages` of them. -/
def registerMapped (s : SpaceId) (f : FileId) (length page : Nat) :
    (pages : Nat) → (i : Nat) → Transition (Except VmError Unit)
  | 0, _ => pure (.ok ())
  | pages + 1, i => do
    let info := PageInfo.fileBacked (page + i * pageSize) (mappedSegment f length i)
    match (← supplement s).insert info with
    | .error cause => pure (.error cause)
    | .ok table => do
      setSupplement s table
      registerMapped s f length page pages (i + 1)

/-- Add a mapping and say so. -/
def addMapping (s : SpaceId) (mapping : Mapping) : Transition Nat := do
  let (id, table) ← ofExcept ((← supplement s).addMapping mapping)
  setSupplement s table
  notify (.mapped (← space s).pid id mapping.page mapping.pages)
  pure id

/-- Take a mapping off the list of live ones. -/
def takeMapping (s : SpaceId) (id : Nat) : Transition (Option Mapping) := do
  match (← supplement s).takeMapping id with
  | none => pure none
  | some (mapping, table) => do
    setSupplement s table
    pure (some mapping)

/-- Forget a page: drop its entry, unmap it, and give back its swap slot. Answers the last entry of
the page directory. -/
def forget (s : SpaceId) (page : Nat) (copy : Option SwapCopy) :
    Transition (Option PageTableEntry) := do
  setSupplement s ((← supplement s).erase page)
  let entry ← clear s page
  match copy with
  | none => pure ()
  | some copy => releaseSlot copy.slot
  pure entry

end Transition

namespace Kernel

variable {m : Type → Type} [Kernel m]

/-- Refuse a page that is registered or mapped. -/
def requireUnused (s : SpaceId) (page : Nat) : m (Except VmError Unit) := do
  if (← Transition.supplement s).contains page then pure (.error .alreadyRegistered)
  else if (← findEntry s page).isSome then pure (.error .alreadyMapped)
  else pure (.ok ())

/-- Register all pages of a file of `length` bytes at `page`, and add the mapping. -/
def addFilePages (s : SpaceId) (f : FileId) (length page : Nat) : m (Except VmError Nat) := do
  if (← Transition.supplement s).destroyed then pure (.error .destroyed)
  else
    let pages := pageCount length
    match ← upToFailure (requireUnused s) (pageRange page pages) with
    | .error cause => pure (.error cause)
    | .ok () =>
      match ← Transition.registerMapped s f length page pages 0 with
      | .error cause => pure (.error cause)
      | .ok () => do
        let id ← Transition.addMapping s { file := f, page, pages }
        pure (.ok id)

/-- Map all of a file at `page`. Answers the number of the mapping. -/
def mapFile (s : SpaceId) (f : FileId) (page : Nat) : m (Except VmError Nat) := do
  let length := (← Transition.file f).size
  if ¬ IsMappable length page then pure (.error .invalidMapping)
  else holding (.faults s) (holding (.supplement s) (addFilePages s f length page))

/-- Save a page that was unmapped if it was changed and has a file, and give its frame back. -/
def saveAndFree (frame : Nat) (info : PageInfo) (entry : Option PageTableEntry) :
    m (Except VmError Unit) := do
  let saved ← match info.segment?, entry with
    | some segment, some entry =>
      if entry.dirty then writeBack frame segment else pure (.ok ())
    | _, _ => pure (.ok ())
  free frame
  pure (saved.mapError .file)

/-- Unmap one page of a mapping, in at most so many rounds. Another round is needed whenever an
eviction is moving the page, or the frame that the page is mapped to does not back it because an
eviction has just got hold of it. -/
def unmapPageIn (s : SpaceId) (page : Nat) : (rounds : Nat) → m (Except VmError Unit)
  | 0 => atomically (throw .blocked)
  | rounds + 1 => do
    match (← supplement s).find? page with
    | none => pure (.ok ())
    | some info =>
      if info.evicting then do
        await .eviction
        unmapPageIn s page rounds
      else do
        let mapped ← findEntry s page
        let frame := if info.resident then mapped.map (·.frame.toNat) else none
        match frame with
        | none => do
          let _ ← holding (.supplement s) (Transition.forget s page info.copy?)
          pure (.ok ())
        | some frame =>
          if ← pinIfBacking frame s page then do
            let entry ← holding (.supplement s) (Transition.forget s page info.copy?)
            saveAndFree frame info entry
          else do
            await .eviction
            unmapPageIn s page rounds

/-- Unmap one page of a mapping. -/
def unmapPage (s : SpaceId) (page : Nat) : m (Except VmError Unit) :=
  unmapPageIn s page unmapRounds

/-- Remove a mapping while the faults of its address space are held. -/
def removeMapping (s : SpaceId) (id : Nat) : m (Except VmError Unit) := do
  match ← holding (.supplement s) (Transition.takeMapping s id) with
  | none => pure (.error .invalidMapping)
  | some mapping => do
    let outcome ← throughFailures (unmapPage s) (pageRange mapping.page mapping.pages)
    Transition.notify (.unmapped (← Transition.space s).pid id)
    pure outcome

/-- Remove a mapping, saving the pages that were changed. -/
def unmapFile (s : SpaceId) (id : Nat) : m (Except VmError Unit) :=
  holding (.faults s) (removeMapping s id)

end Kernel

end DemandPaging
