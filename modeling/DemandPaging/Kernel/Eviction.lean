import DemandPaging.Kernel.Transfer

/-!
# Eviction

Taking a frame out of circulation when the pool is exhausted. The right to evict is held throughout,
so there is one eviction at a time. It has these phases, and other work may come in between any two
of them and while pages are moved:

* `findSource`: look once more for a free frame, or else let the clock choose a victim and take its
  record out of the table;
* `detach`: unmap the victim's page and plan where its contents go;
* `writeOut`: move the contents;
* `finish`, or `restore` if they could not be moved.

From `findSource` on, the frame is allocated, has no record, and is mapped nowhere once `detach` is
done; so nobody else can be handed it or use it. `finish` leaves it all zero.
-/

set_option autoImplicit false

namespace DemandPaging

/-- Where the contents of a victim go. -/
inductive Plan where
  /-- To a swap slot. -/
  | swap (writable : Bool)
  /-- To the mapped file that they came from. -/
  | file (segment : Segment)
  /-- Nowhere: the file still has them. -/
  | keep
  /-- Nowhere: the page was unmapped or its address space torn down. -/
  | discard
  deriving DecidableEq, Repr, Inhabited

namespace Plan

/-- The plan for a page with a given entry in both tables. Changes to a mapped file go to the file,
and a file page that equals its file is dropped; everything else goes to swap. -/
def ofEntry (entry : PageTableEntry) (info : PageInfo) : Plan :=
  match info.segment? with
  | none => .swap entry.writable
  | some segment =>
    if segment.writeBack && entry.dirty then .file segment
    else if segment.writeBack || !entry.dirty then .keep
    else .swap entry.writable

end Plan

/-- Where an eviction gets its frame from. -/
inductive Source where
  /-- From the pool after all. -/
  | pool (frame : Nat)
  /-- From a page that has to give way. -/
  | page (victim : FrameRecord)
  deriving DecidableEq, Repr, Inhabited

/-- A victim on its way out. -/
structure Transit where
  /-- Its frame. -/
  frame : Nat
  /-- The address space that it belongs to. -/
  owner : SpaceId
  /-- Its page. -/
  page : Nat
  /-- The entry of the page as it was unmapped. -/
  entry : Option PageTableEntry
  /-- Where the contents go. -/
  plan : Plan
  deriving DecidableEq, Repr, Inhabited

namespace Transition

/-- Look once more for a free frame. If there is none, some page has to give way. -/
def lookAgain : Transition (Except VmError (Option Nat)) := do
  let table ← frames
  let (frame, pool) ← ofExcept table.pool.alloc
  setFrames { table with pool }
  match frame with
  | some frame => pure (.ok (some frame))
  | none => pure (if table.records.isEmpty then .error .outOfFrames else .ok none)

/-- Take the record that the clock chose out of the table, or give up if it chose none. -/
def takeVictim (choice : Option Nat) (clock : SecondChance) :
    Transition (Except VmError FrameRecord) := do
  let table := { ← frames with clock }
  match choice.bind (table.records[·]?) with
  | none => do
    setFrames table
    pure (.error .noVictim)
  | some victim => do
    setFrames (table.removeAt clock.hand)
    pure (.ok victim)

/-- Unmap the page of a victim and plan where its contents go. Its entry is marked, so that faults
on it wait. -/
def detach (victim : FrameRecord) : Transition Transit := do
  match victim.page with
  | none => throw .brokenPromise
  | some page => do
    let transit (entry : Option PageTableEntry) (plan : Plan) : Transit :=
      { frame := victim.frame, owner := victim.owner, page, entry, plan }
    match ← clear victim.owner page with
    | none => pure (transit none .discard)
    | some entry => do
      match (← supplement victim.owner).findOrAnonymous page with
      | none => pure (transit (some entry) .discard)
      | some (info, table) => do
        setSupplement victim.owner (table.modify page ({ · with evicting := true }))
        pure (transit (some entry) (.ofEntry entry info))

/-- The contents of a victim are safe: clear the frame and bring the entry up to date. If the entry
has gone meanwhile, nobody wants the contents any more. -/
def finish (transit : Transit) (copy : Option SwapCopy) : Transition Unit := do
  zero transit.frame
  if transit.plan = .discard then pure ()
  else match (← supplement transit.owner).find? transit.page, copy with
    | some _, some copy =>
      modifyInfo transit.owner transit.page fun info =>
        { info.movedToSwap copy with evicting := false }
    | some _, none =>
      modifyInfo transit.owner transit.page ({ · with resident := false, evicting := false })
    | none, some copy => releaseSlot copy.slot
    | none, none => pure ()
  notify (.evicted (← space transit.owner).pid transit.page transit.frame (copy.map (·.slot)))

/-- The contents of a victim could not be moved: put it back where it was. -/
def restore (transit : Transit) : Transition Unit := do
  match transit.entry with
  | none => pure ()
  | some entry => do
    let _ ← install transit.owner transit.page transit.frame entry.writable
    setDirty transit.owner transit.page entry.dirty
    setAccessed transit.owner transit.page entry.accessed
  modifyInfo transit.owner transit.page ({ · with evicting := false })
  let table ← frames
  setFrames (← ofExcept (table.insert
    { frame := transit.frame, owner := transit.owner, page := some transit.page } false))

end Transition

namespace Kernel

variable {m : Type → Type} [Kernel m]

/-- The records of a table as the clock hand sees them: reading a mark asks the page directory. -/
def candidates (table : FrameTable) : Candidates m where
  size := table.size
  eligible := table.isEligible
  testAndClear index := do
    match table.records[index]? with
    | some { owner, page := some page, .. } => do
      let accessed := (← findEntry owner page).any (·.accessed)
      if accessed then Transition.setAccessed owner page false
      pure accessed
    | _ => pure false

/-- Let the clock choose a victim and take its record out of the table. -/
def chooseVictim : m (Except VmError FrameRecord) := do
  let table ← Transition.frames
  let (choice, clock) ← table.clock.select (candidates table)
  Transition.takeVictim choice clock

/-- Find a frame in the pool, or a victim. -/
def findSource : m (Except VmError Source) := do
  match ← Transition.lookAgain with
  | .error cause => pure (.error cause)
  | .ok (some frame) => pure (.ok (.pool frame))
  | .ok none => do
    let victim ← chooseVictim
    pure (victim.map .page)

/-- Write a frame to a slot of its own. -/
def swapOut (frame : Nat) : m (Except VmError Nat) := do
  match ← Transition.allocateSlot with
  | none => pure (.error .swapFull)
  | some slot =>
    match ← writeSlot slot frame with
    | .error cause => do
      Transition.releaseSlot slot
      pure (.error (.block cause))
    | .ok () => pure (.ok slot)

/-- Move the contents of a victim where they go. Answers the swap copy, if one was made. -/
def writeOut (transit : Transit) : m (Except VmError (Option SwapCopy)) := do
  match transit.plan with
  | .swap writable =>
    match ← swapOut transit.frame with
    | .error cause => pure (.error cause)
    | .ok slot => pure (.ok (some { slot, writable }))
  | .file segment =>
    match ← writeBack transit.frame segment with
    | .error cause => pure (.error (.writeBack cause))
    | .ok () => pure (.ok none)
  | .keep | .discard => pure (.ok none)

/-- Move a victim out of its frame. -/
def migrate (victim : FrameRecord) : m (Except VmError Unit) := do
  let transit ← holding (.supplement victim.owner) (Transition.detach victim)
  match ← writeOut transit with
  | .error cause => do
    holding (.supplement transit.owner) (holding .frames (Transition.restore transit))
    pure (.error cause)
  | .ok copy => do
    holding (.contents transit.frame)
      (holding (.supplement transit.owner) (Transition.finish transit copy))
    pure (.ok ())

/-- A frame for a new use, allocated and without a record, and whether it is already zero. -/
def evict : m (Except VmError (Nat × Bool)) :=
  holding .eviction do
    match ← holding .frames findSource with
    | .error cause => pure (.error cause)
    | .ok (.pool frame) => pure (.ok (frame, false))
    | .ok (.page victim) =>
      match ← migrate victim with
      | .error cause => pure (.error cause)
      | .ok () => pure (.ok (victim.frame, true))

end Kernel

end DemandPaging
