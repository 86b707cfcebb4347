import DemandPaging.Proofs.SteadyCopies
import DemandPaging.Proofs.SteadyTeardowns
import Mathlib.Order.Defs.Unbundled

/-!
# What every operation keeps up

A relation between the machine before and the machine after that is reflexive and transitive is kept up
by an operation if each of its steps keeps it up. `Rules.Maintains rel work` says so of an operation on any
machine, and has a rule for each way in which operations are built, so an operation is followed by its
parts and no state is carried along.

`Machine.Offstage` is the relation of whatever goes on behind the tables: frames are claimed, filled and
given back, pages are moved, and something is said. There are as many frames afterwards and no fewer
files, and the tables of all spaces are the same.
-/

set_option autoImplicit false

namespace DemandPaging

open Spaces Machine Transition

/-! ### Relations that operations keep up -/

namespace Rules

variable {μ : Type → Type} [Kernel μ] {R : Rules μ} {rel rel' : Machine → Machine → Prop} {α β ε : Type}
  {work : μ α} {next : α → μ β}

/-- Whatever machine the operation begins on, the one that it leaves is in the relation to it. -/
def Maintains (R : Rules μ) (rel : Machine → Machine → Prop) (work : μ α) : Prop :=
  ∀ machine, R.Yields work machine fun _ after => rel machine after

/-- What keeps up more keeps up less. -/
theorem Maintains.mono (h : R.Maintains rel work) (hweaker : ∀ a b, rel a b → rel' a b) :
    R.Maintains rel' work := fun machine => R.mono (h machine) fun _ _ hafter => hweaker _ _ hafter

/-- What is kept up is so while a resource is held. -/
theorem Maintains.holding {resource : Resource} (h : R.Maintains rel work) :
    R.Maintains rel (Kernel.holding resource work) := fun machine => R.holding (h machine)

variable [IsPreorder Machine rel]

/-- What does nothing keeps up any relation that is reflexive. -/
theorem maintains_pure (a : α) : R.Maintains rel (Pure.pure a) := fun machine =>
  R.pure (refl_of rel machine)

/-- Two operations one after the other keep up what each of them does. -/
theorem Maintains.bind (h : R.Maintains rel work) (hnext : ∀ a, R.Maintains rel (next a)) :
    R.Maintains rel (work >>= next) := fun machine =>
  R.bind (R.mono (h machine) fun a middle hmiddle =>
    R.mono (hnext a middle) fun _ _ hafter => trans_of rel hmiddle hafter)

/-- A list of steps that ends at the first failure keeps up what each step does. -/
theorem Maintains.upToFailure {step : α → μ (Except ε Unit)} (h : ∀ a, R.Maintains rel (step a))
    (todo : List α) : R.Maintains rel (Kernel.upToFailure step todo) := fun machine =>
  R.upToFailure_keeps (rel machine) (fun a before hbefore => R.mono (h a before) fun _ _ hafter =>
    trans_of rel hbefore hafter) todo (refl_of rel machine)

/-- A list of steps that is gone through to the end keeps up what each step does. -/
theorem Maintains.throughFailures {step : α → μ (Except ε Unit)} (h : ∀ a, R.Maintains rel (step a))
    (todo : List α) : R.Maintains rel (Kernel.throughFailures step todo) := fun machine =>
  R.throughFailures (fun _ => rel machine) (fun _ a _ before _ hbefore =>
    R.mono (h a before) fun _ _ hafter => trans_of rel hbefore hafter) (refl_of rel machine)

/-- A copy from user memory keeps up what it does with each piece. -/
theorem Maintains.copyFromUser {s : SpaceId} {start length stackPointer : Nat}
    (h : ∀ piece, R.Maintains rel (Kernel.reach s start piece stackPointer false fun frame =>
      Transition.readFrame frame (pageOffset piece.address) piece.size)) :
    R.Maintains rel (Kernel.copyFromUser s start length stackPointer) := fun machine => by
  refine R.mono (R.copyFromUser (fun _ _ => rel machine) (fun _ _ => rel machine)
    (fun _ piece _ _ before _ hbefore => ?_) (refl_of rel machine)) fun ⟨_, outcome⟩ after hafter => ?_
  · refine R.mono (h piece before) fun outcome after hafter => ?_
    cases outcome <;> exact trans_of rel hbefore hafter
  · cases outcome <;> exact hafter

end Rules

section

variable {μ : Type → Type} [Kernel μ] {others : Machine → Machine → Prop} {evicts : Prop}
  {O : Outcomes μ others evicts} {rel : Machine → Machine → Prop} {α : Type}

/-- What others do keeps the relation up. -/
theorem Outcomes.maintains_interrupt (hothers : ∀ a b, others a b → rel a b) (event : Event) :
    O.Maintains rel (Kernel.interrupt event) := fun machine => O.interrupt fun met => hothers machine met

variable [IsPreorder Machine rel]

/-- A transition keeps the relation up, and so do others. -/
theorem Outcomes.maintains_step (hothers : ∀ a b, others a b → rel a b) {step : Transition α}
    (h : ∀ machine, step.Yields machine fun _ after => rel machine after) :
    O.Maintains rel (Kernel.atomically step) := fun machine =>
  O.atomically fun met hmet => (h met).mono fun _ _ hafter =>
    trans_of rel (hothers machine met hmet) hafter

/-- What is only read is kept up. -/
theorem Transition.Yields.unchanged {step : Transition α}
    (h : ∀ machine, step.Yields machine fun _ after => after = machine) (machine : Machine) :
    step.Yields machine fun _ after => rel machine after :=
  (h machine).mono fun _ _ hafter => hafter ▸ refl_of rel machine

end

/-! ### Frames and files -/

namespace FramePool

variable {pool pool' : FramePool} {frame : Nat}

/-- The pool has as many frames after one was taken out. -/
theorem capacity_of_alloc {found : Option Nat} (h : pool.alloc = .ok (found, pool')) :
    pool'.capacity = pool.capacity := by
  unfold alloc at h
  split at h
  · cases h
    rfl
  · simp only at h
    split at h
    · cases h
      rfl
    · split at h
      · cases h
        exact capacity_setEntry
      · cases h

/-- The pool has as many frames after one was given back. -/
theorem capacity_of_dealloc (h : pool.dealloc frame = .ok pool') : pool'.capacity = pool.capacity := by
  unfold dealloc at h
  split at h
  · cases h
  · split at h
    · cases h
    · split at h
      · cases h
      · cases h
        exact capacity_setEntry

/-- The pool has as many frames after one was pinned or unpinned. -/
theorem capacity_of_setPinned {on : Bool} (h : pool.setPinned frame on = .ok pool') :
    pool'.capacity = pool.capacity := by
  unfold setPinned at h
  split at h
  · cases h
  · split at h
    · cases h
    · cases h
      exact capacity_setEntry

end FramePool

namespace FrameTable

variable {table table' : FrameTable} {frame : Nat}

/-- There are as many frames as before, in the pool and in memory. -/
structure AsLarge (before after : FrameTable) : Prop where
  memory : after.memory.size = before.memory.size
  capacity : after.pool.capacity = before.pool.capacity

/-- A table is as large as it is. -/
theorem AsLarge.refl (table : FrameTable) : table.AsLarge table := ⟨rfl, rfl⟩

/-- Tables stay as large over two changes. -/
theorem AsLarge.trans {a b c : FrameTable} (h : a.AsLarge b) (h' : b.AsLarge c) : a.AsLarge c :=
  ⟨h'.memory.trans h.memory, h'.capacity.trans h.capacity⟩

/-- A table is as large if its pool is. -/
theorem asLarge_pool {pool : FramePool} (h : pool.capacity = table.pool.capacity) :
    table.AsLarge { table with pool } := ⟨rfl, h⟩

/-- To fill a frame adds none. -/
theorem asLarge_setPage (table : FrameTable) (frame : Nat) (content : Page) :
    table.AsLarge { table with memory := table.memory.setPage frame content } :=
  ⟨FrameMemory.size_setPage, rfl⟩

/-- To record a frame adds none. -/
theorem asLarge_of_insert {record : FrameRecord} {pinned : Bool}
    (h : table.insert record pinned = .ok table') : table.AsLarge table' := by
  obtain ⟨pool, hpool, rfl⟩ := exists_of_insert h
  exact ⟨rfl, FramePool.capacity_of_setPinned hpool⟩

/-- To take a frame for a page adds none. -/
theorem asLarge_of_allocFree {owner : SpaceId} {page : Option Nat} {found : Option Nat}
    (h : table.allocFree owner page = .ok (found, table')) : table.AsLarge table' := by
  obtain ⟨pool, hpool, hfound⟩ := exists_of_allocFree h
  have hlarge : table.AsLarge { table with pool } := asLarge_pool (FramePool.capacity_of_alloc hpool)
  cases found with
  | none =>
    obtain rfl : table' = _ := hfound
    exact hlarge
  | some frame => exact hlarge.trans (asLarge_of_insert hfound)

/-- To unpin a frame adds none. -/
theorem asLarge_of_unpin (h : table.unpin frame = .ok table') : table.AsLarge table' := by
  obtain ⟨-, rfl⟩ | ⟨pool, hpool, rfl⟩ := exists_of_unpin h
  · exact .refl table'
  · exact asLarge_pool (FramePool.capacity_of_setPinned hpool)

/-- To pin a frame adds none. -/
theorem asLarge_of_pinIfBacking {owner : SpaceId} {page : Nat} {backs : Bool}
    (h : table.pinIfBacking frame owner page = .ok (backs, table')) : table.AsLarge table' := by
  obtain ⟨-, hbacks⟩ := exists_of_pinIfBacking h
  split at hbacks
  · obtain ⟨pool, hpool, rfl⟩ := hbacks
    exact asLarge_pool (FramePool.capacity_of_setPinned hpool)
  · exact hbacks ▸ .refl table

/-- To give a frame back takes none away. -/
theorem asLarge_of_free (h : table.free frame = .ok table') : table.AsLarge table' := by
  obtain ⟨-, rfl⟩ | ⟨index, pool, -, hpool, rfl⟩ := exists_of_free h
  · exact .refl table'
  · exact ⟨rfl, FramePool.capacity_of_dealloc hpool⟩

/-- The pool has as many frames after all those of a list were given back. -/
theorem capacity_of_deallocAll (gone : List FrameRecord) : ∀ {pool pool' : FramePool},
    deallocAll pool gone = .ok pool' → pool'.capacity = pool.capacity := by
  induction gone with
  | nil =>
    rintro pool _ ⟨⟩
    rfl
  | cons record gone ih =>
    intro pool pool' h
    rw [deallocAll] at h
    split at h
    · cases h
    · rename_i hpool
      exact (ih h).trans (FramePool.capacity_of_dealloc hpool)

/-- To give the frames of a space back takes none away. -/
theorem asLarge_of_freeOwnedBy {owner : SpaceId} {gone : List FrameRecord}
    (h : table.freeOwnedBy owner = .ok (gone, table')) : table.AsLarge table' := by
  unfold freeOwnedBy at h
  simp only at h
  split at h
  · cases h
  · rename_i pool hpool
    cases h
    exact ⟨rfl, capacity_of_deallocAll _ hpool⟩

end FrameTable

/-- Nothing was done to the spaces. There are as many frames as before and no fewer files. -/
structure Machine.Offstage (before after : Machine) : Prop where
  spaces_eq : after.spaces = before.spaces
  frames : before.frames.AsLarge after.frames
  files : before.files.size ≤ after.files.size

/-- What goes on behind the tables may be composed over the steps of an operation. -/
instance : IsPreorder Machine Machine.Offstage where
  refl _ := ⟨rfl, .refl _, Nat.le_refl _⟩
  trans _ _ _ h h' :=
    ⟨h'.spaces_eq.trans h.spaces_eq, h.frames.trans h'.frames, Nat.le_trans h.files h'.files⟩

/-- Only the frame table was changed. -/
theorem Machine.offstage_frames {m : Machine} {frames : FrameTable} (h : m.frames.AsLarge frames) :
    m.Offstage { m with frames } := ⟨rfl, h, Nat.le_refl _⟩

/-- Neither spaces nor frames nor files were changed. -/
theorem Machine.offstage_of_eq {m m' : Machine} (hspaces : m'.spaces = m.spaces)
    (hframes : m'.frames = m.frames) (hfiles : m'.files = m.files) : m.Offstage m' :=
  ⟨hspaces, hframes ▸ .refl _, Nat.le_of_eq (congrArg Array.size hfiles.symm)⟩

namespace Transition

variable {m : Machine} {s : SpaceId} {frame slot : Nat}

/-- To look at a frame changes nothing. -/
theorem yields_page : (page frame).Yields m fun _ after => after = m := by
  refine Ensures.yields ?_
  rw [ensures_page]
  exact fun _ _ => rfl

/-- To say something happens behind the tables. -/
theorem offstage_notify (notice : Notice) : (notify notice).Yields m fun _ after => m.Offstage after :=
  yields_notify.mpr (offstage_of_eq rfl rfl rfl)

/-- To take a free frame happens behind the tables. -/
theorem offstage_allocFree (page : Option Nat) :
    (allocFree s page).Yields m fun _ after => m.Offstage after :=
  yields_bind.mpr (yields_frames.mpr (yields_bind.mpr (yields_ofExcept.mpr fun _ h =>
    yields_bind.mpr (yields_setFrames.mpr (yields_pure.mpr
      (offstage_frames (FrameTable.asLarge_of_allocFree h)))))))

/-- To record a frame happens behind the tables. -/
theorem offstage_record (page : Option Nat) :
    (record frame s page).Yields m fun _ after => m.Offstage after :=
  yields_bind.mpr (yields_frames.mpr (yields_bind.mpr (yields_ofExcept.mpr fun _ h =>
    yields_setFrames.mpr (offstage_frames (FrameTable.asLarge_of_insert h)))))

/-- To unpin a frame happens behind the tables. -/
theorem offstage_unpin : (unpin frame).Yields m fun _ after => m.Offstage after :=
  yields_bind.mpr (yields_frames.mpr (yields_bind.mpr (yields_ofExcept.mpr fun _ h =>
    yields_setFrames.mpr (offstage_frames (FrameTable.asLarge_of_unpin h)))))

/-- To pin the frame of a page happens behind the tables. -/
theorem offstage_pinIfBacking (p : Nat) :
    (pinIfBacking frame s p).Yields m fun _ after => m.Offstage after :=
  yields_bind.mpr (yields_frames.mpr (yields_bind.mpr (yields_ofExcept.mpr fun _ h =>
    yields_bind.mpr (yields_setFrames.mpr (yields_pure.mpr
      (offstage_frames (FrameTable.asLarge_of_pinIfBacking h)))))))

/-- To give a frame back happens behind the tables, also if it is nobody's. -/
theorem offstage_free : (free frame).Yields m fun _ after => m.Offstage after := by
  refine yields_bind.mpr (yields_frames.mpr ?_)
  split
  · exact offstage_notify _
  · exact yields_bind.mpr (yields_ofExcept.mpr fun _ h =>
      yields_setFrames.mpr (offstage_frames (FrameTable.asLarge_of_free h)))

/-- To fill a frame with zeroes happens behind the tables. -/
theorem offstage_zero : (zero frame).Yields m fun _ after => m.Offstage after :=
  (ensures_zero.mpr fun _ _ => offstage_frames (m.frames.asLarge_setPage frame _)).yields

/-- To store bytes in a frame happens behind the tables. -/
theorem offstage_writeFrame (start : Nat) (data : Bytes) :
    (writeFrame frame start data).Yields m fun _ after => m.Offstage after :=
  (ensures_writeFrame.mpr fun _ _ _ => offstage_frames (m.frames.asLarge_setPage frame _)).yields

/-- To fill a frame with a window happens behind the tables. -/
theorem offstage_fillFrame (segment : Segment) (data : Bytes) :
    (fillFrame frame segment data).Yields m fun _ after => m.Offstage after :=
  (ensures_bind.mpr (ensures_page.mpr fun _ _ => ensures_setPage.mpr
    (offstage_frames (m.frames.asLarge_setPage frame _)))).yields

/-- To read a file happens behind the tables. -/
theorem offstage_readFile (f : FileId) (offset n : Nat) :
    (readFile f offset n).Yields m fun _ after => m.Offstage after :=
  (ensures_readFile.mpr fun _ _ => ⟨rfl, .refl _, by simp⟩).yields

/-- To write a file happens behind the tables, no file goes. -/
theorem offstage_writeFile (f : FileId) (offset : Nat) (data : Bytes) :
    (writeFile f offset data).Yields m fun _ after => m.Offstage after :=
  (ensures_writeFile.mpr fun _ _ => ⟨rfl, .refl _, by simp⟩).yields

/-- To claim a slot happens behind the tables. -/
theorem offstage_allocateSlot : allocateSlot.Yields m fun _ after => m.Offstage after :=
  yields_allocateSlot.mpr fun _ _ _ => offstage_of_eq rfl rfl rfl

/-- To give a slot back happens behind the tables. -/
theorem offstage_releaseSlot : (releaseSlot slot).Yields m fun _ after => m.Offstage after :=
  yields_releaseSlot.mpr fun _ _ => offstage_of_eq rfl rfl rfl

/-- To write a part of a frame to a slot happens behind the tables. -/
theorem offstage_writePart (part : Fin sectorsPerPage) :
    (writePart slot frame part).Yields m fun _ after => m.Offstage after := by
  refine (ensures_writePart slot frame part).yields.mono ?_
  rintro _ _ ⟨_, device, rfl, -⟩
  exact offstage_of_eq rfl rfl rfl

/-- To read a part of a slot over a frame happens behind the tables. -/
theorem offstage_readPart (part : Fin sectorsPerPage) :
    (readPart slot frame part).Yields m fun _ after => m.Offstage after := by
  refine (ensures_readPart slot frame part).yields.mono ?_
  rintro _ _ ⟨device, memory, rfl, -, hsize, -, -⟩
  exact ⟨rfl, ⟨hsize, rfl⟩, Nat.le_refl _⟩

end Transition

/-! ### Operations behind the tables -/

section

variable {μ : Type → Type} [Kernel μ] {others : Machine → Machine → Prop} {evicts : Prop}
  (O : Outcomes μ others evicts) {rel : Machine → Machine → Prop} [IsPreorder Machine rel]
  (hothers : ∀ a b, others a b → rel a b) {s : SpaceId} {frame : Nat}

include hothers

/-- A supplemental page table is read. -/
theorem Outcomes.maintains_supplement : O.Maintains rel (Kernel.supplement s) :=
  .holding (maintains_step hothers (Yields.unchanged fun _ => yields_supplement.mpr fun _ _ => rfl))

/-- To look at a space keeps up what others do. -/
theorem Outcomes.maintains_space : O.Maintains rel (Kernel.atomically (space s)) :=
  maintains_step hothers (Yields.unchanged fun _ => yields_space.mpr fun _ _ => rfl)

/-- A page directory is asked for an entry. -/
theorem Outcomes.maintains_findEntry (p : Nat) : O.Maintains rel (Kernel.findEntry s p) := by
  refine (maintains_step hothers (Yields.unchanged fun _ => yields_directory.mpr fun _ _ => rfl)).bind
    fun _ => ?_
  exact (maintains_interrupt hothers _).bind fun _ => Rules.maintains_pure _

omit hothers in
/-- To wait for a resource keeps up any relation. -/
theorem Outcomes.maintains_await (resource : Resource) : O.Maintains rel (Kernel.await resource) :=
  .holding (Rules.maintains_pure ())

end

section

variable {μ : Type → Type} [Kernel μ] {others : Machine → Machine → Prop} {evicts : Prop}
  (O : Outcomes μ others evicts) (hothers : ∀ a b, others a b → a.Offstage b) {s : SpaceId}
  {slot frame : Nat}

include hothers

/-- To say something among others happens behind the tables. -/
theorem Outcomes.offstage_notify (notice : Notice) :
    O.Maintains Offstage (Kernel.atomically (notify notice)) :=
  maintains_step hothers fun _ => Transition.offstage_notify notice

/-- To ask for a frame changes nothing, and others stay behind the tables. -/
theorem Outcomes.offstage_requireFrame : O.Maintains Offstage (Kernel.atomically (requireFrame frame)) :=
  maintains_step hothers (Yields.unchanged fun _ => yields_requireFrame rfl)

/-- To ask for a slot changes nothing, and others stay behind the tables. -/
theorem Outcomes.offstage_requireUsed : O.Maintains Offstage (Kernel.atomically (requireUsed slot)) :=
  maintains_step hothers (Yields.unchanged fun _ => yields_requireUsed rfl)

/-- To ask whether a window fits changes nothing, and others stay behind the tables. -/
theorem Outcomes.offstage_requireWindow (segment : Segment) :
    O.Maintains Offstage (Kernel.atomically (requireWindow segment)) :=
  maintains_step hothers (Yields.unchanged fun _ =>
    yields_ite (fun _ => yields_pure.mpr rfl) fun _ => yields_throw.mpr trivial)

/-- To look at the swap store changes nothing, and others stay behind the tables. -/
theorem Outcomes.offstage_swap : O.Maintains Offstage (Kernel.atomically swap) :=
  maintains_step hothers (Yields.unchanged fun _ => yields_swap.mpr rfl)

/-- A frame is written to a slot. -/
theorem Outcomes.offstage_writeSlot : O.Maintains Offstage (Kernel.writeSlot slot frame) := by
  refine (O.offstage_requireFrame hothers).bind fun _ => .holding ?_
  refine (O.offstage_requireUsed hothers).bind fun _ => .holding ?_
  refine Rules.Maintains.bind (.upToFailure (fun part => ?_) _) fun outcome => ?_
  · refine (O.offstage_swap hothers).bind fun store => ?_
    cases SwapStore.refuseWrite? store slot part with
    | some cause => exact Rules.maintains_pure _
    | none =>
      exact (maintains_interrupt hothers _).bind fun _ =>
        maintains_step hothers fun _ => Transition.offstage_writePart part
  · cases outcome with
    | error cause => exact Rules.maintains_pure _
    | ok u => exact (O.offstage_notify hothers _).bind fun _ => Rules.maintains_pure _

/-- A slot is read over a frame. -/
theorem Outcomes.offstage_readSlot : O.Maintains Offstage (Kernel.readSlot slot frame) := by
  refine (O.offstage_requireFrame hothers).bind fun _ => .holding ?_
  refine (O.offstage_requireUsed hothers).bind fun _ => .holding ?_
  refine Rules.Maintains.bind (.upToFailure (fun part => ?_) _) fun outcome => ?_
  · refine (O.offstage_swap hothers).bind fun store => ?_
    cases SwapStore.refuseRead? store slot part with
    | some cause => exact Rules.maintains_pure _
    | none =>
      exact (maintains_interrupt hothers _).bind fun _ =>
        maintains_step hothers fun _ => Transition.offstage_readPart part
  · cases outcome with
    | error cause => exact Rules.maintains_pure _
    | ok u => exact (O.offstage_notify hothers _).bind fun _ => Rules.maintains_pure _

/-- A frame is written back to a file. -/
theorem Outcomes.offstage_writeBack (segment : Segment) :
    O.Maintains Offstage (Kernel.writeBack frame segment) := by
  refine .holding ((O.offstage_requireWindow hothers segment).bind fun _ => ?_)
  refine (maintains_step hothers (Yields.unchanged fun _ => yields_page)).bind fun content => ?_
  refine (maintains_interrupt hothers _).bind fun _ => ?_
  refine (maintains_step hothers fun _ => offstage_writeFile _ _ _).bind fun outcome => ?_
  cases outcome <;> exact Rules.maintains_pure _

/-- The window of a page is read into a frame. -/
theorem Outcomes.offstage_readIn (segment : Segment) :
    O.Maintains Offstage (Kernel.readIn frame segment) := by
  refine .holding ((O.offstage_requireWindow hothers segment).bind fun _ => ?_)
  refine (maintains_interrupt hothers _).bind fun _ => ?_
  refine (maintains_step hothers fun _ => offstage_readFile _ _ _).bind fun outcome => ?_
  cases outcome <;>
    exact (maintains_step hothers fun _ => offstage_fillFrame segment _).bind fun _ =>
      Rules.maintains_pure _

/-- A page goes to a slot of its own. -/
theorem Outcomes.offstage_swapOut : O.Maintains Offstage (Kernel.swapOut frame) := by
  refine (maintains_step hothers fun _ => offstage_allocateSlot).bind fun slot? => ?_
  cases slot? with
  | none => exact Rules.maintains_pure _
  | some slot =>
    refine (O.offstage_writeSlot hothers).bind fun outcome => ?_
    cases outcome with
    | ok u => exact Rules.maintains_pure _
    | error cause =>
      exact (maintains_step hothers fun _ => offstage_releaseSlot).bind fun _ => Rules.maintains_pure _

/-- The contents of a victim are moved where they go. A copy is only made of a page that is to go to
swap. -/
theorem Outcomes.offstage_writeOut (transit : Transit) (m : Machine) :
    O.Yields (Kernel.writeOut transit) m fun outcome after => m.Offstage after ∧
      ∀ copy, outcome = .ok (some copy) → ∃ writable, transit.plan = .swap writable := by
  rw [Kernel.writeOut]
  cases transit.plan with
  | swap writable =>
    refine O.bind (O.mono (O.offstage_swapOut hothers m) fun outcome after hafter => ?_)
    cases outcome <;> exact O.pure ⟨hafter, fun _ _ => ⟨writable, rfl⟩⟩
  | file segment =>
    refine O.bind (O.mono (O.offstage_writeBack hothers segment m) fun outcome after hafter => ?_)
    cases outcome <;> exact O.pure ⟨hafter, fun _ h => by cases h⟩
  | keep | discard => exact O.pure ⟨refl_of Offstage m, fun _ h => by cases h⟩

/-- To give a frame back among others happens behind the tables. -/
theorem Outcomes.offstage_free : O.Maintains Offstage (Kernel.free frame) :=
  .holding (maintains_step hothers fun _ => Transition.offstage_free)

/-- To unpin a frame among others happens behind the tables. -/
theorem Outcomes.offstage_unpin : O.Maintains Offstage (Kernel.unpin frame) :=
  .holding (maintains_step hothers fun _ => Transition.offstage_unpin)

/-- To pin the frame of a page among others happens behind the tables. -/
theorem Outcomes.offstage_pinIfBacking (p : Nat) : O.Maintains Offstage (Kernel.pinIfBacking frame s p) :=
  .holding (maintains_step hothers fun _ => Transition.offstage_pinIfBacking p)

/-- A frame is zeroed if need be, and that it was handed out is said. -/
theorem Outcomes.offstage_handOver (page : Option Nat) (zeroed clean : Bool) :
    O.Maintains Offstage (Kernel.handOver s page zeroed clean frame) := by
  have hsay : O.Maintains Offstage (do
      Transition.notify (.allocated (← Transition.space s).pid frame page)) :=
    (O.maintains_space hothers).bind fun _ => O.offstage_notify hothers _
  rw [Kernel.handOver]
  split
  · exact Rules.Maintains.bind (.holding (maintains_step hothers fun _ => offstage_zero)) fun _ => hsay
  · exact hsay

/-- A frame that nothing is mapped to any more is written back if need be and given back. -/
theorem Outcomes.offstage_saveAndFree (info : PageInfo) (entry : Option PageTableEntry) :
    O.Maintains Offstage (Kernel.saveAndFree frame info entry) := by
  have hrest : ∀ saved : Except FileError Unit, O.Maintains Offstage (do
      Kernel.free frame
      Pure.pure (saved.mapError VmError.file)) := fun _ =>
    (O.offstage_free hothers).bind fun _ => Rules.maintains_pure _
  unfold Kernel.saveAndFree
  split
  · split
    · exact (O.offstage_writeBack hothers _).bind hrest
    · exact (Rules.maintains_pure _).bind hrest
  · exact (Rules.maintains_pure _).bind hrest

end

end DemandPaging
