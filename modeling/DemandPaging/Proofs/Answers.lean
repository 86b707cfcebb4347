import DemandPaging.Proofs.CompleteTeardowns
import DemandPaging.Proofs.Placements

/-!
# Operations that answer

A machine that is in order halts for one reason only: a counter of sector transfers is exhausted.
`Answers step machine post` says that this is the only reason, and that otherwise the step answers, with
`post` of the answer and the machine it leaves. Steps that always finish answer, and what a step ensures
may be added (`Answers.ensures`).

The transfers of this module answer, and if they are refused, the reason is found in the device or in the
file as it was before: the device has a fault at a sector of a slot (`SwapStore.Fails`), or the file does
not take what is written (`MemoryFile.Rejects`). A transfer does not change what faults the device has
(`Block.Like`).
-/

set_option autoImplicit false

namespace DemandPaging

open Spaces Machine

/-- One more sector of some kind cannot be counted. -/
def Machine.Exhausted (machine : Machine) : Prop :=
  transferLimit ≤ machine.swap.device.reads + 1 ∨ transferLimit ≤ machine.swap.device.writes + 1

/-! ### Faults of devices and files -/

namespace Block

/-- Why a sector cannot be read, if it cannot. -/
def readFault? (block : Block) (sector : Nat) : Option BlockError :=
  (block.refuseRead? sector).or (block.disk.refuseRead? sector)

/-- Why a sector cannot be written, if it cannot. -/
def writeFault? (block : Block) (sector : Nat) : Option BlockError :=
  (block.refuseWrite? sector).or (block.disk.refuseWrite? sector)

/-- The devices are the same but for contents and counts. -/
structure Like (block block' : Block) : Prop where
  size_eq : block'.size = block.size
  kind_eq : block'.kind = block.kind
  sectors_eq : block'.disk.sectors = block.disk.sectors
  failReads_eq : block'.disk.failReads = block.disk.failReads
  failWrites_eq : block'.disk.failWrites = block.disk.failWrites

section

variable {block block' block'' : Block} {sector : Nat}

/-- A device is like itself. -/
theorem Like.refl (block : Block) : block.Like block := ⟨rfl, rfl, rfl, rfl, rfl⟩

/-- A device that went through alike ones is still alike. -/
theorem Like.trans (h : block.Like block') (h' : block'.Like block'') : block.Like block'' :=
  ⟨h'.size_eq.trans h.size_eq, h'.kind_eq.trans h.kind_eq, h'.sectors_eq.trans h.sectors_eq,
    h'.failReads_eq.trans h.failReads_eq, h'.failWrites_eq.trans h.failWrites_eq⟩

/-- A device that is alike has the same faults when read. -/
theorem Like.readFault?_eq (h : block.Like block') : block'.readFault? sector = block.readFault? sector := by
  simp only [readFault?, refuseRead?, RamDisk.refuseRead?, h.size_eq, h.sectors_eq, h.failReads_eq]

/-- A device that is alike has the same faults when written. -/
theorem Like.writeFault?_eq (h : block.Like block') :
    block'.writeFault? sector = block.writeFault? sector := by
  simp only [writeFault?, refuseWrite?, RamDisk.refuseWrite?, h.size_eq, h.kind_eq, h.sectors_eq,
    h.failWrites_eq]

/-- A sector that passed the checks of the device is read, unless the disk has a fault there or the
counter is exhausted. -/
theorem readDisk_cases (hpassed : block.refuseRead? sector = none) :
    (∃ content block', block.readDisk sector = .ok (.ok content, block') ∧ block.Like block') ∨
      (∃ cause, block.readDisk sector = .ok (.error cause, block) ∧
        block.readFault? sector = some cause) ∨
      block.readDisk sector = .error .overflow ∧ transferLimit ≤ block.reads + 1 := by
  rw [readFault?, hpassed, Option.none_or, readDisk, RamDisk.readSector]
  cases hrefuse : block.disk.refuseRead? sector with
  | some cause => exact .inr (.inl ⟨cause, rfl, rfl⟩)
  | none =>
    simp only
    split
    · exact .inl ⟨_, _, rfl, ⟨rfl, rfl, rfl, rfl, rfl⟩⟩
    · exact .inr (.inr ⟨rfl, Nat.le_of_not_lt ‹_›⟩)

/-- A sector that passed the checks of the device is written, unless the disk has a fault there or the
counter is exhausted. -/
theorem writeDisk_cases (content : Sector) (hpassed : block.refuseWrite? sector = none) :
    (∃ block', block.writeDisk sector content = .ok (.ok (), block') ∧ block.Like block') ∨
      (∃ cause, block.writeDisk sector content = .ok (.error cause, block) ∧
        block.writeFault? sector = some cause) ∨
      block.writeDisk sector content = .error .overflow ∧ transferLimit ≤ block.writes + 1 := by
  rw [writeFault?, hpassed, Option.none_or, writeDisk, RamDisk.writeSector]
  cases hrefuse : block.disk.refuseWrite? sector with
  | some cause => exact .inr (.inl ⟨cause, rfl, rfl⟩)
  | none =>
    simp only
    split
    · exact .inl ⟨_, rfl, ⟨rfl, rfl, rfl, rfl, rfl⟩⟩
    · exact .inr (.inr ⟨rfl, Nat.le_of_not_lt ‹_›⟩)

end

end Block

/-- The device has this fault at a sector of some slot. -/
def SwapStore.Fails (store : SwapStore) (cause : BlockError) : Prop :=
  ∃ slot k, slot < store.slotCount ∧ (store.device.readFault? (sectorOf slot k) = some cause ∨
    store.device.writeFault? (sectorOf slot k) = some cause)

/-- A fault of a store with an alike device is a fault of this store, too. -/
theorem SwapStore.Fails.congr {store store' : SwapStore} {cause : BlockError} (h : store'.Fails cause)
    (hcount : store'.slotCount = store.slotCount) (hlike : store.device.Like store'.device) :
    store.Fails cause := by
  obtain ⟨slot, k, hslot, hfault⟩ := h
  rw [hlike.readFault?_eq, hlike.writeFault?_eq] at hfault
  exact ⟨slot, k, hcount ▸ hslot, hfault⟩

/-- Only the switches of the disk can make the device fail. -/
structure Block.Sturdy (block : Block) : Prop where
  size_le : block.size ≤ block.disk.sectors
  kind_ne : block.kind ≠ .foreign

namespace Block

variable {block : Block} {sector : Nat} {cause : BlockError}

/-- If a sturdy device cannot be read at a sector of its own, reads were switched off. -/
theorem Sturdy.of_readFault? (h : block.Sturdy) (hsector : sector < block.size)
    (hfault : block.readFault? sector = some cause) :
    cause = .readError ∧ block.disk.failReads = true := by
  have hsize := h.size_le
  rw [readFault?, refuseRead?, if_neg (by omega), Option.none_or, RamDisk.refuseRead?] at hfault
  split at hfault
  · cases hfault
    exact ⟨rfl, ‹_›⟩
  · rw [if_neg (by omega)] at hfault
    cases hfault

/-- If a sturdy device cannot be written at a sector of its own, writes were switched off. -/
theorem Sturdy.of_writeFault? (h : block.Sturdy) (hsector : sector < block.size)
    (hfault : block.writeFault? sector = some cause) :
    cause = .writeError ∧ block.disk.failWrites = true := by
  have hsize := h.size_le
  rw [writeFault?, refuseWrite?, if_neg (by omega), if_neg h.kind_ne, Option.none_or,
    RamDisk.refuseWrite?] at hfault
  split at hfault
  · cases hfault
    exact ⟨rfl, ‹_›⟩
  · rw [if_neg (by omega)] at hfault
    cases hfault

end Block

/-- All slots are on the device. -/
def SwapStore.OnDevice (store : SwapStore) : Prop :=
  store.slotCount * sectorsPerPage ≤ store.device.size

/-- Each sector of a slot is on the device if all slots are. -/
theorem SwapStore.OnDevice.sectorOf_lt {store : SwapStore} (h : store.OnDevice) {slot : Nat}
    (hslot : slot < store.slotCount) (k : Fin sectorsPerPage) : sectorOf slot k < store.device.size := by
  have hnext : (slot + 1) * sectorsPerPage ≤ store.slotCount * sectorsPerPage :=
    Nat.mul_le_mul_right _ hslot
  have hk := k.isLt
  rw [SwapStore.OnDevice] at h
  rw [sectorOf]
  rw [Nat.succ_mul] at hnext
  omega

/-- A sturdy device with all slots on it has no fault at any slot while no switch is set. -/
theorem SwapStore.not_fails {store : SwapStore} (hsturdy : store.device.Sturdy) (hon : store.OnDevice)
    (hreads : store.device.disk.failReads = false) (hwrites : store.device.disk.failWrites = false)
    (cause : BlockError) : ¬ store.Fails cause := by
  rintro ⟨slot, k, hslot, hfault | hfault⟩
  · have hset := (hsturdy.of_readFault? (hon.sectorOf_lt hslot k) hfault).2
    rw [hreads] at hset
    cases hset
  · have hset := (hsturdy.of_writeFault? (hon.sectorOf_lt hslot k) hfault).2
    rw [hwrites] at hset
    cases hset

/-- The file does not take `n` bytes at `offset`: it refuses them, or it takes only some. -/
def MemoryFile.Rejects (file : MemoryFile) (offset n : Nat) (cause : FileError) : Prop :=
  file.refuseWrite? offset n = some cause ∨
    cause = .noSpace ∧ file.refuseWrite? offset n = none ∧ file.accepted n < n

/-- What becomes of a write that the file does not refuse. -/
theorem MemoryFile.write_cases (file : MemoryFile) (offset : Nat) (data : Bytes) :
    (∃ cause, (file.write offset data).1 = .error cause ∧ file.Rejects offset data.size cause) ∨
      (file.write offset data).1 = .ok data.size ∨
      ∃ stored, (file.write offset data).1 = .ok stored ∧ stored ≠ data.size ∧
        file.Rejects offset data.size .noSpace := by
  unfold MemoryFile.write
  cases hrefuse : file.refuseWrite? offset data.size with
  | some cause => exact .inl ⟨cause, rfl, .inl hrefuse⟩
  | none =>
    have hle := file.accepted_le data.size
    simp only [MemoryFile.size_window_accepted, Except.ok.injEq, reduceCtorEq, false_and, exists_false, false_or,
      exists_eq_left']
    by_cases hall : file.accepted data.size = data.size
    · exact .inl hall
    · exact .inr ⟨hall, .inr ⟨rfl, hrefuse, Nat.lt_of_le_of_ne hle hall⟩⟩

namespace Transition

variable {α β : Type} {machine : Machine}

/-- The step answers, with `post` of the answer and the machine it leaves, or it halts because a
counter of transfers is exhausted. -/
def Answers (step : Transition α) (machine : Machine) (post : α → Machine → Prop) : Prop :=
  match step machine with
  | .ok a after => post a after
  | .error halt after => halt = .overflow ∧ after.Exhausted

/-- What was answered was not refused. -/
theorem not_refused {ε : Type} {a : α} {bad : ε → Prop} :
    ∀ cause, (.ok a : Except ε α) = .error cause → bad cause := by
  intro cause hrefused
  cases hrefused

/-! ### Rules -/

/-- What is known of an answer. -/
theorem Answers.of_ok {step : Transition α} {post : α → Machine → Prop} {a : α} {after : Machine}
    (h : Answers step machine post) (hrun : step machine = .ok a after) : post a after := by
  unfold Answers at h
  rw [hrun] at h
  exact h

/-- What is known of a halt. -/
theorem Answers.of_error {step : Transition α} {post : α → Machine → Prop} {halt : Halt}
    {after : Machine} (h : Answers step machine post) (hrun : step machine = .error halt after) :
    halt = .overflow ∧ after.Exhausted := by
  unfold Answers at h
  rw [hrun] at h
  exact h

/-- Less may be said of the answer. -/
theorem Answers.mono {step : Transition α} {post weaker : α → Machine → Prop}
    (h : Answers step machine post) (hw : ∀ a after, post a after → weaker a after) :
    Answers step machine weaker := by
  unfold Answers at h ⊢
  cases hrun : step machine with
  | ok a after => rw [hrun] at h; exact hw a after h
  | error halt after => rw [hrun] at h; exact h

/-- What a step ensures holds of its answer. -/
theorem Answers.ensures {step : Transition α} {post other : α → Machine → Prop}
    (h : Answers step machine post) (h' : Ensures step machine other) :
    Answers step machine fun a after => post a after ∧ other a after := by
  unfold Answers Ensures at *
  cases hrun : step machine with
  | ok a after => rw [hrun] at h h'; exact ⟨h, h'⟩
  | error halt after => rw [hrun] at h; exact h

/-- A step that always finishes answers. -/
theorem Finishes.answers {step : Transition α} {post : α → Machine → Prop}
    (h : Finishes step machine post) : Answers step machine post := by
  obtain ⟨a, after, hrun, hpost⟩ := h
  unfold Answers
  rw [hrun]
  exact hpost

/-- What is given at once is answered. -/
@[simp] theorem answers_pure {a : α} {post : α → Machine → Prop} :
    Answers (pure a) machine post ↔ post a machine := Iff.rfl

/-- A sequence answers if its first part does, and its second part does on what that leaves. -/
@[simp] theorem answers_bind {step : Transition α} {next : α → Transition β}
    {post : β → Machine → Prop} :
    Answers (step >>= next) machine post ↔
      Answers step machine fun a after => Answers (next a) after post := by
  unfold Answers
  simp only [Bind.bind, EStateM.bind]
  cases step machine <;> rfl

/-- A step that is one of two, whichever it is. -/
theorem answers_ite {c : Prop} [Decidable c] {yes no : Transition α} {post : α → Machine → Prop}
    (hyes : c → Answers yes machine post) (hno : ¬ c → Answers no machine post) :
    Answers (if c then yes else no) machine post := by
  split
  · exact hyes ‹_›
  · exact hno ‹_›

/-- A step whose result is known. -/
theorem answers_iff {step : Transition α} {post : α → Machine → Prop} {a : α} {after : Machine}
    (hrun : step machine = .ok a after) : Answers step machine post ↔ post a after := by
  unfold Answers
  rw [hrun]

/-- A step that is known to halt because a counter is exhausted. -/
theorem answers_of_exhausted {step : Transition α} {post : α → Machine → Prop}
    (hrun : step machine = .error .overflow machine) (h : machine.Exhausted) :
    Answers step machine post := by
  unfold Answers
  rw [hrun]
  exact ⟨rfl, h⟩

/-- To say something is always answered. -/
@[simp] theorem answers_notify {notice : Notice} {post : Unit → Machine → Prop} :
    Answers (notify notice) machine post ↔
      post () { machine with notices := machine.notices.push notice } := answers_iff rfl

/-- To ask for the stack limit is always answered. -/
@[simp] theorem answers_stackLimit {post : Nat → Machine → Prop} :
    Answers stackLimit machine post ↔ post machine.stackLimit machine := answers_iff rfl

/-- To ask for the frame table is always answered. -/
@[simp] theorem answers_frames {post : FrameTable → Machine → Prop} :
    Answers frames machine post ↔ post machine.frames machine := answers_iff rfl

/-- To replace the frame table is always answered. -/
@[simp] theorem answers_setFrames {table : FrameTable} {post : Unit → Machine → Prop} :
    Answers (setFrames table) machine post ↔ post () { machine with frames := table } :=
  answers_iff rfl

/-- To ask for the swap store is always answered. -/
@[simp] theorem answers_swap {post : SwapStore → Machine → Prop} :
    Answers swap machine post ↔ post machine.swap machine := answers_iff rfl

/-- To replace the swap store is always answered. -/
@[simp] theorem answers_setSwap {store : SwapStore} {post : Unit → Machine → Prop} :
    Answers (setSwap store) machine post ↔ post () { machine with swap := store } := answers_iff rfl

/-- To replace the contents of a frame is always answered. -/
@[simp] theorem answers_setPage {frame : Nat} {content : Page} {post : Unit → Machine → Prop} :
    Answers (setPage frame content) machine post ↔
      post () { machine with frames := { machine.frames with
        memory := machine.frames.memory.setPage frame content } } := answers_iff rfl

/-- To replace a file is always answered. -/
@[simp] theorem answers_setFile {f : FileId} {file : MemoryFile} {post : Unit → Machine → Prop} :
    Answers (setFile f file) machine post ↔
      post () { machine with files := machine.files.setIfInBounds f file } := answers_iff rfl

/-- To ask for a file is answered if it is there. -/
theorem answers_file {f : FileId} {file : MemoryFile} {post : MemoryFile → Machine → Prop}
    (hfile : machine.files[f]? = some file) :
    Answers (Transition.file f) machine post ↔ post file machine := by
  have hget : (get : Transition Machine) machine = .ok machine machine := rfl
  refine answers_iff ?_
  rw [Transition.file, run_bind hget, hfile]
  rfl

/-- To set the accessed mark of a page is always answered. -/
@[simp] theorem answers_setAccessed {s : SpaceId} {p : Nat} {on : Bool} {post : Unit → Machine → Prop} :
    Answers (setAccessed s p on) machine post ↔
      post () { machine with
        spaces := mark machine.spaces s p fun e => { e with accessed := on } } := answers_iff rfl

/-- The contents of a frame that exists. -/
theorem exists_page {memory : FrameMemory} {frame : Nat} (h : frame < memory.size) :
    ∃ content, memory.page frame = .ok content := by
  unfold FrameMemory.page
  have hlt : frame < memory.pages.size := h
  rw [Array.getElem?_eq_getElem hlt]
  exact ⟨_, rfl⟩

/-- To ask for the contents of a frame is answered if it is there. -/
theorem answers_page {frame : Nat} {content : Page} {post : Page → Machine → Prop}
    (hcontent : machine.frames.memory.page frame = .ok content) :
    Answers (page frame) machine post ↔ post content machine := by
  simp only [page, answers_bind, answers_frames, hcontent]
  exact answers_pure

/-- To ask for a space is answered if it is there. -/
theorem answers_space {s : SpaceId} {space : AddressSpace} {post : AddressSpace → Machine → Prop}
    (hspace : machine.spaces[s]? = some space) :
    Answers (Transition.space s) machine post ↔ post space machine := answers_iff (run_space hspace)

/-- To ask for a supplemental page table is answered if the space is there. -/
theorem answers_supplement {s : SpaceId} {space : AddressSpace} {post : Supplement → Machine → Prop}
    (hspace : machine.spaces[s]? = some space) :
    Answers (supplement s) machine post ↔ post space.supplement machine :=
  answers_iff (run_supplement hspace)

/-- What is known of answers goes from the parts of an operation to the whole. -/
def answering : Rules Transition where
  Yields := Answers
  mono := Answers.mono
  pure := answers_pure.mpr
  bind := answers_bind.mpr
  holding h := h

/-- Steps in order up to the first that is refused. `inv` describes the machine between them, and `bad`
the reasons for which a step may be refused. -/
theorem answers_upToFailure {ε : Type} {step : α → Transition (Except ε Unit)} {inv : Machine → Prop}
    {bad : ε → Prop} {whole : List α}
    (hstep : ∀ a before, inv before → Answers (step a) before fun outcome after =>
      inv after ∧ ∀ cause, outcome = .error cause → bad cause)
    (h : inv machine) :
    Answers (Kernel.upToFailure step whole) machine fun outcome after =>
      inv after ∧ ∀ cause, outcome = .error cause → bad cause := by
  refine Answers.mono (answering.upToFailure (fun _ => inv) (fun cause after => inv after ∧ bad cause)
    (fun _ a _ before _ hbefore => (hstep a before hbefore).mono fun outcome after hafter => ?_) h)
    fun outcome after hafter => ?_
  · cases outcome with
    | ok u => exact hafter.1
    | error cause => exact ⟨hafter.1, hafter.2 cause rfl⟩
  · cases outcome with
    | ok u => exact ⟨hafter, not_refused⟩
    | error cause =>
      refine ⟨hafter.1, ?_⟩
      rintro _ ⟨⟩
      exact hafter.2

/-! ### Transfers -/

/-- One part of a frame is written. -/
theorem answers_writePart {slot frame : Nat} {k : Fin sectorsPerPage}
    (hframe : frame < machine.frames.memory.size)
    (hpassed : machine.swap.refuseWrite? slot k = none) :
    Answers (writePart slot frame k) machine fun outcome after =>
      (∃ device, after = { machine with swap := { machine.swap with device } } ∧
        machine.swap.device.Like device) ∧
      ∀ cause, outcome = .error cause →
        machine.swap.device.writeFault? (SwapStore.sectorOf slot k) = some cause := by
  obtain ⟨content, hcontent⟩ := exists_page hframe
  simp only [writePart, answers_bind, answers_swap]
  rw [answers_page hcontent]
  rcases Block.writeDisk_cases (content.sector k) hpassed with
    ⟨device, hwrite, hlike⟩ | ⟨cause, hwrite, hfault⟩ | ⟨hwrite, hlimit⟩
  · simp only [SwapStore.writePart, hwrite]
    exact ⟨⟨device, rfl, hlike⟩, not_refused⟩
  · simp only [SwapStore.writePart, hwrite]
    refine ⟨⟨machine.swap.device, rfl, .refl _⟩, ?_⟩
    rintro _ ⟨⟩
    exact hfault
  · simp only [SwapStore.writePart, hwrite]
    exact answers_of_exhausted rfl (.inr hlimit)

/-- One part of a frame is read. -/
theorem answers_readPart {slot frame : Nat} {k : Fin sectorsPerPage}
    (hframe : frame < machine.frames.memory.size)
    (hpassed : machine.swap.refuseRead? slot k = none) :
    Answers (readPart slot frame k) machine fun outcome after =>
      (∃ device memory, after = { machine with
          swap := { machine.swap with device }, frames := { machine.frames with memory } } ∧
        machine.swap.device.Like device ∧ memory.size = machine.frames.memory.size) ∧
      ∀ cause, outcome = .error cause →
        machine.swap.device.readFault? (SwapStore.sectorOf slot k) = some cause := by
  obtain ⟨content, hcontent⟩ := exists_page hframe
  simp only [readPart, answers_bind, answers_swap]
  rw [answers_page hcontent]
  rcases Block.readDisk_cases hpassed with
    ⟨sector, device, hread, hlike⟩ | ⟨cause, hread, hfault⟩ | ⟨hread, hlimit⟩
  · simp only [SwapStore.readPart, hread]
    exact ⟨⟨device, _, rfl, hlike, FrameMemory.size_setPage⟩, not_refused⟩
  · simp only [SwapStore.readPart, hread]
    refine ⟨⟨machine.swap.device, machine.frames.memory, rfl, .refl _, rfl⟩, ?_⟩
    rintro _ ⟨⟩
    exact hfault
  · simp only [SwapStore.readPart, hread]
    exact answers_of_exhausted rfl (.inl hlimit)

/-- A slot in use is one of the slots. -/
theorem lt_slotCount_of_isUsed {store : SwapStore} {slot : Nat} (h : store.slots.isUsed slot = true) :
    slot < store.slotCount := by
  rw [SlotBitmap.isUsed, Bool.and_eq_true] at h
  exact of_decide_eq_true h.1

/-- A frame is written to a slot in use, or the device has a fault there. -/
theorem answers_writeSlot {slot frame : Nat} (hframe : frame < machine.frames.memory.size)
    (hused : machine.swap.slots.isUsed slot = true) :
    Answers (Kernel.writeSlot slot frame) machine fun outcome after =>
      (∃ device notices, after = { machine with swap := { machine.swap with device }, notices } ∧
        machine.swap.device.Like device) ∧
      ∀ cause, outcome = .error cause → machine.swap.Fails cause := by
  obtain ⟨content, hcontent⟩ := exists_page hframe
  have hslot := lt_slotCount_of_isUsed hused
  have hused' : machine.swap.isUsed slot = true := hused
  simp only [Kernel.writeSlot, requireFrame, requireUsed, lift_eq, holding_eq, interrupt_eq,
    answers_bind]
  rw [answers_page hcontent]
  simp only [answers_pure, answers_swap, hused', if_true]
  refine Answers.mono (@answers_upToFailure (Fin sectorsPerPage) machine BlockError _
    (fun after => ∃ device, after = { machine with swap := { machine.swap with device } } ∧
      machine.swap.device.Like device) machine.swap.Fails SwapStore.parts ?part
    ⟨machine.swap.device, rfl, .refl _⟩) ?whole
  case whole =>
    rintro outcome _ ⟨⟨device, rfl, hlike⟩, hcause⟩
    cases outcome with
    | error cause => exact ⟨⟨device, machine.notices, rfl, hlike⟩, hcause⟩
    | ok u =>
      simp only [answers_bind, answers_notify, answers_pure]
      exact ⟨⟨device, _, rfl, hlike⟩, not_refused⟩
  case part =>
    rintro k _ ⟨device, rfl, hlike⟩
    have hfault : ∀ cause, device.writeFault? (SwapStore.sectorOf slot k) = some cause →
        machine.swap.Fails cause := fun cause hcause =>
      ⟨slot, k, hslot, .inr (hlike.writeFault?_eq ▸ hcause)⟩
    simp only [answers_bind, answers_swap]
    cases hrefuse : SwapStore.refuseWrite? { machine.swap with device } slot k with
    | some cause =>
      refine ⟨⟨device, rfl, hlike⟩, ?_⟩
      rintro _ ⟨⟩
      refine hfault cause ?_
      rw [Block.writeFault?]
      exact congrArg (Option.or · _) hrefuse
    | none =>
      simp only [answers_bind, answers_pure]
      refine (@answers_writePart { machine with swap := { machine.swap with device } } _ _ _ hframe
        hrefuse).mono ?_
      rintro outcome _ ⟨⟨device', rfl, hlike'⟩, hcause⟩
      exact ⟨⟨device', rfl, hlike.trans hlike'⟩, fun cause herror => hfault cause (hcause cause herror)⟩

/-- A slot in use is read over a frame, or the device has a fault there. -/
theorem answers_readSlot {slot frame : Nat} (hframe : frame < machine.frames.memory.size)
    (hused : machine.swap.slots.isUsed slot = true) :
    Answers (Kernel.readSlot slot frame) machine fun outcome _ =>
      ∀ cause, outcome = .error cause → machine.swap.Fails cause := by
  obtain ⟨content, hcontent⟩ := exists_page hframe
  have hslot := lt_slotCount_of_isUsed hused
  have hused' : machine.swap.isUsed slot = true := hused
  simp only [Kernel.readSlot, requireFrame, requireUsed, lift_eq, holding_eq, interrupt_eq,
    answers_bind]
  rw [answers_page hcontent]
  simp only [answers_pure, answers_swap, hused', if_true]
  refine Answers.mono (@answers_upToFailure (Fin sectorsPerPage) machine BlockError _
    (fun after => ∃ device memory, after = { machine with
        swap := { machine.swap with device }, frames := { machine.frames with memory } } ∧
      machine.swap.device.Like device ∧ memory.size = machine.frames.memory.size)
    machine.swap.Fails SwapStore.parts ?part
    ⟨machine.swap.device, machine.frames.memory, rfl, .refl _, rfl⟩) ?whole
  case whole =>
    rintro outcome _ ⟨-, hcause⟩
    cases outcome with
    | error cause => exact hcause
    | ok u =>
      simp only [answers_bind, answers_notify, answers_pure]
      exact not_refused
  case part =>
    rintro k _ ⟨device, memory, rfl, hlike, hsize⟩
    have hfault : ∀ cause, device.readFault? (SwapStore.sectorOf slot k) = some cause →
        machine.swap.Fails cause := fun cause hcause =>
      ⟨slot, k, hslot, .inl (hlike.readFault?_eq ▸ hcause)⟩
    simp only [answers_bind, answers_swap]
    cases hrefuse : SwapStore.refuseRead? { machine.swap with device } slot k with
    | some cause =>
      refine ⟨⟨device, memory, rfl, hlike, hsize⟩, ?_⟩
      rintro _ ⟨⟩
      refine hfault cause ?_
      rw [Block.readFault?]
      exact congrArg (Option.or · _) hrefuse
    | none =>
      simp only [answers_bind, answers_pure]
      refine (@answers_readPart { machine with
        swap := { machine.swap with device }, frames := { machine.frames with memory } } _ _ _ (hsize.symm ▸ hframe) hrefuse).mono ?_
      rintro outcome _ ⟨⟨device', memory', rfl, hlike', hsize'⟩, hcause⟩
      exact ⟨⟨device', memory', rfl, hlike.trans hlike', hsize'.trans hsize⟩,
        fun cause herror => hfault cause (hcause cause herror)⟩

/-- A frame is written back to its file, or the file rejects it. -/
theorem answers_writeBack {frame : Nat} {segment : Segment} {file : MemoryFile}
    (hframe : frame < machine.frames.memory.size) (hfits : segment.readBytes ≤ pageSize)
    (hfile : machine.files[segment.file]? = some file) :
    Answers (Kernel.writeBack frame segment) machine fun outcome after =>
      (∃ data, after = { machine with
        files := machine.files.setIfInBounds segment.file (file.write segment.offset data).2 }) ∧
      ∀ cause, outcome = .error cause → file.Rejects segment.offset segment.readBytes cause := by
  obtain ⟨content, hcontent⟩ := exists_page hframe
  have hsize : (content.window 0 segment.readBytes).size = segment.readBytes := by
    rw [Page.size_window]
    omega
  simp only [Kernel.writeBack, requireWindow, hfits, if_true, lift_eq, holding_eq, interrupt_eq,
    answers_bind, answers_pure]
  rw [answers_page hcontent]
  simp only [writeFile, answers_bind]
  rw [answers_file hfile]
  simp only [answers_setFile, answers_pure]
  have hcases := file.write_cases segment.offset (content.window 0 segment.readBytes)
  rw [hsize] at hcases
  rcases hcases with ⟨cause, hwrite, hrejects⟩ | hwrite | ⟨stored, hwrite, hshort, hrejects⟩
  · simp only [hwrite]
    refine ⟨⟨_, rfl⟩, ?_⟩
    rintro _ ⟨⟩
    exact hrejects
  · simp only [hwrite, if_true]
    exact ⟨⟨_, rfl⟩, not_refused⟩
  · simp only [hwrite, if_neg hshort]
    refine ⟨⟨_, rfl⟩, ?_⟩
    rintro _ ⟨⟩
    exact hrejects

/-- A frame is filled from its file, or the file fails or ends before the window does. -/
theorem answers_readIn {frame : Nat} {segment : Segment} {file : MemoryFile}
    (hframe : frame < machine.frames.memory.size) (hfits : segment.readBytes ≤ pageSize)
    (hfile : machine.files[segment.file]? = some file) :
    Answers (Kernel.readIn frame segment) machine fun outcome _ =>
      outcome.toOption = some segment.readBytes ∨ file.failing = true ∨
        file.size < segment.offset + segment.readBytes := by
  obtain ⟨content, hcontent⟩ := exists_page hframe
  have hfill : ∀ files data, Answers (fillFrame frame segment data) { machine with files }
      fun _ _ => True := by
    intro files data
    simp only [fillFrame, answers_bind]
    refine (@answers_page { machine with files } _ _ _ hcontent).mpr ?_
    simp only [answers_setPage]
  simp only [Kernel.readIn, requireWindow, hfits, if_true, lift_eq, holding_eq, interrupt_eq,
    answers_bind, answers_pure, readFile]
  rw [answers_file hfile]
  simp only [answers_setFile]
  cases hread : (file.read segment.offset segment.readBytes).1 with
  | error cause =>
    simp only [answers_bind, answers_pure]
    refine (hfill _ _).mono fun _ _ _ => .inr (.inl ?_)
    by_contra hworks
    rw [MemoryFile.read, if_neg hworks] at hread
    cases hread
  | ok data =>
    simp only [answers_bind, answers_pure]
    refine (hfill _ _).mono fun _ _ _ => ?_
    by_cases hshort : file.size < segment.offset + segment.readBytes
    · exact .inr (.inr hshort)
    · left
      unfold MemoryFile.read at hread
      split at hread
      · cases hread
      · cases hread
        have hlength : file.content.size = file.size := rfl
        rw [Except.toOption, Bytes.size_window]
        congr 1
        omega

end Transition

end DemandPaging
