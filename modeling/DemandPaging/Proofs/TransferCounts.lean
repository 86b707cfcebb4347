import DemandPaging.Proofs.Refaults
import DemandPaging.Proofs.SlotTransfers

/-!
# Counted transfers

A device counts the sectors that went to it and the sectors that came from it, and never starts anew. So
the only thing that can stop the traffic between frames and a device that works (`Block.Works`) is a count
that has no room left. `Transition.CountsTo` says of an operation that it goes through if its last transfer
can be counted, and halts if it cannot.

A part of a page takes one transfer and a page takes eight (`Transition.countsTo_writeSlot`,
`Transition.countsTo_readSlot`), and the counts add up over whatever traffic there has been
(`Traffic.moved`). A device that was never used therefore carries 2^29 - 1 pages each way and not one more
(`Traffic.countsTo_next`).
-/

set_option autoImplicit false

namespace DemandPaging

open Machine

/-! ### Devices -/

namespace Block

/-- The device can be used, and no switch of its disk is set. -/
structure Works (block : Block) : Prop where
  sturdy : block.Sturdy
  failReads_eq : block.disk.failReads = false
  failWrites_eq : block.disk.failWrites = false

/-- So many sectors went to the device and came from it, and nothing else has changed but its contents. -/
structure Moved (written read : Nat) (block block' : Block) : Prop where
  like : block.Like block'
  writes_eq : block'.writes = block.writes + written
  reads_eq : block'.reads = block.reads + read

variable {block block' block'' : Block} {written read written' read' sector : Nat}

/-- No sector was moved if nothing happened. -/
theorem Moved.refl (block : Block) : block.Moved 0 0 block := ⟨.refl block, rfl, rfl⟩

/-- The sectors of two transfers add up. -/
theorem Moved.trans (h : block.Moved written read block') (h' : block'.Moved written' read' block'') :
    block.Moved (written + written') (read + read') block'' where
  like := h.like.trans h'.like
  writes_eq := by rw [h'.writes_eq, h.writes_eq, Nat.add_assoc]
  reads_eq := by rw [h'.reads_eq, h.reads_eq, Nat.add_assoc]

/-- A device that works goes on to work. -/
theorem Works.of_like (h : block.Works) (hlike : block.Like block') : block'.Works where
  sturdy := ⟨by rw [hlike.size_eq, hlike.sectors_eq]; exact h.sturdy.size_le,
    by rw [hlike.kind_eq]; exact h.sturdy.kind_ne⟩
  failReads_eq := hlike.failReads_eq.trans h.failReads_eq
  failWrites_eq := hlike.failWrites_eq.trans h.failWrites_eq

/-- A device that works writes any sector it has, if it can count it. -/
theorem Works.writeDisk_eq (h : block.Works) (hsector : sector < block.size) (content : Sector) :
    ∃ disk, block.Moved 1 0 { block with disk, writes := block.writes + 1 } ∧
      block.writeDisk sector content = if block.writes + 1 < transferLimit then
        .ok (.ok (), { block with disk, writes := block.writes + 1 }) else .error .overflow := by
  have hon : ¬ block.disk.sectors ≤ sector := Nat.not_le.mpr (Nat.lt_of_lt_of_le hsector h.sturdy.size_le)
  refine ⟨{ block.disk with written := block.disk.written.insert sector content },
    ⟨⟨rfl, rfl, rfl, rfl, rfl⟩, rfl, rfl⟩, ?_⟩
  simp only [writeDisk, RamDisk.writeSector, RamDisk.refuseWrite?, h.failWrites_eq, Bool.false_eq_true,
    if_false, hon]

/-- A device that works reads any sector it has, if it can count it. -/
theorem Works.readDisk_eq (h : block.Works) (hsector : sector < block.size) :
    ∃ content, block.readDisk sector = if block.reads + 1 < transferLimit then
      .ok (.ok content, { block with reads := block.reads + 1 }) else .error .overflow := by
  have hon : ¬ block.disk.sectors ≤ sector := Nat.not_le.mpr (Nat.lt_of_lt_of_le hsector h.sturdy.size_le)
  refine ⟨block.disk.sector sector, ?_⟩
  simp only [readDisk, RamDisk.readSector, RamDisk.refuseRead?, h.failReads_eq, Bool.false_eq_true,
    if_false, hon]

end Block

/-- A device is cut into as many slots as fit on it. -/
theorem SwapStore.onDevice_ofDevice (device : Block) : (ofDevice device).OnDevice :=
  Nat.div_mul_le_self device.size sectorsPerPage

/-- A device that works can be used for every slot in use. -/
theorem SwapStore.ready_of_works {store : SwapStore} {slot : Nat} (hworks : store.device.Works)
    (hon : store.OnDevice) (hused : store.isUsed slot = true) : store.Ready slot :=
  ⟨hused, hworks.sturdy, hon⟩

/-- So many sectors went to the swap device and came from it, and the slots and the number of frames are
what they were. -/
structure Machine.Moved (written read : Nat) (machine after : Machine) : Prop where
  size_eq : after.frames.memory.size = machine.frames.memory.size
  slots_eq : after.swap.slots = machine.swap.slots
  device : machine.swap.device.Moved written read after.swap.device

/-- The sectors of two transfers of a machine add up. -/
theorem Machine.Moved.trans {written read written' read' : Nat} {m m' m'' : Machine}
    (h : Moved written read m m') (h' : Moved written' read' m' m'') :
    Moved (written + written') (read + read') m m'' :=
  ⟨h'.size_eq.trans h.size_eq, h'.slots_eq.trans h.slots_eq, h.device.trans h'.device⟩

/-! ### Transfers -/

namespace Transition

/-- The operation goes through, and `post` holds of the machine it leaves, if `total` can be counted;
otherwise it halts. -/
structure CountsTo (total : Nat) (step : Transition (Except BlockError Unit)) (machine : Machine)
    (post : Machine → Prop) : Prop where
  goes : total < transferLimit → ∃ after, step machine = .ok (.ok ()) after ∧ post after
  halts : transferLimit ≤ total → ∃ after, step machine = .error .overflow after

variable {machine : Machine} {slot frame : Nat}

/-- Less may be said of the machine that is left. -/
theorem CountsTo.mono {total : Nat} {step : Transition (Except BlockError Unit)}
    {post weaker : Machine → Prop} (h : CountsTo total step machine post)
    (hw : ∀ after, post after → weaker after) : CountsTo total step machine weaker where
  goes htotal := by
    obtain ⟨after, hrun, hpost⟩ := h.goes htotal
    exact ⟨after, hrun, hw after hpost⟩
  halts := h.halts

/-- An operation that was answered went through. -/
theorem CountsTo.of_ok {total : Nat} {step : Transition (Except BlockError Unit)} {post : Machine → Prop}
    (h : CountsTo total step machine post) {outcome : Except BlockError Unit} {after : Machine}
    (hrun : step machine = .ok outcome after) : post after := by
  rcases Nat.lt_or_ge total transferLimit with hroom | hfull
  · obtain ⟨after', hgoes, hpost⟩ := h.goes hroom
    rw [hrun] at hgoes
    cases hgoes
    exact hpost
  · obtain ⟨after', hhalts⟩ := h.halts hfull
    rw [hrun] at hhalts
    cases hhalts

/-- An operation that comes after steps which do not count. -/
theorem CountsTo.after {α : Type} {total : Nat} {a : α} {middle : Machine} {step : Transition α}
    {next : α → Transition (Except BlockError Unit)} {post : Machine → Prop}
    (hrun : step machine = .ok a middle) (h : CountsTo total (next a) middle post) :
    CountsTo total (step >>= next) machine post where
  goes htotal := by
    rw [run_bind hrun]
    exact h.goes htotal
  halts htotal := by
    rw [run_bind hrun]
    exact h.halts htotal

/-- An operation that is followed by steps which do not count. -/
theorem CountsTo.before {total : Nat} {step : Transition (Except BlockError Unit)}
    {next : Except BlockError Unit → Transition (Except BlockError Unit)} {post post' : Machine → Prop}
    (h : CountsTo total step machine post)
    (hnext : ∀ middle, post middle → ∃ after, next (.ok ()) middle = .ok (.ok ()) after ∧ post' after) :
    CountsTo total (step >>= next) machine post' where
  goes htotal := by
    obtain ⟨middle, hrun, hmiddle⟩ := h.goes htotal
    rw [run_bind hrun]
    exact hnext middle hmiddle
  halts htotal := by
    obtain ⟨middle, hrun⟩ := h.halts htotal
    exact ⟨middle, run_bind_error hrun _⟩

/-- Steps in order, each of which counts one more. `inv n` describes the machine when `n` of them were
done. -/
theorem countsTo_upToFailure {α : Type} {step : α → Transition (Except BlockError Unit)}
    {inv : Nat → Machine → Prop} {first : Nat}
    (hstep : ∀ a n before, inv n before → CountsTo (first + (n + 1)) (step a) before (inv (n + 1)))
    {todo : List α} (hsome : todo ≠ []) {n : Nat} (h : inv n machine) :
    CountsTo (first + (n + todo.length)) (Kernel.upToFailure step todo) machine
      (inv (n + todo.length)) := by
  induction todo generalizing n machine with
  | nil => exact absurd rfl hsome
  | cons a rest ih =>
    have hone := hstep a n machine h
    have hlength : n + (a :: rest).length = n + 1 + rest.length := by
      rw [List.length_cons]
      omega
    rw [hlength]
    rcases Nat.lt_or_ge (first + (n + 1)) transferLimit with hroom | hfull
    · obtain ⟨middle, hrun, hmiddle⟩ := hone.goes hroom
      refine .after hrun ?_
      cases rest with
      | nil => exact ⟨fun _ => ⟨middle, rfl, hmiddle⟩, fun htotal => absurd htotal (Nat.not_le.mpr hroom)⟩
      | cons b later => exact ih (List.cons_ne_nil b later) hmiddle
    · obtain ⟨after, hrun⟩ := hone.halts hfull
      exact ⟨fun htotal => absurd htotal (by omega), fun _ => ⟨after, run_bind_error hrun _⟩⟩

/-- A frame that exists is looked at, and nothing is changed by it. -/
theorem run_page {content : Page} (hcontent : machine.frames.memory.page frame = .ok content) :
    page frame machine = .ok content machine := by
  have hframes : frames machine = .ok machine.frames machine := rfl
  rw [page, run_bind hframes, hcontent]
  rfl

/-- A part of a frame is written. -/
theorem countsTo_writePart (hworks : machine.swap.device.Works)
    (hready : machine.swap.Ready slot) (hframe : frame < machine.frames.memory.size)
    (part : Fin sectorsPerPage) :
    CountsTo (machine.swap.device.writes + 1) (writePart slot frame part) machine
      (machine.Moved 1 0) := by
  obtain ⟨content, hcontent⟩ := exists_page hframe
  obtain ⟨disk, hmoved, hwrite⟩ := hworks.writeDisk_eq (hready.sectorOf_lt part) (content.sector part)
  have hswap : swap machine = .ok machine.swap machine := rfl
  refine .after hswap (.after (run_page hcontent) ⟨fun hroom => ?_, fun hfull => ?_⟩)
  · rw [if_pos hroom] at hwrite
    rw [SwapStore.writePart, hwrite]
    exact ⟨_, rfl, rfl, rfl, hmoved⟩
  · rw [if_neg (Nat.not_lt.mpr hfull)] at hwrite
    rw [SwapStore.writePart, hwrite]
    exact ⟨_, rfl⟩

/-- A part of a frame is read. -/
theorem countsTo_readPart (hworks : machine.swap.device.Works)
    (hready : machine.swap.Ready slot) (hframe : frame < machine.frames.memory.size)
    (part : Fin sectorsPerPage) :
    CountsTo (machine.swap.device.reads + 1) (readPart slot frame part) machine
      (machine.Moved 0 1) := by
  obtain ⟨content, hcontent⟩ := exists_page hframe
  obtain ⟨sector, hread⟩ := hworks.readDisk_eq (hready.sectorOf_lt part)
  have hswap : swap machine = .ok machine.swap machine := rfl
  refine .after hswap (.after (run_page hcontent) ⟨fun hroom => ?_, fun hfull => ?_⟩)
  · rw [if_pos hroom] at hread
    rw [SwapStore.readPart, hread]
    exact ⟨_, rfl, FrameMemory.size_setPage, rfl, ⟨rfl, rfl, rfl, rfl, rfl⟩, rfl, rfl⟩
  · rw [if_neg (Nat.not_lt.mpr hfull)] at hread
    rw [SwapStore.readPart, hread]
    exact ⟨_, rfl⟩

/-- What parts of a page that are moved leave of a device that works and of a slot that can be used. -/
theorem ready_of_moved {written read : Nat} {after : Machine} (hworks : machine.swap.device.Works)
    (hready : machine.swap.Ready slot) (hmoved : machine.Moved written read after) :
    after.swap.device.Works ∧ after.swap.Ready slot := by
  have hworks' := hworks.of_like hmoved.device.like
  refine ⟨hworks', ?_, hworks'.sturdy, ?_⟩
  · rw [SwapStore.isUsed, hmoved.slots_eq]
    exact hready.isUsed_eq
  · rw [SwapStore.OnDevice, SwapStore.slotCount, hmoved.slots_eq, hmoved.device.like.size_eq]
    exact hready.onDevice

/-- A frame that exists may be asked for. -/
theorem run_requireFrame (hframe : frame < machine.frames.memory.size) :
    requireFrame frame machine = .ok () machine := by
  obtain ⟨content, hcontent⟩ := exists_page hframe
  rw [requireFrame, run_bind (run_page hcontent)]
  rfl

/-- A slot that is in use may be asked for. -/
theorem run_requireUsed (hused : machine.swap.isUsed slot = true) :
    requireUsed slot machine = .ok () machine := by
  have hswap : swap machine = .ok machine.swap machine := rfl
  rw [requireUsed, run_bind hswap, hused]
  rfl

/-- The parts of a page in order, each of which moves one sector. -/
theorem countsTo_parts {step : Fin sectorsPerPage → Transition (Except BlockError Unit)}
    {first written read : Nat}
    (hstep : ∀ part n before, machine.Moved (n * written) (n * read) before →
      CountsTo (first + (n + 1)) (step part) before (before.Moved written read)) :
    CountsTo (first + sectorsPerPage) (Kernel.upToFailure step SwapStore.parts) machine
      (machine.Moved (sectorsPerPage * written) (sectorsPerPage * read)) := by
  have hnone : machine.Moved (0 * written) (0 * read) machine := by
    rw [Nat.zero_mul, Nat.zero_mul]
    exact ⟨rfl, rfl, .refl _⟩
  have hlength : 0 + SwapStore.parts.length = sectorsPerPage := rfl
  have hall := @countsTo_upToFailure machine _ step (fun n => machine.Moved (n * written) (n * read)) first
    (fun part n before hbefore => (hstep part n before hbefore).mono fun after hafter => ?next)
    SwapStore.parts (by decide) 0 hnone
  · rw [hlength] at hall
    exact hall
  · rw [Nat.succ_mul, Nat.succ_mul]
    exact hbefore.trans hafter

/-- A frame is written to a slot in use, which takes eight transfers. -/
theorem countsTo_writeSlot (hworks : machine.swap.device.Works) (hready : machine.swap.Ready slot)
    (hframe : frame < machine.frames.memory.size) :
    CountsTo (machine.swap.device.writes + sectorsPerPage) (Kernel.writeSlot slot frame) machine
      (machine.Moved sectorsPerPage 0) := by
  refine .after (run_requireFrame hframe) (.after (run_requireUsed hready.isUsed_eq)
    (.before (@countsTo_parts machine _ _ 1 0 fun part n before hbefore => ?part)
      fun middle hmiddle => ⟨_, rfl, hmiddle.size_eq, hmiddle.slots_eq, hmiddle.device⟩))
  obtain ⟨hworks', hready'⟩ := ready_of_moved hworks hready hbefore
  have hpart := countsTo_writePart hworks' hready' (hbefore.size_eq ▸ hframe) part
  rw [hbefore.device.writes_eq, Nat.mul_one, Nat.add_assoc] at hpart
  have hswap : swap before = .ok before.swap before := rfl
  refine .after hswap ?_
  simp only [hready'.refuseWrite?_eq part]
  exact .after rfl hpart

/-- A slot in use is read over a frame, which takes eight transfers. -/
theorem countsTo_readSlot (hworks : machine.swap.device.Works) (hready : machine.swap.Ready slot)
    (hframe : frame < machine.frames.memory.size) :
    CountsTo (machine.swap.device.reads + sectorsPerPage) (Kernel.readSlot slot frame) machine
      (machine.Moved 0 sectorsPerPage) := by
  refine .after (run_requireFrame hframe) (.after (run_requireUsed hready.isUsed_eq)
    (.before (@countsTo_parts machine _ _ 0 1 fun part n before hbefore => ?part)
      fun middle hmiddle => ⟨_, rfl, hmiddle.size_eq, hmiddle.slots_eq, hmiddle.device⟩))
  obtain ⟨hworks', hready'⟩ := ready_of_moved hworks hready hbefore
  have hpart := countsTo_readPart hworks' hready' (hbefore.size_eq ▸ hframe) part
  rw [hbefore.device.reads_eq, Nat.mul_one, Nat.add_assoc] at hpart
  have hswap : swap before = .ok before.swap before := rfl
  refine .after hswap ?_
  simp only [hready'.refuseRead?_eq part]
  exact .after rfl hpart

end Transition

/-! ### Traffic -/

/-- What is done with a swap store from `start` on: frames are written to slots in use `written` times, and
slots in use are read over frames `read` times. In between anything may happen that leaves the device and
the number of slots as they are. -/
inductive Traffic (start : Machine) : (written read : Nat) → Machine → Prop where
  /-- Nothing has been done yet. -/
  | nil : Traffic start 0 0 start
  /-- A frame is written to a slot in use. -/
  | write {written read slot frame : Nat} {machine after : Machine} {outcome : Except BlockError Unit}
      (h : Traffic start written read machine) (hused : machine.swap.isUsed slot = true)
      (hframe : frame < machine.frames.memory.size)
      (hrun : (Kernel.writeSlot slot frame : Transition _) machine = .ok outcome after) :
      Traffic start (written + 1) read after
  /-- A slot in use is read over a frame. -/
  | read {written read slot frame : Nat} {machine after : Machine} {outcome : Except BlockError Unit}
      (h : Traffic start written read machine) (hused : machine.swap.isUsed slot = true)
      (hframe : frame < machine.frames.memory.size)
      (hrun : (Kernel.readSlot slot frame : Transition _) machine = .ok outcome after) :
      Traffic start written (read + 1) after
  /-- Something else is done. -/
  | meanwhile {written read : Nat} {machine after : Machine} (h : Traffic start written read machine)
      (hdevice : after.swap.device = machine.swap.device)
      (hcount : after.swap.slotCount = machine.swap.slotCount) : Traffic start written read after

namespace Traffic

variable {start machine after : Machine} {written read slot frame : Nat}

/-- The counts are those of all the traffic there has been, and the store can be used as before. -/
theorem moved (hworks : start.swap.device.Works) (hon : start.swap.OnDevice)
    (h : Traffic start written read machine) :
    start.swap.device.Moved (written * sectorsPerPage) (read * sectorsPerPage) machine.swap.device ∧
      machine.swap.device.Works ∧ machine.swap.OnDevice := by
  induction h with
  | nil =>
    rw [Nat.zero_mul]
    exact ⟨.refl _, hworks, hon⟩
  | write _ hused hframe hrun ih =>
    obtain ⟨hmoved, hworks', hon'⟩ := ih
    have hready := SwapStore.ready_of_works hworks' hon' hused
    have hmore := (Transition.countsTo_writeSlot hworks' hready hframe).of_ok hrun
    obtain ⟨hworks'', hready'⟩ := Transition.ready_of_moved hworks' hready hmore
    rw [Nat.succ_mul]
    exact ⟨hmoved.trans hmore.device, hworks'', hready'.onDevice⟩
  | read _ hused hframe hrun ih =>
    obtain ⟨hmoved, hworks', hon'⟩ := ih
    have hready := SwapStore.ready_of_works hworks' hon' hused
    have hmore := (Transition.countsTo_readSlot hworks' hready hframe).of_ok hrun
    obtain ⟨hworks'', hready'⟩ := Transition.ready_of_moved hworks' hready hmore
    rw [Nat.succ_mul]
    exact ⟨hmoved.trans hmore.device, hworks'', hready'.onDevice⟩
  | meanwhile _ hdevice hcount ih =>
    rw [SwapStore.OnDevice, hdevice, hcount]
    exact ih

/-- The next page that is written counts on top of all traffic before it. -/
theorem countsTo_write (hworks : start.swap.device.Works) (hon : start.swap.OnDevice)
    (h : Traffic start written read machine) (hused : machine.swap.isUsed slot = true)
    (hframe : frame < machine.frames.memory.size) :
    Transition.CountsTo (start.swap.device.writes + (written + 1) * sectorsPerPage)
      (Kernel.writeSlot slot frame) machine fun after => Traffic start (written + 1) read after ∧
        after.swap.isUsed slot = true ∧ frame < after.frames.memory.size := by
  obtain ⟨hmoved, hworks', hon'⟩ := h.moved hworks hon
  have hready := SwapStore.ready_of_works hworks' hon' hused
  have hwrite := Transition.countsTo_writeSlot hworks' hready hframe
  rw [hmoved.writes_eq, Nat.add_assoc, ← Nat.succ_mul] at hwrite
  refine ⟨fun hroom => ?_, hwrite.halts⟩
  obtain ⟨after, hrun, hmore⟩ := hwrite.goes hroom
  exact ⟨after, hrun, h.write hused hframe hrun,
    (Transition.ready_of_moved hworks' hready hmore).2.isUsed_eq, hmore.size_eq ▸ hframe⟩

/-- The next page that is read counts on top of all traffic before it. -/
theorem countsTo_read (hworks : start.swap.device.Works) (hon : start.swap.OnDevice)
    (h : Traffic start written read machine) (hused : machine.swap.isUsed slot = true)
    (hframe : frame < machine.frames.memory.size) :
    Transition.CountsTo (start.swap.device.reads + (read + 1) * sectorsPerPage)
      (Kernel.readSlot slot frame) machine fun after => Traffic start written (read + 1) after ∧
        after.swap.isUsed slot = true ∧ frame < after.frames.memory.size := by
  obtain ⟨hmoved, hworks', hon'⟩ := h.moved hworks hon
  have hready := SwapStore.ready_of_works hworks' hon' hused
  have hread := Transition.countsTo_readSlot hworks' hready hframe
  rw [hmoved.reads_eq, Nat.add_assoc, ← Nat.succ_mul] at hread
  refine ⟨fun hroom => ?_, hread.halts⟩
  obtain ⟨after, hrun, hmore⟩ := hread.goes hroom
  exact ⟨after, hrun, h.read hused hframe hrun,
    (Transition.ready_of_moved hworks' hready hmore).2.isUsed_eq, hmore.size_eq ▸ hframe⟩

/-- Whatever traffic there has been, the next page goes through if all its transfers can be counted on top
of those before it, and halts the system if they cannot. Nothing else can stop it. -/
theorem countsTo_next (hworks : start.swap.device.Works) (hon : start.swap.OnDevice)
    (h : Traffic start written read machine) (hused : machine.swap.isUsed slot = true)
    (hframe : frame < machine.frames.memory.size) :
    Transition.CountsTo (start.swap.device.writes + (written + 1) * sectorsPerPage)
        (Kernel.writeSlot slot frame) machine (Traffic start (written + 1) read) ∧
      Transition.CountsTo (start.swap.device.reads + (read + 1) * sectorsPerPage)
        (Kernel.readSlot slot frame) machine (Traffic start written (read + 1)) :=
  ⟨(h.countsTo_write hworks hon hused hframe).mono fun _ hafter => hafter.1,
    (h.countsTo_read hworks hon hused hframe).mono fun _ hafter => hafter.1⟩

/-- A slot in use is written as often as it can be counted. -/
theorem exists_written (hworks : start.swap.device.Works) (hon : start.swap.OnDevice)
    (h : Traffic start 0 0 machine) (hused : machine.swap.isUsed slot = true)
    (hframe : frame < machine.frames.memory.size) (written : Nat)
    (hroom : start.swap.device.writes + written * sectorsPerPage < transferLimit) :
    ∃ after, Traffic start written 0 after ∧ after.swap.isUsed slot = true ∧
      frame < after.frames.memory.size := by
  induction written with
  | zero => exact ⟨machine, h, hused, hframe⟩
  | succ written ih =>
    have hbefore : start.swap.device.writes + written * sectorsPerPage < transferLimit := by
      rw [Nat.succ_mul] at hroom
      omega
    obtain ⟨before, htraffic, hused', hframe'⟩ := ih hbefore
    obtain ⟨after, -, hafter⟩ := (htraffic.countsTo_write hworks hon hused' hframe').goes hroom
    exact ⟨after, hafter⟩

/-- The device of the sample machine works. -/
theorem works_sample : Machine.sample.swap.device.Works := ⟨⟨by decide, by decide⟩, rfl, rfl⟩

/-- The slots of the sample machine lie on its device. -/
theorem onDevice_sample : Machine.sample.swap.OnDevice := SwapStore.onDevice_ofDevice _

/-- The sample machine with its first slot in use. -/
def claimedSample : Machine :=
  { Machine.sample with swap := { Machine.sample.swap with
    slots := { Machine.sample.swap.slots with groups := #[SlotGroup.claim (.firstFree 2) 0], used := 1 } } }

/-- The first claim on the sample machine gets its first slot. -/
theorem allocateSlot_sample : Transition.allocateSlot .sample = .ok (some 0) claimedSample := by
  have hslots : Machine.sample.swap.slots.allocate = .ok (some 0, claimedSample.swap.slots) := by
    decide +kernel
  have hstore : Machine.sample.swap.allocate = .ok (some 0, claimedSample.swap) := by
    rw [SwapStore.allocate, hslots]
    rfl
  have hswap : Transition.swap .sample = .ok Machine.sample.swap .sample := rfl
  rw [Transition.allocateSlot, Transition.run_bind hswap, hstore]
  rfl

/-- When the first slot of the sample machine is claimed, the first page that is written to it goes through,
and so does the first that is read from it. -/
theorem countsTo_next_sample : Transition.allocateSlot .sample = .ok (some 0) claimedSample ∧
    Traffic .sample 0 0 claimedSample ∧ claimedSample.swap.isUsed 0 = true ∧
      Transition.CountsTo 8 (Kernel.writeSlot 0 0) claimedSample (Traffic .sample 1 0) ∧
      Transition.CountsTo 8 (Kernel.readSlot 0 0) claimedSample (Traffic .sample 0 1) := by
  have hclaimed : Traffic .sample 0 0 claimedSample := .meanwhile .nil rfl rfl
  have hused : claimedSample.swap.isUsed 0 = true := by decide +kernel
  exact ⟨allocateSlot_sample, hclaimed, hused,
    countsTo_next works_sample onDevice_sample hclaimed hused (by decide +kernel)⟩

/-- After 2^29 - 1 pages were written to the working disk of the sample machine, the next one halts the
system. -/
theorem next_halts : Machine.sample.swap.device.Works ∧
    ∃ machine, Traffic .sample 0x1fffffff 0 machine ∧ machine.swap.isUsed 0 = true ∧
      0 < machine.frames.memory.size ∧
        ∃ after, (Kernel.writeSlot 0 0 : Transition _) machine = .error .overflow after := by
  obtain ⟨machine, htraffic, hused, hframe⟩ := @exists_written .sample claimedSample 0 0 works_sample
    onDevice_sample (.meanwhile .nil rfl rfl) (by decide +kernel) (by decide +kernel) 0x1fffffff (by decide)
  have hwrite := htraffic.countsTo_write works_sample onDevice_sample hused hframe
  exact ⟨works_sample, machine, htraffic, hused, hframe, hwrite.halts (by decide)⟩

end Traffic

end DemandPaging
