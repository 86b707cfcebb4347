import DemandPaging.Kernel.Transfer
import DemandPaging.Proofs.Advance
import DemandPaging.Proofs.Steps

/-!
# Transfers

What is ensured when a page is moved between a frame and a swap slot or a file window. Each lemma
says which parts of the machine may have changed by writing the machine afterwards as an update of
the one before, and what the changed parts hold.

A transfer through the swap device goes sector by sector and may stop in the middle. So the slot or
the frame that it fills is only known if it went through; all other slots and frames keep their bytes
either way.
-/

set_option autoImplicit false

namespace DemandPaging

namespace Block

/-- A sector that is written holds what was written, and the others keep what they held. -/
theorem sector_of_writeDisk {block block' : Block} {sector : Nat} {content : Sector}
    {outcome : Except BlockError Unit} (h : block.writeDisk sector content = .ok (outcome, block')) :
    (∀ i, i ≠ sector → block'.disk.sector i = block.disk.sector i) ∧
      (outcome = .ok () → block'.disk.sector sector = content) := by
  unfold writeDisk RamDisk.writeSector at h
  cases hrefuse : block.disk.refuseWrite? sector with
  | some cause =>
    simp only [hrefuse, Except.ok.injEq, Prod.mk.injEq] at h
    obtain ⟨rfl, rfl⟩ := h
    exact ⟨fun _ _ => rfl, fun hok => by cases hok⟩
  | none =>
    simp only [hrefuse] at h
    split at h
    · simp only [Except.ok.injEq, Prod.mk.injEq] at h
      obtain ⟨rfl, rfl⟩ := h
      refine ⟨fun i hi => ?_, fun _ => ?_⟩
      · simp [RamDisk.sector, Std.ExtTreeMap.getElem?_insert, Ne.symm hi]
      · simp [RamDisk.sector]
    · cases h

/-- Reading leaves the disk as it is and answers what the sector holds. -/
theorem sector_of_readDisk {block block' : Block} {sector : Nat}
    {outcome : Except BlockError Sector} (h : block.readDisk sector = .ok (outcome, block')) :
    block'.disk = block.disk ∧
      ∀ content, outcome = .ok content → content = block.disk.sector sector := by
  unfold readDisk RamDisk.readSector at h
  cases hrefuse : block.disk.refuseRead? sector with
  | some cause =>
    simp only [hrefuse, Except.ok.injEq, Prod.mk.injEq] at h
    obtain ⟨rfl, rfl⟩ := h
    exact ⟨rfl, fun content hok => by cases hok⟩
  | none =>
    simp only [hrefuse] at h
    split at h
    · simp only [Except.ok.injEq, Prod.mk.injEq] at h
      obtain ⟨rfl, rfl⟩ := h
      exact ⟨rfl, fun content hok => (Except.ok.inj hok).symm⟩
    · cases h

/-- A write to the device halts only if it cannot be counted. -/
theorem eq_overflow_of_writeDisk {block : Block} {sector : Nat} {content : Sector} {halt : Halt}
    (h : block.writeDisk sector content = .error halt) : halt = .overflow := by
  unfold writeDisk at h
  split at h
  · cases h
  · split at h
    · cases h
    · exact (Except.error.inj h).symm

/-- A read from the device halts only if it cannot be counted. -/
theorem eq_overflow_of_readDisk {block : Block} {sector : Nat} {halt : Halt}
    (h : block.readDisk sector = .error halt) : halt = .overflow := by
  unfold readDisk at h
  split at h
  · cases h
  · split at h
    · cases h
    · exact (Except.error.inj h).symm

end Block

namespace RamDisk

/-- The sectors of a slot hold the bytes of the slot. -/
theorem getElem_sector (disk : RamDisk) (slot k i : Nat) (hi : i < sectorSize) :
    (disk.sector (slot * sectorsPerPage + k))[i] = disk.slotByte slot (k * sectorSize + i) := by
  have hk : (k * sectorSize + i) / sectorSize = k := by
    simp only [sectorSize] at hi ⊢
    omega
  have hi' : (k * sectorSize + i) % sectorSize = i := by
    simp only [sectorSize] at hi ⊢
    omega
  simp only [slotByte, hk, hi']

/-- Slots share no sector. -/
theorem slotByte_congr {disk disk' : RamDisk} {slot slot' k : Nat} {part : Fin sectorsPerPage}
    (hsector : ∀ i, i ≠ SwapStore.sectorOf slot part → disk'.sector i = disk.sector i)
    (hne : slot' ≠ slot) (hk : k < pageSize) : disk'.slotByte slot' k = disk.slotByte slot' k := by
  have hpart := part.isLt
  have hother : slot' * sectorsPerPage + k / sectorSize ≠ SwapStore.sectorOf slot part := by
    simp only [SwapStore.sectorOf, sectorsPerPage, sectorSize, pageSize] at *
    omega
  simp only [slotByte, hsector _ hother]

end RamDisk

namespace Page

/-- A page whose sector was stored in a slot can be read off the slot there. -/
theorem getElem?_of_sector {content : Page} {disk : RamDisk} {slot : Nat}
    {part : Fin sectorsPerPage}
    (h : disk.sector (SwapStore.sectorOf slot part) = content.sector part) {k : Nat}
    (hk : k < pageSize) (hpart : k / sectorSize = part.val) :
    content[k]? = some (disk.slotByte slot k) := by
  have hmod : k % sectorSize < sectorSize := Nat.mod_lt _ (by decide)
  have hdiv : part.val * sectorSize + k % sectorSize = k := by
    simp only [sectorSize] at hpart ⊢
    omega
  have hbyte := RamDisk.getElem_sector disk slot part.val (k % sectorSize) hmod
  have hsector : disk.sector (slot * sectorsPerPage + part.val) = content.sector part := h
  rw [hdiv] at hbyte
  rw [Vector.getElem?_eq_getElem hk, ← hbyte]
  simp only [hsector, sector, Vector.getElem_ofFn, hdiv]

/-- A page after one of its sectors was replaced. -/
theorem getElem?_setSector (content : Page) (part : Fin sectorsPerPage) (s : Sector) (k : Nat) :
    (content.setSector part s)[k]? =
      if k < pageSize ∧ k / sectorSize = part.val then s[k % sectorSize]? else content[k]? := by
  by_cases hk : k < pageSize
  · have hmod : k % sectorSize < sectorSize := Nat.mod_lt _ (by decide)
    rw [Vector.getElem?_eq_getElem hk, Vector.getElem?_eq_getElem hk,
      Vector.getElem?_eq_getElem hmod]
    simp only [setSector, Vector.getElem_ofFn, hk, true_and]
    split <;> rfl
  · rw [if_neg fun h => hk h.1, Vector.getElem?_eq_none (Nat.le_of_not_lt hk),
      Vector.getElem?_eq_none (Nat.le_of_not_lt hk)]

end Page

namespace Transition

open Spaces

variable {machine : Machine}

/-- A part of a frame is in its sector of the slot if it could be written, and all other sectors are
as they were. -/
theorem ensures_writePart (slot frame : Nat) (part : Fin sectorsPerPage) :
    Ensures (writePart slot frame part) machine fun outcome after => ∃ content device,
      after = { machine with swap := { machine.swap with device } } ∧
        machine.frames.memory.page frame = .ok content ∧
        (∀ i, i ≠ SwapStore.sectorOf slot part →
          device.disk.sector i = machine.swap.device.disk.sector i) ∧
        (outcome = .ok () →
          device.disk.sector (SwapStore.sectorOf slot part) = content.sector part) := by
  simp only [writePart, SwapStore.writePart, ensures_bind, ensures_swap, ensures_page,
    ensures_ofExcept, ensures_setSwap, ensures_pure]
  intro content hcontent
  cases hwrite : machine.swap.device.writeDisk (SwapStore.sectorOf slot part)
      (content.sector part) with
  | error halt =>
    rw [Block.eq_overflow_of_writeDisk hwrite]
    simp [Halt.isDoubleRelease]
  | ok result =>
    obtain ⟨hkept, hstored⟩ := Block.sector_of_writeDisk hwrite
    refine ⟨?_, fun halt h => by cases h⟩
    rintro _ ⟨⟩
    exact ⟨content, _, rfl, hcontent, hkept, hstored⟩

/-- A part of a frame is what its sector of the slot holds if it could be read, and all else is as it
was. -/
theorem ensures_readPart (slot frame : Nat) (part : Fin sectorsPerPage) :
    Ensures (readPart slot frame part) machine fun outcome after => ∃ device memory,
      after = { machine with
        swap := { machine.swap with device }, frames := { machine.frames with memory } } ∧
        device.disk = machine.swap.device.disk ∧ memory.size = machine.frames.memory.size ∧
        (∀ f k, f ≠ frame → memory.byte? f k = machine.frames.memory.byte? f k) ∧
        (outcome = .ok () → ∀ k, k < pageSize → memory.byte? frame k =
          if k / sectorSize = part.val then some (machine.swap.device.disk.slotByte slot k)
          else machine.frames.memory.byte? frame k) := by
  simp only [readPart, SwapStore.readPart, ensures_bind, ensures_swap, ensures_page,
    ensures_ofExcept, ensures_setSwap]
  intro content hcontent
  cases hread : machine.swap.device.readDisk (SwapStore.sectorOf slot part) with
  | error halt =>
    rw [Block.eq_overflow_of_readDisk hread]
    simp [Halt.isDoubleRelease]
  | ok result =>
    obtain ⟨outcome, device⟩ := result
    obtain ⟨hdisk, hsector⟩ := Block.sector_of_readDisk hread
    cases outcome with
    | error cause =>
      refine ⟨?_, fun halt h => by cases h⟩
      rintro _ ⟨⟩
      exact ⟨device, machine.frames.memory, rfl, hdisk, rfl, fun _ _ _ => rfl,
        fun hok => by cases hok⟩
    | ok sector =>
      refine ⟨?_, fun halt h => by cases h⟩
      rintro _ ⟨⟩
      simp only [ensures_bind, ensures_setPage, ensures_pure]
      have hbyte := @FrameMemory.byte?_setPage machine.frames.memory frame
        (content.setSector part sector) (FrameMemory.lt_size_of_page hcontent)
      refine ⟨device, _, rfl, hdisk, FrameMemory.size_setPage, fun f k hf => ?_, fun _ k hk => ?_⟩
      · rw [hbyte, if_neg (Ne.symm hf)]
      · rw [hbyte, if_pos rfl, Page.getElem?_setSector]
        by_cases hpart : k / sectorSize = part.val
        · have hmod : k % sectorSize < sectorSize := Nat.mod_lt _ (by decide)
          rw [if_pos ⟨hk, hpart⟩, if_pos hpart, Vector.getElem?_eq_getElem hmod]
          simp only [hsector sector rfl, RamDisk.slotByte, hpart]
          rfl
        · rw [if_neg fun h => hpart h.2, if_neg hpart, FrameMemory.byte?_eq hcontent]

/-- A frame is written to a slot. -/
theorem ensures_writeSlot (slot frame : Nat) :
    Ensures (Kernel.writeSlot slot frame) machine fun outcome after => ∃ device notices,
      after = { machine with swap := { machine.swap with device }, notices } ∧
        (∀ slot' k, slot' ≠ slot → k < pageSize →
          device.disk.slotByte slot' k = machine.swap.device.disk.slotByte slot' k) ∧
        (outcome = .ok () → ∀ k, k < pageSize →
          machine.frames.memory.byte? frame k = some (device.disk.slotByte slot k)) := by
  simp only [Kernel.writeSlot, requireFrame, requireUsed, lift_eq, holding_eq, interrupt_eq,
    ensures_bind, ensures_page, ensures_pure, ensures_swap]
  intro content hcontent
  refine ensures_ite (fun _ => ?_) (fun _ => rfl)
  rw [ensures_pure]
  -- the parts that are done are in the slot, and other slots are as they were
  refine Ensures.mono (@ensures_upToFailure (Fin sectorsPerPage) machine BlockError _
    (fun done after => ∃ device, after = { machine with swap := { machine.swap with device } } ∧
      (∀ slot' k, slot' ≠ slot → k < pageSize →
        device.disk.slotByte slot' k = machine.swap.device.disk.slotByte slot' k) ∧
      ∀ part ∈ done, device.disk.sector (SwapStore.sectorOf slot part) = content.sector part)
    (fun _ _ after => ∃ device, after = { machine with swap := { machine.swap with device } } ∧
      ∀ slot' k, slot' ≠ slot → k < pageSize →
        device.disk.slotByte slot' k = machine.swap.device.disk.slotByte slot' k)
    SwapStore.parts ?part ⟨machine.swap.device, rfl, fun _ _ _ _ => rfl, fun part h => by cases h⟩)
    fun outcome after hafter => ?whole
  case whole =>
    cases outcome with
    | error cause =>
      obtain ⟨device, rfl, hothers⟩ := hafter
      exact ⟨device, machine.notices, rfl, hothers, fun hok => by cases hok⟩
    | ok u =>
      obtain ⟨⟨device, rfl, hothers, hdone⟩, -⟩ := hafter
      simp only [ensures_bind, ensures_notify, ensures_pure]
      refine ⟨device, _, rfl, hothers, fun _ k hk => ?_⟩
      have hpart : k / sectorSize < sectorsPerPage := by
        simp only [sectorSize, sectorsPerPage, pageSize] at *
        omega
      rw [FrameMemory.byte?_eq hcontent]
      exact Page.getElem?_of_sector (hdone ⟨k / sectorSize, hpart⟩ (List.mem_finRange _)) hk rfl
  case part =>
    rintro done part rest _ - ⟨device, rfl, hothers, hdone⟩
    simp only [ensures_bind, ensures_swap]
    cases hrefuse : SwapStore.refuseWrite? { machine.swap with device } slot part with
    | some cause => exact ⟨device, rfl, hothers⟩
    | none =>
      simp only [ensures_bind, ensures_pure]
      refine (ensures_writePart slot frame part).mono ?_
      rintro outcome _ ⟨content', device', rfl, hcontent', hkept, hstored⟩
      obtain rfl : content = content' := Except.ok.inj (hcontent.symm.trans hcontent')
      have hothers' : ∀ slot' k, slot' ≠ slot → k < pageSize →
          device'.disk.slotByte slot' k = machine.swap.device.disk.slotByte slot' k := by
        intro slot' k hne hk
        rw [RamDisk.slotByte_congr hkept hne hk, hothers slot' k hne hk]
      cases outcome with
      | error cause => exact ⟨device', rfl, hothers'⟩
      | ok u =>
        refine ⟨device', rfl, hothers', fun part' hmem => ?_⟩
        by_cases hpart : part' = part
        · subst hpart
          exact hstored rfl
        · have hmem' : part' ∈ done := by simpa [hpart] using hmem
          have hsector : SwapStore.sectorOf slot part' ≠ SwapStore.sectorOf slot part := by
            intro heq
            apply hpart
            apply Fin.ext
            simpa [SwapStore.sectorOf] using heq
          rw [hkept _ hsector]
          exact hdone part' hmem'

/-- A slot is read over a frame. -/
theorem ensures_readSlot (slot frame : Nat) :
    Ensures (Kernel.readSlot slot frame) machine fun outcome after => ∃ device memory notices,
      after = { machine with
        swap := { machine.swap with device }
        frames := { machine.frames with memory }
        notices } ∧
        device.disk = machine.swap.device.disk ∧ memory.size = machine.frames.memory.size ∧
        (∀ f k, f ≠ frame → memory.byte? f k = machine.frames.memory.byte? f k) ∧
        (outcome = .ok () → ∀ k, k < pageSize →
          memory.byte? frame k = some (machine.swap.device.disk.slotByte slot k)) := by
  simp only [Kernel.readSlot, requireFrame, requireUsed, lift_eq, holding_eq, interrupt_eq,
    ensures_bind, ensures_page, ensures_pure, ensures_swap]
  intro content hcontent
  refine ensures_ite (fun _ => ?_) (fun _ => rfl)
  rw [ensures_pure]
  -- the parts that are done are in the frame, and other frames are as they were
  refine Ensures.mono (@ensures_upToFailure (Fin sectorsPerPage) machine BlockError _
    (fun done after => ∃ device memory, after = { machine with
        swap := { machine.swap with device }, frames := { machine.frames with memory } } ∧
      device.disk = machine.swap.device.disk ∧ memory.size = machine.frames.memory.size ∧
      (∀ f k, f ≠ frame → memory.byte? f k = machine.frames.memory.byte? f k) ∧
      ∀ part ∈ done, ∀ k, k < pageSize → k / sectorSize = part.val →
        memory.byte? frame k = some (machine.swap.device.disk.slotByte slot k))
    (fun _ _ after => ∃ device memory, after = { machine with
        swap := { machine.swap with device }, frames := { machine.frames with memory } } ∧
      device.disk = machine.swap.device.disk ∧ memory.size = machine.frames.memory.size ∧
      ∀ f k, f ≠ frame → memory.byte? f k = machine.frames.memory.byte? f k)
    SwapStore.parts ?part ⟨machine.swap.device, machine.frames.memory, rfl, rfl, rfl,
      fun _ _ _ => rfl, fun part h => by cases h⟩) fun outcome after hafter => ?whole
  case whole =>
    cases outcome with
    | error cause =>
      obtain ⟨device, memory, rfl, hdisk, hsize, hothers⟩ := hafter
      exact ⟨device, memory, machine.notices, rfl, hdisk, hsize, hothers, fun hok => by cases hok⟩
    | ok u =>
      obtain ⟨⟨device, memory, rfl, hdisk, hsize, hothers, hdone⟩, -⟩ := hafter
      simp only [ensures_bind, ensures_notify, ensures_pure]
      refine ⟨device, memory, _, rfl, hdisk, hsize, hothers, fun _ k hk => ?_⟩
      have hpart : k / sectorSize < sectorsPerPage := by
        simp only [sectorSize, sectorsPerPage, pageSize] at *
        omega
      exact hdone ⟨k / sectorSize, hpart⟩ (List.mem_finRange _) k hk rfl
  case part =>
    rintro done part rest _ - ⟨device, memory, rfl, hdisk, hsize, hothers, hdone⟩
    simp only [ensures_bind, ensures_swap]
    cases hrefuse : SwapStore.refuseRead? { machine.swap with device } slot part with
    | some cause => exact ⟨device, memory, rfl, hdisk, hsize, hothers⟩
    | none =>
      simp only [ensures_bind, ensures_pure]
      refine (ensures_readPart slot frame part).mono ?_
      rintro outcome _ ⟨device', memory', rfl, hdisk', hsize', hothers', hread⟩
      have hkept : ∀ f k, f ≠ frame → memory'.byte? f k = machine.frames.memory.byte? f k :=
        fun f k hf => (hothers' f k hf).trans (hothers f k hf)
      cases outcome with
      | error cause =>
        exact ⟨device', memory', rfl, hdisk'.trans hdisk, hsize'.trans hsize, hkept⟩
      | ok u =>
        refine ⟨device', memory', rfl, hdisk'.trans hdisk, hsize'.trans hsize, hkept, ?_⟩
        intro part' hmem k hk hpart'
        rw [hread rfl k hk]
        split
        · exact congrArg (fun disk : RamDisk => some (disk.slotByte slot k)) hdisk
        · rename_i hpart
          have hne : part' ≠ part := by
            rintro rfl
            exact hpart hpart'
          have hmem' : part' ∈ done := by simpa [hne] using hmem
          exact hdone part' hmem' k hk hpart'

/-- A frame is written back to the window of a page of a mapped file. -/
theorem ensures_writeBack {spaces : Array AddressSpace} {s : SpaceId} {p : Nat} {segment : Segment}
    (hsegment : segment? spaces s p = some segment) (hback : segment.writeBack = true)
    (frame : Nat) :
    Ensures (Kernel.writeBack frame segment) machine fun outcome after => ∃ files writes,
      after = { machine with files } ∧ writes.length ≤ 1 ∧
        Files.Written writes spaces machine.files files ∧
        Files.AgreeOutside segment machine.files files ∧
        (outcome = .ok () → ∀ k, k < segment.readBytes →
          machine.frames.memory.byte? frame k = some (Files.windowByte files segment k)) := by
  simp only [Kernel.writeBack, requireWindow, lift_eq, holding_eq, interrupt_eq, ensures_bind]
  refine ensures_ite (fun hfits => ?_) (fun _ => rfl)
  simp only [ensures_pure, ensures_page, ensures_writeFile]
  intro content hcontent file hfile
  have hsize : (content.window 0 segment.readBytes).size = segment.readBytes := by
    rw [Page.size_window]
    omega
  obtain ⟨writes, hlength, hwritten, hout, hstored⟩ :=
    Files.written_write hsegment hback hfile (Nat.le_of_eq hsize)
  cases houtcome : (file.write segment.offset (content.window 0 segment.readBytes)).1 with
  | error cause =>
    exact ⟨_, writes, rfl, hlength, hwritten, hout, fun hok => by cases hok⟩
  | ok stored =>
    refine ⟨_, writes, rfl, hlength, hwritten, hout, fun hok k hk => ?_⟩
    have hall : stored = segment.readBytes := by
      by_contra hne
      rw [if_neg hne] at hok
      cases hok
    have hbytes := hstored (by rw [houtcome, hall, hsize]) k (hsize.symm ▸ hk)
    rw [hbytes, FrameMemory.byte?_of_window hcontent hfits hk]

/-- A frame is filled from a file window. -/
theorem ensures_readIn (spaces : Array AddressSpace) (frame : Nat) (segment : Segment) :
    Ensures (Kernel.readIn frame segment) machine fun outcome after => ∃ files memory,
      after = { machine with files, frames := { machine.frames with memory } } ∧
        Files.Written [] spaces machine.files files ∧
        memory.size = machine.frames.memory.size ∧
        (∀ f k, f ≠ frame → memory.byte? f k = machine.frames.memory.byte? f k) ∧
        (outcome.toOption = some segment.readBytes → ∀ k, k < pageSize →
          memory.byte? frame k = some (Files.windowByte files segment k)) := by
  simp only [Kernel.readIn, requireWindow, lift_eq, holding_eq, interrupt_eq, ensures_bind]
  refine ensures_ite (fun hfits => ?_) (fun _ => rfl)
  simp only [ensures_pure, ensures_readFile]
  intro file hfile
  have hwritten := Files.written_read spaces hfile segment.offset segment.readBytes
  have hwindow : ∀ k, Files.windowByte (machine.files.setIfInBounds segment.file
      (file.read segment.offset segment.readBytes).2) segment k =
        Files.windowByte machine.files segment k :=
    hwritten.windowByte List.not_mem_nil
  cases houtcome : (file.read segment.offset segment.readBytes).1 with
  | error cause =>
    simp only [fillFrame, ensures_bind, ensures_page, ensures_setPage, ensures_pure]
    intro content hcontent
    have hlt := FrameMemory.lt_size_of_page hcontent
    refine ⟨_, _, rfl, hwritten, FrameMemory.size_setPage, ?_, fun hok => by cases hok⟩
    intro f k hf
    rw [FrameMemory.byte?_setPage hlt, if_neg (Ne.symm hf)]
  | ok data =>
    simp only [fillFrame, ensures_bind, ensures_page, ensures_setPage, ensures_pure]
    intro content hcontent
    have hlt := FrameMemory.lt_size_of_page hcontent
    refine ⟨_, _, rfl, hwritten, FrameMemory.size_setPage, ?_, ?_⟩
    · intro f k hf
      rw [FrameMemory.byte?_setPage hlt, if_neg (Ne.symm hf)]
    · intro hall k hk
      have hsize : data.size = segment.readBytes := Option.some.inj hall
      have hdata : data = file.content.window segment.offset segment.readBytes := by
        unfold MemoryFile.read at houtcome
        split at houtcome
        · cases houtcome
        · exact (Except.ok.inj houtcome).symm
      rw [FrameMemory.byte?_setPage hlt, if_pos rfl, hwindow k, Page.getElem?_clearFrom,
        Page.getElem?_store, Files.windowByte, hfile]
      by_cases hin : k < segment.readBytes
      · rw [if_neg (by omega), if_pos ⟨Nat.zero_le k, by omega⟩, if_pos hk, if_pos hin,
          Option.bind_some, Nat.sub_zero]
        have hk' : k < data.size := hsize.symm ▸ hin
        have hbyte := Bytes.getElem?_window file.content segment.offset segment.readBytes k
        rw [if_pos hin, ← hdata] at hbyte
        rw [← hbyte, Array.getElem?_eq_getElem hk', Option.getD_some]
      · rw [if_pos ⟨by omega, hk⟩, if_neg hin]

end Transition

end DemandPaging
