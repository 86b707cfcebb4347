import DemandPaging.Proofs.Answers
import DemandPaging.Proofs.MarkedEvictions

/-!
# Evictions that fail lack something

An eviction of a machine in order answers, and if it fails, the machine lacks something
(`Machine.Lacks`): it has no frame at all; all frames and all slots are in use; the swap device has a
fault; or a file rejects a changed page of a mapping. In particular there always is a victim
(`answers_chooseVictim`), since no record of a settled machine is pinned or unbound.

Whatever happens to the page, the equipment of the machine stays the same (`SameEquipment`): the number
of frames and slots, the faults of the device, and whether a file fails; and no file becomes shorter.
-/

set_option autoImplicit false

namespace DemandPaging

open Spaces Machine

/-- A space exists if it has a standing. -/
theorem Spaces.lt_size_iff {spaces : Array AddressSpace} {s : SpaceId} :
    s < spaces.size ↔ (standing? spaces s).isSome = true := by
  rw [standing?, Option.isSome_map, isSome_getElem?]

/-- What the machine lacks if an operation fails with this cause. -/
def Machine.Lacks (machine : Machine) : VmError → Prop
  | .outOfFrames => machine.frames.capacity = 0
  | .swapFull => machine.frames.allocated = machine.frames.capacity ∧
      machine.swap.usedCount = machine.swap.slotCount
  | .block cause => machine.swap.Fails cause
  | .writeBack cause => ∃ s p entry segment file, IsAligned p ∧
      mapped? machine.spaces s p = some entry ∧ entry.dirty = true ∧
      segment? machine.spaces s p = some segment ∧ segment.writeBack = true ∧
      machine.files[segment.file]? = some file ∧ file.Rejects segment.offset segment.readBytes cause
  | _ => False

/-- What may be lacking is always fatal. -/
theorem Machine.Lacks.isFatal {machine : Machine} {cause : VmError} (h : machine.Lacks cause) :
    cause.isFatal = true := by
  cases cause <;> first | rfl | exact h.elim

/-- The machine is in order, its windows fit in a page and are in files, and frame numbers fit in
entries. -/
structure Machine.Able (machine : Machine) : Prop where
  settled : machine.Settled
  fits : ∀ s p segment, segment? machine.spaces s p = some segment → segment.readBytes ≤ pageSize
  backed : ∀ s p segment, segment? machine.spaces s p = some segment →
    segment.file < machine.files.size
  small : machine.frames.capacity ≤ maxFrame + 1

/-- The number of frames and slots, the faults of the device and whether files fail are the same, and no
file is shorter than before. -/
structure Machine.SameEquipment (before after : Machine) : Prop where
  capacity_eq : after.frames.capacity = before.frames.capacity
  slotCount_eq : after.swap.slotCount = before.swap.slotCount
  device : before.swap.device.Like after.swap.device
  files : ∀ (f : FileId) (file : MemoryFile), before.files[f]? = some file →
    ∃ file' : MemoryFile, after.files[f]? = some file' ∧ file'.failing = file.failing ∧ file.size ≤ file'.size

section

variable {m m' m'' : Machine} {cause : VmError}

/-- Equipment is the same if frames and slots are as many, the device is alike and the files are the same. -/
theorem Machine.SameEquipment.of_eq (hcapacity : m'.frames.capacity = m.frames.capacity)
    (hcount : m'.swap.slotCount = m.swap.slotCount) (hdevice : m.swap.device.Like m'.swap.device)
    (hfiles : m'.files = m.files) : m.SameEquipment m' :=
  ⟨hcapacity, hcount, hdevice, fun _ file hfile => ⟨file, hfiles ▸ hfile, rfl, Nat.le_refl _⟩⟩

/-- A machine has the equipment that it has. -/
theorem Machine.SameEquipment.refl (m : Machine) : m.SameEquipment m := .of_eq rfl rfl (.refl _) rfl

/-- Equipment that stays the same twice stays the same. A file only grows. -/
theorem Machine.SameEquipment.trans (h : m.SameEquipment m') (h' : m'.SameEquipment m'') :
    m.SameEquipment m'' where
  capacity_eq := h'.capacity_eq.trans h.capacity_eq
  slotCount_eq := h'.slotCount_eq.trans h.slotCount_eq
  device := h.device.trans h'.device
  files f file hfile := by
    obtain ⟨file', hfile', hfailing, hsize⟩ := h.files f file hfile
    obtain ⟨file'', hfile'', hfailing', hsize'⟩ := h'.files f file' hfile'
    exact ⟨file'', hfile'', hfailing'.trans hfailing, Nat.le_trans hsize hsize'⟩

/-- A write changes no switch of its file, and the file does not become shorter. -/
theorem sameEquipment_write {f : FileId} {file : MemoryFile} (hfile : m.files[f]? = some file)
    (offset : Nat) (data : Bytes) :
    m.SameEquipment { m with files := m.files.setIfInBounds f (file.write offset data).2 } := by
  refine ⟨rfl, rfl, .refl _, fun f' file' hfile' => ?_⟩
  simp only [Array.getElem?_setIfInBounds]
  split
  · subst f'
    obtain rfl := Option.some.inj (hfile.symm.trans hfile')
    rw [if_pos (Array.getElem?_eq_some_iff.mp hfile).1]
    refine ⟨_, rfl, ?_, ?_⟩
    · exact congrArg (·.2.1) (file.switches_write offset data)
    · unfold MemoryFile.write
      split
      · exact Nat.le_refl _
      · simp only [MemoryFile.size, Bytes.size_overlay]
        exact Nat.le_max_left _ _
  · exact ⟨file', hfile', rfl, Nat.le_refl _⟩

/-- A machine lacks what it lacked when only marks of pages that were used have changed. -/
theorem Machine.Lacks.faded (h : m'.Lacks cause) (hpool : m'.frames.pool = m.frames.pool)
    (hsize : m'.frames.memory.size = m.frames.memory.size) (hswap : m'.swap = m.swap)
    (hfiles : m'.files = m.files) (hf : Faded m.spaces m'.spaces) : m.Lacks cause := by
  have hcapacity : m'.frames.capacity = m.frames.capacity := hsize
  have hallocated : m'.frames.allocated = m.frames.allocated := congrArg (·.allocated) hpool
  cases cause with
  | outOfFrames => exact hcapacity.symm.trans h
  | swapFull =>
    obtain ⟨hfull, hused⟩ := h
    rw [hallocated, hcapacity] at hfull
    rw [hswap] at hused
    exact ⟨hfull, hused⟩
  | block cause =>
    have hfails : m'.swap.Fails cause := h
    rw [hswap] at hfails
    exact hfails
  | writeBack cause =>
    obtain ⟨s, p, entry, segment, file, hp, hentry, hdirty, hsegment, hback, hfile, hrejects⟩ := h
    have hlasting := hf.lasting s p
    rw [lasting?, hentry, Option.map_some, eq_comm] at hlasting
    obtain ⟨entry', hentry', heq⟩ := Option.map_eq_some_iff.mp hlasting
    simp only [PageTableEntry.lasting, Prod.mk.injEq] at heq
    rw [segment?, hf.info] at hsegment
    exact ⟨s, p, entry', segment, file, hp, hentry', heq.2.2.trans hdirty, hsegment, hback,
      hfiles ▸ hfile, hrejects⟩
  | noVictim | file _ | alreadyRegistered | alreadyMapped | mapFailed | invalidMapping | destroyed =>
    exact h.elim

/-- No space goes away by paging. -/
theorem Machine.Paging.lt_size {n : Nat} {s : SpaceId} (h : Paging n m m') (hs : s < m.spaces.size) :
    s < m'.spaces.size := by
  obtain ⟨writes, -, hadvance⟩ := h.advance
  rw [lt_size_iff, hadvance.standing]
  exact lt_size_iff.mp hs

/-- A reserved frame exists. -/
theorem Reserved.lt_size {s : SpaceId} {p frame : Nat} (h : Reserved {} s p frame m) :
    frame < m.frames.memory.size := by
  obtain ⟨front, rear, -, hcoherent⟩ := h
  refine hcoherent.capacity ▸ hcoherent.pool.lt_capacity ?_
  exact List.mem_append_right _ List.mem_cons_self

end

/-- If no slot of a sound bitmap is free, all are in use. -/
theorem SlotBitmap.Sound.used_eq_count {slots : SlotBitmap} (h : slots.Sound)
    (hnone : ∀ x, slots.isFree x = false) : slots.used = slots.count := by
  rw [h.used_eq, SlotBitmap.usedSlots, List.filter_eq_self.mpr, List.length_range]
  intro x hx
  rw [SlotBitmap.isUsed, hnone, decide_eq_true (List.mem_range.mp hx)]
  rfl

namespace PageDirectory

/-- A directory that turns nothing down takes an aligned page and a frame number that fits. -/
theorem exists_install {d : PageDirectory} {page frame : Nat} (hrefusals : d.refusals = 0)
    (hp : IsAligned page) (hframe : frame ≤ maxFrame) (writable : Bool) :
    ∃ result, d.install page frame writable = .ok result := by
  rw [install, if_neg (by omega), if_neg (not_not_intro hp), PageTableEntry.userPage?, if_pos hframe]
  split
  · exact ⟨_, rfl⟩
  · exact ⟨_, rfl⟩

end PageDirectory

namespace Transition

variable {α : Type} {machine : Machine} {s : SpaceId} {p frame : Nat}

/-- What a step yields holds of its answer. -/
theorem Answers.yields {step : Transition α} {post other : α → Machine → Prop}
    (h : Answers step machine post) (h' : Yields step machine other) :
    Answers step machine fun a after => post a after ∧ other a after := by
  unfold Answers at *
  cases hrun : step machine with
  | ok a after => rw [hrun] at h; exact ⟨h, h' a after hrun⟩
  | error halt after => rw [hrun] at h; exact h

/-- A page is mapped if it was not and its directory turns nothing down. -/
theorem finishes_install {writable : Bool} (hs : s < machine.spaces.size) (hp : IsAligned p)
    (hrefusals : ∀ standing, standing? machine.spaces s = some standing → standing.refusals = 0)
    (hunmapped : mapped? machine.spaces s p = none) (hframe : frame ≤ maxFrame) :
    Finishes (install s p frame writable) machine fun done after => done = true ∧
      after = { machine with
        spaces := map machine.spaces s p (.userPage (BitVec.ofNat 20 frame) writable) } := by
  refine Ensures.finishes (ensures_install hrefusals (fun e he => ?_) fun _ _ _ => ⟨rfl, rfl⟩) ?_
  · rw [hunmapped] at he
    cases he
  · have hspace := Array.getElem?_eq_getElem hs
    obtain ⟨result, hresult⟩ := PageDirectory.exists_install
      (hrefusals _ (standing?_eq hspace)) hp hframe writable
    rw [install, finishes_bind]
    refine finishes_directory hspace ?_
    simp only [hresult, ofExcept, finishes_bind, finishes_pure]
    exact (finishes_iff rfl).mpr trivial

/-! ### A victim is found -/

/-- The clock hand reads marks of pages of spaces that exist. -/
theorem answers_testAndClear {table : FrameTable} (index : Nat)
    (howners : ∀ r ∈ table.records, r.owner < machine.spaces.size) :
    Answers ((Kernel.candidates table).testAndClear index) machine fun _ after =>
      after.spaces.size = machine.spaces.size := by
  unfold Kernel.candidates
  simp only
  split
  · rename_i owner p hrecord
    have hs := howners _ (List.mem_of_getElem? hrecord)
    rw [answers_bind]
    refine (answers_iff (run_findEntry (Array.getElem?_eq_getElem hs) _)).mpr ?_
    refine answers_ite (fun _ => ?_) (fun _ => ?_)
    · simp only [lift_eq, answers_bind, answers_setAccessed, answers_pure]
      exact size_onDirectory
    · exact rfl
  · exact rfl

/-- A sweep over frames that may all be evicted ends with one of them. -/
theorem answers_sweep {table : FrameTable} (visits : List Nat) (fallback : Option Nat)
    (howners : ∀ r ∈ table.records, r.owner < machine.spaces.size)
    (heligible : ∀ index ∈ visits, table.isEligible index = true)
    (hsome : visits = [] → fallback.isSome = true) :
    Answers (SecondChance.sweep (Kernel.candidates table) visits fallback) machine
      fun choice _ => choice.isSome = true := by
  induction visits generalizing fallback machine with
  | nil => exact hsome rfl
  | cons index rest ih =>
    have hmay : (Kernel.candidates (m := Transition) table).eligible index = true :=
      heligible index List.mem_cons_self
    rw [SecondChance.sweep, if_pos hmay, answers_bind]
    refine (answers_testAndClear index howners).mono fun accessed after hsize => ?_
    refine answers_ite (fun _ => ?_) (fun _ => rfl)
    refine ih _ (fun r hr => hsize ▸ howners r hr)
      (fun i hi => heligible i (List.mem_cons_of_mem _ hi)) fun _ => ?_
    cases fallback <;> rfl

/-- Every record of a settled machine may be evicted. -/
theorem isEligible_of_settled (h : machine.Settled) {index : Nat}
    (hindex : index < machine.frames.records.length) :
    machine.frames.isEligible index = true := by
  have hrecord := List.getElem?_eq_getElem hindex
  obtain ⟨p, hpage, -, -⟩ := (h.tracked.mem_iff _).mp (List.getElem_mem hindex)
  have hunpinned : machine.frames.pool.isPinned machine.frames.records[index].frame = false := by
    rw [Bool.eq_false_iff]
    exact fun hpinned => List.not_mem_nil ((h.pool.isPinned_iff _).mp hpinned)
  rw [FrameTable.isEligible, hrecord, Option.any_some, hpage, hunpinned]
  rfl

/-- There is a victim unless there is no record. -/
theorem answers_chooseVictim (h : machine.Settled) (hrecords : machine.frames.records ≠ []) :
    Answers Kernel.chooseVictim machine fun outcome after =>
      ∃ victim frames spaces, outcome = .ok victim ∧ after = { machine with frames, spaces } ∧
        frames.pool = machine.frames.pool ∧ frames.memory = machine.frames.memory ∧
        Faded machine.spaces spaces ∧ Chosen {} machine victim after := by
  have hlength : 0 < machine.frames.records.length := List.length_pos_of_ne_nil hrecords
  have hvisits : ∀ index ∈ machine.frames.clock.visits machine.frames.records.length,
      machine.frames.isEligible index = true := by
    intro index hindex
    obtain ⟨step, -, rfl⟩ := List.mem_map.mp hindex
    exact isEligible_of_settled h (Nat.mod_lt _ hlength)
  have hnonempty : machine.frames.clock.visits machine.frames.records.length ≠ [] := by
    rw [SecondChance.visits, ne_eq, List.map_eq_nil_iff, List.range_eq_nil]
    omega
  have howners : ∀ r ∈ machine.frames.records, r.owner < machine.spaces.size := by
    intro r hr
    obtain ⟨p, -, -, hframe⟩ := (h.tracked.mem_iff r).mp hr
    obtain ⟨entry, hentry, -⟩ := Option.map_eq_some_iff.mp hframe
    exact lt_size_of_mapped? hentry
  have hswept : Answers Kernel.chooseVictim machine fun outcome after =>
      (∃ victim, outcome = .ok victim) ∧ after.frames.pool = machine.frames.pool ∧
        after.frames.memory = machine.frames.memory := by
    simp only [Kernel.chooseVictim, SecondChance.select, lift_eq, answers_bind, answers_frames]
    refine ((answers_sweep _ none howners hvisits fun hnil => absurd hnil hnonempty).ensures
      (ensures_sweep machine.frames _ none nofun)).mono ?_
    rintro choice after ⟨hsome, ⟨spaces, rfl, -⟩, hchoice⟩
    obtain ⟨index, rfl⟩ := Option.isSome_iff_exists.mp hsome
    have heligible := hchoice index rfl
    rw [FrameTable.isEligible] at heligible
    obtain ⟨victim, hvictim, -⟩ := (Option.any_eq_true ..).mp heligible
    simp only [answers_pure, takeVictim, answers_bind, answers_frames, Option.bind_some, hvictim,
      answers_setFrames]
    exact ⟨⟨victim, rfl⟩, rfl, rfl⟩
  refine ((hswept.ensures (ensures_chooseVictim h)).yields faded_chooseVictim).mono ?_
  rintro outcome after ⟨⟨⟨⟨victim, rfl⟩, hpool, hmemory⟩, hchosen⟩, frames, spaces, rfl, hfaded⟩
  exact ⟨victim, frames, spaces, rfl, rfl, hpool, hmemory, hfaded, hchosen⟩

/-- A frame comes from the pool, or there is a victim, or there is no frame at all. -/
theorem answers_findSource (h : machine.Settled) :
    Answers Kernel.findSource machine fun outcome after =>
      match outcome with
      | .ok (.pool _) => machine.SameEquipment after
      | .ok (.page victim) => machine.frames.allocated = machine.frames.capacity ∧
        ∃ frames spaces, after = { machine with frames, spaces } ∧
          frames.pool = machine.frames.pool ∧ frames.memory = machine.frames.memory ∧
          Faded machine.spaces spaces ∧ Chosen {} machine victim after
      | .error cause => machine.Lacks cause := by
  have hcapacity : machine.frames.pool.capacity = machine.frames.capacity := h.capacity
  simp only [Kernel.findSource, lookAgain, lift_eq, answers_bind, answers_frames]
  rcases h.pool.alloc_cases with ⟨hfull, halloc⟩ | ⟨-, frame, pool, halloc⟩
  · rw [hcapacity] at hfull
    simp only [halloc, ofExcept, answers_pure, answers_setFrames]
    by_cases hempty : machine.frames.records.isEmpty = true
    · rw [if_pos hempty]
      have hnone : machine.frames.records = [] := List.isEmpty_iff.mp hempty
      have hout := h.pool.allocated_eq
      rw [hnone] at hout
      exact hfull.symm.trans hout
    · rw [if_neg hempty]
      have hrecords : machine.frames.records ≠ [] := fun heq => hempty (List.isEmpty_iff.mpr heq)
      rw [answers_bind]
      refine (answers_chooseVictim h hrecords).mono ?_
      rintro outcome after ⟨victim, frames, spaces, rfl, hchosen⟩
      exact ⟨hfull, frames, spaces, hchosen⟩
  · simp only [halloc, ofExcept, answers_pure, answers_setFrames]
    exact .of_eq rfl rfl (.refl _) rfl

/-! ### Its contents are saved -/

/-- A frame goes to a slot of its own, or all slots are in use, or the device has a fault. -/
theorem answers_swapOut (hsound : machine.swap.slots.Sound)
    (hframe : frame < machine.frames.memory.size) :
    Answers (Kernel.swapOut frame) machine fun outcome after => machine.SameEquipment after ∧
      ∀ cause, outcome = .error cause →
        cause = .swapFull ∧ machine.swap.usedCount = machine.swap.slotCount ∨
          ∃ fault, cause = .block fault ∧ machine.swap.Fails fault := by
  simp only [Kernel.swapOut, lift_eq, answers_bind, allocateSlot, answers_swap, SwapStore.allocate]
  rcases hsound.allocate with ⟨heq, hnone⟩ | ⟨slot, slots, heq, hsound', hcount, hfree, hothers⟩
  · simp only [heq, ofExcept, answers_pure, answers_setSwap]
    refine ⟨.refl _, ?_⟩
    rintro _ ⟨⟩
    exact .inl ⟨rfl, hsound.used_eq_count hnone⟩
  · simp only [heq, ofExcept, answers_pure, answers_setSwap]
    have hused : slots.isUsed slot = true := by
      rw [SlotBitmap.isUsed_of_claim hcount hfree hothers, decide_eq_true rfl, Bool.or_true]
    rw [answers_bind]
    refine (@answers_writeSlot { machine with swap := { machine.swap with slots } } _ _ hframe
      hused).mono ?_
    rintro outcome _ ⟨⟨device, notices, rfl, hlike⟩, hcause⟩
    cases outcome with
    | ok u => exact ⟨.of_eq rfl hcount hlike rfl, not_refused⟩
    | error fault =>
      obtain ⟨slots', hfreed, -, hcount', -⟩ := hsound'.free hused
      simp only [answers_bind, releaseSlot, answers_swap, SwapStore.release, hfreed, ofExcept,
        answers_pure, answers_setSwap]
      refine ⟨.of_eq rfl (hcount'.trans hcount) hlike rfl, ?_⟩
      rintro _ ⟨⟩
      exact .inr ⟨fault, rfl, (hcause fault rfl).congr hcount (.refl _)⟩

/-- The contents of a page go where its marks and its window say, or what was tried for that reason has
failed. -/
theorem answers_writeOut {entry : PageTableEntry} {info : PageInfo} {last : Option PageTableEntry}
    (hsound : machine.swap.slots.Sound) (hframe : frame < machine.frames.memory.size)
    (hwindow : ∀ segment, info.segment? = some segment →
      segment.readBytes ≤ pageSize ∧ segment.file < machine.files.size) :
    Answers (Kernel.writeOut
      { frame, owner := s, page := p, entry := last, plan := .ofEntry entry info }) machine
      fun outcome after => machine.SameEquipment after ∧ ∀ cause, outcome = .error cause →
        (cause = .swapFull ∧ machine.swap.usedCount = machine.swap.slotCount) ∨
        (∃ fault, cause = .block fault ∧ machine.swap.Fails fault) ∨
        ∃ segment file fault, cause = .writeBack fault ∧ info.segment? = some segment ∧
          segment.writeBack = true ∧ entry.dirty = true ∧ machine.files[segment.file]? = some file ∧
          file.Rejects segment.offset segment.readBytes fault := by
  have hswap : Answers (Kernel.writeOut
      { frame, owner := s, page := p, entry := last, plan := .swap entry.writable }) machine
      fun outcome after => machine.SameEquipment after ∧ ∀ cause, outcome = .error cause →
        (cause = .swapFull ∧ machine.swap.usedCount = machine.swap.slotCount) ∨
        ∃ fault, cause = .block fault ∧ machine.swap.Fails fault := by
    simp only [Kernel.writeOut, answers_bind]
    refine (answers_swapOut hsound hframe).mono ?_
    rintro outcome after ⟨hsame, hcause⟩
    cases outcome with
    | ok slot => exact ⟨hsame, not_refused⟩
    | error cause =>
      refine ⟨hsame, ?_⟩
      rintro _ ⟨⟩
      exact hcause cause rfl
  unfold Plan.ofEntry
  cases hinfo : info.segment? with
  | none => exact hswap.mono fun _ _ h => ⟨h.1, fun cause hc => (h.2 cause hc).imp_right .inl⟩
  | some segment =>
    obtain ⟨hfits, hlt⟩ := hwindow segment hinfo
    by_cases hfile : (segment.writeBack && entry.dirty) = true
    · have hboth := (Bool.and_eq_true _ _).mp hfile
      have hget := Array.getElem?_eq_getElem hlt
      simp only [hfile, if_true, Kernel.writeOut, answers_bind]
      refine (answers_writeBack hframe hfits hget).mono ?_
      rintro outcome _ ⟨⟨data, rfl⟩, hcause⟩
      cases outcome with
      | ok u => exact ⟨sameEquipment_write hget _ _, not_refused⟩
      | error fault =>
        refine ⟨sameEquipment_write hget _ _, ?_⟩
        rintro _ ⟨⟩
        exact .inr (.inr ⟨segment, _, fault, rfl, rfl, hboth.1, hboth.2, hget, hcause fault rfl⟩)
    · by_cases hkeep : (segment.writeBack || !entry.dirty) = true
      · simp only [hfile, hkeep, if_true, if_false, Bool.false_eq_true, Kernel.writeOut]
        exact ⟨.refl _, not_refused⟩
      · simp only [hfile, hkeep, if_false, Bool.false_eq_true]
        exact hswap.mono fun _ _ h => ⟨h.1, fun cause hc => (h.2 cause hc).imp_right .inl⟩

/-! ### It leaves its frame, or comes back -/

/-- An entry can be changed always, and nothing happens if there is none. -/
@[simp] theorem finishes_modifyInfo {f : PageInfo → PageInfo} {post : Unit → Machine → Prop} :
    Finishes (modifyInfo s p f) machine post ↔
      post () { machine with spaces := amend machine.spaces s p f } := finishes_iff rfl

/-- The dirty mark can be set always, and nothing happens if the page is not mapped. -/
@[simp] theorem finishes_setDirty {on : Bool} {post : Unit → Machine → Prop} :
    Finishes (setDirty s p on) machine post ↔
      post () { machine with
        spaces := mark machine.spaces s p fun e => { e with dirty := on } } := finishes_iff rfl

/-- The accessed mark can be set always, and nothing happens if the page is not mapped. -/
@[simp] theorem finishes_setAccessed {on : Bool} {post : Unit → Machine → Prop} :
    Finishes (setAccessed s p on) machine post ↔
      post () { machine with
        spaces := mark machine.spaces s p fun e => { e with accessed := on } } := finishes_iff rfl

/-- A frame that exists is cleared. -/
theorem finishes_zero {post : Unit → Machine → Prop} (hframe : frame < machine.frames.memory.size)
    (hpost : post () { machine with frames := { machine.frames with
      memory := machine.frames.memory.setPage frame Page.blank } }) :
    Finishes (zero frame) machine post := by
  obtain ⟨content, hcontent⟩ := exists_page hframe
  simp only [zero, finishes_bind, finishes_frames, FrameMemory.zero, hcontent, finishes_ofExcept,
    Except.ok.injEq, exists_eq_left', finishes_setFrames]
  exact hpost

/-- A victim that has a page of a space that is there can be detached. -/
theorem finishes_parted (hs : s < machine.spaces.size) :
    Finishes (detach { frame, owner := s, page := some p }) machine fun transit after =>
      ∃ entry plan spaces, transit = { frame, owner := s, page := p, entry, plan } ∧
        after = { machine with spaces } ∧ Parted machine.spaces s p entry plan spaces := by
  refine ensures_parted.finishes ?_
  simp only [detach, finishes_bind]
  refine (finishes_clear hs).mono ?_
  rintro last _ ⟨-, rfl⟩
  have hs' : s < (unmap machine.spaces s p).size := by
    rw [unmap, size_onDirectory]
    exact hs
  cases last with
  | none => exact finishes_pure.mpr trivial
  | some entry =>
    simp only [finishes_bind]
    refine finishes_supplement (Array.getElem?_eq_getElem hs') ?_
    split
    · exact finishes_pure.mpr trivial
    · simp only [finishes_bind, finishes_setSupplement, finishes_pure]

/-- A victim is detached. -/
theorem finishes_detach {moving : Option (SpaceId × Nat)}
    (hdescribed : Described moving machine.spaces) (hlive : Live machine.spaces) (hp : IsAligned p)
    {entry : PageTableEntry} (hentry : mapped? machine.spaces s p = some entry) :
    Finishes (detach { frame, owner := s, page := some p }) machine fun transit after =>
      ∃ info spaces, transit =
          { frame, owner := s, page := p, entry := some entry, plan := .ofEntry entry info } ∧
        after = { machine with spaces } ∧ Detached machine.spaces s p entry info spaces :=
  (ensures_detach hdescribed hlive hp hentry).finishes
    ((finishes_parted (lt_size_of_mapped? hentry)).mono fun _ _ _ => trivial)

/-- What was saved leaves its frame. -/
theorem finishes_finish {transit : Transit} {info : PageInfo} (copy : Option SwapCopy)
    (hplan : transit.plan ≠ .discard) (hframe : transit.frame < machine.frames.memory.size)
    (hinfo : info? machine.spaces transit.owner transit.page = some info) :
    Finishes (finish transit copy) machine fun _ after =>
      Released machine transit.owner transit.page transit.frame copy after := by
  refine Ensures.finishes (ensures_finish copy hplan hinfo) ?_
  have hs := lt_size_of_info? hinfo
  have hspace := Array.getElem?_eq_getElem hs
  have hfind : machine.spaces[transit.owner].supplement.find? transit.page = some info :=
    (info?_eq hspace).symm.trans hinfo
  have hlast : ∀ f, transit.owner < (amend machine.spaces transit.owner transit.page f).size := by
    intro f
    rw [amend, size_onSupplement]
    exact hs
  simp only [finish, finishes_bind]
  refine finishes_zero hframe ?_
  rw [if_neg hplan]
  simp only [finishes_bind]
  refine finishes_supplement hspace ?_
  rw [hfind]
  cases copy with
  | none =>
    simp only [finishes_bind, finishes_modifyInfo]
    exact finishes_space (Array.getElem?_eq_getElem (hlast _))
      (finishes_notify.mpr trivial)
  | some copy =>
    simp only [finishes_bind, finishes_modifyInfo]
    exact finishes_space (Array.getElem?_eq_getElem (hlast _))
      (finishes_notify.mpr trivial)

/-- What could not be saved is put back. -/
theorem finishes_restore {entry : PageTableEntry} {plan : Plan} {out pinned : List Nat}
    (hs : s < machine.spaces.size) (hp : IsAligned p) (hframe : entry.frame.toNat = frame)
    (hrefusals : ∀ standing, standing? machine.spaces s = some standing → standing.refusals = 0)
    (hunmapped : mapped? machine.spaces s p = none)
    (hpool : machine.frames.pool.Accounts out pinned) (hout : frame ∈ out) :
    Finishes (restore { frame, owner := s, page := p, entry := some entry, plan }) machine
      fun _ after => Restored machine s p frame entry after := by
  refine Ensures.finishes (ensures_restore hp hframe hrefusals hunmapped) ?_
  obtain ⟨pool, hpool⟩ := hpool.exists_setPinned hout false
  have hmax : frame ≤ maxFrame := by
    have := entry.frame.isLt
    unfold maxFrame
    omega
  simp only [restore, finishes_bind]
  refine (finishes_install hs hp hrefusals hunmapped hmax).mono ?_
  rintro done _ ⟨rfl, rfl⟩
  simp only [finishes_setDirty, finishes_setAccessed, finishes_modifyInfo, finishes_frames,
    finishes_ofExcept, finishes_setFrames, FrameTable.insert, hpool, and_true]
  exact ⟨_, rfl⟩

/-- What was put back needs no other equipment. -/
theorem Restored.sameEquipment {entry : PageTableEntry} {after : Machine}
    (h : Restored machine s p frame entry after) : machine.SameEquipment after :=
  .of_eq (congrArg (·.size) h.memory_eq) (congrArg (·.slotCount) h.swap_eq)
    (h.swap_eq ▸ .refl _) h.files_eq

/-- What was released needs no other equipment. -/
theorem Released.sameEquipment {copy : Option SwapCopy} {after : Machine}
    (h : Released machine s p frame copy after) : machine.SameEquipment after := by
  refine .of_eq ?_ (congrArg (·.slotCount) h.swap_eq) (h.swap_eq ▸ .refl _) h.files_eq
  exact (congrArg (·.size) h.memory_eq).trans FrameMemory.size_setPage

/-- A victim is moved out, or what it needs for that is lacking. -/
theorem answers_migrate {before : Machine} {victim : FrameRecord} (h : Chosen {} before victim machine)
    (hfull : machine.frames.allocated = machine.frames.capacity)
    (hwindow : ∀ s p segment, segment? machine.spaces s p = some segment →
      segment.readBytes ≤ pageSize ∧ segment.file < machine.files.size) :
    Answers (Kernel.migrate victim) machine fun outcome after => machine.SameEquipment after ∧
      ∀ cause, outcome = .error cause → machine.Lacks cause := by
  obtain ⟨frame, s, p, entry, rfl, hp, hentry, hnumber⟩ := h.page
  obtain ⟨⟨front, rear, hsplit, -⟩, -, hcoherent, -⟩ := h
  have hlive := hcoherent.live
  have hout : frame ∈ before.frames.records.map (·.frame) ++ ([] ++ []) := by simp [hsplit]
  have hsize : frame < machine.frames.memory.size :=
    hcoherent.capacity ▸ hcoherent.pool.lt_capacity hout
  simp only [Kernel.migrate, holding_eq, lift_eq, answers_bind]
  refine (finishes_detach hcoherent.described hlive hp hentry).answers.mono ?_
  rintro transit _ ⟨info, spaces, rfl, rfl, hd⟩
  have hs : s < spaces.size := lt_size_of_info? hd.info_eq
  have hwritten := (@answers_writeOut { machine with spaces } s p frame entry info (some entry)
    hcoherent.accounted.sound hsize fun segment hsegment =>
      hwindow s p segment (hd.segment_eq.trans hsegment)).ensures
    (ensures_writeOut hcoherent.accounted.sound hd.segment_eq)
  refine hwritten.mono ?_
  rintro outcome middle ⟨⟨hsame, hcause⟩, writes, hsaved⟩
  have hstart : machine.SameEquipment middle :=
    (@Machine.SameEquipment.of_eq machine { machine with spaces } rfl rfl (.refl _) rfl).trans hsame
  have hspaces : middle.spaces = spaces := hsaved.spaces_eq
  have hframes : middle.frames = machine.frames := hsaved.frames_eq
  cases outcome with
  | error cause =>
    have hlacks : machine.Lacks cause := by
      rcases hcause cause rfl with ⟨rfl, hused⟩ | ⟨fault, rfl, hfails⟩ |
        ⟨segment, file, fault, rfl, hsegment, hback, hdirty, hfile, hrejects⟩
      · exact ⟨hfull, hused⟩
      · exact hfails
      · exact ⟨s, p, entry, segment, file, hp, hentry, hdirty, hd.segment_eq.trans hsegment, hback,
          hfile, hrejects⟩
    simp only [answers_bind, answers_pure]
    refine (finishes_restore (hspaces ▸ hs) hp hnumber ?_ (hspaces ▸ hd.unmapped)
      (hframes ▸ hcoherent.pool) hout).answers.mono fun _ after hr => ⟨?_, ?_⟩
    · intro standing hstanding
      rw [hspaces] at hstanding
      exact hlive.refusals s standing (hd.elsewhere.standing s ▸ hstanding)
    · exact hstart.trans hr.sameEquipment
    · rintro _ ⟨⟩
      exact hlacks
  | ok copy =>
    simp only [answers_bind, answers_pure]
    refine (finishes_finish copy (Plan.ofEntry_ne_discard entry info) ?_
      (hspaces ▸ hd.info_eq)).answers.mono fun _ after hr =>
        ⟨hstart.trans hr.sameEquipment, not_refused⟩
    rw [hframes]
    exact hsize

/-- A frame is made free, or the machine lacks what is needed for that. -/
theorem answers_evict (h : machine.Able) :
    Answers Kernel.evict machine fun outcome after =>
      match outcome with
      | .ok _ => machine.SameEquipment after
      | .error cause => machine.Lacks cause := by
  simp only [Kernel.evict, holding_eq, answers_bind]
  refine (answers_findSource h.settled).mono fun outcome middle hmiddle => ?_
  cases outcome with
  | error cause => exact hmiddle
  | ok source =>
    cases source with
    | pool frame => exact hmiddle
    | page victim =>
      obtain ⟨hfull, frames, spaces, rfl, hpool, hmemory, hfaded, hchosen⟩ := hmiddle
      have hcapacity : frames.capacity = machine.frames.capacity := congrArg (·.size) hmemory
      have hstart : machine.SameEquipment { machine with frames, spaces } :=
        .of_eq hcapacity rfl (.refl _) rfl
      simp only [answers_bind]
      refine (answers_migrate hchosen ?_ fun s p segment hsegment => ?_).mono ?_
      · exact (congrArg (·.allocated) hpool).trans (hfull.trans hcapacity.symm)
      · rw [segment?, hfaded.info] at hsegment
        exact ⟨h.fits s p segment hsegment, h.backed s p segment hsegment⟩
      · rintro outcome after ⟨hsame, hcause⟩
        cases outcome with
        | error cause => exact (hcause cause rfl).faded hpool hcapacity rfl rfl hfaded
        | ok u => exact hstart.trans hsame

/-! ### Frames for pages -/

/-- A loose frame can be recorded for a page and pinned. -/
theorem exists_insert (table : FrameTable) {pool : FramePool} {out pinned : List Nat}
    (hpool : pool.Accounts out pinned) (hout : frame ∈ out) :
    ∃ table', FrameTable.insert { table with pool } { frame, owner := s, page := some p } true =
        .ok table' ∧ table'.memory = table.memory := by
  obtain ⟨pool', hpinned⟩ := hpool.exists_setPinned hout true
  simp only [FrameTable.insert, hpinned]
  exact ⟨_, rfl, rfl⟩

/-- A free frame is taken for a page, unless all are out. -/
theorem finishes_allocFree (h : machine.Settled) :
    Finishes (allocFree s (some p)) machine fun outcome after =>
      (outcome = none → after = machine) ∧ machine.SameEquipment after := by
  simp only [allocFree, finishes_bind, finishes_frames, finishes_ofExcept, finishes_setFrames,
    finishes_pure, FrameTable.allocFree]
  rcases h.pool.alloc_cases with ⟨-, halloc⟩ | ⟨-, frame, pool, halloc⟩
  · simp only [halloc]
    exact ⟨_, rfl, fun _ => rfl, .of_eq rfl rfl (.refl _) rfl⟩
  · obtain ⟨-, -, hpool⟩ := h.pool.alloc halloc
    obtain ⟨table, htable, hmemory⟩ :=
      exists_insert (s := s) (p := p) machine.frames hpool List.mem_cons_self
    simp only [halloc, Option.isSome_some, htable]
    exact ⟨_, rfl, fun hnone => absurd hnone (Option.some_ne_none _), .of_eq (congrArg (·.size) hmemory) rfl (.refl _) rfl⟩

/-- A frame that an eviction has made free is recorded for a page. -/
theorem finishes_record (h : Coherent {} machine.frames.records [frame] [] machine) :
    Finishes (record frame s (some p)) machine fun _ after => machine.SameEquipment after := by
  simp only [record, finishes_bind, finishes_frames, finishes_ofExcept, finishes_setFrames,
    Option.isSome_some]
  obtain ⟨table, htable, hmemory⟩ := exists_insert (s := s) (p := p) machine.frames
    h.pool (List.mem_append_right _ List.mem_cons_self)
  exact ⟨table, htable, .of_eq (congrArg (·.size) hmemory) rfl (.refl _) rfl⟩

/-- A frame is handed over. -/
theorem finishes_handOver (h : Reserved {} s p frame machine) (hs : s < machine.spaces.size)
    (zeroed clean : Bool) :
    Finishes (Kernel.handOver s (some p) zeroed clean frame) machine fun _ after =>
      machine.SameEquipment after := by
  have hframe := h.lt_size
  simp only [Kernel.handOver, holding_eq, lift_eq]
  split
  · rw [finishes_bind]
    refine finishes_zero hframe ?_
    rw [finishes_bind]
    refine finishes_space (Array.getElem?_eq_getElem hs) (finishes_notify.mpr ?_)
    exact .of_eq FrameMemory.size_setPage rfl (.refl _) rfl
  · rw [finishes_bind]
    refine finishes_space (Array.getElem?_eq_getElem hs) (finishes_notify.mpr ?_)
    exact .of_eq rfl rfl (.refl _) rfl

/-- A page gets a frame, or the machine lacks what is needed for that. -/
theorem answers_allocateFor (h : machine.Able) (hs : s < machine.spaces.size) (zeroed : Bool) :
    Answers (Kernel.allocateFor s p zeroed) machine fun outcome after =>
      match outcome with
      | .ok _ => machine.SameEquipment after
      | .error cause => machine.Lacks cause := by
  simp only [Kernel.allocateFor, Kernel.allocateRecord, holding_eq, lift_eq, answers_bind]
  refine ((finishes_allocFree h.settled).answers.ensures
    (ensures_allocFree (s := s) (p := p) h.settled)).mono ?_
  rintro found middle ⟨⟨hnone, hsame⟩, hpaging, hmiddle⟩
  cases found with
  | some frame =>
    simp only [answers_bind, answers_pure]
    refine (finishes_handOver hmiddle (hpaging.lt_size hs) zeroed false).answers.mono ?_
    exact fun _ _ hover => hsame.trans hover
  | none =>
    obtain rfl := hnone rfl
    simp only [answers_bind]
    refine ((answers_evict h).ensures (ensures_evict h.settled)).mono ?_
    rintro outcome evicted ⟨hevicted, hpaging, hcoherent⟩
    cases outcome with
    | error cause => exact hevicted
    | ok result =>
      obtain ⟨frame, clean⟩ := result
      simp only [answers_bind, answers_pure]
      refine ((finishes_record hcoherent.1).answers.ensures
        (ensures_record (s := s) (p := p) hcoherent.1)).mono ?_
      rintro _ recorded ⟨hrecord, hpaging', -, hreserved⟩
      refine (finishes_handOver hreserved ((hpaging.trans hpaging').lt_size hs) zeroed
        clean).answers.mono ?_
      exact fun _ _ hover => (hevicted.trans hrecord).trans hover

end Transition

end DemandPaging
