import DemandPaging.Proofs.Answers
import DemandPaging.Proofs.Interleavings

/-!
# Transfers while switches are turned

A page goes to a swap slot or comes from one sector by sector, and the switches of the disk may be turned
at any time, also while it is on its way. So a transfer is followed as an operation among others (`Woven`),
where the others turn switches (`Machine.Flips`). `Woven.Answers` says of such an operation that it answers
unless a counter of transfers is exhausted.

`SwapStore.Keeps` is what a transfer leaves as it is. A slot that was written to the end holds the page
(`Woven.answers_writeSlot`), a frame that was read to the end has the page of the slot
(`Woven.answers_readSlot`), and no other slot is touched even if the transfer breaks off in the middle.
-/

set_option autoImplicit false

namespace DemandPaging

/-! ### Operations that answer among others -/

namespace Woven

variable {others : Machine → Machine → Prop} {α β : Type} {machine : Machine}
  {post : α → Machine → Prop}

/-- Whatever comes in between, the operation answers, with `post` of the answer and the machine it
leaves, or it halts because a counter of transfers is exhausted. -/
def Answers (work : Woven others α) (machine : Machine) (post : α → Machine → Prop) : Prop :=
  ∀ result, work machine result →
    match result with
    | .ok a after => post a after
    | .error halt after => halt = .overflow ∧ after.Exhausted

/-- What is known of an answer. -/
theorem Answers.of_ok {work : Woven others α} (h : Answers work machine post) {a : α} {after : Machine}
    (hrun : work machine (.ok a after)) : post a after := h _ hrun

/-- Less may be said of the answer. -/
theorem Answers.mono {work : Woven others α} {weaker : α → Machine → Prop}
    (h : Answers work machine post) (hw : ∀ a after, post a after → weaker a after) :
    Answers work machine weaker := by
  intro result hresult
  have hanswer := h result hresult
  cases result with
  | ok a after => exact hw a after hanswer
  | error halt after => exact hanswer

/-- An answer that is given at once holds on the machine as it is. -/
@[simp] theorem answers_pure {a : α} :
    Answers (pure a : Woven others α) machine post ↔ post a machine := by
  constructor
  · intro h
    exact h _ rfl
  · rintro h _ rfl
    exact h

/-- The second part answers on whatever the first part and those in between leave. -/
@[simp] theorem answers_bind {work : Woven others α} {next : α → Woven others β}
    {post : β → Machine → Prop} :
    Answers (work >>= next) machine post ↔
      Answers work machine fun a after => Answers (next a) after post := by
  constructor
  · rintro h (⟨a, middle⟩ | ⟨halt, middle⟩) hwork
    · exact fun result hresult => h result (.inl ⟨a, middle, hwork, hresult⟩)
    · exact h (.error halt middle) (.inr ⟨halt, middle, hwork, rfl⟩)
  · rintro h result (⟨a, middle, hwork, hresult⟩ | ⟨halt, middle, hwork, rfl⟩)
    · exact h _ hwork result hresult
    · exact h _ hwork

/-- A transition is carried out on the machine that others left. -/
@[simp] theorem answers_atomically {step : Transition α} :
    Answers (Kernel.atomically step : Woven others α) machine post ↔
      ∀ met, others machine met → Transition.Answers step met post := by
  constructor
  · intro h met hothers
    exact h _ ⟨met, hothers, rfl⟩
  · rintro h _ ⟨met, hothers, rfl⟩
    exact h met hothers

/-- At an event the machine may become any that others may leave. -/
@[simp] theorem answers_interrupt {event : Event} {post : Unit → Machine → Prop} :
    Answers (Kernel.interrupt event : Woven others Unit) machine post ↔
      ∀ met, others machine met → post () met := by
  constructor
  · intro h met hothers
    exact h _ ⟨met, hothers, rfl⟩
  · rintro h _ ⟨met, hothers, rfl⟩
    exact h met hothers

/-- What is known of answers among others goes from the parts of an operation to the whole. -/
def answering (others : Machine → Machine → Prop) : Rules (Woven others) where
  Yields := Answers
  mono := Answers.mono
  pure := answers_pure.mpr
  bind := answers_bind.mpr
  holding h := h

/-- The rules of answers among others speak of `Answers`. -/
@[simp] theorem yields_answering {work : Woven others α} :
    (answering others).Yields work machine post ↔ Answers work machine post := Iff.rfl

end Woven

/-! ### What slots hold -/

namespace RamDisk

/-- The page that the sectors of a slot hold. -/
def slotPage (disk : RamDisk) (slot : Nat) : Page := Vector.ofFn fun k => disk.slotByte slot k

/-- The page of a slot is told by the sectors of the slot. -/
theorem slotPage_congr {disk disk' : RamDisk} {slot : Nat}
    (h : ∀ i, i / sectorsPerPage = slot → disk'.sector i = disk.sector i) :
    disk'.slotPage slot = disk.slotPage slot := by
  refine Vector.ext fun k hk => ?_
  have hsector : (slot * sectorsPerPage + k / sectorSize) / sectorsPerPage = slot := by
    simp only [sectorSize, sectorsPerPage, pageSize] at *
    omega
  simp only [slotPage, Vector.getElem_ofFn, slotByte, h _ hsector]

/-- A slot holds a page if its sectors hold those of the page. -/
theorem slotPage_eq {disk : RamDisk} {slot : Nat} {content : Page}
    (h : ∀ part, disk.sector (SwapStore.sectorOf slot part) = content.sector part) :
    disk.slotPage slot = content := by
  refine Vector.ext fun k hk => ?_
  have hpart : k / sectorSize < sectorsPerPage := by
    simp only [sectorSize, sectorsPerPage, pageSize] at *
    omega
  have hbyte := Page.getElem?_of_sector (h ⟨k / sectorSize, hpart⟩) hk rfl
  rw [Vector.getElem?_eq_getElem hk] at hbyte
  rw [slotPage, Vector.getElem_ofFn, Option.some.inj hbyte]

end RamDisk

/-- A frame that has the bytes of a slot holds its page. -/
theorem FrameMemory.page_eq_slotPage {memory : FrameMemory} {frame slot : Nat} {disk : RamDisk}
    (h : ∀ k < pageSize, memory.byte? frame k = some (disk.slotByte slot k)) :
    memory.page frame = .ok (disk.slotPage slot) := by
  have hfirst := h 0 (by decide)
  rw [FrameMemory.page]
  cases hcontent : memory.pages[frame]? with
  | none => simp [FrameMemory.byte?, hcontent] at hfirst
  | some content =>
    refine congrArg Except.ok (Vector.ext fun k hk => ?_)
    have hbyte := h k hk
    rw [FrameMemory.byte?, hcontent, Option.bind_some, Vector.getElem?_eq_getElem hk] at hbyte
    rw [Option.some.inj hbyte, RamDisk.slotPage, Vector.getElem_ofFn]

/-- The stores are the same but for the pages in some slots, the switches of the disk and the counters. -/
structure SwapStore.Keeps (touched : List Nat) (store store' : SwapStore) : Prop where
  slots_eq : store'.slots = store.slots
  size_eq : store'.device.size = store.device.size
  kind_eq : store'.device.kind = store.device.kind
  sectors_eq : store'.device.disk.sectors = store.device.disk.sectors
  sector_eq : ∀ i, i / sectorsPerPage ∉ touched →
    store'.device.disk.sector i = store.device.disk.sector i

namespace SwapStore

variable {touched : List Nat} {store store' store'' : SwapStore}

/-- A store keeps everything if nothing happens. -/
theorem Keeps.refl (touched : List Nat) (store : SwapStore) : store.Keeps touched store :=
  ⟨rfl, rfl, rfl, rfl, fun _ _ => rfl⟩

/-- What is kept twice is kept. -/
theorem Keeps.trans (h : store.Keeps touched store') (h' : store'.Keeps touched store'') :
    store.Keeps touched store'' :=
  ⟨h'.slots_eq.trans h.slots_eq, h'.size_eq.trans h.size_eq, h'.kind_eq.trans h.kind_eq,
    h'.sectors_eq.trans h.sectors_eq, fun i hi => (h'.sector_eq i hi).trans (h.sector_eq i hi)⟩

/-- A slot that is not touched holds the same page. -/
theorem Keeps.slotPage_eq (h : store.Keeps touched store') {slot : Nat} (hslot : slot ∉ touched) :
    store'.device.disk.slotPage slot = store.device.disk.slotPage slot :=
  RamDisk.slotPage_congr fun i hi => h.sector_eq i (hi ▸ hslot)

/-- A device that can be used still can. -/
theorem Keeps.sturdy (h : store.Keeps touched store') (hs : store.device.Sturdy) : store'.device.Sturdy :=
  ⟨by rw [h.size_eq, h.sectors_eq]; exact hs.size_le, by rw [h.kind_eq]; exact hs.kind_ne⟩

/-- The slots still lie on the device. -/
theorem Keeps.onDevice (h : store.Keeps touched store') (hon : store.OnDevice) : store'.OnDevice := by
  rw [OnDevice, slotCount, h.slots_eq, h.size_eq]
  exact hon

/-- The sectors of a slot belong to it and to no other. -/
theorem sectorOf_div (slot : Nat) (k : Fin sectorsPerPage) : sectorOf slot k / sectorsPerPage = slot := by
  have hk := k.isLt
  simp only [sectorOf, sectorsPerPage] at *
  omega

/-- A slot is in use, its sectors are on the device, and the device can be used. -/
structure Ready (store : SwapStore) (slot : Nat) : Prop where
  isUsed_eq : store.isUsed slot = true
  sturdy : store.device.Sturdy
  onDevice : store.OnDevice

section

variable {slot : Nat} (h : store.Ready slot)
include h

/-- A slot stays ready, whatever is in the slots that are touched. -/
theorem Ready.keeps (hkeeps : store.Keeps touched store') : store'.Ready slot where
  isUsed_eq := by
    rw [isUsed, hkeeps.slots_eq]
    exact h.isUsed_eq
  sturdy := hkeeps.sturdy h.sturdy
  onDevice := hkeeps.onDevice h.onDevice

/-- The sectors of a slot that is ready are on the device. -/
theorem Ready.sectorOf_lt (k : Fin sectorsPerPage) : sectorOf slot k < store.device.size :=
  h.onDevice.sectorOf_lt (Transition.lt_slotCount_of_isUsed h.isUsed_eq) k

/-- No read of a slot that is ready is refused. -/
theorem Ready.refuseRead?_eq (k : Fin sectorsPerPage) : store.refuseRead? slot k = none := by
  rw [refuseRead?, Block.refuseRead?, if_neg (Nat.not_le.mpr (h.sectorOf_lt k))]

/-- No write to a slot that is ready is refused. -/
theorem Ready.refuseWrite?_eq (k : Fin sectorsPerPage) : store.refuseWrite? slot k = none := by
  rw [refuseWrite?, Block.refuseWrite?, if_neg (Nat.not_le.mpr (h.sectorOf_lt k)),
    if_neg h.sturdy.kind_ne]

end

end SwapStore

/-! ### Transfers while switches are turned -/

namespace Machine

/-- Somebody turns the switches of the swap disk. -/
def Flips (before after : Machine) : Prop := ∃ failReads failWrites, after = { before with
  swap := { before.swap with device := { before.swap.device with
    disk := { before.swap.device.disk with failReads, failWrites } } } }

/-- Nobody need turn a switch. -/
theorem flips_refl (machine : Machine) : Flips machine machine := ⟨_, _, rfl⟩

variable {m m' : Machine}

/-- Switches do not reach into the frame table. -/
theorem Flips.frames_eq (h : Flips m m') : m'.frames = m.frames := by
  obtain ⟨_, _, rfl⟩ := h
  rfl

/-- Switches leave what is on the disk. -/
theorem Flips.keeps (h : Flips m m') (touched : List Nat) : m.swap.Keeps touched m'.swap := by
  obtain ⟨_, _, rfl⟩ := h
  exact ⟨rfl, rfl, rfl, rfl, fun _ _ => rfl⟩

/-- Some parts of a page have been written to a slot. -/
structure HasWritten (slot : Nat) (content : Page) (before : Machine) (done : List (Fin sectorsPerPage))
    (after : Machine) : Prop where
  frames_eq : after.frames = before.frames
  keeps : before.swap.Keeps [slot] after.swap
  sector_eq : ∀ part ∈ done,
    after.swap.device.disk.sector (SwapStore.sectorOf slot part) = content.sector part

/-- Some parts of the page in a slot have been read over a frame. -/
structure HasRead (slot frame : Nat) (before : Machine) (done : List (Fin sectorsPerPage))
    (after : Machine) : Prop where
  size_eq : after.frames.memory.size = before.frames.memory.size
  keeps : before.swap.Keeps [] after.swap
  byte_eq : ∀ part ∈ done, ∀ k < pageSize, k / sectorSize = part.val →
    after.frames.memory.byte? frame k = some (before.swap.device.disk.slotByte slot k)

section

variable {slot frame : Nat} {content : Page} {before : Machine} {done : List (Fin sectorsPerPage)}

/-- What was written of a page stays written when switches are turned. -/
theorem HasWritten.flips (h : HasWritten slot content before done m) (hflips : Flips m m') :
    HasWritten slot content before done m' where
  frames_eq := hflips.frames_eq.trans h.frames_eq
  keeps := h.keeps.trans (hflips.keeps _)
  sector_eq := by
    obtain ⟨_, _, rfl⟩ := hflips
    exact h.sector_eq

/-- What was read of a page stays read when switches are turned. -/
theorem HasRead.flips (h : HasRead slot frame before done m) (hflips : Flips m m') :
    HasRead slot frame before done m' where
  size_eq := by rw [hflips.frames_eq, h.size_eq]
  keeps := h.keeps.trans (hflips.keeps _)
  byte_eq := by
    rw [hflips.frames_eq]
    exact h.byte_eq

end

/-- One more part of a page is written, or the disk refuses it. -/
theorem HasWritten.writePart {slot frame : Nat} {content : Page} {before : Machine}
    {done : List (Fin sectorsPerPage)} {part : Fin sectorsPerPage}
    (h : HasWritten slot content before done m) (hcontent : m.frames.memory.page frame = .ok content)
    (hready : m.swap.Ready slot) :
    Transition.Answers (Transition.writePart slot frame part) m fun outcome after =>
      match outcome with
      | .ok () => HasWritten slot content before (done ++ [part]) after
      | .error cause => HasWritten slot content before [] after ∧ cause = .writeError := by
  refine ((Transition.answers_writePart (FrameMemory.lt_size_of_page hcontent)
    (hready.refuseWrite?_eq part)).ensures (Transition.ensures_writePart slot frame part)).mono ?_
  rintro outcome after
    ⟨⟨⟨device, rfl, hlike⟩, hrefused⟩, content', device', heq, hcontent', hkept, hstored⟩
  obtain rfl : device = device' := congrArg (fun m : Machine => m.swap.device) heq
  obtain rfl : content = content' := Except.ok.inj (hcontent.symm.trans hcontent')
  have hkeeps : m.swap.Keeps [slot] { m.swap with device } := by
    refine ⟨rfl, hlike.size_eq, hlike.kind_eq, hlike.sectors_eq, fun i hi => hkept i ?_⟩
    rintro rfl
    exact hi (List.mem_singleton.mpr (SwapStore.sectorOf_div slot part))
  have hwrote : ∀ parts, (∀ part ∈ parts,
      device.disk.sector (SwapStore.sectorOf slot part) = content.sector part) →
        HasWritten slot content before parts { m with swap := { m.swap with device } } :=
    fun parts hparts => ⟨h.frames_eq, h.keeps.trans hkeeps, hparts⟩
  cases outcome with
  | error cause =>
    have hfault := hready.sturdy.of_writeFault? (hready.sectorOf_lt part) (hrefused cause rfl)
    exact ⟨hwrote [] (by simp), hfault.1⟩
  | ok u =>
    refine hwrote _ fun part' hmem => ?_
    by_cases hpart : part' = part
    · subst hpart
      exact hstored rfl
    · have hother : SwapStore.sectorOf slot part' ≠ SwapStore.sectorOf slot part :=
        fun heq => hpart (Fin.ext (Nat.add_left_cancel heq))
      rw [hkept _ hother]
      exact h.sector_eq part' (by simpa [hpart] using hmem)

/-- One more part of a page is read, or the disk refuses it. -/
theorem HasRead.readPart {slot frame : Nat} {before : Machine} {done : List (Fin sectorsPerPage)}
    {part : Fin sectorsPerPage} (h : HasRead slot frame before done m)
    (hframe : frame < m.frames.memory.size) (hready : m.swap.Ready slot) :
    Transition.Answers (Transition.readPart slot frame part) m fun outcome after =>
      match outcome with
      | .ok () => HasRead slot frame before (done ++ [part]) after
      | .error cause => HasRead slot frame before [] after ∧ cause = .readError := by
  refine ((Transition.answers_readPart hframe (hready.refuseRead?_eq part)).ensures
    (Transition.ensures_readPart slot frame part)).mono ?_
  rintro outcome after
    ⟨⟨⟨device, memory, rfl, hlike, hsize⟩, hrefused⟩, device', memory', heq, hdisk, -, -, hread⟩
  obtain rfl : device = device' := congrArg (fun m : Machine => m.swap.device) heq
  obtain rfl : memory = memory' := congrArg (fun m : Machine => m.frames.memory) heq
  have hkeeps : m.swap.Keeps [] { m.swap with device } :=
    ⟨rfl, hlike.size_eq, hlike.kind_eq, hlike.sectors_eq, fun i _ => congrArg (·.sector i) hdisk⟩
  have hhas : ∀ parts, (∀ part ∈ parts, ∀ k < pageSize, k / sectorSize = part.val →
      memory.byte? frame k = some (before.swap.device.disk.slotByte slot k)) →
        HasRead slot frame before parts { m with
          swap := { m.swap with device }, frames := { m.frames with memory } } :=
    fun parts hparts => ⟨hsize.trans h.size_eq, h.keeps.trans hkeeps, hparts⟩
  cases outcome with
  | error cause =>
    have hfault := hready.sturdy.of_readFault? (hready.sectorOf_lt part) (hrefused cause rfl)
    exact ⟨hhas [] (by simp), hfault.1⟩
  | ok u =>
    refine hhas _ fun part' hmem k hk hpart => ?_
    rw [hread rfl k hk]
    split
    · have hbyte := congrArg (fun page : Page => page[k])
        (@SwapStore.Keeps.slotPage_eq _ _ _ h.keeps slot List.not_mem_nil)
      simp only [RamDisk.slotPage, Vector.getElem_ofFn] at hbyte
      rw [hbyte]
    · rename_i hne
      have hmem' : part' ∈ done := by
        refine (List.mem_append.mp hmem).resolve_right fun hlast => hne ?_
        rw [hpart, List.mem_singleton.mp hlast]
      exact h.byte_eq part' hmem' k hk hpart

end Machine

namespace Transition

variable {machine : Machine} {slot frame : Nat} {post : Unit → Machine → Prop}

/-- A frame that exists may be asked for. -/
theorem answers_requireFrame (hframe : frame < machine.frames.memory.size) :
    Answers (requireFrame frame) machine post ↔ post () machine := by
  obtain ⟨content, hcontent⟩ := exists_page hframe
  simp only [requireFrame, answers_bind]
  rw [answers_page hcontent, answers_pure]

/-- A slot that is in use may be asked for. -/
theorem answers_requireUsed (hused : machine.swap.isUsed slot = true) :
    Answers (requireUsed slot) machine post ↔ post () machine := by
  simp only [requireUsed, answers_bind, answers_swap, hused, if_true, answers_pure]

end Transition

namespace Woven

open Machine

variable {machine : Machine} {slot frame : Nat} {content : Page}

/-- A frame is written to a slot in use, and no other slot notices. -/
theorem answers_writeSlot (hready : machine.swap.Ready slot)
    (hcontent : machine.frames.memory.page frame = .ok content) :
    Answers (Kernel.writeSlot slot frame : Woven Flips _) machine fun outcome after =>
      after.frames = machine.frames ∧ machine.swap.Keeps [slot] after.swap ∧
        match outcome with
        | .ok () => after.swap.device.disk.slotPage slot = content
        | .error cause => cause = .writeError := by
  simp only [Kernel.writeSlot, lift_eq, holding_eq, answers_bind, answers_atomically]
  intro met hmet
  refine (Transition.answers_requireFrame ?_).mpr fun met' hmet' => ?_
  · rw [hmet.frames_eq]
    exact FrameMemory.lt_size_of_page hcontent
  have hnone : HasWritten slot content machine [] met' :=
    HasWritten.flips (HasWritten.flips ⟨rfl, .refl _ _, by simp⟩ hmet) hmet'
  refine (Transition.answers_requireUsed (hready.keeps hnone.keeps).isUsed_eq).mpr ?_
  -- the parts that are done are in the slot
  refine Answers.mono ((answering Flips).upToFailure (HasWritten slot content machine)
    (fun cause after => HasWritten slot content machine [] after ∧ cause = .writeError)
    (fun done part _ before _ hbefore => ?part) hnone) fun outcome after hafter => ?whole
  case part =>
    simp only [yields_answering, answers_bind, answers_atomically, Transition.answers_swap]
    intro asked hasked
    have hasked' := hbefore.flips hasked
    simp only [(hready.keeps hasked'.keeps).refuseWrite?_eq part, answers_bind, answers_interrupt,
      answers_atomically]
    intro interrupted hinterrupted found hfound
    have hfound' := (hasked'.flips hinterrupted).flips hfound
    have hcontent' : found.frames.memory.page frame = .ok content := by
      rw [hfound'.frames_eq]
      exact hcontent
    refine (hfound'.writePart hcontent' (hready.keeps hfound'.keeps)).mono fun outcome after hafter => ?_
    cases outcome <;> exact hafter
  case whole =>
    cases outcome with
    | error cause => exact answers_pure.mpr ⟨hafter.1.frames_eq, hafter.1.keeps, hafter.2⟩
    | ok u =>
      simp only [answers_bind, answers_atomically, Transition.answers_notify, answers_pure]
      intro said hsaid
      have hsaid' := hafter.flips hsaid
      exact ⟨hsaid'.frames_eq, hsaid'.keeps,
        RamDisk.slotPage_eq fun part => hsaid'.sector_eq part (List.mem_finRange part)⟩

/-- A slot in use is read over a frame, and no slot notices. -/
theorem answers_readSlot (hready : machine.swap.Ready slot) (hframe : frame < machine.frames.memory.size) :
    Answers (Kernel.readSlot slot frame : Woven Flips _) machine fun outcome after =>
      after.frames.memory.size = machine.frames.memory.size ∧ machine.swap.Keeps [] after.swap ∧
        match outcome with
        | .ok () => after.frames.memory.page frame = .ok (machine.swap.device.disk.slotPage slot)
        | .error cause => cause = .readError := by
  simp only [Kernel.readSlot, lift_eq, holding_eq, answers_bind, answers_atomically]
  intro met hmet
  refine (Transition.answers_requireFrame ?_).mpr fun met' hmet' => ?_
  · rw [hmet.frames_eq]
    exact hframe
  have hnone : HasRead slot frame machine [] met' :=
    HasRead.flips (HasRead.flips ⟨rfl, .refl _ _, by simp⟩ hmet) hmet'
  refine (Transition.answers_requireUsed (hready.keeps hnone.keeps).isUsed_eq).mpr ?_
  -- the parts that are done are in the frame
  refine Answers.mono ((answering Flips).upToFailure (HasRead slot frame machine)
    (fun cause after => HasRead slot frame machine [] after ∧ cause = .readError)
    (fun done part _ before _ hbefore => ?part) hnone) fun outcome after hafter => ?whole
  case part =>
    simp only [yields_answering, answers_bind, answers_atomically, Transition.answers_swap]
    intro asked hasked
    have hasked' := hbefore.flips hasked
    simp only [(hready.keeps hasked'.keeps).refuseRead?_eq part, answers_bind, answers_interrupt,
      answers_atomically]
    intro interrupted hinterrupted found hfound
    have hfound' := (hasked'.flips hinterrupted).flips hfound
    have hframe' : frame < found.frames.memory.size := by
      rw [hfound'.size_eq]
      exact hframe
    refine (hfound'.readPart hframe' (hready.keeps hfound'.keeps)).mono fun outcome after hafter => ?_
    cases outcome <;> exact hafter
  case whole =>
    cases outcome with
    | error cause => exact answers_pure.mpr ⟨hafter.1.size_eq, hafter.1.keeps, hafter.2⟩
    | ok u =>
      simp only [answers_bind, answers_atomically, Transition.answers_notify, answers_pure]
      intro said hsaid
      have hsaid' := hafter.flips hsaid
      refine ⟨hsaid'.size_eq, hsaid'.keeps, FrameMemory.page_eq_slotPage fun k hk => ?_⟩
      have hpart : k / sectorSize < sectorsPerPage := by
        simp only [sectorSize, sectorsPerPage, pageSize] at *
        omega
      exact hsaid'.byte_eq ⟨k / sectorSize, hpart⟩ (List.mem_finRange _) k hk rfl

end Woven

end DemandPaging
