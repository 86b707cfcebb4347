import DemandPaging.Proofs.InterruptedEvictions
import DemandPaging.Proofs.Outcomes
import DemandPaging.Proofs.SlotTransfers
import Mathlib.Logic.Function.Basic

/-!
# Pages in the swap store

Each slot of the swap store has eight sectors of its own. So what is read from a slot is the page that was
written there last, if that write went through, and no write is noticed in any other slot, be it carried
out, refused, or broken off after some of its sectors.

`StoreRun` is a run of a store, with the page that each slot was given last. `Machine.Stores` is what
everything that is done with a store keeps, and `Machine.PagesApart` is what follows from it for whatever
is done next (`StoreRun.pagesApart`).
-/

set_option autoImplicit false

namespace DemandPaging

open Machine

/-- What is done with a swap store from `start` on: slots are claimed and given back, frames are filled
with whatever is to be written, slots in use are written and read, and switches are turned, in between and
while all this goes on. `stored` is the page that a slot was given last, if it was written at all and the
last write went through. -/
inductive StoreRun (start : Machine) : (Nat → Option Page) → Machine → Prop where
  /-- Nothing has been done yet. -/
  | nil : StoreRun start (fun _ => none) start
  /-- The switches are turned. -/
  | turn {stored : Nat → Option Page} {machine after : Machine} (h : StoreRun start stored machine)
      (hflips : Flips machine after) : StoreRun start stored after
  /-- A slot is claimed, if there is one. -/
  | allocate {stored : Nat → Option Page} {machine after : Machine} {answer : Option Nat}
      (h : StoreRun start stored machine)
      (hrun : (Kernel.atomically Transition.allocateSlot : Woven Flips _) machine (.ok answer after)) :
      StoreRun start stored after
  /-- A slot in use is given back. -/
  | release {stored : Nat → Option Page} {machine after : Machine} {slot : Nat}
      (h : StoreRun start stored machine) (hused : machine.swap.isUsed slot = true)
      (hrun : (Kernel.atomically (Transition.releaseSlot slot) : Woven Flips _) machine (.ok () after)) :
      StoreRun start stored after
  /-- A frame is filled. -/
  | fill {stored : Nat → Option Page} {machine after : Machine} {frame : Nat} {content : Page}
      (h : StoreRun start stored machine)
      (hrun : (Kernel.atomically (Transition.setPage frame content) : Woven Flips _) machine
        (.ok () after)) :
      StoreRun start stored after
  /-- A frame is written to a slot in use. -/
  | write {stored : Nat → Option Page} {machine after : Machine} {slot frame : Nat} {content : Page}
      {outcome : Except BlockError Unit} (h : StoreRun start stored machine)
      (hused : machine.swap.isUsed slot = true)
      (hcontent : machine.frames.memory.page frame = .ok content)
      (hrun : (Kernel.writeSlot slot frame : Woven Flips _) machine (.ok outcome after)) :
      StoreRun start (Function.update stored slot (outcome.toOption.map fun _ => content)) after
  /-- A slot in use is read over a frame. -/
  | read {stored : Nat → Option Page} {machine after : Machine} {slot frame : Nat}
      {outcome : Except BlockError Unit} (h : StoreRun start stored machine)
      (hused : machine.swap.isUsed slot = true) (hframe : frame < machine.frames.memory.size)
      (hrun : (Kernel.readSlot slot frame : Woven Flips _) machine (.ok outcome after)) :
      StoreRun start stored after

namespace Machine

/-- Whoever reads the slot and succeeds gets this page. -/
def ReadsAs (machine : Machine) (slot : Nat) (page : Page) : Prop :=
  ∀ frame after, machine.swap.isUsed slot = true → frame < machine.frames.memory.size →
    (Kernel.readSlot slot frame : Woven Flips _) machine (.ok (.ok ()) after) →
      after.frames.memory.page frame = .ok page

/-- The swap store keeps pages apart, and `stored` are those that it was given. -/
structure PagesApart (stored : Nat → Option Page) (machine : Machine) : Prop where
  /-- What was written last is what is read. -/
  reads : ∀ slot page, stored slot = some page → machine.ReadsAs slot page
  /-- Whatever becomes of a write, what is read from another slot stays. -/
  apart : ∀ slot frame outcome after, machine.swap.isUsed slot = true →
    frame < machine.frames.memory.size →
    (Kernel.writeSlot slot frame : Woven Flips _) machine (.ok outcome after) →
      ∀ other, other ≠ slot → ∃ page, machine.ReadsAs other page ∧ after.ReadsAs other page
  /-- A transfer is not noticed in the bitmap, whatever becomes of it. A write is refused only by the
  switch for writes, and it halts only if too many sectors were transferred. -/
  writes : ∀ slot frame, machine.swap.isUsed slot = true → frame < machine.frames.memory.size →
    Woven.Answers (Kernel.writeSlot slot frame : Woven Flips _) machine fun outcome after =>
      after.swap.slots = machine.swap.slots ∧ (outcome = .ok () ∨ outcome = .error .writeError)
  /-- The same holds of a read. -/
  reads_from : ∀ slot frame, machine.swap.isUsed slot = true → frame < machine.frames.memory.size →
    Woven.Answers (Kernel.readSlot slot frame : Woven Flips _) machine fun outcome after =>
      after.swap.slots = machine.swap.slots ∧ (outcome = .ok () ∨ outcome = .error .readError)
  /-- While no switch is set, transfers succeed. -/
  works : ∀ slot frame, machine.swap.isUsed slot = true → frame < machine.frames.memory.size →
    machine.swap.device.disk.failReads = false → machine.swap.device.disk.failWrites = false →
      Transition.Answers (Kernel.writeSlot slot frame) machine (fun outcome _ => outcome = .ok ()) ∧
        Transition.Answers (Kernel.readSlot slot frame) machine fun outcome _ => outcome = .ok ()
  /-- The sectors of a slot are on the device. -/
  sectorOf_lt : ∀ slot k, slot < machine.swap.slotCount →
    SwapStore.sectorOf slot k < machine.swap.device.size
  /-- No sector belongs to two slots. -/
  sectorOf_ne : ∀ slot other k k', slot ≠ other → SwapStore.sectorOf slot k ≠ SwapStore.sectorOf other k'
  /-- To count on from the first sector of a slot to one past the sector behind it stays in 32 bits. -/
  sector_fits : ∀ slot, slot < machine.swap.slotCount →
    SwapStore.sectorOf slot 0 + sectorsPerPage + 1 < 0x100000000

/-- What everything that is done with a swap store keeps. -/
structure Stores (stored : Nat → Option Page) (machine : Machine) : Prop where
  sound : machine.swap.slots.Sound
  sturdy : machine.swap.device.Sturdy
  onDevice : machine.swap.OnDevice
  size_lt : machine.swap.device.size < 0x100000000
  slotPage_eq : ∀ slot page, stored slot = some page → machine.swap.device.disk.slotPage slot = page

section

variable {stored stored' : Nat → Option Page} {machine after : Machine} {slot frame : Nat} {content : Page}

/-- A slot in use is ready for transfers. -/
theorem Stores.ready (h : machine.Stores stored) (hused : machine.swap.isUsed slot = true) :
    machine.swap.Ready slot := ⟨hused, h.sturdy, h.onDevice⟩

/-- The store is written in some slots, which hold what they are known to hold. -/
theorem Stores.keeps {touched : List Nat} (h : machine.Stores stored)
    (hkeeps : machine.swap.Keeps touched after.swap)
    (hothers : ∀ slot, slot ∉ touched → stored' slot = stored slot)
    (htouched : ∀ slot page, slot ∈ touched → stored' slot = some page →
      after.swap.device.disk.slotPage slot = page) :
    after.Stores stored' where
  sound := by
    rw [hkeeps.slots_eq]
    exact h.sound
  sturdy := hkeeps.sturdy h.sturdy
  onDevice := hkeeps.onDevice h.onDevice
  size_lt := by
    rw [hkeeps.size_eq]
    exact h.size_lt
  slotPage_eq := by
    intro slot page hpage
    by_cases hmem : slot ∈ touched
    · exact htouched slot page hmem hpage
    · rw [hkeeps.slotPage_eq hmem]
      exact h.slotPage_eq slot page (hothers slot hmem ▸ hpage)

/-- What touches no slot keeps what the store holds. -/
theorem Stores.same (h : machine.Stores stored) (hkeeps : machine.swap.Keeps [] after.swap) :
    after.Stores stored :=
  h.keeps hkeeps (fun _ _ => rfl) fun _ _ hmem => absurd hmem List.not_mem_nil

/-- Slots are claimed or given back. -/
theorem Stores.setSlots (h : machine.Stores stored) {slots : SlotBitmap} (hsound : slots.Sound)
    (hcount : slots.count = machine.swap.slots.count) :
    Machine.Stores stored { machine with swap := { machine.swap with slots } } where
  sound := hsound
  sturdy := h.sturdy
  onDevice := by
    rw [SwapStore.OnDevice, SwapStore.slotCount, hcount]
    exact h.onDevice
  size_lt := h.size_lt
  slotPage_eq := h.slotPage_eq

/-- What is done before a transition keeps what the store holds. -/
theorem Stores.flips (h : machine.Stores stored) (hflips : Flips machine after) : after.Stores stored :=
  h.same (hflips.keeps _)

/-- To claim a slot keeps what the store holds. -/
theorem Stores.allocate {answer : Option Nat} (h : machine.Stores stored)
    (hrun : Transition.allocateSlot machine = .ok answer after) : after.Stores stored := by
  have hyields : Transition.Yields Transition.allocateSlot machine fun _ after => after.Stores stored := by
    rw [Transition.yields_allocateSlot]
    intro slot slots hclaim
    rcases h.sound.allocate with ⟨heq, -⟩ | ⟨slot', slots', heq, hsound, hcount, -⟩
    · cases heq.symm.trans hclaim
      exact h.setSlots h.sound rfl
    · cases heq.symm.trans hclaim
      exact h.setSlots hsound hcount
  exact hyields answer after hrun

/-- To give a slot back keeps what the store holds. -/
theorem Stores.release (h : machine.Stores stored) (hused : machine.swap.isUsed slot = true)
    (hrun : Transition.releaseSlot slot machine = .ok () after) : after.Stores stored := by
  have hyields : (Transition.releaseSlot slot).Yields machine fun _ after => after.Stores stored := by
    rw [Transition.yields_releaseSlot]
    intro slots hfree
    obtain ⟨slots', heq, hsound, hcount, -⟩ := h.sound.free hused
    cases heq.symm.trans hfree
    exact h.setSlots hsound hcount
  exact hyields () after hrun

/-- A slot that was written holds the page of the frame, or nothing that is known if the write failed. -/
theorem Stores.write {outcome : Except BlockError Unit} (h : machine.Stores stored)
    (hused : machine.swap.isUsed slot = true) (hcontent : machine.frames.memory.page frame = .ok content)
    (hrun : (Kernel.writeSlot slot frame : Woven Flips _) machine (.ok outcome after)) :
    after.Stores (Function.update stored slot (outcome.toOption.map fun _ => content)) := by
  obtain ⟨-, hkeeps, hheld⟩ := (Woven.answers_writeSlot (h.ready hused) hcontent).of_ok hrun
  refine h.keeps hkeeps (fun other hother => ?_) fun other page hother hpage => ?_
  · exact Function.update_of_ne (List.mem_singleton.not.mp hother) _ _
  · obtain rfl := List.mem_singleton.mp hother
    rw [Function.update_self] at hpage
    cases outcome with
    | error cause => cases hpage
    | ok u =>
      cases hpage
      exact hheld

/-- To read a slot keeps what the store holds. -/
theorem Stores.read {outcome : Except BlockError Unit} (h : machine.Stores stored)
    (hused : machine.swap.isUsed slot = true) (hframe : frame < machine.frames.memory.size)
    (hrun : (Kernel.readSlot slot frame : Woven Flips _) machine (.ok outcome after)) :
    after.Stores stored :=
  h.same ((Woven.answers_readSlot (h.ready hused) hframe).of_ok hrun).2.1

/-- What is read from a slot is the page in its sectors. -/
theorem Stores.readsAs (h : machine.Stores stored) (slot : Nat) :
    machine.ReadsAs slot (machine.swap.device.disk.slotPage slot) := by
  intro frame after hused hframe hrun
  exact ((Woven.answers_readSlot (h.ready hused) hframe).of_ok hrun).2.2

/-- A store that holds what is known of it keeps its pages apart: reads and writes touch one slot, and slots
do not overlap. -/
theorem Stores.keepsApart (h : machine.Stores stored) : machine.PagesApart stored where
  reads := by
    intro slot page hpage
    rw [← h.slotPage_eq slot page hpage]
    exact h.readsAs slot
  apart := by
    intro slot frame outcome after hused hframe hrun other hother
    obtain ⟨content, hcontent⟩ := Transition.exists_page hframe
    obtain ⟨-, hkeeps, -⟩ := (Woven.answers_writeSlot (h.ready hused) hcontent).of_ok hrun
    refine ⟨_, h.readsAs other, ?_⟩
    rw [← hkeeps.slotPage_eq (List.mem_singleton.not.mpr hother)]
    exact (h.write hused hcontent hrun).readsAs other
  writes := by
    intro slot frame hused hframe
    obtain ⟨content, hcontent⟩ := Transition.exists_page hframe
    refine (Woven.answers_writeSlot (h.ready hused) hcontent).mono ?_
    rintro outcome after ⟨-, hkeeps, houtcome⟩
    refine ⟨hkeeps.slots_eq, ?_⟩
    cases outcome with
    | ok u => exact .inl rfl
    | error cause => exact .inr (congrArg Except.error houtcome)
  reads_from := by
    intro slot frame hused hframe
    refine (Woven.answers_readSlot (h.ready hused) hframe).mono ?_
    rintro outcome after ⟨-, hkeeps, houtcome⟩
    refine ⟨hkeeps.slots_eq, ?_⟩
    cases outcome with
    | ok u => exact .inl rfl
    | error cause => exact .inr (congrArg Except.error houtcome)
  works := by
    intro slot frame hused hframe hreads hwrites
    have hfails := SwapStore.not_fails h.sturdy h.onDevice hreads hwrites
    refine ⟨(Transition.answers_writeSlot hframe hused).mono ?_,
      (Transition.answers_readSlot hframe hused).mono ?_⟩
    · rintro outcome after ⟨-, hcause⟩
      cases outcome with
      | ok u => rfl
      | error cause => exact absurd (hcause cause rfl) (hfails cause)
    · intro outcome after hcause
      cases outcome with
      | ok u => rfl
      | error cause => exact absurd (hcause cause rfl) (hfails cause)
  sectorOf_lt := fun slot k hslot => h.onDevice.sectorOf_lt hslot k
  sectorOf_ne := by
    intro slot other k k' hne heq
    apply hne
    rw [← SwapStore.sectorOf_div slot k, heq, SwapStore.sectorOf_div]
  sector_fits := by
    intro slot hslot
    have hfits := h.onDevice
    have hsize := h.size_lt
    simp only [SwapStore.OnDevice, SwapStore.sectorOf, sectorsPerPage] at *
    omega

end

end Machine

/-- A store that has just been made holds nothing that is known. -/
theorem Machine.stores_ofDevice {machine : Machine} {device : Block}
    (hswap : machine.swap = .ofDevice device) (hsize : device.size < 0x100000000)
    (hsectors : device.size ≤ device.disk.sectors) (hkind : device.kind ≠ .foreign) :
    machine.Stores fun _ => none where
  sound := by
    rw [hswap]
    exact SlotBitmap.sound_ofCount _
  sturdy := by
    rw [hswap]
    exact ⟨hsectors, hkind⟩
  onDevice := by
    rw [hswap]
    exact Nat.div_mul_le_self _ _
  size_lt := by
    rw [hswap]
    exact hsize
  slotPage_eq := by
    intro slot page hpage
    cases hpage

/-- Whatever was done with a store, it holds what is known of it. -/
theorem StoreRun.stores {start machine : Machine} {stored : Nat → Option Page}
    (hstart : start.Stores fun _ => none) (h : StoreRun start stored machine) :
    machine.Stores stored := by
  induction h with
  | nil => exact hstart
  | turn _ hflips ih => exact ih.flips hflips
  | allocate _ hrun ih =>
    obtain ⟨met, hflips, heq⟩ := hrun
    exact (ih.flips hflips).allocate heq.symm
  | release _ hused hrun ih =>
    obtain ⟨met, hflips, heq⟩ := hrun
    refine (ih.flips hflips).release ?_ heq.symm
    rw [SwapStore.isUsed, (hflips.keeps []).slots_eq]
    exact hused
  | fill _ hrun ih =>
    obtain ⟨met, hflips, heq⟩ := hrun
    cases heq
    exact (ih.flips hflips).same (.refl _ _)
  | write _ hused hcontent hrun ih => exact ih.write hused hcontent hrun
  | read _ hused hframe hrun ih => exact ih.read hused hframe hrun

/-- On a device that only its switches can make fail, whatever was done with the store before, the pages
in it are kept apart: each slot gives back what it was given last. -/
theorem StoreRun.pagesApart {start machine : Machine} {device : Block} {stored : Nat → Option Page}
    (hswap : start.swap = .ofDevice device) (hsize : device.size < 0x100000000)
    (hsectors : device.size ≤ device.disk.sectors) (hkind : device.kind ≠ .foreign)
    (h : StoreRun start stored machine) : machine.PagesApart stored :=
  (h.stores (stores_ofDevice hswap hsize hsectors hkind)).keepsApart

/-! ### A run -/

/-- What a transition does by itself may come about while switches are turned. -/
theorem Woven.atomically_of_run {α : Type} {step : Transition α} {machine after : Machine} {a : α}
    (hrun : step machine = .ok a after) :
    (Kernel.atomically step : Woven Flips α) machine (.ok a after) :=
  ⟨machine, flips_refl machine, hrun.symm⟩

/-- What a write does by itself may come about while switches are turned. -/
theorem Woven.writeSlot_of_run {slot frame : Nat} {machine after : Machine}
    {outcome : Except BlockError Unit}
    (hrun : (Kernel.writeSlot slot frame : Transition _) machine = .ok outcome after) :
    (Kernel.writeSlot slot frame : Woven Flips _) machine (.ok outcome after) := by
  rw [← hrun]
  exact (Woven.admission flips_refl).writeSlot slot frame machine

/-- A frame that was filled has what it was filled with. -/
theorem Transition.eq_of_setPage {frame : Nat} {content found : Page} {machine after : Machine}
    (hrun : setPage frame content machine = .ok () after)
    (hfound : after.frames.memory.page frame = .ok found) : found = content := by
  cases hrun
  simp only [FrameMemory.page, FrameMemory.setPage, Array.getElem?_setIfInBounds_self] at hfound
  by_cases hlt : frame < machine.frames.memory.pages.size
  · rw [if_pos hlt] at hfound
    exact (Except.ok.inj hfound).symm
  · rw [if_neg hlt] at hfound
    cases hfound

/-- A write that answers was of a frame that there is, to a slot in use. -/
theorem Transition.of_writeSlot {slot frame : Nat} {machine after : Machine}
    {outcome : Except BlockError Unit}
    (hrun : (Kernel.writeSlot slot frame : Transition _) machine = .ok outcome after) :
    machine.swap.isUsed slot = true ∧ ∃ content, machine.frames.memory.page frame = .ok content := by
  have hyields : (Kernel.writeSlot slot frame : Transition _).Yields machine fun _ _ =>
      machine.swap.isUsed slot = true ∧ ∃ content, machine.frames.memory.page frame = .ok content := by
    simp only [Kernel.writeSlot, requireFrame, requireUsed, page, lift_eq, holding_eq, yields_bind,
      yields_frames, yields_swap, yields_ofExcept, yields_pure]
    intro content hcontent
    refine yields_ite (fun hused => yields_pure.mpr ?_) fun _ => yields_throw.mpr trivial
    exact fun _ _ _ _ _ _ => ⟨hused, content, hcontent⟩
  exact hyields outcome after hrun

/-- Two slots are claimed, a page is written to the first, and the write of another page to the second is
refused by the disk. -/
def fillTwoSlots (first second : Page) :
    Transition (Except BlockError Unit × Except BlockError Unit) := do
  let _ ← Transition.allocateSlot
  let _ ← Transition.allocateSlot
  Transition.setPage 0 first
  let written ← Kernel.writeSlot 0 0
  Transition.setPage 0 second
  Transition.modifyDisk ({ · with failWrites := true })
  let refused ← Kernel.writeSlot 1 0
  return (written, refused)

/-- After that the first slot gives back the first page. -/
theorem pagesApart_sample : ∃ stored machine, StoreRun .sample stored machine ∧
    stored 0 = some (Vector.replicate pageSize 7) ∧ stored 1 = none ∧
      machine.swap.isUsed 0 = true ∧ machine.PagesApart stored := by
  have hfacts : (match fillTwoSlots (Vector.replicate pageSize 7) .blank .sample with
      | .ok (written, refused) after =>
        written.toOption = some () && refused.toOption = none && after.swap.isUsed 0
      | .error _ _ => false) = true := by decide +kernel
  split at hfacts
  · rename_i written refused after hrun
    obtain ⟨_, m₁, hfirst, hrun⟩ := Transition.ok_of_bind hrun
    obtain ⟨_, m₂, hsecond, hrun⟩ := Transition.ok_of_bind hrun
    obtain ⟨_, m₃, hfill, hrun⟩ := Transition.ok_of_bind hrun
    obtain ⟨_, m₄, hwrite, hrun⟩ := Transition.ok_of_bind hrun
    obtain ⟨_, m₅, hrefill, hrun⟩ := Transition.ok_of_bind hrun
    obtain ⟨_, m₆, hturn, hrun⟩ := Transition.ok_of_bind hrun
    obtain ⟨_, m₇, hrefuse, hend⟩ := Transition.ok_of_bind hrun
    cases hend
    simp only [Bool.and_eq_true, decide_eq_true_eq] at hfacts
    obtain ⟨⟨hwritten, hrefused⟩, hstill⟩ := hfacts
    obtain ⟨hused, content, hcontent⟩ := Transition.of_writeSlot hwrite
    obtain rfl := Transition.eq_of_setPage hfill hcontent
    obtain ⟨hused', content', hcontent'⟩ := Transition.of_writeSlot hrefuse
    have hturns : Flips m₅ m₆ := by
      cases hturn
      exact ⟨_, true, rfl⟩
    have hruns : StoreRun .sample _ after :=
      .write (.turn (.fill (.write (.fill (.allocate (.allocate .nil (Woven.atomically_of_run hfirst))
        (Woven.atomically_of_run hsecond)) (Woven.atomically_of_run hfill)) hused hcontent
          (Woven.writeSlot_of_run hwrite)) (Woven.atomically_of_run hrefill)) hturns) hused' hcontent'
            (Woven.writeSlot_of_run hrefuse)
    refine ⟨_, after, hruns, ?_, ?_, hstill,
      StoreRun.pagesApart rfl (by decide) (by decide) (by decide) hruns⟩
    · rw [Function.update_of_ne (by decide), Function.update_self, hwritten, Option.map_some]
    · rw [Function.update_self, hrefused, Option.map_none]
  · cases hfacts

end DemandPaging
