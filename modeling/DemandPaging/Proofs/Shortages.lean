import DemandPaging.Proofs.AnsweredFaults
import DemandPaging.Proofs.ChangedPages
import DemandPaging.Proofs.InvisiblePlacements

/-!
# Faults fail only for a shortage

Along a run a fault that is fatal has found a real shortage: there are no frames at all, or all frames
and all slots are in use, or the swap device or a file has a fault. That no victim is found never
happens (`Run.resolveFault_shortage`).

On a machine that is `Equipped` with a frame, a free slot and sound devices, no fault is fatal
(`Machine.Equipped.not_lacks`); so a page that can be obtained is obtained. The last thing to see is that
an access to such a page is not invalid (`Machine.Obtains.not_invalid`).
-/

set_option autoImplicit false

namespace DemandPaging

open Spaces Machine

/-- There is a frame and a free slot, the swap disk is as large as its device and may be written, and no
switch of the disk or of a file makes a transfer fail. -/
structure Machine.Equipped (machine : Machine) : Prop where
  frames : 0 < machine.frames.capacity
  slots : machine.swap.usedCount < machine.swap.slotCount
  covered : machine.swap.device.size ≤ machine.swap.device.disk.sectors
  native : machine.swap.device.kind ≠ .foreign
  reads : machine.swap.device.disk.failReads = false
  writes : machine.swap.device.disk.failWrites = false
  files : ∀ (f : FileId) (file : MemoryFile), machine.files[f]? = some file →
    file.failing = false ∧ file.denied = false ∧ file.writeCap = 0

/-- Whether a machine is equipped can be computed, file by file. -/
instance (machine : Machine) : Decidable machine.Equipped :=
  decidable_of_iff (0 < machine.frames.capacity ∧ machine.swap.usedCount < machine.swap.slotCount ∧
      machine.swap.device.size ≤ machine.swap.device.disk.sectors ∧
      machine.swap.device.kind ≠ .foreign ∧ machine.swap.device.disk.failReads = false ∧
      machine.swap.device.disk.failWrites = false ∧ ∀ file ∈ machine.files,
        file.failing = false ∧ file.denied = false ∧ file.writeCap = 0)
    ⟨fun ⟨hframes, hslots, hcovered, hnative, hreads, hwrites, hfiles⟩ =>
        ⟨hframes, hslots, hcovered, hnative, hreads, hwrites,
          fun _ file hfile => hfiles file (Array.mem_of_getElem? hfile)⟩,
      fun h => ⟨h.frames, h.slots, h.covered, h.native, h.reads, h.writes, fun file hfile =>
        let ⟨f, hf⟩ := Array.mem_iff_getElem?.mp hfile
        h.files f file hf⟩⟩

/-- The page of an access can be had: it is in swap, or in a file that has all of its window, or it would
be a new page of the stack of a space that was not torn down. -/
inductive Machine.Obtains (machine : Machine) (s : SpaceId) (address stackPointer : Nat) : Prop where
  | swapped (copy : SwapCopy) (hcopy : copy? machine.spaces s (pageOf address) = some copy)
  | filed (segment : Segment) (file : MemoryFile)
      (hsegment : segment? machine.spaces s (pageOf address) = some segment)
      (hfile : machine.files[segment.file]? = some file)
      (hwithin : segment.offset + segment.readBytes ≤ file.size)
  | stack (hinfo : info? machine.spaces s (pageOf address) = none)
      (haccess : isStackAccess machine.stackLimit address stackPointer = true)
      (hbehind : pageSize ≤ address) (hlive : ¬ TornDown machine.spaces s)

section

variable {machine : Machine} {s : SpaceId} {address stackPointer : Nat}

/-! ### Nothing is lacking -/

/-- The device of an equipped machine has no fault at any slot. -/
theorem Machine.Equipped.not_fails (h : machine.Equipped) (hon : machine.swap.OnDevice)
    (cause : BlockError) : ¬ machine.swap.Fails cause :=
  SwapStore.not_fails ⟨h.covered, h.native⟩ hon h.reads h.writes cause

/-- A file without switches takes all windows of mapped files, which end below the kernel. -/
theorem not_rejects {file : MemoryFile} (hfailing : file.failing = false) (hdenied : file.denied = false)
    (hcap : file.writeCap = 0) {offset n : Nat} (hroom : offset + n ≤ kernelBase) (cause : FileError) :
    ¬ file.Rejects offset n cause := by
  have hlimit : ¬ maxFileSize - n < offset := by
    simp only [maxFileSize, kernelBase] at *
    omega
  have hnone : file.refuseWrite? offset n = none := by
    simp only [MemoryFile.refuseWrite?, hfailing, hdenied, Bool.false_eq_true, hlimit, if_false]
  rintro (hrefused | ⟨-, -, hshort⟩)
  · rw [hnone] at hrefused
    cases hrefused
  · rw [MemoryFile.accepted, if_pos hcap] at hshort
    exact Nat.lt_irrefl n hshort

/-- The window of a page of a mapped file ends below the kernel. -/
theorem Mapped.window_le {spaces : Array AddressSpace} (h : Mapped spaces) {p : Nat} {segment : Segment}
    (hsegment : segment? spaces s p = some segment) (hback : segment.writeBack = true) :
    segment.offset + segment.readBytes ≤ kernelBase := by
  obtain ⟨id, mapping, i, hmapping, hi, rfl⟩ := h.owned s p segment hsegment hback
  obtain ⟨length, hpages, hmappable, hwindows⟩ := h.windows s id mapping hmapping
  obtain rfl := Option.some.inj (hsegment.symm.trans (hwindows i hi))
  have hle := @mappedSegment_le mapping.file length i (hpages ▸ hi)
  obtain ⟨-, -, -, hbelow⟩ := hmappable
  have hlength : length ≤ pageCount length * pageSize := by
    simp only [pageCount, pageSize]
    omega
  omega

/-- An equipped machine lacks nothing. -/
theorem Machine.Equipped.not_lacks (h : machine.Equipped) (hon : machine.swap.OnDevice)
    (hmapped : Mapped machine.spaces) (cause : VmError) : ¬ machine.Lacks cause := by
  intro hlacks
  cases cause with
  | outOfFrames => exact Nat.ne_of_gt h.frames hlacks
  | swapFull => exact Nat.ne_of_lt h.slots hlacks.2
  | block cause => exact h.not_fails hon cause hlacks
  | writeBack cause =>
    obtain ⟨s, p, entry, segment, file, -, -, -, hsegment, hback, hfile, hrejects⟩ := hlacks
    obtain ⟨hfailing, hdenied, hcap⟩ := h.files segment.file file hfile
    exact not_rejects hfailing hdenied hcap (hmapped.window_le hsegment hback) cause hrejects
  | noVictim | file | alreadyRegistered | alreadyMapped | mapFailed | invalidMapping | destroyed =>
    exact hlacks

/-! ### Nothing is invalid -/

/-- An access to an unmapped page that can be had is not invalid. -/
theorem Machine.Obtains.not_invalid (h : machine.Obtains s address stackPointer)
    {changed : SpaceId → Nat → Prop} (hequipped : machine.Equipped) (hsettled : machine.Settled)
    (hmarked : Marked changed machine.spaces) {code : FaultCode} (hcode : code.present = false)
    (hunmapped : mapped? machine.spaces s (pageOf address) = none) :
    ¬ machine.Invalid s address stackPointer code := by
  have hmarks := hmarked s (pageOf address) (isAligned_pageOf address)
  -- a page with a window or a copy is a user page, not the first one, and its space is alive
  have huser : ∀ info, info? machine.spaces s (pageOf address) = some info →
      (segment? machine.spaces s (pageOf address)).isSome = true ∨
        (copy? machine.spaces s (pageOf address)).isSome = true →
      IsUser address ∧ pageSize ≤ address ∧ ¬ TornDown machine.spaces s := by
    intro info hinfo hhas
    obtain ⟨hbehind, hpage⟩ := hmarks.user (hhas.imp_right .inr)
    refine ⟨?_, ?_, fun ⟨standing, hstanding, hdestroyed⟩ => ?_⟩
    · simp only [IsUser, pageOf, kernelBase, pageSize] at *
      omega
    · exact Nat.le_trans hbehind (Nat.sub_le _ _)
    · have hnone := ((hsettled.live.destroyed s standing hstanding hdestroyed).2 (pageOf address)).1
      rw [hinfo] at hnone
      cases hnone
  have hplace : IsUser address ∧ pageSize ≤ address ∧ ¬ TornDown machine.spaces s := by
    cases h with
    | swapped copy hcopy =>
      obtain ⟨info, hinfo, -⟩ := Option.bind_eq_some_iff.mp hcopy
      exact huser info hinfo (.inr (by rw [hcopy]; rfl))
    | filed segment file hsegment =>
      obtain ⟨info, hinfo, -⟩ := Option.bind_eq_some_iff.mp hsegment
      exact huser info hinfo (.inl (by rw [hsegment]; rfl))
    | stack hinfo haccess hbehind hlive =>
      simp only [isStackAccess, Bool.and_eq_true, decide_eq_true_eq] at haccess
      exact ⟨haccess.2, hbehind, hlive⟩
  intro hinvalid
  cases hinvalid with
  | outside hplace' =>
    exact hplace'.elim (absurd hplace.1) (Nat.not_lt_of_le hplace.2.1)
  | forbidden hpresent => rw [hcode] at hpresent; cases hpresent
  | tornDown standing hstanding hdestroyed => exact hplace.2.2 ⟨standing, hstanding, hdestroyed⟩
  | unknown hinfo haccess =>
    cases h with
    | swapped copy hcopy => rw [copy?, hinfo] at hcopy; cases hcopy
    | filed segment file hsegment => rw [segment?, hinfo] at hsegment; cases hsegment
    | stack _ haccess' => rw [haccess] at haccess'; cases haccess'
  | mapped hinfo hmapped => rw [hunmapped] at hmapped; cases hmapped
  | short segment file hnocopy hsegment hfile hshort =>
    cases h with
    | swapped copy hcopy => rw [hnocopy] at hcopy; cases hcopy
    | filed segment' file' hsegment' hfile' hwithin =>
      obtain rfl := Option.some.inj (hsegment.symm.trans hsegment')
      obtain rfl := Option.some.inj (hfile.symm.trans hfile')
      rcases hshort with hfailing | hends
      · rw [(hequipped.files segment.file file hfile).1] at hfailing
        cases hfailing
      · exact absurd hwithin (Nat.not_le_of_lt hends)
    | stack hinfo => rw [segment?, hinfo] at hsegment; cases hsegment
  | missing info hinfo hcopy hsegment =>
    cases h with
    | swapped copy hcopy' => rw [copy?, hinfo, Option.bind_some, hcopy] at hcopy'; cases hcopy'
    | filed segment' file hsegment' =>
      rw [segment?, hinfo, Option.bind_some, hsegment] at hsegment'
      cases hsegment'
    | stack hinfo' => rw [hinfo] at hinfo'; cases hinfo'

end

/-! ### Along a run -/

/-- A machine can bring pages in after any run. -/
theorem Run.able {start machine : Machine} (hfresh : start.Fresh)
    (hsmall : start.frames.capacity ≤ maxFrame + 1) {moments : List Moment}
    (h : Run start moments machine) : machine.Able where
  settled := (h.orderly hfresh.orderly).settled
  fits s p segment hsegment := by
    obtain ⟨info, hinfo, -⟩ := Option.bind_eq_some_iff.mp hsegment
    have hp := (Settled.fits (h.orderly hfresh.orderly).settled hinfo).aligned
    exact ((h.marked hfresh s p hp).proper segment hsegment).fits
  backed := (h.orderly hfresh.orderly).backed
  small := Nat.le_trans (Nat.le_of_eq (congrArg Sizes.frames (h.sizes_eq hfresh hsmall))) hsmall

section

variable {config : Config} {available : Nat} {device : Block} {moments : List Moment}
  {machine : Machine}

/-- No more frames than this are in the pool that a machine starts up with. -/
theorem Machine.capacity_boot_le (hsmall : config.poolFrames available ≤ maxFrame + 1) :
    (boot config available device).frames.capacity ≤ maxFrame + 1 :=
  Nat.le_trans (Nat.le_of_eq Array.size_replicate) hsmall

/-- All slots are on the device after any run. -/
theorem Run.onDevice (hsmall : config.poolFrames available ≤ maxFrame + 1)
    (h : Run (.boot config available device) moments machine) : machine.swap.OnDevice := by
  have hsizes := h.sizes_eq (fresh_boot config available device) (capacity_boot_le hsmall)
  have hslots : machine.swap.slotCount = device.size / sectorsPerPage := congrArg Sizes.slots hsizes
  have hsectors : machine.swap.device.size = device.size := congrArg Sizes.sectors hsizes
  rw [SwapStore.OnDevice, hslots, hsectors]
  exact Nat.div_mul_le_self _ _

/-- A fault is answered unless a counter of transfers is exhausted. If it is fatal, the machine lacked
what is named; if not, the access is to blame, and at its own address. A fault on an unmapped page that
can be had is resolved if the machine is equipped, and the page is mapped then. -/
theorem Run.resolveFault_shortage (hsmall : config.poolFrames available ≤ maxFrame + 1)
    (h : Run (.boot config available device) moments machine) {s : SpaceId}
    (hs : s < machine.spaces.size) (address stackPointer : Nat) (code : FaultCode) :
    Transition.Answers (Kernel.resolveFault s address stackPointer code) machine
      fun outcome after =>
        (match outcome with
          | .ok () => (mapped? after.spaces s (pageOf address)).isSome = true
          | .error (.fatal cause) => machine.Lacks cause
          | .error (.unrecoverable a) => a = address ∧ machine.Invalid s address stackPointer code) ∧
        (machine.Equipped → code.present = false → mapped? machine.spaces s (pageOf address) = none →
          machine.Obtains s address stackPointer → outcome = .ok ()) := by
  have hfresh := fresh_boot config available device
  have horderly := h.orderly hfresh.orderly
  refine (Transition.answers_resolveFault (h.able hfresh (capacity_boot_le hsmall)) hs address stackPointer
    code).mono ?_
  intro outcome after hafter
  refine ⟨?_, fun hequipped hcode hunmapped hobtains => ?_⟩
  · rcases outcome with (address | cause) | u
    · exact hafter
    · exact hafter
    · exact hafter
  · rcases outcome with (address | cause) | u
    · exact absurd hafter.2 (hobtains.not_invalid hequipped horderly.settled (h.marked hfresh) hcode
        hunmapped)
    · exact absurd hafter (hequipped.not_lacks (h.onDevice hsmall) horderly.mapped cause)
    · rfl

end

/-- A stack of two pages in one frame: an access to the page in swap brings it back. -/
theorem resolveFault_shortage_sample : ∃ moments machine after, Run .sample moments machine ∧
    machine.Equipped ∧ machine.Obtains 0 0x7ffff010 0 ∧
    (Kernel.resolveFault 0 0x7ffff010 0 (.notPresent false) : Transition _) machine =
      .ok (.ok ()) after ∧ (mapped? after.spaces 0 0x7ffff000).isSome = true := by
  obtain ⟨moments, machine, h, -, hfacts⟩ := @exists_run .sample [.addSpace 1,
    .call (.growStack 0 0x7ffff000), .call (.growStack 0 0x7fffe000)]
    (fun r => r.2.Equipped ∧ 0 < r.2.spaces.size ∧
      (mapped? r.2.spaces 0 0x7ffff000).isNone = true ∧
      (copy? r.2.spaces 0 0x7ffff000).isSome = true ∧
      (match (Kernel.resolveFault 0 0x7ffff010 0 (.notPresent false) : Transition _) r.2 with
        | .ok _ _ => true
        | .error _ _ => false) = true) (by decide +kernel)
  obtain ⟨hequipped, hspaces, hunmapped, hswapped, hanswers⟩ := of_decide_eq_true hfacts
  obtain ⟨copy, hcopy⟩ := Option.isSome_iff_exists.mp hswapped
  have hobtains : machine.Obtains 0 0x7ffff010 0 := .swapped copy hcopy
  split at hanswers
  · rename_i outcome after hrun
    obtain ⟨houtcome, hresolved⟩ := (@Run.resolveFault_shortage {} 1 _ moments machine (by decide) h 0
      hspaces 0x7ffff010 0 (.notPresent false)).of_ok hrun
    obtain rfl := hresolved hequipped rfl (Option.isNone_iff_eq_none.mp hunmapped) hobtains
    exact ⟨moments, machine, after, h, hequipped, hobtains, hrun, houtcome⟩
  · cases hanswers

/-- An access to the stack of a space that was torn down is invalid, whatever the machine has. -/
theorem resolveFault_tornDown_refused : ∃ moments machine after, Run .sample moments machine ∧
    moments.map (·.action) = [.addSpace 1, .call (.destroy 0)] ∧ machine.Equipped ∧
    mapped? machine.spaces 0 0x7ffff000 = none ∧ info? machine.spaces 0 0x7ffff000 = none ∧
    isStackAccess machine.stackLimit 0x7ffff000 0x7ffff000 = true ∧
    (Kernel.resolveFault 0 0x7ffff000 0x7ffff000 (.notPresent false) : Transition _) machine =
      .ok (.error (.unrecoverable 0x7ffff000)) after := by
  obtain ⟨moments, machine, h, hactions, hfacts⟩ := @exists_run .sample
    [.addSpace 1, .call (.destroy 0)]
    (fun r => r.2.Equipped ∧ (mapped? r.2.spaces 0 0x7ffff000).isNone = true ∧
      (info? r.2.spaces 0 0x7ffff000).isNone = true ∧
      isStackAccess r.2.stackLimit 0x7ffff000 0x7ffff000 = true ∧
      (match (Kernel.resolveFault 0 0x7ffff000 0x7ffff000 (.notPresent false) : Transition _) r.2 with
        | .ok outcome _ => decide (outcome = .error (.unrecoverable 0x7ffff000))
        | .error _ _ => false) = true) (by decide +kernel)
  obtain ⟨hequipped, hunmapped, hunknown, haccess, hrefused⟩ := of_decide_eq_true hfacts
  split at hrefused
  · rename_i outcome after hrun
    obtain rfl := of_decide_eq_true hrefused
    exact ⟨moments, machine, after, h, hactions, hequipped, Option.isNone_iff_eq_none.mp hunmapped,
      Option.isNone_iff_eq_none.mp hunknown, haccess, hrun⟩
  · cases hrefused

end DemandPaging
