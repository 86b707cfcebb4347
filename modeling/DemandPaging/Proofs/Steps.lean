import DemandPaging.Proofs.Ensures
import DemandPaging.Proofs.Slots
import DemandPaging.Proofs.Spaces

/-!
# Primitive transitions

What each primitive transition ensures, in terms of the updates of `DemandPaging.Proofs.Spaces`.
With these rules `simp` carries an operation out step by step; the operation asks for a space, a file
or a frame, and the rule goes on with it under the assumption that there is one, since there is a
halt otherwise.
-/

set_option autoImplicit false

namespace DemandPaging

namespace Transition

open Spaces

variable {machine : Machine} {s : SpaceId} {p : Nat}

/-! ### Saying something, frames and swap -/

/-- What is said comes last among the notices. -/
@[simp] theorem ensures_notify {notice : Notice} {post : Unit → Machine → Prop} :
    Ensures (notify notice) machine post ↔
      post () { machine with notices := machine.notices.push notice } := Iff.rfl

/-- The stack limit is read, and nothing else happens. -/
@[simp] theorem ensures_stackLimit {post : Nat → Machine → Prop} :
    Ensures stackLimit machine post ↔ post machine.stackLimit machine := Iff.rfl

/-- The frame table is read, and nothing else happens. -/
@[simp] theorem ensures_frames {post : FrameTable → Machine → Prop} :
    Ensures frames machine post ↔ post machine.frames machine := Iff.rfl

/-- The frame table is replaced as a whole. -/
@[simp] theorem ensures_setFrames {table : FrameTable} {post : Unit → Machine → Prop} :
    Ensures (setFrames table) machine post ↔ post () { machine with frames := table } := Iff.rfl

/-- The swap store is read, and nothing else happens. -/
@[simp] theorem ensures_swap {post : SwapStore → Machine → Prop} :
    Ensures swap machine post ↔ post machine.swap machine := Iff.rfl

/-- The swap store is replaced as a whole. -/
@[simp] theorem ensures_setSwap {store : SwapStore} {post : Unit → Machine → Prop} :
    Ensures (setSwap store) machine post ↔ post () { machine with swap := store } := Iff.rfl

/-! ### Address spaces -/

/-- A space is read, if there is one. -/
@[simp] theorem ensures_space {post : AddressSpace → Machine → Prop} :
    Ensures (space s) machine post ↔
      ∀ space, machine.spaces[s]? = some space → post space machine := by
  simp only [space, ensures_bind, ensures_get]
  cases machine.spaces[s]? <;> simp [Halt.isDoubleRelease]

/-- The page directory of a space is read, if there is such a space. -/
@[simp] theorem ensures_directory {post : PageDirectory → Machine → Prop} :
    Ensures (directory s) machine post ↔
      ∀ space, machine.spaces[s]? = some space → post space.directory machine := by
  simp [directory]

/-- The supplemental page table of a space is read, if there is such a space. -/
@[simp] theorem ensures_supplement {post : Supplement → Machine → Prop} :
    Ensures (supplement s) machine post ↔
      ∀ space, machine.spaces[s]? = some space → post space.supplement machine := by
  simp [supplement]

/-- A space that is there is read without a halt. -/
theorem run_space {found : AddressSpace} (hspace : machine.spaces[s]? = some found) :
    space s machine = .ok found machine := by
  have hget : (get : Transition Machine) machine = .ok machine machine := rfl
  rw [space, run_bind hget, hspace]
  rfl

/-- The supplemental page table of a space that is there is read without a halt. -/
theorem run_supplement {found : AddressSpace} (hspace : machine.spaces[s]? = some found) :
    supplement s machine = .ok found.supplement machine := by
  rw [supplement, run_bind (run_space hspace)]
  rfl

/-- A space is changed in place, and nothing happens if there is none. -/
@[simp] theorem ensures_modifySpace {f : AddressSpace → AddressSpace}
    {post : Unit → Machine → Prop} :
    Ensures (modifySpace s f) machine post ↔
      post () { machine with spaces := machine.spaces.modify s f } := Iff.rfl

/-- The page directory of a space is replaced. -/
@[simp] theorem ensures_setDirectory {d : PageDirectory} {post : Unit → Machine → Prop} :
    Ensures (setDirectory s d) machine post ↔
      post () { machine with
        spaces := machine.spaces.modify s fun space => { space with directory := d } } := Iff.rfl

/-- The supplemental page table of a space is replaced. -/
@[simp] theorem ensures_setSupplement {table : Supplement} {post : Unit → Machine → Prop} :
    Ensures (setSupplement s table) machine post ↔
      post () { machine with
        spaces := machine.spaces.modify s fun space => { space with supplement := table } } :=
  Iff.rfl

/-- An entry of a supplemental page table is changed, in terms of `amend`. -/
@[simp] theorem ensures_modifyInfo {f : PageInfo → PageInfo} {post : Unit → Machine → Prop} :
    Ensures (modifyInfo s p f) machine post ↔
      post () { machine with spaces := amend machine.spaces s p f } := Iff.rfl

/-- The accessed mark of a page is set, in terms of `mark`. -/
@[simp] theorem ensures_setAccessed {on : Bool} {post : Unit → Machine → Prop} :
    Ensures (setAccessed s p on) machine post ↔
      post () { machine with
        spaces := mark machine.spaces s p fun e => { e with accessed := on } } := Iff.rfl

/-- The dirty mark of a page is set, in terms of `mark`. -/
@[simp] theorem ensures_setDirty {on : Bool} {post : Unit → Machine → Prop} :
    Ensures (setDirty s p on) machine post ↔
      post () { machine with
        spaces := mark machine.spaces s p fun e => { e with dirty := on } } := Iff.rfl

/-- A page is unmapped, and what it was mapped to is answered. -/
@[simp] theorem ensures_clear {post : Option PageTableEntry → Machine → Prop} :
    Ensures (clear s p) machine post ↔
      ∀ space, machine.spaces[s]? = some space →
        post (mapped? machine.spaces s p) { machine with spaces := unmap machine.spaces s p } := by
  simp only [clear, ensures_bind, ensures_directory, ensures_setDirectory, ensures_pure]
  refine forall₂_congr fun space hs => ?_
  rw [modify_directory hs fun d => (d.clear p).2, mapped?_eq hs]
  rfl

/-- What a page is mapped to is answered, and nothing else happens. -/
@[simp] theorem ensures_findEntry {post : Option PageTableEntry → Machine → Prop} :
    Ensures (Kernel.findEntry s p) machine post ↔
      ∀ space, machine.spaces[s]? = some space → post (mapped? machine.spaces s p) machine := by
  simp only [Kernel.findEntry, lift_eq, interrupt_eq, ensures_bind, ensures_directory,
    ensures_pure]
  refine forall₂_congr fun space hs => ?_
  rw [mapped?_eq hs]

/-- To read the supplemental page table under its lock is no different. -/
@[simp] theorem ensures_kernelSupplement {post : Supplement → Machine → Prop} :
    Ensures (Kernel.supplement s) machine post ↔
      ∀ space, machine.spaces[s]? = some space → post space.supplement machine :=
  ensures_supplement

/-- A directory that turns nothing down maps a page that is not mapped yet, and leaves one alone that
is. -/
theorem ensures_install {frame : Nat} {writable : Bool} {post : Bool → Machine → Prop}
    (hrefusals : ∀ standing, standing? machine.spaces s = some standing → standing.refusals = 0)
    (hmapped : ∀ e, mapped? machine.spaces s p = some e → post false machine)
    (hfree : s < machine.spaces.size → mapped? machine.spaces s p = none → frame ≤ maxFrame →
      post true { machine with
        spaces := map machine.spaces s p (.userPage (BitVec.ofNat 20 frame) writable) }) :
    Ensures (install s p frame writable) machine post := by
  simp only [install, ensures_bind, ensures_directory]
  intro space hs
  have hzero : space.directory.refusals = 0 := hrefusals _ (standing?_eq hs)
  have hsize : s < machine.spaces.size := (Array.getElem?_eq_some_iff.mp hs).1
  rw [PageDirectory.install, if_neg (by omega)]
  by_cases halign : IsAligned p
  · rw [if_neg (not_not_intro halign)]
    rw [mapped?_eq hs] at hmapped hfree
    cases hentry : space.directory.find? p with
    | some e =>
      have hc : space.directory.entries.contains (pageNumber p) = true := by
        rw [Std.ExtTreeMap.contains_eq_isSome_getElem?]
        exact (congrArg Option.isSome hentry).trans rfl
      simp only [hc, if_true, ensures_ofExcept, Except.ok.injEq, reduceCtorEq, false_implies,
        implies_true, and_true]
      rintro _ rfl
      simp only [ensures_setDirectory, ensures_pure]
      rw [modify_directory hs fun d => d, onDirectory_eq_self fun _ _ => rfl]
      exact hmapped e hentry
    | none =>
      have hc : space.directory.entries.contains (pageNumber p) = false := by
        rw [Std.ExtTreeMap.contains_eq_isSome_getElem?]
        exact (congrArg Option.isSome hentry).trans rfl
      by_cases hframe : frame ≤ maxFrame
      · have hpage : PageTableEntry.userPage? frame writable =
            some (.userPage (BitVec.ofNat 20 frame) writable) := if_pos hframe
        simp only [hc, hpage, Bool.false_eq_true, if_false, ensures_ofExcept, Except.ok.injEq,
          reduceCtorEq, false_implies, implies_true, and_true]
        rintro _ rfl
        simp only [ensures_setDirectory, ensures_pure]
        rw [modify_directory hs fun d => { d with entries := d.entries.insert (pageNumber p) _ }]
        exact hfree hsize hentry hframe
      · have hpage : PageTableEntry.userPage? frame writable = none := if_neg hframe
        simp [hc, hpage, Halt.isDoubleRelease]
  · rw [if_pos halign]
    simp [Halt.isDoubleRelease]

/-- A page that is not mapped yet can be mapped, and its entry names the frame. -/
theorem ensures_install_unmapped {frame : Nat} {writable : Bool} {post : Bool → Machine → Prop}
    (hrefusals : ∀ standing, standing? machine.spaces s = some standing → standing.refusals = 0)
    (hunmapped : mapped? machine.spaces s p = none)
    (hpost : ∀ entry : PageTableEntry, s < machine.spaces.size → entry.frame.toNat = frame →
      post true { machine with spaces := map machine.spaces s p entry }) :
    Ensures (install s p frame writable) machine post := by
  refine ensures_install hrefusals (fun e hmapped => ?_) fun hsize _ hframe => hpost _ hsize ?_
  · rw [hunmapped] at hmapped
    cases hmapped
  · simp only [PageTableEntry.userPage, BitVec.toNat_ofNat, maxFrame] at hframe ⊢
    omega

/-- A user access: it is refused as a fault, or the page is marked as used. -/
@[simp] theorem ensures_translate {write : Bool} {post : Except FaultCode Nat → Machine → Prop} :
    Ensures (Kernel.translate s p write) machine post ↔
      ∀ space, machine.spaces[s]? = some space →
        match mapped? machine.spaces s p with
        | none => post (.error (.notPresent write)) machine
        | some e =>
          if write && !e.writable then post (.error (.protection write)) machine
          else post (.ok e.frame.toNat)
            { machine with spaces := mark machine.spaces s p (·.touch write) } := by
  simp only [Kernel.translate, lift_eq, interrupt_eq, ensures_bind, ensures_directory,
    ensures_setDirectory, ensures_pure]
  refine forall₂_congr fun space hs => ?_
  rw [mapped?_eq hs]
  have hself : (machine.spaces.modify s fun space' =>
      { space' with directory := space.directory }) = machine.spaces := by
    rw [modify_directory hs fun d => d, onDirectory_eq_self fun _ _ => rfl]
  cases hentry : space.directory.find? p with
  | none => simp only [PageDirectory.translate, hentry, hself]
  | some e =>
    simp only [PageDirectory.translate, hentry]
    split
    · simp only [hself]
    · rw [modify_directory hs fun d => d.modify p (·.touch write)]
      rfl

/-! ### Contents of frames -/

/-- The contents of a frame can only be missing because there is no such frame. -/
theorem eq_outOfBounds_of_page {memory : FrameMemory} {frame : Nat} {halt : Halt}
    (h : memory.page frame = .error halt) : halt = .outOfBounds := by
  unfold FrameMemory.page at h
  cases hp : memory.pages[frame]? with
  | none =>
    rw [hp] at h
    exact (Except.error.inj h).symm
  | some content =>
    rw [hp] at h
    cases h

/-- The contents of a frame are read, if there is such a frame. -/
@[simp] theorem ensures_page {frame : Nat} {post : Page → Machine → Prop} :
    Ensures (page frame) machine post ↔
      ∀ content, machine.frames.memory.page frame = .ok content → post content machine := by
  simp only [page, ensures_bind, ensures_frames, ensures_ofExcept]
  refine and_iff_left fun halt h => ?_
  rw [eq_outOfBounds_of_page h]
  rfl

/-- The contents of a frame are replaced. -/
@[simp] theorem ensures_setPage {frame : Nat} {content : Page} {post : Unit → Machine → Prop} :
    Ensures (setPage frame content) machine post ↔
      post () { machine with frames := { machine.frames with
        memory := machine.frames.memory.setPage frame content } } := Iff.rfl

/-- A frame that is there is cleared. -/
@[simp] theorem ensures_zero {frame : Nat} {post : Unit → Machine → Prop} :
    Ensures (zero frame) machine post ↔
      ∀ content, machine.frames.memory.page frame = .ok content →
        post () { machine with frames := { machine.frames with
          memory := machine.frames.memory.setPage frame Page.blank } } := by
  simp only [zero, ensures_bind, ensures_frames, ensures_ofExcept, ensures_setFrames,
    FrameMemory.zero]
  cases h : machine.frames.memory.page frame with
  | ok content => simp
  | error halt =>
    rw [eq_outOfBounds_of_page h]
    simp [Halt.isDoubleRelease]

/-- A window of a frame is read, if it lies within the frame. -/
@[simp] theorem ensures_readFrame {frame start n : Nat} {post : Bytes → Machine → Prop} :
    Ensures (readFrame frame start n) machine post ↔
      ∀ content, machine.frames.memory.page frame = .ok content → start + n ≤ pageSize →
        post (content.window start n) machine := by
  simp only [readFrame, ensures_bind, ensures_frames, ensures_ofExcept, FrameMemory.read]
  cases h : machine.frames.memory.page frame with
  | ok content =>
    by_cases hle : start + n ≤ pageSize
    · simp [hle]
    · simp [hle, Halt.isDoubleRelease]
  | error halt =>
    rw [eq_outOfBounds_of_page h]
    simp [Halt.isDoubleRelease]

/-- A window of a frame is written, if it lies within the frame. -/
@[simp] theorem ensures_writeFrame {frame start : Nat} {data : Bytes}
    {post : Unit → Machine → Prop} :
    Ensures (writeFrame frame start data) machine post ↔
      ∀ content, machine.frames.memory.page frame = .ok content → start + data.size ≤ pageSize →
        post () { machine with frames := { machine.frames with
          memory := machine.frames.memory.setPage frame (content.store start data) } } := by
  simp only [writeFrame, ensures_bind, ensures_frames, ensures_ofExcept, ensures_setFrames,
    FrameMemory.write]
  cases h : machine.frames.memory.page frame with
  | ok content =>
    by_cases hle : start + data.size ≤ pageSize
    · simp [hle]
    · simp [hle, Halt.isDoubleRelease]
  | error halt =>
    rw [eq_outOfBounds_of_page h]
    simp [Halt.isDoubleRelease]

/-! ### Files -/

/-- A file is read as a whole, if there is one. -/
@[simp] theorem ensures_file {f : FileId} {post : MemoryFile → Machine → Prop} :
    Ensures (file f) machine post ↔
      ∀ file, machine.files[f]? = some file → post file machine := by
  simp only [file, ensures_bind, ensures_get]
  cases machine.files[f]? <;> simp [Halt.isDoubleRelease]

/-- A file is read from, and keeps count of that. -/
@[simp] theorem ensures_readFile {f : FileId} {offset n : Nat}
    {post : Except FileError Bytes → Machine → Prop} :
    Ensures (readFile f offset n) machine post ↔
      ∀ file, machine.files[f]? = some file →
        post (file.read offset n).1
          { machine with files := machine.files.setIfInBounds f (file.read offset n).2 } := by
  simp only [readFile, ensures_bind, ensures_file]
  rfl

/-- A file is written to, and keeps count of that. -/
@[simp] theorem ensures_writeFile {f : FileId} {offset : Nat} {data : Bytes}
    {post : Except FileError Nat → Machine → Prop} :
    Ensures (writeFile f offset data) machine post ↔
      ∀ file, machine.files[f]? = some file →
        post (file.write offset data).1
          { machine with files := machine.files.setIfInBounds f (file.write offset data).2 } := by
  simp only [writeFile, ensures_bind, ensures_file]
  rfl

/-! ### Swap slots -/

/-- A slot is claimed: there is none, or one that was not in use is from now on. -/
theorem ensures_allocateSlot {post : Option Nat → Machine → Prop}
    (hsound : machine.swap.slots.Sound) (hnone : post none machine)
    (hsome : ∀ slot slots, slots.Sound → machine.swap.slots.isUsed slot = false →
      (∀ x, slots.isUsed x = (machine.swap.slots.isUsed x || decide (x = slot))) →
      post (some slot) { machine with swap := { machine.swap with slots } }) :
    Ensures allocateSlot machine post := by
  simp only [allocateSlot, ensures_bind, ensures_swap, ensures_setSwap, ensures_pure,
    ensures_ofExcept, SwapStore.allocate]
  rcases hsound.allocate with ⟨heq, -⟩ | ⟨slot, slots, heq, hsound', hcount, hfree, hothers⟩
  · rw [heq]
    simpa using hnone
  · rw [heq]
    have hunused : machine.swap.slots.isUsed slot = false := by simp [SlotBitmap.isUsed, hfree]
    simpa using hsome slot slots hsound' hunused (SlotBitmap.isUsed_of_claim hcount hfree hothers)

/-- A slot in use is given back. -/
theorem ensures_releaseSlot {slot : Nat} {post : Unit → Machine → Prop}
    (hsound : machine.swap.slots.Sound) (hused : machine.swap.slots.isUsed slot = true)
    (hpost : ∀ slots, slots.Sound →
      (∀ x, slots.isUsed x = (machine.swap.slots.isUsed x && decide (x ≠ slot))) →
      post () { machine with swap := { machine.swap with slots } }) :
    Ensures (releaseSlot slot) machine post := by
  simp only [releaseSlot, ensures_bind, ensures_swap, ensures_setSwap, ensures_ofExcept,
    SwapStore.release]
  obtain ⟨slots, heq, hsound', hcount, hothers⟩ := hsound.free hused
  rw [heq]
  simpa using hpost slots hsound' (SlotBitmap.isUsed_of_release hcount hothers)

end Transition

end DemandPaging
