import DemandPaging.Proofs.Completions
import Mathlib.Logic.Relation

/-!
# Files whose switches are turned

While an operation runs, somebody may turn the switches of files, so that a file takes one write and
refuses the next. `Turned` is what that changes, and `Comes others before after` says that `after` may
come about from `before` when the work between two steps is `others` and the steps themselves leave
all switches as they are.
-/

set_option autoImplicit false

namespace DemandPaging

open Spaces Machine

namespace MemoryFile

/-- What is turned to make a file fail: it denies writes, it fails altogether, or it caps writes. -/
def switches (file : MemoryFile) : Bool × Bool × Nat := (file.denied, file.failing, file.writeCap)

/-- A write of `n` bytes at `offset` is served in full. -/
def Takes (file : MemoryFile) (offset n : Nat) : Prop :=
  file.refuseWrite? offset n = none ∧ file.accepted n = n

/-- Whether a write is served depends on the switches alone. -/
theorem Takes.congr {file file' : MemoryFile} {offset n : Nat}
    (hswitches : file'.switches = file.switches) (h : file.Takes offset n) :
    file'.Takes offset n := by
  simp only [switches, Prod.mk.injEq] at hswitches
  obtain ⟨hdenied, hfailing, hcap⟩ := hswitches
  simpa only [Takes, refuseWrite?, accepted, hdenied, hfailing, hcap] using h

/-- A write leaves the switches where they are. -/
theorem switches_write (file : MemoryFile) (offset : Nat) (data : Bytes) :
    (file.write offset data).2.switches = file.switches := by
  unfold write
  split <;> rfl

/-- A write that is served in full stores all of its bytes. -/
theorem Takes.write {file : MemoryFile} {offset : Nat} {data : Bytes}
    (h : file.Takes offset data.size) : (file.write offset data).1 = .ok data.size := by
  obtain ⟨hserved, hall⟩ := h
  have hwhole : (data.window 0 data.size).size = data.size := by
    rw [Bytes.size_window]
    omega
  simp only [MemoryFile.write, hserved, hall, hwhole]

/-- Why a file does not store all of `n` bytes at `offset`, if it does not. To store only some of them
counts as running out of room. -/
def shortfall? (file : MemoryFile) (offset n : Nat) : Option FileError :=
  (file.refuseWrite? offset n).or (if file.accepted n = n then none else some .noSpace)

/-- Nothing falls short exactly if the file stores all of the bytes. -/
theorem shortfall?_eq_none_iff {file : MemoryFile} {offset n : Nat} :
    file.shortfall? offset n = none ↔ file.Takes offset n := by
  unfold shortfall? Takes
  cases file.refuseWrite? offset n <;> simp

/-- Whether bytes are missing depends on the switches alone. -/
theorem shortfall?_congr {file file' : MemoryFile} (hswitches : file'.switches = file.switches)
    (offset n : Nat) : file'.shortfall? offset n = file.shortfall? offset n := by
  obtain ⟨_, denied, failing, writeCap, _, _⟩ := file
  obtain ⟨_, _, _, _, _, _⟩ := file'
  cases hswitches
  rfl

/-- A write that is refused stores nothing. -/
theorem shortfall?_of_error {file : MemoryFile} {offset : Nat} {data : Bytes} {cause : FileError}
    (h : (file.write offset data).1 = .error cause) : file.shortfall? offset data.size = some cause := by
  unfold write at h
  unfold shortfall?
  cases hrefuse : file.refuseWrite? offset data.size with
  | some cause' =>
    simp only [hrefuse, Except.error.injEq] at h
    rw [h, Option.some_or]
  | none => simp only [hrefuse, reduceCtorEq] at h

/-- A write that is served stores all bytes, or it is short. -/
theorem shortfall?_of_ok {file : MemoryFile} {offset stored : Nat} {data : Bytes}
    (h : (file.write offset data).1 = .ok stored) :
    file.shortfall? offset data.size = if stored = data.size then none else some .noSpace := by
  unfold write at h
  unfold shortfall?
  cases hrefuse : file.refuseWrite? offset data.size with
  | some cause => simp only [hrefuse, reduceCtorEq] at h
  | none =>
    simp only [hrefuse, size_window_accepted, Except.ok.injEq] at h
    rw [h, Option.none_or]

end MemoryFile

/-- If no file was written, it does not matter which windows there are. -/
theorem Files.Written.of_nil {spaces : Array AddressSpace} {files files' : Array MemoryFile}
    (h : Written [] spaces files files') (spaces' : Array AddressSpace) :
    Written [] spaces' files files' where
  size_eq := h.size_eq
  file f file hfile := by
    obtain ⟨file', hfile', hwrites, hcontent, -⟩ := h.file f file hfile
    refine ⟨file', hfile', hwrites, hcontent, .inl ?_⟩
    rw [MemoryFile.size, MemoryFile.size, hcontent List.not_mem_nil]

namespace Machine

/-- Switches of files were turned, and nothing else has changed. -/
def Turned (before after : Machine) : Prop :=
  ∃ files, after = { before with files } ∧ Files.Written [] before.spaces before.files files

/-- The switches of all files are where they were. -/
def SameSwitches (before after : Machine) : Prop :=
  ∀ f : FileId, after.files[f]?.map (·.switches) = before.files[f]?.map (·.switches)

/-- The one machine may come about from the other if others work between steps that leave all
switches as they are. -/
def Comes (others : Machine → Machine → Prop) : Machine → Machine → Prop :=
  Relation.ReflTransGen fun before after => others before after ∨ SameSwitches before after

section

variable {others : Machine → Machine → Prop} {m m' m'' : Machine}

/-- No switch need be turned. -/
theorem turned_refl (m : Machine) : Turned m m := ⟨m.files, rfl, .refl _ _⟩

/-- Switches may be turned again. -/
theorem Turned.trans (h : Turned m m') (h' : Turned m' m'') : Turned m m'' := by
  obtain ⟨files, rfl, hwritten⟩ := h
  obtain ⟨files', rfl, hwritten'⟩ := h'
  exact ⟨files', rfl, hwritten.trans hwritten' fun _ _ _ hs => hs⟩

/-- No file comes or goes when switches are turned. -/
theorem Turned.size_files (h : Turned m m') : m'.files.size = m.files.size := by
  obtain ⟨files, rfl, hwritten⟩ := h
  exact hwritten.size_eq

/-- Switches have nothing to do with whether a machine is settled. -/
theorem Turned.settledBut {away : Away} (h : Turned m m') (hs : m.SettledBut away) :
    m'.SettledBut away := by
  obtain ⟨files, rfl, -⟩ := h
  exact Coherent.congr hs rfl rfl rfl rfl

/-- What comes about from what comes about comes about. -/
theorem Comes.trans (h : Comes others m m') (h' : Comes others m' m'') : Comes others m m'' :=
  Relation.ReflTransGen.trans h h'

/-- Others may work after the last step. -/
theorem Comes.met (h : Comes others m m') (ho : others m' m'') : Comes others m m'' :=
  Relation.ReflTransGen.tail h (.inl ho)

/-- Another step may leave the switches as they are. -/
theorem Comes.keep (h : Comes others m m') (hsame : SameSwitches m' m'') : Comes others m m'' :=
  Relation.ReflTransGen.tail h (.inr hsame)

/-- A change to all but the files leaves the switches as they are. -/
theorem sameSwitches_of_files (h : m'.files = m.files) : SameSwitches m m' := fun f => by rw [h]

/-- If nobody else works, the switches of all files stay where they are. -/
theorem Comes.sameSwitches (h : Comes Eq m m') : SameSwitches m m' := by
  induction h with
  | refl => exact fun _ => rfl
  | tail _ hstep ih =>
    rcases hstep with rfl | hsame
    · exact ih
    · exact fun f => (hsame f).trans (ih f)

/-- To write to a file leaves its switches as they are. -/
theorem sameSwitches_setIfInBounds {f : FileId} {file file' : MemoryFile}
    (hfile : m.files[f]? = some file) (hswitches : file'.switches = file.switches) :
    SameSwitches m { m with files := m.files.setIfInBounds f file' } := by
  intro g
  rw [Array.getElem?_setIfInBounds]
  by_cases hg : f = g
  · subst hg
    have hlt : f < m.files.size := (Array.getElem?_eq_some_iff.mp hfile).1
    rw [if_pos rfl, if_pos hlt, hfile, Option.map_some, Option.map_some, hswitches]
  · rw [if_neg hg]

/-- Others have come in between, once or more often, and the operation has done nothing meanwhile. -/
structure Idles (others : Machine → Machine → Prop) (before after : Machine) : Prop where
  turned : Turned before after
  comes : Comes others before after

/-- Others need not come in. -/
theorem idles_refl (others : Machine → Machine → Prop) (m : Machine) : Idles others m m :=
  ⟨turned_refl m, .refl⟩

/-- Others who only turn switches of files come in once. -/
theorem idles_of (hturn : ∀ a b, others a b → Turned a b) (ho : others m m') : Idles others m m' :=
  ⟨hturn _ _ ho, .single (.inl ho)⟩

/-- Others may come in again while nothing is done. -/
theorem Idles.trans (h : Idles others m m') (h' : Idles others m' m'') : Idles others m m'' :=
  ⟨h.turned.trans h'.turned, h.comes.trans h'.comes⟩

/-- Others who only turn switches of files come in once more. -/
theorem Idles.met (h : Idles others m m') (hturn : ∀ a b, others a b → Turned a b)
    (ho : others m' m'') : Idles others m m'' :=
  ⟨h.turned.trans (hturn _ _ ho), h.comes.met ho⟩

end

end Machine

namespace Woven

variable {others : Machine → Machine → Prop} {machine : Machine} {s : SpaceId} {p : Nat}

/-- The table of a space that exists can be asked for. -/
theorem finishes_supplement (hturn : ∀ a b, others a b → Turned a b) {space : AddressSpace}
    (hspace : machine.spaces[s]? = some space) :
    Finishes (Kernel.supplement s : Woven others _) machine fun table after =>
      table = space.supplement ∧ Idles others machine after := by
  simp only [Kernel.supplement, holding_eq, lift_eq, finishes_atomically]
  intro met hmet
  have hidle := idles_of hturn hmet
  obtain ⟨files, rfl, -⟩ := hidle.turned
  exact Transition.finishes_supplement hspace ⟨rfl, hidle⟩

/-- The directory of a space that exists can be asked for an entry. -/
theorem finishes_findEntry (hturn : ∀ a b, others a b → Turned a b) (hs : s < machine.spaces.size) :
    Finishes (Kernel.findEntry s p : Woven others _) machine fun entry after =>
      entry = mapped? machine.spaces s p ∧ Idles others machine after := by
  have hspace := Array.getElem?_eq_getElem hs
  simp only [Kernel.findEntry, lift_eq, finishes_bind, finishes_atomically, finishes_interrupt,
    finishes_pure]
  intro met hmet
  have hidle := idles_of hturn hmet
  obtain ⟨files, rfl, -⟩ := hidle.turned
  refine Transition.finishes_directory hspace fun met' hmet' => ⟨?_, hidle.met hturn hmet'⟩
  rw [mapped?_eq hspace]

/-- Something is said of a space that exists. -/
theorem finishes_notify (hturn : ∀ a b, others a b → Turned a b) (hs : s < machine.spaces.size)
    (notice : Nat → Notice) {post : Unit → Machine → Prop}
    (hpost : ∀ met notices, Idles others machine met → post () { met with notices }) :
    Finishes (Kernel.atomically (Transition.space s) : Woven others _) machine fun space after =>
      Finishes (Kernel.atomically (Transition.notify (notice space.pid)) : Woven others _) after
        post := by
  simp only [finishes_atomically]
  intro met hmet
  have hidle := idles_of hturn hmet
  obtain ⟨files, rfl, -⟩ := hidle.turned
  refine Transition.finishes_space (Array.getElem?_eq_getElem hs) fun met' hmet' => ?_
  exact Transition.finishes_notify.mpr (hpost met' _ (hidle.met hturn hmet'))

/-- A frame is written back to a window of a file, with the switches that others have left it. The answer
tells whether bytes are missing. -/
theorem finishes_writeBack_met (hturn : ∀ a b, others a b → Turned a b) {segment : Segment}
    (hfits : segment.readBytes ≤ pageSize) (hfile : segment.file < machine.files.size) {frame : Nat}
    (hframe : frame < machine.frames.memory.size) :
    Finishes (Kernel.writeBack frame segment : Woven others _) machine fun saved after =>
      ∃ prior met file data, Idles others machine prior ∧ others prior met ∧
        met.files[segment.file]? = some file ∧ after = { met with
          files := met.files.setIfInBounds segment.file (file.write segment.offset data).2 } ∧
        data.size = segment.readBytes ∧
        (∀ k, k < segment.readBytes → machine.frames.memory.byte? frame k = some (data[k]?.getD 0)) ∧
        saved = refusedFor (file.shortfall? segment.offset segment.readBytes) := by
  have hcontent : machine.frames.memory.page frame = .ok machine.frames.memory.pages[frame] := by
    rw [FrameMemory.page, Array.getElem?_eq_getElem hframe]
  generalize machine.frames.memory.pages[frame] = content at hcontent
  have hsize : (content.window 0 segment.readBytes).size = segment.readBytes := by
    rw [Page.size_window]
    omega
  simp only [Kernel.writeBack, Transition.requireWindow, hfits, if_true, lift_eq, holding_eq,
    finishes_bind, finishes_atomically, finishes_interrupt, Transition.finishes_pure]
  intro met₁ hmet₁ met₂ hmet₂
  have hidle₂ := (idles_of hturn hmet₁).met hturn hmet₂
  obtain ⟨files₂, rfl, -⟩ := hidle₂.turned
  refine Transition.finishes_page hcontent fun met₃ hmet₃ met₄ hmet₄ => ?_
  have hidle₃ := hidle₂.met hturn hmet₃
  have hidle := hidle₃.met hturn hmet₄
  obtain ⟨files, rfl, hturned⟩ := id hidle.turned
  obtain ⟨file, hold⟩ : ∃ file, files[segment.file]? = some file :=
    ⟨_, Array.getElem?_eq_getElem (hturned.size_eq ▸ hfile)⟩
  refine Transition.finishes_writeFile hold ?_
  have hbytes : ∀ k, k < segment.readBytes → machine.frames.memory.byte? frame k =
      some ((content.window 0 segment.readBytes)[k]?.getD 0) :=
    fun k hk => FrameMemory.byte?_of_window hcontent hfits hk
  cases hwrite : (file.write segment.offset (content.window 0 segment.readBytes)).1 with
  | error cause =>
    have hcause := MemoryFile.shortfall?_of_error hwrite
    rw [hsize] at hcause
    refine finishes_pure.mpr ⟨_, _, file, _, hidle₃, hmet₄, hold, rfl, hsize, hbytes, ?_⟩
    rw [hcause, refusedFor]
  | ok stored =>
    have hstored := MemoryFile.shortfall?_of_ok hwrite
    rw [hsize] at hstored
    refine finishes_pure.mpr ⟨_, _, file, _, hidle₃, hmet₄, hold, rfl, hsize, hbytes, ?_⟩
    rw [hstored]
    split <;> rfl

/-- A frame is written back to the window of a page of a mapped file. Its bytes are in the file if the
file takes the write, whatever is done to it before. -/
theorem finishes_writeBack (hturn : ∀ a b, others a b → Turned a b) {spaces : Array AddressSpace}
    {segment : Segment} (hsegment : segment? spaces s p = some segment)
    (hback : segment.writeBack = true) (hfits : segment.readBytes ≤ pageSize)
    (hfile : segment.file < machine.files.size) {frame : Nat}
    (hframe : frame < machine.frames.memory.size) :
    Finishes (Kernel.writeBack frame segment : Woven others _) machine fun _ after =>
      ∃ files writes, after = { machine with files } ∧ Comes others machine after ∧
        writes.length ≤ 1 ∧ Files.Written writes spaces machine.files files ∧
        Files.AgreeOutside segment machine.files files ∧
        ((∀ met file, Idles others machine met → met.files[segment.file]? = some file →
            file.Takes segment.offset segment.readBytes) →
          ∀ k, k < segment.readBytes →
            machine.frames.memory.byte? frame k = some (Files.windowByte files segment k)) := by
  refine (finishes_writeBack_met hturn hfits hfile hframe).mono ?_
  rintro _ _ ⟨prior, met, file, data, hprior, hmet, hold, rfl, hsize, hbytes, -⟩
  have hidle := hprior.met hturn hmet
  obtain ⟨files, rfl, hturned⟩ := id hidle.turned
  obtain ⟨writes, hlength, hwritten, hout, hstored⟩ :=
    Files.written_write hsegment hback hold (Nat.le_of_eq hsize)
  refine ⟨_, writes, rfl, ?_, hlength, ?_, fun other k hk hother => ?_, fun htakes k hk => ?_⟩
  · exact hidle.comes.keep
      (sameSwitches_setIfInBounds hold (file.switches_write segment.offset data))
  · have hwritten' := (hturned.of_nil spaces).trans hwritten fun _ _ _ hs => hs
    rwa [List.nil_append] at hwritten'
  · rw [hout other k hk hother, hturned.windowByte List.not_mem_nil]
  · have hwrite := htakes _ file hidle hold
    rw [← hsize] at hwrite
    rw [hstored hwrite.write k (hsize.symm ▸ hk), hbytes k hk]

end Woven

end DemandPaging
