import DemandPaging.Proofs.Spaces

/-!
# Where the bytes are

The contents of a page are in a frame, in a swap slot, or in a window of a file. `frameByte`,
`slotByte` and `windowByte` read one byte of each, and `Machine.Holds` says which byte a page holds at
some place, wherever it is at the moment. A page in a frame that is not marked dirty may be dropped at
any time, so it only holds a byte if its file window has the same one.

All of paging is about keeping `Holds`: bytes move between frames, slots and files, and what a page
holds stays the same.
-/

set_option autoImplicit false

namespace DemandPaging

/-! ### Bytes of pages, sectors and files -/

namespace Page

/-- Stored bytes are found where they were stored, as far as the page goes, and the others stay. -/
theorem getElem?_store (page : Page) (start : Nat) (data : Bytes) (k : Nat) :
    (page.store start data)[k]? =
      if start ≤ k ∧ k < start + data.size then
        (if k < pageSize then data[k - start]? else none) else page[k]? := by
  by_cases hk : k < pageSize
  · rw [Vector.getElem?_eq_getElem hk, Vector.getElem?_eq_getElem hk]
    simp only [store, Vector.getElem_ofFn, hk, if_true]
    by_cases hs : start ≤ k
    · by_cases he : k < start + data.size
      · have : k - start < data.size := by omega
        simp [hs, he, this]
      · have : data.size ≤ k - start := by omega
        simp [hs, he, this]
    · simp [hs]
  · rw [Vector.getElem?_eq_none (by omega), Vector.getElem?_eq_none (by omega)]
    simp [hk]

/-- The page is zero from `start` on, and as it was before that. -/
theorem getElem?_clearFrom (page : Page) (start k : Nat) :
    (page.clearFrom start)[k]? =
      if start ≤ k ∧ k < pageSize then some 0 else page[k]? := by
  by_cases hk : k < pageSize
  · rw [Vector.getElem?_eq_getElem hk, Vector.getElem?_eq_getElem hk]
    simp only [clearFrom, Vector.getElem_ofFn, hk, and_true]
    split <;> rfl
  · rw [Vector.getElem?_eq_none (by omega), Vector.getElem?_eq_none (by omega)]
    simp [hk]

/-- A window of a page shows the bytes from its start on. -/
theorem getElem?_window (page : Page) (start n k : Nat) :
    (page.window start n)[k]? = if k < n then page[start + k]? else none := by
  simp only [window, Array.getElem?_ofFn]
  by_cases hk : k < n
  · by_cases hs : start + k < pageSize
    · have : k < min n (pageSize - start) := by omega
      simp [hk, this, Vector.getElem?_eq_getElem hs]
    · have : ¬ k < min n (pageSize - start) := by omega
      rw [dif_neg this, if_pos hk, Vector.getElem?_eq_none (by omega)]
  · have : ¬ k < min n (pageSize - start) := by omega
    rw [dif_neg this, if_neg hk]

/-- A window of a page ends where the page does. -/
theorem size_window (page : Page) (start n : Nat) :
    (page.window start n).size = min n (pageSize - start) := by simp [window]

/-- A blank page is zero throughout. -/
theorem getElem?_blank (k : Nat) : blank[k]? = if k < pageSize then some 0 else none := by
  simp [blank, Vector.getElem?_replicate]

end Page

namespace Bytes

/-- A byte of a file that was written: one that was stored, or one that it had, and zero in the
gap. -/
theorem getD_overlay (content : Bytes) (start : Nat) (data : Bytes) (j : Nat) :
    (content.overlay start data)[j]?.getD 0 =
      if start ≤ j ∧ j < start + data.size then data[j - start]?.getD 0
      else content[j]?.getD 0 := by
  simp only [overlay, Array.getElem?_ofFn]
  by_cases hj : j < max content.size (start + data.size)
  · rw [dif_pos hj]
    by_cases hs : start ≤ j
    · by_cases he : j < start + data.size
      · have : j - start < data.size := by omega
        simp [hs, he, this]
      · have : data.size ≤ j - start := by omega
        simp [hs, he, this]
    · simp [hs]
  · rw [dif_neg hj]
    have hc : content[j]? = none := Array.getElem?_eq_none (by omega)
    have : ¬ (start ≤ j ∧ j < start + data.size) := by omega
    simp [this, hc]

/-- A window of bytes shows the bytes from its start on. -/
theorem getElem?_window (content : Bytes) (start n k : Nat) :
    (content.window start n)[k]? = if k < n then content[start + k]? else none := by
  simp only [window, Array.getElem?_extract]
  by_cases hk : k < n
  · by_cases hs : start + k < content.size
    · rw [if_pos (by omega), if_pos hk]
    · rw [if_neg (by omega), if_pos hk, Array.getElem?_eq_none (by omega)]
  · rw [if_neg (by omega), if_neg hk]

end Bytes

/-! ### Reading one byte -/

namespace RamDisk

/-- Byte `k` of a swap slot. -/
def slotByte (disk : RamDisk) (slot k : Nat) : UInt8 :=
  have : k % sectorSize < sectorSize := Nat.mod_lt _ (by decide)
  (disk.sector (slot * sectorsPerPage + k / sectorSize))[k % sectorSize]

end RamDisk

namespace FrameMemory

/-- Byte `k` of a frame. -/
def byte? (memory : FrameMemory) (frame k : Nat) : Option UInt8 := memory.pages[frame]?.bind (·[k]?)

/-- Bytes of a frame are those of its contents. -/
theorem byte?_eq {memory : FrameMemory} {frame : Nat} {page : Page}
    (h : memory.page frame = .ok page) (k : Nat) : memory.byte? frame k = page[k]? := by
  unfold FrameMemory.page at h
  cases hp : memory.pages[frame]? with
  | none => simp [hp] at h
  | some page' =>
    simp only [hp, Except.ok.injEq] at h
    subst h
    simp [byte?, hp]

/-- The bytes at the beginning of a frame, as they are written to a file. -/
theorem byte?_of_window {memory : FrameMemory} {frame n k : Nat} {content : Page}
    (hcontent : memory.page frame = .ok content) (hfits : n ≤ pageSize) (hk : k < n) :
    memory.byte? frame k = some ((content.window 0 n)[k]?.getD 0) := by
  rw [byte?_eq hcontent, Page.getElem?_window, if_pos hk, Nat.zero_add,
    Vector.getElem?_eq_getElem (Nat.lt_of_lt_of_le hk hfits), Option.getD_some]

/-- A frame that has contents is there. -/
theorem lt_size_of_page {memory : FrameMemory} {frame : Nat} {page : Page}
    (h : memory.page frame = .ok page) : frame < memory.size := by
  unfold FrameMemory.page at h
  by_contra hf
  rw [Array.getElem?_eq_none (Nat.le_of_not_lt hf)] at h
  cases h

/-- New contents are found in their frame, and the other frames keep theirs. -/
theorem byte?_setPage {memory : FrameMemory} {frame : Nat} {page : Page}
    (h : frame < memory.size) (f k : Nat) :
    (memory.setPage frame page).byte? f k = if frame = f then page[k]? else memory.byte? f k := by
  simp only [byte?, setPage, Array.getElem?_setIfInBounds]
  split
  · subst f
    have : frame < memory.pages.size := h
    simp [this]
  · rfl

/-- What a frame has after it was cleared. -/
theorem byte?_setPage_blank {memory : FrameMemory} {frame : Nat} (h : frame < memory.size) (k : Nat) :
    (memory.setPage frame Page.blank).byte? frame k = if k < pageSize then some 0 else none := by
  rw [byte?_setPage h, if_pos rfl]
  split
  · rename_i hk
    rw [Vector.getElem?_eq_getElem hk, Page.blank, Vector.getElem_replicate]
  · rename_i hk
    exact Vector.getElem?_eq_none (Nat.le_of_not_lt hk)

/-- Frames stay as many when one gets new contents. -/
@[simp] theorem size_setPage {memory : FrameMemory} {frame : Nat} {page : Page} :
    (memory.setPage frame page).size = memory.size := by simp [size, setPage]

end FrameMemory

namespace Files

/-- Byte `k` of a file window: one of the file, or zero behind the bytes that the file gives. -/
def windowByte (files : Array MemoryFile) (segment : Segment) (k : Nat) : UInt8 :=
  if k < segment.readBytes then
    (files[segment.file]?.bind (·.content[segment.offset + k]?)).getD 0
  else 0

end Files

namespace Machine

open Spaces

variable (machine : Machine) (s : SpaceId) (p k : Nat)

/-- The page is mapped, or there is an entry that says where its contents are. -/
def Known : Prop :=
  (mapped? machine.spaces s p).isSome = true ∨ (info? machine.spaces s p).isSome = true

/-- Page `p` of space `s` holds `b` at place `k`, and will go on to do so if it is dropped for being
clean. -/
def Holds (b : UInt8) : Prop :=
  match mapped? machine.spaces s p with
  | some e =>
    machine.frames.memory.byte? e.frame.toNat k = some b ∧
      (e.dirty = false → ∀ segment, segment? machine.spaces s p = some segment →
        Files.windowByte machine.files segment k = b)
  | none =>
    match copy? machine.spaces s p with
    | some copy => machine.swap.device.disk.slotByte copy.slot k = b
    | none => ∃ segment, segment? machine.spaces s p = some segment ∧
        Files.windowByte machine.files segment k = b

variable {machine s p k}

/-- A mapped page holds what is in its frame, and a clean one with a window also what is in its file. -/
theorem holds_of_mapped {e : PageTableEntry} {b : UInt8} (h : mapped? machine.spaces s p = some e) :
    machine.Holds s p k b ↔
      machine.frames.memory.byte? e.frame.toNat k = some b ∧
        (e.dirty = false → ∀ segment, segment? machine.spaces s p = some segment →
          Files.windowByte machine.files segment k = b) := by
  simp only [Holds, h]

/-- A page that is in swap holds what is in its slot. -/
theorem holds_of_copy {copy : SwapCopy} {b : UInt8} (h : mapped? machine.spaces s p = none)
    (hc : copy? machine.spaces s p = some copy) :
    machine.Holds s p k b ↔ machine.swap.device.disk.slotByte copy.slot k = b := by
  simp only [Holds, h, hc]

/-- A page that is nowhere else holds what is in its window. -/
theorem holds_of_file {b : UInt8} (h : mapped? machine.spaces s p = none)
    (hc : copy? machine.spaces s p = none) :
    machine.Holds s p k b ↔ ∃ segment, segment? machine.spaces s p = some segment ∧
      Files.windowByte machine.files segment k = b := by
  simp only [Holds, h, hc]

end Machine

end DemandPaging
