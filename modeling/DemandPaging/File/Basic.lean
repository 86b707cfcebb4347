import DemandPaging.Bytes
import DemandPaging.File.Error

/-!
# Files in memory

A file is a run of bytes that grows when it is written past its end; the gap before the new bytes is
filled with zeroes. Reads and writes name their place. A read is short at the end of the file, and a
write is short when the file takes only so many bytes at a time.

Three switches change what a file does: it fails altogether, it denies writes, or it caps them. A
call that is refused changes nothing, and only calls that are served are counted.
-/

set_option autoImplicit false

namespace DemandPaging

/-- Names a file by its place in the order of creation. -/
abbrev FileId := Nat

/-- The largest size that a file can have. -/
abbrev maxFileSize : Nat := 0x7fffffffffffffff

/-- A file kept in memory. -/
structure MemoryFile where
  /-- Its bytes. -/
  content : Bytes := #[]
  /-- Writes are denied, as for a running executable. -/
  denied : Bool := false
  /-- Every read and write fails. -/
  failing : Bool := false
  /-- The most bytes that one write stores; zero for no limit. -/
  writeCap : Nat := 0
  /-- How many reads were served. The counter goes round. -/
  reads : UInt64 := 0
  /-- How many writes were served. The counter goes round. -/
  writes : UInt64 := 0
  deriving DecidableEq, Repr, Inhabited

namespace MemoryFile

/-- A file with some content. -/
def ofBytes (content : Bytes) : MemoryFile := { content }

/-- The length in bytes. -/
def size (file : MemoryFile) : Nat := file.content.size

/-- How many of `n` bytes one write stores. -/
def accepted (file : MemoryFile) (n : Nat) : Nat :=
  if file.writeCap = 0 then n else min file.writeCap n

/-- A file takes no more than it is offered. -/
theorem accepted_le (file : MemoryFile) (n : Nat) : file.accepted n ≤ n := by
  unfold accepted
  split
  · exact Nat.le_refl n
  · exact Nat.min_le_right _ n

/-- What is stored of some data is as long as what is accepted. -/
theorem size_window_accepted (file : MemoryFile) (data : Bytes) :
    (data.window 0 (file.accepted data.size)).size = file.accepted data.size := by
  have hle := file.accepted_le data.size
  rw [Bytes.size_window]
  omega

/-- Read up to `n` bytes from `offset` on. Answers the bytes there are. -/
def read (file : MemoryFile) (offset n : Nat) : Except FileError Bytes × MemoryFile :=
  if file.failing then (.error .io, file)
  else (.ok (file.content.window offset n), { file with reads := file.reads + 1 })

/-- Read into a buffer, from `offset` on. Answers how many bytes there were; the rest of the buffer stays as
it is. -/
def readInto (file : MemoryFile) (offset : Nat) (buffer : Bytes) :
    (Except FileError Nat × Bytes) × MemoryFile :=
  match file.read offset buffer.size with
  | (.error cause, file) => ((.error cause, buffer), file)
  | (.ok data, file) => ((.ok data.size, buffer.overlay 0 data), file)

/-- Why a write of `n` bytes at `offset` is refused, if it is. -/
def refuseWrite? (file : MemoryFile) (offset n : Nat) : Option FileError :=
  if file.failing then some .io
  else if file.denied then some .readOnly
  else if maxFileSize - n < offset then some .noSpace
  else none

/-- Write `data` from `offset` on. Answers how many bytes were stored. -/
def write (file : MemoryFile) (offset : Nat) (data : Bytes) :
    Except FileError Nat × MemoryFile :=
  match file.refuseWrite? offset data.size with
  | some cause => (.error cause, file)
  | none =>
    let stored := data.window 0 (file.accepted data.size)
    (.ok stored.size,
      { file with content := file.content.overlay offset stored, writes := file.writes + 1 })

end MemoryFile

end DemandPaging
