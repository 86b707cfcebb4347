import DemandPaging.Block.Error
import DemandPaging.Bytes
import DemandPaging.Halt
import Std.Data.ExtTreeMap

/-!
# Disks in memory

A disk of so many sectors, all zero at first. Only sectors that were written are stored, so a disk
may be as large as it likes. Two switches make every later read or write fail.

A transfer moves one whole sector (`readSector`, `writeSector`). `read` and `write` take a buffer of
any length: one that does not hold exactly one sector is a broken promise of the caller and halts,
unless the transfer is refused anyway.
-/

set_option autoImplicit false

namespace DemandPaging

/-- A disk kept in memory. -/
structure RamDisk where
  /-- The number of sectors. -/
  sectors : Nat
  /-- The sectors that were written, by number. -/
  written : Std.ExtTreeMap Nat Sector := ∅
  /-- Every read fails. -/
  failReads : Bool := false
  /-- Every write fails. -/
  failWrites : Bool := false

namespace RamDisk

/-- A disk of `sectors` sectors of zeroes. -/
def ofSize (sectors : Nat) : RamDisk := { sectors }

/-- The contents of a sector. -/
def sector (disk : RamDisk) (index : Nat) : Sector := disk.written[index]?.getD Sector.blank

/-- Why a read of a sector is refused, if it is. -/
def refuseRead? (disk : RamDisk) (index : Nat) : Option BlockError :=
  if disk.failReads then some .readError
  else if disk.sectors ≤ index then some .sectorOutOfBounds
  else none

/-- Why a write of a sector is refused, if it is. -/
def refuseWrite? (disk : RamDisk) (index : Nat) : Option BlockError :=
  if disk.failWrites then some .writeError
  else if disk.sectors ≤ index then some .sectorOutOfBounds
  else none

/-- Read a sector. -/
def readSector (disk : RamDisk) (index : Nat) : Except BlockError Sector :=
  match disk.refuseRead? index with
  | some cause => .error cause
  | none => .ok (disk.sector index)

/-- Write a sector. -/
def writeSector (disk : RamDisk) (index : Nat) (content : Sector) : Except BlockError RamDisk :=
  match disk.refuseWrite? index with
  | some cause => .error cause
  | none => .ok { disk with written := disk.written.insert index content }

/-- What becomes of a buffer of the wrong length: the cause of a refusal is found first. -/
def wrongBuffer {α : Type} : Option BlockError → Except Halt (Except BlockError α)
  | some cause => .ok (.error cause)
  | none => .error .outOfBounds

/-- Read a sector into a buffer of `room` bytes. -/
def read (disk : RamDisk) (index room : Nat) : Except Halt (Except BlockError Sector) :=
  if room = sectorSize then .ok (disk.readSector index) else wrongBuffer (disk.refuseRead? index)

/-- Write a buffer to a sector. -/
def write (disk : RamDisk) (index : Nat) (data : Bytes) :
    Except Halt (Except BlockError RamDisk) :=
  match Sector.ofBytes? data with
  | some content => .ok (disk.writeSector index content)
  | none => wrongBuffer (disk.refuseWrite? index)

end RamDisk

end DemandPaging
