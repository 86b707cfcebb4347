import DemandPaging.Block.RamDisk
import DemandPaging.Notice

/-!
# Block devices

A block device is a disk with a name, a purpose and a size of its own, which counts its transfers.
The size is what users of the device may use; the disk under it may be smaller or larger.

A transfer is checked by the device first (`refuseRead?`, `refuseWrite?`) and only then handed to
the disk (`readDisk`, `writeDisk`), which may still refuse it. `read` and `write` do both, for a
buffer of any length. Only transfers that were carried out are counted. The counters have 32 bits,
and a transfer that would take one of them further halts.
-/

set_option autoImplicit false

namespace DemandPaging

/-- What a block device is for. -/
inductive BlockKind where
  /-- It holds the system itself. -/
  | kernel
  /-- It holds files. -/
  | fileSystem
  /-- It holds what nobody needs to keep. -/
  | scratch
  /-- It holds pages. -/
  | swap
  /-- Nobody knows what it holds. -/
  | raw
  /-- It belongs to another system and is never written. -/
  | foreign
  deriving DecidableEq, Repr, Inhabited

namespace BlockKind

/-- Every kind of device. -/
def all : List BlockKind := [kernel, fileSystem, scratch, swap, raw, foreign]

/-- The short form of the kind. -/
def name : BlockKind → String
  | kernel => "Kernel"
  | fileSystem => "FileSystem"
  | scratch => "Scratch"
  | swap => "Swap"
  | raw => "Raw"
  | foreign => "Foreign"

/-- The kind as it is shown to a person. -/
def title : BlockKind → String
  | fileSystem => "File System"
  | kind => kind.name

end BlockKind

/-- The first count of transfers that a device cannot hold. -/
abbrev transferLimit : Nat := 0x100000000

/-- A block device. -/
structure Block where
  /-- What it is called. -/
  name : String
  /-- What it is for. -/
  kind : BlockKind
  /-- How many sectors may be used. -/
  size : Nat
  /-- The disk under it. -/
  disk : RamDisk
  /-- How many sectors were read. -/
  reads : Nat := 0
  /-- How many sectors were written. -/
  writes : Nat := 0

namespace Block

/-- The device as it is shown to a person. -/
def text (block : Block) : String :=
  "\"" ++ block.name ++ "\" (" ++ block.kind.title ++ "): " ++ Numeral.decimalFilled 4 block.size
    ++ " sectors, " ++ Numeral.decimalFilled 4 block.reads ++ " read, "
    ++ Numeral.decimalFilled 4 block.writes ++ " write"

/-- What the device says about a sector that it does not have. -/
def complaint? (block : Block) (sector : Nat) : Option Notice :=
  if block.size ≤ sector then some (.invalidSector block.name sector block.size) else none

/-- Why the device itself refuses to read a sector, if it does. -/
def refuseRead? (block : Block) (sector : Nat) : Option BlockError :=
  if block.size ≤ sector then some .sectorOutOfBounds else none

/-- Why the device itself refuses to write a sector, if it does. -/
def refuseWrite? (block : Block) (sector : Nat) : Option BlockError :=
  if block.size ≤ sector then some .sectorOutOfBounds
  else if block.kind = .foreign then some .readOnly
  else none

/-- Why a buffer of the wrong length is refused: the sector is looked at first. -/
def wrongBuffer (block : Block) (sector : Nat) : BlockError :=
  if block.size ≤ sector then .sectorOutOfBounds else .bufferInvalid

/-- Let the disk read a sector that passed the checks, and count it. -/
def readDisk (block : Block) (sector : Nat) : Except Halt (Except BlockError Sector × Block) :=
  match block.disk.readSector sector with
  | .error cause => .ok (.error cause, block)
  | .ok content =>
    if block.reads + 1 < transferLimit then
      .ok (.ok content, { block with reads := block.reads + 1 })
    else .error .overflow

/-- Let the disk write a sector that passed the checks, and count it. -/
def writeDisk (block : Block) (sector : Nat) (content : Sector) :
    Except Halt (Except BlockError Unit × Block) :=
  match block.disk.writeSector sector content with
  | .error cause => .ok (.error cause, block)
  | .ok disk =>
    if block.writes + 1 < transferLimit then
      .ok (.ok (), { block with disk, writes := block.writes + 1 })
    else .error .overflow

/-- Read a sector into a buffer of `room` bytes. -/
def read (block : Block) (sector room : Nat) : Except Halt (Except BlockError Sector × Block) :=
  if room = sectorSize then
    match block.refuseRead? sector with
    | some cause => .ok (.error cause, block)
    | none => block.readDisk sector
  else .ok (.error (block.wrongBuffer sector), block)

/-- Write a buffer to a sector. -/
def write (block : Block) (sector : Nat) (data : Bytes) :
    Except Halt (Except BlockError Unit × Block) :=
  match Sector.ofBytes? data with
  | none => .ok (.error (block.wrongBuffer sector), block)
  | some content =>
    match block.refuseWrite? sector with
    | some cause => .ok (.error cause, block)
    | none => block.writeDisk sector content

end Block

end DemandPaging
