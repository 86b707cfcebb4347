/-!
# Errors of block devices

Why a transfer of one sector was refused. `name` is the short form of a cause, used inside larger
reports; `message` is the sentence shown to a person.
-/

set_option autoImplicit false

namespace DemandPaging

/-- Why a sector was not read or written. -/
inductive BlockError where
  /-- The device has no such sector. -/
  | sectorOutOfBounds
  /-- The buffer does not hold exactly one sector. -/
  | bufferInvalid
  /-- The disk failed to read. -/
  | readError
  /-- The disk failed to write. -/
  | writeError
  /-- The device belongs to another system and is never written. -/
  | readOnly
  deriving DecidableEq, Repr, Inhabited

namespace BlockError

/-- Every cause. -/
def all : List BlockError := [sectorOutOfBounds, bufferInvalid, readError, writeError, readOnly]

/-- The short form of the cause. -/
def name : BlockError → String
  | sectorOutOfBounds => "SectorOutOfBounds"
  | bufferInvalid => "BufferInvalid"
  | readError => "ReadError"
  | writeError => "WriteError"
  | readOnly => "ReadOnly"

/-- The cause as a sentence. -/
def message : BlockError → String
  | sectorOutOfBounds => "sector out of bounds (greater than the block size)"
  | bufferInvalid => "invalid buffer size (not `BLOCK_SECTOR_SIZE`)"
  | readError => "error reading from the block device"
  | writeError => "error writing to the block device"
  | readOnly => "block device is read-only"

end BlockError

end DemandPaging
