/-!
# Errors of files

Why a positioned read or write of a file was refused.
-/

set_option autoImplicit false

namespace DemandPaging

/-- Why a file was not read or written. -/
inductive FileError where
  /-- The device under the file failed. -/
  | io
  /-- There is no room for the data. -/
  | noSpace
  /-- Writes to the file are denied, as for a running executable. -/
  | readOnly
  deriving DecidableEq, Repr, Inhabited

namespace FileError

/-- Every cause. -/
def all : List FileError := [io, noSpace, readOnly]

/-- The short form of the cause. -/
def name : FileError → String
  | io => "Io"
  | noSpace => "NoSpace"
  | readOnly => "ReadOnly"

/-- The cause as a sentence. -/
def message : FileError → String
  | io => "i/o error"
  | noSpace => "no space left on device"
  | readOnly => "file is read-only"

end FileError

end DemandPaging
