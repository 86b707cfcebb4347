import DemandPaging.Kernel.Basic

/-!
# Registering file pages

Declaring that pages are to be loaded from a file when they are first used: one page at a time, or a
whole segment of an executable. A segment of `readBytes` bytes of the file and `zeroBytes` zeroes is
cut into pages; the last page that holds file bytes is filled up with zeroes, and the pages after it
are zeroes only.

If a page of a segment cannot be registered, the pages before it stay registered; the loader gives
up on the process anyway.
-/

set_option autoImplicit false

namespace DemandPaging

namespace Transition

/-- Register one page: `readBytes` bytes of a file from `offset` on, then `zeroBytes` zeroes. The
page must be aligned and the counts must add up to a page. -/
def registerPage (s : SpaceId) (f : FileId) (offset page readBytes zeroBytes : Nat)
    (writable : Bool) : Transition (Except VmError Unit) := do
  if ¬ IsAligned page then throw (.unalignedPage page)
  else if readBytes + zeroBytes ≠ pageSize then throw .brokenPromise
  else if page = 0 ∨ ¬ IsUser page then pure (.error .invalidMapping)
  else
    let segment : Segment :=
      { file := f, offset, readBytes, zeroBytes, writable, writeBack := false }
    match (← supplement s).insert (.fileBacked page segment) with
    | .error cause => pure (.error cause)
    | .ok table => do
      setSupplement s table
      pure (.ok ())

/-- Register what is left of a segment: `readBytes` bytes of a file from `offset` on and then
`zeroBytes` zeroes, from `page` on. What is left may not fall short of the page that it begins with. -/
def registerRest (s : SpaceId) (f : FileId) (writable : Bool)
    (offset page readBytes zeroBytes : Nat) : Transition (Except VmError Unit) := do
  if readBytes = 0 ∧ zeroBytes = 0 then pure (.ok ())
  else
    let here := min readBytes pageSize
    let filled := pageSize - here
    match ← registerPage s f offset page here filled writable with
    | .error cause => pure (.error cause)
    | .ok () =>
      if filled ≤ zeroBytes ∧ offset + here < wordLimit ∧ page + pageSize < wordLimit then
        registerRest s f writable (offset + here) (page + pageSize) (readBytes - here)
          (zeroBytes - filled)
      else throw .overflow
termination_by readBytes + zeroBytes
decreasing_by
  simp only [pageSize] at *
  omega

/-- Register a segment page by page. The counts must add up to whole pages. -/
def registerSegment (s : SpaceId) (f : FileId) (offset page readBytes zeroBytes : Nat)
    (writable : Bool) : Transition (Except VmError Unit) := do
  if wordLimit ≤ readBytes + zeroBytes then throw .overflow
  else if (readBytes + zeroBytes) % pageSize ≠ 0 then throw .brokenPromise
  else registerRest s f writable offset page readBytes zeroBytes

end Transition

end DemandPaging
