import DemandPaging.Address

/-!
# Bytes, pages and sectors

Buffers and file contents are arrays of bytes of any length; a page holds exactly `pageSize` bytes
and a sector exactly `sectorSize`, so neither can be built with the wrong length.

One idea serves every write in the library: laying a piece of data over a longer run of bytes at
some offset. For a page the piece is cut off at the end (`Page.store`); a file grows instead, and
the gap before the piece is filled with zeroes (`Bytes.overlay`).
-/

set_option autoImplicit false

namespace DemandPaging

/-- A buffer or a file's contents. -/
abbrev Bytes := Array UInt8

/-- Bytes in a sector of a block device. -/
abbrev sectorSize : Nat := 512

/-- Sectors that hold one page. -/
abbrev sectorsPerPage : Nat := 8

/-- The contents of one sector. -/
abbrev Sector := Vector UInt8 sectorSize

/-- The contents of one page or frame. -/
abbrev Page := Vector UInt8 pageSize

namespace Bytes

/-- A run of zeroes. -/
def zeroes (n : Nat) : Bytes := Array.replicate n 0

/-- `content` with `data` laid over it at `start`. The result is long enough for both, and bytes
that neither gives are zero. -/
def overlay (content : Bytes) (start : Nat) (data : Bytes) : Bytes :=
  Array.ofFn (n := max content.size (start + data.size)) fun i =>
    if start ≤ i then data[i.val - start]?.getD (content[i.val]?.getD 0)
    else content[i.val]?.getD 0

/-- The `n` bytes from `start` on, or fewer at the end. -/
def window (content : Bytes) (start n : Nat) : Bytes := content.extract start (start + n)

/-- What is laid over contents makes them longer if it ends behind them. -/
theorem size_overlay (content : Bytes) (start : Nat) (data : Bytes) :
    (overlay content start data).size = max content.size (start + data.size) := by
  simp [overlay]

/-- A window ends where the contents do, however many bytes were asked for. -/
theorem size_window (content : Bytes) (start n : Nat) :
    (window content start n).size = min (start + n) content.size - start := by
  simp [window]

end Bytes

namespace Sector

/-- A sector of zeroes. -/
def blank : Sector := Vector.replicate sectorSize 0

/-- The bytes as a sector, if there are as many as a sector holds. -/
def ofBytes? (data : Bytes) : Option Sector :=
  if h : data.size = sectorSize then some ⟨data, h⟩ else none

end Sector

namespace Page

/-- A page of zeroes. -/
def blank : Page := Vector.replicate pageSize 0

/-- A page with `data` laid over it at `start`. What would fall behind the end is dropped. -/
def store (page : Page) (start : Nat) (data : Bytes) : Page :=
  Vector.ofFn fun i => if start ≤ i.val then data[i.val - start]?.getD page[i] else page[i]

/-- A page with every byte from `start` on set to zero. -/
def clearFrom (page : Page) (start : Nat) : Page :=
  Vector.ofFn fun i => if start ≤ i.val then 0 else page[i]

/-- The `n` bytes of a page from `start` on, or fewer at the end. -/
def window (page : Page) (start n : Nat) : Bytes :=
  Array.ofFn (n := min n (pageSize - start)) fun i => page[start + i.val]

/-- The `k`-th sector of a page. -/
def sector (page : Page) (k : Fin sectorsPerPage) : Sector :=
  Vector.ofFn fun i =>
    have : k.val * sectorSize + i.val < pageSize := by
      have := k.isLt
      have := i.isLt
      simp only [sectorSize, sectorsPerPage, pageSize] at *
      omega
    page[k.val * sectorSize + i.val]

/-- A page with its `k`-th sector replaced. -/
def setSector (page : Page) (k : Fin sectorsPerPage) (s : Sector) : Page :=
  Vector.ofFn fun i =>
    have : i.val % sectorSize < sectorSize := Nat.mod_lt _ (by decide)
    if i.val / sectorSize = k.val then s[i.val % sectorSize] else page[i]

/-- A buffer as a page: cut off or filled up with zeroes at the end. -/
def ofBytes (data : Bytes) : Page := blank.store 0 data

end Page

end DemandPaging
