/-!
# Addresses and pages

User memory is cut into pages of 4096 bytes. Addresses and byte counts are natural numbers, so no
sum ever wraps; the machine word has 64 bits, and where a sum may not leave it the definition
compares with `wordLimit` (here only `roundUp?` does). Everything at or above `kernelBase` belongs
to the kernel, and user stacks grow down from there.

The whole library keys pages by the address of their first byte, so `pageOf` is the one function
that most definitions start with.
-/

set_option autoImplicit false

namespace DemandPaging

/-- Bytes in a page, and in a frame. -/
abbrev pageSize : Nat := 4096

/-- The first number that does not fit in a machine word. -/
abbrev wordLimit : Nat := 0x10000000000000000

/-- The lowest kernel address. User memory lies below it and user stacks grow down from it. -/
abbrev kernelBase : Nat := 0x80000000

/-- How far a user stack may grow unless the configuration says otherwise: 8 MiB. -/
abbrev defaultStackLimit : Nat := 8 * 1024 * 1024

/-- The place of an address within its page. -/
def pageOffset (a : Nat) : Nat := a % pageSize

/-- The number of the page that holds an address. -/
def pageNumber (a : Nat) : Nat := a / pageSize

/-- The first address of the page that holds `a`. -/
def pageOf (a : Nat) : Nat := a - a % pageSize

/-- The first page boundary at or above `a`. It is found by going up a whole page first, so there is
none in the last page of the machine word, not even for its first address. -/
def roundUp? (a : Nat) : Option Nat :=
  if a + pageSize < wordLimit then some (pageOf (a + pageSize - 1)) else none

/-- An address below the kernel. -/
abbrev IsUser (a : Nat) : Prop := a < kernelBase

/-- An address on a page boundary. -/
abbrev IsAligned (a : Nat) : Prop := pageOffset a = 0

/-- A page is its own page exactly when it is aligned. -/
theorem pageOf_eq_self_iff (a : Nat) : pageOf a = a ↔ IsAligned a := by
  simp only [pageOf, IsAligned, pageOffset, pageSize]
  omega

/-- An address is its page plus its offset. -/
theorem pageOf_add_pageOffset (a : Nat) : pageOf a + pageOffset a = a := by
  have := Nat.mod_le a 4096
  simp only [pageOf, pageOffset, pageSize]
  omega

/-- The page of an address is aligned. -/
theorem isAligned_pageOf (a : Nat) : IsAligned (pageOf a) := by
  simp only [pageOf, IsAligned, pageOffset, pageSize]
  omega

end DemandPaging
