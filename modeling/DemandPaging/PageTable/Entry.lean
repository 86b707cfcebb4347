import DemandPaging.Halt

/-!
# Page table entries

An entry is a record of its flags and its frame; `toBits` and `ofBits` are its packing into the 32
bits that the processor sees. Setting one field therefore cannot disturb another, and the packing
loses nothing: `ofBits_toBits` and `toBits_ofBits` make the two forms interchangeable.

Bits 0 to 8 are the flags, bits 9 to 11 belong to nobody and are kept as they are, and bits 12 to 31
hold the frame, so a frame number has at most 20 bits.
-/

set_option autoImplicit false

namespace DemandPaging

/-- The largest frame number that an entry can hold. -/
abbrev maxFrame : Nat := 0xfffff

/-- One entry of a page table. -/
structure PageTableEntry where
  /-- The page is mapped. -/
  present : Bool := false
  /-- The page may be written. -/
  writable : Bool := false
  /-- User code may use the page. -/
  user : Bool := false
  /-- Writes go through the cache. -/
  writeThrough : Bool := false
  /-- The page is not cached. -/
  cacheDisabled : Bool := false
  /-- The page was used since the flag was last cleared. -/
  accessed : Bool := false
  /-- The page was written since the flag was last cleared. -/
  dirty : Bool := false
  /-- The page attribute flag. -/
  pageAttribute : Bool := false
  /-- The entry survives a change of address space. -/
  global : Bool := false
  /-- The bits that nobody uses. -/
  available : BitVec 3 := 0
  /-- The frame that holds the page. -/
  frame : BitVec 20 := 0
  deriving DecidableEq, Repr, Inhabited

namespace PageTableEntry

/-- The nine flags from bit 0 upwards. -/
def flags (e : PageTableEntry) : List Bool :=
  [e.present, e.writable, e.user, e.writeThrough, e.cacheDisabled, e.accessed, e.dirty,
    e.pageAttribute, e.global]

/-- The entry as the processor stores it. -/
def toBits (e : PageTableEntry) : BitVec 32 :=
  e.frame ++ e.available ++ BitVec.ofBool e.global ++ BitVec.ofBool e.pageAttribute ++
    BitVec.ofBool e.dirty ++ BitVec.ofBool e.accessed ++ BitVec.ofBool e.cacheDisabled ++
    BitVec.ofBool e.writeThrough ++ BitVec.ofBool e.user ++ BitVec.ofBool e.writable ++
    BitVec.ofBool e.present

/-- The entry that the processor stores as `bits`. -/
def ofBits (bits : BitVec 32) : PageTableEntry where
  present := bits.getLsbD 0
  writable := bits.getLsbD 1
  user := bits.getLsbD 2
  writeThrough := bits.getLsbD 3
  cacheDisabled := bits.getLsbD 4
  accessed := bits.getLsbD 5
  dirty := bits.getLsbD 6
  pageAttribute := bits.getLsbD 7
  global := bits.getLsbD 8
  available := bits.extractLsb' 9 3
  frame := bits.extractLsb' 12 20

/-- The entry for a user page in `frame`, neither used nor written yet. -/
def userPage (frame : BitVec 20) (writable : Bool) : PageTableEntry :=
  { present := true, user := true, writable, frame }

/-- `userPage` for a frame number, if it fits. -/
def userPage? (frame : Nat) (writable : Bool) : Option PageTableEntry :=
  if frame ≤ maxFrame then some (userPage (BitVec.ofNat 20 frame) writable) else none

/-- What the processor leaves behind when the page is used: the page counts as accessed, and as
dirty once it was written. -/
def touch (e : PageTableEntry) (write : Bool) : PageTableEntry :=
  { e with accessed := true, dirty := e.dirty || write }

/-- The `i`-th bit of an entry, read off the field that owns it. -/
def bit (e : PageTableEntry) (i : Nat) : Bool :=
  if i < 9 then e.flags.getD i false
  else if i < 12 then e.available.getLsbD (i - 9)
  else e.frame.getLsbD (i - 12)

/-- The packed entry has the bits of its fields. -/
theorem getLsbD_toBits (e : PageTableEntry) (i : Nat) : e.toBits.getLsbD i = e.bit i := by
  by_cases h : i < 9
  · have : i = 0 ∨ i = 1 ∨ i = 2 ∨ i = 3 ∨ i = 4 ∨ i = 5 ∨ i = 6 ∨ i = 7 ∨ i = 8 := by omega
    rcases this with rfl | rfl | rfl | rfl | rfl | rfl | rfl | rfl | rfl <;>
      simp only [toBits, bit, BitVec.getLsbD_append, BitVec.getLsbD_ofBool] <;> rfl
  · by_cases h' : i < 12
    · have : i = 9 ∨ i = 10 ∨ i = 11 := by omega
      rcases this with rfl | rfl | rfl <;>
        simp only [toBits, bit, BitVec.getLsbD_append, BitVec.getLsbD_ofBool] <;> rfl
    · have beyond (k : Nat) (hk : k ≤ 11) : ¬ i - k < 1 := by omega
      have h9 : ¬ i - 9 < 3 := by omega
      rw [bit, if_neg h, if_neg h', toBits]
      change @BitVec.getLsbD (20 + 3 + 1 + 1 + 1 + 1 + 1 + 1 + 1 + 1 + 1) _ i = _
      iterate 10 rw [BitVec.getLsbD_append]
      simp only [Nat.sub_sub, Nat.reduceAdd, h9, beyond 1 (by decide), beyond 2 (by decide),
        beyond 3 (by decide), beyond 4 (by decide), beyond 5 (by decide), beyond 6 (by decide),
        beyond 7 (by decide), beyond 8 (by decide), show ¬ i < 1 by omega, if_false]

/-- Packing loses no field. -/
theorem ofBits_toBits (e : PageTableEntry) : ofBits e.toBits = e := by
  obtain ⟨p, w, u, t, c, a, d, g, s, v, f⟩ := e
  have hv : (toBits ⟨p, w, u, t, c, a, d, g, s, v, f⟩).extractLsb' 9 3 = v := by
    apply BitVec.eq_of_getLsbD_eq
    intro i hi
    simp only [BitVec.getLsbD_extractLsb', getLsbD_toBits, bit]
    simp [hi, show 9 + i < 12 by omega, show ¬ 9 + i < 9 by omega]
  have hf : (toBits ⟨p, w, u, t, c, a, d, g, s, v, f⟩).extractLsb' 12 20 = f := by
    apply BitVec.eq_of_getLsbD_eq
    intro i hi
    simp only [BitVec.getLsbD_extractLsb', getLsbD_toBits, bit]
    simp [hi, show ¬ 12 + i < 9 by omega, show ¬ 12 + i < 12 by omega]
  simp only [ofBits, hv, hf, getLsbD_toBits]
  rfl

/-- Unpacking loses no bit. -/
theorem toBits_ofBits (b : BitVec 32) : (ofBits b).toBits = b := by
  apply BitVec.eq_of_getLsbD_eq
  intro i hi
  rw [getLsbD_toBits]
  simp only [bit, ofBits, flags, BitVec.getLsbD_extractLsb']
  split
  · rename_i h
    have : i = 0 ∨ i = 1 ∨ i = 2 ∨ i = 3 ∨ i = 4 ∨ i = 5 ∨ i = 6 ∨ i = 7 ∨ i = 8 := by omega
    rcases this with rfl | rfl | rfl | rfl | rfl | rfl | rfl | rfl | rfl <;> rfl
  · split
    · simp [show i - 9 < 3 by omega, show 9 + (i - 9) = i by omega]
    · simp [show i - 12 < 20 by omega, show 12 + (i - 12) = i by omega]

end PageTableEntry

end DemandPaging
