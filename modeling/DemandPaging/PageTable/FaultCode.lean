/-!
# Fault codes

The code that the processor hands over with a page fault. Three of its 32 bits are used: whether the
page was mapped (so that the access broke its protection), whether the access was a write, and
whether it came from user code. The other bits are kept as they are.
-/

set_option autoImplicit false

namespace DemandPaging

/-- The code of a page fault. -/
structure FaultCode where
  /-- The page was mapped and its protection forbade the access. -/
  present : Bool := false
  /-- The access was a write. -/
  write : Bool := false
  /-- The access came from user code. -/
  user : Bool := false
  /-- The bits that nobody uses. -/
  rest : BitVec 29 := 0
  deriving DecidableEq, Repr, Inhabited

namespace FaultCode

/-- The code as the processor hands it over. -/
def toBits (c : FaultCode) : BitVec 32 :=
  c.rest ++ BitVec.ofBool c.user ++ BitVec.ofBool c.write ++ BitVec.ofBool c.present

/-- The code that the processor hands over as `bits`. -/
def ofBits (bits : BitVec 32) : FaultCode where
  present := bits.getLsbD 0
  write := bits.getLsbD 1
  user := bits.getLsbD 2
  rest := bits.extractLsb' 3 29

/-- The code of a user access to a page that is not mapped. -/
def notPresent (write : Bool) : FaultCode := { user := true, write }

/-- The code of a user access that the protection of a mapped page forbids. -/
def protection (write : Bool) : FaultCode := { notPresent write with present := true }

/-- Unpacking loses no bit. -/
theorem toBits_ofBits (b : BitVec 32) : (ofBits b).toBits = b := by
  apply BitVec.eq_of_getLsbD_eq
  intro i hi
  have h : i = 0 ∨ i = 1 ∨ i = 2 ∨ 3 ≤ i := by omega
  rw [toBits]
  change @BitVec.getLsbD (29 + 1 + 1 + 1) _ i = _
  iterate 3 rw [BitVec.getLsbD_append]
  rcases h with rfl | rfl | rfl | h
  · simp [ofBits]
  · simp [ofBits]
  · simp [ofBits]
  · have beyond (k : Nat) (hk : k ≤ 2) : ¬ i - k < 1 := by omega
    simp only [ofBits, BitVec.getLsbD_extractLsb', Nat.sub_sub, Nat.reduceAdd,
      beyond 1 (by decide), beyond 2 (by decide), show ¬ i < 1 by omega, if_false]
    simp [show i - 3 < 29 by omega, show 3 + (i - 3) = i by omega]

end FaultCode

end DemandPaging
