import DemandPaging.Proofs.Mappings
import DemandPaging.Proofs.Refaults

/-!
# Tables that gain entries

Registering pages and mapping files add entries for a run of pages to one table.
`Supplement.Gains page segment count table table'` says which ones: the first `count` pages of the run
from `page` on have got the windows `segment`, and every other entry is what it was. One insertion is
one more page of the run (`Supplement.Gains.insert`).
-/

set_option autoImplicit false

namespace DemandPaging

/-- The machine with another table for one of its spaces. -/
def Machine.withTable (machine : Machine) (s : SpaceId) (table : Supplement) : Machine :=
  { machine with spaces := machine.spaces.modify s fun space => { space with supplement := table } }

namespace Machine

variable {machine : Machine} {s : SpaceId} {space : AddressSpace} {table : Supplement}

/-- The space has the new table, and is otherwise as it was. -/
theorem space_withTable (hspace : machine.spaces[s]? = some space) (table : Supplement) :
    (machine.withTable s table).spaces[s]? = some { space with supplement := table } := by
  rw [withTable, Array.getElem?_modify, if_pos rfl, hspace]
  rfl

/-- The other spaces are as they were. -/
theorem space_withTable_of_ne {s' : SpaceId} (hs : s' ≠ s) (table : Supplement) :
    (machine.withTable s table).spaces[s']? = machine.spaces[s']? := by
  rw [withTable, Array.getElem?_modify, if_neg (Ne.symm hs)]

/-- Of two tables the later one counts. -/
theorem withTable_withTable (table' : Supplement) :
    (machine.withTable s table).withTable s table' = machine.withTable s table' := by
  have hspaces : ((machine.withTable s table).withTable s table').spaces =
      (machine.withTable s table').spaces := by
    apply Array.ext_getElem?
    intro i
    simp only [withTable, Array.getElem?_modify]
    split
    · cases machine.spaces[i]? <;> rfl
    · rfl
  exact congrArg (fun spaces => { machine with spaces }) hspaces

/-- To give a space the table that it has changes nothing. -/
theorem withTable_self (hspace : machine.spaces[s]? = some space) :
    machine.withTable s space.supplement = machine := by
  have hspaces : (machine.withTable s space.supplement).spaces = machine.spaces := by
    apply Array.ext_getElem?
    intro i
    by_cases hi : i = s
    · subst hi
      rw [space_withTable hspace, hspace]
    · exact space_withTable_of_ne hi _
  exact congrArg (fun spaces => { machine with spaces }) hspaces

end Machine

namespace Supplement

variable {table table' : Supplement} {page count : Nat} {segment : Nat → Segment}

/-- The new entry is found at its page, and the others as before. -/
theorem find?_insert (info : PageInfo) (q : Nat) :
    ({ table with entries := table.entries.insert info.page info } : Supplement).find? q =
      if info.page = q then some info else table.find? q := by
  simp [find?, Std.ExtTreeMap.getElem?_insert]

/-- What the answer of an insertion depends on. -/
theorem insert_eq (info : PageInfo) :
    table.insert info =
      if table.destroyed = true then .error .destroyed
      else if (table.find? info.page).isSome = true then .error .alreadyRegistered
      else .ok { table with entries := table.entries.insert info.page info } := by
  rw [insert, contains, find?, Std.ExtTreeMap.contains_eq_isSome_getElem?]

/-- A live table takes an entry for a page that has none. -/
theorem insert_of_free {info : PageInfo} (hlive : table.destroyed = false)
    (hfree : table.find? info.page = none) :
    table.insert info = .ok { table with entries := table.entries.insert info.page info } := by
  rw [insert_eq, if_neg (Bool.eq_false_iff.mp hlive), if_neg (by rw [hfree]; decide)]

/-- The tables differ in their entries only. -/
def OnlyEntries (table' table : Supplement) : Prop :=
  table'.mappings = table.mappings ∧ table'.nextMapping = table.nextMapping ∧
    table'.destroyed = table.destroyed

/-- The first `count` pages of the run from `page` on have got entries with the windows `segment`, and
nothing else has. -/
structure Gains (page : Nat) (segment : Nat → Segment) (count : Nat) (table table' : Supplement) :
    Prop where
  added : ∀ i, i < count → table'.find? (page + i * pageSize) =
    some (.fileBacked (page + i * pageSize) (segment i))
  kept : ∀ p, (∀ i, i < count → p ≠ page + i * pageSize) → table'.find? p = table.find? p
  size : table'.size = table.size + count

/-- A table gains no page if nothing is done to it. -/
theorem Gains.refl (page : Nat) (segment : Nat → Segment) (table : Supplement) :
    Gains page segment 0 table table where
  added i hi := absurd hi (Nat.not_lt_zero i)
  kept _ _ := rfl
  size := rfl

/-- Two pages of a run are different. -/
theorem page_ne_of_lt {i j : Nat} (h : i < j) : page + j * pageSize ≠ page + i * pageSize := by
  simp only [pageSize]
  omega

/-- The pages of the run that have not got an entry yet are as they were. -/
theorem Gains.find?_next (h : Gains page segment count table table') {j : Nat} (hj : count ≤ j) :
    table'.find? (page + j * pageSize) = table.find? (page + j * pageSize) :=
  h.kept _ fun _ hi => page_ne_of_lt (Nat.lt_of_lt_of_le hi hj)

/-- The next page of the run gets its entry. -/
theorem Gains.insert (h : Gains page segment count table table')
    (hfree : table.find? (page + count * pageSize) = none) :
    Gains page segment (count + 1) table
      { table' with
        entries := table'.entries.insert (page + count * pageSize)
          (.fileBacked (page + count * pageSize) (segment count)) } := by
  have hfind := @find?_insert table' (.fileBacked (page + count * pageSize) (segment count))
  refine ⟨fun i hi => ?_, fun p hp => ?_, ?_⟩
  · rcases Nat.lt_succ_iff_lt_or_eq.mp hi with hlt | rfl
    · exact (hfind _).trans ((if_neg (page_ne_of_lt hlt)).trans (h.added i hlt))
    · exact (hfind _).trans (if_pos rfl)
  · have hne : page + count * pageSize ≠ p := (hp count (Nat.lt_succ_self count)).symm
    exact (hfind p).trans ((if_neg hne).trans (h.kept p fun i hi => hp i (Nat.lt_succ_of_lt hi)))
  · have hnone : table'.entries.contains (page + count * pageSize) = false := by
      rw [Std.ExtTreeMap.contains_eq_isSome_getElem?, ← find?, h.find?_next (Nat.le_refl count), hfree]
      rfl
    have hsize := h.size
    simp only [Supplement.size] at hsize ⊢
    rw [Std.ExtTreeMap.size_insert, hnone, if_neg Bool.false_ne_true, hsize, Nat.add_assoc]

end Supplement

end DemandPaging
