import DemandPaging.Proofs.Frames

/-!
# Finding a free frame

Either policy finds a free frame if there is one, wherever its last search ended, and what it finds is
free. So a pool that keeps count hands out a frame exactly if not all are out, and it never breaks its
own promise (`FramePool.Accounts.alloc_cases`).
-/

set_option autoImplicit false

namespace DemandPaging

namespace CoreMap

variable {map : CoreMap} {stop : Nat}

/-- A frame that is free exists. -/
theorem lt_size_of_isFree {frame : Nat} (h : map.isFree frame = true) : frame < map.size := by
  by_contra hge
  rw [isFree, Array.getElem?_eq_none (Nat.le_of_not_lt hge)] at h
  cases h

/-- A run of one frame is free or not. -/
theorem freeRun_one (map : CoreMap) (start : Nat) :
    map.freeRun start 1 = if map.isFree start then 1 else 0 := by
  simp only [freeRun, Nat.zero_add]

/-- What a search for one frame finds is free. -/
theorem isFree_of_searchRun {steps start place : Nat}
    (h : searchRun map 1 stop steps start = some place) : map.isFree place = true := by
  induction steps generalizing start with
  | zero => cases h
  | succ steps ih =>
    rw [searchRun] at h
    split at h
    · by_cases hfree : map.isFree start = true
      · rw [freeRun_one, if_pos hfree, if_pos rfl] at h
        cases h
        exact hfree
      · rw [freeRun_one, if_neg hfree, if_neg Nat.zero_ne_one] at h
        exact ih h
    · cases h

/-- A search for one frame finds one if there is one in its range. -/
theorem searchRun_isSome {steps start frame : Nat} (hfree : map.isFree frame = true)
    (hstart : start ≤ frame) (hstop : frame < stop) (hsteps : frame < start + steps) :
    (searchRun map 1 stop steps start).isSome = true := by
  have hsize := lt_size_of_isFree hfree
  induction steps generalizing start with
  | zero => omega
  | succ steps ih =>
    rw [searchRun, if_pos ⟨by omega, by omega⟩]
    by_cases hhere : map.isFree start = true
    · rw [freeRun_one, if_pos hhere, if_pos rfl, Option.isSome_some]
    · rw [freeRun_one, if_neg hhere, if_neg Nat.zero_ne_one, Nat.add_zero]
      have hne : start ≠ frame := by
        rintro rfl
        exact hhere hfree
      exact ih (by omega) (by omega)

/-- The first place is found if there is any. -/
theorem firstRun_isSome {start frame : Nat} (hfree : map.isFree frame = true)
    (hstart : start ≤ frame) (hstop : frame < stop) :
    (map.firstRun 1 start stop).isSome = true :=
  searchRun_isSome hfree hstart hstop (by omega)

end CoreMap

namespace Placer

variable {placer : Placer} {map : CoreMap}

/-- What a policy finds is free. -/
theorem isFree_of_choose {place : Nat} (h : placer.choose map 1 = some place) :
    map.isFree place = true := by
  unfold choose at h
  split at h
  · exact CoreMap.isFree_of_searchRun h
  · split at h
    · rename_i hfirst
      cases h
      exact CoreMap.isFree_of_searchRun hfirst
    · exact CoreMap.isFree_of_searchRun h

/-- Either policy finds a free frame if there is one. Next fit looks at the frames before its place once
it has come to the end. -/
theorem choose_isSome {frame : Nat} (hfree : map.isFree frame = true) :
    (placer.choose map 1).isSome = true := by
  have hsize := CoreMap.lt_size_of_isFree hfree
  cases placer with
  | firstFit => exact CoreMap.firstRun_isSome hfree (Nat.zero_le _) hsize
  | nextFit position =>
    rw [choose]
    split
    · rfl
    · rename_i hnone
      by_cases hbefore : frame < position
      · exact CoreMap.firstRun_isSome hfree (Nat.zero_le _) hbefore
      · have hmod := Nat.mod_le position map.size
        have hfirst : (map.firstRun 1 (position % map.size) map.size).isSome = true :=
          CoreMap.firstRun_isSome hfree (by omega) hsize
        rw [hnone] at hfirst
        cases hfirst

end Placer

namespace FramePool

variable {pool : FramePool} {out pinned : List Nat}

/-- If not all frames are out, one of them is free. -/
theorem Accounts.exists_isFree (h : pool.Accounts out pinned) (hroom : pool.allocated < pool.capacity) :
    ∃ frame, pool.map.isFree frame = true := by
  obtain ⟨frame, hframe, hnot⟩ : ∃ frame ∈ List.range pool.capacity, frame ∉ out := by
    by_contra hall
    push Not at hall
    have hlength := (List.nodup_range.subperm hall).length_le
    rw [List.length_range, ← h.allocated_eq] at hlength
    omega
  refine ⟨frame, ?_⟩
  have hlt : frame < pool.map.size := List.mem_range.mp hframe
  have hunallocated : pool.isAllocated frame = false :=
    Bool.eq_false_iff.mpr fun hallocated => hnot ((h.isAllocated_iff frame).mp hallocated)
  rw [isAllocated, Array.getElem?_eq_getElem hlt, Option.any_some] at hunallocated
  rw [CoreMap.isFree, Array.getElem?_eq_getElem hlt, Option.any_some, hunallocated]
  rfl

/-- The pool hands out a frame unless all are out. -/
theorem Accounts.alloc_cases (h : pool.Accounts out pinned) :
    (pool.allocated = pool.capacity ∧ pool.alloc = .ok (none, pool)) ∨
      pool.allocated < pool.capacity ∧ ∃ frame pool', pool.alloc = .ok (some frame, pool') := by
  by_cases hfull : pool.allocated = pool.capacity
  · exact .inl ⟨hfull, if_pos hfull⟩
  · have hroom : pool.allocated < pool.capacity := Nat.lt_of_le_of_ne h.allocated_le hfull
    obtain ⟨frame, hfree⟩ := h.exists_isFree hroom
    obtain ⟨place, hplace⟩ := Option.isSome_iff_exists.mp (Placer.choose_isSome hfree)
    have hsize := CoreMap.lt_size_of_isFree hfree
    refine .inr ⟨hroom, place, ?_⟩
    rw [FramePool.alloc, if_neg hfull, Placer.place, if_neg (by omega), hplace]
    simp only [Placer.isFree_of_choose hplace, if_true]
    exact ⟨_, rfl⟩

end FramePool

end DemandPaging
