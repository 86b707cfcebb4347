import DemandPaging.Proofs.FreeRuns
import DemandPaging.Proofs.Replays

/-!
# The frame pool keeps count

`FramePool.Reached frames placement calls pool` says that the pool is what some calls make of `frames` free
frames. Frames may be asked for at any time; only a frame that is out may be given back, pinned or unpinned.

`FramePool.KeepsCount` is what then holds of the pool: the counter is the number of entries that are out, what
is pinned is out, and every call that is permitted is answered and changes one entry at most. Whether a frame
is left is decided by the counter and which one it is by a search of the map, and the two agree whatever was
called before. It holds after any calls (`Reached.keepsCount`).

The functions of the pool answer with a new pool or halt with none. `PoolCall.perform` makes the same changes
in place, one after the other (`PoolCall.outcome_eq`), so that there is a pool after a halt as well.
-/

set_option autoImplicit false

namespace DemandPaging

/-- What may be asked of the pool. -/
inductive PoolCall where
  /-- Ask for a frame. -/
  | alloc
  /-- Give a frame back. -/
  | dealloc (frame : Nat)
  /-- Pin or unpin a frame. -/
  | setPinned (frame : Nat) (on : Bool)
  deriving DecidableEq, Repr

namespace PoolCall

/-- Carry out a call in place. Whatever was changed before a halt stays changed. -/
def perform (pool : FramePool) : PoolCall → EStateM.Result Halt FramePool (Option Nat)
  | alloc =>
    if pool.allocated = pool.capacity then .ok none pool
    else
      let (place, placer) := pool.placer.place pool.map 1
      let pool := { pool with placer }
      match place with
      | none => .ok none pool
      | some frame =>
        match pool.map[frame]? with
        | none => .error .outOfBounds pool
        | some entry =>
          if entry.allocated then .error .brokenPromise pool
          else
            let pool := pool.setEntry frame { allocated := true, pinned := false }
            .ok (some frame) { pool with allocated := pool.allocated + 1 }
  | dealloc frame =>
    match pool.map[frame]? with
    | none => .error .outOfBounds pool
    | some entry =>
      if entry.allocated then
        let pool := pool.setEntry frame { allocated := false, pinned := false }
        if pool.allocated = 0 then .error .overflow pool
        else .ok none { pool with allocated := pool.allocated - 1 }
      else .error (.doubleFree frame) pool
  | setPinned frame on =>
    match pool.map[frame]? with
    | none => .error .outOfBounds pool
    | some entry =>
      if entry.allocated then .ok none (pool.setEntry frame { entry with pinned := on })
      else .error .brokenPromise pool

/-- What the pool answers to a call, with the pool after it. -/
def outcome (pool : FramePool) : PoolCall → Except Halt (Option Nat × FramePool)
  | alloc => pool.alloc
  | dealloc frame => (pool.dealloc frame).map (none, ·)
  | setPinned frame on => (pool.setPinned frame on).map (none, ·)

/-- The same without the pool that a halt left. -/
def outcomeOf {α : Type} : EStateM.Result Halt FramePool α → Except Halt (α × FramePool)
  | .ok a pool => .ok (a, pool)
  | .error halt _ => .error halt

variable {pool : FramePool} {frame : Nat}

/-- What a policy finds for one frame is free. -/
theorem isFree_of_place {placer : Placer} {map : CoreMap} (h : (placer.place map 1).1 = some frame) :
    map.isFree frame = true :=
  ((placer.place_places map 1).isRun frame h).1 0 Nat.one_pos

/-- The changes in place lead to what the functions of the pool answer. -/
theorem outcome_eq (pool : FramePool) (call : PoolCall) :
    call.outcome pool = outcomeOf (call.perform pool) := by
  cases call with
  | alloc =>
    rw [outcome, FramePool.alloc, perform]
    split
    · rfl
    · cases hplace : (pool.placer.place pool.map 1).1 with
      | none => simp only [hplace, outcomeOf]
      | some frame =>
        have hfree := isFree_of_place hplace
        obtain ⟨e, he, hnot⟩ := (Option.any_eq_true ..).mp hfree
        rw [Bool.not_eq_true'] at hnot
        simp only [hplace, hfree, he, hnot]
        rfl
  | dealloc frame =>
    rw [outcome, FramePool.dealloc, FramePool.entry, perform]
    cases pool.map[frame]? with
    | none => rfl
    | some e =>
      cases hout : e.allocated with
      | false => simp only [hout]; rfl
      | true =>
        have hcount : (pool.setEntry frame {}).allocated = pool.allocated := rfl
        simp only [hout, hcount]
        by_cases hzero : pool.allocated = 0
        · simp only [hzero]
          rfl
        · simp only [hzero]
          rfl
  | setPinned frame on =>
    rw [outcome, FramePool.setPinned, FramePool.entry, perform]
    cases pool.map[frame]? with
    | none => rfl
    | some e =>
      cases hout : e.allocated with
      | false => simp only [hout]; rfl
      | true => simp only [hout]; rfl

/-- A call that the pool answers is answered in place as well. -/
theorem perform_eq_ok {call : PoolCall} {answer : Option Nat} {after : FramePool} :
    call.perform pool = .ok answer after ↔ call.outcome pool = .ok (answer, after) := by
  rw [outcome_eq]
  cases call.perform pool with
  | ok a p => simp only [outcomeOf, EStateM.Result.ok.injEq, Except.ok.injEq, Prod.mk.injEq]
  | error halt p => simp only [outcomeOf, reduceCtorEq]

/-- To give back a frame that is not out halts, before anything is changed. -/
theorem perform_dealloc_free (hlt : frame < pool.capacity) (hfree : pool.isAllocated frame = false) :
    (dealloc frame).perform pool = .error (.doubleFree frame) pool := by
  have hentry : pool.map[frame]? = some pool.map[frame] := Array.getElem?_eq_getElem hlt
  rw [FramePool.isAllocated, hentry, Option.any_some] at hfree
  simp only [perform, hentry, hfree]
  rfl

/-- Frames may always be asked for; only a frame that is out may be given back, pinned or unpinned. -/
def Permitted (pool : FramePool) : PoolCall → Prop
  | alloc => True
  | dealloc frame | setPinned frame _ => pool.isAllocated frame = true

/-- Whether a call of a pool is permitted can be computed. -/
instance (pool : FramePool) : (call : PoolCall) → Decidable (call.Permitted pool)
  | alloc => inferInstanceAs (Decidable True)
  | dealloc _ | setPinned _ _ => inferInstanceAs (Decidable (_ = true))

end PoolCall

namespace FramePool

/-- The pool that permitted calls, oldest first, make of `frames` free frames. -/
inductive Reached (frames : Nat) (placement : Placement) : List PoolCall → FramePool → Prop where
  /-- At first every frame is free. -/
  | nil : Reached frames placement [] (ofSize frames placement)
  /-- One more call was carried out. -/
  | snoc {calls : List PoolCall} {pool after : FramePool} {call : PoolCall} {answer : Option Nat}
      (h : Reached frames placement calls pool) (hpermitted : call.Permitted pool)
      (hrun : call.perform pool = .ok answer after) :
      Reached frames placement (calls ++ [call]) after

/-- Carry out some calls, if they are permitted. -/
def replay (frames : Nat) (placement : Placement) (calls : List PoolCall) : Option FramePool :=
  calls.foldlM (fun pool call =>
    if call.Permitted pool then
      match call.perform pool with
      | .ok _ pool => some pool
      | .error _ _ => none
    else none) (ofSize frames placement)

/-- The entries of all frames but one are the same. -/
def SameBut (frame : Nat) (pool after : FramePool) : Prop :=
  ∀ other, other ≠ frame → after.map[other]? = pool.map[other]?

/-- What holds of a pool of `frames` frames, and what it does next. -/
structure KeepsCount (pool : FramePool) (frames : Nat) : Prop where
  capacity_eq : pool.capacity = frames
  /-- The counter is the number of entries that are out. -/
  allocated_eq : pool.allocated = pool.map.countP (·.allocated)
  /-- What is pinned is out. -/
  allocated_of_pinned : ∀ (frame : Nat) (entry : CoreMapEntry), pool.map[frame]? = some entry →
    entry.pinned = true → entry.allocated = true
  /-- If the counter says that all frames are out, none is handed out. -/
  exhausted : pool.allocated = pool.capacity → PoolCall.alloc.perform pool = .ok none pool
  /-- Otherwise one is that was free. It is out and not pinned then. -/
  allocates : pool.allocated ≠ pool.capacity → ∃ frame entry after,
    PoolCall.alloc.perform pool = .ok (some frame) after ∧
      pool.map[frame]? = some entry ∧ entry.allocated = false ∧
        after.map[frame]? = some { allocated := true, pinned := false } ∧ SameBut frame pool after
  /-- A frame that is out can be given back, and neither it nor its pin is left. -/
  deallocates : ∀ frame, pool.isAllocated frame = true → ∃ after,
    (PoolCall.dealloc frame).perform pool = .ok none after ∧
      after.map[frame]? = some { allocated := false, pinned := false } ∧ SameBut frame pool after
  /-- A frame that is out can be pinned and unpinned. -/
  pins : ∀ frame on, pool.isAllocated frame = true → ∃ after,
    (PoolCall.setPinned frame on).perform pool = .ok none after ∧
      after.map[frame]? = some { allocated := true, pinned := on } ∧ SameBut frame pool after
  /-- To give back a frame that is free halts, and the pool is left as it was. -/
  refuses : ∀ frame, frame < pool.capacity → pool.isAllocated frame = false →
    (PoolCall.dealloc frame).perform pool = .error (.doubleFree frame) pool

variable {pool after : FramePool} {frame : Nat} {out pinned : List Nat}

/-! ### One entry -/

/-- The entry of a frame was replaced. -/
theorem getElem?_setEntry (hlt : frame < pool.capacity) (entry : CoreMapEntry) :
    (pool.setEntry frame entry).map[frame]? = some entry := by
  rw [setEntry, Array.getElem?_setIfInBounds_self_of_lt hlt]

/-- No other entry was. -/
theorem sameBut_setEntry (pool : FramePool) (frame : Nat) (entry : CoreMapEntry) :
    SameBut frame pool (pool.setEntry frame entry) := by
  intro other hne
  rw [setEntry, Array.getElem?_setIfInBounds_ne (Ne.symm hne)]

/-- The entry of a frame that is out. -/
theorem exists_entry (h : pool.isAllocated frame = true) :
    ∃ entry, pool.map[frame]? = some entry ∧ entry.allocated = true ∧ frame < pool.capacity := by
  obtain ⟨entry, hentry, hout⟩ := (Option.any_eq_true ..).mp h
  exact ⟨entry, hentry, hout, (Array.getElem?_eq_some_iff.mp hentry).1⟩

/-- The frame that was handed out, and what was changed. -/
theorem alloc_eq_some (h : pool.alloc = .ok (some frame, after)) :
    pool.map.isFree frame = true ∧ after.map = (pool.setEntry frame { allocated := true }).map := by
  unfold FramePool.alloc at h
  split at h
  · cases h
  · cases hplace : (pool.placer.place pool.map 1).1 with
    | none =>
      simp only [hplace] at h
      cases h
    | some place =>
      have hfree := PoolCall.isFree_of_place hplace
      simp only [hplace, hfree, if_true] at h
      cases h
      exact ⟨hfree, rfl⟩

/-! ### The pool after any calls -/

/-- The number of frames that are out is the number of entries that say so. -/
theorem Accounts.allocated_eq_countP (h : pool.Accounts out pinned) :
    pool.allocated = pool.map.countP (·.allocated) := by
  have hentries : pool.map.toList = (List.range pool.capacity).map fun f => pool.map[f]?.getD {} := by
    apply List.ext_getElem
    · simp [capacity]
    · intro f hf _
      have hlt : f < pool.map.size := by simpa using hf
      simp [hlt]
  have hout : ((List.range pool.capacity).filter fun f => pool.isAllocated f).Perm out := by
    rw [List.perm_ext_iff_of_nodup (List.nodup_range.filter _) h.nodup]
    intro f
    rw [List.mem_filter, List.mem_range, h.isAllocated_iff]
    exact ⟨fun hf => hf.2, fun hf => ⟨h.lt_capacity hf, hf⟩⟩
  rw [h.allocated_eq, ← hout.length_eq, ← Array.countP_toList, hentries, List.countP_map,
    ← List.countP_eq_length_filter]
  apply List.countP_congr
  intro f hf
  have hlt : f < pool.map.size := List.mem_range.mp hf
  simp [isAllocated, hlt]

/-- A pool whose frames are accounted for keeps count. -/
theorem Accounts.keeps (h : pool.Accounts out pinned) : pool.KeepsCount pool.capacity where
  capacity_eq := rfl
  allocated_eq := h.allocated_eq_countP
  allocated_of_pinned := by
    intro frame entry hentry hpinned
    have hin : frame ∈ pinned := by
      rw [← h.isPinned_iff, isPinned, hentry]
      exact hpinned
    have hout := (h.isAllocated_iff frame).mpr (h.pinned_subset frame hin)
    rwa [isAllocated, hentry] at hout
  exhausted := by
    intro hfull
    exact if_pos hfull
  allocates := by
    intro hroom
    rcases h.alloc_cases with ⟨hfull, -⟩ | ⟨-, frame, after, halloc⟩
    · exact absurd hfull hroom
    · obtain ⟨hfree, hmap⟩ := alloc_eq_some halloc
      obtain ⟨entry, hentry, hnot⟩ := (Option.any_eq_true ..).mp hfree
      have hlt := (Array.getElem?_eq_some_iff.mp hentry).1
      refine ⟨frame, entry, after, PoolCall.perform_eq_ok.mpr halloc, hentry, ?_, ?_, ?_⟩
      · simpa using hnot
      · rw [hmap]
        exact getElem?_setEntry hlt _
      · intro other hne
        rw [hmap]
        exact sameBut_setEntry pool frame _ other hne
  deallocates := by
    intro frame hallocated
    obtain ⟨entry, hentry, hout, hlt⟩ := exists_entry hallocated
    have hpos : pool.allocated ≠ 0 := by
      have hmem := (h.isAllocated_iff frame).mp hallocated
      have hlength := List.length_pos_of_mem hmem
      rw [h.allocated_eq]
      omega
    refine ⟨{ pool.setEntry frame {} with allocated := pool.allocated - 1 }, ?_, ?_, ?_⟩
    · simp only [PoolCall.perform, hentry, hout, if_true]
      exact if_neg hpos
    · exact getElem?_setEntry hlt _
    · exact sameBut_setEntry pool frame _
  pins := by
    intro frame on hallocated
    obtain ⟨entry, hentry, hout, hlt⟩ := exists_entry hallocated
    refine ⟨pool.setEntry frame { entry with pinned := on }, ?_, ?_, ?_⟩
    · simp only [PoolCall.perform, hentry, hout, if_true]
    · rw [getElem?_setEntry hlt, hout]
    · exact sameBut_setEntry pool frame _
  refuses := by
    intro frame hlt hfree
    exact PoolCall.perform_dealloc_free hlt hfree

/-- What one permitted call keeps: the pool keeps count. -/
theorem Accounts.perform (h : pool.Accounts out pinned) {call : PoolCall} {answer : Option Nat}
    (hpermitted : call.Permitted pool) (hrun : call.perform pool = .ok answer after) :
    after.capacity = pool.capacity ∧ ∃ out pinned, after.Accounts out pinned := by
  rw [PoolCall.perform_eq_ok] at hrun
  cases call with
  | alloc =>
    obtain ⟨hcapacity, hafter⟩ := h.alloc hrun
    cases answer with
    | none => exact ⟨hcapacity, out, pinned, hafter⟩
    | some frame => exact ⟨hcapacity, frame :: out, pinned, hafter.2⟩
  | dealloc frame =>
    have hmem := (h.isAllocated_iff frame).mp hpermitted
    have hmoved := h.perm (List.perm_cons_erase hmem) fun _ => Iff.rfl
    obtain ⟨pool', hdealloc, hcapacity, hafter⟩ := hmoved.dealloc
    rw [PoolCall.outcome, hdealloc] at hrun
    cases hrun
    exact ⟨hcapacity, _, _, hafter⟩
  | setPinned frame on =>
    rw [PoolCall.outcome] at hrun
    cases hset : pool.setPinned frame on with
    | error halt =>
      rw [hset] at hrun
      cases hrun
    | ok pool' =>
      rw [hset] at hrun
      cases hrun
      obtain ⟨hcapacity, -, hafter⟩ := h.setPinned hset
      exact ⟨hcapacity, _, _, hafter⟩

/-- After any calls the pool has as many frames as at first, and it accounts for those that are out. -/
theorem Reached.accounts {frames : Nat} {placement : Placement} {calls : List PoolCall}
    (h : Reached frames placement calls pool) :
    pool.capacity = frames ∧ ∃ out pinned, pool.Accounts out pinned := by
  induction h with
  | nil => exact ⟨Array.size_replicate, [], [], accounts_ofSize frames placement⟩
  | snoc _ hpermitted hrun ih =>
    obtain ⟨hcapacity, out, pinned, haccounts⟩ := ih
    obtain ⟨hkept, hafter⟩ := haccounts.perform hpermitted hrun
    exact ⟨hkept.trans hcapacity, hafter⟩

/-- A pool that calls lead to by evaluation is one that they lead to. -/
theorem reached_of_replay {frames : Nat} {placement : Placement} {calls : List PoolCall}
    (h : replay frames placement calls = some pool) : Reached frames placement calls pool := by
  refine of_foldlM .nil (fun earlier call before after hearlier hlast => ?_) h
  split at hlast
  · rename_i hpermitted
    split at hlast
    · rename_i answer middle hrun
      cases hlast
      exact hearlier.snoc hpermitted hrun
    · cases hlast
  · cases hlast

/-- After any permitted calls the pool keeps count, whatever its size and whichever policy places the
frames. -/
theorem Reached.keepsCount {frames : Nat} {placement : Placement} {calls : List PoolCall}
    (h : Reached frames placement calls pool) : pool.KeepsCount frames := by
  obtain ⟨rfl, out, pinned, haccounts⟩ := h.accounts
  exact haccounts.keeps

/-- Next fit goes on behind a frame that was given back, and its pin is gone when it comes round again. -/
theorem keepsCount_sample : ∃ pool,
    Reached 3 .nextFit
      [.alloc, .alloc, .setPinned 0 true, .dealloc 0, .alloc, .alloc, .setPinned 2 true] pool ∧
      pool.allocated = 3 ∧ pool.isPinned 0 = false ∧ pool.isPinned 2 = true ∧ pool.KeepsCount 3 := by
  have hreplay : (replay 3 .nextFit
      [.alloc, .alloc, .setPinned 0 true, .dealloc 0, .alloc, .alloc, .setPinned 2 true]).any
      (fun pool => pool.allocated = 3 && !pool.isPinned 0 && pool.isPinned 2) = true := by decide +kernel
  obtain ⟨pool, hpool, hfacts⟩ := Option.any_eq_true _ _ |>.mp hreplay
  simp only [Bool.and_eq_true, Bool.not_eq_true', decide_eq_true_eq] at hfacts
  have hreached := reached_of_replay hpool
  exact ⟨pool, hreached, hfacts.1.1, hfacts.1.2, hfacts.2, hreached.keepsCount⟩

end FramePool

end DemandPaging
