import DemandPaging.Proofs.Ensures
import Mathlib.Data.List.Nodup
import Mathlib.Data.List.Perm.Subperm

/-!
# Frames as a set

`FramePool.Accounts pool out pinned` says that exactly the frames `out` are handed out, that exactly
the frames `pinned` among them are pinned, and that the count is right. Under it the pool hands out
only frames that were not out, and taking back a frame that is out cannot fail.

The records of the frame table are a list, and a record leaves it by its place; `exists_split` turns
the place into a split of the list, which is what the later proofs work with.

All that an operation of the frame table can do when it does not halt is said once (`exists_of_insert` and
so on); what stays the same follows from that.
-/

set_option autoImplicit false

namespace DemandPaging

namespace FramePool

/-- Exactly the frames `out` are out, and exactly the frames `pinned` are pinned. -/
structure Accounts (pool : FramePool) (out pinned : List Nat) : Prop where
  nodup : out.Nodup
  isAllocated_iff : ∀ f, pool.isAllocated f = true ↔ f ∈ out
  allocated_eq : pool.allocated = out.length
  isPinned_iff : ∀ f, pool.isPinned f = true ↔ f ∈ pinned
  pinned_subset : ∀ f ∈ pinned, f ∈ out

variable {pool : FramePool} {out pinned : List Nat}

/-- A frame that is out exists. -/
theorem Accounts.lt_capacity (h : pool.Accounts out pinned) {f : Nat} (hf : f ∈ out) :
    f < pool.capacity := by
  have hout := (h.isAllocated_iff f).mpr hf
  by_contra hge
  rw [isAllocated, Array.getElem?_eq_none (Nat.le_of_not_lt hge)] at hout
  cases hout

/-- No more frames are out than there are. -/
theorem Accounts.allocated_le (h : pool.Accounts out pinned) : pool.allocated ≤ pool.capacity := by
  have hsub : out.Subperm (List.range pool.capacity) := by
    apply h.nodup.subperm
    intro f hf
    exact List.mem_range.mpr (h.lt_capacity hf)
  have hlen := hsub.length_le
  rw [List.length_range] at hlen
  exact h.allocated_eq ▸ hlen

/-- The order in which the frames are listed does not matter. -/
theorem Accounts.perm (h : pool.Accounts out pinned) {out' pinned' : List Nat}
    (hout : out.Perm out') (hpinned : ∀ f, f ∈ pinned ↔ f ∈ pinned') :
    pool.Accounts out' pinned' where
  nodup := hout.nodup h.nodup
  isAllocated_iff f := (h.isAllocated_iff f).trans hout.mem_iff
  allocated_eq := h.allocated_eq.trans hout.length_eq
  isPinned_iff f := (h.isPinned_iff f).trans (hpinned f)
  pinned_subset f hf := hout.mem_iff.mp (h.pinned_subset f ((hpinned f).mpr hf))

/-- All frames of a fresh pool are free. -/
theorem accounts_ofSize (frames : Nat) (placement : Placement) :
    (ofSize frames placement).Accounts [] [] where
  nodup := List.nodup_nil
  isAllocated_iff f := by
    simp only [isAllocated, ofSize, Array.getElem?_replicate]
    split <;> simp
  allocated_eq := rfl
  isPinned_iff f := by
    simp only [isPinned, ofSize, Array.getElem?_replicate]
    split <;> simp
  pinned_subset f hf := by cases hf

/-- What is known of the frames after the entry of one of them was replaced. -/
theorem isAllocated_setEntry {frame : Nat} (hlt : frame < pool.capacity) (entry : CoreMapEntry)
    (f : Nat) :
    (pool.setEntry frame entry).isAllocated f =
      if frame = f then entry.allocated else pool.isAllocated f := by
  simp only [isAllocated, setEntry, Array.getElem?_setIfInBounds]
  split
  · have : frame < pool.map.size := hlt
    simp [this]
  · rfl

/-- What is known of the pins after the entry of a frame was replaced. -/
theorem isPinned_setEntry {frame : Nat} (hlt : frame < pool.capacity) (entry : CoreMapEntry)
    (f : Nat) :
    (pool.setEntry frame entry).isPinned f =
      if frame = f then entry.pinned else pool.isPinned f := by
  simp only [isPinned, setEntry, Array.getElem?_setIfInBounds]
  split
  · have : frame < pool.map.size := hlt
    simp [this]
  · rfl

/-- To replace an entry adds no frame. -/
@[simp] theorem capacity_setEntry {frame : Nat} {entry : CoreMapEntry} :
    (pool.setEntry frame entry).capacity = pool.capacity := by simp [capacity, setEntry]

/-- Asking the pool for a frame: there is none, or one that was not out comes out unpinned. -/
theorem Accounts.alloc (h : pool.Accounts out pinned) {frame? : Option Nat} {pool' : FramePool}
    (hrun : pool.alloc = .ok (frame?, pool')) :
    pool'.capacity = pool.capacity ∧
      match frame? with
      | none => pool'.Accounts out pinned
      | some frame => frame ∉ out ∧ pool'.Accounts (frame :: out) pinned := by
  unfold FramePool.alloc at hrun
  split at hrun
  · cases hrun
    exact ⟨rfl, h⟩
  · cases hplace : (pool.placer.place pool.map 1).1 with
    | none =>
      simp only [hplace, Except.ok.injEq, Prod.mk.injEq] at hrun
      obtain ⟨rfl, rfl⟩ := hrun
      exact ⟨rfl, h.nodup, h.isAllocated_iff, h.allocated_eq, h.isPinned_iff, h.pinned_subset⟩
    | some frame =>
      simp only [hplace] at hrun
      split at hrun
      · rename_i hfree
        simp only [Except.ok.injEq, Prod.mk.injEq] at hrun
        obtain ⟨rfl, rfl⟩ := hrun
        have hlt : frame < pool.capacity := by
          by_contra hge
          rw [CoreMap.isFree, Array.getElem?_eq_none (Nat.le_of_not_lt hge)] at hfree
          cases hfree
        have hnot : frame ∉ out := by
          rw [← h.isAllocated_iff, isAllocated]
          rw [CoreMap.isFree] at hfree
          cases he : pool.map[frame]? with
          | none => simp
          | some e => simpa [he] using hfree
        refine ⟨capacity_setEntry, hnot, List.nodup_cons.mpr ⟨hnot, h.nodup⟩, ?_, ?_, ?_, ?_⟩
        · intro f
          refine (iff_of_eq (congrArg (· = true) (isAllocated_setEntry hlt _ f))).trans ?_
          split
          · subst f
            simp
          · rename_i hf
            rw [h.isAllocated_iff, List.mem_cons]
            simp [Ne.symm hf]
        · exact congrArg (· + 1) h.allocated_eq
        · intro f
          refine (iff_of_eq (congrArg (· = true) (isPinned_setEntry hlt _ f))).trans ?_
          split
          · subst f
            simpa using fun hp => hnot (h.pinned_subset _ hp)
          · exact h.isPinned_iff f
        · intro f hf
          exact List.mem_cons_of_mem _ (h.pinned_subset f hf)
      · cases hrun

/-- The pool halts only if it breaks its own promise. -/
theorem not_isDoubleRelease_of_alloc {halt : Halt} (hrun : pool.alloc = .error halt) :
    halt.isDoubleRelease = false := by
  unfold FramePool.alloc at hrun
  split at hrun
  · cases hrun
  · cases hplace : (pool.placer.place pool.map 1).1 with
    | none => simp [hplace] at hrun
    | some frame =>
      simp only [hplace] at hrun
      split at hrun
      · cases hrun
      · cases hrun
        rfl

/-- If a frame cannot be pinned, it is not because it was given back twice. -/
theorem not_isDoubleRelease_of_setPinned {frame : Nat} {on : Bool} {halt : Halt}
    (hrun : pool.setPinned frame on = .error halt) : halt.isDoubleRelease = false := by
  unfold FramePool.setPinned FramePool.entry at hrun
  cases hentry : pool.map[frame]? with
  | none =>
    simp only [hentry, Except.error.injEq] at hrun
    subst hrun
    rfl
  | some entry =>
    simp only [hentry] at hrun
    split at hrun
    · cases hrun
      rfl
    · cases hrun

/-- Taking back a frame that is out works, and only that frame is in again. -/
theorem Accounts.dealloc {frame : Nat} (h : pool.Accounts (frame :: out) pinned) :
    ∃ pool', pool.dealloc frame = .ok pool' ∧ pool'.capacity = pool.capacity ∧
      pool'.Accounts out (pinned.filter (· ≠ frame)) := by
  have hlt := h.lt_capacity List.mem_cons_self
  have hnot := (List.nodup_cons.mp h.nodup).1
  have hentry : pool.map[frame]? = some (pool.map[frame]) := Array.getElem?_eq_getElem hlt
  generalize pool.map[frame] = entry at hentry
  have hallocated : entry.allocated = true := by
    have := (h.isAllocated_iff frame).mpr List.mem_cons_self
    simpa [isAllocated, hentry] using this
  have hpos : pool.allocated ≠ 0 := by
    rw [h.allocated_eq, List.length_cons]
    omega
  refine ⟨{ pool.setEntry frame {} with allocated := pool.allocated - 1 }, ?_, capacity_setEntry,
    (List.nodup_cons.mp h.nodup).2, ?_, ?_, ?_, ?_⟩
  · simp [FramePool.dealloc, FramePool.entry, hentry, hallocated, hpos]
  · intro f
    refine (iff_of_eq (congrArg (· = true) (isAllocated_setEntry hlt _ f))).trans ?_
    split
    · subst f
      simpa using hnot
    · rename_i hf
      rw [h.isAllocated_iff, List.mem_cons]
      simp [Ne.symm hf]
  · change pool.allocated - 1 = out.length
    rw [h.allocated_eq, List.length_cons, Nat.add_sub_cancel]
  · intro f
    refine (iff_of_eq (congrArg (· = true) (isPinned_setEntry hlt _ f))).trans ?_
    rw [List.mem_filter]
    split
    · subst f
      simp
    · rename_i hf
      simp [h.isPinned_iff, Ne.symm hf]
  · intro f hf
    rw [List.mem_filter, decide_eq_true_eq] at hf
    have := h.pinned_subset f hf.1
    rw [List.mem_cons] at this
    exact this.resolve_left hf.2

/-- Pinning and unpinning change only the pin of the one frame. -/
theorem Accounts.setPinned (h : pool.Accounts out pinned) {frame : Nat} {on : Bool}
    {pool' : FramePool} (hrun : pool.setPinned frame on = .ok pool') :
    pool'.capacity = pool.capacity ∧ frame ∈ out ∧
      pool'.Accounts out (if on then frame :: pinned else pinned.filter (· ≠ frame)) := by
  unfold FramePool.setPinned FramePool.entry at hrun
  cases hentry : pool.map[frame]? with
  | none => simp [hentry] at hrun
  | some entry =>
    have hlt : frame < pool.capacity := (Array.getElem?_eq_some_iff.mp hentry).1
    simp only [hentry] at hrun
    split at hrun
    · cases hrun
    · rename_i hallocated
      rw [not_not] at hallocated
      cases hrun
      have hout : frame ∈ out := by
        rw [← h.isAllocated_iff]
        simpa [isAllocated, hentry] using hallocated
      refine ⟨capacity_setEntry, hout, h.nodup, ?_, h.allocated_eq, ?_, ?_⟩
      · intro f
        rw [isAllocated_setEntry hlt]
        split
        · subst f
          exact iff_of_true hallocated hout
        · exact h.isAllocated_iff f
      · intro f
        rw [isPinned_setEntry hlt]
        split
        · subst f
          cases on <;> simp
        · rename_i hf
          rw [h.isPinned_iff]
          cases on <;> simp [Ne.symm hf]
      · intro f hf
        cases on with
        | false => exact h.pinned_subset f (List.mem_filter.mp hf).1
        | true =>
          rcases List.mem_cons.mp hf with rfl | hf
          · exact hout
          · exact h.pinned_subset f hf

end FramePool

namespace FrameTable

variable {table : FrameTable}

/-- A record stands between those before it and those after it. -/
theorem exists_split_of_getElem? {records : List FrameRecord} {index : Nat} {record : FrameRecord}
    (h : records[index]? = some record) :
    ∃ before after, records = before ++ record :: after ∧ before.length = index := by
  obtain ⟨hlt, rfl⟩ := List.getElem?_eq_some_iff.mp h
  refine ⟨records.take index, records.drop (index + 1), ?_, ?_⟩
  · rw [← List.drop_eq_getElem_cons hlt, List.take_append_drop]
  · rw [List.length_take, Nat.min_eq_left (Nat.le_of_lt hlt)]

/-- A frame that has a record stands at some place of the list. -/
theorem exists_split {frame index : Nat} (h : table.position? frame = some index) :
    ∃ before record after, table.records = before ++ record :: after ∧ record.frame = frame ∧
      before.length = index := by
  obtain ⟨hlt, hframe, -⟩ := List.findIdx?_eq_some_iff_getElem.mp h
  obtain ⟨before, after, hsplit, hlength⟩ :=
    exists_split_of_getElem? (List.getElem?_eq_getElem hlt)
  exact ⟨before, _, after, hsplit, by simpa using hframe, hlength⟩

/-- A frame whose record is in the list has a place there. -/
theorem position?_isSome {record : FrameRecord} (h : record ∈ table.records) :
    (table.position? record.frame).isSome = true := by
  rw [position?, List.findIdx?_isSome, List.any_eq_true]
  exact ⟨record, h, by simp⟩

/-- The place of a record whose frame no other record has. -/
theorem position?_eq_length {frame index : Nat} {front rear : List FrameRecord}
    {record : FrameRecord} (h : table.position? frame = some index)
    (hsplit : table.records = front ++ record :: rear)
    (hnot : frame ∉ (front ++ rear).map (·.frame)) : index = front.length := by
  obtain ⟨front', record', rear', hsplit', hframe', hlength'⟩ := exists_split h
  rw [hsplit] at hsplit'
  rcases List.append_eq_append_iff.mp hsplit' with ⟨middle, hfront, hrear⟩ | ⟨middle, hfront, hrear⟩
  · cases middle with
    | nil =>
      rw [List.append_nil] at hfront
      rw [← hlength', hfront]
    | cons r middle =>
      obtain ⟨-, hrear⟩ := List.cons.inj hrear
      refine absurd (List.mem_map.mpr ⟨record', ?_, hframe'⟩) hnot
      simp [hrear]
  · cases middle with
    | nil =>
      rw [List.append_nil] at hfront
      rw [← hlength', hfront]
    | cons r middle =>
      obtain ⟨rfl, -⟩ := List.cons.inj hrear
      refine absurd (List.mem_map.mpr ⟨record', ?_, hframe'⟩) hnot
      simp [hfront]

/-- The frames of some records, with the one of a record in the middle last. -/
theorem perm_frames (front rear : List FrameRecord) (record : FrameRecord) :
    ((front ++ record :: rear).map (·.frame)).Perm
      ((front ++ rear).map (·.frame) ++ [record.frame]) :=
  (List.perm_middle.map _).trans (List.perm_append_singleton _ _).symm

/-- The list without the record at some place. -/
theorem records_removeAt {before after : List FrameRecord} {record : FrameRecord}
    (h : table.records = before ++ record :: after) :
    (table.removeAt before.length).records = before ++ after := by
  simp only [removeAt, h]
  rw [List.eraseIdx_append_of_length_le (Nat.le_refl _)]
  simp

/-- A frame backs a page if that is the only record of the frame. -/
theorem isBacking_of_mem {frame p : Nat} {s : SpaceId} (hnodup : (table.records.map (·.frame)).Nodup)
    (hmem : ⟨frame, s, some p⟩ ∈ table.records) : table.isBacking frame s p = true := by
  unfold isBacking record?
  cases hfind : table.records.find? (·.frame == frame) with
  | none => simpa using List.find?_eq_none.mp hfind _ hmem
  | some record =>
    have hrecord : record.frame = frame := by simpa using List.find?_some hfind
    rw [List.inj_on_of_nodup_map hnodup (List.mem_of_find?_eq_some hfind) hmem hrecord]
    simp

/-! ### What each operation can do -/

section

variable {table' : FrameTable} {frame : Nat}

/-- To record a frame sets its pin and puts the record at the end. -/
theorem exists_of_insert {record : FrameRecord} {pinned : Bool}
    (h : table.insert record pinned = .ok table') :
    ∃ pool, table.pool.setPinned record.frame pinned = .ok pool ∧
      table' = { table with pool, records := table.records ++ [record] } := by
  unfold insert at h
  cases hpool : table.pool.setPinned record.frame pinned with
  | error halt => simp only [hpool, reduceCtorEq] at h
  | ok pool =>
    simp only [hpool, Except.ok.injEq] at h
    exact ⟨pool, rfl, h.symm⟩

/-- To take a free frame asks the pool, and records what the pool hands out. The frame is pinned if it is
taken for a page. -/
theorem exists_of_allocFree {owner : SpaceId} {page found : Option Nat}
    (h : table.allocFree owner page = .ok (found, table')) :
    ∃ pool, table.pool.alloc = .ok (found, pool) ∧
      match found with
      | none => table' = { table with pool }
      | some frame =>
        ({ table with pool } : FrameTable).insert { frame, owner, page } page.isSome = .ok table' := by
  unfold allocFree at h
  split at h
  · cases h
  · rename_i pool halloc
    cases h
    exact ⟨pool, halloc, rfl⟩
  · rename_i pool halloc
    split at h
    · cases h
    · rename_i hinsert
      cases h
      exact ⟨pool, halloc, hinsert⟩

/-- Only a frame with a record is unpinned. -/
theorem exists_of_unpin (h : table.unpin frame = .ok table') :
    table.position? frame = none ∧ table' = table ∨
      ∃ pool, table.pool.setPinned frame false = .ok pool ∧ table' = { table with pool } := by
  unfold unpin at h
  split at h
  · rename_i hnone
    cases h
    exact .inl ⟨hnone, rfl⟩
  · split at h
    · cases h
    · rename_i pool hpool
      cases h
      exact .inr ⟨pool, hpool, rfl⟩

/-- Only a frame that backs the page is pinned. -/
theorem exists_of_pinIfBacking {owner : SpaceId} {page : Nat} {backs : Bool}
    (h : table.pinIfBacking frame owner page = .ok (backs, table')) :
    table.isBacking frame owner page = backs ∧
      if backs then ∃ pool, table.pool.setPinned frame true = .ok pool ∧ table' = { table with pool }
      else table' = table := by
  unfold pinIfBacking at h
  split at h
  · rename_i hbacking
    split at h
    · cases h
    · rename_i pool hpool
      cases h
      exact ⟨hbacking, pool, hpool, rfl⟩
  · rename_i hbacking
    cases h
    exact ⟨Bool.eq_false_iff.mpr hbacking, rfl⟩

/-- Only a frame with a record is given back. -/
theorem exists_of_free (h : table.free frame = .ok table') :
    table.position? frame = none ∧ table' = table ∨
      ∃ index pool, table.position? frame = some index ∧ table.pool.dealloc frame = .ok pool ∧
        table' = { table.removeAt index with pool } := by
  unfold free at h
  split at h
  · rename_i hnone
    cases h
    exact .inl ⟨hnone, rfl⟩
  · rename_i index hposition
    split at h
    · cases h
    · rename_i pool hpool
      cases h
      exact .inr ⟨index, pool, hposition, hpool, rfl⟩

/-- What is recorded and what is pinned does not matter to what is in the frames. -/
theorem memory_insert {record : FrameRecord} {pinned : Bool}
    (h : table.insert record pinned = .ok table') : table'.memory = table.memory := by
  obtain ⟨_, -, rfl⟩ := exists_of_insert h
  rfl

/-- To take a frame out does not change what is in it. -/
theorem memory_allocFree {owner : SpaceId} {page found : Option Nat}
    (h : table.allocFree owner page = .ok (found, table')) : table'.memory = table.memory := by
  obtain ⟨pool, -, hfound⟩ := exists_of_allocFree h
  cases found with
  | none => exact congrArg (·.memory) hfound
  | some frame => exact (memory_insert hfound :)

/-- To unpin a frame does not change what is in it. -/
theorem memory_unpin (h : table.unpin frame = .ok table') : table'.memory = table.memory := by
  obtain ⟨-, rfl⟩ | ⟨_, -, rfl⟩ := exists_of_unpin h
  · rfl
  · rfl

/-- To give a frame back does not change what is in it. -/
theorem memory_free (h : table.free frame = .ok table') : table'.memory = table.memory := by
  obtain ⟨-, rfl⟩ | ⟨_, _, -, -, rfl⟩ := exists_of_free h
  · rfl
  · rfl

end

end FrameTable

end DemandPaging
