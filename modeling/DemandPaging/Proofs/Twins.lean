import DemandPaging.Proofs.Agreements
import DemandPaging.Proofs.Placements
import DemandPaging.Proofs.Renamings
import DemandPaging.Proofs.Steadiness
import DemandPaging.Proofs.Transfers

/-!
# Twins

Two machines are twins if they differ only in which frame is where: there is a renaming of frames that
carries the records, the page directories and the pins of one to those of the other, frames that are out
have the same bytes under both names, and all else is the same but for what was said and for how the
pools choose the next frame (`Machine.Twin`). While a frame is being loaded its bytes are of no account;
it is `stale`.

Twins have the same `Sizes`, and keep them. So a machine that is followed as its own twin keeps its sizes.

Each primitive transition does the same to twins, up to the renaming. Only to hand out a frame takes
another one, since the pools may choose frames that do not have the same name (`FramePool.Twin.alloc`).
-/

set_option autoImplicit false

namespace DemandPaging

open Spaces

open Transition

/-! ### Pools -/

namespace FramePool

variable {σ : Equiv.Perm Nat} {pool other pool' : FramePool} {out pinned : List Nat} {n f : Nat}

/-- The pools know the same of each frame under its name in each. -/
structure Twin (σ : Equiv.Perm Nat) (pool other : FramePool) : Prop where
  map : ∀ f, other.map[σ f]? = pool.map[f]?
  allocated : other.allocated = pool.allocated
  capacity : other.capacity = pool.capacity

/-- A frame is out under both names or under none. -/
theorem Twin.isAllocated (h : pool.Twin σ other) (f : Nat) :
    other.isAllocated (σ f) = pool.isAllocated f := by
  rw [FramePool.isAllocated, h.map, FramePool.isAllocated]

/-- A frame is pinned under both names or under none. -/
theorem Twin.isPinned (h : pool.Twin σ other) (f : Nat) : other.isPinned (σ f) = pool.isPinned f := by
  rw [FramePool.isPinned, h.map, FramePool.isPinned]

/-- The frames that are out of one pool are, renamed, those that are out of the other one, and so are the
pinned ones. -/
theorem Twin.accounts (h : pool.Twin σ other) (ha : pool.Accounts out pinned) :
    other.Accounts (out.map σ) (pinned.map σ) where
  nodup := ha.nodup.map σ.injective
  isAllocated_iff g := by
    rw [← σ.apply_symm_apply g, h.isAllocated, ha.isAllocated_iff, List.mem_map_of_injective σ.injective]
  allocated_eq := by rw [h.allocated, ha.allocated_eq, List.length_map]
  isPinned_iff g := by
    rw [← σ.apply_symm_apply g, h.isPinned, ha.isPinned_iff, List.mem_map_of_injective σ.injective]
  pinned_subset g hg := by
    obtain ⟨f, hf, rfl⟩ := List.mem_map.mp hg
    exact List.mem_map_of_mem (ha.pinned_subset f hf)

/-- Frames that are out exist. -/
theorem lt_capacity_of_isAllocated (h : pool.isAllocated f = true) : f < pool.capacity := by
  by_contra hge
  rw [FramePool.isAllocated, Array.getElem?_eq_none (Nat.le_of_not_lt hge)] at h
  cases h

/-- What is known of a free frame is nothing. -/
theorem Accounts.entry_of_isFree (h : pool.Accounts out pinned) (hfree : pool.map.isFree f = true) :
    pool.map[f]? = some {} := by
  rw [CoreMap.isFree] at hfree
  cases hentry : pool.map[f]? with
  | none =>
    rw [hentry] at hfree
    cases hfree
  | some entry =>
    rw [hentry, Option.any_some, Bool.not_eq_true'] at hfree
    have hnot : f ∉ out := by
      rw [← h.isAllocated_iff, FramePool.isAllocated, hentry, Option.any_some, hfree]
      exact Bool.false_ne_true
    have hpinned : ¬ pool.isPinned f = true := fun hp =>
      hnot (h.pinned_subset f ((h.isPinned_iff f).mp hp))
    rw [FramePool.isPinned, hentry, Option.any_some, Bool.not_eq_true] at hpinned
    obtain ⟨allocated, pinned⟩ := entry
    dsimp only at hfree hpinned
    rw [hfree, hpinned]

/-- The pool hands out a free frame, and knows of it from then on. -/
theorem eq_of_alloc (h : pool.alloc = .ok (some f, pool')) :
    pool.map.isFree f = true ∧ pool'.map = pool.map.setIfInBounds f { allocated := true } ∧
      pool'.allocated = pool.allocated + 1 := by
  unfold alloc at h
  split at h
  · cases h
  cases hplace : (pool.placer.place pool.map 1).1 with
  | none =>
    simp only [hplace, Except.ok.injEq, Prod.mk.injEq, reduceCtorEq, false_and] at h
  | some place =>
    simp only [hplace] at h
    split at h
    · cases h
      exact ⟨‹_›, rfl, rfl⟩
    · cases h

/-- Two pools hand out a frame or have none, whichever frames they choose. -/
theorem Twin.alloc (h : pool.Twin σ other) (hrenames : Renames n σ) (hn : pool.capacity = n)
    (ha : pool.Accounts out pinned) :
    (pool.alloc = .ok (none, pool) ∧ other.alloc = .ok (none, other)) ∨
      ∃ f g pool' other', pool.alloc = .ok (some f, pool') ∧ other.alloc = .ok (some g, other') ∧
        f ∉ out ∧ Renames n (moved σ f g) ∧ (∀ x ∈ out, moved σ f g x = σ x) ∧
        pool'.Twin (moved σ f g) other' := by
  have ha' := h.accounts ha
  rcases ha.alloc_cases with ⟨hfull, hnone⟩ | ⟨hroom, f, pool', halloc⟩
  · refine .inl ⟨hnone, ?_⟩
    rcases ha'.alloc_cases with ⟨-, hnone'⟩ | ⟨hroom', -⟩
    · exact hnone'
    · rw [h.allocated, h.capacity] at hroom'
      omega
  rcases ha'.alloc_cases with ⟨hfull', -⟩ | ⟨-, g, other', halloc'⟩
  · rw [h.allocated, h.capacity] at hfull'
    omega
  obtain ⟨hfree, hmap, hallocated⟩ := eq_of_alloc halloc
  obtain ⟨hfree', hmap', hallocated'⟩ := eq_of_alloc halloc'
  have hf := CoreMap.lt_size_of_isFree hfree
  have hg := CoreMap.lt_size_of_isFree hfree'
  have hentry := ha.entry_of_isFree hfree
  have hentry' := ha'.entry_of_isFree hfree'
  have hnot := (ha.alloc halloc).2.1
  have hnot' := (ha'.alloc halloc').2.1
  have hg' : g < n := by
    rw [← hn, ← h.capacity]
    exact hg
  refine .inr ⟨f, g, pool', other', halloc, halloc', hnot, hrenames.moved (hn ▸ hf) hg', fun x hx => ?_,
    ⟨fun x => ?_, ?_, ?_⟩⟩
  · refine moved_of_ne (fun heq => hnot (heq ▸ hx)) fun heq => hnot' ?_
    exact heq ▸ List.mem_map_of_mem hx
  · rw [hmap, hmap']
    by_cases hxf : x = f
    · subst x
      rw [moved_apply, Array.getElem?_setIfInBounds_self_of_lt hf,
        Array.getElem?_setIfInBounds_self_of_lt hg]
    rw [Array.getElem?_setIfInBounds_ne (Ne.symm hxf)]
    by_cases hxg : σ x = g
    · -- the frame that had the name is as free as the one that has it now
      have hfg : g ≠ σ f := fun heq => hxf (σ.injective (hxg.trans heq))
      obtain rfl : x = σ.symm g := by rw [← hxg, Equiv.symm_apply_apply]
      rw [moved_symm_apply, Array.getElem?_setIfInBounds_ne hfg, h.map, hentry, ← h.map, hxg, hentry']
    · rw [moved_of_ne hxf hxg, Array.getElem?_setIfInBounds_ne (Ne.symm hxg), h.map]
  · rw [hallocated, hallocated', h.allocated]
  · rw [(ha.alloc halloc).1, (ha'.alloc halloc').1, h.capacity]

/-- One frame is known as something else in both. -/
theorem Twin.setEntry (h : pool.Twin σ other) (f : Nat) (entry : CoreMapEntry) (allocated : Nat) :
    FramePool.Twin σ { pool.setEntry f entry with allocated }
      { other.setEntry (σ f) entry with allocated } := by
  refine ⟨fun x => ?_, rfl, ?_⟩
  · simp only [FramePool.setEntry, Array.getElem?_setIfInBounds, h.map]
    have hsize : other.map.size = pool.map.size := h.capacity
    by_cases hx : f = x
    · subst x
      rw [if_pos rfl, if_pos rfl]
      have hin : σ f < other.map.size ↔ f < pool.map.size := by
        rw [← not_iff_not, Nat.not_lt, Nat.not_lt, ← Array.getElem?_eq_none_iff, h.map,
          Array.getElem?_eq_none_iff]
      simp only [hin]
    · rw [if_neg (fun heq => hx (σ.injective heq)), if_neg hx]
  · have hother : (other.setEntry (σ f) entry).capacity = other.capacity := capacity_setEntry
    have hpool : (pool.setEntry f entry).capacity = pool.capacity := capacity_setEntry
    exact hother.trans (h.capacity.trans hpool.symm)

/-- No more is out than was. -/
structure Within (pool' pool : FramePool) : Prop where
  capacity : pool'.capacity = pool.capacity
  isAllocated : ∀ f, pool'.isAllocated f = true → pool.isAllocated f = true

/-- If the new entry of a frame is out only if the old one was, then no more is out. -/
theorem within_setEntry (entry : CoreMapEntry) {old : CoreMapEntry} (hold : pool.map[f]? = some old)
    (hentry : entry.allocated = true → old.allocated = true) (allocated : Nat) :
    FramePool.Within { pool.setEntry f entry with allocated } pool := by
  have hlt : f < pool.capacity := (Array.getElem?_eq_some_iff.mp hold).1
  refine ⟨capacity_setEntry, fun x hx => ?_⟩
  have hx' : (pool.setEntry f entry).isAllocated x = true := hx
  rw [isAllocated_setEntry hlt] at hx'
  split at hx'
  · subst x
    rw [FramePool.isAllocated, hold]
    exact hentry hx'
  · exact hx'

/-- To pin a frame or to unpin it does the same to both pools. -/
theorem Twin.setPinned (h : pool.Twin σ other) (f : Nat) (on : Bool) :
    Corresponds (fun pool' other' => pool'.Twin σ other' ∧ pool'.Within pool)
      (pool.setPinned f on) (other.setPinned (σ f) on) := by
  simp only [FramePool.setPinned, FramePool.entry, h.map]
  cases hentry : pool.map[f]? with
  | none => exact rfl
  | some entry =>
    dsimp only
    split
    · exact rfl
    · have hset := h.setEntry f { entry with pinned := on } pool.allocated
      exact ⟨⟨hset.map, h.allocated, hset.capacity⟩,
        within_setEntry { entry with pinned := on } hentry id pool.allocated⟩

/-- To give a frame back that is out does the same to both pools. -/
theorem Twin.dealloc (h : pool.Twin σ other) (hout : pool.isAllocated f = true) :
    Corresponds (fun pool' other' => pool'.Twin σ other' ∧ pool'.Within pool)
      (pool.dealloc f) (other.dealloc (σ f)) := by
  simp only [FramePool.dealloc, FramePool.entry, h.map, h.allocated]
  cases hentry : pool.map[f]? with
  | none => exact rfl
  | some entry =>
    rw [FramePool.isAllocated, hentry, Option.any_some] at hout
    simp only [hout, not_true_eq_false, if_false]
    split
    · exact rfl
    · exact ⟨h.setEntry f {} (pool.allocated - 1), within_setEntry {} hentry (by simp) _⟩

/-- A frame that was given back was out and is not out any more. -/
theorem isAllocated_of_dealloc (h : pool.dealloc f = .ok pool') :
    pool.isAllocated f = true ∧ pool'.isAllocated f = false := by
  unfold FramePool.dealloc FramePool.entry at h
  cases hentry : pool.map[f]? with
  | none => simp only [hentry, reduceCtorEq] at h
  | some entry =>
    simp only [hentry] at h
    split at h
    · cases h
    rename_i hout
    split at h
    · cases h
    · cases h
      have hlt : f < pool.capacity := (Array.getElem?_eq_some_iff.mp hentry).1
      refine ⟨?_, (isAllocated_setEntry hlt {} f).trans (if_pos rfl)⟩
      rw [FramePool.isAllocated, hentry]
      exact not_not.mp hout

/-- A frame that was pinned or unpinned is out. -/
theorem isAllocated_of_setPinned {on : Bool} (h : pool.setPinned f on = .ok pool') :
    pool'.isAllocated f = true := by
  unfold FramePool.setPinned FramePool.entry at h
  cases hentry : pool.map[f]? with
  | none => simp only [hentry, reduceCtorEq] at h
  | some entry =>
    simp only [hentry] at h
    split at h
    · cases h
    · rename_i hout
      cases h
      have hlt : f < pool.capacity := (Array.getElem?_eq_some_iff.mp hentry).1
      exact (isAllocated_setEntry hlt _ f).trans ((if_pos rfl).trans (not_not.mp hout))

end FramePool

/-! ### Frame tables -/

/-- No frame has bytes past the end of a page. -/
theorem FrameMemory.byte?_eq_none {memory : FrameMemory} {f k : Nat} (h : pageSize ≤ k) :
    memory.byte? f k = none := by
  unfold byte?
  cases memory.pages[f]? with
  | none => rfl
  | some content => exact Vector.getElem?_eq_none h

/-- Two frames with the same bytes have the same contents, if they exist. -/
theorem FrameMemory.page_eq_of_byte? {memory other : FrameMemory} {f g : Nat}
    (hsize : g < other.size ↔ f < memory.size) (hbytes : ∀ k, other.byte? g k = memory.byte? f k) :
    other.page g = memory.page f := by
  unfold page
  by_cases hf : f < memory.size
  · have hg := hsize.mpr hf
    have hpage : memory.pages[f]? = some memory.pages[f] := Array.getElem?_eq_getElem hf
    have hpage' : other.pages[g]? = some other.pages[g] := Array.getElem?_eq_getElem hg
    have hsame : other.pages[g] = memory.pages[f] := by
      refine Vector.ext fun k hk => ?_
      have hk' := hbytes k
      rw [byte?, byte?, hpage, hpage', Option.bind_some, Option.bind_some, Vector.getElem?_eq_getElem hk,
        Vector.getElem?_eq_getElem hk] at hk'
      exact Option.some.inj hk'
    rw [hpage, hpage', hsame]
  · rw [Array.getElem?_eq_none (Nat.le_of_not_lt hf),
      Array.getElem?_eq_none (Nat.le_of_not_lt (mt hsize.mp hf))]

namespace FrameTable

variable {σ : Equiv.Perm Nat} {n f : Nat} {stale stale' : Option Nat} {table other : FrameTable}

/-- The tables of `n` frames differ only in which frame is where; the bytes of `stale` may differ. -/
structure Twin (n : Nat) (σ : Equiv.Perm Nat) (stale : Option Nat) (table other : FrameTable) : Prop where
  renames : Renames n σ
  capacity : table.pool.capacity = n
  size : table.memory.size = n
  size_other : other.memory.size = n
  records : other.records = table.records.map (·.rename σ)
  clock : other.clock = table.clock
  pool : table.pool.Twin σ other.pool
  bytes : ∀ f, table.pool.isAllocated f = true → stale ≠ some f →
    ∀ k, other.memory.byte? (σ f) k = table.memory.byte? f k

/-- The record of a frame stands at the same place in both tables. -/
theorem Twin.position? (h : table.Twin n σ stale other) (f : Nat) :
    other.position? (σ f) = table.position? f := by
  rw [FrameTable.position?, FrameTable.position?, h.records, List.findIdx?_map]
  congr 1
  funext r
  exact decide_eq_decide.mpr σ.injective.eq_iff

/-- The record of a frame is the renamed one. -/
theorem Twin.record? (h : table.Twin n σ stale other) (f : Nat) :
    other.record? (σ f) = (table.record? f).map (·.rename σ) := by
  rw [FrameTable.record?, FrameTable.record?, h.records, List.find?_map]
  congr 2
  funext r
  exact decide_eq_decide.mpr σ.injective.eq_iff

/-- At each place stands the renamed record. -/
theorem Twin.getElem? (h : table.Twin n σ stale other) (index : Nat) :
    other.records[index]? = table.records[index]?.map (·.rename σ) := by
  rw [h.records, List.getElem?_map]

/-- A record may be chosen in both tables or in none. -/
theorem Twin.isEligible (h : table.Twin n σ stale other) (index : Nat) :
    other.isEligible index = table.isEligible index := by
  rw [FrameTable.isEligible, FrameTable.isEligible, h.getElem?, Option.any_map]
  congr 1
  funext r
  exact congrArg (fun pinned => r.page.isSome && !pinned) (h.pool.isPinned r.frame)

/-- A frame backs a page under both names or under none. -/
theorem Twin.isBacking (h : table.Twin n σ stale other) (f : Nat) (owner : SpaceId) (page : Nat) :
    other.isBacking (σ f) owner page = table.isBacking f owner page := by
  rw [FrameTable.isBacking, FrameTable.isBacking, h.record?, Option.any_map]
  rfl

/-- Fewer frames are of account. -/
theorem Twin.mono (h : table.Twin n σ stale other)
    (hstale : ∀ f, table.pool.isAllocated f = true → stale' ≠ some f → stale ≠ some f) :
    table.Twin n σ stale' other :=
  { h with bytes := fun f hf hs => h.bytes f hf (hstale f hf hs) }

/-- Frames may be given back, pinned and unpinned. -/
theorem Twin.withPool (h : table.Twin n σ stale other) {pool pool' : FramePool} (hp : pool.Twin σ pool')
    (hwithin : pool.Within table.pool) :
    FrameTable.Twin n σ stale { table with pool } { other with pool := pool' } :=
  { h with
    capacity := hwithin.capacity.trans h.capacity
    pool := hp
    bytes := fun f hf hs => h.bytes f (hwithin.isAllocated f hf) hs }

/-- Records may come and go in both, and the clocks move together. -/
theorem Twin.withRecords (h : table.Twin n σ stale other) {records records' : List FrameRecord}
    (hrecords : records' = records.map (·.rename σ)) {clock clock' : SecondChance}
    (hclock : clock' = clock) : FrameTable.Twin n σ stale { table with records, clock }
      { other with records := records', clock := clock' } :=
  { h with records := hrecords, clock := hclock }

/-- To record a frame under its name in each does the same to both tables. -/
theorem Twin.insert (h : table.Twin n σ stale other) (record : FrameRecord) (pinned : Bool) :
    Corresponds (FrameTable.Twin n σ stale) (table.insert record pinned)
      (other.insert (record.rename σ) pinned) := by
  unfold FrameTable.insert
  rcases (h.pool.setPinned record.frame pinned).cases with
    ⟨halt, hpool, hpool'⟩ | ⟨pool, pool', hpool, hpool', hp, hwithin⟩
  · simp only [FrameRecord.rename, hpool, hpool']
    exact rfl
  · simp only [FrameRecord.rename, hpool, hpool']
    refine (h.withPool hp hwithin).withRecords ?_ h.clock
    rw [h.records, List.map_append]
    rfl

/-- Both tables hand out a frame or have none. The frame of one takes the name of the frame of the other,
and frames that are out keep theirs. -/
theorem Twin.alloc (h : table.Twin n σ none other) {out pinned : List Nat}
    (ha : table.pool.Accounts out pinned) (hout : ∀ r ∈ table.records, r.frame ∈ out) :
    (table.pool.alloc = .ok (none, table.pool) ∧ other.pool.alloc = .ok (none, other.pool)) ∨
      ∃ f g pool pool', table.pool.alloc = .ok (some f, pool) ∧ other.pool.alloc = .ok (some g, pool') ∧
        (∀ x ∈ out, moved σ f g x = σ x) ∧
        FrameTable.Twin n (moved σ f g) (some f) { table with pool } { other with pool := pool' } := by
  rcases h.pool.alloc h.renames h.capacity ha with
    hnone | ⟨f, g, pool, pool', halloc, halloc', hnot, hrenames, hsame, htwin⟩
  · exact .inl hnone
  have hpool := (ha.alloc halloc).2.2
  refine .inr ⟨f, g, pool, pool', halloc, halloc', hsame, hrenames, (ha.alloc halloc).1.trans h.capacity,
    h.size, h.size_other, ?_, h.clock, htwin, fun x hx hstale => ?_⟩
  · rw [h.records]
    refine List.map_congr_left fun r hr => ?_
    rw [FrameRecord.rename, FrameRecord.rename, hsame r.frame (hout r hr)]
  · have hin := (hpool.isAllocated_iff x).mp hx
    rcases List.mem_cons.mp hin with rfl | hin
    · exact absurd rfl hstale
    rw [hsame x hin]
    exact h.bytes x ((ha.isAllocated_iff x).mpr hin) (by simp)

/-- To take a record out at a place does the same to both tables, and their clocks. -/
theorem Twin.removeAt (h : table.Twin n σ stale other) (index : Nat) :
    FrameTable.Twin n σ stale (table.removeAt index) (other.removeAt index) :=
  h.withRecords (by rw [h.records, List.eraseIdx_map]) (by rw [h.clock])

/-- To unpin a frame under its name in each does the same to both tables. -/
theorem Twin.unpin (h : table.Twin n σ stale other) (f : Nat) :
    Corresponds (FrameTable.Twin n σ stale) (table.unpin f) (other.unpin (σ f)) := by
  unfold FrameTable.unpin
  rw [h.position?]
  cases table.position? f with
  | none => exact h
  | some index =>
    rcases (h.pool.setPinned f false).cases with
      ⟨halt, hpool, hpool'⟩ | ⟨pool, pool', hpool, hpool', hp, hwithin⟩
    · simp only [hpool, hpool']
      exact rfl
    · simp only [hpool, hpool']
      exact h.withPool hp hwithin

/-- A frame is pinned in both tables or in none, according to whether it backs the page. -/
theorem Twin.pinIfBacking (h : table.Twin n σ stale other) (f : Nat) (owner : SpaceId) (page : Nat) :
    Corresponds (fun r r' => r.1 = r'.1 ∧ FrameTable.Twin n σ stale r.2 r'.2)
      (table.pinIfBacking f owner page) (other.pinIfBacking (σ f) owner page) := by
  unfold FrameTable.pinIfBacking
  rw [h.isBacking]
  split
  · rcases (h.pool.setPinned f true).cases with
      ⟨halt, hpool, hpool'⟩ | ⟨pool, pool', hpool, hpool', hp, hwithin⟩
    · simp only [hpool, hpool']
      exact rfl
    · simp only [hpool, hpool']
      exact ⟨rfl, h.withPool hp hwithin⟩
  · exact ⟨rfl, h⟩

/-- To give a frame back under its name in each does the same to both tables. -/
theorem Twin.free (h : table.Twin n σ stale other) (hout : table.pool.isAllocated f = true) :
    Corresponds (FrameTable.Twin n σ stale) (table.free f) (other.free (σ f)) := by
  unfold FrameTable.free
  rw [h.position?]
  cases table.position? f with
  | none => exact h
  | some index =>
    rcases (h.pool.dealloc hout).cases with
      ⟨halt, hpool, hpool'⟩ | ⟨pool, pool', hpool, hpool', hp, hwithin⟩
    · simp only [hpool, hpool']
      exact rfl
    · simp only [hpool, hpool']
      exact (h.removeAt index).withPool hp hwithin

/-- The same records go, wherever their frames are. -/
theorem partitionOwned_rename (σ : Equiv.Perm Nat) (owner : SpaceId) (records : List FrameRecord) :
    ∀ (index : Nat) (clock : SecondChance),
      partitionOwned owner index (records.map (·.rename σ)) clock =
        ((partitionOwned owner index records clock).1.map (·.rename σ),
          (partitionOwned owner index records clock).2.1.map (·.rename σ),
          (partitionOwned owner index records clock).2.2) := by
  induction records with
  | nil => exact fun _ _ => rfl
  | cons record rest ih =>
    intro index clock
    simp only [List.map_cons, partitionOwned, ih]
    by_cases howner : record.owner = owner
    · rw [if_pos howner, if_pos (show (record.rename σ).owner = owner from howner)]
      rfl
    · rw [if_neg howner, if_neg (show ¬ (record.rename σ).owner = owner from howner)]
      rfl

/-- Frames are given back one after the other. -/
theorem deallocAll_twin {pool pool' after : FramePool} (hp : pool.Twin σ pool')
    (gone : List FrameRecord) (hrun : deallocAll pool gone = .ok after) :
    ∃ after', deallocAll pool' (gone.map (·.rename σ)) = .ok after' ∧ after.Twin σ after' ∧
      after.Within pool := by
  induction gone generalizing pool pool' with
  | nil =>
    cases hrun
    exact ⟨pool', rfl, hp, rfl, fun _ h => h⟩
  | cons record rest ih =>
    rw [deallocAll] at hrun
    rw [List.map_cons, deallocAll]
    cases hpool : pool.dealloc record.frame with
    | error halt => simp only [hpool, reduceCtorEq] at hrun
    | ok middle =>
      simp only [hpool] at hrun
      have hone := hp.dealloc (FramePool.isAllocated_of_dealloc hpool).1
      rcases hone.cases with ⟨halt, hpool', -⟩ | ⟨_, middle', hpool', hother, htwin, hwithin⟩
      · rw [hpool] at hpool'
        cases hpool'
      rw [hpool, Except.ok.injEq] at hpool'
      subst hpool'
      obtain ⟨after', hrun', hafter, hleft⟩ := ih htwin hrun
      simp only [FrameRecord.rename, hother]
      exact ⟨after', hrun', hafter, hleft.capacity.trans hwithin.capacity,
        fun f hf => hwithin.isAllocated f (hleft.isAllocated f hf)⟩

/-- The frames of a space that are given back are the same under their names in each, in the same order. -/
theorem Twin.freeOwnedBy (h : table.Twin n σ stale other) {owner : SpaceId} {gone : List FrameRecord}
    {after : FrameTable} (hrun : table.freeOwnedBy owner = .ok (gone, after)) :
    ∃ after', other.freeOwnedBy owner = .ok (gone.map (·.rename σ), after') ∧
      after.Twin n σ stale after' := by
  unfold FrameTable.freeOwnedBy at hrun ⊢
  rw [h.records, h.clock, partitionOwned_rename]
  dsimp only at hrun ⊢
  cases hpool : deallocAll table.pool (partitionOwned owner 0 table.records table.clock).2.1 with
  | error halt => simp only [hpool, reduceCtorEq] at hrun
  | ok pool =>
    simp only [hpool, Except.ok.injEq, Prod.mk.injEq] at hrun
    obtain ⟨rfl, rfl⟩ := hrun
    obtain ⟨pool', hpool', hp, hwithin⟩ := deallocAll_twin h.pool _ hpool
    simp only [hpool']
    exact ⟨_, rfl, (h.withPool hp hwithin).withRecords rfl rfl⟩

/-! ### Contents -/

/-- A frame exists under both names or under none. -/
theorem Twin.lt_iff (h : table.Twin n σ stale other) (f : Nat) :
    σ f < other.memory.size ↔ f < table.memory.size := by
  rw [h.size, h.size_other]
  exact h.renames.lt_iff

/-- A frame that is out has the same contents under both names. -/
theorem Twin.page (h : table.Twin n σ stale other) (hout : table.pool.isAllocated f = true)
    (hstale : stale ≠ some f) : other.memory.page (σ f) = table.memory.page f :=
  FrameMemory.page_eq_of_byte? (h.lt_iff f) (h.bytes f hout hstale)

/-- Frames that are not out exist under both names or under none. -/
theorem Twin.page_exists (h : table.Twin n σ stale other) (f : Nat) :
    Corresponds (fun _ _ => True) (table.memory.page f) (other.memory.page (σ f)) := by
  unfold FrameMemory.page
  have hiff := h.lt_iff f
  by_cases hf : f < table.memory.size
  · have hg := hiff.mpr hf
    rw [Array.getElem?_eq_getElem (show f < table.memory.pages.size from hf),
      Array.getElem?_eq_getElem (show σ f < other.memory.pages.size from hg)]
    trivial
  · rw [Array.getElem?_eq_none (Nat.le_of_not_lt hf),
      Array.getElem?_eq_none (Nat.le_of_not_lt (mt hiff.mp hf))]
    exact rfl

/-- The contents of a frame are replaced; they are the same afterwards, or of no account. -/
theorem Twin.setPage (h : table.Twin n σ stale other) {f : Nat} {content content' : Page}
    (hstale : ∀ g, g ≠ f → stale' ≠ some g → stale ≠ some g)
    (hcontent : stale' ≠ some f → content' = content) :
    FrameTable.Twin n σ stale' { table with memory := table.memory.setPage f content }
      { other with memory := other.memory.setPage (σ f) content' } where
  renames := h.renames
  capacity := h.capacity
  size := FrameMemory.size_setPage.trans h.size
  size_other := FrameMemory.size_setPage.trans h.size_other
  records := h.records
  clock := h.clock
  pool := h.pool
  bytes g hg hs k := by
    have hlt : g < table.memory.size := by
      rw [h.size, ← h.capacity]
      exact FramePool.lt_capacity_of_isAllocated hg
    by_cases hgf : g = f
    · subst g
      rw [FrameMemory.byte?_setPage hlt, if_pos rfl, FrameMemory.byte?_setPage ((h.lt_iff f).mpr hlt),
        if_pos rfl, hcontent hs]
    · have hne : σ f ≠ σ g := fun heq => hgf (σ.injective heq).symm
      rw [FrameMemory.byte?, FrameMemory.byte?, FrameMemory.setPage, FrameMemory.setPage,
        Array.getElem?_setIfInBounds_ne hne, Array.getElem?_setIfInBounds_ne (Ne.symm hgf)]
      exact h.bytes g hg (hstale g hgf hs) k

end FrameTable

/-! ### Machines -/

/-- What no operation changes: how many frames, slots and sectors there are. -/
structure Sizes where
  /-- The number of frames. -/
  frames : Nat
  /-- The number of swap slots. -/
  slots : Nat
  /-- The number of sectors of the swap device. -/
  sectors : Nat

/-- The machines have the given sizes and differ only in which frame is where; the bytes of `stale` may
differ. -/
structure Machine.Twin (sizes : Sizes) (σ : Equiv.Perm Nat) (stale : Option Nat) (a b : Machine) :
    Prop where
  frames : a.frames.Twin sizes.frames σ stale b.frames
  spaces : b.spaces = renamed σ a.spaces
  swap : b.swap = a.swap
  files : b.files = a.files
  stackLimit : b.stackLimit = a.stackLimit
  slots : a.swap.slotCount = sizes.slots
  sectors : a.swap.device.size = sizes.sectors

/-- The answers are the same and the machines are twins. -/
def Same {α : Type} (sizes : Sizes) (σ : Equiv.Perm Nat) (stale : Option Nat) (x y : α)
    (a b : Machine) : Prop := x = y ∧ a.Twin sizes σ stale b

/-- A claim of a slot changes no size. -/
theorem SlotBitmap.count_of_allocate {slots slots' : SlotBitmap} {slot : Option Nat}
    (h : slots.allocate = .ok (slot, slots')) : slots'.count = slots.count := by
  unfold allocate at h
  split at h
  · cases h
    rfl
  · split at h
    · cases h
    · split at h
      · cases h
      · cases h
        rfl

/-- Nor does giving one back. -/
theorem SlotBitmap.count_of_free {slots slots' : SlotBitmap} {slot : Nat}
    (h : slots.free slot = .ok slots') : slots'.count = slots.count := by
  unfold free at h
  split at h
  · cases h
  · split at h
    · cases h
    · split at h
      · cases h
      · split at h
        · cases h
        · cases h
          rfl

/-- A write leaves the device as large as it is. -/
theorem Block.size_of_writeDisk {block block' : Block} {sector : Nat} {content : Sector}
    {outcome : Except BlockError Unit} (h : block.writeDisk sector content = .ok (outcome, block')) :
    block'.size = block.size := by
  unfold writeDisk at h
  split at h
  · cases h
    rfl
  · split at h
    · cases h
      rfl
    · cases h

/-- A read leaves the device as large as it is. -/
theorem Block.size_of_readDisk {block block' : Block} {sector : Nat}
    {outcome : Except BlockError Sector} (h : block.readDisk sector = .ok (outcome, block')) :
    block'.size = block.size := by
  unfold readDisk at h
  split at h
  · cases h
    rfl
  · split at h
    · cases h
      rfl
    · cases h

section

variable {sizes : Sizes} {σ : Equiv.Perm Nat} {stale stale' : Option Nat} {a b : Machine} {s : SpaceId}
  {p frame : Nat}

namespace Machine.Twin

/-- Fewer frames are of account. -/
theorem mono (h : a.Twin sizes σ stale b)
    (hstale : ∀ f, a.frames.pool.isAllocated f = true → stale' ≠ some f → stale ≠ some f) :
    a.Twin sizes σ stale' b := { h with frames := h.frames.mono hstale }

/-- Twins may have said different things. -/
theorem said (h : a.Twin sizes σ stale b) (notices notices' : Array Notice) :
    Machine.Twin sizes σ stale { a with notices } { b with notices := notices' } := { h with }

/-- Twins stay twins with new frame tables that are twins. -/
theorem withFrames (h : a.Twin sizes σ stale b) {table table' : FrameTable}
    (ht : table.Twin sizes.frames σ stale' table') :
    Machine.Twin sizes σ stale' { a with frames := table } { b with frames := table' } :=
  { h with frames := ht }

/-- Twins stay twins with new spaces, of which the one has those of the other renamed. -/
theorem withSpaces (h : a.Twin sizes σ stale b) {spaces spaces' : Array AddressSpace}
    (hs : spaces' = renamed σ spaces) :
    Machine.Twin sizes σ stale { a with spaces } { b with spaces := spaces' } :=
  { h with spaces := hs }

/-- Twins stay twins with the same new swap store, if it has the sizes of the old one. -/
theorem withSwap (h : a.Twin sizes σ stale b) {store store' : SwapStore} (hsame : store' = store)
    (hslots : store.slotCount = a.swap.slotCount) (hsectors : store.device.size = a.swap.device.size) :
    Machine.Twin sizes σ stale { a with swap := store } { b with swap := store' } :=
  { h with swap := hsame, slots := hslots.trans h.slots, sectors := hsectors.trans h.sectors }

/-- Twins stay twins with the same new files. -/
theorem withFiles (h : a.Twin sizes σ stale b) {files files' : Array MemoryFile} (hsame : files' = files) :
    Machine.Twin sizes σ stale { a with files } { b with files := files' } :=
  { h with files := hsame }

/-- A change of a space does the same to twins, if it does so to the space and to the renamed one. -/
theorem modifySpace (h : a.Twin sizes σ stale b) {change change' : AddressSpace → AddressSpace}
    (hchange : ∀ space, a.spaces[s]? = some space →
      change' (space.rename σ) = (change space).rename σ) :
    Agree (Transition.modifySpace s change) (Transition.modifySpace s change') a b
      (Same sizes σ stale) := by
  refine ⟨rfl, h.withSpaces ?_⟩
  rw [h.spaces, modify_renamed hchange]

/-! ### Address spaces and files -/

/-- The space of the one is that of the other renamed. -/
theorem agree_space (h : a.Twin sizes σ stale b)
    {post : AddressSpace → AddressSpace → Machine → Machine → Prop}
    (hpost : ∀ space, a.spaces[s]? = some space → post space (space.rename σ) a b) :
    Agree (space s) (space s) a b post := by
  unfold Transition.space
  refine agree_bind (agree_get.mpr ?_)
  rw [h.spaces, getElem?_renamed]
  cases hspace : a.spaces[s]? with
  | none => exact agree_throw .outOfBounds
  | some space => exact hpost space hspace

/-- The page directory of the one is that of the other renamed. -/
theorem agree_directory (h : a.Twin sizes σ stale b)
    {post : PageDirectory → PageDirectory → Machine → Machine → Prop}
    (hpost : ∀ space, a.spaces[s]? = some space →
      post space.directory (space.directory.rename σ) a b) :
    Agree (directory s) (directory s) a b post := agree_bind (h.agree_space hpost)

/-- The tables of twins are the same, since they name no frames. -/
theorem agree_supplement (h : a.Twin sizes σ stale b)
    {post : Supplement → Supplement → Machine → Machine → Prop}
    (hpost : ∀ space, a.spaces[s]? = some space → post space.supplement space.supplement a b) :
    Agree (supplement s) (supplement s) a b post := agree_bind (h.agree_space hpost)

/-- The files of twins are the same. -/
theorem agree_file (h : a.Twin sizes σ stale b) {f : FileId}
    {post : MemoryFile → MemoryFile → Machine → Machine → Prop}
    (hpost : ∀ file, post file file a b) : Agree (file f) (file f) a b post := by
  unfold Transition.file
  refine agree_bind (agree_get.mpr ?_)
  rw [h.files]
  cases a.files[f]? with
  | none => exact agree_throw .outOfBounds
  | some file => exact hpost file

/-- A new page directory is given to both, renamed to the one. -/
theorem setDirectory (h : a.Twin sizes σ stale b) (s : SpaceId) (d : PageDirectory) :
    Agree (setDirectory s d) (setDirectory s (d.rename σ)) a b (Same sizes σ stale) :=
  h.modifySpace fun _ _ => rfl

/-- The same new table is given to both. -/
theorem setSupplement (h : a.Twin sizes σ stale b) (s : SpaceId) (table : Supplement) :
    Agree (setSupplement s table) (setSupplement s table) a b (Same sizes σ stale) :=
  h.modifySpace fun _ _ => rfl

/-- The entry of a page in the table changes in the same way in both. -/
theorem modifyInfo (h : a.Twin sizes σ stale b) (s : SpaceId) (p : Nat) (change : PageInfo → PageInfo) :
    Agree (modifyInfo s p change) (modifyInfo s p change) a b (Same sizes σ stale) :=
  h.modifySpace fun _ _ => rfl

/-- The mark of use of a page is set in both. -/
theorem setAccessed (h : a.Twin sizes σ stale b) (s : SpaceId) (p : Nat) (on : Bool) :
    Agree (setAccessed s p on) (setAccessed s p on) a b (Same sizes σ stale) :=
  h.modifySpace fun space _ => congrArg (AddressSpace.mk space.pid · space.supplement)
    (space.directory.modify_rename p fun _ => rfl)

/-- The dirty mark of a page is set in both. -/
theorem setDirty (h : a.Twin sizes σ stale b) (s : SpaceId) (p : Nat) (on : Bool) :
    Agree (setDirty s p on) (setDirty s p on) a b (Same sizes σ stale) :=
  h.modifySpace fun space _ => congrArg (AddressSpace.mk space.pid · space.supplement)
    (space.directory.modify_rename p fun _ => rfl)

/-- A page is unmapped in both, and the entry that it had is answered renamed. -/
theorem clear (h : a.Twin sizes σ stale b) (s : SpaceId) (p : Nat) :
    Agree (clear s p) (clear s p) a b fun e e' a b =>
      e' = e.map (·.rename σ) ∧ a.Twin sizes σ stale b := by
  refine agree_bind (h.agree_directory fun space _ => ?_)
  rw [PageDirectory.clear_rename]
  refine (h.setDirectory s (space.directory.clear p).2).bind ?_
  rintro _ _ a b ⟨-, h⟩
  exact ⟨rfl, h⟩

/-- A page is mapped in both, to the frame under its name in each. -/
theorem install (h : a.Twin sizes σ stale b) (s : SpaceId) (p frame : Nat) (writable : Bool) :
    Agree (install s p frame writable) (install s p (σ frame) writable) a b (Same sizes σ stale) := by
  refine agree_bind (h.agree_directory fun space _ => ?_)
  rw [PageDirectory.install_rename h.frames.renames]
  refine agree_bind (agree_ofExcept ?_)
  cases space.directory.install p frame writable with
  | error halt => exact rfl
  | ok result =>
    change Agree (Transition.setDirectory s result.2 >>= fun _ => pure result.1)
      (Transition.setDirectory s (result.2.rename σ) >>= fun _ => pure result.1) a b
      (Same sizes σ stale)
    refine (h.setDirectory s result.2).bind ?_
    rintro _ _ a b ⟨-, h⟩
    exact ⟨rfl, h⟩

/-- The entry of a page is found renamed. -/
theorem findEntry (h : a.Twin sizes σ stale b) (s : SpaceId) (p : Nat) :
    Agree (Kernel.findEntry s p) (Kernel.findEntry s p) a b fun e e' a b =>
      e' = e.map (·.rename σ) ∧ a.Twin sizes σ stale b :=
  agree_bind (h.agree_directory fun space _ => ⟨space.directory.find?_rename p, h⟩)

/-- An access to a page meets the same frame under its name in each, or is denied in both. -/
theorem translate (h : a.Twin sizes σ stale b) (s : SpaceId) (p : Nat) (write : Bool) :
    Agree (Kernel.translate s p write) (Kernel.translate s p write) a b fun outcome outcome' a b =>
      outcome' = outcome.map σ ∧ a.Twin sizes σ stale b := by
  refine agree_bind (h.agree_directory fun space _ => ?_)
  rw [PageDirectory.translate_rename h.frames.renames]
  refine (h.setDirectory s (space.directory.translate p write).2).bind ?_
  rintro _ _ a b ⟨-, h⟩
  exact ⟨rfl, h⟩

/-- The same file is read. -/
theorem readFile (h : a.Twin sizes σ stale b) (f : FileId) (offset n : Nat) :
    Agree (readFile f offset n) (readFile f offset n) a b (Same sizes σ stale) :=
  agree_bind (h.agree_file fun _ => ⟨rfl, h.withFiles (by rw [h.files])⟩)

/-- The same file is written. -/
theorem writeFile (h : a.Twin sizes σ stale b) (f : FileId) (offset : Nat) (data : Bytes) :
    Agree (writeFile f offset data) (writeFile f offset data) a b (Same sizes σ stale) :=
  agree_bind (h.agree_file fun _ => ⟨rfl, h.withFiles (by rw [h.files])⟩)

/-! ### Swap slots -/

/-- The same slot is claimed, since the bitmaps are the same. -/
theorem allocateSlot (h : a.Twin sizes σ stale b) :
    Agree allocateSlot allocateSlot a b (Same sizes σ stale) := by
  refine agree_bind (agree_swap.mpr ?_)
  rw [h.swap]
  refine agree_bind (agree_ofExcept (corresponds_refl fun result hresult => ?_))
  unfold SwapStore.allocate at hresult
  cases hslots : a.swap.slots.allocate with
  | error halt => simp only [hslots, reduceCtorEq] at hresult
  | ok claimed =>
    simp only [hslots, Except.ok.injEq] at hresult
    subst hresult
    exact ⟨rfl, h.withSwap rfl (SlotBitmap.count_of_allocate hslots) rfl⟩

/-- The same slot is given back. -/
theorem releaseSlot (h : a.Twin sizes σ stale b) (slot : Nat) :
    Agree (releaseSlot slot) (releaseSlot slot) a b (Same sizes σ stale) := by
  refine agree_bind (agree_swap.mpr ?_)
  rw [h.swap]
  refine agree_bind (agree_ofExcept (corresponds_refl fun store hstore => ?_))
  unfold SwapStore.release at hstore
  cases hslots : a.swap.slots.free slot with
  | error halt => simp only [hslots, reduceCtorEq] at hstore
  | ok slots =>
    simp only [hslots, Except.ok.injEq] at hstore
    subst hstore
    exact ⟨rfl, h.withSwap rfl (SlotBitmap.count_of_free hslots) rfl⟩

/-! ### Frames -/

/-- A frame is recorded in both under its name in each. -/
theorem record (h : a.Twin sizes σ stale b) (frame : Nat) (owner : SpaceId) (page : Option Nat) :
    Agree (Transition.record frame owner page) (Transition.record (σ frame) owner page) a b
      (Same sizes σ stale) :=
  agree_bind (agree_frames.mpr (agree_bind (agree_ofExcept
    ((h.frames.insert { frame, owner, page } page.isSome).mono fun _ _ ht => ⟨rfl, h.withFrames ht⟩))))

/-- A frame is unpinned in both under its name in each. -/
theorem unpin (h : a.Twin sizes σ stale b) (frame : Nat) :
    Agree (Transition.unpin frame) (Transition.unpin (σ frame)) a b (Same sizes σ stale) :=
  agree_bind (agree_frames.mpr (agree_bind (agree_ofExcept
    ((h.frames.unpin frame).mono fun _ _ ht => ⟨rfl, h.withFrames ht⟩))))

/-- A frame is pinned in both under its name in each, or in none. -/
theorem pinIfBacking (h : a.Twin sizes σ stale b) (frame : Nat) (owner : SpaceId) (page : Nat) :
    Agree (Transition.pinIfBacking frame owner page) (Transition.pinIfBacking (σ frame) owner page) a b
      (Same sizes σ stale) :=
  agree_bind (agree_frames.mpr (agree_bind (agree_ofExcept
    ((h.frames.pinIfBacking frame owner page).mono fun _ _ ⟨hbacks, ht⟩ => ⟨hbacks, h.withFrames ht⟩))))

/-- A frame that is out is given back in both under its name in each. -/
theorem free (h : a.Twin sizes σ stale b) (hout : a.frames.pool.isAllocated frame = true) :
    Agree (Transition.free frame) (Transition.free (σ frame)) a b (Same sizes σ stale) := by
  refine agree_bind (agree_frames.mpr ?_)
  rw [h.frames.position?]
  cases a.frames.position? frame with
  | none => exact ⟨rfl, h.said _ _⟩
  | some index =>
    exact agree_bind (agree_ofExcept ((h.frames.free hout).mono fun _ _ ht => ⟨rfl, h.withFrames ht⟩))

/-! ### Contents of frames -/

/-- A frame that is out is looked at. -/
theorem agree_page (h : a.Twin sizes σ stale b) (hout : a.frames.pool.isAllocated frame = true)
    (hstale : stale ≠ some frame) {post : Page → Page → Machine → Machine → Prop}
    (hpost : ∀ content, a.frames.memory.page frame = .ok content → post content content a b) :
    Agree (page frame) (page (σ frame)) a b post := by
  refine agree_bind (agree_frames.mpr (agree_ofExcept ?_))
  rw [h.frames.page hout hstale]
  exact corresponds_refl hpost

/-- Any frame is looked at. -/
theorem agree_page_exists (h : a.Twin sizes σ stale b) (frame : Nat)
    {post : Page → Page → Machine → Machine → Prop}
    (hpost : ∀ content content', post content content' a b) :
    Agree (page frame) (page (σ frame)) a b post :=
  agree_bind (agree_frames.mpr (agree_ofExcept ((h.frames.page_exists frame).mono fun _ _ _ =>
    hpost _ _)))

/-- A frame that is asked for exists under both names or under none. -/
theorem agree_requireFrame (h : a.Twin sizes σ stale b) {post : Unit → Unit → Machine → Machine → Prop}
    (hpost : post () () a b) :
    Agree (Transition.requireFrame frame) (Transition.requireFrame (σ frame)) a b post :=
  agree_bind (h.agree_page_exists frame fun _ _ => hpost)

/-- A frame is filled, alike or with bytes that are of no account. -/
theorem setPage (h : a.Twin sizes σ stale b) (frame : Nat) {content content' : Page}
    (hstale : ∀ g, g ≠ frame → stale' ≠ some g → stale ≠ some g)
    (hcontent : stale' ≠ some frame → content' = content) :
    Agree (Transition.setPage frame content) (Transition.setPage (σ frame) content') a b
      (Same sizes σ stale') :=
  ⟨rfl, h.withFrames (h.frames.setPage hstale hcontent)⟩

/-- A frame is filled with zeroes, whatever was in it. -/
theorem zero (h : a.Twin sizes σ stale b) (frame : Nat)
    (hstale : ∀ g, g ≠ frame → stale ≠ some g) :
    Agree (Transition.zero frame) (Transition.zero (σ frame)) a b (Same sizes σ none) := by
  refine agree_bind (agree_frames.mpr (agree_bind (agree_ofExcept ?_)))
  have hexists := h.frames.page_exists frame
  unfold FrameMemory.zero
  rcases hexists.cases with ⟨halt, hpage, hpage'⟩ | ⟨content, content', hpage, hpage', -⟩
  · rw [hpage, hpage']
    exact rfl
  · rw [hpage, hpage']
    exact ⟨rfl, h.withFrames (h.frames.setPage (fun g hg _ => hstale g hg) fun _ => rfl)⟩

/-- The same bytes are read from a frame that is of account. -/
theorem readFrame (h : a.Twin sizes σ stale b) (hout : a.frames.pool.isAllocated frame = true)
    (hstale : stale ≠ some frame) (start n : Nat) :
    Agree (Transition.readFrame frame start n) (Transition.readFrame (σ frame) start n) a b
      (Same sizes σ stale) := by
  refine agree_bind (agree_frames.mpr (agree_ofExcept ?_))
  rw [FrameMemory.read, FrameMemory.read, h.frames.page hout hstale]
  exact corresponds_refl fun _ _ => ⟨rfl, h⟩

/-- The same bytes are written to a frame that is of account, which has the same bytes then. -/
theorem writeFrame (h : a.Twin sizes σ stale b) (hout : a.frames.pool.isAllocated frame = true)
    (hstale : stale ≠ some frame) (start : Nat) (data : Bytes) :
    Agree (Transition.writeFrame frame start data) (Transition.writeFrame (σ frame) start data) a b
      (Same sizes σ stale) := by
  refine agree_bind (agree_frames.mpr (agree_bind (agree_ofExcept ?_)))
  unfold FrameMemory.write
  rw [h.frames.page hout hstale]
  cases a.frames.memory.page frame with
  | error halt => exact rfl
  | ok content =>
    dsimp only
    split
    · exact ⟨rfl, h.withFrames (h.frames.setPage (fun _ _ hs => hs) fun _ => rfl)⟩
    · exact rfl

end Machine.Twin

end

end DemandPaging
