import DemandPaging.Proofs.PoolRuns
import DemandPaging.Proofs.Refaults
import DemandPaging.Proofs.FramesInFlight

/-!
# The frames of one owner

All frames of an address space may be given back at once, whatever the table holds: frames of any number of
owners in any order, bound to pages or not, pinned or not, with the clock hand anywhere. What is left is the
table without the records of the one owner (`Machine.GivesUp`), and it always gets there
(`Transition.perform_freeOwnedBy`).

The list that is walked is the list that the records leave. `FrameTable.takeOwned` is that walk, in place and
with each frame given back where its record goes; it comes to the same as sorting the list into what stays and
what goes (`FrameTable.freeOwnedBy_eq_takeOwned`). A record that goes before the hand moves it back by one and a
record that goes behind it does not, so in the end the hand stands behind as many records as have stayed of
those that it stood behind at first (`FrameTable.hand_partitionOwned`).
-/

set_option autoImplicit false

namespace DemandPaging

open Spaces Machine

/-! ### The list and the hand -/

namespace FrameTable

variable {table : FrameTable} {owner : SpaceId}

/-- Walk the records from `index` on and take out those of `owner`, each with its frame. The next record
moves up to where one was taken out, so there the walk stays. -/
def takeOwned (owner : SpaceId) (index : Nat) (table : FrameTable) :
    Except Halt (List FrameRecord × FrameTable) :=
  match _hrecord : table.records[index]? with
  | none => .ok ([], table)
  | some record =>
    if record.owner = owner then
      match table.pool.dealloc record.frame with
      | .error halt => .error halt
      | .ok pool =>
        (takeOwned owner index { table.removeAt index with pool }).map
          fun (gone, table) => (record :: gone, table)
    else takeOwned owner (index + 1) table
termination_by table.records.length - index
decreasing_by
  · have hlt := (List.getElem?_eq_some_iff.mp _hrecord).1
    simp only [removeAt, List.length_eraseIdx_of_lt hlt]
    omega
  · have hlt := (List.getElem?_eq_some_iff.mp _hrecord).1
    omega

/-- What is behind the walk does not change, and what is ahead of it is sorted into what stays and what
goes. -/
theorem takeOwned_append (rest : List FrameRecord) : ∀ (front : List FrameRecord) (clock : SecondChance)
    (pool : FramePool) (memory : FrameMemory),
    takeOwned owner front.length { records := front ++ rest, clock, pool, memory } =
      let (kept, gone, clock) := partitionOwned owner front.length rest clock
      match deallocAll pool gone with
      | .error halt => .error halt
      | .ok pool => .ok (gone, { records := front ++ kept, clock, pool, memory }) := by
  induction rest with
  | nil =>
    intro front clock pool memory
    rw [takeOwned]
    split
    · rfl
    · rename_i record hrecord
      simp at hrecord
  | cons head rest ih =>
    intro front clock pool memory
    have hhead : (front ++ head :: rest)[front.length]? = some head := by simp
    rw [takeOwned]
    split
    · rename_i hnone
      rw [hhead] at hnone
      cases hnone
    · rename_i record hrecord
      obtain rfl : head = record := Option.some.inj (hhead.symm.trans hrecord)
      by_cases howner : head.owner = owner
      · simp only [partitionOwned, if_pos howner, deallocAll]
        cases pool.dealloc head.frame with
        | error halt => rfl
        | ok pool' =>
          have herase : (front ++ head :: rest).eraseIdx front.length = front ++ rest := by
            rw [List.eraseIdx_append_of_length_le (Nat.le_refl _)]
            simp
          simp only [removeAt, herase, ih]
          cases deallocAll pool' (partitionOwned owner front.length rest (clock.removed front.length)).2.1 <;>
            rfl
      · have hmoved := ih (front ++ [head]) clock pool memory
        rw [List.append_assoc, List.length_append] at hmoved
        simp only [partitionOwned, if_neg howner]
        refine hmoved.trans ?_
        simp only [List.length_singleton, List.append_assoc, List.singleton_append]

/-- To give back all frames of an owner is to walk the list and take its records out. -/
theorem freeOwnedBy_eq_takeOwned (table : FrameTable) (owner : SpaceId) :
    table.freeOwnedBy owner = takeOwned owner 0 table :=
  (takeOwned_append table.records [] table.clock table.pool table.memory).symm

/-- Records that go at the hand or after it do not move it. -/
theorem clock_partitionOwned {records : List FrameRecord} : ∀ {index : Nat} {clock : SecondChance},
    clock.hand ≤ index → (partitionOwned owner index records clock).2.2 = clock := by
  induction records with
  | nil => exact fun _ => rfl
  | cons record records ih =>
    intro index clock hle
    by_cases howner : record.owner = owner
    · have hremoved : clock.removed index = clock := if_neg (Nat.not_lt.mpr hle)
      simp only [partitionOwned, if_pos howner, hremoved]
      exact ih hle
    · simp only [partitionOwned, if_neg howner]
      exact ih (Nat.le_succ_of_le hle)

/-- The hand ends behind what has stayed of the `n` records that it had before it. -/
theorem hand_partitionOwned {records : List FrameRecord} : ∀ {index n : Nat} {clock : SecondChance},
    clock.hand = index + n → n ≤ records.length →
    (partitionOwned owner index records clock).2.2.hand =
      index + ((records.take n).filter fun r => !decide (r.owner = owner)).length := by
  induction records with
  | nil =>
    intro index n clock hhand hle
    obtain rfl : n = 0 := Nat.le_zero.mp hle
    exact hhand
  | cons record records ih =>
    intro index n clock hhand hle
    cases n with
    | zero =>
      have hstays : clock.hand ≤ index := Nat.le_of_eq hhand
      rw [clock_partitionOwned hstays]
      exact hhand
    | succ n =>
      have hle' : n ≤ records.length := Nat.le_of_succ_le_succ hle
      by_cases howner : record.owner = owner
      · have hremoved : (clock.removed index).hand = index + n := by
          rw [SecondChance.removed, if_pos (by omega)]
          change clock.hand - 1 = _
          omega
        have hgoes : (!decide (record.owner = owner)) = false := by simp [howner]
        simp only [partitionOwned, if_pos howner, List.take_succ_cons, List.filter_cons, hgoes]
        exact ih hremoved hle'
      · have hstays : (!decide (record.owner = owner)) = true := by simp [howner]
        simp only [partitionOwned, if_neg howner, List.take_succ_cons, List.filter_cons, hstays, if_true,
          List.length_cons]
        rw [ih (by omega) hle']
        omega

end FrameTable

/-! ### The pool -/

namespace FramePool

variable {pool : FramePool} {frame : Nat}

/-- The counter is the number of entries that are out. -/
def Counts (pool : FramePool) : Prop := pool.allocated = pool.map.countP (·.allocated)

/-- Whether the count of a pool is right can be computed. -/
instance (pool : FramePool) : Decidable pool.Counts := inferInstanceAs (Decidable (_ = _))

/-- A frame that is out can be given back if the counter is right, and the counter is right then. -/
theorem Counts.dealloc (h : pool.Counts) (hout : pool.isAllocated frame = true) :
    ∃ after, pool.dealloc frame = .ok after ∧ after.Counts ∧ after.placer = pool.placer ∧
      after.allocated + 1 = pool.allocated ∧ after.map[frame]? = some {} ∧ SameBut frame pool after := by
  obtain ⟨entry, hentry, hallocated, hlt⟩ := exists_entry hout
  obtain ⟨hlt', hget⟩ := Array.getElem?_eq_some_iff.mp hentry
  have hpos : 0 < pool.allocated := by
    rw [h, Array.countP_pos_iff]
    exact ⟨entry, hget ▸ Array.getElem_mem hlt', hallocated⟩
  have hcount : (pool.map.setIfInBounds frame {}).countP (·.allocated) = pool.allocated - 1 := by
    rw [Array.setIfInBounds, dif_pos hlt', Array.countP_set, hget, hallocated, ← h]
    rfl
  refine ⟨{ pool.setEntry frame {} with allocated := pool.allocated - 1 }, ?_, hcount.symm, rfl, ?_, ?_, ?_⟩
  · simp only [FramePool.dealloc, FramePool.entry, hentry, hallocated, not_true_eq_false, if_false]
    rw [if_neg (Nat.ne_of_gt hpos)]
  · exact Nat.sub_add_cancel hpos
  · exact getElem?_setEntry hlt _
  · exact sameBut_setEntry pool frame _

/-- Different frames that are out can be given back one after the other. -/
theorem Counts.deallocAll (records : List FrameRecord) : ∀ {pool : FramePool}, pool.Counts →
    (records.map (·.frame)).Nodup → (∀ r ∈ records, pool.isAllocated r.frame = true) →
    ∃ after, FrameTable.deallocAll pool records = .ok after ∧ after.Counts ∧ after.placer = pool.placer ∧
      after.allocated + records.length = pool.allocated ∧
      (∀ r ∈ records, after.map[r.frame]? = some {}) ∧
      ∀ frame, (∀ r ∈ records, r.frame ≠ frame) → after.map[frame]? = pool.map[frame]? := by
  induction records with
  | nil => exact fun h _ _ => ⟨_, rfl, h, rfl, rfl, nofun, fun _ _ => rfl⟩
  | cons record records ih =>
    intro pool h hnodup hout
    rw [List.map_cons, List.nodup_cons] at hnodup
    have hother : ∀ r ∈ records, r.frame ≠ record.frame := by
      intro r hr heq
      exact hnodup.1 (heq ▸ List.mem_map_of_mem hr)
    obtain ⟨middle, hdealloc, hcounts, hplacer, hallocated, hfree, hsame⟩ :=
      h.dealloc (hout record List.mem_cons_self)
    have hstill : ∀ r ∈ records, middle.isAllocated r.frame = true := by
      intro r hr
      rw [isAllocated, hsame _ (hother r hr)]
      exact hout r (List.mem_cons_of_mem _ hr)
    obtain ⟨after, hrest, hcounts', hplacer', hallocated', hfree', hsame'⟩ :=
      ih hcounts hnodup.2 hstill
    refine ⟨after, ?_, hcounts', hplacer'.trans hplacer, ?_, ?_, ?_⟩
    · rw [FrameTable.deallocAll, hdealloc]
      exact hrest
    · rw [List.length_cons]
      omega
    · intro r hr
      rcases List.mem_cons.mp hr with rfl | hr
      · rw [hsame' _ hother, hfree]
      · exact hfree' r hr
    · intro frame hnot
      rw [hsame' frame fun r hr => hnot r (List.mem_cons_of_mem _ hr)]
      exact hsame frame (Ne.symm (hnot record List.mem_cons_self))

end FramePool

/-! ### The page directory -/

/-- A directory after some pages were unmapped. -/
def PageDirectory.clearAll (d : PageDirectory) (pages : List Nat) : PageDirectory :=
  pages.foldl (fun d page => (d.clear page).2) d

/-- The pages that some frames are bound to. -/
def pagesOf (records : List FrameRecord) : List Nat := records.filterMap (·.page)

/-- To unmap pages leaves the number of mappings that are yet to be refused. -/
theorem PageDirectory.refusals_clearAll (pages : List Nat) : ∀ {d : PageDirectory},
    (d.clearAll pages).refusals = d.refusals := by
  induction pages with
  | nil => exact rfl
  | cons page pages ih => exact fun {d} => @ih (d.clear page).2

/-- Exactly the pages that were named are not mapped any more. -/
theorem PageDirectory.find?_clearAll (pages : List Nat) {q : Nat} : ∀ {d : PageDirectory},
    (d.clearAll pages).find? q =
      if ∃ page ∈ pages, pageNumber page = pageNumber q then none else d.find? q := by
  induction pages with
  | nil => exact fun {d} => by simp [clearAll]
  | cons page pages ih =>
    intro d
    refine (@ih (d.clear page).2).trans ?_
    simp only [List.mem_cons, exists_eq_or_imp]
    by_cases hhere : pageNumber page = pageNumber q
    · simp [hhere, PageDirectory.find?, PageDirectory.clear]
    · simp [hhere, PageDirectory.find?, PageDirectory.clear, Std.ExtTreeMap.getElem?_erase]

/-- One change of a page directory after another. -/
theorem Spaces.onDirectory_onDirectory {spaces : Array AddressSpace} {s : SpaceId}
    {f g : PageDirectory → PageDirectory} :
    onDirectory (onDirectory spaces s f) s g = onDirectory spaces s fun d => g (f d) := by
  apply Array.ext_getElem?
  intro i
  simp only [onDirectory, Array.getElem?_modify]
  split
  · cases spaces[i]? <;> rfl
  · rfl

namespace Transition

variable {machine : Machine} {s : SpaceId}

/-- To clear pages of one space changes its page directory and nothing else. -/
theorem run_clearPages (records : List FrameRecord) : ∀ {machine : Machine}, s < machine.spaces.size →
    (∀ r ∈ records, r.owner = s) →
    clearPages records machine =
      .ok () { machine with spaces := onDirectory machine.spaces s (·.clearAll (pagesOf records)) } := by
  induction records with
  | nil =>
    intro machine _ _
    have hsame : onDirectory machine.spaces s (·.clearAll []) = machine.spaces :=
      onDirectory_eq_self fun _ _ => rfl
    rw [pagesOf, List.filterMap_nil, hsame]
    rfl
  | cons record records ih =>
    intro machine hs howner
    have howner' : ∀ r ∈ records, r.owner = s := fun r hr => howner r (List.mem_cons_of_mem _ hr)
    rw [clearPages]
    cases hpage : record.page with
    | none =>
      have hpages : pagesOf (record :: records) = pagesOf records := by simp [pagesOf, hpage]
      rw [hpages]
      exact ih hs howner'
    | some page =>
      have hpages : pagesOf (record :: records) = page :: pagesOf records := by simp [pagesOf, hpage]
      obtain rfl := howner record List.mem_cons_self
      have hspace : machine.spaces[record.owner]? = some machine.spaces[record.owner] :=
        Array.getElem?_eq_getElem hs
      have hclear : clear record.owner page machine =
          .ok (machine.spaces[record.owner].directory.find? page)
            { machine with spaces := unmap machine.spaces record.owner page } := by
        rw [clear, directory, bind_assoc, run_bind (run_space hspace)]
        exact congrArg (fun spaces => EStateM.Result.ok _ { machine with spaces })
          (modify_directory hspace fun d => (d.clear page).2)
      have hcleared := @ih { machine with spaces := unmap machine.spaces record.owner page }
        (by simpa [unmap] using hs) howner'
      have hafter : onDirectory (unmap machine.spaces record.owner page) record.owner
          (·.clearAll (pagesOf records)) =
          onDirectory machine.spaces record.owner (·.clearAll (page :: pagesOf records)) :=
        onDirectory_onDirectory
      rw [hafter] at hcleared
      rw [hpages]
      exact (run_bind hclear _).trans hcleared

end Transition

/-! ### The call -/

/-- All frames of one space were given back, and nothing else has changed. -/
structure Machine.GivesUp (s : SpaceId) (gone : List FrameRecord) (before after : Machine) : Prop where
  /-- The records of the space went. They are answered in scan order. -/
  gone_eq : gone = before.frames.records.filter fun r => decide (r.owner = s)
  /-- Those of other spaces are left, in the order that they had. -/
  records_eq : after.frames.records = before.frames.records.filter fun r => !decide (r.owner = s)
  /-- The frames that were given back are free, and not pinned. -/
  free : ∀ r ∈ gone, after.frames.pool.map[r.frame]? = some { allocated := false, pinned := false }
  /-- Whether any other frame is out and whether it is pinned is the same. -/
  kept : ∀ frame, (∀ r ∈ gone, r.frame ≠ frame) →
    after.frames.pool.map[frame]? = before.frames.pool.map[frame]?
  allocated_eq : after.frames.allocated + gone.length = before.frames.allocated
  counts : after.frames.pool.Counts
  /-- The pages that the frames were bound to are not mapped any more. -/
  unmapped : ∀ r ∈ gone, ∀ page, r.page = some page → mapped? after.spaces s page = none
  /-- The other pages of the space are mapped as they were. -/
  mapped : ∀ q, (∀ r ∈ gone, ∀ page, r.page = some page → pageNumber page ≠ pageNumber q) →
    mapped? after.spaces s q = mapped? before.spaces s q
  info : ∀ p, info? after.spaces s p = info? before.spaces s p
  standing : standing? after.spaces s = standing? before.spaces s
  /-- All other spaces are the same. -/
  others : ∀ s', s' ≠ s → after.spaces[s']? = before.spaces[s']?
  /-- The hand has left behind what has stayed of the records that it had left behind before. -/
  passed : after.frames.records.take after.frames.clock.hand =
    (before.frames.records.take before.frames.clock.hand).filter fun r => !decide (r.owner = s)
  ahead : after.frames.records.drop after.frames.clock.hand =
    (before.frames.records.drop before.frames.clock.hand).filter fun r => !decide (r.owner = s)
  /-- It stands on the first record that has stayed from where it stood on. -/
  hand : after.frames.records[after.frames.clock.hand]? =
    (before.frames.records.drop before.frames.clock.hand).find? fun r => !decide (r.owner = s)
  hand_le : after.frames.clock.hand ≤ after.frames.records.length
  /-- It stands at the end if there is none. -/
  hand_end : (∀ r ∈ before.frames.records.drop before.frames.clock.hand, r.owner = s) →
    after.frames.clock.hand = after.frames.records.length
  memory_eq : after.frames.memory = before.frames.memory
  /-- Where the pool looks next is the same. -/
  placer_eq : after.frames.pool.placer = before.frames.pool.placer
  /-- Files, swap and everything else are the same. -/
  rest : after = { before with frames := after.frames, spaces := after.spaces }

/-- A list without some of its members is cut where the list was. -/
theorem take_drop_filter {α : Type} (keep : α → Bool) (l : List α) (n : Nat) :
    (l.filter keep).take ((l.take n).filter keep).length = (l.take n).filter keep ∧
      (l.filter keep).drop ((l.take n).filter keep).length = (l.drop n).filter keep := by
  have hsplit : l.filter keep = (l.take n).filter keep ++ (l.drop n).filter keep := by
    rw [← List.filter_append, List.take_append_drop]
  rw [hsplit]
  exact ⟨List.take_left, List.drop_left⟩

/-- The frames of an owner can be taken back all at once if the records name different frames that are
out. -/
theorem FrameTable.exists_freeOwnedBy_counted {table : FrameTable} (owner : SpaceId)
    (hdistinct : (table.records.map (·.frame)).Nodup)
    (hout : ∀ r ∈ table.records, table.pool.isAllocated r.frame = true) (hcounts : table.pool.Counts)
    (hhand : table.clock.hand ≤ table.records.length) :
    ∃ gone clock pool, gone = table.records.filter (fun r => decide (r.owner = owner)) ∧
      table.freeOwnedBy owner = .ok (gone, { table with
        records := table.records.filter fun r => !decide (r.owner = owner), clock, pool }) ∧
      clock.hand = ((table.records.take table.clock.hand).filter fun r => !decide (r.owner = owner)).length ∧
      pool.Counts ∧ pool.placer = table.pool.placer ∧ pool.allocated + gone.length = table.pool.allocated ∧
      (∀ r ∈ gone, pool.map[r.frame]? = some {}) ∧
      ∀ frame, (∀ r ∈ gone, r.frame ≠ frame) → pool.map[frame]? = table.pool.map[frame]? := by
  obtain ⟨hkept, hgone⟩ := partitionOwned_eq owner table.records 0 table.clock
  have hclock := @hand_partitionOwned owner table.records 0 table.clock.hand table.clock
    (Nat.zero_add _).symm hhand
  rw [Nat.zero_add] at hclock
  have hsub : (table.records.filter fun r => decide (r.owner = owner)).Sublist table.records :=
    List.filter_sublist
  obtain ⟨pool, hdealloc, hpool⟩ := hcounts.deallocAll _ (hdistinct.sublist (hsub.map _))
    fun r hr => hout r (hsub.subset hr)
  refine ⟨_, (partitionOwned owner 0 table.records table.clock).2.2, pool, rfl, ?_, hclock, hpool⟩
  rw [← hgone] at hdealloc ⊢
  rw [← hkept]
  simp only [freeOwnedBy, hdealloc]

/-- To clear the pages of some frames unmaps exactly those pages of the one space. -/
theorem mapped?_clearAll {spaces : Array AddressSpace} {s : SpaceId} {records : List FrameRecord} {q : Nat} :
    mapped? (onDirectory spaces s (·.clearAll (pagesOf records))) s q =
      if ∃ r ∈ records, ∃ page, r.page = some page ∧ pageNumber page = pageNumber q then none
      else mapped? spaces s q := by
  have hpages : (∃ page ∈ pagesOf records, pageNumber page = pageNumber q) ↔
      ∃ r ∈ records, ∃ page, r.page = some page ∧ pageNumber page = pageNumber q := by
    simp only [pagesOf, List.mem_filterMap]
    constructor
    · rintro ⟨page, ⟨r, hr, hpage⟩, hnumber⟩
      exact ⟨r, hr, page, hpage, hnumber⟩
    · rintro ⟨r, hr, page, hpage, hnumber⟩
      exact ⟨page, ⟨r, hr, hpage⟩, hnumber⟩
  rw [mapped?_onDirectory, if_pos rfl]
  simp only [PageDirectory.find?_clearAll, hpages]
  cases hspace : spaces[s]? with
  | none => simp [mapped?, hspace]
  | some space =>
    simp only [mapped?, hspace, Option.bind_some]

namespace Transition

variable {machine : Machine} {s : SpaceId}

/-- All frames of a space are given back, in scan order, if the records name different frames that are out.
There may be any number of owners, and the hand may stand anywhere in the list or at its end. -/
theorem perform_freeOwnedBy (hs : s < machine.spaces.size)
    (hdistinct : (machine.frames.records.map (·.frame)).Nodup)
    (hout : ∀ r ∈ machine.frames.records, machine.frames.pool.isAllocated r.frame = true)
    (hcounts : machine.frames.pool.Counts)
    (hhand : machine.frames.clock.hand ≤ machine.frames.records.length) :
    ∃ gone after, (Kernel.perform (.freeOwnedBy s) : Transition Reply) machine = .ok (.freed gone) after ∧
      GivesUp s gone machine after := by
  obtain ⟨gone, clock, pool, hgone, htable, hclock, hpool, hplacer, hallocated, hfree, hkept⟩ :=
    FrameTable.exists_freeOwnedBy_counted s hdistinct hout hcounts hhand
  have howner : ∀ r ∈ gone, r.owner = s := by
    intro r hr
    rw [hgone, List.mem_filter, decide_eq_true_eq] at hr
    exact hr.2
  have hframes : frames machine = .ok machine.frames machine := rfl
  obtain ⟨htake, hdrop⟩ := take_drop_filter (fun r : FrameRecord => !decide (r.owner = s))
    machine.frames.records machine.frames.clock.hand
  rw [← hclock] at htake hdrop
  have hle : clock.hand ≤ (machine.frames.records.filter fun r => !decide (r.owner = s)).length := by
    rw [hclock]
    exact ((List.take_sublist _ _).filter _).length_le
  refine ⟨gone, { machine with
    frames := { machine.frames with
      records := machine.frames.records.filter fun r => !decide (r.owner = s), clock, pool }
    spaces := onDirectory machine.spaces s (·.clearAll (pagesOf gone)) }, ?_, ?_⟩
  · have hset : ∀ table, setFrames table machine = .ok () { machine with frames := table } := fun _ => rfl
    have htaken : ∀ taken : List FrameRecord × FrameTable,
        ofExcept (.ok taken) machine = .ok taken machine := fun _ => rfl
    rw [Kernel.perform, Kernel.freeOwnedBy, holding_eq, lift_eq, freeOwnedBy, bind_assoc,
      run_bind hframes, htable, bind_assoc, run_bind (htaken _), bind_assoc, run_bind (hset _), bind_assoc]
    exact run_bind (run_clearPages gone (by exact hs) howner) _
  constructor
  case gone_eq => exact hgone
  case records_eq => rfl
  case free => exact hfree
  case kept => exact hkept
  case allocated_eq => exact hallocated
  case counts => exact hpool
  case unmapped =>
    intro r hr page hpage
    rw [mapped?_clearAll, if_pos ⟨r, hr, page, hpage, rfl⟩]
  case mapped =>
    intro q hnot
    rw [mapped?_clearAll, if_neg]
    rintro ⟨r, hr, page, hpage, hnumber⟩
    exact hnot r hr page hpage hnumber
  case info => exact fun _ => info?_onDirectory
  case standing => exact standing?_onDirectory fun _ => PageDirectory.refusals_clearAll _
  case others =>
    intro s' hne
    exact (Array.getElem?_modify ..).trans (if_neg (Ne.symm hne))
  case passed => exact htake
  case ahead => exact hdrop
  case hand =>
    rw [← List.head?_drop, ← List.head?_filter]
    exact congrArg List.head? hdrop
  case hand_le => exact hle
  case hand_end =>
    intro hall
    refine Nat.le_antisymm hle (List.drop_eq_nil_iff.mp (hdrop.trans ?_))
    rw [List.filter_eq_nil_iff]
    intro r hr
    simp [hall r hr]
  case memory_eq => rfl
  case placer_eq => exact hplacer
  case rest => rfl

/-- Two spaces with five frames between them. The first space gives up a frame before the hand, one next to it
that is not bound, and the one under the hand; the hand ends on the last frame of the second. -/
theorem perform_freeOwnedBy_sample : ∃ machine gone after,
    machine.frames.records = [⟨0, 0, some 0x1000⟩, ⟨1, 1, some 0x1000⟩, ⟨2, 0, none⟩,
      ⟨3, 0, some 0x2000⟩, ⟨4, 1, none⟩] ∧ machine.frames.clock.hand = 3 ∧
    (mapped? machine.spaces 0 0x2000).isSome = true ∧ (mapped? machine.spaces 1 0x1000).isSome = true ∧
    (Kernel.perform (.freeOwnedBy 0) : Transition Reply) machine = .ok (.freed gone) after ∧
    gone.map (·.frame) = [0, 2, 3] ∧ after.frames.records.map (·.frame) = [1, 4] ∧
    after.frames.clock.hand = 1 ∧ mapped? after.spaces 0 0x2000 = none ∧
    (mapped? after.spaces 1 0x1000).isSome = true ∧ GivesUp 0 gone machine after := by
  obtain ⟨_, machine, -, hfacts⟩ := @exists_of_check _ (do
      let first ← addSpace 1
      let second ← addSpace 2
      let _ ← Kernel.allocateFor first 0x1000 false
      let _ ← install first 0x1000 0 true
      let _ ← Kernel.allocateFor second 0x1000 false
      let _ ← install second 0x1000 1 true
      let _ ← Kernel.allocate first false
      let _ ← Kernel.allocateFor first 0x2000 false
      let _ ← install first 0x2000 3 true
      let _ ← Kernel.allocate second false
      let table ← frames
      setFrames { table with clock := { hand := 3 } })
    (.boot {} 5 { name := "swap", kind := .swap, size := 16, disk := .ofSize 16 })
    (fun _ m => decide (m.frames.records = [⟨0, 0, some 0x1000⟩, ⟨1, 1, some 0x1000⟩, ⟨2, 0, none⟩,
        ⟨3, 0, some 0x2000⟩, ⟨4, 1, none⟩]) && decide (m.frames.clock.hand = 3) &&
      (mapped? m.spaces 0 0x2000).isSome && (mapped? m.spaces 1 0x1000).isSome &&
      m.frames.records.all (fun r => m.frames.pool.isAllocated r.frame) && decide m.frames.pool.Counts &&
      decide (0 < m.spaces.size)) (by decide +kernel)
  simp only [Bool.and_eq_true, decide_eq_true_eq, List.all_eq_true] at hfacts
  obtain ⟨⟨⟨⟨⟨⟨hrecords, hhand⟩, hfirst⟩, hsecond⟩, hout⟩, hcounts⟩, hs⟩ := hfacts
  obtain ⟨gone, after, hperform, h⟩ := perform_freeOwnedBy hs (by rw [hrecords]; decide) hout hcounts
    (by rw [hrecords, hhand]; decide)
  have hgone := h.gone_eq
  have hleft := h.records_eq
  have hpassed := h.passed
  rw [hrecords] at hgone hleft hpassed
  rw [hhand] at hpassed
  have hend : after.frames.clock.hand = 1 := by
    have hlength := congrArg List.length hpassed
    rw [List.length_take, Nat.min_eq_left h.hand_le] at hlength
    exact hlength
  refine ⟨machine, gone, after, hrecords, hhand, hfirst, hsecond, hperform, ?_, ?_, hend, ?_, ?_, h⟩
  · rw [hgone]
    decide
  · rw [hleft]
    decide
  · exact h.unmapped ⟨3, 0, some 0x2000⟩ (by rw [hgone]; decide) 0x2000 rfl
  · rw [mapped?, h.others 1 (by decide)]
    exact hsecond

end Transition

end DemandPaging
