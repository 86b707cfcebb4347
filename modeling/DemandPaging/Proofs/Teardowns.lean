import DemandPaging.Kernel.Teardown
import DemandPaging.Proofs.Unmappings

/-!
# Teardown

To tear an address space down is to forget all its pages: the pages of its mappings, which are saved
on the way, then its entries with their swap slots, then what is still mapped with its frames.

Between the last two the parts of the machine do not agree, for there are pages of a space that was
torn down. So dropping the entries and dropping the frames are looked at by themselves, each with
what it keeps, and `ensures_destroy` puts them together.
-/

set_option autoImplicit false

namespace DemandPaging

open Spaces Machine

/-! ### The slots of a table -/

/-- The entries of a table are what it has under its pages. -/
theorem values_eq_map_snd {α : Type} (entries : Std.ExtTreeMap Nat α) :
    entries.values = entries.toList.map (·.2) := by
  obtain ⟨⟨q⟩⟩ := entries
  induction q using Quotient.ind with
  | _ tree =>
    obtain ⟨impl, wf⟩ := tree
    change impl.values = (Std.DTreeMap.Internal.Impl.Const.toList impl).map (·.2)
    rw [Std.DTreeMap.Internal.Impl.values_eq_map_snd,
      Std.DTreeMap.Internal.Impl.Const.toList_eq_toListModel_map, List.map_map]
    rfl

/-- The slots that some entries name. -/
def slotsOf (infos : List PageInfo) : List Nat :=
  infos.filterMap fun info => info.copy?.map (·.slot)

section

variable {spaces : Array AddressSpace} {s : SpaceId} {space : AddressSpace} {slots : SlotBitmap}
  {claimed : List Nat}

/-- The slots of a table are the slots of its pages. -/
theorem mem_slotsOf (hspace : spaces[s]? = some space) {slot : Nat} :
    slot ∈ slotsOf space.supplement.toList ↔
      ∃ p copy, copy? spaces s p = some copy ∧ copy.slot = slot := by
  rw [slotsOf, Supplement.toList, values_eq_map_snd, List.mem_filterMap]
  constructor
  · rintro ⟨info, hinfo, hslot⟩
    obtain ⟨⟨p, info'⟩, hmem, rfl⟩ := List.mem_map.mp hinfo
    obtain ⟨copy, hcopy, hslot⟩ := Option.map_eq_some_iff.mp hslot
    refine ⟨p, copy, ?_, hslot⟩
    rw [copy?, info?_eq hspace, Supplement.find?,
      Std.ExtTreeMap.mem_toList_iff_getElem?_eq_some.mp hmem]
    exact hcopy
  · rintro ⟨p, copy, hcopy, hslot⟩
    rw [copy?, info?_eq hspace] at hcopy
    obtain ⟨info, hinfo, hcopy⟩ := Option.bind_eq_some_iff.mp hcopy
    refine ⟨info, List.mem_map.mpr ⟨(p, info), ?_, rfl⟩, ?_⟩
    · exact Std.ExtTreeMap.mem_toList_iff_getElem?_eq_some.mpr hinfo
    · rw [hcopy, Option.map_some, hslot]

/-- No two pages of a table have the same slot. -/
theorem nodup_slotsOf (h : Accounted claimed spaces slots) (hspace : spaces[s]? = some space) :
    (slotsOf space.supplement.toList).Nodup := by
  rw [slotsOf, Supplement.toList, values_eq_map_snd, List.filterMap_map]
  have hkeys := Std.ExtTreeMap.distinct_keys_toList (t := space.supplement.entries)
  refine (List.Pairwise.and_mem.mp hkeys).filterMap _ ?_
  rintro ⟨p, info⟩ ⟨p', info'⟩ ⟨hmem, hmem', hne⟩ slot hslot slot' hslot' rfl
  obtain ⟨copy, hcopy, hs⟩ := Option.map_eq_some_iff.mp hslot
  obtain ⟨copy', hcopy', hs'⟩ := Option.map_eq_some_iff.mp hslot'
  have hpage : ∀ q i c, (q, i) ∈ space.supplement.entries.toList → i.copy? = some c →
      copy? spaces s q = some c := by
    intro q i c hq hc
    rw [copy?, info?_eq hspace, Supplement.find?,
      Std.ExtTreeMap.mem_toList_iff_getElem?_eq_some.mp hq]
    exact hc
  obtain ⟨-, rfl⟩ := h.inj s p s p' copy copy' (hpage p info copy hmem hcopy)
    (hpage p' info' copy' hmem' hcopy') (hs.trans hs'.symm)
  exact hne (by simp)

end

namespace Transition

variable {machine : Machine} {s : SpaceId}

/-! ### Entries -/

/-- The slots that some entries name are given back. -/
theorem ensures_releaseCopies (infos : List PageInfo) : ∀ {machine : Machine},
    machine.swap.slots.Sound → (slotsOf infos).Nodup →
    (∀ slot ∈ slotsOf infos, machine.swap.slots.isUsed slot = true) →
    Ensures (releaseCopies infos) machine fun _ after => ∃ slots,
      after = { machine with swap := { machine.swap with slots } } ∧ slots.Sound ∧
        ∀ x, slots.isUsed x = (machine.swap.slots.isUsed x && decide (x ∉ slotsOf infos)) := by
  induction infos with
  | nil =>
    intro machine hsound _ _
    exact ⟨machine.swap.slots, rfl, hsound, fun x => by simp [slotsOf]⟩
  | cons info infos ih =>
    intro machine hsound hnodup hused
    cases hcopy : info.copy? with
    | none =>
      have hslots : slotsOf (info :: infos) = slotsOf infos := by simp [slotsOf, hcopy]
      rw [hslots] at hnodup hused ⊢
      simp only [releaseCopies, hcopy]
      exact ih hsound hnodup hused
    | some copy =>
      have hslots : slotsOf (info :: infos) = copy.slot :: slotsOf infos := by
        simp [slotsOf, hcopy]
      rw [hslots] at hnodup hused ⊢
      obtain ⟨hnot, hnodup'⟩ := List.nodup_cons.mp hnodup
      simp only [releaseCopies, hcopy, ensures_bind]
      refine ensures_releaseSlot hsound (hused _ List.mem_cons_self) fun slots hsound' hslots' => ?_
      refine (@ih { machine with swap := { machine.swap with slots } } hsound' hnodup' ?_).mono ?_
      · intro slot hslot
        change slots.isUsed slot = true
        rw [hslots', hused slot (List.mem_cons_of_mem _ hslot), Bool.true_and, decide_eq_true_eq]
        rintro rfl
        exact hnot hslot
      · rintro _ _ ⟨slots'', rfl, hsound'', hused''⟩
        refine ⟨slots'', rfl, hsound'', fun x => (hused'' x).trans ?_⟩
        change (slots.isUsed x && _) = _
        rw [hslots']
        by_cases hx : x = copy.slot
        · subst hx
          simp
        · simp [hx]

/-- The spaces with the table of one of them destroyed. -/
def emptied (spaces : Array AddressSpace) (s : SpaceId) : Array AddressSpace :=
  onSupplement spaces s fun table => table.destroy

/-- A space that was emptied has no entries, and the others have theirs. -/
theorem info?_emptied {spaces : Array AddressSpace} {s' : SpaceId} {p : Nat} :
    info? (emptied spaces s) s' p = if s' = s then none else info? spaces s' p := by
  rw [emptied, info?_onSupplement]
  by_cases hs : s = s'
  · subst hs
    cases spaces[s]? <;> simp [Supplement.destroy, Supplement.find?]
  · rw [if_neg hs, if_neg (Ne.symm hs)]

/-- A space that was emptied has no mappings and is destroyed. -/
theorem standing?_emptied {spaces : Array AddressSpace} : standing? (emptied spaces s) s =
    (standing? spaces s).map fun standing => { standing with mappings := ∅, destroyed := true } := by
  rw [emptied, standing?_onSupplement, if_pos rfl, standing?, Option.map_map]
  rfl

/-- All entries of a space are dropped, and their slots are given back. -/
theorem ensures_dropEntries {claimed : List Nat}
    (h : Accounted claimed machine.spaces machine.swap.slots) :
    Ensures (dropEntries s) machine fun _ after => ∃ slots, after = { machine with
        spaces := emptied machine.spaces s, swap := { machine.swap with slots } } ∧
      Accounted claimed (emptied machine.spaces s) slots := by
  simp only [dropEntries, ensures_bind, ensures_supplement, ensures_setSupplement]
  intro space hspace
  rw [modify_supplement hspace fun table => table.destroy]
  have hcopies : ∀ s' p copy, copy? (emptied machine.spaces s) s' p = some copy ↔
      s' ≠ s ∧ copy? machine.spaces s' p = some copy := by
    intro s' p copy
    rw [copy?, copy?, info?_emptied]
    by_cases hs : s' = s
    · simp [hs]
    · simp [hs]
  refine (@ensures_releaseCopies space.supplement.toList { machine with
    spaces := emptied machine.spaces s } h.sound (nodup_slotsOf h hspace) ?_).mono ?_
  · intro slot hslot
    obtain ⟨p, copy, hcopy, hs⟩ := (mem_slotsOf hspace).mp hslot
    exact hs ▸ h.isUsed hcopy
  · rintro _ _ ⟨slots, rfl, hsound, hused⟩
    refine ⟨slots, rfl, hsound, fun slot => ?_, fun s₁ p₁ s₂ p₂ copy₁ copy₂ h₁ h₂ => ?_,
      fun s' p copy hcopy => h.apart s' p copy ((hcopies _ _ _).mp hcopy).2⟩
    · rw [hused, Bool.and_eq_true, decide_eq_true_eq, h.isUsed_iff]
      simp only [hcopies]
      constructor
      · rintro ⟨⟨s', p, copy, hcopy, hslot⟩ | hmem, hnot⟩
        · refine .inl ⟨s', p, copy, ⟨?_, hcopy⟩, hslot⟩
          rintro rfl
          exact hnot ((mem_slotsOf hspace).mpr ⟨p, copy, hcopy, hslot⟩)
        · exact .inr hmem
      · rintro (⟨s', p, copy, ⟨hne, hcopy⟩, hslot⟩ | hmem)
        · refine ⟨.inl ⟨s', p, copy, hcopy, hslot⟩, fun hmem => hne ?_⟩
          obtain ⟨p', copy', hcopy', hslot'⟩ := (mem_slotsOf hspace).mp hmem
          exact (h.inj s p' s' p copy' copy hcopy' hcopy (hslot'.trans hslot.symm)).1
        · refine ⟨.inr hmem, fun hslot => ?_⟩
          obtain ⟨p, copy, hcopy, rfl⟩ := (mem_slotsOf hspace).mp hslot
          exact h.apart s p copy hcopy hmem
    · exact h.inj s₁ p₁ s₂ p₂ copy₁ copy₂ ((hcopies _ _ _).mp h₁).2 ((hcopies _ _ _).mp h₂).2

end Transition

/-! ### Frames -/

namespace FrameTable

/-- The records that stay are those of other owners, and the records that go are those of the one. -/
theorem partitionOwned_eq (owner : SpaceId) (records : List FrameRecord) : ∀ index clock,
    (partitionOwned owner index records clock).1 = records.filter (fun r => !decide (r.owner = owner)) ∧
      (partitionOwned owner index records clock).2.1 =
        records.filter (fun r => decide (r.owner = owner)) := by
  induction records with
  | nil => exact fun _ _ => ⟨rfl, rfl⟩
  | cons record records ih =>
    intro index clock
    by_cases howner : record.owner = owner
    · obtain ⟨hkept, hgone⟩ := ih index (clock.removed index)
      simp only [partitionOwned, List.filter_cons, howner, decide_true, Bool.not_true,
        Bool.false_eq_true, if_false, if_true]
      exact ⟨hkept, congrArg (record :: ·) hgone⟩
    · obtain ⟨hkept, hgone⟩ := ih (index + 1) clock
      simp only [partitionOwned, List.filter_cons, howner, decide_false, Bool.not_false,
        Bool.false_eq_true, if_false, if_true]
      exact ⟨congrArg (record :: ·) hkept, hgone⟩

/-- Frames that are out can be taken back, pinned or not. -/
theorem exists_deallocAll {out : List Nat} (records : List FrameRecord) :
    ∀ {pool : FramePool} {pinned : List Nat}, pool.Accounts (records.map (·.frame) ++ out) pinned →
    ∃ pool' pinned', deallocAll pool records = .ok pool' ∧ pool'.capacity = pool.capacity ∧
      pinned' ⊆ pinned ∧ pool'.Accounts out pinned' := by
  induction records with
  | nil =>
    intro pool pinned h
    exact ⟨pool, pinned, rfl, rfl, List.Subset.refl _, h⟩
  | cons record records ih =>
    intro pool pinned h
    obtain ⟨pool', hpool, hcapacity, haccounts⟩ := FramePool.Accounts.dealloc h
    obtain ⟨pool'', pinned'', hrest, hcapacity', hsubset, haccounts'⟩ := ih haccounts
    refine ⟨pool'', pinned'', ?_, hcapacity'.trans hcapacity, ?_, haccounts'⟩
    · rw [deallocAll, hpool]
      exact hrest
    · exact fun f hf => List.mem_of_mem_filter (hsubset hf)

/-- The frames of one owner can be taken back all at once, pinned or not. -/
theorem exists_freeOwnedBy {table : FrameTable} {out pinned : List Nat}
    (h : table.pool.Accounts (table.records.map (·.frame) ++ out) pinned) (owner : SpaceId) :
    ∃ table' pinned', table.freeOwnedBy owner =
        .ok (table.records.filter (fun r => decide (r.owner = owner)), table') ∧
      table'.records = table.records.filter (fun r => !decide (r.owner = owner)) ∧
      table'.memory = table.memory ∧ table'.pool.capacity = table.pool.capacity ∧
      pinned' ⊆ pinned ∧ table'.pool.Accounts (table'.records.map (·.frame) ++ out) pinned' := by
  obtain ⟨hkept, hgone⟩ := partitionOwned_eq owner table.records 0 table.clock
  have hperm := List.filter_append_perm (fun r => decide (r.owner = owner)) table.records
  have haccounts : table.pool.Accounts
      ((table.records.filter (fun r => decide (r.owner = owner))).map (·.frame) ++
        ((table.records.filter (fun r => !decide (r.owner = owner))).map (·.frame) ++ out)) pinned := by
    refine h.perm ?_ fun _ => Iff.rfl
    rw [← List.append_assoc, ← List.map_append]
    exact (hperm.map _).symm.append_right out
  obtain ⟨pool, pinned', hpool, hcapacity, hsubset, hleft⟩ := exists_deallocAll _ haccounts
  rw [← hgone] at hpool
  rw [← hkept] at hleft
  refine ⟨{ table with
    records := (partitionOwned owner 0 table.records table.clock).1
    clock := (partitionOwned owner 0 table.records table.clock).2.2
    pool }, pinned', ?_, hkept, rfl, hcapacity, hsubset, hleft⟩
  rw [← hgone]
  simp only [freeOwnedBy, hpool]

/-- If no frame is pinned, none is afterwards. -/
theorem freeOwnedBy_eq_ok {table : FrameTable} {out : List Nat}
    (h : table.pool.Accounts (table.records.map (·.frame) ++ out) []) (owner : SpaceId) :
    ∃ table', table.freeOwnedBy owner =
        .ok (table.records.filter (fun r => decide (r.owner = owner)), table') ∧
      table'.records = table.records.filter (fun r => !decide (r.owner = owner)) ∧
      table'.memory = table.memory ∧ table'.pool.capacity = table.pool.capacity ∧
      table'.pool.Accounts (table'.records.map (·.frame) ++ out) [] := by
  obtain ⟨table', pinned', htable, hrecords, hmemory, hcapacity, hsubset, haccounts⟩ :=
    exists_freeOwnedBy h owner
  obtain rfl := List.subset_nil.mp hsubset
  exact ⟨table', htable, hrecords, hmemory, hcapacity, haccounts⟩

end FrameTable

namespace Transition

variable {machine : Machine} {away : Away} {s : SpaceId}

/-- The pages of some records are unmapped. -/
theorem ensures_clearPages (records : List FrameRecord) : ∀ {machine : Machine},
    (∀ r ∈ records, ∀ p, r.page = some p → IsAligned p) →
    Ensures (clearPages records) machine fun _ after => ∃ spaces, after = { machine with spaces } ∧
      (∀ s p, info? spaces s p = info? machine.spaces s p) ∧
      (∀ s, standing? spaces s = standing? machine.spaces s) ∧
      ∀ s p, IsAligned p → mapped? spaces s p =
        if ∃ r ∈ records, r.owner = s ∧ r.page = some p then none
        else mapped? machine.spaces s p := by
  induction records with
  | nil =>
    intro machine _
    exact ⟨machine.spaces, rfl, fun _ _ => rfl, fun _ => rfl, fun _ _ _ => by simp⟩
  | cons record records ih =>
    intro machine haligned
    have hrest : ∀ r ∈ records, ∀ p, r.page = some p → IsAligned p := fun r hr =>
      haligned r (List.mem_cons_of_mem _ hr)
    cases hpage : record.page with
    | none =>
      simp only [clearPages, hpage]
      refine (ih hrest).mono ?_
      rintro _ _ ⟨spaces, rfl, hinfo, hstanding, hmapped⟩
      refine ⟨spaces, rfl, hinfo, hstanding, fun s' p hp => (hmapped s' p hp).trans ?_⟩
      simp [hpage]
    | some page =>
      simp only [clearPages, hpage, ensures_bind, ensures_clear]
      intro space hspace
      refine (@ih { machine with spaces := unmap machine.spaces record.owner page } hrest).mono ?_
      rintro _ _ ⟨spaces, rfl, hinfo, hstanding, hmapped⟩
      refine ⟨spaces, rfl, fun s' p => (hinfo s' p).trans info?_unmap,
        fun s' => (hstanding s').trans standing?_unmap, fun s' p hp => (hmapped s' p hp).trans ?_⟩
      have hnumber := pageNumber_inj (haligned record List.mem_cons_self page hpage) hp
      simp only [mapped?_unmap, List.mem_cons, exists_eq_or_imp, hpage, Option.some.injEq, hnumber]
      by_cases hhere : record.owner = s' ∧ page = p
      · simp [hhere]
      · simp [hhere]

/-- The frames of a space go back to the pool, and its pages are unmapped. -/
theorem ensures_dropFrames {out : List Nat} (haccounts : machine.frames.pool.Accounts
      (machine.frames.records.map (·.frame) ++ out) [])
    (htracked : Tracked machine.spaces machine.frames.records) :
    Ensures (Kernel.dropFrames s) machine fun _ after => ∃ frames spaces notices,
      after = { machine with frames, spaces, notices } ∧
        frames.memory = machine.frames.memory ∧
        frames.pool.capacity = machine.frames.pool.capacity ∧
        frames.pool.Accounts (frames.records.map (·.frame) ++ out) [] ∧
        Tracked spaces frames.records ∧
        (∀ s p, info? spaces s p = info? machine.spaces s p) ∧
        (∀ s, standing? spaces s = standing? machine.spaces s) ∧
        ∀ s' p, IsAligned p →
          mapped? spaces s' p = if s' = s then none else mapped? machine.spaces s' p := by
  obtain ⟨table, htable, hrecords, hmemory, hcapacity, hleft⟩ :=
    FrameTable.freeOwnedBy_eq_ok haccounts s
  simp only [Kernel.dropFrames, Kernel.freeOwnedBy, holding_eq, lift_eq, freeOwnedBy, ensures_bind,
    ensures_frames, ensures_ofExcept, ensures_setFrames, htable]
  refine ⟨?_, fun halt => by simp⟩
  rintro _ ⟨⟩
  have hgone : ∀ r, r ∈ machine.frames.records.filter (fun r => decide (r.owner = s)) ↔
      r ∈ machine.frames.records ∧ r.owner = s := by
    intro r
    rw [List.mem_filter, decide_eq_true_eq]
  refine (@ensures_clearPages _ { machine with frames := table } ?_).mono ?_
  · intro r hr p hp
    obtain ⟨p', hp', haligned, -⟩ := (htracked.mem_iff r).mp ((hgone r).mp hr).1
    rw [hp, Option.some.injEq] at hp'
    exact hp' ▸ haligned
  · rintro _ _ ⟨spaces, rfl, hinfo, hstanding, hmapped⟩
    simp only [ensures_pure, ensures_space, ensures_notify]
    intro _ _
    have hall : ∀ s' p, IsAligned p →
        mapped? spaces s' p = if s' = s then none else mapped? machine.spaces s' p := by
      intro s' p hp
      rw [hmapped s' p hp]
      by_cases hs : s' = s
      · subst hs
        rw [if_pos rfl]
        split
        · rfl
        · rename_i hnone
          -- a page that was mapped had a record
          by_contra hentry
          obtain ⟨entry, hentry⟩ := Option.ne_none_iff_exists'.mp hentry
          have hframe : frame? machine.spaces s' p = some entry.frame.toNat := by
            rw [frame?, hentry, Option.map_some]
          exact hnone ⟨_, (hgone _).mpr ⟨htracked.mem_of_frame? hp hframe, rfl⟩, rfl, rfl⟩
      · rw [if_neg hs, if_neg]
        rintro ⟨r, hr, howner, -⟩
        exact hs (howner.symm.trans ((hgone r).mp hr).2)
    have hframe : ∀ s' p, IsAligned p →
        frame? spaces s' p = if s' = s then none else frame? machine.spaces s' p := by
      intro s' p hp
      rw [frame?, hall s' p hp]
      split <;> rfl
    refine ⟨table, spaces, _, rfl, hmemory, hcapacity, hleft, ⟨fun r => ?_, fun s' p hp hsome => ?_⟩,
      hinfo, hstanding, hall⟩
    · rw [hrecords, List.mem_filter, htracked.mem_iff, Bool.not_eq_true', decide_eq_false_iff_not]
      constructor
      · rintro ⟨⟨p, hpage, hp, hf⟩, howner⟩
        refine ⟨p, hpage, hp, ?_⟩
        rw [hframe _ _ hp, if_neg howner, hf]
      · rintro ⟨p, hpage, hp, hf⟩
        rw [hframe _ _ hp] at hf
        split at hf
        · cases hf
        · rename_i howner
          exact ⟨⟨p, hpage, hp, hf⟩, howner⟩
    · rw [hframe s' p hp] at hsome
      split at hsome
      · cases hsome
      · exact htracked.user s' p hp hsome

end Transition

/-! ### Mappings -/

/-- Some pages of one space were forgotten, with at most so many writes; no other space has changed,
and no mapping was added. -/
structure Sheds (s : SpaceId) (n : Nat) (before after : Machine) : Prop where
  others : ∀ s', s' ≠ s → standing? after.spaces s' = standing? before.spaces s'
  next? : ∀ s', next? after.spaces s' = next? before.spaces s'
  forgets : ∃ gone writes, (∀ s' p, gone s' p → s' = s) ∧ writes.length ≤ n ∧
    Forgets gone writes before after

section

variable {s : SpaceId} {id n n' : Nat} {mapping : Mapping} {m m' m'' : Machine}

/-- No page need be forgotten. -/
theorem Sheds.refl (s : SpaceId) (n : Nat) (m : Machine) : Sheds s n m m :=
  ⟨fun _ _ => rfl, fun _ => rfl, _, [], fun _ _ hf => hf.elim, Nat.zero_le _, .refl m⟩

/-- Pages may be forgotten in two steps, and the writes of both add up. -/
theorem Sheds.trans (h : Sheds s n m m') (h' : Sheds s n' m' m'') : Sheds s (n + n') m m'' := by
  obtain ⟨gone, writes, hgone, hlength, hforgets⟩ := h.forgets
  obtain ⟨gone', writes', hgone', hlength', hforgets'⟩ := h'.forgets
  refine ⟨fun s' hs => (h'.others s' hs).trans (h.others s' hs),
    fun s' => (h'.next? s').trans (h.next? s'), _, _, ?_, ?_, hforgets.trans hforgets'⟩
  · rintro s' p (hg | hg)
    · exact hgone s' p hg
    · exact hgone' s' p hg
  · rw [List.length_append]
    exact Nat.add_le_add hlength hlength'

/-- What was said does not matter. -/
theorem Sheds.notices (h : Sheds s n m m') (notices : Array Notice) :
    Sheds s n m { m' with notices } := by
  obtain ⟨gone, writes, hgone, hlength, hforgets⟩ := h.forgets
  exact ⟨h.others, h.next?, gone, writes, hgone, hlength, hforgets.notices notices⟩

/-- To remove a mapping is to forget its pages. -/
theorem Unmaps.sheds (h : Unmaps s id mapping m m') (hm : Mapped m.spaces) :
    Sheds s (kernelBase / pageSize) m m' := by
  obtain ⟨writes, hlength, hforgets⟩ := h.forgets
  obtain ⟨length, hpages, hmappable, -⟩ := hm.windows s id mapping h.live
  refine ⟨h.others, h.next?, _, writes, fun _ _ hg => hg.1, ?_, hforgets⟩
  exact Nat.le_trans hlength (hpages ▸ hmappable.pageCount_le)

end

/-- Mappings are removed one after the other. -/
theorem Transition.ensures_removeMappings {away : Away} {s : SpaceId} (ids : List Nat) :
    ∀ {machine : Machine}, machine.SettledBut away → Mapped machine.spaces →
    Ensures (Kernel.removeMappings s ids) machine fun _ after => after.SettledBut away ∧
      Mapped after.spaces ∧ Sheds s (ids.length * (kernelBase / pageSize)) machine after := by
  induction ids with
  | nil => exact fun h hm => ⟨h, hm, .refl s _ _⟩
  | cons id ids ih =>
    intro machine h hm
    simp only [Kernel.removeMappings, ensures_bind]
    refine (ensures_removeMapping h hm s id).mono ?_
    rintro outcome removed ⟨hsettled, hremoved⟩
    obtain ⟨hmapped, hsheds⟩ :
        Mapped removed.spaces ∧ Sheds s (kernelBase / pageSize) machine removed := by
      cases hmapping : mapping? machine.spaces s id with
      | none =>
        rw [hmapping] at hremoved
        obtain ⟨rfl, -⟩ := hremoved
        exact ⟨hm, .refl s _ _⟩
      | some mapping =>
        rw [hmapping] at hremoved
        obtain ⟨hunmaps, -⟩ := hremoved
        exact ⟨hunmaps.mapped hm, hunmaps.sheds hm⟩
    have hrest : ∀ before : Machine, before.SettledBut away → Mapped before.spaces →
        Sheds s (kernelBase / pageSize) machine before →
        Ensures (Kernel.removeMappings s ids) before fun _ after => after.SettledBut away ∧
          Mapped after.spaces ∧
          Sheds s ((id :: ids).length * (kernelBase / pageSize)) machine after := by
      intro before hsettled' hmapped' hsheds'
      refine (ih hsettled' hmapped').mono ?_
      rintro _ after ⟨hsettled'', hmapped'', hsheds''⟩
      refine ⟨hsettled'', hmapped'', ?_⟩
      rw [List.length_cons, Nat.succ_mul, Nat.add_comm]
      exact hsheds'.trans hsheds''
    cases outcome with
    | ok u => exact hrest removed hsettled hmapped hsheds
    | error cause =>
      -- what was said in between does not matter
      simp only [lift_eq, ensures_bind, ensures_space, ensures_notify]
      intro _ _
      exact hrest _ (hsettled.congr rfl rfl rfl rfl) hmapped (hsheds.notices _)

/-! ### Everything -/

/-- A space was torn down: nothing is known of its pages and mappings any more. -/
structure Destroys (s : SpaceId) (before after : Machine) : Prop where
  forgets : ∃ writes, writes.length ≤ maxMappingId * (kernelBase / pageSize) ∧
    Forgets (fun s' _ => s' = s) writes before after
  torn : TornDown after.spaces s
  unlisted : ∀ id, mapping? after.spaces s id = none
  next? : ∀ s', next? after.spaces s' = next? before.spaces s'
  others : ∀ s', s' ≠ s → standing? after.spaces s' = standing? before.spaces s'

section

variable {s : SpaceId} {m m' : Machine}

/-- The live mappings afterwards. -/
theorem Destroys.mapping? (h : Destroys s m m') (s' : SpaceId) (id : Nat) :
    Spaces.mapping? m'.spaces s' id = if s' = s then none else Spaces.mapping? m.spaces s' id := by
  by_cases hs : s' = s
  · subst hs
    rw [if_pos rfl, h.unlisted]
  · rw [if_neg hs, mapping?_congr (h.others s' hs)]

/-- Other spaces keep their mappings with all their pages. -/
theorem Destroys.mapped (h : Destroys s m m') (hm : Mapped m.spaces) : Mapped m'.spaces := by
  obtain ⟨writes, -, hforgets⟩ := h.forgets
  refine ⟨fun s' standing hs' => ?_, fun s' id mapping hmapping => ?_,
    fun s' p segment hsegment hback => ?_, fun s' id₁ id₂ mapping₁ mapping₂ i₁ i₂ h₁ h₂ => ?_⟩
  · have hnext := h.next? s'
    simp only [Spaces.next?, hs', Option.map_some] at hnext
    obtain ⟨standing', hstanding', hnext⟩ := Option.map_eq_some_iff.mp hnext.symm
    refine ⟨hnext ▸ (hm.numbered s' standing' hstanding').1, fun id mapping hmapping => ?_⟩
    have hlisted : Spaces.mapping? m'.spaces s' id = some mapping := by
      rw [Spaces.mapping?, hs', Option.bind_some, hmapping]
    rw [h.mapping?] at hlisted
    split at hlisted
    · cases hlisted
    · rw [Spaces.mapping?, hstanding', Option.bind_some] at hlisted
      exact hnext ▸ (hm.numbered s' standing' hstanding').2 id mapping hlisted
  · rw [h.mapping?] at hmapping
    split at hmapping
    · cases hmapping
    · rename_i hne
      obtain ⟨length, hpages, hmappable, hwindows⟩ := hm.windows s' id mapping hmapping
      refine ⟨length, hpages, hmappable, fun i hi => ?_⟩
      rw [hforgets.segment_eq hne]
      exact hwindows i hi
  · obtain ⟨hne, hsegment'⟩ := hforgets.segment hsegment
    obtain ⟨id, mapping, i, hmapping, hi, rfl⟩ := hm.owned s' p segment hsegment' hback
    refine ⟨id, mapping, i, ?_, hi, rfl⟩
    rw [h.mapping?, if_neg hne, hmapping]
  · rw [h.mapping?] at h₁ h₂
    split at h₁
    · cases h₁
    · rename_i hne
      rw [if_neg hne] at h₂
      exact hm.disjoint s' id₁ id₂ mapping₁ mapping₂ i₁ i₂ h₁ h₂

end

/-- A space has lost its entries, its mapped pages and its mappings for good, and nothing else was
done to the pages of any space. -/
structure Empties (s : SpaceId) (before after : Machine) : Prop where
  stackLimit_eq : after.stackLimit = before.stackLimit
  memory : after.frames.memory = before.frames.memory
  disk : after.swap.device.disk = before.swap.device.disk
  files_eq : after.files = before.files
  info : ∀ s' p, info? after.spaces s' p = if s' = s then none else info? before.spaces s' p
  mapped : ∀ s' p, IsAligned p →
    mapped? after.spaces s' p = if s' = s then none else mapped? before.spaces s' p
  standing : standing? after.spaces s =
    (standing? before.spaces s).map fun standing => { standing with mappings := ∅, destroyed := true }
  others : ∀ s', s' ≠ s → standing? after.spaces s' = standing? before.spaces s'

section

variable {s s' : SpaceId} {p n : Nat} {standing : Standing} {m m' m'' : Machine}

/-- No page of the space has a frame any more, and the pages of the others have theirs. -/
theorem Empties.frame? (h : Empties s m m') (hp : IsAligned p) :
    Spaces.frame? m'.spaces s' p = if s' = s then none else Spaces.frame? m.spaces s' p := by
  rw [Spaces.frame?, Spaces.frame?, h.mapped s' p hp]
  split <;> rfl

/-- A space that lost all it had was torn down, and nothing is left of it. -/
theorem Empties.live (h : Empties s m m') (hl : Live m.spaces) : Live m'.spaces := by
  refine ⟨fun s' standing hs' => ?_, fun s' standing hs' hd => ?_⟩
  · by_cases hs : s' = s
    · subst hs
      rw [h.standing] at hs'
      obtain ⟨old, hold, rfl⟩ := Option.map_eq_some_iff.mp hs'
      exact hl.refusals s' old hold
    · exact hl.refusals s' standing ((h.others s' hs).symm.trans hs')
  · by_cases hs : s' = s
    · subst hs
      rw [h.standing] at hs'
      obtain ⟨old, -, rfl⟩ := Option.map_eq_some_iff.mp hs'
      refine ⟨rfl, fun p => ⟨?_, fun hp => ?_⟩⟩
      · rw [h.info, if_pos rfl]
      · rw [h.frame? hp, if_pos rfl]
    · obtain ⟨hmappings, hpages⟩ := hl.destroyed s' standing ((h.others s' hs).symm.trans hs') hd
      refine ⟨hmappings, fun p => ⟨?_, fun hp => ?_⟩⟩
      · rw [h.info, if_neg hs]
        exact (hpages p).1
      · rw [h.frame? hp, if_neg hs]
        exact (hpages p).2 hp

/-- If pages of a space were forgotten before, all pages of it are forgotten now. -/
theorem Forgets.empties {gone : SpaceId → Nat → Prop} {writes : List FileId}
    (h : Forgets gone writes m m') (hgone : ∀ s' p, gone s' p → s' = s) (he : Empties s m' m'') :
    Forgets (fun s' _ => s' = s) writes m m'' where
  stackLimit_eq := he.stackLimit_eq.trans h.stackLimit_eq
  memory := he.memory.trans h.memory
  disk := he.disk.trans h.disk
  mapped s' p hp hne := by
    rw [he.mapped s' p hp, if_neg hne]
    exact h.mapped s' p hp fun hg => hne (hgone s' p hg)
  info s' p hne := by
    rw [he.info, if_neg hne]
    exact h.info s' p fun hg => hne (hgone s' p hg)
  unmapped s' p hp heq := by rw [he.mapped s' p hp, if_pos heq]
  dropped s' p heq := by rw [he.info, if_pos heq]
  files := he.files_eq ▸ h.files
  window other k hk hout := by
    rw [he.files_eq]
    exact h.window other k hk fun s' p segment hg => hout s' p segment (hgone s' p hg)

/-- A space that sheds its mappings and then loses the rest is torn down. -/
theorem Sheds.destroys (h : Sheds s n m m') (he : Empties s m' m'')
    (hn : n ≤ maxMappingId * (kernelBase / pageSize))
    (hstanding : standing? m.spaces s = some standing) : Destroys s m m'' := by
  obtain ⟨gone, writes, hgone, hlength, hforgets⟩ := h.forgets
  refine ⟨⟨writes, Nat.le_trans hlength hn, hforgets.empties hgone he⟩, ?_, fun id => ?_,
    fun s' => ?_, fun s' hne => (he.others s' hne).trans (h.others s' hne)⟩
  · have hnumbered := h.next? s
    rw [Spaces.next?, Spaces.next?, hstanding, Option.map_some] at hnumbered
    obtain ⟨old, hold, -⟩ := Option.map_eq_some_iff.mp hnumbered
    exact ⟨_, he.standing.trans (by rw [hold, Option.map_some]), rfl⟩
  · rw [Spaces.mapping?, he.standing]
    cases standing? m'.spaces s <;> simp
  · rw [← h.next?]
    by_cases hs : s' = s
    · subst hs
      rw [Spaces.next?, Spaces.next?, he.standing, Option.map_map]
      rfl
    · exact next?_congr (he.others s' hs)

end

/-- What is still on its way after a space was torn down: nobody wants a page of it any more. -/
def Away.without (away : Away) (s : SpaceId) : Away :=
  { away with page := away.page.filter (·.1 ≠ s) }

section

variable {away : Away} {a b : Array AddressSpace} {s : SpaceId} {m : Machine}

/-- The page that is moved out is still wanted unless its space is gone. -/
theorem Away.page_without {s' : SpaceId} {p : Nat} :
    (away.without s).page = some (s', p) ↔ away.page = some (s', p) ∧ s' ≠ s := by
  simp [without, Option.filter_eq_some_iff]

/-- All that was known of one space is gone, and all else is as it was. -/
theorem Spaces.Described.without (h : Described away.page a)
    (hinfo : ∀ s' p, info? b s' p = if s' = s then none else info? a s' p)
    (hframe : ∀ s' p, IsAligned p → frame? b s' p = if s' = s then none else frame? a s' p) :
    Described (away.without s).page b := by
  refine ⟨fun s' p info hp hnot => ?_, fun s' p hmoving => ?_⟩
  · rw [hinfo] at hp
    split at hp
    · cases hp
    · rename_i hne
      have hnot' : away.page ≠ some (s', p) := fun hpage =>
        hnot (Away.page_without.mpr ⟨hpage, hne⟩)
      obtain ⟨haligned, hevicting, hresident, hcopy, hback⟩ := h.fits s' p info hp hnot'
      refine ⟨haligned, hevicting, ?_, hcopy, hback⟩
      rw [hresident, hframe s' p haligned, if_neg hne]
  · obtain ⟨hpage, hne⟩ := Away.page_without.mp hmoving
    obtain ⟨info, hp, haligned, hevicting, hresident, hunmapped, hcopy, hback⟩ :=
      h.departs s' p hpage
    refine ⟨info, ?_, haligned, hevicting, hresident, ?_, hcopy, hback⟩
    · rw [hinfo, if_neg hne, hp]
    · rw [hframe s' p haligned, if_neg hne, hunmapped]

/-- Nobody wants a page of a space that was torn down before. -/
theorem Machine.SettledBut.without (h : m.SettledBut away) (htorn : TornDown m.spaces s) :
    m.SettledBut (away.without s) := by
  have hpages := h.live.gone htorn
  refine ⟨h.pool, h.capacity, h.tracked, h.described.without (fun s' p => ?_) fun s' p hp => ?_,
    h.accounted, h.live⟩
  · split
    · rename_i hs
      rw [hs, (hpages p).1]
    · rfl
  · split
    · rename_i hs
      rw [hs, (hpages p).2 hp]
    · rfl

end

namespace Transition

variable {machine : Machine} {away : Away}

/-- A space that was torn down before has nothing left. -/
theorem destroys_self (h : machine.SettledBut away) {s : SpaceId} {standing : Standing}
    (hstanding : standing? machine.spaces s = some standing) (hd : standing.destroyed = true) :
    Destroys s machine machine := by
  obtain ⟨hmappings, hpages⟩ := h.live.destroyed s standing hstanding hd
  refine ⟨⟨[], Nat.zero_le _, ?_⟩, ⟨standing, hstanding, hd⟩, fun id => ?_, fun _ => rfl,
    fun _ _ => rfl⟩
  · refine ⟨rfl, rfl, rfl, fun _ _ _ _ => rfl, fun _ _ _ => rfl, ?_, ?_, .refl _ _,
      fun _ _ _ _ => rfl⟩
    · rintro s' p hp rfl
      exact Option.map_eq_none_iff.mp ((hpages p).2 hp)
    · rintro s' p rfl
      exact (hpages p).1
  · rw [mapping?, hstanding, Option.bind_some, hmappings]
    simp

/-- All that a space has left is dropped: its entries with their slots, and its frames. -/
theorem ensures_empty (h : machine.SettledBut away) (s : SpaceId) :
    Ensures (dropEntries s >>= fun _ => Kernel.dropFrames s) machine fun _ after =>
      after.SettledBut (away.without s) ∧ Empties s machine after := by
  simp only [ensures_bind]
  refine (ensures_dropEntries (s := s) h.accounted).mono ?_
  rintro _ _ ⟨slots, rfl, haccounted⟩
  have hframe : ∀ s' p, frame? (emptied machine.spaces s) s' p = frame? machine.spaces s' p := by
    intro s' p
    rw [frame?, emptied, mapped?_onSupplement]
    rfl
  have htracked : Tracked (emptied machine.spaces s) machine.frames.records := by
    refine ⟨fun r => ?_, fun s' p => ?_⟩
    · simpa only [hframe] using h.tracked.mem_iff r
    · simpa only [hframe] using h.tracked.user s' p
  refine (@ensures_dropFrames { machine with
    spaces := emptied machine.spaces s, swap := { machine.swap with slots } } s _ h.pool
    htracked).mono ?_
  rintro _ _ ⟨frames, spaces, notices, rfl, hmemory, hcapacity, hpool, htracked', hinfo, hstanding,
    hmapped⟩
  have hempties : Empties s machine { machine with
      frames, spaces, swap := { machine.swap with slots }, notices } := by
    refine ⟨rfl, hmemory, rfl, rfl, fun s' p => (hinfo s' p).trans info?_emptied,
      fun s' p hp => ?_, (hstanding s).trans standing?_emptied, fun s' hne => ?_⟩
    · rw [hmapped s' p hp, emptied, mapped?_onSupplement]
    · rw [hstanding, emptied, standing?_onSupplement, if_neg (Ne.symm hne)]
  refine ⟨⟨hpool, ?_, htracked', ?_, ?_, hempties.live h.live⟩, hempties⟩
  · rw [hcapacity, hmemory]
    exact h.capacity
  · exact h.described.without hempties.info fun s' p => hempties.frame?
  · exact haccounted.congr fun s' p => by rw [copy?, copy?, hinfo]

/-- An address space is torn down. Doing so again does nothing. -/
theorem ensures_destroy (h : machine.SettledBut away) (hm : Mapped machine.spaces) (s : SpaceId) :
    Ensures (Kernel.destroy s) machine fun _ after =>
      after.SettledBut (away.without s) ∧ Mapped after.spaces ∧ Destroys s machine after := by
  simp only [Kernel.destroy, Kernel.supplement, holding_eq, lift_eq, ensures_bind,
    ensures_supplement]
  intro space hspace
  have hstanding := standing?_eq hspace
  refine ensures_ite (fun hdestroyed => ?_) (fun hdestroyed => ?_)
  · exact ⟨h.without ⟨_, hstanding, hdestroyed⟩, hm, destroys_self h hstanding hdestroyed⟩
  · rw [ensures_bind]
    refine (ensures_removeMappings space.supplement.mappingIds h hm).mono ?_
    rintro _ removed ⟨hsettled, hmapped, hsheds⟩
    refine (ensures_empty hsettled s).mono ?_
    rintro _ after ⟨hsettled', hempties⟩
    have hcount := Nat.mul_le_mul_right (kernelBase / pageSize) (hm.length_keys_le hstanding)
    have hdestroys := hsheds.destroys hempties hcount hstanding
    exact ⟨hsettled', hdestroys.mapped hm, hdestroys⟩

end Transition

end DemandPaging
