import DemandPaging.Proofs.CompleteTeardowns

/-!
# Destroyed spaces

`Machine.Cleared` says what tearing a space down comes to: nothing is left of the space, its slots and
frames are free, what its files took is in them, and nothing else has changed. The space is then
closed (`Machine.Closed`): to tear it down again does nothing, and it takes no page, whatever happens
later.

`Run.destroy_complete` says this of every machine that a run may lead to and of every live space. If
nothing comes in between, a file takes a page if its switches let it; and while others turn the
switches, each page is in its file if the file took it whenever it may have been written.
-/

set_option autoImplicit false

namespace DemandPaging

open Spaces Machine

/-! ### What is left -/

/-- All that a space had is gone. `space` is what it was, `accepts p frame segment` says that the file
of a mapped page takes it, and nothing else has changed. -/
structure Machine.Cleared (accepts : Nat → Nat → Segment → Prop) (s : SpaceId) (space : AddressSpace)
    (before after : Machine) : Prop where
  /-- The space has no entries, no live mappings and no mapped pages, and it is torn down. -/
  empty : ∃ left, after.spaces[s]? = some left ∧ left.supplement.toList = [] ∧
    left.supplement.mappingIds = [] ∧ left.supplement.destroyed = true ∧ left.directory.toList = []
  /-- It has no frames, and the others have theirs. -/
  records : ∀ record, record ∈ after.frames.records ↔
    record ∈ before.frames.records ∧ record.owner ≠ s
  /-- As many slots are free again as pages were in swap. -/
  used : after.swap.usedCount + space.supplement.toList.countP (·.copy?.isSome) =
    before.swap.usedCount
  /-- As many frames are free again as it had. -/
  allocated : after.frames.allocated + before.frames.records.countP (fun r => decide (r.owner = s)) =
    before.frames.allocated
  /-- A changed page of a mapped file is in the file if the file took it, unless the space has another
  mapping of the file. -/
  saved : ∀ p entry info segment, before.IsMapped s p entry → before.Describes s p info →
    info.segment? = some segment → segment.writeBack = true → entry.dirty = true →
    accepts p entry.frame.toNat segment →
    (∀ (id : Nat) (mapping : Mapping), space.supplement.mappings[id]? = some mapping →
      mapping.file = segment.file → p ∈ pageRange mapping.page mapping.pages) →
    ∀ k, k < segment.readBytes → before.frames.memory.byte? entry.frame.toNat k =
      some (Files.windowByte after.files segment k)
  /-- Other spaces have the entries, mappings and mapped pages that they had. -/
  others : ∀ s' other, s' ≠ s → before.spaces[s']? = some other → ∃ other',
    after.spaces[s']? = some other' ∧ other'.supplement = other.supplement ∧
      other'.directory = other.directory
  /-- All frames have the contents that they had. -/
  memory : after.frames.memory = before.frames.memory
  /-- So have all slots, and those of other spaces are in use. -/
  disk : after.swap.device.disk = before.swap.device.disk
  slots : ∀ s' p info copy, s' ≠ s → before.Describes s' p info → info.copy? = some copy →
    after.swap.isUsed copy.slot = true

section

variable {s : SpaceId} {space : AddressSpace} {before after : Machine}

/-- Two tables with the same entries and the same standing are the same. -/
theorem AddressSpace.eq_of_views {a b : AddressSpace} (hstanding : b.standing = a.standing)
    (hinfo : ∀ p, b.supplement.find? p = a.supplement.find? p)
    (hmapped : ∀ p, IsAligned p → b.directory.find? p = a.directory.find? p) :
    b.supplement = a.supplement ∧ b.directory = a.directory := by
  obtain ⟨_, ⟨pages, refusals⟩, ⟨entries, mappings, next, destroyed⟩⟩ := a
  obtain ⟨_, ⟨pages', refusals'⟩, ⟨entries', mappings', next', destroyed'⟩⟩ := b
  simp only [standing, Standing.mk.injEq] at hstanding
  obtain ⟨rfl, rfl, rfl, rfl⟩ := hstanding
  have hentries : entries' = entries := Std.ExtTreeMap.ext_getElem? fun {p} => hinfo p
  have hpages : pages' = pages := Std.ExtTreeMap.ext_getElem? fun {number} => by
    have hnumber : pageNumber (number * pageSize) = number := Nat.mul_div_cancel number (by decide)
    have hfind := hmapped (number * pageSize) (Nat.mul_mod_left number pageSize)
    simpa only [PageDirectory.find?, hnumber] using hfind
  rw [hentries, hpages]
  exact ⟨rfl, rfl⟩

/-- Nothing is left of a space that was torn down. -/
theorem Machine.Orderly.empty_of_tornDown (h : after.Orderly) (htorn : TornDown after.spaces s) :
    ∃ left, after.spaces[s]? = some left ∧ left.supplement.toList = [] ∧
      left.supplement.mappingIds = [] ∧ left.supplement.destroyed = true ∧
      left.directory.toList = [] := by
  obtain ⟨standing, hstanding, hdestroyed⟩ := id htorn
  obtain ⟨left, hleft, rfl⟩ := Option.map_eq_some_iff.mp hstanding
  obtain ⟨hmappings, hpages⟩ := h.settled.live.destroyed s _ hstanding hdestroyed
  refine ⟨left, hleft, ?_, ?_, hdestroyed, ?_⟩
  · have hnone : left.supplement.entries = ∅ := Std.ExtTreeMap.ext_getElem? fun {p} => by
      rw [Std.ExtTreeMap.getElem?_empty]
      exact (info?_eq hleft).symm.trans (hpages p).1
    rw [Supplement.toList, hnone]
    rfl
  · rw [Supplement.mappingIds, show left.supplement.mappings = ∅ from hmappings]
    rfl
  · rw [List.eq_nil_iff_forall_not_mem]
    rintro ⟨p, e⟩ hmem
    obtain ⟨hp, hfind⟩ := PageDirectory.mem_toList.mp hmem
    have hframe := (hpages p).2 hp
    rw [frame?, mapped?_eq hleft, hfind] at hframe
    cases hframe

variable (h : before.Orderly) (h' : after.Orderly) (hd : Destroys s before after)

include h h' hd

/-- The records that are left are those of the other spaces. -/
theorem Destroys.mem_records (record : FrameRecord) : record ∈ after.frames.records ↔
    record ∈ before.frames.records ∧ record.owner ≠ s := by
  obtain ⟨writes, -, hforgets⟩ := hd.forgets
  rw [h'.settled.tracked.mem_iff, h.settled.tracked.mem_iff]
  by_cases howner : record.owner = s
  · refine iff_of_false ?_ fun hboth => hboth.2 howner
    rintro ⟨p, -, hp, hframe⟩
    rw [frame?, hforgets.unmapped _ p hp howner] at hframe
    cases hframe
  · rw [and_iff_left howner]
    refine exists_congr fun p => and_congr_right fun _ => and_congr_right fun hp => ?_
    rw [frame?, frame?, hforgets.mapped _ p hp howner]

/-- As many frames are free again as the space had. -/
theorem Destroys.allocated_add : after.frames.allocated +
    before.frames.records.countP (fun r => decide (r.owner = s)) = before.frames.allocated := by
  have hcount := (Machine.Settled.toResident h.settled).counted
  have hcount' := (Machine.Settled.toResident h'.settled).counted
  rw [FrameTable.size] at hcount hcount'
  have hnodup' := h'.settled.nodup
  have hperm : ((before.frames.records.filter fun r => decide (r.owner = s)) ++
      after.frames.records).Perm before.frames.records := by
    rw [List.perm_ext_iff_of_nodup ?_ h.settled.nodup]
    · intro record
      rw [List.mem_append, List.mem_filter, decide_eq_true_eq, hd.mem_records h h' record]
      tauto
    · refine List.nodup_append'.mpr ⟨h.settled.nodup.filter _, hnodup', fun record hmem hmem' => ?_⟩
      have howner := of_decide_eq_true (List.mem_filter.mp hmem).2
      exact ((hd.mem_records h h' record).mp hmem').2 howner
  have hlength := hperm.length_eq
  rw [List.length_append, ← List.countP_eq_length_filter] at hlength
  rw [← hcount, ← hcount', Nat.add_comm]
  exact hlength

/-- As many slots are free again as the space had pages in swap. -/
theorem Destroys.usedCount_add (hspace : before.spaces[s]? = some space) :
    after.swap.usedCount + space.supplement.toList.countP (·.copy?.isSome) =
      before.swap.usedCount := by
  obtain ⟨writes, -, hforgets⟩ := hd.forgets
  have hcopy : ∀ s' p, copy? after.spaces s' p =
      if s' = s then none else copy? before.spaces s' p := by
    intro s' p
    rw [copy?, copy?]
    split
    · rename_i hs
      rw [hforgets.dropped s' p hs]
      rfl
    · rename_i hs
      rw [hforgets.info s' p hs]
  have haccounted := h.settled.accounted
  have haccounted' := h'.settled.accounted
  have hperm : (slotsOf space.supplement.toList ++ after.swap.slots.usedSlots).Perm
      before.swap.slots.usedSlots := by
    rw [List.perm_ext_iff_of_nodup ?_ before.swap.slots.nodup_usedSlots]
    · intro slot
      simp only [List.mem_append, mem_slotsOf hspace, SlotBitmap.mem_usedSlots,
        haccounted.isUsed_iff, haccounted'.isUsed_iff, List.not_mem_nil, or_false, hcopy]
      constructor
      · rintro (⟨p, copy, hsome, hslot⟩ | ⟨s', p, copy, hsome, hslot⟩)
        · exact ⟨s, p, copy, hsome, hslot⟩
        · split at hsome
          · cases hsome
          · exact ⟨s', p, copy, hsome, hslot⟩
      · rintro ⟨s', p, copy, hsome, hslot⟩
        by_cases hs : s' = s
        · exact .inl ⟨p, copy, hs ▸ hsome, hslot⟩
        · exact .inr ⟨s', p, copy, by rw [if_neg hs, hsome], hslot⟩
    · refine List.nodup_append'.mpr ⟨nodup_slotsOf haccounted hspace,
        after.swap.slots.nodup_usedSlots, fun slot hmem hmem' => ?_⟩
      obtain ⟨p, copy, hsome, rfl⟩ := (mem_slotsOf hspace).mp hmem
      rw [SlotBitmap.mem_usedSlots, haccounted'.isUsed_iff] at hmem'
      obtain ⟨s', p', copy', hsome', hslot⟩ := hmem'.resolve_right List.not_mem_nil
      rw [hcopy] at hsome'
      split at hsome'
      · cases hsome'
      · rename_i hs
        exact hs (haccounted.inj s p s' p' copy copy' hsome hsome' hslot.symm).1
  have hlength := hperm.length_eq
  rw [List.length_append, ← haccounted.sound.used_eq, ← haccounted'.sound.used_eq, slotsOf,
    List.length_filterMap_eq_countP] at hlength
  rw [Nat.add_comm]
  simp only [Option.isSome_map] at hlength
  exact hlength

omit h h' in
/-- Other spaces have what they had. -/
theorem Destroys.others_eq {s' : SpaceId} {other : AddressSpace} (hs : s' ≠ s)
    (hother : before.spaces[s']? = some other) : ∃ other', after.spaces[s']? = some other' ∧
      other'.supplement = other.supplement ∧ other'.directory = other.directory := by
  obtain ⟨writes, -, hforgets⟩ := hd.forgets
  have hstanding := (hd.others s' hs).trans (standing?_eq hother)
  obtain ⟨other', hother', heq⟩ := Option.map_eq_some_iff.mp hstanding
  refine ⟨other', hother', AddressSpace.eq_of_views heq (fun p => ?_) fun p hp => ?_⟩
  · rw [← info?_eq hother', ← info?_eq hother, hforgets.info s' p hs]
  · rw [← mapped?_eq hother', ← mapped?_eq hother, hforgets.mapped s' p hp hs]

omit h' hd in
/-- If a space has only one mapping of a file, no two of its pages have the same byte of the file. -/
theorem Machine.Orderly.sole (hspace : before.spaces[s]? = some space) {p : Nat} {segment : Segment}
    (hsegment : segment? before.spaces s p = some segment) (hback : segment.writeBack = true)
    (honly : ∀ (id : Nat) (mapping : Mapping), space.supplement.mappings[id]? = some mapping →
      mapping.file = segment.file → p ∈ pageRange mapping.page mapping.pages) {k : Nat}
    (hk : k < segment.readBytes) {q : Nat} {other : Segment}
    (hother : segment? before.spaces s q = some other) (hback' : other.writeBack = true)
    (hcovers : other.Covers segment k) : q = p := by
  obtain ⟨id, mapping, j, hmapping, hj, rfl⟩ := h.mapped.owned s q other hother hback'
  obtain ⟨length, -, -, hwindows⟩ := h.mapped.windows s id mapping hmapping
  have hj' := (hwindows j hj).symm.trans hother
  rw [Option.some.injEq] at hj'
  subst hj'
  rw [mapping?_eq hspace] at hmapping
  obtain ⟨i, hi, rfl⟩ := mem_pageRange.mp (honly id mapping hmapping hcovers.1.symm)
  have hi' := (hwindows i hi).symm.trans hsegment
  rw [Option.some.injEq] at hi'
  subst hi'
  rw [eq_of_mappedSegment hk hcovers.2.1 hcovers.2.2]

/-- What was torn down in order is cleared. -/
theorem Destroys.cleared (hspace : before.spaces[s]? = some space)
    {accepts : Nat → Nat → Segment → Prop}
    (hsaved : ∀ p segment entry k, IsAligned p → segment? before.spaces s p = some segment →
      segment.writeBack = true → mapped? before.spaces s p = some entry → entry.dirty = true →
      k < segment.readBytes → accepts p entry.frame.toNat segment →
      (∀ q other, segment? before.spaces s q = some other → other.writeBack = true →
        other.Covers segment k → q = p) →
      before.frames.memory.byte? entry.frame.toNat k =
        some (Files.windowByte after.files segment k)) :
    before.Cleared accepts s space after := by
  obtain ⟨writes, -, hforgets⟩ := hd.forgets
  refine ⟨h'.empty_of_tornDown hd.torn, hd.mem_records h h', hd.usedCount_add h h' hspace,
    hd.allocated_add h h', ?_, fun s' other hs => hd.others_eq hs, hforgets.memory, hforgets.disk, ?_⟩
  · intro p entry info segment hmaps hinfo hinfoSegment hback hdirty haccepts honly k hk
    obtain ⟨hp, hentry⟩ := isMapped_iff.mp hmaps
    have hsegment : segment? before.spaces s p = some segment := by
      rw [segment?, describes_iff.mp hinfo]
      exact hinfoSegment
    refine hsaved p segment entry k hp hsegment hback hentry hdirty hk haccepts fun q other hother => ?_
    exact fun hback' => h.sole hspace hsegment hback honly hk hother hback'
  · intro s' p info copy hs hinfo hcopy
    refine h'.settled.accounted.isUsed (s := s') (p := p) ?_
    rw [copy?, hforgets.info s' p hs, describes_iff.mp hinfo]
    exact hcopy

end

/-! ### Closed spaces -/

namespace Call

/-- The call is to give pages to the space: it registers at least one, maps a file, adds to the stack or
resolves a fault. -/
def Extends (s : SpaceId) : Call → Prop
  | registerPage s' .. | mapFile s' .. | growStack s' .. | resolveFault s' .. => s' = s
  | registerSegment s' _ _ _ readBytes zeroBytes _ => s' = s ∧ pageSize ≤ readBytes + zeroBytes
  | _ => False

end Call

namespace Reply

/-- The call did not succeed. -/
def Refuses : Reply → Prop
  | refused _ | faulted _ => True
  | _ => False

end Reply

/-- To tear the space down does nothing, and whatever happens from now on, it is given no page. -/
structure Machine.Closed (s : SpaceId) (machine : Machine) : Prop where
  again : (Kernel.destroy s : Transition Unit) machine = .ok () machine
  refuses : ∀ moments later, Run machine moments later → ∀ (call : Call) (reply : Reply)
    (after : Machine), call.Extends s → (Kernel.perform call : Transition Reply) later = .ok reply after →
      reply.Refuses

section

variable {s : SpaceId} {machine : Machine}

/-- A table that was destroyed takes no entry. -/
theorem Supplement.insert_of_destroyed {table : Supplement} (h : table.destroyed = true)
    (info : PageInfo) : table.insert info = .error .destroyed := if_pos h

/-- The table of a space that was torn down is destroyed. -/
theorem Spaces.TornDown.destroyed {spaces : Array AddressSpace} (h : TornDown spaces s)
    {space : AddressSpace} (hspace : spaces[s]? = some space) :
    space.supplement.destroyed = true := by
  obtain ⟨standing, hstanding, hdestroyed⟩ := h
  rw [standing?_eq hspace, Option.some.injEq] at hstanding
  subst hstanding
  exact hdestroyed

namespace Transition

/-- A space that was torn down takes no page. -/
theorem ensures_registerPage_tornDown (htorn : TornDown machine.spaces s) (f : FileId)
    (offset page readBytes zeroBytes : Nat) (writable : Bool) :
    Ensures (registerPage s f offset page readBytes zeroBytes writable) machine fun outcome _ =>
      ∃ cause, outcome = .error cause := by
  unfold registerPage
  refine ensures_ite (fun _ => ?_) fun _ => ensures_ite (fun _ => ?_) fun _ =>
    ensures_ite (fun _ => ⟨_, rfl⟩) fun _ => ?_
  · exact rfl
  · exact rfl
  · simp only [ensures_bind, ensures_supplement]
    intro space hspace
    rw [Supplement.insert_of_destroyed (htorn.destroyed hspace)]
    exact ⟨_, rfl⟩

/-- What would give a page to a space that was torn down is refused. -/
theorem ensures_perform_tornDown (htorn : TornDown machine.spaces s) {call : Call}
    (hcall : call.Extends s) :
    Ensures (Kernel.perform call) machine fun reply _ => reply.Refuses := by
  cases call with
  | registerPage s' f offset page readBytes zeroBytes writable =>
    obtain rfl := hcall
    simp only [Kernel.perform, ensures_bind, ensures_pure]
    refine (ensures_registerPage_tornDown htorn f offset page readBytes zeroBytes writable).mono ?_
    rintro _ _ ⟨cause, rfl⟩
    trivial
  | registerSegment s' f offset page readBytes zeroBytes writable =>
    obtain ⟨rfl, hsome⟩ := hcall
    simp only [Kernel.perform, ensures_bind, ensures_pure, holding_eq, lift_eq]
    rw [registerSegment_eq]
    refine ensures_ite (fun _ => rfl) fun _ => ensures_ite (fun _ => rfl) fun _ => ?_
    obtain ⟨pages, hpages⟩ := Nat.exists_eq_succ_of_ne_zero
      (Nat.ne_of_gt (Nat.div_pos hsome (by decide : 0 < pageSize)))
    rw [hpages, registerFrom, ensures_bind]
    refine (ensures_registerPage_tornDown htorn ..).mono ?_
    rintro _ _ ⟨cause, rfl⟩
    trivial
  | mapFile s' f page =>
    obtain rfl := hcall
    simp only [Kernel.perform, Kernel.mapFile, ensures_bind, ensures_pure, holding_eq, lift_eq,
      ensures_file]
    intro file _
    refine ensures_ite (fun _ => trivial) fun _ => ?_
    simp only [Kernel.addFilePages, ensures_bind, lift_eq, ensures_supplement]
    intro space hspace
    rw [if_pos (htorn.destroyed hspace)]
    trivial
  | growStack s' address =>
    obtain rfl := hcall
    simp only [Kernel.perform, Kernel.growStack, ensures_bind, ensures_pure, holding_eq]
    refine ensures_ite (fun _ => trivial) fun _ => ?_
    simp only [Kernel.addStackPage, Kernel.supplement, ensures_bind, holding_eq, lift_eq,
      ensures_supplement]
    intro space hspace
    rw [if_pos (htorn.destroyed hspace)]
    trivial
  | resolveFault s' address stackPointer code =>
    obtain rfl := hcall
    simp only [Kernel.perform, Kernel.resolveFault, ensures_bind, ensures_pure, holding_eq]
    refine ensures_ite (fun _ => trivial) fun _ => ?_
    obtain ⟨rounds, hrounds⟩ : ∃ rounds, faultRounds = rounds + 1 := ⟨0xffffffff, rfl⟩
    rw [hrounds]
    simp only [Kernel.resolveIn, Kernel.supplement, ensures_bind, holding_eq, lift_eq,
      ensures_supplement]
    intro space hspace
    rw [if_pos (htorn.destroyed hspace)]
    trivial
  | _ => exact hcall.elim

end Transition

end

section

variable {s : SpaceId} {start machine later : Machine} {moments : List Moment}

/-- A space that was torn down stays so. -/
theorem Run.tornDown (h : Run start moments machine) (ho : start.Orderly)
    (htorn : TornDown start.spaces s) : TornDown machine.spaces s := by
  induction h with
  | nil => exact htorn
  | snoc hrun hpermitted hstep ih =>
    exact (Run.moves (hrun.snoc hpermitted hstep) ho).2.2.tornDown ih

/-- A space that was torn down is closed. -/
theorem Machine.Orderly.closed (ho : machine.Orderly) (htorn : TornDown machine.spaces s) :
    machine.Closed s where
  again := by
    obtain ⟨standing, hstanding, -⟩ := id htorn
    obtain ⟨space, hspace, -⟩ := Option.map_eq_some_iff.mp hstanding
    rw [Kernel.destroy, Kernel.supplement, Transition.holding_eq, Transition.holding_eq,
      Transition.lift_eq, Transition.run_bind (Transition.run_supplement hspace),
      if_pos (htorn.destroyed hspace)]
    rfl
  refuses moments later hrun call reply after hcall hstep :=
    (Transition.ensures_perform_tornDown (hrun.tornDown ho htorn) hcall).of_ok hstep

end

/-! ### Teardowns that nothing comes in between -/

namespace Admission

variable {m : Type → Type} [Kernel m] (A : Admission m) {s : SpaceId}

/-- To look up a page may go uninterrupted. -/
theorem findEntry (p : Nat) : A.Admits (Kernel.findEntry s p) (Kernel.findEntry s p) :=
  A.bind (A.atomically _) fun _ => A.bind (A.interrupt _) fun _ => A.pure _

/-- To save a page and give its frame back may go uninterrupted. -/
theorem saveAndFree (frame : Nat) (info : PageInfo) (entry : Option PageTableEntry) :
    A.Admits (Kernel.saveAndFree frame info entry) (Kernel.saveAndFree frame info entry) := by
  have hrest : ∀ saved : Except FileError Unit,
      A.Admits (Kernel.free frame >>= fun _ => Pure.pure (saved.mapError VmError.file))
        (Kernel.free frame >>= fun _ => Pure.pure (saved.mapError VmError.file)) :=
    fun saved => A.bind (A.holding (A.atomically _)) fun _ => A.pure _
  unfold Kernel.saveAndFree
  split
  · split
    · exact A.bind (A.writeBack frame _) hrest
    · exact A.bind (A.pure _) hrest
  · exact A.bind (A.pure _) hrest

/-- To unmap a page, in as many rounds as are left, may go uninterrupted. -/
theorem unmapPageIn (p rounds : Nat) :
    A.Admits (Kernel.unmapPageIn s p rounds) (Kernel.unmapPageIn s p rounds) := by
  induction rounds with
  | zero => exact A.atomically _
  | succ rounds ih =>
    refine A.bind (A.holding (A.atomically _)) fun table => ?_
    split
    · exact A.pure _
    · rename_i info _
      split
      · exact A.bind (A.holding (A.pure _)) fun _ => ih
      · refine A.bind (A.findEntry p) fun mapped => ?_
        simp only
        split
        · exact A.bind (A.holding (A.atomically _)) fun _ => A.pure _
        · refine A.bind (A.holding (A.atomically _)) fun backs => ?_
          cases backs with
          | true =>
            exact A.bind (A.holding (A.atomically _)) fun entry => A.saveAndFree _ info entry
          | false => exact A.bind (A.holding (A.pure _)) fun _ => ih

/-- To remove a mapping may go uninterrupted. -/
theorem removeMapping (id : Nat) :
    A.Admits (Kernel.removeMapping s id) (Kernel.removeMapping s id) := by
  refine A.bind (A.holding (A.atomically _)) fun taken => ?_
  cases taken with
  | none => exact A.pure _
  | some mapping =>
    refine A.bind (A.throughFailures (fun p => A.unmapPageIn p _) _) fun outcome => ?_
    exact A.bind (A.atomically _) fun space => A.bind (A.atomically _) fun _ => A.pure _

/-- To remove mappings one after the other may go uninterrupted. -/
theorem removeMappings (ids : List Nat) :
    A.Admits (Kernel.removeMappings s ids) (Kernel.removeMappings s ids) := by
  induction ids with
  | nil => exact A.pure _
  | cons id ids ih =>
    refine A.bind (A.removeMapping id) fun outcome => ?_
    cases outcome with
    | ok u => exact ih
    | error cause => exact A.bind (A.atomically _) fun space => A.bind (A.atomically _) fun _ => ih

/-- A space may be torn down with nothing in between. -/
theorem destroy (s : SpaceId) : A.Admits (Kernel.destroy s) (Kernel.destroy s) := by
  refine A.holding (A.bind (A.holding (A.atomically _)) fun table => ?_)
  split
  · exact A.pure _
  · refine A.bind (A.removeMappings _) fun _ => A.bind (A.holding (A.atomically _)) fun _ => ?_
    exact A.bind (A.holding (A.atomically _)) fun gone =>
      A.bind (A.atomically _) fun space => A.atomically _

end Admission

/-! ### The whole teardown -/

/-- To tear down a live space always comes to an end. Nothing is left of the space then, the bytes that
its files took are in them, nothing else has changed, and the space is closed. This is so if nothing
comes in between, and also if others turn the switches of files while it goes on. The swap disk is
asked for nothing. -/
theorem Run.destroy_complete {start machine : Machine} {moments : List Moment}
    (hfresh : start.Fresh) (h : Run start moments machine) {s : SpaceId} {space : AddressSpace}
    (hspace : machine.spaces[s]? = some space) (hlive : space.isDestroyed = false) :
    (∃ after, (Kernel.destroy s : Transition Unit) machine = .ok () after ∧ after.Closed s ∧
      machine.Cleared (fun _ _ segment => ∀ file, machine.files[segment.file]? = some file →
        file.Takes segment.offset segment.readBytes) s space after) ∧
    ∀ others : Machine → Machine → Prop, (∀ a b, others a b → Turned a b) →
      ∀ result, (Kernel.destroy s : Woven others Unit) machine result → ∃ after,
        result = .ok () after ∧ after.Closed s ∧
          machine.Cleared (Accepts others machine s) s space after := by
  have ho := h.orderly hfresh.orderly
  have hwoven : ∀ others : Machine → Machine → Prop, (∀ a b, others a b → Turned a b) →
      ∀ result, (Kernel.destroy s : Woven others Unit) machine result → ∃ after,
        result = .ok () after ∧ after.Closed s ∧
          machine.Cleared (Accepts others machine s) s space after := by
    intro others hturn result hresult
    obtain ⟨_, after, rfl, horderly, hdestroys, hsaved⟩ :=
      Woven.finishes_destroy hturn ho hspace hlive result hresult
    exact ⟨after, rfl, horderly.closed hdestroys.torn, hdestroys.cleared ho horderly hspace hsaved⟩
  refine ⟨?_, hwoven⟩
  obtain ⟨after, hrun, hclosed, hcleared⟩ := hwoven Eq
    (by rintro a _ rfl; exact turned_refl a) _ ((Woven.admission fun _ => rfl).destroy s machine)
  refine ⟨after, hrun, hclosed, { hcleared with saved := ?_ }⟩
  intro p entry info segment hmaps hinfo hinfoSegment hback hdirty htakes
  refine hcleared.saved p entry info segment hmaps hinfo hinfoSegment hback hdirty ?_
  -- nobody turns a switch, so a file that takes the page now takes it whenever it is written
  intro met file hcomes _ _ hfile
  have hsame := hcomes.sameSwitches segment.file
  rw [hfile] at hsame
  obtain ⟨file', hfile', hswitches⟩ := Option.map_eq_some_iff.mp hsame.symm
  exact (htakes file' hfile').congr hswitches.symm

/-- A process whose one stack page is in swap, since a page of a mapped file that it has stored in has
the only frame: when it is torn down, the slot and the frame are free again. -/
theorem destroy_complete_sample : ∃ moments machine space after, Run .sample moments machine ∧
    machine.spaces[0]? = some space ∧ machine.swap.usedCount = 1 ∧ machine.frames.allocated = 1 ∧
    (Kernel.destroy 0 : Transition Unit) machine = .ok () after ∧ after.Closed 0 ∧
    after.swap.usedCount = 0 ∧ after.frames.allocated = 0 := by
  obtain ⟨moments, machine, h, -, hfacts⟩ := @exists_run .sample [.addSpace 1,
    .addFile (.ofBytes #[1, 2, 3]), .call (.growStack 0 0x7ffff000), .call (.mapFile 0 0 0x10000),
    .call (.copyToUser 0 0x10001 #[9] 0)]
    (fun r => r.2.swap.usedCount = 1 ∧ r.2.frames.allocated = 1 ∧
      r.2.frames.records.countP (fun record => decide (record.owner = 0)) = 1 ∧
      r.2.spaces[0]?.any fun space => !space.isDestroyed &&
        space.supplement.toList.countP (·.copy?.isSome) == 1) (by decide +kernel)
  obtain ⟨hused, hallocated, howned, hspaces⟩ := of_decide_eq_true hfacts
  obtain ⟨space, hspace, hfound⟩ := (Option.any_eq_true ..).mp hspaces
  rw [Bool.and_eq_true, Bool.not_eq_true', beq_iff_eq] at hfound
  obtain ⟨hlive, hswapped⟩ := hfound
  obtain ⟨⟨after, hrun, hclosed, hcleared⟩, -⟩ :=
    Run.destroy_complete Machine.fresh_sample h hspace hlive
  have hslots := hcleared.used
  have hframes := hcleared.allocated
  rw [hswapped, hused] at hslots
  rw [howned, hallocated] at hframes
  exact ⟨moments, machine, space, after, h, hspace, hused, hallocated, hrun, hclosed,
    Nat.succ.inj hslots, Nat.succ.inj hframes⟩

end DemandPaging
