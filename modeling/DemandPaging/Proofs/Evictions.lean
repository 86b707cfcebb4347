import DemandPaging.Proofs.Victims

/-!
# Evictions

What is ensured of an eviction as a whole (`ensures_evict`): it hands out a frame that backs no page,
or it is refused; and either way the machine is as coherent as before, every page holds what it held,
and pages that were not mapped were left alone.

The page on its way is followed through the phases. All that the first phase can do to the tables is
`Parted`; of a mapped page of a live space it leaves `Detached`, with the frame backing nothing. `Saved`
says what the second phase has done about its contents. From there the page is `Released`, or `Restored`
if its contents could not be saved, and both lead back to a coherent machine.
-/

set_option autoImplicit false

namespace DemandPaging

namespace PageInfo

/-- The entry of a page whose contents were saved, in a slot or else in its file. -/
def saved (info : PageInfo) : Option SwapCopy → PageInfo
  | some copy => { info.movedToSwap copy with evicting := false }
  | none => { info with resident := false, evicting := false }

/-- A page whose contents were saved is not on its way any more. -/
theorem evicting_saved (info : PageInfo) (copy : Option SwapCopy) :
    (info.saved copy).evicting = false := by cases copy <;> rfl

/-- A page whose contents were saved is not in memory any more. -/
theorem resident_saved (info : PageInfo) (copy : Option SwapCopy) :
    (info.saved copy).resident = false := by cases copy <;> rfl

/-- A page that is saved keeps its window in a file. -/
theorem segment?_saved (info : PageInfo) (copy : Option SwapCopy) :
    (info.saved copy).segment? = info.segment? := by
  cases copy with
  | none => rfl
  | some copy =>
    unfold saved movedToSwap segment?
    cases info.backing <;> rfl

/-- A page that had no slot has the one that it was saved in, if any. -/
theorem copy?_saved {info : PageInfo} (h : info.copy? = none) (copy : Option SwapCopy) :
    (info.saved copy).copy? = copy := by
  cases copy with
  | none => exact h
  | some copy =>
    unfold saved movedToSwap copy?
    cases info.backing <;> rfl

end PageInfo

/-- Only a table that was destroyed has no entry to work with. -/
theorem Supplement.findOrAnonymous_eq_none {table : Supplement} {p : Nat} :
    table.findOrAnonymous p = none ↔ table.destroyed = true := by
  unfold findOrAnonymous
  cases hdestroyed : table.destroyed with
  | true => simp
  | false => cases hfind : table.find? p <;> simp

namespace Transition

open Spaces Machine

variable {machine : Machine} {s : SpaceId} {p frame : Nat}

/-! ### Taking a page out -/

/-- The entry that an eviction works with is in the table: it was there, or it was made for the eviction. -/
inductive Entered (before : Array AddressSpace) (s : SpaceId) (p : Nat) :
    PageInfo → Array AddressSpace → Prop
  | found {info : PageInfo} (hinfo : info? before s p = some info) : Entered before s p info before
  | made (hs : s < before.size) (hinfo : info? before s p = none) :
      Entered before s p (.anonymous p) (put before s p (.anonymous p))

section

variable {before made : Array AddressSpace} {space : AddressSpace} {info : PageInfo}
  {table : Supplement}

/-- The entry is found in the table that it was entered in. -/
theorem Entered.info?_eq (h : Entered before s p info made) : info? made s p = some info := by
  cases h with
  | found hinfo => exact hinfo
  | made hs => rw [info?_put hs, if_pos ⟨rfl, rfl⟩]

/-- An entry of the table is no entry of the directory. -/
theorem Entered.mapped?_eq (h : Entered before s p info made) :
    mapped? made s p = mapped? before s p := by
  cases h with
  | found => rfl
  | made => exact mapped?_put

/-- Only the page itself is entered. -/
theorem Entered.elsewhere (h : Entered before s p info made) : Elsewhere before made s p := by
  cases h with
  | found => exact .refl before s p
  | made hs => exact elsewhere_put hs

/-- The entry was there, or there was none and it is the one of an anonymous page. -/
theorem Entered.was (h : Entered before s p info made) :
    info? before s p = some info ∨ info? before s p = none ∧ info = .anonymous p := by
  cases h with
  | found hinfo => exact .inl hinfo
  | made _ hinfo => exact .inr ⟨hinfo, rfl⟩

/-- An entry that was entered can be changed. -/
theorem Entered.info?_amend (h : Entered before s p info made) (f : PageInfo → PageInfo) :
    info? (amend made s p f) s p = some (f info) := by
  rw [Spaces.info?_amend, if_pos ⟨rfl, rfl⟩, h.info?_eq, Option.map_some]

/-- A page that was unmapped stays so when an entry is entered for it and changed. -/
theorem Entered.mapped?_unmap (h : Entered (unmap before s p) s p info made) (f : PageInfo → PageInfo) :
    mapped? (amend made s p f) s p = none := by
  rw [mapped?_amend, h.mapped?_eq, Spaces.mapped?_unmap, if_pos ⟨rfl, rfl⟩]

/-- Only that page and its entry have changed then. -/
theorem Entered.elsewhere_unmap (h : Entered (unmap before s p) s p info made) (hp : IsAligned p)
    (f : PageInfo → PageInfo) : Elsewhere before (amend made s p f) s p :=
  ((Spaces.elsewhere_unmap hp).trans h.elsewhere).trans elsewhere_amend

/-- To change the entry that was found, in the table that it was found in, is to change it once it has been
entered. -/
theorem exists_entered (hspace : before[s]? = some space)
    (hfind : space.supplement.findOrAnonymous p = some (info, table)) (f : PageInfo → PageInfo) :
    ∃ made, Entered before s p info made ∧
      before.modify s (fun old => { old with supplement := table.modify p f }) = amend made s p f := by
  unfold Supplement.findOrAnonymous at hfind
  split at hfind
  · cases hfind
  · split at hfind
    · rename_i old hold
      cases hfind
      exact ⟨before, .found ((Spaces.info?_eq hspace).trans hold),
        modify_supplement hspace fun table => table.modify p f⟩
    · rename_i hnone
      cases hfind
      have hs := (Array.getElem?_eq_some_iff.mp hspace).1
      refine ⟨_, .made hs ((Spaces.info?_eq hspace).trans hnone), ?_⟩
      rw [amend, put, onSupplement_onSupplement]
      exact modify_supplement hspace fun table =>
        ({ table with entries := table.entries.insert p (.anonymous p) } : Supplement).modify p f

end

/-- What comes of page `p` of space `s` when it is taken out, in the tables from `before` to those at the end:
it was not mapped; or nobody wants it any more; or its entry is marked. -/
inductive Parted (before : Array AddressSpace) (s : SpaceId) (p : Nat) :
    Option PageTableEntry → Plan → Array AddressSpace → Prop
  | absent (hentry : mapped? before s p = none) : Parted before s p none .discard (unmap before s p)
  | unwanted {entry : PageTableEntry} (hentry : mapped? before s p = some entry)
      (htorn : TornDown before s) : Parted before s p (some entry) .discard (unmap before s p)
  | marked {entry : PageTableEntry} {info : PageInfo} {made : Array AddressSpace}
      (hentry : mapped? before s p = some entry) (hlive : ¬ TornDown before s)
      (hentered : Entered (unmap before s p) s p info made) :
      Parted before s p (some entry) (.ofEntry entry info) (amend made s p ({ · with evicting := true }))

/-- All that `detach` can do to a victim that has a page. -/
theorem ensures_parted :
    Ensures (detach { frame, owner := s, page := some p }) machine fun transit after =>
      ∃ entry plan spaces, transit = { frame, owner := s, page := p, entry, plan } ∧
        after = { machine with spaces } ∧ Parted machine.spaces s p entry plan spaces := by
  simp only [detach, ensures_bind, ensures_clear]
  intro _ _
  cases hentry : mapped? machine.spaces s p with
  | none => exact ⟨none, .discard, _, rfl, rfl, .absent hentry⟩
  | some entry =>
    simp only [ensures_bind, ensures_supplement]
    intro space hspace
    have htorn : TornDown machine.spaces s ↔ space.supplement.destroyed = true := by
      rw [tornDown_iff, ← standing?_unmap, standing?_eq hspace]
      rfl
    cases hfind : space.supplement.findOrAnonymous p with
    | none =>
      refine ⟨some entry, .discard, _, rfl, rfl, .unwanted hentry (htorn.mpr ?_)⟩
      exact Supplement.findOrAnonymous_eq_none.mp hfind
    | some found =>
      obtain ⟨info, table⟩ := found
      obtain ⟨made, hentered, hmade⟩ := exists_entered hspace hfind ({ · with evicting := true })
      have hlive : ¬ TornDown machine.spaces s := fun hdestroyed => by
        rw [Supplement.findOrAnonymous_eq_none.mpr (htorn.mp hdestroyed)] at hfind
        cases hfind
      simp only [ensures_bind, ensures_setSupplement, ensures_pure]
      rw [hmade]
      exact ⟨some entry, .ofEntry entry info, _, rfl, rfl, .marked hentry hlive hentered⟩

/-- Page `p` of space `s` was unmapped from `frame`, and its entry is marked. -/
structure Detached (before : Array AddressSpace) (s : SpaceId) (p : Nat) (entry : PageTableEntry)
    (info : PageInfo) (after : Array AddressSpace) : Prop where
  aligned : IsAligned p
  mapped : mapped? before s p = some entry
  unmapped : mapped? after s p = none
  elsewhere : Elsewhere before after s p
  info_eq : info? after s p = some { info with evicting := true }
  segment_eq : segment? before s p = info.segment?
  resident : info.resident = true
  copy_eq : info.copy? = none

/-- A victim is detached. -/
theorem ensures_detach {moving : Option (SpaceId × Nat)}
    (hdescribed : Described moving machine.spaces) (hlive : Live machine.spaces) (hp : IsAligned p)
    {entry : PageTableEntry} (hentry : mapped? machine.spaces s p = some entry) :
    Ensures (detach { frame, owner := s, page := some p }) machine fun transit after =>
      ∃ info spaces, transit =
          { frame, owner := s, page := p, entry := some entry, plan := .ofEntry entry info } ∧
        after = { machine with spaces } ∧ Detached machine.spaces s p entry info spaces := by
  have hframe : frame? machine.spaces s p = some entry.frame.toNat := by
    rw [frame?, hentry, Option.map_some]
  refine ensures_parted.mono ?_
  rintro transit after ⟨_, _, spaces, rfl, rfl, hparted⟩
  cases hparted with
  | absent hnone => cases hnone.symm.trans hentry
  | unwanted _ htorn => exact absurd htorn (hlive.isLive_of_frame? hp hframe).not_tornDown
  | @marked entry' info made hentry' _ hentered =>
    obtain rfl : entry' = entry := Option.some.inj (hentry'.symm.trans hentry)
    have hwas := hentered.was
    rw [info?_unmap] at hwas
    refine ⟨info, _, rfl, rfl, hp, hentry, hentered.mapped?_unmap _, hentered.elsewhere_unmap hp _,
      hentered.info?_amend _, ?_, ?_, ?_⟩
    · rcases hwas with hinfo | ⟨hinfo, rfl⟩ <;> rw [segment?, hinfo] <;> rfl
    · rcases hwas with hinfo | ⟨-, rfl⟩
      · have hfits := hdescribed.fits s p info hinfo (hdescribed.ne_of_frame? hframe)
        rw [hfits.resident, hframe, Option.isSome_some]
      · rfl
    · rcases hwas with hinfo | ⟨-, rfl⟩
      · have hcopy := hdescribed.copy?_eq_none hframe
        rwa [copy?, hinfo, Option.bind_some] at hcopy
      · rfl

/-! ### Saving its contents -/

/-- The contents of a detached page were saved, in the slot `copy` or else in its file, or were not
saved. The device, the files and the slots may have changed, but not so that another page is
affected. -/
structure Saved (writes : List FileId) (spaces : Array AddressSpace) (s : SpaceId) (p frame : Nat)
    (entry : PageTableEntry) (info : PageInfo) (outcome : Except VmError (Option SwapCopy))
    (before after : Machine) : Prop where
  frames_eq : after.frames = before.frames
  spaces_eq : after.spaces = before.spaces
  limit_eq : after.stackLimit = before.stackLimit
  failed : ∀ cause, outcome = .error cause → entry.dirty = true ∨ info.segment? = none
  back : ∀ segment, info.segment? = some segment → segment.writeBack = true →
    ∀ copy, outcome ≠ .ok (some copy)
  sound : after.swap.slots.Sound
  slots : match outcome with
    | .ok (some copy) => before.swap.slots.isUsed copy.slot = false ∧
      ∀ x, after.swap.slots.isUsed x = (before.swap.slots.isUsed x || decide (x = copy.slot))
    | _ => ∀ x, after.swap.slots.isUsed x = before.swap.slots.isUsed x
  disk : ∀ slot k, before.swap.slots.isUsed slot = true → k < pageSize →
    after.swap.device.disk.slotByte slot k = before.swap.device.disk.slotByte slot k
  length_le : writes.length ≤ 1
  written : Files.Written writes spaces before.files after.files
  window : ∀ s' p' segment k, ¬ (s' = s ∧ p' = p) → segment? spaces s' p' = some segment →
    Shielded writes spaces s' p' k →
    Files.windowByte after.files segment k = Files.windowByte before.files segment k
  kept : ∀ copy, outcome = .ok copy → ∀ k b, k < pageSize → Shielded writes spaces s p k →
    before.frames.memory.byte? frame k = some b →
    (entry.dirty = false → ∀ segment, info.segment? = some segment →
      Files.windowByte before.files segment k = b) →
    match copy with
    | some copy => after.swap.device.disk.slotByte copy.slot k = b
    | none => ∃ segment, info.segment? = some segment ∧ Files.windowByte after.files segment k = b

/-- A page goes to swap. -/
theorem ensures_swapOut (spaces : Array AddressSpace) (s : SpaceId) (p : Nat)
    (entry : PageTableEntry) (info : PageInfo) (writable : Bool)
    (hwhy : entry.dirty = true ∨ info.segment? = none)
    (hprivate : ∀ segment, info.segment? = some segment → segment.writeBack = false)
    (hsound : machine.swap.slots.Sound) :
    Ensures (Kernel.swapOut frame) machine fun outcome after =>
      Saved [] spaces s p frame entry info
        (outcome.map fun slot => some { slot, writable }) machine after := by
  simp only [Kernel.swapOut, lift_eq, ensures_bind]
  refine ensures_allocateSlot hsound ?_ fun slot slots hsound' hunused hused => ?_
  · refine ⟨rfl, rfl, rfl, fun _ _ => hwhy, fun _ _ _ => by simp [Except.map], hsound,
      fun _ => rfl, fun _ _ _ _ => rfl, Nat.zero_le _, .refl _ _, fun _ _ _ _ _ _ _ => rfl,
      fun copy hok => by cases hok⟩
  · simp only [ensures_bind]
    refine (ensures_writeSlot slot frame).mono ?_
    rintro outcome _ ⟨device, notices, rfl, hothers, hstored⟩
    have hdisk : ∀ x k, machine.swap.slots.isUsed x = true → k < pageSize →
        device.disk.slotByte x k = machine.swap.device.disk.slotByte x k := by
      intro x k hx hk
      refine hothers x k ?_ hk
      rintro rfl
      rw [hunused] at hx
      cases hx
    cases outcome with
    | error cause =>
      simp only [ensures_bind, ensures_pure]
      refine ensures_releaseSlot hsound' ?_ fun slots' hsound'' hused' => ?_
      · change slots.isUsed slot = true
        simp [hused]
      · refine ⟨rfl, rfl, rfl, fun _ _ => hwhy, fun _ _ _ => by simp [Except.map], hsound'',
          fun x => ?_, hdisk, Nat.zero_le _, .refl _ _, fun _ _ _ _ _ _ _ => rfl,
          fun copy hok => by cases hok⟩
        refine (hused' x).trans ?_
        change (slots.isUsed x && decide (x ≠ slot)) = _
        rw [hused]
        by_cases hx : x = slot
        · subst hx
          simp [hunused]
        · simp [hx]
    | ok u =>
      refine ⟨rfl, rfl, rfl, fun _ _ => hwhy, ?_, hsound', ⟨hunused, hused⟩, hdisk,
        Nat.zero_le _, .refl _ _, fun _ _ _ _ _ _ _ => rfl, ?_⟩
      · intro segment hseg hback
        rw [hprivate segment hseg] at hback
        cases hback
      rintro _ ⟨⟩ k b hk _ hbyte _
      have := hstored rfl k hk
      change machine.frames.memory.byte? frame k = _ at this
      rw [hbyte, Option.some.injEq] at this
      exact this.symm

/-- A page goes where it is planned to go. -/
theorem ensures_writeOut {spaces : Array AddressSpace} {entry : PageTableEntry} {info : PageInfo}
    {last : Option PageTableEntry} (hsound : machine.swap.slots.Sound)
    (hsegment : segment? spaces s p = info.segment?) :
    Ensures (Kernel.writeOut
      { frame, owner := s, page := p, entry := last, plan := .ofEntry entry info }) machine
      fun outcome after =>
        ∃ writes, Saved writes spaces s p frame entry info outcome machine after := by
  have hswap : (entry.dirty = true ∨ info.segment? = none) →
      (∀ segment, info.segment? = some segment → segment.writeBack = false) →
      ∀ writable, Ensures (Kernel.writeOut
      { frame, owner := s, page := p, entry := last, plan := .swap writable }) machine
      fun outcome after =>
        ∃ writes, Saved writes spaces s p frame entry info outcome machine after := by
    intro hwhy hprivate writable
    simp only [Kernel.writeOut, ensures_bind]
    refine (ensures_swapOut spaces s p entry info writable hwhy hprivate hsound).mono
      fun outcome after hsaved => ?_
    cases outcome <;> exact ⟨[], hsaved⟩
  unfold Plan.ofEntry
  cases hinfo : info.segment? with
  | none => exact hswap (.inr hinfo) (fun segment hseg => by rw [hinfo] at hseg; cases hseg) _
  | some segment =>
    by_cases hdirty : (segment.writeBack && entry.dirty) = true
    · simp only [hdirty, if_true, Kernel.writeOut, ensures_bind]
      rw [Bool.and_eq_true] at hdirty
      have hseg := hsegment.trans hinfo
      refine (ensures_writeBack hseg hdirty.1 frame).mono ?_
      rintro outcome _ ⟨files, writes, rfl, hlength, hwritten, hout, hstored⟩
      have hothers : ∀ s' p' other k, ¬ (s' = s ∧ p' = p) → segment? spaces s' p' = some other →
          Shielded writes spaces s' p' k →
          Files.windowByte files other k = Files.windowByte machine.files other k :=
        fun s' p' other k hsp hother hshield =>
          windowByte_of_shielded hseg hdirty.1 hwritten hout hsp hother hshield
      cases outcome with
      | error cause =>
        exact ⟨writes, rfl, rfl, rfl, fun _ _ => .inl hdirty.2, fun _ _ _ _ => by simp, hsound,
          fun _ => rfl, fun _ _ _ _ => rfl, hlength, hwritten, hothers, fun copy hok => by cases hok⟩
      | ok u =>
        refine ⟨writes, rfl, rfl, rfl, fun _ _ => .inl hdirty.2, fun _ _ _ _ => by simp, hsound,
          fun _ => rfl, fun _ _ _ _ => rfl, hlength, hwritten, hothers, ?_⟩
        rintro _ ⟨⟩ k b _ hshield hbyte _
        have hsafe := hshield segment hseg
        rw [if_pos hdirty.1] at hsafe
        have := hstored rfl k hsafe.1
        rw [hbyte, Option.some.injEq] at this
        exact ⟨segment, hinfo, this.symm⟩
    · by_cases hkeep : (segment.writeBack || !entry.dirty) = true
      · simp only [hdirty, hkeep, if_true, if_false, Bool.false_eq_true, Kernel.writeOut,
          ensures_pure]
        refine ⟨[], rfl, rfl, rfl, fun cause => by simp, fun _ _ _ _ => by simp, hsound,
          fun _ => rfl, fun _ _ _ _ => rfl, Nat.zero_le _, .refl _ _,
          fun _ _ _ _ _ _ _ => rfl, ?_⟩
        rintro _ ⟨⟩ k b _ _ _ hclean
        have hd : entry.dirty = false := by
          cases hb : segment.writeBack <;> cases hd : entry.dirty <;> simp_all
        exact ⟨segment, hinfo, hclean hd segment hinfo⟩
      · simp only [hdirty, hkeep, if_false, Bool.false_eq_true]
        refine hswap (.inl ?_) (fun other hother => ?_) _
        · cases hd : entry.dirty <;> simp_all
        · rw [hinfo, Option.some.injEq] at hother
          subst hother
          cases hb : segment.writeBack <;> simp_all

/-! ### Putting it back, or letting it go -/

/-- A detached page whose contents were saved: its frame is cleared and its entry brought up to
date. -/
structure Released (before : Machine) (s : SpaceId) (p frame : Nat) (copy : Option SwapCopy)
    (after : Machine) : Prop where
  lt_size : frame < before.frames.memory.size
  memory_eq : after.frames.memory = before.frames.memory.setPage frame Page.blank
  records_eq : after.frames.records = before.frames.records
  pool_eq : after.frames.pool = before.frames.pool
  spaces_eq : after.spaces = amend before.spaces s p (·.saved copy)
  swap_eq : after.swap = before.swap
  files_eq : after.files = before.files
  limit_eq : after.stackLimit = before.stackLimit

/-- A detached page whose contents could not be saved: it is mapped again as it was. -/
structure Restored (before : Machine) (s : SpaceId) (p frame : Nat) (entry : PageTableEntry)
    (after : Machine) : Prop where
  memory_eq : after.frames.memory = before.frames.memory
  records_eq : after.frames.records =
    before.frames.records ++ [{ frame, owner := s, page := some p }]
  unpinned : before.frames.pool.setPinned frame false = .ok after.frames.pool
  elsewhere : Elsewhere before.spaces after.spaces s p
  mapped : ∃ entry', mapped? after.spaces s p = some entry' ∧ entry'.frame = entry.frame ∧
    entry'.dirty = entry.dirty
  info_eq : info? after.spaces s p = (info? before.spaces s p).map ({ · with evicting := false })
  swap_eq : after.swap = before.swap
  files_eq : after.files = before.files
  limit_eq : after.stackLimit = before.stackLimit

/-- What `finish` does to the machine, if the page is still known. -/
theorem ensures_finish_wanted {transit : Transit} {info : PageInfo} (copy : Option SwapCopy)
    (hplan : transit.plan ≠ .discard)
    (hinfo : info? machine.spaces transit.owner transit.page = some info) :
    Ensures (finish transit copy) machine fun _ after => ∃ notice,
      transit.frame < machine.frames.memory.size ∧
      after = { machine with
        frames := { machine.frames with
          memory := machine.frames.memory.setPage transit.frame Page.blank }
        spaces := amend machine.spaces transit.owner transit.page (·.saved copy)
        notices := machine.notices.push notice } := by
  simp only [finish, ensures_bind, ensures_zero]
  intro content hcontent
  have hlt := FrameMemory.lt_size_of_page hcontent
  rw [if_neg hplan]
  simp only [ensures_bind, ensures_supplement]
  intro space hspace
  rw [← Spaces.info?_eq hspace, hinfo]
  cases copy with
  | none =>
    simp only [ensures_bind, ensures_modifyInfo, ensures_space, ensures_notify]
    exact fun _ _ => ⟨_, hlt, rfl⟩
  | some copy =>
    simp only [ensures_bind, ensures_modifyInfo, ensures_space, ensures_notify]
    exact fun _ _ => ⟨_, hlt, rfl⟩

/-- A page that is still known is released from its frame. -/
theorem ensures_finish {transit : Transit} {info : PageInfo} (copy : Option SwapCopy)
    (hplan : transit.plan ≠ .discard)
    (hinfo : info? machine.spaces transit.owner transit.page = some info) :
    Ensures (finish transit copy) machine fun _ after =>
      Released machine transit.owner transit.page transit.frame copy after := by
  refine (ensures_finish_wanted copy hplan hinfo).mono ?_
  rintro _ _ ⟨_, hlt, rfl⟩
  exact ⟨hlt, rfl, rfl, rfl, rfl, rfl, rfl, rfl⟩

/-- The entry of a page that is put back into its frame, with the marks that it had. -/
def remade (frame : Nat) (entry : PageTableEntry) : PageTableEntry :=
  { PageTableEntry.userPage (BitVec.ofNat 20 frame) entry.writable with
    dirty := entry.dirty, accessed := entry.accessed }

/-- What `restore` does to the machine, if the page can be mapped again. -/
theorem ensures_remade {entry : PageTableEntry} {plan : Plan}
    (hrefusals : ∀ standing, standing? machine.spaces s = some standing → standing.refusals = 0)
    (hunmapped : mapped? machine.spaces s p = none) :
    Ensures (restore { frame, owner := s, page := p, entry := some entry, plan }) machine
      fun _ after => ∃ pool spaces, machine.frames.pool.setPinned frame false = .ok pool ∧
        after = { machine with
          frames := { machine.frames with
            pool, records := machine.frames.records ++ [{ frame, owner := s, page := some p }] }
          spaces } ∧
        frame ≤ maxFrame ∧ mapped? spaces s p = some (remade frame entry) ∧
        info? spaces s p = (info? machine.spaces s p).map ({ · with evicting := false }) ∧
        (IsAligned p → Elsewhere machine.spaces spaces s p) := by
  simp only [restore, ensures_bind]
  refine ensures_install hrefusals (fun e he => ?_) fun hlt _ hmax => ?_
  · rw [hunmapped] at he
    cases he
  · simp only [ensures_setDirty, ensures_setAccessed, ensures_modifyInfo, ensures_frames,
      ensures_ofExcept, ensures_setFrames, FrameTable.insert]
    cases hpool : machine.frames.pool.setPinned frame false with
    | error halt =>
      refine ⟨fun _ htable => (by cases htable), ?_⟩
      rintro _ ⟨⟩
      exact FramePool.not_isDoubleRelease_of_setPinned hpool
    | ok pool =>
      refine ⟨?_, fun _ hhalt => (by cases hhalt)⟩
      rintro _ ⟨⟩
      refine ⟨pool, _, rfl, rfl, hmax, ?_, ?_, fun hp => ?_⟩
      · rw [mapped?_amend, mapped?_mark, mapped?_mark, mapped?_map hlt]
        simp [remade]
      · rw [info?_amend]
        simp
      · exact (((elsewhere_map hp hlt).trans (elsewhere_mark hp)).trans
          (elsewhere_mark hp)).trans elsewhere_amend

/-- A page that is not mapped otherwise is put back with the marks that it had. -/
theorem ensures_restore {entry : PageTableEntry} {plan : Plan} (hp : IsAligned p)
    (hframe : entry.frame.toNat = frame)
    (hrefusals : ∀ standing, standing? machine.spaces s = some standing → standing.refusals = 0)
    (hunmapped : mapped? machine.spaces s p = none) :
    Ensures (restore { frame, owner := s, page := p, entry := some entry, plan }) machine
      fun _ after => Restored machine s p frame entry after := by
  refine (ensures_remade hrefusals hunmapped).mono ?_
  rintro _ _ ⟨pool, spaces, hpool, rfl, -, hmapped, hinfo, he⟩
  refine ⟨rfl, rfl, hpool, he hp, ⟨_, hmapped, ?_, rfl⟩, hinfo, rfl, rfl, rfl⟩
  simp [remade, PageTableEntry.userPage, ← hframe]

end Transition

/-! ### The machine afterwards -/

/-- Whatever is planned for a page that has an entry, it is not to discard it. -/
theorem Plan.ofEntry_ne_discard (entry : PageTableEntry) (info : PageInfo) :
    Plan.ofEntry entry info ≠ .discard := by
  unfold Plan.ofEntry
  cases info.segment? with
  | none => simp
  | some segment =>
    simp only
    split
    · simp
    · split
      · simp
      · simp

section

open Spaces Machine Transition

variable {front rear : List FrameRecord} {spaces : Array AddressSpace} {s : SpaceId} {p frame : Nat}
  {entry : PageTableEntry} {info : PageInfo}

variable {away : Away} {m middle m' : Machine} {writes : List FileId}

/-- Pages that were not mapped are left alone. -/
theorem Transition.Detached.absent (hd : Detached m.spaces s p entry info spaces)
    (he : Elsewhere m.spaces m'.spaces s p) (s' : SpaceId) (p' : Nat) (hp : IsAligned p')
    (hnone : mapped? m.spaces s' p' = none) :
    mapped? m'.spaces s' p' = none ∧ info? m'.spaces s' p' = info? m.spaces s' p' := by
  have hother : ¬ (s' = s ∧ p' = p) := by
    rintro ⟨rfl, rfl⟩
    rw [hd.mapped] at hnone
    cases hnone
  exact ⟨(he.mapped s' p' hp hother).trans hnone, he.info s' p' hother⟩

/-- The entry of a page that was saved says the truth once the page is out of memory. -/
theorem Spaces.fits_saved {spaces : Array AddressSpace} {copy : Option SwapCopy}
    (haligned : IsAligned p) (hframe : frame? spaces s p = none) (hnone : info.copy? = none)
    (hback : ∀ segment, info.segment? = some segment → segment.writeBack = true → copy = none) :
    Fits spaces s p (info.saved copy) := by
  refine ⟨haligned, PageInfo.evicting_saved info copy, ?_, fun hresident => ?_,
    fun segment hsegment hwriteBack => ?_⟩
  · rw [hframe, PageInfo.resident_saved, Option.isSome_none]
  · rw [PageInfo.resident_saved] at hresident
    cases hresident
  · rw [PageInfo.segment?_saved] at hsegment
    rw [PageInfo.copy?_saved hnone]
    exact hback segment hsegment hwriteBack

/-- The entry of a page that was put back says the truth again. -/
theorem Spaces.fits_restored {spaces : Array AddressSpace} (haligned : IsAligned p)
    (hframe : frame? spaces s p = some frame) (hresident : info.resident = true)
    (hcopy : info.copy? = none) : Fits spaces s p { info with evicting := false } :=
  ⟨haligned, rfl, by rw [hframe, Option.isSome_some]; exact hresident, fun _ => hcopy,
    fun _ _ _ => hcopy⟩

/-- A page that was detached and could not be saved is back where it was. -/
theorem Coherent.restored (h : Coherent away (front ++ ⟨frame, s, some p⟩ :: rear) [] [] m)
    (hd : Detached m.spaces s p entry info spaces) (hframe : entry.frame.toNat = frame)
    {cause : VmError}
    (hsaved : Saved writes m.spaces s p frame entry info (.error cause) { m with spaces } middle)
    (hr : Restored middle s p frame entry m') :
    Coherent away (front ++ rear ++ [⟨frame, s, some p⟩]) [] [] m' := by
  have hspaces : middle.spaces = spaces := hsaved.spaces_eq
  have he : Elsewhere m.spaces m'.spaces s p := hd.elsewhere.trans (hspaces ▸ hr.elsewhere)
  obtain ⟨entry', hentry', hframe', -⟩ := hr.mapped
  have hbefore : frame? m.spaces s p = some frame := by
    rw [frame?, hd.mapped, Option.map_some, hframe]
  have hafter : frame? m'.spaces s p = some frame := by
    rw [frame?, hentry', Option.map_some, hframe', hframe]
  have hinfo : info? m'.spaces s p = some { info with evicting := false } := by
    rw [hr.info_eq, hspaces, hd.info_eq, Option.map_some]
  have hperm : (front ++ ⟨frame, s, some p⟩ :: rear).Perm (front ++ rear ++ [⟨frame, s, some p⟩]) :=
    List.perm_middle.trans (List.perm_append_singleton _ _).symm
  have hpool := hr.unpinned
  rw [hsaved.frames_eq] at hpool
  obtain ⟨hcapacity, -, haccounts⟩ := h.pool.setPinned hpool
  refine ⟨?_, ?_, ?_, ?_, ?_, ?_⟩
  · refine haccounts.perm ?_ fun f => by simp
    exact (hperm.map _).append_right _
  · rw [hcapacity, hr.memory_eq, hsaved.frames_eq, h.capacity]
  · refine (h.tracked.congr fun r => ?_).keep he (hafter.trans hbefore.symm)
    exact hperm.mem_iff.symm
  · refine h.described.update he (h.described.ne_of_frame? hbefore) fun i hi => ?_
    obtain rfl := Option.some.inj (hinfo.symm.trans hi)
    exact fits_restored hd.aligned hafter hd.resident hd.copy_eq
  · rw [hr.swap_eq]
    refine (h.accounted.keep he ?_).of_isUsed hsaved.sound hsaved.slots
    rw [h.described.copy?_eq_none hbefore, copy?, hinfo, Option.bind_some]
    exact hd.copy_eq
  · exact h.live.update he (h.live.isLive_of_frame? hd.aligned hbefore)

/-- The entry of a page that was detached and saved. -/
theorem Transition.Released.info_eq {copy : Option SwapCopy}
    (hd : Detached m.spaces s p entry info spaces) (hspaces : middle.spaces = spaces)
    (hr : Released middle s p frame copy m') :
    info? m'.spaces s p = some (({ info with evicting := true } : PageInfo).saved copy) := by
  rw [hr.spaces_eq, hspaces, info?_amend, hd.info_eq]
  simp

/-- A page that was detached and saved is out of memory, and its frame is loose. -/
theorem Coherent.released (h : Coherent away (front ++ ⟨frame, s, some p⟩ :: rear) [] [] m)
    (hd : Detached m.spaces s p entry info spaces) (hframe : entry.frame.toNat = frame)
    {copy : Option SwapCopy}
    (hsaved : Saved writes m.spaces s p frame entry info (.ok copy) { m with spaces } middle)
    (hr : Released middle s p frame copy m') : Coherent away (front ++ rear) [frame] [] m' := by
  have he : Elsewhere m.spaces m'.spaces s p := by
    rw [hr.spaces_eq, hsaved.spaces_eq]
    exact hd.elsewhere.trans elsewhere_amend
  have hbefore : frame? m.spaces s p = some frame := by
    rw [frame?, hd.mapped, Option.map_some, hframe]
  have hafter : frame? m'.spaces s p = none := by
    rw [frame?, hr.spaces_eq, hsaved.spaces_eq, mapped?_amend, hd.unmapped, Option.map_none]
  have hinfo := hr.info_eq hd hsaved.spaces_eq
  have hcopy : copy? m'.spaces s p = copy := by
    rw [copy?, hinfo, Option.bind_some]
    exact PageInfo.copy?_saved hd.copy_eq copy
  have hnone := h.described.copy?_eq_none hbefore
  refine ⟨?_, ?_, ?_, ?_, ?_, ?_⟩
  · rw [hr.pool_eq, hsaved.frames_eq]
    refine h.pool.perm ?_ fun _ => Iff.rfl
    exact ((FrameTable.perm_frames front rear _).append_right _).trans (by simp)
  · rw [hr.pool_eq, hr.memory_eq, FrameMemory.size_setPage, hsaved.frames_eq, h.capacity]
  · exact h.tracked.remove h.nodup he hbefore hafter
  · refine h.described.update he (h.described.ne_of_frame? hbefore) fun i hi => ?_
    obtain rfl := Option.some.inj (hinfo.symm.trans hi)
    refine fits_saved hd.aligned hafter hd.copy_eq fun segment hsegment hback => ?_
    cases copy with
    | none => rfl
    | some copy => exact absurd rfl (hsaved.back segment hsegment hback copy)
  · have hslots := hsaved.slots
    rw [hr.swap_eq]
    cases copy with
    | none =>
      exact (h.accounted.keep he (hcopy.trans hnone.symm)).of_isUsed hsaved.sound hslots
    | some copy =>
      have hnot : copy.slot ∉ away.slots := h.accounted.not_mem hslots.1
      exact (h.accounted.claim hsaved.sound hslots.1 hslots.2).gain hnot he hnone hcopy
  · exact h.live.update he (h.live.isLive_of_frame? hd.aligned hbefore)

/-- Once the page on its way holds again what it held, what happened was paging: nothing else has
changed for any page. -/
theorem Transition.Saved.paging (h : Coherent away (front ++ ⟨frame, s, some p⟩ :: rear) [] [] m)
    (hd : Detached m.spaces s p entry info spaces) (hframe : entry.frame.toNat = frame)
    {outcome : Except VmError (Option SwapCopy)}
    (hsaved : Saved writes m.spaces s p frame entry info outcome { m with spaces } middle)
    (he : Elsewhere m.spaces m'.spaces s p) (hlimit : m'.stackLimit = middle.stackLimit)
    (hswap : m'.swap = middle.swap) (hfiles : m'.files = middle.files)
    (hmemory : ∀ f k, f ≠ frame →
      m'.frames.memory.byte? f k = middle.frames.memory.byte? f k)
    (hsegment : segment? m'.spaces s p = info.segment?) (hknown : m'.Known s p)
    (hholds : ∀ k b, k < pageSize → Shielded writes m.spaces s p k → m.Holds s p k b →
      m'.Holds s p k b) : Paging 1 m m' := by
  have hbefore : frame? m.spaces s p = some frame := by
    rw [frame?, hd.mapped, Option.map_some, hframe]
  refine ⟨⟨writes, hsaved.length_le, ?_⟩, hd.absent he⟩
  refine Advance.of_page hd.aligned (hlimit.trans hsaved.limit_eq) he ?_ ?_ ?_ ?_
    (hsegment.trans hd.segment_eq.symm) (fun _ => hknown) ?_ hholds
  · rw [hfiles]
    exact hsaved.written
  · intro s' p' f k hp hother hf
    have hne : f ≠ frame := by
      rintro rfl
      exact hother (h.frame_inj hd.aligned hp hbefore hf)
    rw [hmemory f k hne, hsaved.frames_eq]
  · intro s' p' copy k _ hcopy hk
    have hused := h.accounted.isUsed hcopy
    rw [hswap]
    exact hsaved.disk copy.slot k hused hk
  · rw [hfiles]
    exact hsaved.window
  · intro _ hunknown
    exact absurd (.inl (by rw [hd.mapped, Option.isSome_some])) hunknown

/-- If the contents could not be saved and the page was put back, then it holds what it held. -/
theorem Transition.Saved.paging_restored
    (h : Coherent away (front ++ ⟨frame, s, some p⟩ :: rear) [] [] m)
    (hd : Detached m.spaces s p entry info spaces) (hframe : entry.frame.toNat = frame)
    {cause : VmError}
    (hsaved : Saved writes m.spaces s p frame entry info (.error cause) { m with spaces } middle)
    (hr : Restored middle s p frame entry m') : Paging 1 m m' := by
  have hspaces : middle.spaces = spaces := hsaved.spaces_eq
  obtain ⟨entry', hentry', hframe', hdirty'⟩ := hr.mapped
  have hinfo : info? m'.spaces s p = some { info with evicting := false } := by
    rw [hr.info_eq, hspaces, hd.info_eq, Option.map_some]
  have hsegment : segment? m'.spaces s p = info.segment? := by
    rw [segment?, hinfo, Option.bind_some]
    rfl
  refine hsaved.paging h hd hframe (hd.elsewhere.trans (hspaces ▸ hr.elsewhere)) hr.limit_eq
    hr.swap_eq hr.files_eq (fun f k _ => by rw [hr.memory_eq]) hsegment ?_ ?_
  · exact .inl (by rw [hentry', Option.isSome_some])
  · intro k b _ _ hb
    rw [holds_of_mapped hd.mapped] at hb
    rw [holds_of_mapped hentry', hframe', hdirty', hr.memory_eq, hsaved.frames_eq, hsegment]
    refine ⟨hb.1, fun hclean segment hfile => ?_⟩
    -- what could not be saved was changed, or has no file
    rcases hsaved.failed cause rfl with hdirty | hnone
    · rw [hclean] at hdirty
      cases hdirty
    · rw [hnone] at hfile
      cases hfile

/-- If the contents were saved and the page was released, then it holds in its slot or in its file what it
held in its frame. -/
theorem Transition.Saved.paging_released
    (h : Coherent away (front ++ ⟨frame, s, some p⟩ :: rear) [] [] m)
    (hd : Detached m.spaces s p entry info spaces) (hframe : entry.frame.toNat = frame)
    {copy : Option SwapCopy}
    (hsaved : Saved writes m.spaces s p frame entry info (.ok copy) { m with spaces } middle)
    (hr : Released middle s p frame copy m') : Paging 1 m m' := by
  have hunmapped : mapped? m'.spaces s p = none := by
    rw [hr.spaces_eq, hsaved.spaces_eq, mapped?_amend, hd.unmapped]
  have hinfo := hr.info_eq hd hsaved.spaces_eq
  have hsegment : segment? m'.spaces s p = info.segment? := by
    rw [segment?, hinfo, Option.bind_some, PageInfo.segment?_saved]
    rfl
  have hcopy : copy? m'.spaces s p = copy := by
    rw [copy?, hinfo, Option.bind_some]
    exact PageInfo.copy?_saved hd.copy_eq copy
  refine hsaved.paging h hd hframe ?_ hr.limit_eq hr.swap_eq hr.files_eq ?_ hsegment ?_ ?_
  · rw [hr.spaces_eq, hsaved.spaces_eq]
    exact hd.elsewhere.trans elsewhere_amend
  · intro f k hf
    rw [hr.memory_eq, FrameMemory.byte?_setPage hr.lt_size, if_neg (Ne.symm hf)]
  · exact .inr (by rw [hinfo, Option.isSome_some])
  · intro k b hk hshield hb
    rw [holds_of_mapped hd.mapped, hframe, hd.segment_eq] at hb
    have hkept := hsaved.kept copy rfl k b hk hshield hb.1 hb.2
    cases copy with
    | some copy =>
      rw [holds_of_copy hunmapped hcopy, hr.swap_eq]
      exact hkept
    | none =>
      rw [holds_of_file hunmapped hcopy, hsegment, hr.files_eq]
      exact hkept

end

namespace Transition

open Spaces Machine

variable {machine : Machine} {away : Away}

/-- A victim is moved out of its frame, or left where it is. -/
theorem ensures_migrate {before : Machine} {victim : FrameRecord}
    (h : Chosen away before victim machine) :
    Ensures (Kernel.migrate victim) machine fun outcome after => Paging 1 machine after ∧
      match outcome with
      | .ok () => Coherent away after.frames.records [victim.frame] [] after ∧
        ∀ k, k < pageSize → after.frames.memory.byte? victim.frame k = some 0
      | .error _ => after.SettledBut away := by
  obtain ⟨frame, s, p, entry, rfl, hp, hentry, hnumber⟩ := h.page
  obtain ⟨⟨front, rear, hsplit, hrecords⟩, -, hcoherent, -⟩ := h
  rw [hsplit] at hcoherent
  have hlive := hcoherent.live
  simp only [Kernel.migrate, holding_eq, lift_eq, ensures_bind]
  refine (ensures_detach hcoherent.described hlive hp hentry).mono ?_
  rintro transit _ ⟨info, spaces, rfl, rfl, hd⟩
  have hwriteOut := @ensures_writeOut { machine with spaces } s p frame machine.spaces entry info
    (some entry) hcoherent.accounted.sound hd.segment_eq
  refine hwriteOut.mono ?_
  rintro outcome middle ⟨writes, hsaved⟩
  have hspaces : middle.spaces = spaces := hsaved.spaces_eq
  cases outcome with
  | error cause =>
    simp only [ensures_bind, ensures_pure]
    refine (ensures_restore hp hnumber ?_ ?_).mono fun _ after hr => ⟨?_, ?_⟩
    · intro standing hstanding
      rw [hspaces] at hstanding
      exact hlive.refusals s standing (hd.elsewhere.standing s ▸ hstanding)
    · rw [hspaces]
      exact hd.unmapped
    · exact hsaved.paging_restored hcoherent hd hnumber hr
    · change Coherent away after.frames.records [] [] after
      rw [hr.records_eq, hsaved.frames_eq, hrecords]
      exact hcoherent.restored hd hnumber hsaved hr
  | ok copy =>
    simp only [ensures_bind, ensures_pure]
    refine (ensures_finish copy (Plan.ofEntry_ne_discard entry info) (hspaces ▸ hd.info_eq)).mono
      fun _ after hr => ⟨hsaved.paging_released hcoherent hd hnumber hr, ?_, ?_⟩
    · rw [hr.records_eq, hsaved.frames_eq, hrecords]
      exact hcoherent.released hd hnumber hsaved hr
    · intro k hk
      rw [hr.memory_eq, FrameMemory.byte?_setPage hr.lt_size, if_pos rfl, Page.getElem?_blank,
        if_pos hk]

/-- A frame for a new use, out of the pool and in no other use; or there is none. -/
theorem ensures_evict (h : machine.SettledBut away) :
    Ensures Kernel.evict machine fun outcome after => Paging 1 machine after ∧
      match outcome with
      | .ok (frame, clean) => Coherent away after.frames.records [frame] [] after ∧
        (clean = true → ∀ k, k < pageSize → after.frames.memory.byte? frame k = some 0)
      | .error _ => after.SettledBut away := by
  simp only [Kernel.evict, holding_eq, ensures_bind]
  refine (ensures_findSource h).mono fun outcome middle hmiddle => ?_
  cases outcome with
  | error cause =>
    rw [ensures_pure]
    exact ⟨hmiddle.2.mono (Nat.zero_le _), hmiddle.1⟩
  | ok source =>
    cases source with
    | pool frame =>
      rw [ensures_pure]
      refine ⟨hmiddle.2.mono (Nat.zero_le _), hmiddle.1, fun hclean => ?_⟩
      cases hclean
    | page victim =>
      obtain ⟨looked, hpaging, -, hchosen⟩ := hmiddle
      simp only [ensures_bind]
      refine (ensures_migrate hchosen).mono fun outcome after hafter => ?_
      have htotal := (hpaging.trans hchosen.paging).trans hafter.1
      cases outcome with
      | error cause =>
        rw [ensures_pure]
        exact ⟨htotal, hafter.2⟩
      | ok u =>
        rw [ensures_pure]
        exact ⟨htotal, hafter.2.1, fun _ => hafter.2.2⟩

end Transition

end DemandPaging
