import DemandPaging.Proofs.Residency
import DemandPaging.Proofs.SwapSlots
import DemandPaging.Proofs.TurnedSwitches

/-!
# Teardowns are complete

To tear an address space down always comes to an end, even if files refuse pages on the way.
`Strips others s gone n before after` is what one part of it does: the pages `gone` of the space are
forgotten with at most `n` writes, and a changed page of a mapped file has its bytes in the file, if
the file took them. The relation composes, over the pages of a mapping and over the mappings of the
space.

What is left then is dropped at once, and nothing is left of the space (`Woven.finishes_destroy`).
-/

set_option autoImplicit false

namespace DemandPaging

open Spaces Machine

/-- A space with a standing exists. -/
theorem Spaces.lt_size_of_standing? {spaces : Array AddressSpace} {s : SpaceId} {standing : Standing}
    (h : standing? spaces s = some standing) : s < spaces.size := by
  obtain ⟨space, hspace, -⟩ := Option.map_eq_some_iff.mp h
  exact (Array.getElem?_eq_some_iff.mp hspace).1

/-! ### Steps that answer -/

/-- A frame that is out can be pinned. -/
theorem FramePool.Accounts.exists_setPinned {pool : FramePool} {out pinned : List Nat} {frame : Nat}
    (h : pool.Accounts out pinned) (hout : frame ∈ out) (on : Bool) :
    ∃ pool', pool.setPinned frame on = .ok pool' := by
  have hallocated := (h.isAllocated_iff frame).mpr hout
  rw [FramePool.isAllocated] at hallocated
  obtain ⟨entry, hentry, hallocated⟩ := (Option.any_eq_true ..).mp hallocated
  refine ⟨pool.setEntry frame { entry with pinned := on }, ?_⟩
  rw [FramePool.setPinned, FramePool.entry, hentry]
  simp [hallocated]

namespace Transition

variable {machine : Machine} {away : Away} {s : SpaceId} {p frame : Nat}

/-- A frame that backs a mapped page can be pinned. -/
theorem finishes_pinIfBacking (h : machine.SettledBut away) (hp : IsAligned p)
    (hframe : frame? machine.spaces s p = some frame) :
    Finishes (pinIfBacking frame s p) machine fun backs after => backs = true ∧
      ∃ pool, after = { machine with frames := { machine.frames with pool } } ∧
        Coherent away machine.frames.records [] [frame] after := by
  refine Ensures.finishes (ensures_pinIfBacking h hp hframe) ?_
  have hmem := List.mem_map_of_mem (f := (·.frame)) (h.tracked.mem_of_frame? hp hframe)
  obtain ⟨pool, hpool⟩ := h.pool.exists_setPinned (List.mem_append_left _ hmem) true
  simp only [pinIfBacking, finishes_bind, finishes_frames, finishes_ofExcept, finishes_setFrames,
    finishes_pure, and_true, FrameTable.pinIfBacking]
  split
  · change machine.frames.pool.setPinned frame true = .ok pool at hpool
    rw [hpool]
    exact ⟨_, rfl⟩
  · exact ⟨_, rfl⟩

/-- A reserved frame can be given back. -/
theorem finishes_free (h : Reserved away s p frame machine) :
    Finishes (free frame) machine fun _ after =>
      (∃ frames, after = { machine with frames } ∧ frames.memory = machine.frames.memory) ∧
        after.SettledBut away := by
  refine Ensures.finishes (ensures_free h) ?_
  obtain ⟨front, rear, -, hcoherent⟩ := h
  have hpool : machine.frames.pool.Accounts
      (frame :: ((front ++ rear).map (·.frame) ++ away.frames)) [frame] :=
    hcoherent.pool.perm List.perm_middle fun _ => Iff.rfl
  obtain ⟨pool, hdealloc, -⟩ := hpool.dealloc
  simp only [free, finishes_bind, finishes_frames]
  cases hposition : machine.frames.position? frame with
  | none => exact finishes_notify.mpr trivial
  | some index =>
    simp only [finishes_bind, finishes_ofExcept, finishes_setFrames, FrameTable.free, hposition,
      hdealloc, and_true]
    exact ⟨_, rfl⟩

/-- A page without a swap slot is forgotten. -/
theorem finishes_forget {post : Option PageTableEntry → Machine → Prop}
    (hs : s < machine.spaces.size) (hpost : post (mapped? machine.spaces s p)
      { machine with spaces := unmap (drop machine.spaces s p) s p }) :
    Finishes (forget s p none) machine post := by
  have hspace := Array.getElem?_eq_getElem hs
  simp only [forget, finishes_bind]
  refine finishes_supplement hspace (finishes_setSupplement.mpr ?_)
  rw [modify_supplement hspace fun table => table.erase p]
  refine (finishes_clear (by simpa using hs)).mono ?_
  rintro entry after ⟨hentry, rfl⟩
  obtain rfl : entry = mapped? machine.spaces s p := hentry.trans mapped?_drop
  exact finishes_pure.mpr hpost

/-- A live mapping is taken off the list. -/
theorem finishes_takeMapping {id : Nat} {mapping : Mapping}
    {post : Option Mapping → Machine → Prop} (hmapping : mapping? machine.spaces s id = some mapping)
    (hpost : post (some mapping) { machine with spaces := unlisted machine.spaces s id }) :
    Finishes (takeMapping s id) machine post := by
  obtain ⟨standing, hstanding, hlisted⟩ := Option.bind_eq_some_iff.mp hmapping
  obtain ⟨space, hspace, rfl⟩ := Option.map_eq_some_iff.mp hstanding
  have hends : Finishes (takeMapping s id) machine fun _ _ => True := by
    rw [takeMapping, finishes_bind]
    refine finishes_supplement hspace ?_
    cases space.supplement.takeMapping id with
    | none => exact finishes_pure.mpr trivial
    | some result =>
      rw [finishes_bind]
      exact finishes_setSupplement.mpr (finishes_pure.mpr trivial)
  refine (Ensures.finishes ensures_takeMapping hends).mono ?_
  rintro taken after ⟨htaken, -, hsome⟩
  rw [hmapping] at htaken
  subst htaken
  rw [hsome rfl]
  exact hpost

/-- The slots that some entries name can be given back. -/
theorem finishes_releaseCopies (infos : List PageInfo) : ∀ {machine : Machine},
    machine.swap.slots.Sound → (slotsOf infos).Nodup →
    (∀ slot ∈ slotsOf infos, machine.swap.slots.isUsed slot = true) →
    Finishes (releaseCopies infos) machine fun _ _ => True := by
  induction infos with
  | nil => exact fun _ _ _ => finishes_pure.mpr trivial
  | cons info infos ih =>
    intro machine hsound hnodup hused
    rw [releaseCopies]
    cases hcopy : info.copy? with
    | none =>
      have hslots : slotsOf (info :: infos) = slotsOf infos := by simp [slotsOf, hcopy]
      rw [hslots] at hnodup hused
      exact ih hsound hnodup hused
    | some copy =>
      have hslots : slotsOf (info :: infos) = copy.slot :: slotsOf infos := by
        simp [slotsOf, hcopy]
      rw [hslots] at hnodup hused
      obtain ⟨hnot, hnodup'⟩ := List.nodup_cons.mp hnodup
      obtain ⟨slots, hfree, hsound', hcount, hothers⟩ :=
        hsound.free (hused _ List.mem_cons_self)
      simp only [releaseSlot, finishes_bind, finishes_swap, finishes_ofExcept, finishes_setSwap,
        SwapStore.release, hfree, Except.ok.injEq, exists_eq_left']
      refine ih hsound' hnodup' fun slot hslot => ?_
      have hne : slot ≠ copy.slot := fun heq => hnot (heq ▸ hslot)
      change slots.isUsed slot = true
      rw [SlotBitmap.isUsed_of_release hcount hothers, hused slot (List.mem_cons_of_mem _ hslot)]
      simp [hne]

/-- All entries of a space can be dropped. -/
theorem finishes_dropEntries {claimed : List Nat} (hs : s < machine.spaces.size)
    (h : Accounted claimed machine.spaces machine.swap.slots) :
    Finishes (dropEntries s) machine fun _ after => ∃ slots, after = { machine with
        spaces := emptied machine.spaces s, swap := { machine.swap with slots } } ∧
      Accounted claimed (emptied machine.spaces s) slots := by
  refine Ensures.finishes (ensures_dropEntries h) ?_
  have hspace := Array.getElem?_eq_getElem hs
  rw [dropEntries, finishes_bind]
  refine finishes_supplement hspace ?_
  rw [finishes_bind, finishes_setSupplement]
  refine finishes_releaseCopies _ h.sound (nodup_slotsOf h hspace) fun slot hslot => ?_
  obtain ⟨p, copy, hcopy, rfl⟩ := (mem_slotsOf hspace).mp hslot
  exact h.isUsed hcopy

/-- Pages of spaces that exist can be unmapped. -/
theorem finishes_clearPages (records : List FrameRecord) : ∀ {machine : Machine},
    (∀ r ∈ records, r.owner < machine.spaces.size) →
    Finishes (clearPages records) machine fun _ after => after.spaces.size = machine.spaces.size := by
  induction records with
  | nil => exact fun _ => finishes_pure.mpr rfl
  | cons record records ih =>
    intro machine howners
    have hrest : ∀ r ∈ records, r.owner < machine.spaces.size := fun r hr =>
      howners r (List.mem_cons_of_mem _ hr)
    rw [clearPages]
    cases record.page with
    | none => exact ih hrest
    | some page =>
      simp only [finishes_bind]
      refine (finishes_clear (howners record List.mem_cons_self)).mono ?_
      rintro _ _ ⟨-, rfl⟩
      have hsize : (unmap machine.spaces record.owner page).size = machine.spaces.size :=
        size_onDirectory
      refine (ih (fun r hr => hsize.symm ▸ hrest r hr)).mono fun _ after hafter => ?_
      exact hafter.trans hsize

/-- The frames of a space can be given back, and its pages are unmapped. -/
theorem finishes_freeOwnedBy {out : List Nat} (hs : s < machine.spaces.size)
    (haccounts : machine.frames.pool.Accounts (machine.frames.records.map (·.frame) ++ out) [])
    (htracked : Tracked machine.spaces machine.frames.records) :
    Finishes (freeOwnedBy s) machine fun _ after => ∃ frames spaces notices,
      after = { machine with frames, spaces, notices } ∧ s < spaces.size ∧
        frames.memory = machine.frames.memory ∧
        frames.pool.capacity = machine.frames.pool.capacity ∧
        frames.pool.Accounts (frames.records.map (·.frame) ++ out) [] ∧
        Tracked spaces frames.records ∧
        (∀ s p, info? spaces s p = info? machine.spaces s p) ∧
        (∀ s, standing? spaces s = standing? machine.spaces s) ∧
        ∀ s' p, IsAligned p →
          mapped? spaces s' p = if s' = s then none else mapped? machine.spaces s' p := by
  obtain ⟨table, htable, -⟩ := FrameTable.freeOwnedBy_eq_ok haccounts s
  have hends : Finishes (freeOwnedBy s) machine fun _ after => s < after.spaces.size := by
    simp only [freeOwnedBy, finishes_bind, finishes_frames, htable, finishes_ofExcept,
      Except.ok.injEq, exists_eq_left', finishes_setFrames]
    refine (finishes_clearPages _ fun r hr => ?_).mono fun _ after hsize => ?_
    · obtain rfl := of_decide_eq_true (List.mem_filter.mp hr).2
      exact hs
    · rw [finishes_pure, hsize]
      exact hs
  obtain ⟨gone, after, hrun, hsize⟩ := hends
  -- what is said afterwards changes nothing of this
  have hsaid : (Kernel.dropFrames s : Transition Unit) machine = .ok () { after with
      notices := after.notices.push (.released after.spaces[s].pid gone.length) } := by
    rw [Kernel.dropFrames, Kernel.freeOwnedBy, holding_eq, lift_eq, run_bind hrun, lift_eq,
      run_bind (run_space (Array.getElem?_eq_getElem hsize))]
    rfl
  obtain ⟨_, _, _, heq, hrest⟩ := (ensures_dropFrames (s := s) haccounts htracked).of_ok hsaid
  cases after
  cases heq
  exact ⟨gone, _, hrun, _, _, _, rfl, hsize, hrest⟩

end Transition

/-! ### Pages that are taken away -/

/-- The file takes the page whenever it may be written: from when the page is not mapped any more
until its frame is given back. -/
def Accepts (others : Machine → Machine → Prop) (start : Machine) (s : SpaceId) (p frame : Nat)
    (segment : Segment) : Prop :=
  ∀ met file, Comes others start met → mapped? met.spaces s p = none →
    met.frames.pool.isAllocated frame = true → met.files[segment.file]? = some file →
      file.Takes segment.offset segment.readBytes

/-- The pages `gone` of a space were forgotten, with at most `n` writes; those of them that were
changed are in their files, each byte as far as the file took it and no other page has it. -/
structure Strips (others : Machine → Machine → Prop) (s : SpaceId) (gone : Nat → Prop) (n : Nat)
    (before after : Machine) : Prop where
  comes : Comes others before after
  forgets : ∃ writes, writes.length ≤ n ∧
    Forgets (fun s' p => s' = s ∧ gone p) writes before after
  saved : ∀ p segment entry k, gone p → IsAligned p → segment? before.spaces s p = some segment →
    mapped? before.spaces s p = some entry → entry.dirty = true → k < segment.readBytes →
    Accepts others before s p entry.frame.toNat segment →
    (∀ q other, segment? before.spaces s q = some other → other.writeBack = true →
      other.Covers segment k → q = p) →
    before.frames.memory.byte? entry.frame.toNat k = some (Files.windowByte after.files segment k)

section

variable {others : Machine → Machine → Prop} {s : SpaceId} {gone gone' : Nat → Prop} {n n' : Nat}
  {m m' m'' : Machine}

/-- Bytes that are forgotten stay as they are if only switches of files are turned. -/
theorem Forgets.turned {gone : SpaceId → Nat → Prop} {writes : List FileId}
    (h : Forgets gone writes m m') (ht : Turned m' m'') : Forgets gone writes m m'' := by
  obtain ⟨files, rfl, hwritten⟩ := ht
  have hfiles := h.files.trans (hwritten.of_nil m.spaces) fun _ _ _ hs => hs
  rw [List.append_nil] at hfiles
  refine ⟨h.stackLimit_eq, h.memory, h.disk, h.mapped, h.info, h.unmapped, h.dropped, hfiles, ?_⟩
  intro other k hk hout
  rw [hwritten.windowByte List.not_mem_nil]
  exact h.window other k hk hout

/-- If only switches of files are turned, what was shed before is all. -/
theorem Sheds.turned (h : Sheds s n m m') (ht : Turned m' m'') : Sheds s n m m'' := by
  obtain ⟨gone, writes, hgone, hlength, hforgets⟩ := h.forgets
  have hturned := hforgets.turned ht
  obtain ⟨files, rfl, -⟩ := ht
  exact ⟨h.others, h.next?, gone, writes, hgone, hlength, hturned⟩

/-- To turn switches of files, and to say something, keeps a machine in order. -/
theorem Machine.Orderly.turned (h : m.Orderly) (ht : Turned m m') (notices : Array Notice) :
    Orderly { m' with notices } := by
  have hsettled := ht.settledBut h.settled
  have hsize := ht.size_files
  obtain ⟨files, rfl, -⟩ := ht
  exact ⟨hsettled.congr rfl rfl rfl rfl, h.mapped, fun s p segment hsegment =>
    hsize.symm ▸ h.backed s p segment hsegment⟩

/-- Nothing happens, and no page is forgotten. -/
theorem strips_refl (others : Machine → Machine → Prop) (s : SpaceId) (m : Machine) :
    Strips others s (fun _ => False) 0 m m where
  comes := .refl
  forgets := ⟨[], Nat.le_refl _, (Forgets.refl m).congr fun _ _ => by rw [and_false]⟩
  saved _ _ _ _ hgone := hgone.elim

/-- Taking a mapping off the list takes no page away. -/
theorem strips_unlisted (id : Nat) {files : Array MemoryFile} (hidle : Idles others m { m with files }) :
    Strips others s (fun _ => False) 0 m
      { m with spaces := Transition.unlisted m.spaces s id, files } where
  comes := hidle.comes.keep (sameSwitches_of_files rfl)
  forgets := by
    obtain ⟨_, heq, hfiles⟩ := hidle.turned
    cases heq
    have hlisted : Forgets (fun _ _ => False) [] m
        { m with spaces := Transition.unlisted m.spaces s id } :=
      .of_eq rfl rfl rfl rfl (fun _ _ => Transition.mapped?_unlisted)
        fun _ _ => Transition.info?_unlisted
    refine ⟨[], Nat.le_refl _, (hlisted.turned ⟨files, rfl, hfiles.of_nil _⟩).congr fun _ _ => ?_⟩
    rw [and_false]
  saved _ _ _ _ hgone := hgone.elim

/-- Others who only turn switches of files come in afterwards. -/
theorem Strips.idles (h : Strips others s gone n m m') (hidle : Idles others m' m'') :
    Strips others s gone n m m'' where
  comes := h.comes.trans hidle.comes
  forgets := by
    obtain ⟨writes, hlength, hforgets⟩ := h.forgets
    exact ⟨writes, hlength, hforgets.turned hidle.turned⟩
  saved p segment entry k hgone hp hsegment hentry hdirty hk haccepts hsole := by
    obtain ⟨files, rfl, hwritten⟩ := hidle.turned
    rw [hwritten.windowByte List.not_mem_nil]
    exact h.saved p segment entry k hgone hp hsegment hentry hdirty hk haccepts hsole

/-- What was said does not matter. -/
theorem Strips.notices (h : Strips others s gone n m m') (notices : Array Notice) :
    Strips others s gone n m { m' with notices } where
  comes := h.comes.keep (sameSwitches_of_files rfl)
  forgets := by
    obtain ⟨writes, hlength, hforgets⟩ := h.forgets
    exact ⟨writes, hlength, hforgets.notices notices⟩
  saved := h.saved

/-- Pages are forgotten in two goes, and the writes add up. Those that went first were saved first, and the
later writes do not touch their bytes. -/
theorem Strips.trans (h : Strips others s gone n m m') (h' : Strips others s gone' n' m' m'') :
    Strips others s (fun p => gone p ∨ gone' p) (n + n') m m'' := by
  obtain ⟨writes, hlength, hforgets⟩ := h.forgets
  obtain ⟨writes', hlength', hforgets'⟩ := h'.forgets
  refine ⟨h.comes.trans h'.comes, ⟨writes ++ writes', ?_, ?_⟩, ?_⟩
  · rw [List.length_append]
    exact Nat.add_le_add hlength hlength'
  · exact (hforgets.trans hforgets').congr fun _ _ => and_or_left
  · intro p segment entry k hor hp hsegment hentry hdirty hk haccepts hsole
    by_cases hgone : gone p
    · -- what was written before is not written again, since no other page has the byte
      rw [hforgets'.window segment k hk]
      · exact h.saved p segment entry k hgone hp hsegment hentry hdirty hk haccepts hsole
      · rintro _ q other ⟨rfl, -⟩ hother hback hcovers
        obtain ⟨hnot, hother'⟩ := hforgets.segment hother
        obtain rfl := hsole q other hother' hback hcovers
        exact hnot ⟨rfl, hgone⟩
    · have hnot : ¬ (s = s ∧ gone p) := fun hg => hgone hg.2
      rw [← hforgets.memory]
      refine h'.saved p segment entry k (hor.resolve_left hgone) hp ?_ ?_ hdirty hk ?_ ?_
      · rw [hforgets.segment_eq hnot, hsegment]
      · rw [hforgets.mapped s p hp hnot, hentry]
      · exact fun met file hcomes => haccepts met file (h.comes.trans hcomes)
      · intro q other hother hback hcovers
        exact hsole q other (hforgets.segment hother).2 hback hcovers

/-- The same pages, said in another way. -/
theorem Strips.congr (h : Strips others s gone n m m') (hgone : ∀ p, gone' p ↔ gone p) :
    Strips others s gone' n m m' := by
  obtain rfl : gone' = gone := funext fun p => propext (hgone p)
  exact h

end

namespace Woven

variable {others : Machine → Machine → Prop} {machine : Machine} {s : SpaceId} {p frame : Nat}
  {segment : Segment}

/-- A page of a mapped file is written back if it was changed. -/
theorem finishes_save (hturn : ∀ a b, others a b → Turned a b) {spaces : Array AddressSpace}
    (hsegment : segment? spaces s p = some segment) (hback : segment.writeBack = true)
    (hfits : segment.readBytes ≤ pageSize) (hfile : segment.file < machine.files.size)
    (hframe : frame < machine.frames.memory.size) (entry : PageTableEntry) :
    Finishes (if entry.dirty then Kernel.writeBack frame segment else pure (.ok ()) :
      Woven others (Except FileError Unit)) machine fun _ after =>
        ∃ files writes, after = { machine with files } ∧ Comes others machine after ∧
          writes.length ≤ 1 ∧ Files.Written writes spaces machine.files files ∧
          Files.AgreeOutside segment machine.files files ∧
          (entry.dirty = true → (∀ met file, Idles others machine met →
              met.files[segment.file]? = some file → file.Takes segment.offset segment.readBytes) →
            ∀ k, k < segment.readBytes →
              machine.frames.memory.byte? frame k = some (Files.windowByte files segment k)) := by
  split
  · refine (finishes_writeBack hturn hsegment hback hfits hfile hframe).mono ?_
    rintro _ after ⟨files, writes, hafter, hcomes, hlength, hwritten, hout, htaken⟩
    exact ⟨files, writes, hafter, hcomes, hlength, hwritten, hout, fun _ => htaken⟩
  · rename_i hclean
    rw [finishes_pure]
    exact ⟨machine.files, [], rfl, .refl, Nat.zero_le _, .refl _ _, fun _ _ _ _ => rfl,
      fun hdirty => absurd hdirty hclean⟩

/-- What was saved or not, the frame goes back to the pool. -/
theorem saveAndFree_eq {info : PageInfo} (hinfo : info.segment? = some segment) (frame : Nat)
    (entry : PageTableEntry) :
    (Kernel.saveAndFree frame info (some entry) : Woven others (Except VmError Unit)) =
      (if entry.dirty then Kernel.writeBack frame segment else pure (.ok ())) >>= fun saved =>
        Kernel.free frame >>= fun _ => pure (saved.mapError .file) := by
  simp only [Kernel.saveAndFree, hinfo]
  split <;> rfl

/-- A page that was forgotten is written back if it was changed, and its frame goes back to the pool. -/
theorem finishes_saveAndFree (hturn : ∀ a b, others a b → Turned a b) {start : Machine}
    (hcomes : Comes others start machine) (h : Reserved {} s p frame machine)
    (hunmapped : mapped? machine.spaces s p = none) {spaces : Array AddressSpace}
    (hsegment : segment? spaces s p = some segment) (hback : segment.writeBack = true)
    (hfits : segment.readBytes ≤ pageSize) (hfile : segment.file < machine.files.size)
    {info : PageInfo} (hinfo : info.segment? = some segment) (entry : PageTableEntry) :
    Finishes (Kernel.saveAndFree frame info (some entry) : Woven others _) machine fun _ after =>
      (∃ frames files writes, after = { machine with frames, files } ∧ Comes others start after ∧
        frames.memory = machine.frames.memory ∧ writes.length ≤ 1 ∧
        Files.Written writes spaces machine.files files ∧
        Files.AgreeOutside segment machine.files files ∧
        (entry.dirty = true → Accepts others start s p frame segment → ∀ k, k < segment.readBytes →
          machine.frames.memory.byte? frame k = some (Files.windowByte files segment k))) ∧
      after.Settled := by
  obtain ⟨front, rear, -, hcoherent⟩ := id h
  have hout : frame ∈ (front ++ rear).map (·.frame) ++ ([frame] ++ []) := by simp
  have hsize : frame < machine.frames.memory.size :=
    hcoherent.capacity ▸ hcoherent.pool.lt_capacity hout
  rw [saveAndFree_eq hinfo, finishes_bind]
  refine (finishes_save hturn hsegment hback hfits hfile hsize entry).mono ?_
  rintro saved _ ⟨files, writes, rfl, hsave, hlength, hwritten, hagree, hsaved⟩
  simp only [Kernel.free, holding_eq, lift_eq, finishes_bind, finishes_atomically, finishes_pure]
  intro met hmet
  obtain ⟨files', rfl, hturned⟩ := hturn _ _ hmet
  have hreserved : Reserved {} s p frame { machine with files := files' } :=
    h.congr rfl rfl rfl rfl rfl
  refine (Transition.finishes_free hreserved).mono ?_
  rintro _ _ ⟨⟨frames, rfl, hmemory⟩, hsettled⟩
  have hwritten' := hwritten.trans (hturned.of_nil spaces) fun _ _ _ hs => hs
  rw [List.append_nil] at hwritten'
  refine ⟨⟨frames, files', writes, rfl, ?_, hmemory, hlength, hwritten', ?_, ?_⟩, hsettled⟩
  · exact (Comes.met (Comes.trans hcomes hsave) hmet).keep (sameSwitches_of_files rfl)
  · intro other k hk hother
    rw [hturned.windowByte List.not_mem_nil]
    exact hagree other k hk hother
  · intro hdirty haccepts k hk
    rw [hturned.windowByte List.not_mem_nil]
    refine hsaved hdirty (fun met file hidle hfile => ?_) k hk
    refine haccepts met file (hcomes.trans hidle.comes) ?_ ?_ hfile
    · obtain ⟨_, rfl, -⟩ := hidle.turned
      exact hunmapped
    · obtain ⟨_, rfl, -⟩ := hidle.turned
      exact (hcoherent.pool.isAllocated_iff frame).mpr hout

/-- To forget a page of a mapped file is to take it away, if its bytes are in the file in case that it
was changed. -/
theorem strips_forgotten (h : machine.Settled) (hsegment : segment? machine.spaces s p = some segment)
    (hback : segment.writeBack = true) {writes : List FileId} {after : Machine}
    (hcomes : Comes others machine after) (hlength : writes.length ≤ 1)
    (hlimit : after.stackLimit = machine.stackLimit)
    (hmemory : after.frames.memory = machine.frames.memory)
    (hdisk : after.swap.device.disk = machine.swap.device.disk)
    (hspaces : after.spaces = unmap (drop machine.spaces s p) s p)
    (hwritten : Files.Written writes machine.spaces machine.files after.files)
    (hout : Files.AgreeOutside segment machine.files after.files)
    (hsaved : ∀ entry k, mapped? machine.spaces s p = some entry → entry.dirty = true →
      k < segment.readBytes → Accepts others machine s p entry.frame.toNat segment →
      machine.frames.memory.byte? entry.frame.toNat k =
        some (Files.windowByte after.files segment k)) :
    Strips others s (· = p) 1 machine after := by
  have hp := h.described.isAligned hsegment
  refine ⟨hcomes, ⟨writes, hlength, ?_⟩, ?_⟩
  · refine .of_forget hp hlimit hmemory hdisk hspaces hwritten fun other k hk hother => ?_
    exact hout other k hk (hother segment hsegment hback)
  · rintro q other entry k rfl - hother hentry hdirty hk haccepts -
    rw [hsegment, Option.some.injEq] at hother
    subst hother
    exact hsaved entry k hentry hdirty hk haccepts

/-- A page whose entry is not marked is unmapped in one round. If it is not mapped, then it is forgotten. If
it is, then its frame is pinned before that, and it is saved and given back afterwards. -/
theorem finishes_unmapPage_once (hturn : ∀ a b, others a b → Turned a b) {info : PageInfo}
    (hinfo : info? machine.spaces s p = some info) (hevicting : info.evicting = false)
    {post : Except VmError Unit → Machine → Prop}
    (hnone : mapped? machine.spaces s p = none → ∀ met, Idles others machine met →
      Transition.Finishes (Transition.forget s p info.copy?) met fun _ after => post (.ok ()) after)
    (hsome : ∀ entry, mapped? machine.spaces s p = some entry → info.resident = true ∧
      ∀ met, Idles others machine met →
        Transition.Finishes (Transition.pinIfBacking entry.frame.toNat s p) met fun backs pinned =>
          backs = true ∧ ∀ before, others pinned before →
            Transition.Finishes (Transition.forget s p info.copy?) before fun last after =>
              Finishes (Kernel.saveAndFree entry.frame.toNat info last : Woven others _) after post) :
    Finishes (Kernel.unmapPage s p : Woven others _) machine post := by
  obtain ⟨space, hspace, -⟩ := Option.bind_eq_some_iff.mp hinfo
  have hs : s < machine.spaces.size := (Array.getElem?_eq_some_iff.mp hspace).1
  obtain ⟨rounds, hrounds⟩ : ∃ rounds, unmapRounds = rounds + 1 := ⟨0xffffffff, rfl⟩
  rw [Kernel.unmapPage, hrounds, Kernel.unmapPageIn, finishes_bind]
  refine (finishes_supplement hturn hspace).mono ?_
  rintro _ asked ⟨rfl, hasked⟩
  rw [← info?_eq hspace, hinfo]
  simp only [hevicting, Bool.false_eq_true, if_false, finishes_bind]
  obtain ⟨files, rfl, -⟩ := hasked.turned
  refine (@finishes_findEntry others { machine with files } s p hturn hs).mono ?_
  rintro _ found ⟨rfl, hfound⟩
  have hidle := hasked.trans hfound
  cases hentry : mapped? machine.spaces s p with
  | none =>
    simp only [Option.map_none, ite_self, finishes_bind, holding_eq, lift_eq, finishes_atomically,
      finishes_pure]
    exact fun met hmet => hnone hentry met (hidle.met hturn hmet)
  | some entry =>
    obtain ⟨hresident, hpins⟩ := hsome entry hentry
    simp only [hresident, if_true, Option.map_some, finishes_bind, Kernel.pinIfBacking, holding_eq,
      lift_eq, finishes_atomically]
    intro met hmet
    refine (hpins met (hidle.met hturn hmet)).mono ?_
    rintro _ pinned ⟨rfl, hforgets⟩
    simp only [if_true, finishes_bind, finishes_atomically]
    exact hforgets

/-- A page of a mapped file is unmapped. -/
theorem finishes_unmapPage (hturn : ∀ a b, others a b → Turned a b) (h : machine.Settled)
    (hsegment : segment? machine.spaces s p = some segment) (hback : segment.writeBack = true)
    (hfits : segment.readBytes ≤ pageSize) (hfile : segment.file < machine.files.size) :
    Finishes (Kernel.unmapPage s p : Woven others _) machine fun _ after =>
      Strips others s (· = p) 1 machine after ∧
        (∀ s', standing? after.spaces s' = standing? machine.spaces s') ∧ after.Settled := by
  obtain ⟨info, hinfo, hinfoSegment⟩ := Option.bind_eq_some_iff.mp hsegment
  obtain ⟨space, hspace, -⟩ := Option.bind_eq_some_iff.mp hinfo
  have hs : s < machine.spaces.size := (Array.getElem?_eq_some_iff.mp hspace).1
  have hdescribes := h.fits hinfo
  have hp := hdescribes.aligned
  have hcopyNone : info.copy? = none := hdescribes.back segment hinfoSegment hback
  have hstanding : ∀ s', standing? (unmap (drop machine.spaces s p) s p) s' =
      standing? machine.spaces s' := fun s' => standing?_unmap.trans standing?_drop
  have haccounted : Accounted [] (unmap (drop machine.spaces s p) s p) machine.swap.slots := by
    refine h.accounted.keep (elsewhere_drop.trans (elsewhere_unmap hp)) ?_
    rw [copy?, copy?, info?_unmap, info?_drop, if_pos ⟨rfl, rfl⟩, hinfo, Option.bind_some, hcopyNone]
    rfl
  refine finishes_unmapPage_once hturn hinfo hdescribes.evicting (fun hentry met hidle' => ?_) ?_
  · obtain ⟨files, rfl, hwritten⟩ := hidle'.turned
    rw [hcopyNone]
    refine Transition.finishes_forget hs ⟨?_, hstanding, ?_⟩
    · refine strips_forgotten h hsegment hback (hidle'.comes.keep (sameSwitches_of_files rfl))
        (Nat.zero_le _) rfl rfl rfl rfl hwritten ?_ fun entry k hmapped => ?_
      · exact fun other k _ _ => hwritten.windowByte List.not_mem_nil k
      · rw [hentry] at hmapped
        cases hmapped
    · exact (h.forgotten hp (by simp) hentry (h.live.isLive_of_info? hinfo) haccounted).congr
        rfl rfl rfl rfl
  · intro entry hentry
    have hframe : frame? machine.spaces s p = some entry.frame.toNat := by
      rw [frame?, hentry, Option.map_some]
    have hresident : info.resident = true := by
      rw [hdescribes.resident, hframe, Option.isSome_some]
    refine ⟨hresident, fun met hidle' => ?_⟩
    obtain ⟨files, rfl, hfiles⟩ := hidle'.turned
    refine (Transition.finishes_pinIfBacking (hidle'.turned.settledBut h) hp hframe).mono ?_
    rintro _ _ ⟨rfl, pool, rfl, hpinned⟩
    refine ⟨rfl, fun met' hmet' => ?_⟩
    obtain ⟨files', rfl, hfiles'⟩ := hturn _ _ hmet'
    rw [hcopyNone]
    refine Transition.finishes_forget hs ?_
    have hcomesPinned : Comes others machine
        { machine with frames := { machine.frames with pool }, files } :=
      hidle'.comes.keep (sameSwitches_of_files rfl)
    have hcomes : Comes others machine { machine with
        frames := { machine.frames with pool }
        spaces := unmap (drop machine.spaces s p) s p
        files := files' } :=
      (hcomesPinned.met hmet').keep (sameSwitches_of_files rfl)
    have hreserved := Coherent.forgotten
      (m := { machine with frames := { machine.frames with pool }, files := files' })
      (hpinned.congr rfl rfl rfl rfl) hp hframe haccounted
    have hunmapped : mapped? (unmap (drop machine.spaces s p) s p) s p = none := by
      rw [mapped?_unmap, if_pos ⟨rfl, rfl⟩]
    have hfile' : segment.file < files'.size := by
      rw [hfiles'.size_eq]
      exact hfiles.size_eq ▸ hfile
    change (Kernel.saveAndFree entry.frame.toNat info (mapped? machine.spaces s p) :
      Woven others _).Finishes _ _
    rw [hentry]
    refine (finishes_saveAndFree hturn hcomes (hreserved.congr rfl rfl rfl rfl rfl) hunmapped hsegment
      hback hfits hfile' hinfoSegment entry).mono ?_
    rintro _ _ ⟨⟨frames, files'', writes, rfl, hcomes', hmemory, hlength, hwritten, hagree, hsaved⟩,
      hsettled⟩
    have hall := (hfiles.trans hfiles' fun _ _ _ hs => hs).trans hwritten fun _ _ _ hs => hs
    rw [List.nil_append, List.nil_append] at hall
    refine ⟨?_, hstanding, hsettled⟩
    refine strips_forgotten h hsegment hback hcomes' hlength rfl hmemory rfl rfl hall ?_ ?_
    · intro other k hk hother
      rw [hagree other k hk hother, hfiles'.windowByte List.not_mem_nil,
        hfiles.windowByte List.not_mem_nil]
    · intro entry' k hentry' hdirty hk haccepts
      obtain rfl := Option.some.inj (hentry.symm.trans hentry')
      exact hsaved hdirty haccepts k hk

/-- Pages of mapped files are unmapped one after the other, whether they can be saved or not. -/
theorem finishes_unmapPages (hturn : ∀ a b, others a b → Turned a b) (h : machine.Settled)
    {pages : List Nat} (hnodup : pages.Nodup) (hwindows : ∀ p ∈ pages, ∃ segment,
      segment? machine.spaces s p = some segment ∧ segment.writeBack = true ∧
        segment.readBytes ≤ pageSize ∧ segment.file < machine.files.size) :
    Finishes (Kernel.throughFailures (Kernel.unmapPage s) pages : Woven others _) machine
      fun _ after => Strips others s (· ∈ pages) pages.length machine after ∧
        (∀ s', standing? after.spaces s' = standing? machine.spaces s') ∧ after.Settled := by
  refine (finishing others).throughFailures
    (fun done after => Strips others s (· ∈ done) done.length machine after ∧
      (∀ s', standing? after.spaces s' = standing? machine.spaces s') ∧ after.Settled) ?_ ?_
  · rintro done p rest before hpages ⟨hstrips, hstanding, hsettled⟩
    obtain ⟨segment, hsegment, hback, hfits, hfile⟩ := hwindows p (by simp [hpages])
    obtain ⟨writes, hlength, hforgets⟩ := hstrips.forgets
    have hnot : ¬ (s = s ∧ p ∈ done) := by
      rintro ⟨-, hp⟩
      rw [hpages] at hnodup
      exact (List.nodup_append.mp hnodup).2.2 p hp p List.mem_cons_self rfl
    refine (finishes_unmapPage hturn hsettled ((hforgets.segment_eq hnot).trans hsegment) hback hfits
      (hforgets.files.size_eq ▸ hfile)).mono ?_
    rintro _ after ⟨hstrips', hstanding', hsettled'⟩
    refine ⟨?_, fun s' => (hstanding' s').trans (hstanding s'), hsettled'⟩
    rw [List.length_append, List.length_singleton]
    refine (hstrips.trans hstrips').congr fun q => ?_
    rw [List.mem_append, List.mem_singleton]
  · exact ⟨(strips_refl others s machine).congr fun p => by simp, fun _ => rfl, h⟩

/-- A live mapping is removed, whether its pages can be saved or not. -/
theorem finishes_removeMapping (hturn : ∀ a b, others a b → Turned a b) (h : machine.Orderly)
    {id : Nat} {mapping : Mapping} (hmapping : mapping? machine.spaces s id = some mapping) :
    Finishes (Kernel.removeMapping s id : Woven others _) machine fun _ after => after.Orderly ∧
      Unmaps s id mapping machine after ∧
      Strips others s (· ∈ pageRange mapping.page mapping.pages) mapping.pages machine after := by
  obtain ⟨length, hpages, hmappable, hwindows⟩ := h.mapped.windows s id mapping hmapping
  simp only [Kernel.removeMapping, holding_eq, lift_eq, finishes_bind, finishes_atomically]
  intro met hmet
  have hidle := idles_of hturn hmet
  obtain ⟨files, rfl, hfiles⟩ := hidle.turned
  refine Transition.finishes_takeMapping hmapping ?_
  have hsettled := Transition.settled_unlisted (hidle.turned.settledBut h.settled) hmapping
  simp only [finishes_bind]
  refine (finishes_unmapPages hturn hsettled (nodup_pageRange mapping.page mapping.pages) ?_).mono ?_
  · intro p hp
    obtain ⟨i, hi, rfl⟩ := mem_pageRange.mp hp
    have hsegment := hwindows i hi
    refine ⟨_, Transition.segment?_unlisted.trans hsegment, rfl, ?_, ?_⟩
    · simp only [mappedSegment]
      omega
    · exact hfiles.size_eq ▸ h.backed s _ _ hsegment
  rintro outcome after ⟨hstrips, hstanding, hsettled'⟩
  obtain ⟨standing, hfound, -⟩ := Option.bind_eq_some_iff.mp hmapping
  have hlisted := (hstanding s).trans (Transition.standing?_unlisted hfound)
  refine finishes_notify hturn (lt_size_of_standing? hlisted) (.unmapped · id) ?_
  intro met notices hidle'
  rw [finishes_pure]
  have htotal := (((strips_unlisted id hidle).trans hstrips).idles hidle').notices notices
  rw [Nat.zero_add, length_pageRange] at htotal
  have hstripped := htotal.congr fun p =>
    (iff_of_eq (false_or (p ∈ pageRange mapping.page mapping.pages))).symm
  obtain ⟨writes, hlength, hforgets⟩ := hstripped.forgets
  obtain ⟨files', rfl, -⟩ := hidle'.turned
  have hunmaps : Unmaps s id mapping machine { after with files := files', notices } := by
    refine ⟨hmapping, ⟨writes, hlength, hforgets⟩, fun standing' hs => ?_, fun s' hne => ?_⟩
    · exact (hstanding s).trans (Transition.standing?_unlisted hs)
    · exact (hstanding s').trans (Transition.standing?_unlisted_of_ne hne)
  refine ⟨⟨?_, hunmaps.mapped h.mapped, fun _ _ _ => hforgets.backed h⟩, hunmaps, hstripped⟩
  exact Coherent.congr hsettled' rfl rfl rfl rfl

/-- Mappings are removed one after the other, whether their pages can be saved or not. -/
theorem finishes_removeMappings (hturn : ∀ a b, others a b → Turned a b) (ids : List Nat) :
    ∀ {machine : Machine}, machine.Orderly → s < machine.spaces.size → ids.Nodup →
    (∀ id ∈ ids, ∃ mapping, mapping? machine.spaces s id = some mapping) →
    Finishes (Kernel.removeMappings s ids : Woven others _) machine fun _ after => after.Orderly ∧
      s < after.spaces.size ∧ Sheds s (ids.length * (kernelBase / pageSize)) machine after ∧
      (∃ gone n, Strips others s gone n machine after) ∧
      ∀ id, mapping? after.spaces s id = if id ∈ ids then none else mapping? machine.spaces s id := by
  induction ids with
  | nil =>
    intro machine h hs _ _
    exact finishes_pure.mpr ⟨h, hs, .refl s _ _, ⟨_, _, strips_refl others s machine⟩, fun _ => by simp⟩
  | cons id ids ih =>
    intro machine h hs hnodup hlive
    obtain ⟨hnot, hnodup'⟩ := List.nodup_cons.mp hnodup
    obtain ⟨mapping, hmapping⟩ := hlive id List.mem_cons_self
    rw [Kernel.removeMappings, finishes_bind]
    refine (finishes_removeMapping hturn h hmapping).mono ?_
    rintro outcome removed ⟨horderly, hunmaps, hstrips⟩
    have hlisted : ∀ id', mapping? removed.spaces s id' =
        if id' = id then none else mapping? machine.spaces s id' := by
      intro id'
      rw [hunmaps.mapping?]
      simp
    have hsize : s < removed.spaces.size := by
      obtain ⟨standing, hstanding, -⟩ := Option.bind_eq_some_iff.mp hmapping
      exact lt_size_of_standing? (hunmaps.standing standing hstanding)
    have hrest : ∀ before, Idles others removed before → ∀ notices,
        Finishes (Kernel.removeMappings s ids : Woven others _) { before with notices }
          fun _ after => after.Orderly ∧ s < after.spaces.size ∧
            Sheds s ((id :: ids).length * (kernelBase / pageSize)) machine after ∧
            (∃ gone n, Strips others s gone n machine after) ∧
            ∀ id', mapping? after.spaces s id' =
              if id' ∈ id :: ids then none else mapping? machine.spaces s id' := by
      intro before hidle notices
      have hbefore := horderly.turned hidle.turned notices
      have hstrips' := (hstrips.idles hidle).notices notices
      have hsheds := ((hunmaps.sheds h.mapped).turned hidle.turned).notices notices
      obtain ⟨files, rfl, -⟩ := hidle.turned
      refine (ih hbefore hsize hnodup' fun id' hid' => ?_).mono ?_
      · obtain ⟨other, hother⟩ := hlive id' (List.mem_cons_of_mem _ hid')
        have hne : id' ≠ id := fun heq => hnot (heq ▸ hid')
        exact ⟨other, by rw [hlisted, if_neg hne, hother]⟩
      · rintro _ after ⟨horderly', hsize', hsheds', ⟨gone, n, hstrips''⟩, hlisted'⟩
        refine ⟨horderly', hsize', ?_, ⟨_, _, hstrips'.trans hstrips''⟩, fun id' => ?_⟩
        · rw [List.length_cons, Nat.succ_mul, Nat.add_comm]
          exact hsheds.trans hsheds'
        · rw [hlisted', hlisted]
          by_cases hid : id' = id
          · simp [hid]
          · simp [hid]
    cases outcome with
    | ok u => exact hrest removed (idles_refl others removed) removed.notices
    | error cause =>
      simp only [lift_eq, finishes_bind]
      exact finishes_notify hturn hsize (.writeBackFailed · id cause) fun met notices hidle =>
        hrest met hidle notices

/-- All that a space has left is dropped: its entries with their slots, and its frames. -/
theorem finishes_empty (hturn : ∀ a b, others a b → Turned a b) (h : machine.Settled)
    (hs : s < machine.spaces.size) :
    Finishes (Kernel.holding (.supplement s) (Kernel.atomically (Transition.dropEntries s)) >>=
      fun _ => Kernel.dropFrames s : Woven others Unit) machine fun _ after =>
        Turned machine { machine with files := after.files } ∧ after.Settled ∧
          Empties s { machine with files := after.files } after := by
  simp only [Kernel.dropFrames, Kernel.freeOwnedBy, holding_eq, lift_eq, finishes_bind]
  rw [finishes_atomically]
  intro met hmet
  have hturned := hturn _ _ hmet
  obtain ⟨files, rfl, -⟩ := id hturned
  refine (@Transition.finishes_dropEntries { machine with files } s [] hs h.accounted).mono ?_
  rintro _ _ ⟨slots, rfl, haccounted⟩
  rw [finishes_atomically]
  intro met' hmet'
  obtain ⟨files', rfl, hwritten'⟩ := hturn _ _ hmet'
  have hturned' := hturned.trans ⟨files', rfl, hwritten'.of_nil _⟩
  have hframe : ∀ s' p, frame? (Transition.emptied machine.spaces s) s' p =
      frame? machine.spaces s' p := by
    intro s' p
    rw [frame?, Transition.emptied, mapped?_onSupplement]
    rfl
  have htracked : Tracked (Transition.emptied machine.spaces s) machine.frames.records := by
    refine ⟨fun r => ?_, fun s' p => ?_⟩
    · simpa only [hframe] using h.tracked.mem_iff r
    · simpa only [hframe] using h.tracked.user s' p
  have hs' : s < (Transition.emptied machine.spaces s).size := by
    rw [Transition.emptied, size_onSupplement]
    exact hs
  refine (@Transition.finishes_freeOwnedBy { machine with
    spaces := Transition.emptied machine.spaces s, swap := { machine.swap with slots },
    files := files' } s [] hs' h.pool htracked).mono ?_
  rintro gone _ ⟨frames, spaces, notices, rfl, hsize, hmemory, hcapacity, hpool, htracked', hinfo,
    hstanding, hmapped⟩
  refine finishes_notify hturn hsize (.released · gone.length) fun met'' notices' hidle => ?_
  obtain ⟨files'', rfl, hwritten''⟩ := hidle.turned
  have hempties : Empties s { machine with files := files'' } { machine with
      frames, spaces, swap := { machine.swap with slots }, files := files'', notices := notices' } := by
    refine ⟨rfl, hmemory, rfl, rfl, fun s' p => (hinfo s' p).trans Transition.info?_emptied,
      fun s' p hp => ?_, (hstanding s).trans Transition.standing?_emptied, fun s' hne => ?_⟩
    · rw [hmapped s' p hp, Transition.emptied, mapped?_onSupplement]
    · rw [hstanding, Transition.emptied, standing?_onSupplement, if_neg (Ne.symm hne)]
  refine ⟨hturned'.trans ⟨files'', rfl, hwritten''.of_nil _⟩, ⟨hpool, ?_, htracked', ?_, ?_,
    hempties.live h.live⟩, hempties⟩
  · rw [hcapacity, hmemory]
    exact h.capacity
  · exact h.described.without (s := s) hempties.info fun s' p => hempties.frame?
  · exact haccounted.congr fun s' p => by rw [copy?, copy?, hinfo]

/-- A live space is torn down, whether its pages can be saved or not. -/
theorem finishes_destroy (hturn : ∀ a b, others a b → Turned a b) (h : machine.Orderly)
    {space : AddressSpace} (hspace : machine.spaces[s]? = some space)
    (hlive : space.supplement.destroyed = false) :
    Finishes (Kernel.destroy s : Woven others Unit) machine fun _ after => after.Orderly ∧
      Destroys s machine after ∧
      ∀ p segment entry k, IsAligned p → segment? machine.spaces s p = some segment →
        segment.writeBack = true → mapped? machine.spaces s p = some entry → entry.dirty = true →
        k < segment.readBytes → Accepts others machine s p entry.frame.toNat segment →
        (∀ q other, segment? machine.spaces s q = some other → other.writeBack = true →
          other.Covers segment k → q = p) →
        machine.frames.memory.byte? entry.frame.toNat k =
          some (Files.windowByte after.files segment k) := by
  have hs : s < machine.spaces.size := (Array.getElem?_eq_some_iff.mp hspace).1
  have hstanding := standing?_eq hspace
  rw [Kernel.destroy, holding_eq, finishes_bind]
  refine (finishes_supplement hturn hspace).mono ?_
  rintro _ asked ⟨rfl, hasked⟩
  rw [if_neg (Bool.eq_false_iff.mp hlive), finishes_bind]
  have hasked' := h.turned hasked.turned asked.notices
  obtain ⟨files, rfl, -⟩ := hasked.turned
  have hlisted := mapping?_eq hspace
  have hmem : ∀ id, id ∈ space.supplement.mappingIds ↔
      (mapping? machine.spaces s id).isSome = true := by
    intro id
    rw [hlisted, Std.ExtTreeMap.isSome_getElem?_iff_mem]
    exact Std.ExtTreeMap.mem_keys
  refine (finishes_removeMappings hturn _ hasked' hs Std.ExtTreeMap.nodup_keys fun id hid =>
    Option.isSome_iff_exists.mp ((hmem id).mp hid)).mono ?_
  rintro _ removed ⟨hremoved, hs', hsheds, ⟨gone, n, hstrips⟩, hleft⟩
  refine (finishes_empty hturn hremoved.settled hs').mono ?_
  rintro _ after ⟨hturned, hsettled, hempties⟩
  have hsheds' := (((Sheds.refl s 0 machine).turned hasked.turned).trans hsheds).turned hturned
  have hstrips' := ((strips_refl others s machine).idles hasked).trans hstrips
  have hcount := Nat.mul_le_mul_right (kernelBase / pageSize) (h.mapped.length_keys_le hstanding)
  have hdestroys := hsheds'.destroys hempties (by rw [Nat.zero_add]; exact hcount) hstanding
  obtain ⟨writes, -, hforgets⟩ := hdestroys.forgets
  refine ⟨⟨hsettled, hdestroys.mapped h.mapped, fun _ _ _ => hforgets.backed h⟩, hdestroys, ?_⟩
  intro p segment entry k hp hsegment hback hentry hdirty hk haccepts hsole
  have hgone : gone p := by
    -- a page of a mapped file that is left would belong to a mapping that is left
    by_contra hnot
    obtain ⟨writes', -, hforgets'⟩ := hstrips.forgets
    have hkept := (hforgets'.segment_eq fun hg => hnot hg.2).trans hsegment
    obtain ⟨id, mapping, i, hmapping, -⟩ := hremoved.mapped.owned s p segment hkept hback
    rw [hleft] at hmapping
    split at hmapping
    · cases hmapping
    · rename_i hid
      exact hid ((hmem id).mpr (by rw [show mapping? machine.spaces s id = _ from hmapping]; rfl))
  obtain ⟨_, heq, hwritten⟩ := hturned
  cases heq
  rw [hwritten.windowByte List.not_mem_nil]
  exact hstrips'.saved p segment entry k (.inr hgone) hp hsegment hentry hdirty hk haccepts hsole

end Woven

end DemandPaging
