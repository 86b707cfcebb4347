import DemandPaging.Proofs.Allocations
import DemandPaging.Proofs.Marks

/-!
# Evictions uphold the marks

What a page is sent where by an eviction depends on its marks, and what it is mapped with when it comes
back depends on what was recorded then. A page goes to swap with the mark that it was mapped with, and
one with a window goes there only if it was changed (`yields_writeOut`); a page that could not be moved
is mapped again with the marks that it had (`yields_restore`).

A file is written only if the page is one of a mapped file and was changed. All else that an eviction
does touches neither marks nor files (`Aside`).
-/

set_option autoImplicit false

namespace DemandPaging

namespace Transition

open Spaces Machine

variable {α : Type} {machine : Machine} {changed : SpaceId → Nat → Prop} {s : SpaceId}
  {p frame : Nat}

/-! ### What touches neither marks nor files -/

/-- To move a frame to swap touches slots and the device only. -/
theorem aside_swapOut : Yields (Kernel.swapOut frame) machine fun _ after => machine.Aside after := by
  unfold Kernel.swapOut
  simp only [lift_eq, yields_bind, yields_allocateSlot]
  intro slot? slots _
  cases slot? with
  | none => exact yields_pure.mpr ⟨rfl, rfl⟩
  | some slot =>
    rw [yields_bind]
    refine (ensures_writeSlot slot frame).yields.mono ?_
    rintro outcome _ ⟨device, notices, rfl, -⟩
    cases outcome with
    | ok u => exact yields_pure.mpr ⟨rfl, rfl⟩
    | error cause =>
      simp only [yields_bind, yields_releaseSlot, yields_pure]
      exact fun _ _ => ⟨rfl, rfl⟩

/-- To read a slot touches the frame and the device only. -/
theorem aside_readSlot (slot : Nat) :
    Yields (Kernel.readSlot slot frame) machine fun _ after => machine.Aside after := by
  refine (ensures_readSlot slot frame).yields.mono ?_
  rintro _ _ ⟨device, memory, notices, rfl, -⟩
  exact ⟨rfl, rfl⟩

/-- To take a frame touches the frame table only. -/
theorem aside_allocFree (page : Option Nat) :
    Yields (allocFree s page) machine fun _ after => machine.Aside after := by
  simp only [allocFree, yields_bind, yields_frames, yields_ofExcept, yields_setFrames, yields_pure]
  exact fun _ _ => ⟨rfl, rfl⟩

/-- To record a frame touches the frame table only. -/
theorem aside_record (page : Option Nat) :
    Yields (record frame s page) machine fun _ after => machine.Aside after := by
  simp only [record, yields_bind, yields_frames, yields_ofExcept, yields_setFrames]
  exact fun _ _ => ⟨rfl, rfl⟩

/-- To unpin a frame touches the frame table only. -/
theorem aside_unpin : Yields (Kernel.unpin frame) machine fun _ after => machine.Aside after := by
  simp only [Kernel.unpin, holding_eq, lift_eq, unpin, yields_bind, yields_frames, yields_ofExcept,
    yields_setFrames]
  exact fun _ _ => ⟨rfl, rfl⟩

/-- To give a frame back touches the frame table only, or is said to be wrong. -/
theorem aside_free : Yields (Kernel.free frame) machine fun _ after => machine.Aside after := by
  simp only [Kernel.free, holding_eq, lift_eq, free, yields_bind, yields_frames]
  cases machine.frames.position? frame with
  | none => exact yields_notify.mpr ⟨rfl, rfl⟩
  | some index =>
    simp only [yields_bind, yields_ofExcept, yields_setFrames]
    exact fun _ _ => ⟨rfl, rfl⟩

/-- To hand a frame over clears it at most. -/
theorem aside_handOver (page : Option Nat) (zeroed clean : Bool) :
    Yields (Kernel.handOver s page zeroed clean frame) machine fun _ after => machine.Aside after := by
  unfold Kernel.handOver
  simp only [holding_eq, lift_eq]
  refine yields_ite ?_ ?_
  · intro _
    refine Ensures.yields ?_
    simp only [ensures_bind, ensures_zero, ensures_space, ensures_notify]
    exact fun _ _ _ _ => ⟨rfl, rfl⟩
  · intro _
    simp only [yields_bind, yields_space, yields_notify]
    exact fun _ _ => ⟨rfl, rfl⟩

/-! ### Files -/

/-- A frame is written to the whole window of its page. -/
theorem yields_writeBack (segment : Segment) :
    Yields (Kernel.writeBack frame segment) machine fun _ after => ∃ data,
      data.size = segment.readBytes ∧ after = { machine with
        files := Files.serve machine.files (.write segment.file segment.offset data) } := by
  refine Ensures.yields ?_
  simp only [Kernel.writeBack, requireWindow, lift_eq, holding_eq, interrupt_eq, ensures_bind]
  refine ensures_ite (fun hfits => ?_) (fun _ => rfl)
  simp only [ensures_pure, ensures_page, ensures_writeFile]
  intro content _ file hfile
  have hsize : (content.window 0 segment.readBytes).size = segment.readBytes := by
    rw [Page.size_window]
    omega
  have hserved := Files.setIfInBounds_eq_modify hfile
    fun file => (file.write segment.offset (content.window 0 segment.readBytes)).2
  rw [hserved]
  cases (file.write segment.offset (content.window 0 segment.readBytes)).1 <;> exact ⟨_, hsize, rfl⟩

/-- A frame is filled from a file. -/
theorem yields_readIn (segment : Segment) :
    Yields (Kernel.readIn frame segment) machine fun _ after => after.spaces = machine.spaces ∧
      after.files = Files.serve machine.files
        (.read segment.file segment.offset segment.readBytes) := by
  refine Ensures.yields ?_
  simp only [Kernel.readIn, requireWindow, lift_eq, holding_eq, interrupt_eq, ensures_bind]
  refine ensures_ite (fun _ => ?_) (fun _ => rfl)
  simp only [ensures_pure, ensures_readFile]
  intro file hfile
  rw [Files.setIfInBounds_eq_modify hfile
    fun file => (file.read segment.offset segment.readBytes).2]
  cases (file.read segment.offset segment.readBytes).1 <;>
    · simp only [fillFrame, ensures_bind, ensures_page, ensures_setPage, ensures_pure]
      exact fun _ _ => ⟨trivial, rfl⟩

/-- The contents of a page go where its marks and its window say. A swap copy has the mark of the page,
and a page with a window that goes to swap was changed; so was one whose file is written. -/
theorem yields_writeOut (entry : PageTableEntry) (info : PageInfo) {last : Option PageTableEntry} :
    Yields (Kernel.writeOut
      { frame, owner := s, page := p, entry := last, plan := .ofEntry entry info }) machine
      fun outcome after => after.spaces = machine.spaces ∧
        (∀ copy, outcome = .ok (some copy) → copy.writable = entry.writable ∧
          (info.segment?.isSome = true → entry.dirty = true)) ∧
        (after.files = machine.files ∨ ∃ segment data, info.segment? = some segment ∧
          segment.writeBack = true ∧ entry.dirty = true ∧ data.size = segment.readBytes ∧
          after.files = Files.serve machine.files (.write segment.file segment.offset data)) := by
  have hswap : (info.segment?.isSome = true → entry.dirty = true) →
      Yields (Kernel.writeOut
        { frame, owner := s, page := p, entry := last, plan := .swap entry.writable }) machine
        fun outcome after => after.spaces = machine.spaces ∧
          (∀ copy, outcome = .ok (some copy) → copy.writable = entry.writable ∧
            (info.segment?.isSome = true → entry.dirty = true)) ∧ after.files = machine.files := by
    intro hwhy
    simp only [Kernel.writeOut, yields_bind]
    refine aside_swapOut.mono ?_
    intro outcome after hafter
    cases outcome with
    | error cause => exact yields_pure.mpr ⟨hafter.spaces_eq, nofun, hafter.files_eq⟩
    | ok slot =>
      refine yields_pure.mpr ⟨hafter.spaces_eq, ?_, hafter.files_eq⟩
      rintro copy ⟨⟩
      exact ⟨rfl, hwhy⟩
  unfold Plan.ofEntry
  cases hinfo : info.segment? with
  | none =>
    rw [hinfo] at hswap
    exact (hswap nofun).mono fun _ _ h => ⟨h.1, h.2.1, .inl h.2.2⟩
  | some segment =>
    rw [hinfo] at hswap
    simp only
    split
    · rename_i hfile
      rw [Bool.and_eq_true] at hfile
      simp only [Kernel.writeOut, yields_bind]
      refine (yields_writeBack segment).mono ?_
      rintro outcome _ ⟨data, hsize, rfl⟩
      cases outcome <;>
        exact yields_pure.mpr ⟨rfl, nofun, .inr ⟨segment, data, rfl, hfile.1, hfile.2, hsize, rfl⟩⟩
    · split
      · exact yields_pure.mpr ⟨rfl, nofun, .inl rfl⟩
      · rename_i hkeep
        have hdirty : entry.dirty = true := by
          cases hd : entry.dirty with
          | true => rfl
          | false => simp [hd] at hkeep
        exact (hswap fun _ => hdirty).mono fun _ _ h => ⟨h.1, h.2.1, .inl h.2.2⟩

/-! ### Moving a page out -/

/-- A page that is put back may be written if it could be before. -/
theorem yields_restore {entry : PageTableEntry} {plan : Plan}
    (hrefusals : ∀ standing, standing? machine.spaces s = some standing → standing.refusals = 0)
    (hunmapped : mapped? machine.spaces s p = none) :
    Yields (restore { frame, owner := s, page := p, entry := some entry, plan }) machine
      fun _ after => ∀ e, mapped? after.spaces s p = some e → e.writable = entry.writable := by
  refine (ensures_remade hrefusals hunmapped).yields.mono ?_
  rintro _ _ ⟨_, _, -, rfl, -, hmapped, -⟩ e he
  obtain rfl := Option.some.inj (hmapped.symm.trans he)
  rfl

/-- A page is on its way with the entry that it had, and all marks are right. -/
structure Lifted (changed : SpaceId → Nat → Prop) (machine : Machine) (s : SpaceId) (p : Nat)
    (entry : PageTableEntry) (info : PageInfo) : Prop where
  marked : Marked changed machine.spaces
  unmapped : mapped? machine.spaces s p = none
  info_eq : info? machine.spaces s p = some { info with evicting := true }
  copy_eq : info.copy? = none
  writable : entry.writable = mayWrite info.segment?
  dirty : entry.dirty = true → info.segment?.isSome = true → changed s p
  user : pageSize ≤ p ∧ IsUser p

section

variable {entry : PageTableEntry} {info : PageInfo}

/-- The page that is on its way has the window of its entry. -/
theorem Lifted.segment_eq (h : Lifted changed machine s p entry info) :
    segment? machine.spaces s p = info.segment? := by
  rw [segment?, h.info_eq]
  rfl

/-- A page that is put back has the marks that it had. -/
theorem upholds_restore {plan : Plan} (h : Lifted changed machine s p entry info) (hp : IsAligned p)
    (hnumber : entry.frame.toNat = frame)
    (hrefusals : ∀ standing, standing? machine.spaces s = some standing → standing.refusals = 0) :
    Yields (restore { frame, owner := s, page := p, entry := some entry, plan }) machine
      fun _ after => machine.Upholds changed after := by
  refine ((yields_restore hrefusals h.unmapped).and
    (ensures_restore hp hnumber hrefusals h.unmapped).yields).mono ?_
  rintro _ after ⟨hwritable, hr⟩
  have hpage := h.marked s p hp
  have hinfo : info? after.spaces s p = some { info with evicting := false } := by
    rw [hr.info_eq, h.info_eq, Option.map_some]
  have hwindow : segment? after.spaces s p = segment? machine.spaces s p := by
    rw [h.segment_eq, segment?, hinfo]
    rfl
  have hnone : copy? after.spaces s p = none := by
    rw [copy?, hinfo]
    exact h.copy_eq
  obtain ⟨entry', hentry', -, hdirty'⟩ := hr.mapped
  refine .of_page h.marked hr.elsewhere hwindow ?_ hr.files_eq
  rw [hnone]
  refine marks_of_unparked (fun e he => ?_) (fun e he hdirty hsome => ?_) hpage.allowed hpage.proper
    fun _ => h.user
  · rw [hwritable e he, h.segment_eq]
    exact h.writable
  · obtain rfl := Option.some.inj (hentry'.symm.trans he)
    rw [h.segment_eq] at hsome
    exact h.dirty (hdirty' ▸ hdirty) hsome

/-- A page that is in swap has the mark that it had, and if it has a window it was changed. -/
theorem upholds_finish {plan : Plan} (h : Lifted changed machine s p entry info) (hp : IsAligned p)
    {last : Option PageTableEntry} (hplan : plan ≠ .discard) (copy : Option SwapCopy)
    (hcopied : ∀ c, copy = some c → c.writable = entry.writable ∧
      (info.segment?.isSome = true → entry.dirty = true)) :
    Yields (finish { frame, owner := s, page := p, entry := last, plan } copy) machine
      fun _ after => machine.Upholds changed after := by
  refine (ensures_finish copy hplan h.info_eq).yields.mono ?_
  intro _ after hr
  have hpage := h.marked s p hp
  have hinfo : info? after.spaces s p =
      some (({ info with evicting := true } : PageInfo).saved copy) := by
    rw [hr.spaces_eq, info?_amend, h.info_eq]
    simp
  have hwindow : segment? after.spaces s p = segment? machine.spaces s p := by
    rw [segment?, segment?, hinfo, h.info_eq, Option.bind_some, Option.bind_some,
      PageInfo.segment?_saved]
  have hparked : copy? after.spaces s p = copy := by
    rw [copy?, hinfo, Option.bind_some]
    exact PageInfo.copy?_saved h.copy_eq copy
  have hunmapped : mapped? after.spaces s p = none := by
    rw [hr.spaces_eq, mapped?_amend]
    exact h.unmapped
  refine .of_page h.marked (hr.spaces_eq ▸ elsewhere_amend) hwindow ?_ hr.files_eq
  rw [hparked, hunmapped]
  refine marks_of_unmapped (fun c hc => ?_) (fun hsome hwindow => ?_) hpage.allowed hpage.proper
    fun _ => h.user
  · rw [(hcopied c hc).1, h.segment_eq]
    exact h.writable
  · obtain ⟨c, rfl⟩ := Option.isSome_iff_exists.mp hsome
    rw [h.segment_eq] at hwindow
    exact h.dirty ((hcopied c rfl).2 hwindow) hwindow

end

/-- A victim is moved out, or put back, and the marks are right. -/
theorem upholds_migrate {before : Machine} {victim : FrameRecord}
    (h : Chosen {} before victim machine) (hmarked : Marked changed machine.spaces) :
    Yields (Kernel.migrate victim) machine fun _ after => machine.Upholds changed after := by
  obtain ⟨frame, s, p, entry, rfl, hp, hentry, hnumber⟩ := h.page
  have hcoherent := h.coherent
  have hpage := hmarked s p hp
  have huser := hpage.user (.inr (.inl (by rw [hentry, Option.isSome_some])))
  simp only [Kernel.migrate, holding_eq, lift_eq, yields_bind]
  refine (ensures_detach hcoherent.described hcoherent.live hp hentry).yields.mono ?_
  rintro transit _ ⟨info, spaces, rfl, rfl, hd⟩
  have hsegment : segment? spaces s p = segment? machine.spaces s p := by
    rw [hd.segment_eq, segment?, hd.info_eq]
    rfl
  have hcopy : copy? spaces s p = none := by
    rw [copy?, hd.info_eq]
    exact hd.copy_eq
  -- while it is on its way the page has no marks
  have hdetached : machine.Upholds changed { machine with spaces } := by
    refine .of_page hmarked hd.elsewhere hsegment ?_ rfl
    rw [hd.unmapped, hcopy]
    exact marks_of_none hpage.allowed hpage.proper fun _ => huser
  have hchanged : entry.dirty = true → info.segment?.isSome = true → changed s p := by
    intro hdirty hsome
    rw [← hd.segment_eq] at hsome
    exact hpage.dirty entry hentry hdirty hsome
  have hmoves := @ensures_writeOut { machine with spaces } s p frame machine.spaces entry info
    (some entry) hcoherent.accounted.sound hd.segment_eq
  refine ((yields_writeOut entry info).and hmoves.yields).mono ?_
  rintro outcome middle ⟨⟨hspaces, hcopied, hfiles⟩, writes, hsaved⟩
  -- the files took at most the one call that was due
  have hmoved : machine.Upholds changed middle := by
    refine hdetached.trans ⟨fun s' p' _ hs' => ?_, ?_, ?_⟩
    · rw [hspaces] at hs'
      exact hs'
    · rw [hspaces]
      exact hdetached.marked
    · rcases hfiles with hsame | ⟨segment, data, hseg, hback, hdirty, hsize, hwritten⟩
      · exact ⟨[], hsame, List.forall_mem_nil _⟩
      · refine ⟨[.write segment.file segment.offset data], hwritten, fun call hcall => ?_⟩
        rw [List.mem_singleton] at hcall
        subst hcall
        refine ⟨s, p, segment, hp, ?_, hback, hchanged hdirty ?_, rfl, rfl, hsize⟩
        · exact hsegment.trans (hd.segment_eq.trans hseg)
        · rw [hseg, Option.isSome_some]
  have hlifted : Lifted changed middle s p entry info := by
    refine ⟨hmoved.marked, ?_, ?_, hd.copy_eq, ?_, hchanged, huser⟩
    · rw [hspaces]
      exact hd.unmapped
    · rw [hspaces]
      exact hd.info_eq
    · rw [← hd.segment_eq]
      exact hpage.writable entry hentry
  cases outcome with
  | error cause =>
    simp only [yields_bind, yields_pure]
    refine (upholds_restore hlifted hp hnumber fun standing hstanding => ?_).mono
      fun _ _ hafter => hmoved.trans hafter
    rw [hspaces] at hstanding
    exact hcoherent.live.refusals s standing (hd.elsewhere.standing s ▸ hstanding)
  | ok copy =>
    simp only [yields_bind, yields_pure]
    refine (upholds_finish hlifted hp (Plan.ofEntry_ne_discard entry info) copy fun c hc => ?_).mono
      fun _ _ hafter => hmoved.trans hafter
    exact hcopied c (by rw [hc])

/-! ### Finding a frame -/

/-- The clock hand clears marks of pages that were used, and that is all. -/
theorem faded_chooseVictim : Yields Kernel.chooseVictim machine fun _ after => ∃ frames spaces,
    after = { machine with frames, spaces } ∧ Faded machine.spaces spaces := by
  simp only [Kernel.chooseVictim, SecondChance.select, lift_eq, yields_bind, yields_frames]
  have hsweep := @Outcomes.sweep _ _ _ _ machine Outcomes.alone
    (fun _ _ h => h ▸ Devices.refl _) machine.frames
    (machine.frames.clock.visits (Kernel.candidates (m := Transition) machine.frames).size) none nofun
  refine ((ensures_sweep machine.frames _ none nofun).yields.and hsweep).mono ?_
  rintro choice _ ⟨⟨⟨spaces, rfl, -⟩, -⟩, hswept, -⟩
  cases choice <;>
    · simp only [yields_pure]
      exact yields_takeVictim (fun _ => ⟨_, spaces, rfl, hswept.faded⟩)
        fun _ _ => ⟨_, spaces, rfl, hswept.faded⟩

/-- To look for a frame upholds the marks, the clock hand only clears marks of use. -/
theorem upholds_findSource (hmarked : Marked changed machine.spaces) :
    Yields Kernel.findSource machine fun _ after => machine.Upholds changed after := by
  have haside : ∀ pool, machine.Upholds changed
      { machine with frames := { machine.frames with pool } } := fun pool =>
    Aside.upholds ⟨rfl, rfl⟩ hmarked
  simp only [Kernel.findSource, lift_eq, yields_bind]
  refine yields_lookAgain ?_ ?_
  · exact fun frame pool _ => yields_pure.mpr (haside pool)
  · rintro pool - outcome (rfl | rfl)
    · exact yields_pure.mpr (haside pool)
    · simp only [yields_bind, yields_pure]
      refine faded_chooseVictim.mono ?_
      rintro outcome _ ⟨frames, spaces, rfl, hfaded⟩
      refine .of_marked (hmarked.faded hfaded) (fun s p => ?_) rfl
      rw [segment?, segment?, hfaded.info]

/-- An eviction upholds the marks. -/
theorem upholds_evict (h : machine.Settled) (hmarked : Marked changed machine.spaces) :
    Yields Kernel.evict machine fun _ after => machine.Upholds changed after := by
  simp only [Kernel.evict, holding_eq, yields_bind]
  refine ((upholds_findSource hmarked).and (ensures_findSource h).yields).mono ?_
  rintro outcome middle ⟨hupholds, hmiddle⟩
  cases outcome with
  | error cause => exact yields_pure.mpr hupholds
  | ok source =>
    cases source with
    | pool frame => exact yields_pure.mpr hupholds
    | page victim =>
      obtain ⟨looked, -, -, hchosen⟩ := hmiddle
      simp only [yields_bind]
      refine (upholds_migrate hchosen hupholds.marked).mono ?_
      intro outcome after hafter
      cases outcome <;> exact yields_pure.mpr (hupholds.trans hafter)

/-- To hand a frame out upholds the marks. -/
theorem upholds_allocateFor (h : machine.Settled) (hmarked : Marked changed machine.spaces)
    (zeroed : Bool) :
    Yields (Kernel.allocateFor s p zeroed) machine fun _ after => machine.Upholds changed after := by
  simp only [Kernel.allocateFor, Kernel.allocateRecord, holding_eq, lift_eq, yields_bind]
  refine ((aside_allocFree (some p)).and (ensures_allocFree h).yields).mono ?_
  rintro found middle ⟨haside, -, hmiddle⟩
  have hlooked := haside.upholds hmarked
  cases found with
  | some frame =>
    simp only [yields_bind, yields_pure]
    exact (aside_handOver (some p) zeroed false).mono fun _ _ hover => hlooked.aside hover
  | none =>
    simp only [yields_bind]
    refine (upholds_evict hmiddle hlooked.marked).mono ?_
    intro outcome evicted hevicted
    have htotal := hlooked.trans hevicted
    cases outcome with
    | error cause => exact yields_pure.mpr htotal
    | ok result =>
      simp only [yields_bind, yields_pure]
      refine (aside_record (some p)).mono ?_
      intro _ recorded hrecorded
      exact (aside_handOver (some p) zeroed result.2).mono fun _ _ hover =>
        (htotal.aside hrecorded).aside hover

end Transition

end DemandPaging
