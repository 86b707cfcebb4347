import DemandPaging.Proofs.AnsweredEvictions

/-!
# What paging disturbs

`Machine.Disturbs pages before after` says that no page but `pages` was disturbed: every other one is mapped
to the same frame with the same marks, but for whether it was used, has the same bytes in its frame, and has
the same entry and the same bytes in its slot. The relation composes, and the pages add up
(`Machine.Disturbs.trans`).

To make a frame free, one page at most is disturbed, and only if all frames were out. That page is the
`victim`; it is moved out (`Machine.PagesOut`), or put back if that fails (`Machine.PutsBack`).
`Machine.MakesWay` says so of a whole operation, and it is what evictions and allocations are shown to do
(`makesWay_evict`, `makesWay_allocateFor`).
-/

set_option autoImplicit false

namespace DemandPaging

open Spaces Machine

/-- No page but these was disturbed. -/
structure Machine.Disturbs (pages : List (SpaceId × Nat)) (before after : Machine) : Prop where
  lasting : ∀ s p, IsAligned p → (s, p) ∉ pages → lasting? after.spaces s p = lasting? before.spaces s p
  info : ∀ s p, (s, p) ∉ pages → info? after.spaces s p = info? before.spaces s p
  contents : ∀ s p frame k, IsAligned p → (s, p) ∉ pages → frame? before.spaces s p = some frame →
    after.frames.memory.byte? frame k = before.frames.memory.byte? frame k
  parked : ∀ s p copy k, (s, p) ∉ pages → copy? before.spaces s p = some copy → k < pageSize →
    after.swap.device.disk.slotByte copy.slot k = before.swap.device.disk.slotByte copy.slot k

/-- A mapped page was moved out of its frame, and its entry says so. -/
structure Machine.PagesOut (before : Machine) (page : SpaceId × Nat) (after : Machine) : Prop where
  aligned : IsAligned page.2
  mapped : (mapped? before.spaces page.1 page.2).isSome = true
  unmapped : mapped? after.spaces page.1 page.2 = none
  entry : ∃ info, info? after.spaces page.1 page.2 = some info ∧ info.resident = false

/-- A mapped page is mapped as before, with the same contents, the same window and no slot. -/
structure Machine.PutsBack (before : Machine) (page : SpaceId × Nat) (after : Machine) : Prop where
  aligned : IsAligned page.2
  mapped : (mapped? before.spaces page.1 page.2).isSome = true
  lasting : lasting? after.spaces page.1 page.2 = lasting? before.spaces page.1 page.2
  contents : ∀ frame k, frame? before.spaces page.1 page.2 = some frame →
    after.frames.memory.byte? frame k = before.frames.memory.byte? frame k
  segment : segment? after.spaces page.1 page.2 = segment? before.spaces page.1 page.2
  copy : copy? after.spaces page.1 page.2 = none

/-- Room was made, or nearly so if it is not `done`: one page at most was disturbed, and then all frames
were out. -/
structure Machine.MakesWay (done : Prop) (victim : Option (SpaceId × Nat)) (before after : Machine) :
    Prop where
  disturbs : before.Disturbs victim.toList after
  full : victim.isSome = true → before.frames.allocated = before.frames.capacity
  fate : ∀ page, victim = some page →
    before.PagesOut page after ∨ ¬ done ∧ before.PutsBack page after

section

variable {pages pages' : List (SpaceId × Nat)} {m m' m'' : Machine} {s : SpaceId} {p frame : Nat}
  {page : SpaceId × Nat} {done : Prop} {victim : Option (SpaceId × Nat)}

/-! ### How disturbances add up -/

/-- What lasts of an entry is there just when the entry is. -/
theorem mapped?_eq_none_iff_lasting? {spaces : Array AddressSpace} :
    mapped? spaces s p = none ↔ lasting? spaces s p = none := by
  rw [lasting?, Option.map_eq_none_iff]

/-- Where nothing happens, no page is disturbed. -/
theorem Machine.Disturbs.refl (m : Machine) : m.Disturbs [] m :=
  ⟨fun _ _ _ _ => rfl, fun _ _ _ => rfl, fun _ _ _ _ _ _ _ => rfl, fun _ _ _ _ _ _ _ => rfl⟩

/-- More pages may be left out of account. -/
theorem Machine.Disturbs.mono (h : m.Disturbs pages m') (hle : ∀ page ∈ pages, page ∈ pages') :
    m.Disturbs pages' m' where
  lasting s p hp hnot := h.lasting s p hp fun hmem => hnot (hle _ hmem)
  info s p hnot := h.info s p fun hmem => hnot (hle _ hmem)
  contents s p frame k hp hnot := h.contents s p frame k hp fun hmem => hnot (hle _ hmem)
  parked s p copy k hnot := h.parked s p copy k fun hmem => hnot (hle _ hmem)

/-- A page that was not disturbed is in the frame that it was in. -/
theorem Machine.Disturbs.frame_eq (h : m.Disturbs pages m') (hp : IsAligned p) (hnot : (s, p) ∉ pages) :
    frame? m'.spaces s p = frame? m.spaces s p := by
  rw [frame?_eq_lasting?, frame?_eq_lasting?, h.lasting s p hp hnot]

/-- A page that was not disturbed is mapped just if it was. -/
theorem Machine.Disturbs.unmapped_iff (h : m.Disturbs pages m') (hp : IsAligned p)
    (hnot : (s, p) ∉ pages) : mapped? m'.spaces s p = none ↔ mapped? m.spaces s p = none := by
  rw [mapped?_eq_none_iff_lasting?, mapped?_eq_none_iff_lasting?, h.lasting s p hp hnot]

/-- A page that was not disturbed has the window that it had. -/
theorem Machine.Disturbs.segment (h : m.Disturbs pages m') (hnot : (s, p) ∉ pages) :
    segment? m'.spaces s p = segment? m.spaces s p := by rw [segment?, segment?, h.info s p hnot]

/-- A page that was not disturbed has the swap copy that it had. -/
theorem Machine.Disturbs.copy (h : m.Disturbs pages m') (hnot : (s, p) ∉ pages) :
    copy? m'.spaces s p = copy? m.spaces s p := by rw [copy?, copy?, h.info s p hnot]

/-- The pages that were disturbed first and those that were disturbed then. -/
theorem Machine.Disturbs.trans (h : m.Disturbs pages m') (h' : m'.Disturbs pages' m'') :
    m.Disturbs (pages ++ pages') m'' where
  lasting s p hp hnot := by
    rw [List.mem_append, not_or] at hnot
    exact (h'.lasting s p hp hnot.2).trans (h.lasting s p hp hnot.1)
  info s p hnot := by
    rw [List.mem_append, not_or] at hnot
    exact (h'.info s p hnot.2).trans (h.info s p hnot.1)
  contents s p frame k hp hnot hframe := by
    rw [List.mem_append, not_or] at hnot
    have hframe' : frame? m'.spaces s p = some frame := (h.frame_eq hp hnot.1).trans hframe
    exact (h'.contents s p frame k hp hnot.2 hframe').trans (h.contents s p frame k hp hnot.1 hframe)
  parked s p copy k hnot hcopy hk := by
    rw [List.mem_append, not_or] at hnot
    have hcopy' : copy? m'.spaces s p = some copy := (h.copy hnot.1).trans hcopy
    exact (h'.parked s p copy k hnot.2 hcopy' hk).trans (h.parked s p copy k hnot.1 hcopy hk)

/-- Marks of pages that were used may change, and frames that are mapped nowhere may be filled. -/
theorem Machine.Disturbs.of_faded (hfaded : Faded m.spaces m'.spaces)
    (hmemory : ∀ s p frame k, IsAligned p → frame? m.spaces s p = some frame →
      m'.frames.memory.byte? frame k = m.frames.memory.byte? frame k)
    (hdisk : m'.swap.device.disk = m.swap.device.disk) : m.Disturbs [] m' where
  lasting s p _ _ := hfaded.lasting s p
  info s p _ := hfaded.info s p
  contents s p frame k hp _ := hmemory s p frame k hp
  parked s p copy k _ _ _ := by rw [hdisk]

/-- The tables have changed at one page, and its frame may have been filled. -/
theorem Machine.Disturbs.of_page (he : Elsewhere m.spaces m'.spaces s p)
    (hmemory : ∀ s' p' frame k, IsAligned p' → ¬ (s' = s ∧ p' = p) →
      frame? m.spaces s' p' = some frame →
        m'.frames.memory.byte? frame k = m.frames.memory.byte? frame k)
    (hdisk : ∀ s' p' copy k, copy? m.spaces s' p' = some copy → k < pageSize →
      m'.swap.device.disk.slotByte copy.slot k = m.swap.device.disk.slotByte copy.slot k) :
    m.Disturbs [(s, p)] m' := by
  have hother : ∀ {s' : SpaceId} {p' : Nat}, (s', p') ∉ [(s, p)] → ¬ (s' = s ∧ p' = p) := by
    rintro s' p' hnot ⟨rfl, rfl⟩
    exact hnot (List.mem_singleton.mpr rfl)
  refine ⟨fun s' p' hp hnot => ?_, fun s' p' hnot => he.info s' p' (hother hnot),
    fun s' p' frame k hp hnot => hmemory s' p' frame k hp (hother hnot),
    fun s' p' copy k _ => hdisk s' p' copy k⟩
  rw [lasting?, lasting?, he.mapped s' p' hp (hother hnot)]

/-! ### The fate of a victim -/

/-- A page that was moved out stays out if it is not disturbed again. -/
theorem Machine.PagesOut.trans (h : m.PagesOut page m') (h' : m'.Disturbs pages m'')
    (hnot : page ∉ pages) : m.PagesOut page m'' where
  aligned := h.aligned
  mapped := h.mapped
  unmapped := (h'.unmapped_iff h.aligned hnot).mpr h.unmapped
  entry := by
    obtain ⟨info, hinfo, hresident⟩ := h.entry
    exact ⟨info, (h'.info page.1 page.2 hnot).trans hinfo, hresident⟩

/-- What was done before disturbed no page. -/
theorem Machine.PagesOut.after (h : m'.PagesOut page m'') (h' : m.Disturbs [] m') :
    m.PagesOut page m'' where
  aligned := h.aligned
  mapped := by
    rw [Option.isSome_iff_ne_none, ne_eq, ← h'.unmapped_iff h.aligned List.not_mem_nil]
    exact Option.isSome_iff_ne_none.mp h.mapped
  unmapped := h.unmapped
  entry := h.entry

/-- A page that was put back stays there if it is not disturbed again. -/
theorem Machine.PutsBack.trans (h : m.PutsBack page m') (h' : m'.Disturbs pages m'')
    (hnot : page ∉ pages) : m.PutsBack page m'' where
  aligned := h.aligned
  mapped := h.mapped
  lasting := (h'.lasting page.1 page.2 h.aligned hnot).trans h.lasting
  contents frame k hframe := by
    have hframe' : frame? m'.spaces page.1 page.2 = some frame := by
      rw [frame?_eq_lasting?, h.lasting, ← frame?_eq_lasting?, hframe]
    exact (h'.contents page.1 page.2 frame k h.aligned hnot hframe').trans (h.contents frame k hframe)
  segment := (h'.segment hnot).trans h.segment
  copy := (h'.copy hnot).trans h.copy

/-- A page that is put back is where it was before, if none was disturbed until then. -/
theorem Machine.PutsBack.after (h : m'.PutsBack page m'') (h' : m.Disturbs [] m') :
    m.PutsBack page m'' where
  aligned := h.aligned
  mapped := by
    rw [Option.isSome_iff_ne_none, ne_eq, ← h'.unmapped_iff h.aligned List.not_mem_nil]
    exact Option.isSome_iff_ne_none.mp h.mapped
  lasting := h.lasting.trans (h'.lasting page.1 page.2 h.aligned List.not_mem_nil)
  contents frame k hframe :=
    (h.contents frame k ((h'.frame_eq h.aligned List.not_mem_nil).trans hframe)).trans
      (h'.contents page.1 page.2 frame k h.aligned List.not_mem_nil hframe)
  segment := h.segment.trans (h'.segment List.not_mem_nil)
  copy := h.copy

/-- Nobody had to make way. -/
theorem Machine.Disturbs.makesWay (h : m.Disturbs [] m') (done : Prop) : m.MakesWay done none m' where
  disturbs := h
  full hsome := by cases hsome
  fate _ hpage := by cases hpage

/-- A victim that was mapped is none of the pages that are disturbed then, if these were not. -/
theorem Machine.MakesWay.not_mem (h : m.MakesWay done victim m')
    (hunmapped : ∀ page ∈ pages, mapped? m.spaces page.1 page.2 = none) :
    ∀ page, victim = some page → page ∉ pages := by
  intro page hpage hmem
  have hmapped : (mapped? m.spaces page.1 page.2).isSome = true := by
    rcases h.fate page hpage with hout | ⟨-, hback⟩
    · exact hout.mapped
    · exact hback.mapped
  rw [hunmapped page hmem] at hmapped
  cases hmapped

/-- What is done to pages that were not mapped does not change who had to make way. -/
theorem Machine.MakesWay.fate_trans (h : m.MakesWay done victim m') (h' : m'.Disturbs pages m'')
    (hunmapped : ∀ page ∈ pages, mapped? m.spaces page.1 page.2 = none) :
    ∀ page, victim = some page → m.PagesOut page m'' ∨ ¬ done ∧ m.PutsBack page m'' := by
  intro page hpage
  have hnot := h.not_mem hunmapped page hpage
  exact (h.fate page hpage).imp (fun hout => hout.trans h' hnot)
    (And.imp_right fun hback => hback.trans h' hnot)

/-- Nothing is disturbed after somebody has made way. -/
theorem Machine.MakesWay.trans (h : m.MakesWay done victim m') (h' : m'.Disturbs [] m'') :
    m.MakesWay done victim m'' where
  disturbs := by
    have hdisturbs := h.disturbs.trans h'
    rwa [List.append_nil] at hdisturbs
  full := h.full
  fate := h.fate_trans h' (List.forall_mem_nil _)

/-- Less may be known of what was done. -/
theorem Machine.MakesWay.mono {done' : Prop} (h : m.MakesWay done victim m') (hle : done' → done) :
    m.MakesWay done' victim m' :=
  ⟨h.disturbs, h.full, fun page hpage =>
    (h.fate page hpage).imp_right (And.imp_left fun hnot hdone => hnot (hle hdone))⟩

/-! ### A frame in hand -/

/-- The tables have changed at one page at most, and of the frames only one was filled. -/
structure Machine.Brings (s : SpaceId) (p frame : Nat) (before after : Machine) : Prop where
  elsewhere : Elsewhere before.spaces after.spaces s p
  disk_eq : after.swap.device.disk = before.swap.device.disk
  memory : ∀ f k, f ≠ frame → after.frames.memory.byte? f k = before.frames.memory.byte? f k

/-- The tables have not changed, and of the frames only one was filled. -/
structure Machine.Touches (frame : Nat) (before after : Machine) : Prop where
  spaces_eq : after.spaces = before.spaces
  disk_eq : after.swap.device.disk = before.swap.device.disk
  memory : ∀ f k, f ≠ frame → after.frames.memory.byte? f k = before.frames.memory.byte? f k

/-- A frame that is filled twice is still the only one. -/
theorem Machine.Touches.trans (h : m.Touches frame m') (h' : m'.Touches frame m'') : m.Touches frame m'' where
  spaces_eq := h'.spaces_eq.trans h.spaces_eq
  disk_eq := h'.disk_eq.trans h.disk_eq
  memory f k hf := (h'.memory f k hf).trans (h.memory f k hf)

/-- To fill a frame is part of bringing a page in. -/
theorem Machine.Touches.brings (h : m.Touches frame m') : m.Brings s p frame m' where
  elsewhere := h.spaces_eq ▸ .refl _ _ _
  disk_eq := h.disk_eq
  memory := h.memory

/-- The steps that bring one page into one frame add up. -/
theorem Machine.Brings.trans (h : m.Brings s p frame m') (h' : m'.Brings s p frame m'') :
    m.Brings s p frame m'' where
  elsewhere := h.elsewhere.trans h'.elsewhere
  disk_eq := h'.disk_eq.trans h.disk_eq
  memory f k hf := (h'.memory f k hf).trans (h.memory f k hf)

/-- To fill a frame that no page is mapped to disturbs nobody. -/
theorem Machine.Touches.disturbs (h : m.Touches frame m')
    (hfree : ∀ s p, IsAligned p → frame? m.spaces s p ≠ some frame) : m.Disturbs [] m' := by
  refine .of_faded (h.spaces_eq ▸ .refl _) (fun s p f k hp hf => h.memory f k ?_) h.disk_eq
  rintro rfl
  exact hfree s p hp hf

/-- To bring a page in to a frame that no page is mapped to disturbs no other page. -/
theorem Machine.Brings.disturbs (h : m.Brings s p frame m')
    (hfree : ∀ s p, IsAligned p → frame? m.spaces s p ≠ some frame) : m.Disturbs [(s, p)] m' := by
  refine .of_page h.elsewhere (fun s' p' f k hp _ hf => h.memory f k ?_) fun _ _ _ _ _ _ => ?_
  · rintro rfl
    exact hfree s' p' hp hf
  · rw [h.disk_eq]

end

namespace Transition

variable {machine : Machine} {s : SpaceId} {p frame : Nat}

/-! ### Evictions -/

/-- Whoever looks for a frame disturbs nobody, and there is a victim only if all frames are out. -/
theorem disturbs_findSource (h : machine.Settled) :
    Yields Kernel.findSource machine fun outcome after => machine.Disturbs [] after ∧
      ∀ victim, outcome = .ok (.page victim) → machine.frames.allocated = machine.frames.capacity := by
  have hlooked : ∀ pool, machine.Disturbs []
      { machine with frames := { machine.frames with pool } } := fun pool =>
    .of_faded (.refl _) (fun _ _ _ _ _ _ => rfl) rfl
  simp only [Kernel.findSource, lift_eq, yields_bind]
  refine yields_lookAgain ?_ ?_
  · intro found pool _
    refine yields_pure.mpr ⟨hlooked pool, fun victim heq => ?_⟩
    cases heq
  · rintro pool halloc outcome (rfl | rfl)
    · refine yields_pure.mpr ⟨hlooked pool, fun victim heq => ?_⟩
      cases heq
    · have hfull : machine.frames.allocated = machine.frames.capacity := by
        rcases h.pool.alloc_cases with ⟨hfull, -⟩ | ⟨-, found, pool', halloc'⟩
        · exact hfull.trans h.capacity
        · rw [halloc] at halloc'
          cases halloc'
      simp only [yields_bind, yields_pure]
      have hchosen := @Outcomes.chooseVictim _ _ _ _
        { machine with frames := { machine.frames with pool } } Outcomes.alone
        (fun _ _ h => h ▸ Devices.refl _)
      refine (faded_chooseVictim.and hchosen).mono ?_
      rintro outcome _ ⟨⟨frames, spaces, rfl, hfaded⟩, hafter⟩
      have hmemory : frames.memory = machine.frames.memory := by
        cases outcome with
        | error cause => exact hafter.2.memory_eq
        | ok victim => exact hafter.memory_eq
      refine ⟨.of_faded hfaded (fun _ _ _ _ _ _ => by rw [hmemory]) rfl, fun _ _ => hfull⟩

/-- While the contents of a page are moved, no other page is disturbed. -/
theorem Saved.disturbs {m middle m' : Machine} {bound : List FrameRecord} {spaces : Array AddressSpace}
    {entry : PageTableEntry} {info : PageInfo} {writes : List FileId}
    {outcome : Except VmError (Option SwapCopy)} (h : Coherent {} bound [] [] m)
    (hd : Detached m.spaces s p entry info spaces) (hframe : entry.frame.toNat = frame)
    (hsaved : Saved writes m.spaces s p frame entry info outcome { m with spaces } middle)
    (he : Elsewhere m.spaces m'.spaces s p) (hswap : m'.swap = middle.swap)
    (hmemory : ∀ f k, f ≠ frame → m'.frames.memory.byte? f k = middle.frames.memory.byte? f k) :
    m.Disturbs [(s, p)] m' := by
  have hbefore : frame? m.spaces s p = some frame := by
    rw [frame?, hd.mapped, Option.map_some, hframe]
  refine .of_page he (fun s' p' f k hp hother hf => ?_) fun s' p' copy k hcopy hk => ?_
  · have hne : f ≠ frame := by
      rintro rfl
      exact hother (h.frame_inj hd.aligned hp hbefore hf)
    rw [hmemory f k hne, hsaved.frames_eq]
  · rw [hswap]
    exact hsaved.disk copy.slot k (h.accounted.isUsed hcopy) hk

/-- A victim is moved out of its frame or put back, and no other page is disturbed. -/
theorem disturbs_migrate {before : Machine} {victim : FrameRecord}
    (h : Chosen {} before victim machine) :
    Yields (Kernel.migrate victim) machine fun outcome after => ∃ page, machine.Disturbs [page] after ∧
      match outcome with
      | .ok () => machine.PagesOut page after
      | .error _ => machine.PutsBack page after := by
  obtain ⟨frame, s, p, entry, rfl, hp, hentry, hnumber⟩ := h.page
  have hcoherent := h.coherent
  have hframe : frame? machine.spaces s p = some frame := by
    rw [frame?, hentry, Option.map_some, hnumber]
  have hmapped : (mapped? machine.spaces s p).isSome = true := by rw [hentry, Option.isSome_some]
  simp only [Kernel.migrate, holding_eq, lift_eq, yields_bind]
  refine (ensures_detach hcoherent.described hcoherent.live hp hentry).yields.mono ?_
  rintro transit _ ⟨info, spaces, rfl, rfl, hd⟩
  have hmoves := @ensures_writeOut { machine with spaces } s p frame machine.spaces entry info
    (some entry) hcoherent.accounted.sound hd.segment_eq
  refine hmoves.yields.mono ?_
  rintro outcome middle ⟨writes, hsaved⟩
  have hspaces : middle.spaces = spaces := hsaved.spaces_eq
  have hunmapped : mapped? middle.spaces s p = none := hspaces ▸ hd.unmapped
  cases outcome with
  | error cause =>
    have hrefusals : ∀ standing, standing? middle.spaces s = some standing → standing.refusals = 0 := by
      intro standing hstanding
      rw [hspaces] at hstanding
      exact hcoherent.live.refusals s standing (hd.elsewhere.standing s ▸ hstanding)
    simp only [yields_bind, yields_pure]
    refine ((yields_restore hrefusals hunmapped).and
      (ensures_restore hp hnumber hrefusals hunmapped).yields).mono ?_
    rintro _ after ⟨hwritable, hr⟩
    obtain ⟨entry', hentry', hframe', hdirty'⟩ := hr.mapped
    have hinfo : info? after.spaces s p = some { info with evicting := false } := by
      rw [hr.info_eq, hspaces, hd.info_eq, Option.map_some]
    have hmemory : after.frames.memory = machine.frames.memory := by rw [hr.memory_eq, hsaved.frames_eq]
    refine ⟨(s, p), hsaved.disturbs hcoherent hd hnumber (hd.elsewhere.trans (hspaces ▸ hr.elsewhere))
      hr.swap_eq fun f k _ => by rw [hr.memory_eq], hp, hmapped, ?_, fun f k _ => by rw [hmemory], ?_, ?_⟩
    · rw [lasting?, lasting?, hentry', hentry, Option.map_some, Option.map_some, PageTableEntry.lasting,
        PageTableEntry.lasting, hframe', hdirty', hwritable entry' hentry']
    · rw [hd.segment_eq, segment?, hinfo]
      rfl
    · rw [copy?, hinfo]
      exact hd.copy_eq
  | ok copy =>
    simp only [yields_bind, yields_pure]
    refine (ensures_finish copy (Plan.ofEntry_ne_discard entry info)
      (hspaces ▸ hd.info_eq)).yields.mono fun _ after hr => ?_
    have he : Elsewhere machine.spaces after.spaces s p := by
      rw [hr.spaces_eq, hspaces]
      exact hd.elsewhere.trans elsewhere_amend
    refine ⟨(s, p), hsaved.disturbs hcoherent hd hnumber he hr.swap_eq fun f k hf => ?_, hp, hmapped, ?_,
      _, hr.info_eq hd hspaces, PageInfo.resident_saved _ copy⟩
    · rw [hr.memory_eq, FrameMemory.byte?_setPage hr.lt_size, if_neg (Ne.symm hf)]
    · rw [hr.spaces_eq, mapped?_amend]
      exact hunmapped

/-- A frame is made free, and one page at most makes way. -/
theorem makesWay_evict (h : machine.Settled) :
    Yields Kernel.evict machine fun outcome after => ∃ victim,
      machine.MakesWay (outcome.toOption.isSome = true) victim after := by
  simp only [Kernel.evict, holding_eq, yields_bind]
  refine ((disturbs_findSource h).and (ensures_findSource h).yields).mono ?_
  rintro outcome middle ⟨⟨hdisturbs, hfull⟩, hmiddle⟩
  cases outcome with
  | error cause => exact yields_pure.mpr ⟨none, hdisturbs.makesWay _⟩
  | ok source =>
    cases source with
    | pool frame => exact yields_pure.mpr ⟨none, hdisturbs.makesWay _⟩
    | page victim =>
      obtain ⟨looked, -, -, hchosen⟩ := hmiddle
      simp only [yields_bind]
      refine (disturbs_migrate hchosen).mono ?_
      rintro outcome after ⟨page, hpage, hfate⟩
      have htotal : machine.Disturbs [page] after := hdisturbs.trans hpage
      cases outcome with
      | error cause =>
        refine yields_pure.mpr ⟨some page, htotal, fun _ => hfull victim rfl, ?_⟩
        rintro _ ⟨⟩
        exact .inr ⟨Bool.false_ne_true, hfate.after hdisturbs⟩
      | ok u =>
        refine yields_pure.mpr ⟨some page, htotal, fun _ => hfull victim rfl, ?_⟩
        rintro _ ⟨⟩
        exact .inl (hfate.after hdisturbs)

/-! ### Frames for pages -/

/-- A free frame is taken, and nothing but the records and the pool has changed. -/
theorem touches_allocFree (page : Option Nat) :
    Yields (allocFree s page) machine fun _ after => ∀ frame, machine.Touches frame after := by
  simp only [allocFree, yields_bind, yields_frames, yields_ofExcept, yields_setFrames, yields_pure]
  rintro ⟨found, table⟩ htable frame
  refine ⟨rfl, rfl, fun f k _ => ?_⟩
  show table.memory.byte? f k = _
  rw [FrameTable.memory_allocFree htable]

/-- To record a frame fills none. -/
theorem touches_record (page : Option Nat) :
    Yields (record frame s page) machine fun _ after => machine.Touches frame after := by
  simp only [record, yields_bind, yields_frames, yields_ofExcept, yields_setFrames]
  refine fun table htable => ⟨rfl, rfl, fun f k _ => ?_⟩
  show table.memory.byte? f k = _
  rw [FrameTable.memory_insert htable]

/-- To unpin a frame fills none. -/
theorem touches_unpin : Yields (Kernel.unpin frame) machine fun _ after => machine.Touches frame after := by
  simp only [Kernel.unpin, holding_eq, lift_eq, unpin, yields_bind, yields_frames, yields_ofExcept,
    yields_setFrames]
  refine fun table htable => ⟨rfl, rfl, fun f k _ => ?_⟩
  show table.memory.byte? f k = _
  rw [FrameTable.memory_unpin htable]

/-- To give a frame back fills none. -/
theorem touches_free : Yields (Kernel.free frame) machine fun _ after => machine.Touches frame after := by
  simp only [Kernel.free, holding_eq, lift_eq, free, yields_bind, yields_frames]
  cases machine.frames.position? frame with
  | none => exact yields_notify.mpr ⟨rfl, rfl, fun _ _ _ => rfl⟩
  | some index =>
    simp only [yields_bind, yields_ofExcept, yields_setFrames]
    refine fun table htable => ⟨rfl, rfl, fun f k _ => ?_⟩
    show table.memory.byte? f k = _
    rw [FrameTable.memory_free htable]

/-- A frame that is handed over may be cleared. -/
theorem touches_handOver (page : Option Nat) (zeroed clean : Bool) :
    Yields (Kernel.handOver s page zeroed clean frame) machine fun _ after =>
      machine.Touches frame after := by
  unfold Kernel.handOver
  simp only [holding_eq, lift_eq]
  refine yields_ite (fun _ => Ensures.yields ?_) fun _ => ?_
  · simp only [ensures_bind, ensures_zero, ensures_space, ensures_notify]
    refine fun content hcontent _ _ => ⟨rfl, rfl, fun f k hf => ?_⟩
    rw [FrameMemory.byte?_setPage (FrameMemory.lt_size_of_page hcontent), if_neg (Ne.symm hf)]
  · simp only [yields_bind, yields_space, yields_notify]
    exact fun _ _ => ⟨rfl, rfl, fun _ _ _ => rfl⟩

/-- A frame is handed out for a page, and one page at most makes way. -/
theorem makesWay_allocateFor (h : machine.Settled) (zeroed : Bool) :
    Yields (Kernel.allocateFor s p zeroed) machine fun outcome after => ∃ victim,
      machine.MakesWay (outcome.toOption.isSome = true) victim after := by
  simp only [Kernel.allocateFor, Kernel.allocateRecord, holding_eq, lift_eq, yields_bind]
  have hlooked : Yields (allocFree s (some p)) machine fun found middle =>
      found = none → middle = machine :=
    fun _ _ hrun => ((finishes_allocFree h).answers.of_ok hrun).1
  refine ((hlooked.and (ensures_allocFree h).yields).and (touches_allocFree (some p))).mono ?_
  rintro found middle ⟨⟨hnone, -, hmiddle⟩, htouches⟩
  cases found with
  | some frame =>
    simp only [yields_bind, yields_pure]
    refine (touches_handOver (some p) zeroed false).mono fun _ after hover => ⟨none, ?_⟩
    refine (((htouches frame).trans hover).disturbs fun s' p' hp => ?_).makesWay _
    rw [← (htouches frame).spaces_eq]
    exact hmiddle.frame?_ne hp
  | none =>
    obtain rfl := hnone rfl
    simp only [yields_bind]
    refine ((makesWay_evict h).and (ensures_evict h).yields).mono ?_
    rintro outcome evicted ⟨⟨victim, hway⟩, -, hcoherent⟩
    cases outcome with
    | error cause => exact yields_pure.mpr ⟨victim, hway⟩
    | ok result =>
      obtain ⟨frame, clean⟩ := result
      simp only [yields_bind, yields_pure]
      refine ((touches_record (some p)).and
        (ensures_record (s := s) (p := p) hcoherent.1).yields).mono ?_
      rintro _ recorded ⟨hrecord, -, -, hreserved⟩
      refine (touches_handOver (some p) zeroed clean).mono fun _ after hover => ⟨victim, ?_⟩
      refine hway.trans ((hrecord.trans hover).disturbs fun s' p' hp => ?_)
      rw [← hrecord.spaces_eq]
      exact hreserved.frame?_ne hp

end Transition

end DemandPaging
