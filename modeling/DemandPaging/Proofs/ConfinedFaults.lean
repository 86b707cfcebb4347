import DemandPaging.Proofs.Disturbances
import DemandPaging.Proofs.FramesInFlight
import DemandPaging.Proofs.MarkedFaults

/-!
# Confined faults

A fault on a page that is not mapped touches that page and one other at most. Whoever brings a page in gets a
frame for it first, and one page may have to make way (`makesWay_allocateFor`). Until the page is mapped only
that frame is filled, which no page is mapped to; so whatever fails on the way, nothing else has changed
(`Machine.Admits`, and `admits_resolveFault` for the whole fault). Between the calls of a run this leaves the
tables as they should be, and `Run.resolveFault_confined` says what has become of the page and of the victim.
-/

set_option autoImplicit false

namespace DemandPaging

open Spaces Machine

section

variable {m m' m'' : Machine} {s : SpaceId} {p : Nat} {victim : Option (SpaceId × Nat)}

/-- What was done to bring a page in: one page at most made way, and then the page itself was brought in, or
nothing else was disturbed. -/
def Machine.Admits {ε : Type} (s : SpaceId) (p : Nat) (before : Machine) (outcome : Except ε Unit)
    (after : Machine) : Prop :=
  ∃ victim, match outcome with
    | .ok () => ∃ middle, before.MakesWay True victim middle ∧ middle.Disturbs [(s, p)] after
    | .error _ => before.MakesWay False victim after

/-- A page that is refused at once disturbs nobody. -/
theorem Machine.Admits.refl {ε : Type} (m : Machine) (cause : ε) : m.Admits s p (.error cause) m :=
  ⟨none, (Disturbs.refl m).makesWay False⟩

/-- What the refusal says does not matter. -/
theorem Machine.Admits.error {ε ε' : Type} {cause : ε} (h : m.Admits s p (.error cause) m') (cause' : ε') :
    m.Admits s p (.error cause') m' := h

end

namespace Transition

variable {machine : Machine} {s : SpaceId} {p frame : Nat}

/-! ### The parts of a load -/

/-- To read a slot fills only the frame that it is read into. -/
theorem touches_readSlot (slot : Nat) :
    Yields (Kernel.readSlot slot frame) machine fun _ after => machine.Touches frame after := by
  refine (ensures_readSlot slot frame).yields.mono ?_
  rintro _ _ ⟨device, memory, notices, rfl, hdisk, -, hmemory, -⟩
  exact ⟨rfl, hdisk, hmemory⟩

/-- To read a window fills only the frame that it is read into. -/
theorem touches_readIn (segment : Segment) :
    Yields (Kernel.readIn frame segment) machine fun _ after => machine.Touches frame after := by
  refine (ensures_readIn machine.spaces frame segment).yields.mono ?_
  rintro _ _ ⟨files, memory, rfl, -, -, hmemory, -⟩
  exact ⟨rfl, rfl, hmemory⟩

/-- To say something fills no frame. -/
theorem touches_notify (frame : Nat) (notice : Notice) :
    Yields (notify notice) machine fun _ after => machine.Touches frame after :=
  yields_notify.mpr ⟨rfl, rfl, fun _ _ _ => rfl⟩

/-- A page that is not mapped is mapped to the frame. -/
theorem brings_install (hp : IsAligned p) (hunmapped : mapped? machine.spaces s p = none)
    (hrefusals : ∀ standing, standing? machine.spaces s = some standing → standing.refusals = 0)
    (writable : Bool) :
    Yields (install s p frame writable) machine fun done after =>
      done = true ∧ machine.Brings s p frame after := by
  refine (ensures_install_unmapped hrefusals hunmapped fun entry hlt _ => ?_).yields
  exact ⟨rfl, elsewhere_map hp hlt, rfl, fun _ _ _ => rfl⟩

/-- The entry of a page that came from swap is brought up to date, and its slot is free. -/
theorem brings_settleSwapIn (hp : IsAligned p) (frame : Nat) (copy : SwapCopy) (fileBacked : Bool) :
    Yields (settleSwapIn s p copy fileBacked) machine fun _ after => machine.Brings s p frame after := by
  refine yields_settleSwapIn.mono ?_
  rintro _ _ ⟨made, slots, hmoved, rfl⟩
  cases fileBacked with
  | false => exact ⟨hmoved.elsewhere, rfl, fun _ _ _ => rfl⟩
  | true => exact ⟨hmoved.elsewhere.trans (elsewhere_mark hp), rfl, fun _ _ _ => rfl⟩

/-- A frame for a page that is not mapped: one page at most has made way, and no page is mapped to the frame
yet. -/
theorem makesWay_reserved (h : machine.Settled) (hp : IsAligned p)
    (hunmapped : mapped? machine.spaces s p = none) (zeroed : Bool) :
    Yields (Kernel.allocateFor s p zeroed) machine fun outcome after => ∃ victim,
      match outcome with
      | .error _ => machine.MakesWay False victim after
      | .ok frame => machine.MakesWay True victim after ∧ mapped? after.spaces s p = none ∧
        (∀ s' p', IsAligned p' → frame? after.spaces s' p' ≠ some frame) ∧
        ∀ standing, standing? after.spaces s = some standing → standing.refusals = 0 := by
  refine ((makesWay_allocateFor h zeroed).and (ensures_allocateFor h s p zeroed).yields).mono ?_
  rintro outcome after ⟨⟨victim, hway⟩, hpaging, hreserved⟩
  refine ⟨victim, ?_⟩
  cases outcome with
  | error cause => exact hway.mono False.elim
  | ok frame =>
    obtain ⟨front, rear, -, hcoherent⟩ := id hreserved.1
    exact ⟨hway.mono fun _ => rfl, (hpaging.absent s p hp hunmapped).1,
      fun _ _ hp' => hreserved.1.frame?_ne hp', hcoherent.live.refusals s⟩

/-- The page that a frame was for is in, and the frame is open to evictions. -/
theorem admits_arrived {ε : Type} {before reserved : Machine} {victim : Option (SpaceId × Nat)}
    {notice : AddressSpace → Notice} (hway : before.MakesWay True victim reserved)
    (hfree : ∀ s' p', IsAligned p' → frame? reserved.spaces s' p' ≠ some frame)
    (hbrings : reserved.Brings s p frame machine) :
    Yields (do
      Kernel.unpin frame
      let space ← Transition.space s
      notify (notice space)
      pure (.ok ())) machine fun (outcome : Except ε Unit) after =>
        before.Admits s p outcome after := by
  simp only [yields_bind]
  refine touches_unpin.mono fun _ unpinned hunpinned => ?_
  rw [yields_space]
  intro _ _
  refine (touches_notify frame _).mono fun _ after hsaid => yields_pure.mpr ?_
  exact ⟨victim, reserved, hway, (hbrings.trans (hunpinned.trans hsaid).brings).disturbs hfree⟩

/-- The frame goes back to the pool, and nothing but the victim was disturbed. -/
theorem admits_returned {ε : Type} {before reserved : Machine} {victim : Option (SpaceId × Nat)} {cause : ε}
    (hway : before.MakesWay True victim reserved)
    (hfree : ∀ s' p', IsAligned p' → frame? reserved.spaces s' p' ≠ some frame)
    (htouches : reserved.Touches frame machine) :
    Yields (do
      Kernel.free frame
      pure (.error cause)) machine fun outcome after => before.Admits s p outcome after := by
  simp only [yields_bind, yields_pure]
  refine touches_free.mono fun _ after hfreed => ⟨victim, ?_⟩
  exact (hway.trans ((htouches.trans hfreed).disturbs hfree)).mono False.elim

/-! ### Loads -/

/-- A page is brought in from swap, or nothing but the victim is disturbed. -/
theorem admits_loadFromSwap (h : machine.Settled) (hp : IsAligned p)
    (hunmapped : mapped? machine.spaces s p = none) (copy : SwapCopy) (fileBacked : Bool) (address : Nat) :
    Yields (Kernel.loadFromSwap s p copy fileBacked address) machine (machine.Admits s p) := by
  simp only [Kernel.loadFromSwap, holding_eq, lift_eq, yields_bind]
  refine (makesWay_reserved h hp hunmapped false).mono ?_
  rintro outcome reserved ⟨victim, hreserved⟩
  cases outcome with
  | error cause => exact yields_pure.mpr ⟨victim, hreserved⟩
  | ok frame =>
    obtain ⟨hway, habsent, hfree, hrefusals⟩ := hreserved
    simp only [yields_bind]
    refine (touches_readSlot copy.slot).mono fun outcome filled hfilled => ?_
    cases outcome with
    | error cause => exact admits_returned hway hfree hfilled
    | ok u =>
      simp only [yields_bind]
      refine (brings_install hp (hfilled.spaces_eq ▸ habsent) (hfilled.spaces_eq ▸ hrefusals)
        copy.writable).mono ?_
      rintro done installed ⟨rfl, hinstalled⟩
      rw [if_pos rfl]
      rw [yields_bind]
      refine (brings_settleSwapIn hp frame copy fileBacked).mono fun _ settled hsettled => ?_
      exact admits_arrived hway hfree (hfilled.brings.trans (hinstalled.trans hsettled))

/-- A page is brought in from its file, or nothing but the victim is disturbed. -/
theorem admits_loadFromFile (h : machine.Settled) (hp : IsAligned p)
    (hunmapped : mapped? machine.spaces s p = none) (segment : Segment) (address : Nat) :
    Yields (Kernel.loadFromFile s p segment address) machine (machine.Admits s p) := by
  simp only [Kernel.loadFromFile, holding_eq, lift_eq, yields_bind]
  refine (makesWay_reserved h hp hunmapped false).mono ?_
  rintro outcome reserved ⟨victim, hreserved⟩
  cases outcome with
  | error cause => exact yields_pure.mpr ⟨victim, hreserved⟩
  | ok frame =>
    obtain ⟨hway, habsent, hfree, hrefusals⟩ := hreserved
    simp only [yields_bind]
    refine (touches_readIn segment).mono fun outcome filled hfilled => ?_
    refine yields_ite (fun _ => ?_) (fun _ => ?_)
    · -- the file gave too little
      rw [yields_bind, yields_space]
      intro _ _
      rw [yields_bind]
      refine (touches_notify frame _).mono fun _ said hsaid => ?_
      exact admits_returned hway hfree (hfilled.trans hsaid)
    · simp only [yields_bind]
      refine (brings_install hp (hfilled.spaces_eq ▸ habsent) (hfilled.spaces_eq ▸ hrefusals)
        segment.writable).mono ?_
      rintro done installed ⟨rfl, hinstalled⟩
      rw [if_pos rfl]
      rw [yields_bind, yields_modifyInfo]
      have hresident : installed.Brings s p frame { installed with
          spaces := amend installed.spaces s p ({ · with resident := true }) } :=
        ⟨elsewhere_amend, rfl, fun _ _ _ => rfl⟩
      exact admits_arrived hway hfree (hfilled.brings.trans (hinstalled.trans hresident))

/-- A page is added to a stack, or nothing but the victim is disturbed. -/
theorem admits_addStackPage (h : machine.Settled) (hp : IsAligned p)
    (hunmapped : mapped? machine.spaces s p = none) :
    Yields (Kernel.addStackPage s p) machine (machine.Admits s p) := by
  simp only [Kernel.addStackPage, lift_eq, Kernel.supplement, holding_eq, yields_bind, yields_supplement]
  intro _ _
  refine yields_ite (fun _ => yields_pure.mpr (.refl _ _)) (fun _ => ?_)
  simp only [yields_bind, yields_findEntry]
  intro _ _
  refine yields_ite (fun _ => yields_pure.mpr (.refl _ _)) (fun _ => ?_)
  simp only [yields_bind]
  refine (makesWay_reserved h hp hunmapped true).mono ?_
  rintro outcome reserved ⟨victim, hreserved⟩
  cases outcome with
  | error cause => exact yields_pure.mpr ⟨victim, hreserved⟩
  | ok frame =>
    obtain ⟨hway, habsent, hfree, hrefusals⟩ := hreserved
    simp only [yields_bind]
    refine (brings_install hp habsent hrefusals true).mono ?_
    rintro done installed ⟨rfl, hinstalled⟩
    rw [if_pos rfl]
    exact admits_arrived hway hfree hinstalled

/-! ### Faults -/

/-- A fault on a page that is not mapped brings this page in and nothing else, whatever it takes. -/
theorem admits_resolveIn (h : machine.Settled) {address : Nat}
    (hunmapped : mapped? machine.spaces s (pageOf address) = none) (stackPointer rounds : Nat) :
    Yields (Kernel.resolveIn s address stackPointer rounds) machine
      (machine.Admits s (pageOf address)) := by
  have hp := isAligned_pageOf address
  have hrefused : ∀ cause : FaultError, Yields (pure (.error cause)) machine
      (machine.Admits s (pageOf address)) := fun cause => yields_pure.mpr (.refl machine cause)
  induction rounds with
  | zero => exact yields_throw.mpr trivial
  | succ rounds ih =>
    simp only [Kernel.resolveIn, Kernel.supplement, holding_eq, lift_eq, yields_bind, yields_supplement]
    intro space hspace
    refine yields_ite (fun _ => hrefused _) (fun _ => ?_)
    cases space.supplement.find? (pageOf address) with
    | none =>
      simp only [Kernel.faultWithoutInfo, lift_eq, yields_bind, yields_stackLimit]
      refine yields_ite (fun _ => ?_) (fun _ => hrefused _)
      simp only [yields_bind]
      refine (admits_addStackPage h hp hunmapped).mono fun outcome after hafter => ?_
      cases outcome with
      | ok u => exact yields_pure.mpr hafter
      | error cause => exact yields_pure.mpr (hafter.error _)
    | some info =>
      refine yields_ite (fun _ => ih) (fun _ => ?_)
      simp only [Kernel.faultWithInfo]
      refine yields_ite (fun _ => ?_) (fun _ => ?_)
      · simp only [yields_bind, yields_findEntry, hunmapped]
        exact fun _ _ => hrefused _
      · cases info.copy? with
        | some copy => exact admits_loadFromSwap h hp hunmapped copy info.segment?.isSome address
        | none =>
          cases info.segment? with
          | none => exact hrefused _
          | some segment => exact admits_loadFromFile h hp hunmapped segment address

/-- A fault on a page that is not mapped brings it in, or nothing but the victim is disturbed. -/
theorem admits_resolveFault (h : machine.Settled) {address : Nat}
    (hunmapped : mapped? machine.spaces s (pageOf address) = none) (stackPointer : Nat) (code : FaultCode) :
    Yields (Kernel.resolveFault s address stackPointer code) machine
      (machine.Admits s (pageOf address)) := by
  unfold Kernel.resolveFault
  refine yields_ite (fun _ => yields_pure.mpr (.refl machine _)) (fun _ => ?_)
  exact admits_resolveIn h hunmapped stackPointer faultRounds

end Transition

/-! ### What has become of the page -/

/-- A page is mapped, and its frame is recorded for it and is not pinned. -/
def Machine.Serves (s : SpaceId) (p : Nat) (machine : Machine) : Prop :=
  ∃ entry, mapped? machine.spaces s p = some entry ∧
    { frame := entry.frame.toNat, owner := s, page := some p } ∈ machine.frames.records ∧
    machine.frames.pool.isPinned entry.frame.toNat = false

/-- A page that was not mapped is not mapped, and nothing is kept in memory for it. -/
structure Machine.LeavesOut (s : SpaceId) (p : Nat) (before after : Machine) : Prop where
  unmapped : mapped? after.spaces s p = none
  /-- Its entry is as before. -/
  entry : info? after.spaces s p = info? before.spaces s p
  /-- Its slot is in use as before, with the same contents. -/
  slot : ∀ copy, copy? before.spaces s p = some copy → after.swap.slots.isUsed copy.slot = true ∧
    ∀ k, k < pageSize →
      after.swap.device.disk.slotByte copy.slot k = before.swap.device.disk.slotByte copy.slot k
  /-- Every frame that is out has a record of another page. -/
  frames : ∀ frame, after.frames.pool.isAllocated frame = true →
    ∃ record ∈ after.frames.records, record.frame = frame
  records : ∀ record ∈ after.frames.records, ¬ (record.owner = s ∧ record.page = some p)
  unpinned : ∀ frame, after.frames.pool.isPinned frame = false

section

variable {machine before after : Machine} {s : SpaceId} {p : Nat}

/-- No frame is pinned in a settled machine. -/
theorem Machine.Settled.unpinned (h : machine.Settled) (frame : Nat) :
    machine.frames.pool.isPinned frame = false := by
  rw [Bool.eq_false_iff, ne_eq, h.pool.isPinned_iff]
  exact List.not_mem_nil

/-- Between calls every mapped page is served. -/
theorem Machine.Settled.serves (h : machine.Settled) (hp : IsAligned p)
    (hmapped : (mapped? machine.spaces s p).isSome = true) : machine.Serves s p := by
  obtain ⟨entry, hentry⟩ := Option.isSome_iff_exists.mp hmapped
  have hframe : frame? machine.spaces s p = some entry.frame.toNat := by
    rw [frame?, hentry, Option.map_some]
  exact ⟨entry, hentry, h.tracked.mem_of_frame? hp hframe, h.unpinned _⟩

/-- Between calls nothing is kept in memory for a page that is not mapped. -/
theorem Machine.Settled.leavesOut (h : after.Settled) {pages : List (SpaceId × Nat)} (hp : IsAligned p)
    (hunmapped : mapped? before.spaces s p = none) (hdisturbs : before.Disturbs pages after)
    (hnot : (s, p) ∉ pages) : before.LeavesOut s p after := by
  have hunmapped' : mapped? after.spaces s p = none := (hdisturbs.unmapped_iff hp hnot).mpr hunmapped
  refine ⟨hunmapped', hdisturbs.info s p hnot, fun copy hcopy => ⟨?_, fun k hk => ?_⟩, fun frame hout => ?_, ?_,
    h.unpinned⟩
  · exact h.accounted.isUsed ((hdisturbs.copy hnot).trans hcopy)
  · exact hdisturbs.parked s p copy k hnot hcopy hk
  · have hmem := (h.pool.isAllocated_iff frame).mp hout
    rw [List.append_nil, List.append_nil] at hmem
    exact List.mem_map.mp hmem
  · rintro record hrecord ⟨rfl, hpage⟩
    obtain ⟨p', hpage', -, hframe⟩ := (h.tracked.mem_iff record).mp hrecord
    obtain rfl := Option.some.inj (hpage'.symm.trans hpage)
    rw [frame?, hunmapped'] at hframe
    cases hframe

end

section

variable {start machine after : Machine} {moments : List Moment} {s : SpaceId} {address : Nat}
  {outcome : Except FaultError Unit}

/-- After any run, a fault on a page that is not mapped touches that page and at most one victim, which there is
only if all frames are out. If the fault is resolved, the page is served and the victim is moved out; if not,
nothing is kept in memory for the page, and the victim is moved out or back where it was. All other pages keep
their mappings, entries and contents. -/
theorem Run.resolveFault_confined (hfresh : start.Fresh) (hrun : Run start moments machine)
    (hunmapped : mapped? machine.spaces s (pageOf address) = none) (stackPointer : Nat) (code : FaultCode)
    (hfault : (Kernel.resolveFault s address stackPointer code : Transition _) machine = .ok outcome after) :
    ∃ victim : Option (SpaceId × Nat),
      (victim.isSome = true → machine.frames.allocated = machine.frames.capacity) ∧
      match outcome with
      | .ok () => after.Serves s (pageOf address) ∧
        machine.Disturbs ((s, pageOf address) :: victim.toList) after ∧
        ∀ page, victim = some page → machine.PagesOut page after
      | .error _ => machine.LeavesOut s (pageOf address) after ∧ machine.Disturbs victim.toList after ∧
        ∀ page, victim = some page → machine.PagesOut page after ∨ machine.PutsBack page after := by
  have h : machine.Settled := (hrun.orderly hfresh.orderly).settled
  have hp := isAligned_pageOf address
  obtain ⟨hserviced, hmapped⟩ :=
    (Transition.ensures_resolveFault h s address stackPointer code).of_ok hfault
  have hsettled : after.Settled := hserviced.settled
  obtain ⟨victim, hadmits⟩ := Transition.admits_resolveFault h hunmapped stackPointer code _ _ hfault
  have hpage : ∀ page ∈ [(s, pageOf address)], mapped? machine.spaces page.1 page.2 = none := by
    intro page hmem
    obtain rfl := List.mem_singleton.mp hmem
    exact hunmapped
  cases outcome with
  | ok u =>
    obtain ⟨middle, hway, hbrought⟩ := hadmits
    refine ⟨victim, hway.full, hsettled.serves hp (hmapped rfl), ?_, fun page hvictim => ?_⟩
    · refine (hway.disturbs.trans hbrought).mono fun page hmem => ?_
      rw [List.mem_append, List.mem_singleton] at hmem
      exact List.mem_cons.mpr hmem.symm
    · exact (hway.fate_trans hbrought hpage page hvictim).resolve_right fun hback => hback.1 trivial
  | error cause =>
    have hnot : (s, pageOf address) ∉ victim.toList := fun hmem =>
      hadmits.not_mem hpage _ (Option.mem_toList.mp hmem) (List.mem_singleton.mpr rfl)
    exact ⟨victim, hadmits.full, hsettled.leavesOut hp hunmapped hadmits.disturbs hnot,
      hadmits.disturbs, fun page hvictim => (hadmits.fate page hvictim).imp_right And.right⟩

/-- A stack of two pages in one frame: to bring the one in swap back, the other one is moved out. -/
theorem resolveFault_confined_sample : ∃ moments machine after, Run .sample moments machine ∧
    mapped? machine.spaces 0 0x7ffff000 = none ∧ machine.frames.allocated = machine.frames.capacity ∧
    (Kernel.resolveFault 0 0x7ffff010 0 (.notPresent false) : Transition _) machine = .ok (.ok ()) after ∧
    after.Serves 0 0x7ffff000 ∧ machine.Disturbs [(0, 0x7ffff000), (0, 0x7fffe000)] after ∧
    machine.PagesOut (0, 0x7fffe000) after := by
  obtain ⟨moments, machine, hrun, -, hfacts⟩ := @exists_run .sample
    [.addSpace 1, .call (.growStack 0 0x7ffff000), .call (.growStack 0 0x7fffe000)]
    (fun r => decide (mapped? r.2.spaces 0 0x7ffff000 = none ∧ (mapped? r.2.spaces 0 0x7fffe000).isSome = true) &&
      (Kernel.resolveFault 0 0x7ffff010 0 (.notPresent false) : Transition _).check r.2 fun outcome after =>
        decide (outcome = .ok () ∧ mapped? after.spaces 0 0x7fffe000 = none)) (by decide +kernel)
  obtain ⟨hpages, hfault⟩ := (Bool.and_eq_true _ _).mp hfacts
  obtain ⟨hunmapped, hother⟩ := of_decide_eq_true hpages
  obtain ⟨outcome, after, hfault, hfacts⟩ := Transition.exists_of_check hfault
  obtain ⟨rfl, haway⟩ := of_decide_eq_true hfacts
  obtain ⟨victim, hfull, hserves, hdisturbs, hout⟩ :=
    @Run.resolveFault_confined .sample machine after moments 0 0x7ffff010 _ Machine.fresh_sample hrun
      hunmapped 0 _ hfault
  -- the other page was unmapped, so it is the victim
  have hmem : (0, 0x7fffe000) ∈ ((0, 0x7ffff000) :: victim.toList : List (SpaceId × Nat)) := by
    by_contra hnot
    rw [(hdisturbs.unmapped_iff (by decide) hnot).mp haway] at hother
    cases hother
  have hvictim : victim = some (0, 0x7fffe000) := by
    simpa using hmem
  subst hvictim
  exact ⟨moments, machine, after, hrun, hunmapped, hfull rfl, hfault, hserves, hdisturbs, hout _ rfl⟩

end

end DemandPaging
