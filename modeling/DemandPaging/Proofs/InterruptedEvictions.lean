import DemandPaging.Proofs.Interleavings
import DemandPaging.Proofs.Residency
import DemandPaging.Proofs.SwapSlots

/-!
# Evictions among others

Once an eviction has taken its victim out of the table and unmapped its page, other work may come in
before and while the page is written out, and before the eviction ends (`Kernel.conclude`). The
owner of the page may be torn down meanwhile. `InFlight` is what holds at every such point: the
machine is in order but for what the eviction has on its way, and the page is still wanted, or its
space is gone. Permitted actions of others keep it (`InFlight.run`), and so does each transition of
the eviction.

If the contents could be moved, the machine is as after any eviction. If they could not, the
eviction puts the page back, and it does so whether the page is wanted or not; a space that was torn
down is left with that page mapped, and with its record (`Stranded`).
-/

set_option autoImplicit false

namespace DemandPaging

open Spaces Machine

/-- What is left of an eviction once its victim is detached. -/
def Kernel.conclude {m : Type → Type} [Kernel m] (transit : Transit) : m (Except VmError Unit) := do
  match ← Kernel.writeOut transit with
  | .error cause => do
    Kernel.holding (.supplement transit.owner)
      (Kernel.holding .frames (Transition.restore transit))
    pure (.error cause)
  | .ok copy => do
    Kernel.holding (.contents transit.frame)
      (Kernel.holding (.supplement transit.owner) (Transition.finish transit copy))
    pure (.ok ())

/-- To move a victim out is to detach it and to do the rest. -/
theorem Kernel.migrate_eq {m : Type → Type} [Kernel m] (victim : FrameRecord) :
    (Kernel.migrate victim : m (Except VmError Unit)) =
      Kernel.holding (.supplement victim.owner) (Kernel.atomically (Transition.detach victim)) >>=
        Kernel.conclude :=
  rfl

/-- The record that the victim had. -/
def Transit.record (transit : Transit) : FrameRecord :=
  { frame := transit.frame, owner := transit.owner, page := some transit.page }

/-! ### What is in flight -/

/-- The victim is on its way, with the slots that were claimed for it: its page is still wanted, or
its space has been torn down. -/
inductive InFlight (transit : Transit) (slots : List Nat) (machine : Machine) : Prop where
  /-- The page is wanted. -/
  | wanted (h : machine.OrderlyBut
      { page := some (transit.owner, transit.page), frames := [transit.frame], slots })
  /-- Its space is gone. -/
  | gone (h : machine.OrderlyBut { frames := [transit.frame], slots })
      (htorn : TornDown machine.spaces transit.owner)

section

variable {transit : Transit} {slots : List Nat} {slot : Nat} {bitmap : SlotBitmap}
  {m m' : Machine} {moments : List Moment} {action : Action} {reply : Reply}

/-- What others do keeps a victim in flight. -/
theorem InFlight.step (h : InFlight transit slots m) (hpermitted : action.Permitted m)
    (hstep : action.step m = .ok reply m') : InFlight transit slots m' := by
  cases h with
  | wanted h =>
    obtain ⟨horderly, hmoves⟩ := (Transition.ensures_step h action hpermitted).of_ok hstep
    by_cases haction : action = .call (.destroy transit.owner)
    · subst haction
      refine .gone ?_ hmoves.torn
      simpa [Away.after, Away.without, Option.filter] using horderly
    · rw [Away.after_eq_self] at horderly
      · exact .wanted horderly
      · rintro s p ⟨⟩
        exact haction
  | gone h htorn =>
    obtain ⟨horderly, hmoves⟩ := (Transition.ensures_step h action hpermitted).of_ok hstep
    have hkeep : ({ frames := [transit.frame], slots } : Away).after action = _ :=
      Away.after_eq_self fun _ _ hpage => by cases hpage
    exact .gone (hkeep ▸ horderly) (hmoves.tornDown htorn)

/-- A victim stays in flight over any run. -/
theorem InFlight.run (h : InFlight transit slots m) (hrun : Run m moments m') :
    InFlight transit slots m' := by
  induction hrun with
  | nil => exact h
  | snoc _ hpermitted hstep ih => exact ih.step hpermitted hstep

/-- The bitmap of the slots is sound, and the slots that were claimed are in use. -/
theorem InFlight.isUsed (h : InFlight transit slots m) :
    m.swap.slots.Sound ∧ ∀ slot ∈ slots, m.swap.slots.isUsed slot = true := by
  cases h with
  | wanted h | gone h =>
    exact ⟨h.settled.accounted.sound, fun slot hslot =>
      (h.settled.accounted.isUsed_iff slot).mpr (.inr hslot)⟩

/-- A change that leaves all in order but for the victim keeps it in flight. -/
theorem InFlight.map {slots' : List Nat} (h : InFlight transit slots m)
    (horderly : ∀ page, m.OrderlyBut { page, frames := [transit.frame], slots } →
      m'.OrderlyBut { page, frames := [transit.frame], slots := slots' })
    (htorn : TornDown m.spaces transit.owner → TornDown m'.spaces transit.owner) :
    InFlight transit slots' m' := by
  cases h with
  | wanted h => exact .wanted (horderly _ h)
  | gone h hgone => exact .gone (horderly _ h) (htorn hgone)

/-- The contents of frames, the disk and what was said do not matter. -/
theorem InFlight.congr (h : InFlight transit slots m) (hpool : m'.frames.pool = m.frames.pool)
    (hrecords : m'.frames.records = m.frames.records)
    (hsize : m'.frames.memory.size = m.frames.memory.size) (hspaces : m'.spaces = m.spaces)
    (hslots : m'.swap.slots = m.swap.slots) (hfiles : m'.files = m.files) :
    InFlight transit slots m' := by
  refine h.map ?_ fun htorn => hspaces ▸ htorn
  rintro page ⟨hsettled, hmapped, hbacked⟩
  refine ⟨?_, hspaces ▸ hmapped, ?_⟩
  · unfold SettledBut
    rw [hrecords]
    exact hsettled.congr hpool hsize hspaces hslots
  · rw [hspaces, hfiles]
    exact hbacked

/-- A free slot is claimed for the victim. -/
theorem InFlight.claim (h : InFlight transit slots m) (hsound : bitmap.Sound)
    (hfree : m.swap.slots.isUsed slot = false)
    (hused : ∀ x, bitmap.isUsed x = (m.swap.slots.isUsed x || decide (x = slot))) :
    InFlight transit (slot :: slots) { m with swap := { m.swap with slots := bitmap } } := by
  refine h.map ?_ id
  rintro page ⟨hsettled, hmapped, hbacked⟩
  have haccounted := hsettled.accounted.claim hsound hfree hused
  exact ⟨{ hsettled with accounted := haccounted }, hmapped, hbacked⟩

/-- The slot that was claimed for the victim is given back. -/
theorem InFlight.unclaim (h : InFlight transit [slot] m) (hsound : bitmap.Sound)
    (hused : ∀ x, bitmap.isUsed x = (m.swap.slots.isUsed x && decide (x ≠ slot))) :
    InFlight transit [] { m with swap := { m.swap with slots := bitmap } } := by
  refine h.map ?_ id
  rintro page ⟨hsettled, hmapped, hbacked⟩
  have haccounted := hsettled.accounted.unclaim List.not_mem_nil hsound hused
  exact ⟨{ hsettled with accounted := haccounted }, hmapped, hbacked⟩

end

/-! ### Other work -/

/-- Some permitted actions lead from one machine to the other. -/
def Happens (before after : Machine) : Prop := ∃ moments, Run before moments after

/-- Nothing at all may happen. -/
theorem happens_refl (machine : Machine) : Happens machine machine := ⟨[], .nil⟩

/-- What happens in two parts happens. -/
theorem happens_trans (a b c : Machine) : Happens a b → Happens b c → Happens a c := by
  rintro ⟨earlier, h⟩ ⟨later, h'⟩
  exact ⟨earlier ++ later, h.append h'⟩

/-- A victim stays in flight whatever happens. -/
theorem InFlight.happens {transit : Transit} {slots : List Nat} {m m' : Machine}
    (h : InFlight transit slots m) (hothers : Happens m m') : InFlight transit slots m' := by
  obtain ⟨moments, hrun⟩ := hothers
  exact h.run hrun

namespace Woven

variable {machine : Machine} {transit : Transit} {slots : List Nat}

/-- Writing a frame to a slot keeps the victim in flight, whatever comes of it. -/
theorem ensures_writeSlot (h : InFlight transit slots machine) (slot frame : Nat) :
    Ensures (Kernel.writeSlot slot frame : Woven Happens _) machine fun _ =>
      InFlight transit slots := by
  simp only [Kernel.writeSlot, Transition.requireFrame, Transition.requireUsed, lift_eq, holding_eq,
    ensures_bind, ensures_atomically, Transition.ensures_bind, Transition.ensures_page,
    Transition.ensures_swap, Transition.ensures_pure]
  intro met hmet _ _ met' hmet'
  have hmet'' := (h.happens hmet).happens hmet'
  refine Transition.ensures_ite (fun _ => ?_) (fun _ => rfl)
  rw [Transition.ensures_pure]
  refine Ensures.mono ((ensuring Happens).upToFailure_keeps (InFlight transit slots)
    (fun part before hbefore => ?_) _ hmet'') ?_
  · simp only [yields_ensuring, ensures_bind, ensures_atomically, Transition.ensures_swap]
    intro asked hasked
    have hasked' := hbefore.happens hasked
    cases asked.swap.refuseWrite? slot part with
    | some cause => exact ensures_pure.mpr hasked'
    | none =>
      simp only [ensures_bind, ensures_interrupt, ensures_atomically]
      intro interrupted hinterrupted written hwritten
      have hwritten' := (hasked'.happens hinterrupted).happens hwritten
      refine (Transition.ensures_writePart slot frame part).mono ?_
      rintro _ _ ⟨_, _, rfl, -⟩
      exact hwritten'.congr rfl rfl rfl rfl rfl rfl
  · intro outcome after hafter
    cases outcome with
    | error cause => exact ensures_pure.mpr hafter
    | ok u =>
      simp only [ensures_bind, ensures_atomically, Transition.ensures_notify, ensures_pure]
      intro said hsaid
      exact (hafter.happens hsaid).congr rfl rfl rfl rfl rfl rfl

/-- The victim gets a slot with its contents, or it goes on without one. -/
theorem ensures_swapOut (h : InFlight transit [] machine) (frame : Nat) :
    Ensures (Kernel.swapOut frame : Woven Happens _) machine fun outcome after =>
      match outcome with
      | .ok slot => InFlight transit [slot] after
      | .error _ => InFlight transit [] after := by
  simp only [Kernel.swapOut, lift_eq, ensures_bind, ensures_atomically]
  intro met hmet
  have hmet' := h.happens hmet
  refine Transition.ensures_allocateSlot hmet'.isUsed.1 ?_ fun slot slots hsound hfree hused => ?_
  · exact ensures_pure.mpr hmet'
  · simp only [ensures_bind]
    refine (ensures_writeSlot (hmet'.claim hsound hfree hused) slot frame).mono ?_
    intro outcome after hafter
    cases outcome with
    | ok u => exact ensures_pure.mpr hafter
    | error cause =>
      simp only [ensures_bind, ensures_atomically, ensures_pure]
      intro given hgiven
      have hgiven' := hafter.happens hgiven
      obtain ⟨hsound', hclaimed⟩ := hgiven'.isUsed
      refine Transition.ensures_releaseSlot hsound' (hclaimed slot List.mem_cons_self) ?_
      intro slots' hsound'' hused'
      exact hgiven'.unclaim hsound'' hused'

/-- A victim that is not written to a file gets a slot, needs none, or goes on without one. -/
theorem ensures_writeOut (h : InFlight transit [] machine)
    (hplan : ∀ segment, transit.plan ≠ .file segment) :
    Ensures (Kernel.writeOut transit : Woven Happens _) machine fun outcome after =>
      match outcome with
      | .ok copy => InFlight transit (copy.map (·.slot)).toList after
      | .error _ => InFlight transit [] after := by
  unfold Kernel.writeOut
  cases hplanned : transit.plan with
  | swap writable =>
    simp only [ensures_bind]
    refine (ensures_swapOut h transit.frame).mono fun outcome after hafter => ?_
    cases outcome <;> exact ensures_pure.mpr hafter
  | file segment => exact absurd hplanned (hplan segment)
  | keep | discard => exact ensures_pure.mpr h

end Woven

/-! ### The end of it -/

/-- What is known of a victim that does not belong to a mapped file. -/
structure Transit.IsPrivate (transit : Transit) : Prop where
  aligned : IsAligned transit.page
  user : pageSize ≤ transit.page ∧ IsUser transit.page
  entry : ∃ entry, transit.entry = some entry ∧ entry.frame.toNat = transit.frame
  wanted : transit.plan ≠ .discard
  plan : ∀ segment, transit.plan ≠ .file segment

section

variable {s : SpaceId} {p frame : Nat} {copy : Option SwapCopy} {entry : PageTableEntry}
  {m m' : Machine}

/-- The page was wanted and is saved: all is in order again, and the frame is loose. -/
theorem Machine.OrderlyBut.released
    (h : m.OrderlyBut
      { page := some (s, p), frames := [frame], slots := (copy.map (·.slot)).toList })
    (hr : Transition.Released m s p frame copy m') :
    Coherent {} m'.frames.records [frame] [] m' := by
  obtain ⟨info, hinfo, haligned, -, -, hunmapped, hcopy, hback⟩ :=
    h.settled.described.departs s p rfl
  have he : Elsewhere m.spaces m'.spaces s p := by
    rw [hr.spaces_eq]
    exact elsewhere_amend
  have hframe : frame? m'.spaces s p = none := by
    rw [frame?, hr.spaces_eq, mapped?_amend]
    exact hunmapped
  have hinfo' : info? m'.spaces s p = some (info.saved copy) := by
    rw [hr.spaces_eq, info?_amend, hinfo]
    simp
  have hnone : copy? m.spaces s p = none := by rw [copy?, hinfo, Option.bind_some, hcopy]
  have hcopy' : copy? m'.spaces s p = copy := by
    rw [copy?, hinfo', Option.bind_some]
    exact PageInfo.copy?_saved hcopy copy
  refine ⟨?_, ?_, ?_, ?_, ?_, ?_⟩
  · rw [hr.pool_eq, hr.records_eq]
    exact h.settled.pool
  · rw [hr.pool_eq, hr.memory_eq, FrameMemory.size_setPage, h.settled.capacity]
  · rw [hr.records_eq]
    exact h.settled.tracked.keep he (hframe.trans hunmapped.symm)
  · refine h.settled.described.arrive he fun i hi => ?_
    obtain rfl := Option.some.inj (hinfo'.symm.trans hi)
    refine fits_saved haligned hframe hcopy fun segment hsegment hwriteBack => ?_
    rw [hback segment hsegment] at hwriteBack
    cases hwriteBack
  · rw [hr.swap_eq]
    cases copy with
    | none => exact h.settled.accounted.keep he (hcopy'.trans hnone.symm)
    | some copy => exact h.settled.accounted.gain List.not_mem_nil he hnone hcopy'
  · exact h.settled.live.update he (h.settled.live.isLive_of_info? hinfo)

/-- The page was wanted and could not be saved: it is back where it was. -/
theorem Machine.OrderlyBut.restored (h : m.OrderlyBut { page := some (s, p), frames := [frame] })
    (huser : pageSize ≤ p ∧ IsUser p) (hframe : entry.frame.toNat = frame)
    (hr : Transition.Restored m s p frame entry m') : m'.Orderly := by
  obtain ⟨info, hinfo, haligned, -, hresident, hunmapped, hcopy, -⟩ :=
    h.settled.described.departs s p rfl
  have he := hr.elsewhere
  obtain ⟨entry', hentry', hframe', -⟩ := hr.mapped
  have hafter : frame? m'.spaces s p = some frame := by
    rw [frame?, hentry', Option.map_some, hframe', hframe]
  have hinfo' : info? m'.spaces s p = some { info with evicting := false } := by
    rw [hr.info_eq, hinfo, Option.map_some]
  have hsegment : ∀ s' p', segment? m'.spaces s' p' = segment? m.spaces s' p' := by
    intro s' p'
    by_cases hsp : s' = s ∧ p' = p
    · rw [hsp.1, hsp.2, segment?, segment?, hinfo', hinfo]
      rfl
    · exact he.segment hsp
  obtain ⟨hcapacity, -, haccounts⟩ := h.settled.pool.setPinned hr.unpinned
  refine ⟨⟨?_, ?_, ?_, ?_, ?_, ?_⟩, h.mapped.congr he.standing hsegment, fun s' p' segment hs => ?_⟩
  · refine haccounts.perm ?_ fun f => by simp
    rw [hr.records_eq]
    simp
  · rw [hcapacity, hr.memory_eq, h.settled.capacity]
  · refine h.settled.tracked.map he hunmapped hafter haligned huser fun r => ?_
    rw [hr.records_eq, List.mem_append, List.mem_singleton]
  · refine h.settled.described.arrive he fun i hi => ?_
    obtain rfl := Option.some.inj (hinfo'.symm.trans hi)
    exact fits_restored haligned hafter hresident hcopy
  · rw [hr.swap_eq]
    refine h.settled.accounted.keep he ?_
    rw [copy?, copy?, hinfo', hinfo]
    rfl
  · exact h.settled.live.update he (h.settled.live.isLive_of_info? hinfo)
  · rw [hsegment] at hs
    rw [hr.files_eq]
    exact h.backed s' p' segment hs

end

/-- The space of a victim was torn down, and then the victim was put back where it was: nothing else
is left of the space. -/
structure Stranded (victim : FrameRecord) (machine : Machine) : Prop where
  torn : TornDown machine.spaces victim.owner
  info : ∀ p, info? machine.spaces victim.owner p = none
  records : ∀ record,
    record ∈ machine.frames.records ∧ record.owner = victim.owner ↔ record = victim
  aligned : ∀ p, victim.page = some p → IsAligned p
  mapped : ∀ p, IsAligned p →
    ((mapped? machine.spaces victim.owner p).isSome = true ↔ victim.page = some p)
  accounted : Accounted [] machine.spaces machine.swap.slots

section

variable {transit : Transit} {entry : PageTableEntry} {m m' : Machine}

/-- The space of the victim was gone when the victim was put back. -/
theorem Machine.OrderlyBut.stranded (h : m.OrderlyBut { frames := [transit.frame] })
    (htorn : TornDown m.spaces transit.owner) (haligned : IsAligned transit.page)
    (hr : Transition.Restored m transit.owner transit.page transit.frame entry m') :
    Stranded transit.record m' := by
  have he := hr.elsewhere
  have hgone := h.settled.live.gone htorn
  obtain ⟨entry', hentry', -, -⟩ := hr.mapped
  have hinfo : ∀ p, info? m'.spaces transit.owner p = none := by
    intro p
    by_cases hp : p = transit.page
    · rw [hp, hr.info_eq, (hgone _).1, Option.map_none]
    · rw [he.info _ _ fun hsp => hp hsp.2, (hgone p).1]
  refine ⟨htorn.congr (he.standing _), hinfo, fun record => ?_, fun p hpage => ?_, fun p hp => ?_,
    ?_⟩
  · rw [hr.records_eq, List.mem_append, List.mem_singleton]
    constructor
    · rintro ⟨hmem | rfl, howner⟩
      · -- a record of the space would be of a mapped page
        obtain ⟨p, -, hp, hframe⟩ := (h.settled.tracked.mem_iff record).mp hmem
        have howner' : record.owner = transit.owner := howner
        rw [howner', (hgone p).2 hp] at hframe
        cases hframe
      · rfl
    · rintro rfl
      exact ⟨.inr rfl, rfl⟩
  · exact Option.some.inj hpage ▸ haligned
  · rw [Transit.record, Option.some.injEq, eq_comm]
    constructor
    · intro hsome
      by_contra hne
      have hnone := (hgone p).2 hp
      rw [frame?, Option.map_eq_none_iff] at hnone
      rw [he.mapped _ p hp fun hsp => hne hsp.2.symm, hnone] at hsome
      cases hsome
    · rintro rfl
      rw [hentry', Option.isSome_some]
  · rw [hr.swap_eq]
    refine h.settled.accounted.keep he ?_
    rw [copy?, copy?, hinfo, (hgone _).1]

end

namespace Transition

variable {machine : Machine} {transit : Transit}

/-- The contents of a victim are safe, but its page has no entry any more: the slot of the contents
is given back. -/
theorem ensures_finish_unwanted {copy : Option SwapCopy} (hplan : transit.plan ≠ .discard)
    (hinfo : info? machine.spaces transit.owner transit.page = none)
    (hsound : machine.swap.slots.Sound)
    (hused : ∀ slot ∈ (copy.map (·.slot)).toList, machine.swap.slots.isUsed slot = true) :
    Ensures (finish transit copy) machine fun _ after => ∃ memory slots notices,
      after = { machine with
        frames := { machine.frames with memory }, swap := { machine.swap with slots }, notices } ∧
      memory.size = machine.frames.memory.size ∧ slots.Sound ∧
      ∀ x, slots.isUsed x =
        (machine.swap.slots.isUsed x && decide (x ∉ (copy.map (·.slot)).toList)) := by
  simp only [finish, ensures_bind, ensures_zero]
  intro content hcontent
  rw [if_neg hplan]
  simp only [ensures_bind, ensures_supplement]
  intro space hspace
  rw [← info?_eq hspace, hinfo]
  cases copy with
  | none =>
    simp only [ensures_bind, ensures_space, ensures_notify]
    intro _ _
    exact ⟨_, _, _, rfl, FrameMemory.size_setPage, hsound, fun x => by simp⟩
  | some copy =>
    simp only [ensures_bind]
    refine ensures_releaseSlot hsound (hused copy.slot (by simp)) fun slots hsound' hused' => ?_
    simp only [ensures_space, ensures_notify]
    intro _ _
    exact ⟨_, slots, _, rfl, FrameMemory.size_setPage, hsound', fun x => by simp [hused']⟩

/-- The victim is saved, and its frame is loose. -/
theorem ensures_finished {copy : Option SwapCopy}
    (h : InFlight transit (copy.map (·.slot)).toList machine) (hplan : transit.plan ≠ .discard) :
    Ensures (finish transit copy) machine fun _ after =>
      Coherent {} after.frames.records [transit.frame] [] after := by
  obtain ⟨hsound, hused⟩ := h.isUsed
  cases h with
  | wanted h =>
    obtain ⟨info, hinfo, -⟩ := h.settled.described.departs _ _ rfl
    exact (ensures_finish copy hplan hinfo).mono fun _ after hr => h.released hr
  | gone h htorn =>
    have hinfo := (h.settled.live.gone htorn transit.page).1
    refine (ensures_finish_unwanted hplan hinfo hsound hused).mono ?_
    rintro _ _ ⟨memory, slots, notices, rfl, hsize, hsound', hused'⟩
    refine ⟨h.settled.pool, h.settled.capacity.trans hsize.symm, h.settled.tracked,
      h.settled.described, ?_, h.settled.live⟩
    cases copy with
    | none => exact h.settled.accounted.of_isUsed hsound' fun x => by simpa using hused' x
    | some copy =>
      exact h.settled.accounted.unclaim List.not_mem_nil hsound' fun x => by simpa using hused' x

/-- The victim is put back: it is where it was, or it is stranded. -/
theorem ensures_restored (h : InFlight transit [] machine) (hprivate : transit.IsPrivate) :
    Ensures (restore transit) machine fun _ after =>
      after.Orderly ∧ ¬ TornDown after.spaces transit.owner ∨ Stranded transit.record after := by
  obtain ⟨entry, hentry, hframe⟩ := hprivate.entry
  have hrestore : (∀ standing, standing? machine.spaces transit.owner = some standing →
      standing.refusals = 0) → frame? machine.spaces transit.owner transit.page = none →
      Ensures (restore transit) machine fun _ after =>
        Restored machine transit.owner transit.page transit.frame entry after := by
    intro hrefusals hunmapped
    rw [frame?, Option.map_eq_none_iff] at hunmapped
    obtain ⟨frame, owner, page, _, plan⟩ := transit
    obtain rfl : _ = some entry := hentry
    exact ensures_restore hprivate.aligned hframe hrefusals hunmapped
  cases h with
  | wanted h =>
    obtain ⟨info, hinfo, hdeparts⟩ := h.settled.described.departs _ _ rfl
    refine (hrestore (h.settled.live.refusals _) hdeparts.unmapped).mono fun _ after hr => .inl ?_
    have hlive := h.settled.live.isLive_of_info? hinfo
    refine ⟨h.restored hprivate.user hframe hr, fun htorn => hlive.not_tornDown ?_⟩
    exact htorn.congr (hr.elsewhere.standing _).symm
  | gone h htorn =>
    have hunmapped := (h.settled.live.gone htorn transit.page).2 hprivate.aligned
    exact (hrestore (h.settled.live.refusals _) hunmapped).mono fun _ after hr =>
      .inr (h.stranded htorn hprivate.aligned hr)

end Transition

namespace Woven

variable {machine : Machine} {transit : Transit}

/-- An eviction that others interrupt ends with its victim saved and the frame loose, or with the
victim where it was, or stranded; and it gives back nothing that is not out. -/
theorem ensures_conclude (h : InFlight transit [] machine) (hprivate : transit.IsPrivate) :
    Ensures (Kernel.conclude transit : Woven Happens _) machine fun outcome after =>
      match outcome with
      | .ok () => Coherent {} after.frames.records [transit.frame] [] after
      | .error _ => after.Orderly ∧ ¬ TornDown after.spaces transit.owner ∨
          Stranded transit.record after := by
  simp only [Kernel.conclude, lift_eq, holding_eq, ensures_bind]
  refine (ensures_writeOut h hprivate.plan).mono fun outcome after hafter => ?_
  cases outcome with
  | ok copy =>
    simp only [ensures_bind, ensures_atomically, ensures_pure]
    intro met hmet
    exact Transition.ensures_finished (hafter.happens hmet) hprivate.wanted
  | error cause =>
    simp only [ensures_bind, ensures_atomically, ensures_pure]
    intro met hmet
    exact Transition.ensures_restored (hafter.happens hmet) hprivate

end Woven

/-! ### The beginning of it -/

/-- A private page is not planned to be written to a file. -/
theorem Plan.ofEntry_ne_file {entry : PageTableEntry} {info : PageInfo}
    (h : ∀ segment, info.segment? = some segment → segment.writeBack = false) (segment : Segment) :
    Plan.ofEntry entry info ≠ .file segment := by
  unfold Plan.ofEntry
  cases hsegment : info.segment? with
  | none => simp
  | some other =>
    simp only [h other hsegment, Bool.false_and, Bool.false_eq_true, if_false]
    split <;> simp

section

variable {front rear : List FrameRecord} {spaces : Array AddressSpace} {s : SpaceId} {p frame : Nat}
  {entry : PageTableEntry} {info : PageInfo} {m : Machine}

/-- A private page that was detached is on its way. -/
theorem Coherent.detached (h : Coherent {} (front ++ ⟨frame, s, some p⟩ :: rear) [] [] m)
    (hd : Transition.Detached m.spaces s p entry info spaces) (hframe : entry.frame.toNat = frame)
    (hprivate : ∀ segment, info.segment? = some segment → segment.writeBack = false) :
    Coherent { page := some (s, p), frames := [frame] } (front ++ rear) [] []
      { m with spaces } := by
  have hbefore : frame? m.spaces s p = some frame := by
    rw [frame?, hd.mapped, Option.map_some, hframe]
  have hafter : frame? spaces s p = none := by rw [frame?, hd.unmapped, Option.map_none]
  refine ⟨?_, h.capacity, h.tracked.remove h.nodup hd.elsewhere hbefore hafter, ?_, ?_, ?_⟩
  · refine h.pool.perm ?_ fun _ => Iff.rfl
    simpa using FrameTable.perm_frames front rear ⟨frame, s, some p⟩
  · exact h.described.depart hd.elsewhere hd.info_eq
      ⟨hd.aligned, rfl, hd.resident, hafter, hd.copy_eq, hprivate⟩
  · refine h.accounted.keep hd.elsewhere ?_
    rw [h.described.copy?_eq_none hbefore, copy?, hd.info_eq, Option.bind_some]
    exact hd.copy_eq
  · exact h.live.update hd.elsewhere (h.live.isLive_of_frame? hd.aligned hbefore)

end

section

variable {start before chosen detached final : Machine} {moments : List Moment}
  {victim : FrameRecord} {transit : Transit}

/-- The victim is in flight once it was taken and detached. -/
theorem inFlight_of_detach (ho : before.Orderly)
    (hfind : (Kernel.findSource : Transition _) before = .ok (.ok (.page victim)) chosen)
    (hdetach : Transition.detach victim chosen = .ok transit detached)
    (hprivate : ∀ p segment, victim.page = some p →
      segment? before.spaces victim.owner p = some segment → segment.writeBack = false) :
    victim = transit.record ∧
      InFlight transit [] detached ∧ transit.IsPrivate := by
  obtain ⟨middle, hlooked, -, hchosen⟩ := (Transition.ensures_findSource ho.settled).of_ok hfind
  obtain ⟨_, -, hadvance⟩ := (hlooked.trans hchosen.paging).advance
  obtain ⟨frame, s, p, entry, rfl, hp, hentry, hframe⟩ := hchosen.page
  obtain ⟨⟨front, rear, hsplit, hrecords⟩, -, hcoherent, -⟩ := hchosen
  rw [hsplit] at hcoherent
  obtain ⟨info, spaces, rfl, rfl, hd⟩ :=
    (Transition.ensures_detach hcoherent.described hcoherent.live hp hentry).of_ok hdetach
  have hinfo : ∀ segment, info.segment? = some segment → segment.writeBack = false := by
    intro segment hsegment
    refine hprivate p segment rfl ?_
    rw [← hadvance.segment, hd.segment_eq, hsegment]
  have hsegment : ∀ s' p', segment? spaces s' p' = segment? before.spaces s' p' := by
    intro s' p'
    rw [← hadvance.segment]
    by_cases hsp : s' = s ∧ p' = p
    · rw [hsp.1, hsp.2, hd.segment_eq, segment?, hd.info_eq]
      rfl
    · exact hd.elsewhere.segment hsp
  have hmapped : frame? chosen.spaces s p = some frame := by
    rw [frame?, hentry, Option.map_some, hframe]
  refine ⟨rfl, .wanted ⟨?_, ?_, fun s' p' segment hs => ?_⟩, ?_⟩
  · unfold SettledBut
    rw [hrecords]
    exact hcoherent.detached hd hframe hinfo
  · have hstanding := fun s' => (hd.elsewhere.standing s').trans (hadvance.standing s')
    exact ho.mapped.congr hstanding hsegment
  · rw [hadvance.files.size_eq]
    exact ho.backed s' p' segment ((hsegment s' p').symm.trans hs)
  · exact ⟨hp, hcoherent.tracked.user s p hp (by rw [hmapped]; rfl), ⟨entry, rfl, hframe⟩,
      Plan.ofEntry_ne_discard entry info, Plan.ofEntry_ne_file hinfo⟩

end

/-! ### Evictions as a whole -/

/-- What an eviction may result in that takes `victim` out of the table and unmaps its page in one
step, and that others interrupt from then on. -/
def Ousts (before : Machine) (victim : FrameRecord)
    (result : EStateM.Result Halt Machine (Except VmError Unit)) : Prop :=
  ∃ chosen transit detached,
    (Kernel.findSource : Transition _) before = .ok (.ok (.page victim)) chosen ∧
    Transition.detach victim chosen = .ok transit detached ∧
    (Kernel.conclude transit : Woven Happens _) detached result

namespace Admission

variable {m : Type → Type} [Kernel m] (A : Admission m)

/-- A frame may be written to its slot without interruption. -/
theorem writeSlot (slot frame : Nat) :
    A.Admits (Kernel.writeSlot slot frame) (Kernel.writeSlot slot frame) := by
  refine A.bind (A.atomically _) fun _ => A.holding (A.bind (A.atomically _) fun _ => A.holding ?_)
  refine A.bind (A.upToFailure (fun part => ?_) _) fun outcome => ?_
  · refine A.bind (A.atomically _) fun store => ?_
    cases store.refuseWrite? slot part with
    | some cause => exact A.pure _
    | none => exact A.bind (A.interrupt _) fun _ => A.atomically _
  · cases outcome with
    | error cause => exact A.pure _
    | ok u => exact A.bind (A.atomically _) fun _ => A.pure _

/-- A frame may be moved to swap without interruption. -/
theorem swapOut (frame : Nat) : A.Admits (Kernel.swapOut frame) (Kernel.swapOut frame) := by
  refine A.bind (A.atomically _) fun found => ?_
  cases found with
  | none => exact A.pure _
  | some slot =>
    refine A.bind (A.writeSlot slot frame) fun outcome => ?_
    cases outcome with
    | error cause => exact A.bind (A.atomically _) fun _ => A.pure _
    | ok u => exact A.pure _

/-- The contents of a victim may be moved without interruption. -/
theorem writeOut (transit : Transit) :
    A.Admits (Kernel.writeOut transit) (Kernel.writeOut transit) := by
  unfold Kernel.writeOut
  cases transit.plan with
  | swap writable =>
    refine A.bind (A.swapOut transit.frame) fun outcome => ?_
    cases outcome <;> exact A.pure _
  | file segment =>
    refine A.bind (A.writeBack transit.frame segment) fun outcome => ?_
    cases outcome <;> exact A.pure _
  | keep | discard => exact A.pure _

/-- An eviction may do the rest of its work without being interrupted. -/
theorem conclude (transit : Transit) :
    A.Admits (Kernel.conclude transit) (Kernel.conclude transit) := by
  refine A.bind (A.writeOut transit) fun outcome => ?_
  cases outcome <;>
    exact A.bind (A.holding (A.holding (A.atomically _))) fun _ => A.pure _

end Admission

namespace Woven

/-- Others may come in before it. -/
theorem patient_conclude (transit : Transit) :
    Patient (Kernel.conclude transit : Woven Happens _) := by
  unfold Kernel.conclude Kernel.writeOut
  cases transit.plan with
  | swap writable => exact (((patient_atomically happens_trans _).bind _).bind _).bind _
  | file segment => exact (((patient_atomically happens_trans _).bind _).bind _).bind _
  | keep | discard => exact patient_pure_bind ((patient_atomically happens_trans _).bind _)

end Woven

/-- An eviction that is interrupted once, by the teardown of the space of its victim as soon as the
victim is detached. -/
def Transition.oustTorn : Transition (FrameRecord × Except VmError Unit) := do
  match ← Kernel.findSource with
  | .ok (.page victim) => do
    let transit ← Transition.detach victim
    let _ ← Action.step (.call (.destroy victim.owner))
    let outcome ← Kernel.conclude transit
    return (victim, outcome)
  | _ => throw .blocked

section

variable {start before final : Machine} {victim : FrameRecord} {outcome : Except VmError Unit}

/-- An eviction that is interrupted by that teardown is one that others interrupt. -/
theorem ousts_of_oustTorn (h : Transition.oustTorn before = .ok (victim, outcome) final) :
    Ousts before victim (.ok outcome final) := by
  obtain ⟨source, chosen, hfind, h⟩ := Transition.ok_of_bind h
  cases source with
  | error cause => cases h
  | ok source =>
    cases source with
    | pool frame => cases h
    | page found =>
      obtain ⟨transit, detached, hdetach, h⟩ := Transition.ok_of_bind h
      obtain ⟨reply, torn, hdestroy, h⟩ := Transition.ok_of_bind h
      obtain ⟨ended, after, hconclude, h⟩ := Transition.ok_of_bind h
      cases h
      have hpermitted : Action.Permitted detached (.call (.destroy victim.owner)) := trivial
      have halone := (Woven.admission happens_refl).conclude transit torn
      rw [hconclude] at halone
      have hhappens : Happens detached torn := ⟨_, .snoc .nil hpermitted hdestroy⟩
      refine ⟨chosen, transit, detached, hfind, hdetach, ?_⟩
      exact Woven.patient_conclude transit detached torn _ hhappens halone

/-- Whatever can be computed of such an eviction after some actions holds of one after a run of
them. -/
theorem exists_ousts {actions : List Action}
    {p : Machine → FrameRecord → Except VmError Unit → Machine → Bool}
    (h : ((replay start actions).any fun r =>
      match Transition.oustTorn r.2 with
      | .ok (victim, outcome) final => p r.2 victim outcome final
      | .error _ _ => false) = true) :
    ∃ moments before victim outcome final, Run start moments before ∧
      Ousts before victim (.ok outcome final) ∧ p before victim outcome final = true := by
  obtain ⟨moments, before, hrun, -, hp⟩ := exists_run h
  split at hp
  · rename_i victim outcome final houst
    exact ⟨moments, before, victim, outcome, final, hrun, ousts_of_oustTorn houst, hp⟩
  · cases hp

end

section

variable {start before final : Machine} {moments : List Moment} {victim : FrameRecord}
  {outcome : Except VmError Unit}

/-- An eviction that others interrupt saves its victim, and then nothing is out of place but the
frame that it has for a new use; or it leaves the victim where it was, or stranded. It gives back
nothing that is not out. -/
theorem Run.ousts (hfresh : start.Fresh) (h : Run start moments before)
    (hprivate : ∀ p segment, victim.page = some p →
      segment? before.spaces victim.owner p = some segment → segment.writeBack = false)
    {result : EStateM.Result Halt Machine (Except VmError Unit)}
    (housts : Ousts before victim result) :
    Woven.Meets (fun outcome after =>
      match outcome with
      | .ok () => Coherent {} after.frames.records [victim.frame] [] after
      | .error _ => after.Orderly ∧ ¬ TornDown after.spaces victim.owner ∨ Stranded victim after)
      result := by
  obtain ⟨chosen, transit, detached, hfind, hdetach, hrest⟩ := housts
  obtain ⟨rfl, hflight, htransit⟩ :=
    inFlight_of_detach (h.orderly hfresh.orderly) hfind hdetach hprivate
  exact Woven.ensures_conclude hflight htransit result hrest

/-- A page without an entry does not belong to a mapped file. -/
theorem private_of_info? {p : Nat} (hpage : victim.page = some p)
    (hinfo : info? before.spaces victim.owner p = none) :
    ∀ p segment, victim.page = some p →
      segment? before.spaces victim.owner p = some segment → segment.writeBack = false := by
  intro p' segment hpage' hsegment
  obtain rfl : p = p' := Option.some.inj (hpage.symm.trans hpage')
  rw [segment?, hinfo] at hsegment
  cases hsegment

/-- After any run, let an eviction move out a page that does not belong to a mapped file, let others
carry out permitted actions before any of its transitions, and let the space of the page be torn
down when it has ended. Then the space has no entry, and all swap slots in use are recorded for
others. If the page could be moved out, nothing else is left of the space either; if it could not,
then exactly the record of the victim is left, and exactly its page is mapped. -/
theorem Run.ousts_torn (hfresh : start.Fresh) (h : Run start moments before)
    (hprivate : ∀ p segment, victim.page = some p →
      segment? before.spaces victim.owner p = some segment → segment.writeBack = false)
    (housts : Ousts before victim (.ok outcome final))
    (htorn : TornDown final.spaces victim.owner) :
    final.KeepsSlots ∧ (∀ p info, ¬ final.Describes victim.owner p info) ∧
      match outcome with
      | .ok () => (∀ record ∈ final.frames.records, record.owner ≠ victim.owner) ∧
          ∀ p e, ¬ final.IsMapped victim.owner p e
      | .error _ =>
        (∀ record, record ∈ final.frames.records ∧ record.owner = victim.owner ↔ record = victim) ∧
          ∀ p, (∃ e, final.IsMapped victim.owner p e) ↔ victim.page = some p := by
  have hended := h.ousts hfresh hprivate housts
  cases outcome with
  | ok u =>
    have hcoherent : Coherent {} final.frames.records [victim.frame] [] final := hended
    have hgone := hcoherent.live.gone htorn
    refine ⟨keepsSlots_of_accounted hcoherent.accounted, fun p info hinfo => ?_,
      fun record hrecord howner => ?_, fun p e hmapped => ?_⟩
    · rw [describes_iff, (hgone p).1] at hinfo
      cases hinfo
    · obtain ⟨p, -, hp, hframe⟩ := (hcoherent.tracked.mem_iff record).mp hrecord
      rw [howner, (hgone p).2 hp] at hframe
      cases hframe
    · obtain ⟨hp, hentry⟩ := isMapped_iff.mp hmapped
      have hnone := (hgone p).2 hp
      rw [frame?, hentry] at hnone
      cases hnone
  | error cause =>
    rcases hended with ⟨-, hlive⟩ | hstranded
    · exact absurd htorn hlive
    · refine ⟨keepsSlots_of_accounted hstranded.accounted, fun p info hinfo => ?_,
        hstranded.records, fun p => ⟨?_, fun hpage => ?_⟩⟩
      · rw [describes_iff, hstranded.info] at hinfo
        cases hinfo
      · rintro ⟨e, hmapped⟩
        obtain ⟨hp, hentry⟩ := isMapped_iff.mp hmapped
        exact (hstranded.mapped p hp).mp (by rw [hentry]; rfl)
      · have hp := hstranded.aligned p hpage
        obtain ⟨e, hentry⟩ := Option.isSome_iff_exists.mp ((hstranded.mapped p hp).mpr hpage)
        exact ⟨e, isMapped_iff.mpr ⟨hp, hentry⟩⟩

end

/-- A page of a stack that was in memory is written out, and its space is torn down meanwhile:
nothing of it is left. -/
theorem ousts_torn_sample : ∃ moments before victim final, Run .sample moments before ∧
    victim = { frame := 0, owner := 0, page := some 0x7ffff000 } ∧
    Ousts before victim (.ok (.ok ()) final) ∧ TornDown final.spaces victim.owner ∧
    final.KeepsSlots ∧ (∀ p info, ¬ final.Describes victim.owner p info) ∧
    (∀ record ∈ final.frames.records, record.owner ≠ victim.owner) ∧
    ∀ p e, ¬ final.IsMapped victim.owner p e := by
  obtain ⟨moments, before, victim, outcome, final, h, housts, hfacts⟩ := @exists_ousts .sample
    [.addSpace 1, .call (.growStack 0 0x7ffff000), .addSpace 2]
    (fun before victim outcome final => victim = ⟨0, 0, some 0x7ffff000⟩ ∧
      info? before.spaces 0 0x7ffff000 = none ∧ outcome.toOption = some () ∧
      TornDown final.spaces 0) (by decide +kernel)
  obtain ⟨rfl, hinfo, hdone, htorn⟩ := of_decide_eq_true hfacts
  cases outcome with
  | error cause => cases hdone
  | ok u =>
    have hleft := Run.ousts_torn Machine.fresh_sample h (private_of_info? rfl hinfo) housts htorn
    exact ⟨moments, before, _, final, h, rfl, housts, htorn, hleft⟩

/-- The same with a disk that cannot be written: the record of the victim is left, and its page is
mapped in a space that was torn down. -/
theorem ousts_torn_left : ∃ moments before victim outcome final, Run .sample moments before ∧
    victim = { frame := 0, owner := 0, page := some 0x7ffff000 } ∧
    (∀ info, ¬ before.Describes victim.owner 0x7ffff000 info) ∧
    Ousts before victim (.ok outcome final) ∧ TornDown final.spaces victim.owner ∧
    victim ∈ final.frames.records ∧ ∃ e, final.IsMapped victim.owner 0x7ffff000 e := by
  obtain ⟨moments, before, victim, outcome, final, h, housts, hfacts⟩ := @exists_ousts .sample
    [.addSpace 1, .call (.growStack 0 0x7ffff000), .addSpace 2, .turnDisk false true]
    (fun before victim _ final => victim = ⟨0, 0, some 0x7ffff000⟩ ∧
      info? before.spaces 0 0x7ffff000 = none ∧ TornDown final.spaces 0 ∧
      victim ∈ final.frames.records ∧ (mapped? final.spaces 0 0x7ffff000).isSome = true)
    (by decide +kernel)
  obtain ⟨rfl, hinfo, htorn, hrecord, hmapped⟩ := of_decide_eq_true hfacts
  obtain ⟨e, hentry⟩ := Option.isSome_iff_exists.mp hmapped
  refine ⟨moments, before, _, outcome, final, h, rfl, fun info hdescribes => ?_, housts, htorn,
    hrecord, e, isMapped_iff.mpr ⟨by decide, hentry⟩⟩
  rw [describes_iff, hinfo] at hdescribes
  cases hdescribes

end DemandPaging
