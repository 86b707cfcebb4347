import DemandPaging.Proofs.InterruptedEvictions
import DemandPaging.Proofs.SteadyVictims

/-!
# Evictions of a steady machine

An eviction leaves a steady machine steady, whether it finds a frame or fails (`Outcomes.evict`). One
that fails to write its victim out has changed nothing but the entry of the victim
(`Machine.Reverted`): a page that had none keeps the anonymous entry that was made for its way out. On
careful terms the victim is mapped as it was before, too.

The victim is followed through the phases: it is `Picked`, then `Moving`, and then it is put back or
let go. What nobody wants any more is only cleared.
-/

set_option autoImplicit false

namespace DemandPaging

open Spaces Machine Transition

/-! ### Taking a page out -/

section

variable {terms : Terms} {before m m' : Machine} {victim : FrameRecord} {transit : Transit}
  {entry : PageTableEntry} {info : PageInfo}

/-- Windows of pages are what they were, and something may have been said. -/
structure Machine.Calm (before after : Machine) : Prop where
  segment : ∀ s p, segment? after.spaces s p = segment? before.spaces s p
  speaks : before.Speaks after

/-- A victim stays picked while others change files and devices. -/
theorem Machine.Picked.devices (h : before.Picked victim m) (hd : m.Devices m') :
    before.Picked victim m' := by
  obtain ⟨_, _, rfl⟩ := hd
  obtain ⟨hrecords, hbound, haccounts, hmemory, hslots, hnotices, hfaded⟩ := h
  exact ⟨hrecords, hbound, haccounts, hmemory, hslots, hnotices, hfaded⟩

/-- A page is on its way out: it was mapped with `entry` before, and `info` is what is known of it. -/
structure Machine.Moving (terms : Terms) (before : Machine) (transit : Transit)
    (entry : PageTableEntry) (info : PageInfo) (m : Machine) : Prop where
  steady : m.Steady (terms.moving transit.owner transit.page) [transit.frame] []
  aligned : IsAligned transit.page
  entry_eq : transit.entry = some entry
  plan_eq : transit.plan = .ofEntry entry info
  unmapped : mapped? m.spaces transit.owner transit.page = none
  info_eq : info? m.spaces transit.owner transit.page = some { info with evicting := true }
  still : info.evicting = false
  found : info? before.spaces transit.owner transit.page = some info ∨
    info? before.spaces transit.owner transit.page = none ∧ info = .anonymous transit.page
  held : lasting? before.spaces transit.owner transit.page = some entry.lasting
  elsewhere : ∃ faded, Faded before.spaces faded ∧
    Elsewhere faded m.spaces transit.owner transit.page
  records : (transit.record :: m.frames.records).Perm before.frames.records
  memory_eq : m.frames.memory = before.frames.memory
  slots_eq : m.swap.slots = before.swap.slots
  notices_eq : m.notices = before.notices

/-- The machine with the record of the victim still in its table. -/
theorem Machine.Picked.steady (h : before.Picked victim m) (hs : before.Steady terms [] [])
    (hidle : terms.Idle) : Machine.Steady terms [] []
      { m with frames := { m.frames with records := before.frames.records } } where
  pool := h.accounts _ _ hs.pool
  bound := hs.bound
  recorded s p frame hp hframe :=
    hs.recorded s p frame hp ((h.faded.similar.frame s p).symm.trans hframe)
  tables := hs.tables.similar h.faded.similar
  honest hcareful s p := (hs.honest hcareful s p).similar h.faded.similar
  untouched := Terms.untouched_of_none hidle.bytes _

/-- Taking the page of the victim out of its tables. -/
theorem Machine.Picked.takeOut (h : before.Picked victim m) (hs : before.Steady terms [] [])
    (hidle : terms.Idle) {s : SpaceId} {p frame : Nat} (hvictim : victim = ⟨frame, s, some p⟩)
    (page : Option (SpaceId × Nat)) {spaces : Array AddressSpace}
    (hpage : ∀ s' p', ¬ (s' = s ∧ p' = p) → page ≠ some (s', p') → terms.page ≠ some (s', p'))
    (he : Elsewhere m.spaces spaces s p) (hunmapped : mapped? spaces s p = none)
    (hentry : ∀ info, info? spaces s p = some info → Entry { terms with page } spaces s p info)
    (hsegment : segment? spaces s p = segment? m.spaces s p) :
    Machine.Steady { terms with page } [frame] [] { m with spaces } := by
  subst hvictim
  have hmem : (⟨frame, s, some p⟩ : FrameRecord) ∈ before.frames.records :=
    h.records.mem_iff.mp List.mem_cons_self
  obtain ⟨_, ⟨⟩, hp⟩ := hs.bound _ hmem
  have hsteady := h.steady hs hidle
  have hnone : ∀ f, frame? spaces s p ≠ some f := by
    intro f
    rw [frame?, hunmapped]
    simp
  have hframes := h.records.map (·.frame)
  refine hsteady.update page he hp hpage ?_ (fun r hr => ?_) (fun _ _ _ hin => hin)
    (fun f hf => absurd hf (hnone f)) hentry (.inl hsegment) (fun hcareful => ⟨?_, ?_⟩)
    (Terms.untouched_of_none hidle.bytes _)
  · refine hsteady.pool.perm ?_ fun _ => Iff.rfl
    exact (hframes.symm.append_right _).trans List.perm_middle.symm
  · have hmem' := h.records.mem_iff (a := r)
    rw [List.mem_cons] at hmem'
    exact ⟨fun hin => hmem'.mp (.inr hin), fun hin => (hmem'.mpr hin).resolve_left fun heq =>
      hr (heq ▸ ⟨rfl, rfl⟩)⟩
  · -- a second record of the page would be one of the frame that was taken
    intro r hr howner hrpage _
    have hr' := h.records.mem_iff.mp (List.mem_cons_of_mem _ hr)
    have hmapped := (hs.honest hcareful s p).mapped r hr' howner hrpage List.not_mem_nil
    have htaken := (hs.honest hcareful s p).mapped _ hmem rfl rfl List.not_mem_nil
    obtain rfl := hs.record_inj hr' hmem (Option.some.inj (hmapped.symm.trans htaken))
    have hnodup := hframes.nodup_iff.mpr (List.nodup_append.mp hs.pool.nodup).1
    exact absurd (List.mem_map_of_mem hr) (List.nodup_cons.mp hnodup).1
  · exact fun _ _ f _ _ _ _ hf => absurd hf (hnone f)

/-- The page of the victim is unmapped and its entry is marked, made on the spot if need be. -/
theorem Machine.Picked.moving (h : before.Picked victim m) (hs : before.Steady terms [] [])
    (hidle : terms.Idle) {s : SpaceId} {p frame : Nat} (hvictim : victim = ⟨frame, s, some p⟩)
    (hentry : mapped? m.spaces s p = some entry) (hlive : ¬ TornDown m.spaces s)
    (hfound : info? m.spaces s p = some info ∨ info? m.spaces s p = none ∧ info = .anonymous p)
    {spaces : Array AddressSpace} (he : Elsewhere m.spaces spaces s p)
    (hunmapped : mapped? spaces s p = none)
    (hinfo : info? spaces s p = some { info with evicting := true }) :
    before.Moving terms
      { frame, owner := s, page := p, entry := some entry, plan := .ofEntry entry info } entry info
      { m with spaces } := by
  have hpage : ∀ s' p', ¬ (s' = s ∧ p' = p) → some (s, p) ≠ some (s', p') →
      terms.page ≠ some (s', p') := by
    intro _ _ _ _
    rw [hidle.page]
    simp
  have hsegment : segment? spaces s p = segment? m.spaces s p := by
    rw [segment?, segment?, hinfo]
    rcases hfound with hfound | ⟨hfound, rfl⟩ <;> rw [hfound] <;> rfl
  have hmarked : ∀ i, info? spaces s p = some i → Entry { terms with page := some (s, p) } spaces s p i :=
    fun i _ => ⟨fun htorn => hlive (htorn.congr (he.standing s).symm), fun hne => absurd rfl hne,
      fun hne => absurd rfl hne⟩
  refine ⟨h.takeOut hs hidle hvictim _ hpage he hunmapped hmarked hsegment, ?_, rfl, rfl, hunmapped, hinfo,
    ?_, ?_, ?_, ⟨m.spaces, h.faded, he⟩, ?_, h.memory_eq, h.slots_eq, h.notices_eq⟩
  · subst hvictim
    obtain ⟨_, ⟨⟩, hp⟩ := hs.bound _ (h.records.mem_iff.mp List.mem_cons_self)
    exact hp
  · rcases hfound with hfound | ⟨-, rfl⟩
    · rw [h.faded.info] at hfound
      exact hs.tables.still s p info hfound (by rw [hidle.page]; simp)
    · rfl
  · rwa [h.faded.info] at hfound
  · rw [← h.faded.lasting, lasting?, hentry, Option.map_some]
  · subst hvictim
    exact h.records

/-- The victim is detached: nobody wants its page, or the page is on its way. -/
theorem Machine.Picked.detach (h : before.Picked victim m) (hs : before.Steady terms [] [])
    (hidle : terms.Idle) : (Transition.detach victim).Yields m fun transit after =>
      transit.frame = victim.frame ∧
        (transit.plan = .discard ∧ before.Calm after ∧ after.Steady terms [victim.frame] [] ∨
          ∃ entry info, before.Moving terms transit entry info after) := by
  obtain ⟨frame, s, page⟩ := victim
  obtain ⟨p, rfl⟩ := Option.isSome_iff_exists.mp h.bound
  have hsteady := h.steady hs hidle
  have htables : Tables terms m.spaces := hsteady.tables
  obtain ⟨_, ⟨⟩, hp⟩ := hs.bound _ (h.records.mem_iff.mp List.mem_cons_self)
  have hdiscard : ∀ spaces, spaces = unmap m.spaces s p →
      (∀ info, info? m.spaces s p = some info → info.backing ≠ .anonymous) →
      before.Calm { m with spaces } ∧ Machine.Steady terms [frame] [] { m with spaces } := by
    rintro _ rfl hother
    refine ⟨⟨fun s' p' => ?_, .of_eq h.notices_eq⟩,
      h.takeOut hs hidle rfl terms.page (fun _ _ _ hne => hne) (elsewhere_unmap hp)
        (by simp) (fun info hinfo => ?_) (by rw [segment?, segment?, info?_unmap])⟩
    · rw [segment?, info?_unmap]
      exact h.faded.similar.segment s' p'
    · rw [info?_unmap] at hinfo
      refine ⟨?_, fun hne => htables.still s p info hinfo hne, fun _ hback => ?_⟩
      · rw [TornDown, standing?_unmap]
        exact htables.torn s p info hinfo
      · exact absurd hback (hother info hinfo)
  refine ensures_parted.yields.mono ?_
  rintro transit after ⟨entry, plan, spaces, rfl, rfl, hparted⟩
  refine ⟨rfl, ?_⟩
  cases hparted with
  | absent hentry =>
    refine .inl ⟨rfl, hdiscard _ rfl fun info hinfo hback => ?_⟩
    have hmapped := (htables.anonymous s p info hinfo (by rw [hidle.page]; simp) hback).2.2
    rw [frame?, hentry] at hmapped
    cases hmapped
  | unwanted _ htorn => exact .inl ⟨rfl, hdiscard _ rfl fun info hinfo _ => htables.torn s p info hinfo htorn⟩
  | @marked entry info made hentry hlive hentered =>
    have hwas := hentered.was
    rw [info?_unmap] at hwas
    exact .inr ⟨entry, info, h.moving hs hidle rfl hentry hlive hwas (hentered.elsewhere_unmap hp _)
      (hentered.mapped?_unmap _) (hentered.info?_amend _)⟩

/-! ### Putting it back -/

/-- A failed eviction was undone: frames, slots and notices are as they were, and so are the tables, but
that a mapped page without an entry may have got one. On careful terms every page is mapped as it was. -/
structure Machine.Reverted (careful : Prop) (before after : Machine) : Prop where
  records : after.frames.records.Perm before.frames.records
  memory_eq : after.frames.memory = before.frames.memory
  slots_eq : after.swap.slots = before.swap.slots
  notices_eq : after.notices = before.notices
  standing : ∀ s, standing? after.spaces s = standing? before.spaces s
  info : ∃ s p, (∀ s' p', ¬ (s' = s ∧ p' = p) → info? after.spaces s' p' = info? before.spaces s' p') ∧
    (info? after.spaces s p = info? before.spaces s p ∨ info? before.spaces s p = none ∧
      (lasting? before.spaces s p).isSome = true ∧ info? after.spaces s p = some (.anonymous p))
  lasting : careful → ∀ s p, IsAligned p → lasting? after.spaces s p = lasting? before.spaces s p

/-- What `restore` does to the machine, if the page can be mapped again. -/
theorem Machine.Moving.yields_restore (h : before.Moving terms transit entry info m) :
    (Transition.restore transit).Yields m fun _ after => ∃ e pool spaces,
      after = { m with
        frames := { m.frames with pool, records := m.frames.records ++ [transit.record] }, spaces } ∧
      e.lasting = (transit.frame, entry.writable, entry.dirty) ∧
      mapped? spaces transit.owner transit.page = some e ∧
      info? spaces transit.owner transit.page = some info ∧
      Elsewhere m.spaces spaces transit.owner transit.page ∧
      m.frames.pool.setPinned transit.frame false = .ok pool := by
  obtain ⟨frame, s, p, last, plan⟩ := transit
  obtain rfl : last = some entry := h.entry_eq
  refine (ensures_remade (h.steady.tables.refusals s) h.unmapped).yields.mono ?_
  rintro _ _ ⟨pool, spaces, hpool, rfl, hmax, hmapped, hinfo, he⟩
  refine ⟨_, pool, spaces, rfl, ?_, hmapped, ?_, he h.aligned, hpool⟩
  · simp only [remade, PageTableEntry.lasting, PageTableEntry.userPage, BitVec.toNat_ofNat, maxFrame,
      Prod.mk.injEq, and_true] at hmax ⊢
    omega
  · have hstill := h.still
    rw [hinfo, h.info_eq, Option.map_some, ← hstill]

/-- The terms once nothing is on its way any more. -/
theorem Terms.Idle.settled (h : terms.Idle) (s : SpaceId) (p : Nat) :
    { terms.moving s p with page := none } = terms := by
  obtain ⟨careful, leftover, page, frames, bytes⟩ := terms
  obtain rfl : page = none := h.page
  rfl

/-- On careful terms the page was mapped to the frame that it had a record of. -/
theorem Machine.Moving.frame_eq (h : before.Moving terms transit entry info m)
    (hs : before.Steady terms [] []) (hcareful : terms.careful) : entry.frame.toNat = transit.frame := by
  have hmapped := (hs.honest hcareful transit.owner transit.page).mapped transit.record
    (h.records.mem_iff.mp List.mem_cons_self) rfl rfl List.not_mem_nil
  rw [frame?_eq_lasting?, h.held] at hmapped
  exact Option.some.inj hmapped

/-- The page of an anonymous entry is in memory, and it may have one if swap failed. -/
theorem Machine.Moving.anonymous (h : before.Moving terms transit entry info m)
    (hs : before.Steady terms [] []) (hidle : terms.Idle) {cause : VmError}
    (hcause : cause.OfSwap ∨ ∃ segment, transit.plan = .file segment) (hback : info.backing = .anonymous) :
    (terms.excusing cause).leftover ∧ info.resident = true := by
  rcases h.found with hfound | ⟨-, rfl⟩
  · obtain ⟨hleft, hresident, -⟩ := hs.tables.anonymous _ _ _ hfound (by rw [hidle.page]; simp) hback
    exact ⟨.inl hleft, hresident⟩
  · refine ⟨.inr ?_, rfl⟩
    rcases hcause with hswap | ⟨segment, hplan⟩
    · exact hswap
    · rw [h.plan_eq] at hplan
      cases hplan

/-- The page of a mapped file is in memory if it was mapped. -/
theorem Machine.Moving.resident (h : before.Moving terms transit entry info m)
    (hs : before.Steady terms [] []) (hcareful : terms.careful) {segment : Segment}
    (hsegment : info.segment? = some segment) (hback : segment.writeBack = true) :
    info.resident = true := by
  rcases h.found with hfound | ⟨-, rfl⟩
  · by_contra hres
    have hframe : frame? before.spaces transit.owner transit.page = some entry.frame.toNat := by
      rw [frame?_eq_lasting?, h.held]
      rfl
    exact absurd ((hs.honest hcareful _ _).truthful info segment _ hfound hsegment hback
      (Bool.eq_false_iff.mpr hres) hframe) List.not_mem_nil
  · cases hsegment

/-- The victim is put back where it was. -/
theorem Machine.Moving.restore (h : before.Moving terms transit entry info m)
    (hs : before.Steady terms [] []) (hidle : terms.Idle) {cause : VmError}
    (hcause : cause.OfSwap ∨ ∃ segment, transit.plan = .file segment) :
    (Transition.restore transit).Yields m fun _ after =>
      after.Steady (terms.excusing cause) [] [] ∧ before.Reverted terms.careful after := by
  refine h.yields_restore.mono ?_
  rintro _ _ ⟨e, pool, spaces, rfl, hlasting, hmapped, hinfo, he, hpool⟩
  have hframe : frame? spaces transit.owner transit.page = some transit.frame := by
    rw [frame?_eq_lasting?, lasting?, hmapped, Option.map_some, hlasting, Option.map_some]
  have hperm : (m.frames.records ++ [transit.record]).Perm before.frames.records :=
    (List.perm_append_singleton _ _).trans h.records
  obtain ⟨faded, hfaded, helse⟩ := h.elsewhere
  have helse' := helse.trans he
  refine ⟨?_, ?_⟩
  · have hsteady := h.steady.excusing cause
    have hafter : Machine.Steady { (terms.excusing cause).moving transit.owner transit.page with page := none }
        [] [] { m with frames := { m.frames with pool, records := m.frames.records ++ [transit.record] },
                       spaces } := by
      refine hsteady.update none he h.aligned ?_ ?_ ?_ (fun _ _ _ hin => hin) ?_ ?_ (.inl ?_) ?_ ?_
      · rintro s' p' hne -
        simp only [Terms.moving, Terms.excusing, ne_eq, Option.some.injEq, Prod.mk.injEq]
        exact fun heq => hne ⟨heq.1.symm, heq.2.symm⟩
      · obtain ⟨-, -, haccounts⟩ := h.steady.pool.setPinned hpool
        refine haccounts.perm ?_ fun f => by simp
        rw [List.map_append]
        exact (List.append_assoc _ _ _).symm ▸ .refl _
      · intro r hr
        simp only [List.mem_append, List.mem_singleton, or_iff_left_iff_imp]
        rintro rfl
        exact absurd ⟨rfl, rfl⟩ hr
      · intro f hf
        obtain rfl := Option.some.inj (hframe.symm.trans hf)
        exact List.mem_append_right _ (List.mem_singleton.mpr rfl)
      · intro i hi
        obtain rfl := Option.some.inj (hinfo.symm.trans hi)
        refine ⟨fun htorn => h.steady.tables.torn _ _ _ h.info_eq (htorn.congr (he.standing _).symm),
          fun _ => h.still, fun _ hback => ?_⟩
        obtain ⟨hleft, hresident⟩ := h.anonymous hs hidle hcause hback
        exact ⟨hleft, hresident, by rw [hframe, Option.isSome_some]⟩
      · rw [segment?, segment?, hinfo, h.info_eq]
        rfl
      · intro hcareful
        refine ⟨fun r hr howner hrpage _ => ?_, fun i segment f hi hseg hback hres hf => ?_⟩
        · rcases List.mem_append.mp hr with hr | hr
          · have := (h.steady.honest hcareful _ _).mapped r hr howner hrpage List.not_mem_nil
            rw [frame?, h.unmapped] at this
            cases this
          · rw [List.mem_singleton.mp hr]
            exact hframe
        · obtain rfl := Option.some.inj (hinfo.symm.trans hi)
          rw [h.resident hs hcareful hseg hback] at hres
          cases hres
      · exact Terms.untouched_of_none hidle.bytes _
    have hidle' : (terms.excusing cause).Idle := ⟨hidle.page, hidle.frames, hidle.bytes⟩
    have hterms := hidle'.settled transit.owner transit.page
    rwa [hterms] at hafter
  · refine ⟨hperm, h.memory_eq, h.slots_eq, h.notices_eq, fun s => ?_, ⟨transit.owner, transit.page,
      fun s' p' hne => ?_, ?_⟩, fun hcareful s p hp => ?_⟩
    · exact (helse'.standing s).trans (hfaded.standing s)
    · exact (helse'.info s' p' hne).trans (hfaded.info s' p')
    · rw [hinfo]
      rcases h.found with hfound | ⟨hfound, rfl⟩
      · exact .inl hfound.symm
      · exact .inr ⟨hfound, by rw [h.held, Option.isSome_some], rfl⟩
    · by_cases hsp : s = transit.owner ∧ p = transit.page
      · obtain ⟨rfl, rfl⟩ := hsp
        rw [lasting?, hmapped, Option.map_some, hlasting, h.held, PageTableEntry.lasting,
          h.frame_eq hs hcareful]
      · rw [← hfaded.lasting, lasting?, lasting?, helse'.mapped s p hp hsp]

/-! ### Letting it go -/

/-- If nobody wants the page, its frame is cleared and that is all. -/
theorem Transition.yields_finish_discard (copy : Option SwapCopy) (hplan : transit.plan = .discard) :
    (Transition.finish transit copy).Yields m fun _ after => ∃ memory notice,
      after = { m with frames := { m.frames with memory }, notices := m.notices.push notice } := by
  refine (yields_finished transit copy).mono ?_
  rintro _ _ ⟨-, _, _, notice, hfinished, rfl⟩
  cases hfinished with
  | discarded => exact ⟨_, notice, rfl⟩
  | released hother => exact absurd hplan hother
  | gone hother => exact absurd hplan hother
  | givenUp hother => exact absurd hplan hother

/-- An anonymous page only leaves memory for swap. -/
theorem PageInfo.backing_saved (info : PageInfo) (entry : PageTableEntry) {copy : Option SwapCopy}
    (hcopy : copy = none → ∀ writable, Plan.ofEntry entry info ≠ .swap writable) :
    (info.saved copy).backing ≠ .anonymous := by
  cases copy with
  | none =>
    intro hback
    have hnone : info.segment? = none := by
      rw [PageInfo.segment?, show info.backing = .anonymous from hback]
      rfl
    refine hcopy rfl entry.writable ?_
    rw [Plan.ofEntry, hnone]
  | some copy =>
    unfold saved movedToSwap
    cases info.backing <;> simp

/-- The contents of the victim were stored, and its frame is free for another use. -/
theorem Machine.Moving.finish (h : before.Moving terms transit entry info m)
    (hidle : terms.Idle) (hwrote : m.Wrote m') {copy : Option SwapCopy}
    (hcopy : copy = none → ∀ writable, transit.plan ≠ .swap writable) :
    (Transition.finish transit copy).Yields m' fun _ after =>
      after.Steady terms [transit.frame] [] ∧ before.Calm after := by
  have hplan : transit.plan ≠ .discard := h.plan_eq ▸ Plan.ofEntry_ne_discard entry info
  have hinfo : info? m'.spaces transit.owner transit.page = some { info with evicting := true } := by
    rw [hwrote.spaces_eq]
    exact h.info_eq
  refine (ensures_finish_wanted copy hplan hinfo).yields.mono ?_
  rintro _ _ ⟨notice, -, rfl⟩
  have hsteady : m'.Steady (terms.moving transit.owner transit.page) [transit.frame] [] :=
    h.steady.similar (by rw [hwrote.frames_eq]) (by rw [hwrote.frames_eq])
      (hwrote.spaces_eq ▸ .refl _) (Terms.untouched_of_none hidle.bytes _)
  have hsaved : info? (amend m'.spaces transit.owner transit.page (·.saved copy)) transit.owner
      transit.page = some (PageInfo.saved { info with evicting := true } copy) := by
    rw [info?_amend, hinfo]
    simp
  have hnone : ∀ f, frame? (amend m'.spaces transit.owner transit.page (·.saved copy)) transit.owner
      transit.page ≠ some f := by
    intro f
    rw [frame?, mapped?_amend, hwrote.spaces_eq, h.unmapped]
    simp
  have hsegment : segment? (amend m'.spaces transit.owner transit.page (·.saved copy)) transit.owner
      transit.page = info.segment? := by
    rw [segment?, hsaved, Option.bind_some, PageInfo.segment?_saved]
    rfl
  have hfound : segment? before.spaces transit.owner transit.page = info.segment? := by
    rw [segment?]
    rcases h.found with hfound | ⟨hfound, rfl⟩ <;> rw [hfound] <;> rfl
  refine ⟨?_, fun s' p' => ?_, (Speaks.of_eq h.notices_eq).trans (hwrote.speaks.trans ⟨#[notice], rfl⟩)⟩
  · rw [← hidle.settled transit.owner transit.page]
    refine hsteady.update none elsewhere_amend h.aligned ?_ hsteady.pool (fun _ _ => Iff.rfl)
      (fun _ _ _ hin => hin) (fun f hf => absurd hf (hnone f)) ?_ (.inl (hsegment.trans ?_))
      (fun hcareful => ⟨?_, ?_⟩) (Terms.untouched_of_none hidle.bytes _)
    · rintro s' p' hne -
      simp only [Terms.moving, ne_eq, Option.some.injEq, Prod.mk.injEq]
      exact fun heq => hne ⟨heq.1.symm, heq.2.symm⟩
    · intro i hi
      obtain rfl := Option.some.inj (hsaved.symm.trans hi)
      refine ⟨fun htorn => ?_, fun _ => PageInfo.evicting_saved _ copy, fun _ hback => ?_⟩
      · exact hsteady.tables.torn _ _ _ hinfo (htorn.congr standing?_amend.symm)
      · exact absurd hback (PageInfo.backing_saved _ entry fun hnil => h.plan_eq ▸ hcopy hnil)
    · rw [segment?, hinfo]
      rfl
    · intro r hr howner hrpage _
      have := (hsteady.honest hcareful _ _).mapped r hr howner hrpage List.not_mem_nil
      rw [frame?, hwrote.spaces_eq, h.unmapped] at this
      cases this
    · exact fun _ _ f _ _ _ _ hf => absurd hf (hnone f)
  · by_cases hsp : s' = transit.owner ∧ p' = transit.page
    · obtain ⟨rfl, rfl⟩ := hsp
      exact hsegment.trans hfound.symm
    · obtain ⟨faded, hfaded, he⟩ := h.elsewhere
      rw [elsewhere_amend.segment hsp, hwrote.spaces_eq, he.segment hsp]
      exact hfaded.similar.segment s' p'

/-! ### The eviction as a whole -/

/-- The page is still on its way when files and devices have changed. -/
theorem Machine.Moving.devices (h : before.Moving terms transit entry info m) (hidle : terms.Idle)
    (hd : m.Devices m') : before.Moving terms transit entry info m' := by
  obtain ⟨_, _, rfl⟩ := hd
  exact { h with
    steady := h.steady.similar rfl rfl (.refl _) (Terms.untouched_of_none hidle.bytes _) }

/-- The clock hand changes nothing that matters. -/
theorem Machine.Swept.steady {loose : List Nat} (h : m.Swept m') (hs : m.Steady terms loose [])
    (hidle : terms.Idle) : m'.Steady terms loose [] where
  pool := h.records_eq ▸ h.accounts _ _ hs.pool
  bound := h.records_eq ▸ hs.bound
  recorded s p frame hp hframe := by
    rw [h.records_eq]
    exact hs.recorded s p frame hp ((h.faded.similar.frame s p).symm.trans hframe)
  tables := hs.tables.similar h.faded.similar
  honest hcareful s p := h.records_eq ▸ (hs.honest hcareful s p).similar h.faded.similar
  untouched := Terms.untouched_of_none hidle.bytes _

/-- The cause of an eviction that failed to write its victim out. -/
def VmError.OfWriteOut (cause : VmError) : Prop :=
  cause.OfSwap ∨ ∃ e, cause = .writeBack e

variable {μ : Type → Type} [Kernel μ] {others : Machine → Machine → Prop} {evicts : Prop}
  (O : Outcomes μ others evicts) (hothers : ∀ before after, others before after → before.Devices after)

include hothers

/-- A victim is moved out of its frame, or it stays where it was. -/
theorem Outcomes.migrate (hpicked : before.Picked victim m) (hs : before.Steady terms [] [])
    (hidle : terms.Idle) : O.Yields (Kernel.migrate victim) m fun outcome after =>
      match outcome with
      | .ok () => after.Steady terms [victim.frame] [] ∧ before.Calm after
      | .error cause => after.Steady (terms.excusing cause) [] [] ∧
        before.Reverted terms.careful after := by
  refine O.bind (O.holding (O.devices hothers fun met hmet => ?_))
  refine ((hpicked.devices hmet).detach hs hidle).mono fun transit after hafter => ?_
  obtain ⟨hframe, hafter⟩ := hafter
  refine O.bind (O.mono (O.writeOut hothers transit) fun outcome written hwritten => ?_)
  cases outcome with
  | error cause =>
    obtain ⟨hdevices, hplan, hcause⟩ := hwritten
    obtain ⟨hdiscard, -⟩ | ⟨entry, info, hmoving⟩ := hafter
    · exact absurd hdiscard hplan
    · refine O.bind (O.holding (O.holding (O.devices hothers fun last hlast => ?_)))
      refine (((hmoving.devices hidle hdevices).devices hidle hlast).restore hs hidle hcause).mono ?_
      exact fun _ _ hdone => O.pure hdone
  | ok copy =>
    obtain ⟨hwrote, hcopy⟩ := hwritten
    refine O.bind (O.holding (O.holding (O.devices hothers fun last hlast => ?_)))
    have hlast' := hwrote.trans hlast.wrote
    obtain ⟨hdiscard, hcalm, hsteady⟩ | ⟨entry, info, hmoving⟩ := hafter
    · refine (Transition.yields_finish_discard copy hdiscard).mono ?_
      rintro _ _ ⟨memory, notice, rfl⟩
      refine O.pure ⟨hsteady.similar (by rw [hlast'.frames_eq]) (by rw [hlast'.frames_eq])
        (hlast'.spaces_eq ▸ .refl _) (Terms.untouched_of_none hidle.bytes _), fun s p => ?_,
        (hcalm.speaks.trans hlast'.speaks).trans ⟨#[notice], rfl⟩⟩
      rw [← hcalm.segment s p, hlast'.spaces_eq]
    · rw [← hframe]
      exact (hmoving.finish hidle hlast' hcopy).mono fun _ _ hdone => O.pure hdone

/-- A frame for a new use is found, or nothing has changed. -/
theorem Outcomes.evict (hs : m.Steady terms [] []) (hidle : evicts → terms.Idle) :
    O.Yields Kernel.evict m fun outcome after =>
      match outcome with
      | .ok (frame, _) => after.Steady terms [frame] [] ∧ m.Calm after
      | .error cause => after.Steady (terms.excusing cause) [] [] ∧
        (cause.OfWriteOut → m.Reverted terms.careful after) := by
  by_cases hevicts : evicts
  · specialize hidle hevicts
    refine O.holding (O.bind (O.holding (O.mono (O.findSource hothers hs.pool) ?_)))
    rintro (cause | (frame | victim)) after hafter
    · obtain ⟨hcause, hswept⟩ := hafter
      refine O.pure ⟨(hswept.steady hs hidle).excusing cause, fun hwhy => ?_⟩
      rcases hcause with rfl | rfl <;> rcases hwhy with (h | ⟨_, h⟩) | ⟨_, h⟩ <;> cases h
    · obtain ⟨_, pool, ⟨_, _, rfl⟩, rfl, haccounts⟩ := hafter
      refine O.pure ⟨⟨haccounts.perm List.perm_middle.symm fun _ => Iff.rfl, hs.bound, hs.recorded,
        hs.tables, hs.honest, Terms.untouched_of_none hidle.bytes _⟩, fun _ _ => rfl, .of_eq rfl⟩
    · refine O.bind (O.mono (O.migrate hothers hafter hs hidle) fun outcome last hlast => ?_)
      cases outcome with
      | ok u => exact O.pure hlast
      | error cause => exact O.pure ⟨hlast.1, fun _ => hlast.2⟩
  · exact O.waits hevicts

end

end DemandPaging
