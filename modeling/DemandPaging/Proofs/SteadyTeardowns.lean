import DemandPaging.Proofs.SteadyMappings
import DemandPaging.Proofs.Teardowns

/-!
# Teardowns by a steady machine

To unmap files and to tear a space down leaves a steady machine steady. A page of a mapping that is
removed has its window still, so it is mapped to the frame that is given back for it or, on careful
terms, to none. A space that was torn down has neither entries nor frames.
-/

set_option autoImplicit false

namespace DemandPaging

open Spaces Machine Transition

section

variable {terms : Terms} {m m' : Machine} {s : SpaceId} {p frame : Nat}

/-! ### Pages that are forgotten -/

/-- A page that is forgotten has no entry and no mapping any more, and its slot may have been given back. -/
theorem Transition.yields_forget {copy : Option SwapCopy} :
    (forget s p copy).Yields m fun entry after => entry = mapped? m.spaces s p ∧ ∃ slots,
      after = { m with spaces := unmap (drop m.spaces s p) s p, swap := { m.swap with slots } } := by
  rw [forget, yields_bind, yields_supplement]
  intro space hspace
  rw [yields_bind, yields_setSupplement, modify_supplement hspace fun table => table.erase p, yields_bind,
    yields_clear]
  intro _ _
  have hentry : mapped? (drop m.spaces s p) s p = mapped? m.spaces s p := mapped?_drop
  cases copy with
  | none => exact yields_pure.mpr ⟨hentry, m.swap.slots, rfl⟩
  | some copy => exact yields_bind.mpr (yields_releaseSlot.mpr fun slots _ =>
      yields_pure.mpr ⟨hentry, slots, rfl⟩)

/-- A page that belongs to no mapping is forgotten. Its frames are pinned, or it has none. -/
theorem Machine.Steady.forget {pinned : List Nat} (h : m.Steady terms [] pinned) (hp : IsAligned p)
    (hunlisted : Unlisted m.spaces s p)
    (hrecords : terms.careful → ∀ r ∈ m.frames.records, r.owner = s → r.page = some p →
      r.frame ∈ pinned) {copy : Option SwapCopy} :
    (Transition.forget s p copy).Yields m fun entry after => entry = mapped? m.spaces s p ∧
      after.Steady terms [] pinned ∧ after.frames = m.frames ∧ Elsewhere m.spaces after.spaces s p ∧
        mapped? after.spaces s p = none := by
  refine yields_forget.mono ?_
  rintro entry _ ⟨hentry, slots, rfl⟩
  have he : Elsewhere m.spaces (unmap (drop m.spaces s p) s p) s p :=
    elsewhere_drop.trans (elsewhere_unmap hp)
  have hnone : mapped? (unmap (drop m.spaces s p) s p) s p = none := by
    rw [mapped?_unmap, if_pos ⟨rfl, rfl⟩]
  have hframe : ∀ f, frame? (unmap (drop m.spaces s p) s p) s p ≠ some f := by
    intro f
    rw [frame?, hnone]
    simp
  refine ⟨hentry, ?_, rfl, he, hnone⟩
  refine h.update terms.page he hp (fun _ _ _ hne => hne) h.pool (fun _ _ => Iff.rfl)
    (fun _ _ _ hin => hin) (fun f hf => absurd hf (hframe f)) (fun info hinfo => ?_) (.inr hunlisted)
    (fun hcareful => ⟨fun r hr howner hpage hnot => ?_, fun _ _ f _ _ _ _ hf => absurd hf (hframe f)⟩)
    h.untouched
  · rw [info?_unmap, info?_drop, if_pos ⟨rfl, rfl⟩] at hinfo
    cases hinfo
  · exact absurd (hrecords hcareful r hr howner hpage) hnot

/-- On careful terms no frame is meant for a page of a mapped file that is said to be out of memory or is
not mapped. -/
theorem Machine.Steady.not_backed (h : m.Steady terms [] []) (hcareful : terms.careful) {info : PageInfo}
    (hinfo : info? m.spaces s p = some info)
    (hwindow : ∃ segment, segment? m.spaces s p = some segment ∧ segment.writeBack = true)
    (hnone : (if info.resident then (mapped? m.spaces s p).map (·.frame.toNat) else none) = none)
    {r : FrameRecord} (hr : r ∈ m.frames.records) (howner : r.owner = s) : r.page ≠ some p := by
  intro hpage
  have hmapped := (h.honest hcareful s p).mapped r hr howner hpage List.not_mem_nil
  obtain ⟨segment, hsegment, hback⟩ := hwindow
  rw [segment?, hinfo] at hsegment
  refine absurd ((h.honest hcareful s p).truthful info segment r.frame hinfo hsegment hback ?_ hmapped)
    List.not_mem_nil
  by_contra hres
  rw [Bool.not_eq_false] at hres
  rw [if_pos hres] at hnone
  exact Option.some_ne_none _ (hmapped.symm.trans hnone)

/-- A page that is mapped to a pinned frame is forgotten, and the frame is mapped nowhere. -/
theorem Machine.Held.forget (h : m.Held terms s p frame) (hunlisted : Unlisted m.spaces s p)
    {copy : Option SwapCopy} :
    (Transition.forget s p copy).Yields m fun entry after => entry = mapped? m.spaces s p ∧
      after.Granted terms s p frame ∧ Elsewhere m.spaces after.spaces s p := by
  refine (h.steady.forget h.aligned hunlisted fun hcareful r hr howner hpage => ?_).mono ?_
  · by_contra hnot
    have := h.steady.eq_of_mapped hcareful h.mapped hr howner hpage hnot
    exact hnot (this ▸ List.mem_cons_self)
  · rintro entry after ⟨hentry, hsteady, hframes, he, hnone⟩
    refine ⟨hentry, ⟨hsteady, h.aligned, hframes ▸ h.mem, fun s' p' hp' hframe => ?_⟩, he⟩
    have hmem : { frame, owner := s, page := some p } ∈ after.frames.records := hframes.symm ▸ h.mem
    have hrecord := hsteady.record_inj (hsteady.recorded s' p' frame hp' hframe) hmem rfl
    obtain ⟨-, rfl, hpage⟩ := FrameRecord.mk.inj hrecord
    obtain rfl := Option.some.inj hpage
    rw [frame?, hnone] at hframe
    cases hframe

/-- A frame is pinned that a page is mapped to. -/
theorem Machine.Steady.pinIfBacking (h : m.Steady terms [] []) (hp : IsAligned p)
    (hframe : frame? m.spaces s p = some frame) :
    (Transition.pinIfBacking frame s p).Yields m fun backs after => backs = true ∧
      after.Held terms s p frame ∧ after.spaces = m.spaces := by
  rw [Transition.pinIfBacking, yields_bind, yields_frames, yields_bind, yields_ofExcept]
  rintro ⟨backs, table⟩ hpin
  refine yields_bind.mpr (yields_setFrames.mpr (yields_pure.mpr ?_))
  have hmem := h.recorded s p frame hp hframe
  have hbacking := FrameTable.isBacking_of_mem (List.nodup_append.mp h.pool.nodup).1 hmem
  obtain ⟨hbacks, hpinned⟩ := FrameTable.exists_of_pinIfBacking hpin
  obtain rfl : true = backs := hbacking.symm.trans hbacks
  obtain ⟨pool, hpool, rfl⟩ := hpinned
  refine ⟨rfl, ⟨?_, hp, hmem, hframe⟩, rfl⟩
  obtain ⟨-, -, haccounts⟩ := h.pool.setPinned hpool
  refine ⟨haccounts.perm (.refl _) fun f => by simp, h.bound, h.recorded, h.tables,
    fun hcareful s' p' => ?_, h.untouched⟩
  obtain ⟨hmapped, htruthful⟩ := h.honest hcareful s' p'
  refine ⟨fun r hr howner hpage _ => hmapped r hr howner hpage List.not_mem_nil, ?_⟩
  intro info segment f hinfo hsegment hback hres hf
  exact absurd (htruthful info segment f hinfo hsegment hback hres hf) List.not_mem_nil

/-! ### What a space that is torn down has -/

/-- To give slots back changes the bitmap only. -/
theorem Transition.yields_releaseCopies (infos : List PageInfo) : ∀ {m : Machine},
    (releaseCopies infos).Yields m fun _ after => ∃ slots,
      after = { m with swap := { m.swap with slots } } := by
  induction infos with
  | nil => exact yields_pure.mpr ⟨_, rfl⟩
  | cons info infos ih =>
    intro m
    rw [releaseCopies]
    cases info.copy? with
    | none => exact ih
    | some copy =>
      refine yields_bind.mpr (yields_releaseSlot.mpr fun slots _ => ih.mono ?_)
      rintro _ _ ⟨slots', rfl⟩
      exact ⟨slots', rfl⟩

/-- All entries of a space are dropped, and its mappings with them. -/
theorem Machine.Steady.dropEntries (h : m.Steady terms [] []) :
    (Transition.dropEntries s).Yields m fun _ after => after.Steady terms [] [] ∧
      ∀ p, info? after.spaces s p = none := by
  refine yields_bind.mpr (yields_supplement.mpr fun space hspace => ?_)
  refine yields_bind.mpr (yields_setSupplement.mpr ?_)
  rw [modify_supplement hspace fun table => table.destroy]
  have hinfo : ∀ s' p info, info? (emptied m.spaces s) s' p = some info →
      s' ≠ s ∧ info? m.spaces s' p = some info := by
    intro s' p info hi
    rw [info?_emptied] at hi
    split at hi
    · cases hi
    · exact ⟨‹_›, hi⟩
  have hframe : ∀ s' p, frame? (emptied m.spaces s) s' p = frame? m.spaces s' p := fun _ _ => by
    rw [frame?, frame?, emptied, mapped?_onSupplement]
  have hother : ∀ s', s' ≠ s → standing? (emptied m.spaces s) s' = standing? m.spaces s' := by
    intro s' hne
    rw [emptied, standing?_onSupplement, if_neg (Ne.symm hne)]
  have hrelisted : Relisted m.spaces (emptied m.spaces s) := by
    refine ⟨fun s' p info hi => (hinfo s' p info hi).2, fun s' p _ _ _ => hframe s' p,
      fun s' new hs => ?_, fun s' p info hi htorn => ?_⟩
    · by_cases heq : s' = s
      · subst heq
        rw [standing?_emptied] at hs
        obtain ⟨old, hold, rfl⟩ := Option.map_eq_some_iff.mp hs
        exact .inr ⟨old, hold, rfl⟩
      · exact .inr ⟨new, (hother s' heq).symm.trans hs, rfl⟩
    · exact htorn.congr (hother s' (hinfo s' p info hi).1).symm
  have hlisted : ∀ s' id mapping, mapping? (emptied m.spaces s) s' id = some mapping →
      s' ≠ s ∧ mapping? m.spaces s' id = some mapping := by
    intro s' id mapping hmapping
    by_cases heq : s' = s
    · subst heq
      rw [mapping?, standing?_emptied] at hmapping
      obtain ⟨_, hold, hid⟩ := Option.bind_eq_some_iff.mp hmapping
      obtain ⟨old, -, rfl⟩ := Option.map_eq_some_iff.mp hold
      simp at hid
    · exact ⟨heq, (mapping?_congr (hother s' heq) id).symm.trans hmapping⟩
  have hsteady : Machine.Steady terms [] [] { m with spaces := emptied m.spaces s } := by
    refine h.relist hframe hrelisted.info (h.tables.relist hrelisted ?_ ?_)
    · intro s' id mapping hmapping
      obtain ⟨hne, hold⟩ := hlisted s' id mapping hmapping
      refine (h.tables.whole s' id mapping hold).congr fun p _ => ?_
      rw [segment?, info?_emptied, if_neg hne]
      rfl
    · intro s' id id' mapping mapping' p hmapping hmapping'
      exact h.tables.disjoint s' id id' mapping mapping' p (hlisted _ _ _ hmapping).2
        (hlisted _ _ _ hmapping').2
  refine (yields_releaseCopies _).mono ?_
  rintro _ _ ⟨slots, rfl⟩
  refine ⟨hsteady.said slots m.notices, fun p => ?_⟩
  exact info?_emptied.trans (if_pos rfl)

/-- All frames of a space without entries are given back, and their pages are unmapped. -/
theorem Machine.Steady.freeOwnedBy (h : m.Steady terms [] []) (hnone : ∀ p, info? m.spaces s p = none) :
    (Transition.freeOwnedBy s).Yields m fun _ after => after.Steady terms [] [] := by
  rw [Transition.freeOwnedBy, yields_bind, yields_frames, yields_bind, yields_ofExcept]
  rintro ⟨gone, table⟩ hfreed
  obtain ⟨table', htable, hrecords, hmemory, -, haccounts⟩ := FrameTable.freeOwnedBy_eq_ok h.pool s
  obtain ⟨rfl, rfl⟩ := Prod.mk.inj (Except.ok.inj (hfreed.symm.trans htable))
  rw [yields_bind, yields_setFrames]
  have hkept : ∀ r, r ∈ table.records ↔ r ∈ m.frames.records ∧ r.owner ≠ s := by
    intro r
    rw [hrecords, List.mem_filter, Bool.not_eq_true', decide_eq_false_iff_not]
  have hgone : ∀ r, r ∈ m.frames.records.filter (fun r => decide (r.owner = s)) ↔
      r ∈ m.frames.records ∧ r.owner = s := by
    intro r
    rw [List.mem_filter, decide_eq_true_eq]
  refine yields_bind.mpr ((@ensures_clearPages _ { m with frames := table } ?_).yields.mono ?_)
  · intro r hr p hp
    obtain ⟨q, hq, haligned⟩ := h.bound r ((hgone r).mp hr).1
    exact Option.some.inj (hp.symm.trans hq) ▸ haligned
  rintro _ _ ⟨spaces, rfl, hinfo, hstanding, hmapped⟩
  -- whatever was mapped in the space had a record that is gone
  have hcleared : ∀ p f, IsAligned p → frame? spaces s p ≠ some f := by
    intro p f hp hf
    rw [frame?, hmapped s p hp] at hf
    split at hf
    · cases hf
    · rename_i hno
      exact hno ⟨_, (hgone _).mpr ⟨h.recorded s p f hp hf, rfl⟩, rfl, rfl⟩
  have hother : ∀ s' p, IsAligned p → s' ≠ s → frame? spaces s' p = frame? m.spaces s' p := by
    intro s' p hp hne
    rw [frame?, frame?, hmapped s' p hp, if_neg]
    rintro ⟨r, hr, howner, -⟩
    exact hne (howner.symm.trans ((hgone r).mp hr).2)
  have hknown : ∀ s' p info, info? spaces s' p = some info →
      s' ≠ s ∧ info? m.spaces s' p = some info := by
    intro s' p info hi
    have hold := (hinfo s' p).symm.trans hi
    refine ⟨?_, hold⟩
    rintro rfl
    cases (hnone p).symm.trans hold
  have hrelisted : Relisted m.spaces spaces :=
    ⟨fun s' p info hi => (hknown s' p info hi).2,
      fun s' p info hi hp => hother s' p hp (hknown s' p info hi).1,
      fun s' new hs => .inr ⟨new, (hstanding s').symm.trans hs, rfl⟩,
      fun s' _ _ _ htorn => htorn.congr (hstanding s').symm⟩
  refine yields_pure.mpr ⟨haccounts, fun r hr => h.bound r ((hkept r).mp hr).1, fun s' p f hp hf => ?_,
    h.tables.relist hrelisted ?_ ?_, fun hcareful s' p => ⟨fun r hr howner hpage hnot => ?_, ?_⟩, ?_⟩
  · have hne : s' ≠ s := by
      rintro rfl
      exact hcleared p f hp hf
    exact (hkept _).mpr ⟨h.recorded s' p f hp ((hother s' p hp hne).symm.trans hf), hne⟩
  · simpa only [mapping?_congr (hstanding _), Whole, segment?, hinfo] using h.tables.whole
  · simpa only [mapping?_congr (hstanding _)] using h.tables.disjoint
  · obtain ⟨hr, hne⟩ := (hkept r).mp hr
    obtain ⟨q, hq, hp⟩ := h.bound r hr
    rw [hother s' p (Option.some.inj (hpage.symm.trans hq) ▸ hp) (howner ▸ hne)]
    exact (h.honest hcareful s' p).mapped r hr howner hpage hnot
  · intro info segment f hi hsegment hback hres hf
    obtain ⟨hne, hold⟩ := hknown s' p info hi
    rw [hother s' p (h.tables.aligned s' p info hold) hne] at hf
    exact (h.honest hcareful s' p).truthful info segment f hold hsegment hback hres hf
  · intro inFrame inSlot hsome
    rw [hmemory]
    exact h.untouched inFrame inSlot hsome

/-! ### Mappings that are removed -/

/-- What is still listed was listed before. -/
theorem Spaces.of_mapping?_unlisted {spaces : Array AddressSpace} {id : Nat} {mapping : Mapping}
    (hmapping : mapping? spaces s id = some mapping) {s' : SpaceId} {id' : Nat} {mapping' : Mapping}
    (hlisted : mapping? (unlisted spaces s id) s' id' = some mapping') :
    mapping? spaces s' id' = some mapping' ∧ ¬ (s' = s ∧ id' = id) := by
  obtain ⟨standing, hstanding, -⟩ := Option.bind_eq_some_iff.mp hmapping
  by_cases hs : s' = s
  · subst hs
    rw [mapping?, standing?_unlisted hstanding, Option.bind_some,
      Std.ExtTreeMap.getElem?_erase] at hlisted
    split at hlisted
    · cases hlisted
    · rename_i hne
      refine ⟨by rw [mapping?, hstanding]; exact hlisted, fun heq => hne ?_⟩
      rw [heq.2]
      exact Std.ReflCmp.compare_self
  · rw [mapping?, standing?_unlisted_of_ne hs] at hlisted
    exact ⟨hlisted, fun heq => hs heq.1⟩

/-- A live mapping is listed no more. -/
theorem Machine.Steady.unlisted (h : m.Steady terms [] []) {id : Nat} {mapping : Mapping}
    (hmapping : mapping? m.spaces s id = some mapping) :
    Machine.Steady terms [] [] { m with spaces := Transition.unlisted m.spaces s id } := by
  obtain ⟨standing, hstanding, -⟩ := Option.bind_eq_some_iff.mp hmapping
  have hrelisted : Relisted m.spaces (Transition.unlisted m.spaces s id) := by
    refine ⟨fun _ _ _ hi => info?_unlisted.symm.trans hi, fun _ _ _ _ _ => ?_, fun s' new hs => ?_,
      fun s' _ _ _ htorn => ?_⟩
    · rw [frame?, frame?, mapped?_unlisted]
    · by_cases heq : s' = s
      · subst heq
        rw [standing?_unlisted hstanding] at hs
        obtain rfl := Option.some.inj hs
        exact .inr ⟨standing, hstanding, rfl⟩
      · exact .inr ⟨new, (standing?_unlisted_of_ne heq).symm.trans hs, rfl⟩
    · by_cases heq : s' = s
      · subst heq
        obtain ⟨new, hs, hd⟩ := htorn
        rw [standing?_unlisted hstanding] at hs
        obtain rfl := Option.some.inj hs
        exact ⟨standing, hstanding, hd⟩
      · exact htorn.congr (standing?_unlisted_of_ne heq).symm
  refine h.relist (fun _ _ => ?_) hrelisted.info (h.tables.relist hrelisted ?_ ?_)
  · rw [frame?, frame?, mapped?_unlisted]
  · intro s' id' mapping' hmapping'
    have hold := h.tables.whole s' id' mapping' (of_mapping?_unlisted hmapping hmapping').1
    exact hold.congr fun p _ => segment?_unlisted
  · intro s' id₁ id₂ mapping₁ mapping₂ p h₁ h₂
    exact h.tables.disjoint s' id₁ id₂ mapping₁ mapping₂ p (of_mapping?_unlisted hmapping h₁).1
      (of_mapping?_unlisted hmapping h₂).1

variable {μ : Type → Type} [Kernel μ] {others : Machine → Machine → Prop} {evicts : Prop}
  (O : Outcomes μ others evicts)
  (hallows : ∀ before after, others before after → terms.Allows before after)

include hallows

/-- A frame is pinned that a page is mapped to. -/
theorem Outcomes.pinIfBacking (h : m.Steady terms [] []) (hp : IsAligned p)
    (hframe : frame? m.spaces s p = some frame) :
    O.Yields (Kernel.pinIfBacking frame s p) m fun backs after => backs = true ∧
      after.Held terms s p frame ∧ after.spaces = m.spaces := by
  refine O.holding (O.step hallows fun met hmet => ?_)
  rw [← hmet.spaces_eq] at hframe ⊢
  exact (h.allows hmet).pinIfBacking hp hframe

/-- A frame that nothing is mapped to any more is written back if need be and given back. -/
theorem Outcomes.saveAndFree (h : m.Granted terms s p frame) (info : PageInfo)
    (entry : Option PageTableEntry) :
    O.Yields (Kernel.saveAndFree frame info entry) m fun _ after => after.Steady terms [] [] ∧
      after.spaces = m.spaces := by
  have hrest : ∀ (saved : Except FileError Unit) (before : Machine), terms.Allows m before →
      O.Yields (do
        Kernel.free frame
        Pure.pure (saved.mapError VmError.file)) before fun _ after => after.Steady terms [] [] ∧
          after.spaces = m.spaces := by
    intro saved before hbefore
    refine O.bind (O.mono (O.free hallows (h.fills (hbefore.fills frame))) fun u after hafter => ?_)
    exact O.pure ⟨hafter.1, hafter.2.1.trans (hbefore.fills frame).spaces_eq⟩
  unfold Kernel.saveAndFree
  split
  · split
    · exact O.bind (O.mono (O.writeBack hallows _) fun saved after hafter => hrest saved after hafter)
    · exact O.bind (O.pure (hrest _ m (.refl terms m)))
  · exact O.bind (O.pure (hrest _ m (.refl terms m)))

variable (h : m.Steady terms [] []) (hidle : evicts → terms.Idle)

include h hidle

/-- One page of a mapping that is listed no more is unmapped. -/
theorem Outcomes.unmapPageIn (hunlisted : Unlisted m.spaces s p)
    (hwindow : ∃ segment, segment? m.spaces s p = some segment ∧ segment.writeBack = true)
    (rounds : Nat) :
    O.Yields (Kernel.unmapPageIn s p rounds) m fun _ after => after.Steady terms [] [] ∧
      Elsewhere m.spaces after.spaces s p := by
  cases rounds with
  | zero => exact O.atomically fun _ _ => yields_throw.mpr trivial
  | succ rounds =>
    refine O.bind (O.mono (O.supplement hallows) fun table met hmet => ?_)
    obtain ⟨hmet, space, hspace, rfl⟩ := hmet
    have hmet' := h.allows hmet
    rw [← hmet.spaces_eq] at hunlisted hwindow hspace ⊢
    split
    · exact O.pure ⟨hmet', .refl _ s p⟩
    · rename_i info hfound
      have hinfo : info? met.spaces s p = some info := (info?_eq hspace).trans hfound
      have hp : IsAligned p := hmet'.tables.aligned s p info hinfo
      split
      · rename_i hevicting
        by_cases hevicts : evicts
        · have hstill := hmet'.tables.still s p info hinfo (by rw [(hidle hevicts).page]; simp)
          rw [hstill] at hevicting
          cases hevicting
        · exact O.bind (O.waits hevicts)
      · refine O.bind (O.mono (O.findEntry hallows) fun entry last hlast => ?_)
        obtain ⟨hlast, rfl⟩ := hlast
        have hlast' := hmet'.allows hlast
        rw [← hlast.spaces_eq] at hunlisted hwindow hinfo ⊢
        cases hframe : if info.resident then (mapped? last.spaces s p).map (·.frame.toNat) else none with
        | none =>
          simp only
          refine O.bind (O.holding (O.step hallows fun now hnow => ?_))
          have hnow' := hlast'.allows hnow
          rw [← hnow.spaces_eq] at hunlisted hwindow hinfo hframe ⊢
          refine (hnow'.forget hp hunlisted fun hcareful r hr howner hpage => ?_).mono ?_
          · exact absurd hpage (hnow'.not_backed hcareful hinfo hwindow hframe hr howner)
          · rintro _ after ⟨-, hsteady, -, he, -⟩
            exact O.pure ⟨hsteady, he⟩
        | some frame =>
          simp only
          have hmapped : frame? last.spaces s p = some frame := by
            split at hframe
            · exact hframe
            · cases hframe
          refine O.bind (O.mono (O.pinIfBacking hallows hlast' hp hmapped) fun backs held hheld => ?_)
          obtain ⟨rfl, hheld, hspaces⟩ := hheld
          rw [← hspaces] at hunlisted ⊢
          refine O.bind (O.holding (O.step hallows fun now hnow => ?_))
          rw [← hnow.spaces_eq] at hunlisted ⊢
          refine ((hheld.fills (hnow.fills frame)).forget hunlisted).mono ?_
          rintro entry granted ⟨-, hgranted, he⟩
          refine O.mono (O.saveAndFree hallows hgranted info entry) fun _ after hafter => ⟨hafter.1, ?_⟩
          rw [hafter.2]
          exact he

/-- A mapping is removed, and all its pages are unmapped. -/
theorem Outcomes.removeMapping (id : Nat) :
    O.Yields (Kernel.removeMapping s id) m fun _ after => after.Steady terms [] [] := by
  refine O.bind (O.holding (O.step hallows fun met hmet => ?_))
  have hmet' := h.allows hmet
  refine ensures_takeMapping.yields.mono ?_
  rintro taken taking ⟨rfl, hnone, hsome⟩
  cases hmapping : mapping? met.spaces s id with
  | none =>
    obtain rfl := hnone hmapping
    exact O.pure hmet'
  | some mapping =>
    obtain rfl := hsome (by rw [hmapping]; rfl)
    have hlisted : ∀ s' id' mapping', mapping? (unlisted met.spaces s id) s' id' = some mapping' →
        mapping? met.spaces s' id' = some mapping' ∧ ¬ (s' = s ∧ id' = id) :=
      fun _ _ _ => of_mapping?_unlisted hmapping
    have hsteady := hmet'.unlisted hmapping
    refine O.bind (O.mono (O.throughFailures (fun done after => after.Steady terms [] [] ∧
      (∀ s', standing? after.spaces s' = standing? (unlisted met.spaces s id) s') ∧
      ∀ p, p ∉ done → segment? after.spaces s p = segment? met.spaces s p) ?_
      ⟨hsteady, fun _ => rfl, fun _ _ => segment?_unlisted⟩) fun outcome after hafter => ?_)
    · rintro done p rest before hwhole ⟨hbefore, hstand, hsegments⟩
      have hp : p ∈ pageRange mapping.page mapping.pages := by
        rw [hwhole]
        exact List.mem_append_right _ List.mem_cons_self
      have hnot : p ∉ done := by
        have hnodup := nodup_pageRange mapping.page mapping.pages
        rw [hwhole] at hnodup
        exact fun hin => (List.nodup_append.mp hnodup).2.2 p hin p List.mem_cons_self rfl
      refine O.mono (O.unmapPageIn hallows hbefore hidle ?_ ?_ _) fun outcome after hafter => ?_
      · intro id' mapping' hmapping' hin
        rw [mapping?_congr (hstand s)] at hmapping'
        obtain ⟨hold, hne⟩ := hlisted s id' mapping' hmapping'
        exact hne ⟨rfl, hmet'.tables.disjoint s id id' mapping mapping' p hmapping hold hp hin⟩
      · rw [hsegments p hnot]
        exact hmet'.tables.windows s id mapping p hmapping hp
      · obtain ⟨hafter, he⟩ := hafter
        refine ⟨hafter, fun s' => (he.standing s').trans (hstand s'), fun q hq => ?_⟩
        rw [List.mem_append, List.mem_singleton, not_or] at hq
        exact (he.segment fun heq => hq.2 heq.2).trans (hsegments q hq.1)
    · refine O.bind (O.step hallows fun last hlast => yields_space.mpr fun _ _ => ?_)
      refine O.bind (O.step hallows fun now hnow => yields_notify.mpr (O.pure ?_))
      exact ((hafter.1.allows hlast).allows hnow).said _ _

/-- A file is unmapped. -/
theorem Outcomes.unmapFile (id : Nat) :
    O.Yields (Kernel.unmapFile s id) m fun _ after => after.Steady terms [] [] :=
  O.holding (O.removeMapping hallows h hidle id)

/-- To remove all mappings of a list leaves the machine steady. -/
theorem Outcomes.removeMappings (ids : List Nat) :
    O.Yields (Kernel.removeMappings s ids) m fun _ after => after.Steady terms [] [] := by
  induction ids generalizing m with
  | nil => exact O.pure h
  | cons id ids ih =>
    refine O.bind (O.mono (O.removeMapping hallows h hidle id) fun outcome after hafter => ?_)
    cases outcome with
    | ok u => exact ih hafter
    | error cause =>
      refine O.bind (O.step hallows fun met hmet => yields_space.mpr fun _ _ => ?_)
      refine O.bind (O.step hallows fun last hlast => yields_notify.mpr ?_)
      exact ih (((hafter.allows hmet).allows hlast).said _ _)

/-- A space is torn down. -/
theorem Outcomes.destroy :
    O.Yields (Kernel.destroy s) m fun _ after => after.Steady terms [] [] := by
  refine O.holding (O.bind (O.mono (O.supplement hallows) fun table met hmet => ?_))
  have hmet' := h.allows hmet.1
  split
  · exact O.pure hmet'
  refine O.bind (O.mono (O.removeMappings hallows hmet' hidle _) fun u removed hremoved => ?_)
  refine O.bind (O.holding (O.step hallows fun last hlast => ?_))
  refine (hremoved.allows hlast).dropEntries.mono ?_
  rintro _ dropped ⟨hdropped, hnone⟩
  refine O.bind (O.holding (O.step hallows fun now hnow => ?_))
  refine ((hdropped.allows hnow).freeOwnedBy fun p => ?_).mono fun gone freed hfreed => ?_
  · rw [hnow.spaces_eq]
    exact hnone p
  · refine O.bind (O.step hallows fun ready hready => yields_space.mpr fun _ _ => ?_)
    refine O.step hallows fun final hfinal => yields_notify.mpr ?_
    exact ((hfreed.allows hready).allows hfinal).said _ _

end

end DemandPaging
