import DemandPaging.Proofs.MarkedFaults
import DemandPaging.Proofs.SteadyTeardowns

/-!
# Unmappings uphold the marks

A page that is forgotten has no marks that could be wrong (`Marked.forget`). Whether it counts as changed
does not matter then, since a page without a window may be written.

A page of a mapping is saved if it has its dirty mark, and then it was changed (`upholds_unmapPage`). To
remove mappings and to tear a space down is to unmap pages one after the other.
-/

set_option autoImplicit false

namespace DemandPaging

open Spaces Machine

section

variable {changed : SpaceId → Nat → Prop} {a : Array AddressSpace} {s : SpaceId} {p : Nat}
  {m : Machine}

/-- A page that is forgotten has no marks that could be wrong. -/
theorem Marked.forget (h : Marked changed a) (hp : IsAligned p) :
    Marked changed (unmap (drop a s p) s p) := by
  refine h.update (elsewhere_drop.trans (elsewhere_unmap hp)) ?_
  have hinfo : info? (unmap (drop a s p) s p) s p = none := by
    rw [info?_unmap, info?_drop, if_pos ⟨rfl, rfl⟩]
  rw [mapped?_unmap, if_pos ⟨rfl, rfl⟩, segment?, copy?, hinfo]
  exact marks_of_absent

/-- No page has got a window by forgetting one. -/
theorem Spaces.segment?_forget {s' : SpaceId} {q : Nat} {segment : Segment}
    (h : segment? (unmap (drop a s p) s p) s' q = some segment) : segment? a s' q = some segment := by
  rw [segment?, info?_unmap, info?_drop] at h
  split at h
  · cases h
  · exact h

/-- A space that loses all it had has no marks that could be wrong. -/
theorem Empties.upholds {m' : Machine} (he : Empties s m m') (h : Marked changed m.spaces) :
    m.Upholds changed m' := by
  refine ⟨fun s' q segment hsegment => ?_, fun s' q hq => ?_, [], he.files_eq, List.forall_mem_nil _⟩
  · rw [segment?, he.info] at hsegment
    split at hsegment
    · cases hsegment
    · exact hsegment
  · rw [segment?, copy?, he.info, he.mapped s' q hq]
    split
    · exact marks_of_absent
    · exact h s' q hq

end

namespace Transition

variable {machine : Machine} {changed : SpaceId → Nat → Prop} {s : SpaceId} {p frame : Nat}

/-! ### One page -/

/-- To pin a frame that backs a page touches the frame table only. -/
theorem aside_pinIfBacking :
    Yields (Kernel.pinIfBacking frame s p) machine fun _ after => machine.Aside after := by
  simp only [Kernel.pinIfBacking, holding_eq, lift_eq, pinIfBacking, yields_bind, yields_frames,
    yields_ofExcept, yields_setFrames, yields_pure]
  exact fun _ _ => ⟨rfl, rfl⟩

/-- A page is saved if it has a window and its last entry has the dirty mark. -/
theorem yields_saveAndFree (info : PageInfo) (entry : Option PageTableEntry) :
    Yields (Kernel.saveAndFree frame info entry) machine fun _ after =>
      after.spaces = machine.spaces ∧ ∃ calls, after.files = Files.serveAll machine.files calls ∧
        ∀ call ∈ calls, ∃ segment e data, info.segment? = some segment ∧ entry = some e ∧
          e.dirty = true ∧ data.size = segment.readBytes ∧
          call = .write segment.file segment.offset data := by
  have hidle : Yields (Kernel.free frame >>= fun _ => pure (Except.mapError VmError.file (.ok ())))
      machine fun _ after => after.spaces = machine.spaces ∧ after.files = machine.files := by
    simp only [yields_bind, yields_pure]
    exact aside_free.mono fun _ _ hfreed => ⟨hfreed.spaces_eq, hfreed.files_eq⟩
  cases hinfo : info.segment? with
  | none =>
    simp only [Kernel.saveAndFree, hinfo, pure_bind]
    exact hidle.mono fun _ _ h => ⟨h.1, [], h.2, List.forall_mem_nil _⟩
  | some segment =>
    cases entry with
    | none =>
      simp only [Kernel.saveAndFree, hinfo, pure_bind]
      exact hidle.mono fun _ _ h => ⟨h.1, [], h.2, List.forall_mem_nil _⟩
    | some e =>
      rw [saveAndFree_eq hinfo, yields_bind]
      refine yields_ite (fun hdirty => ?_) (fun _ => ?_)
      · refine (yields_writeBack segment).mono ?_
        rintro saved _ ⟨data, hsize, rfl⟩
        simp only [yields_bind, yields_pure]
        refine aside_free.mono fun _ _ hfreed => ⟨hfreed.spaces_eq,
          [.write segment.file segment.offset data], hfreed.files_eq, fun call hcall => ?_⟩
        exact ⟨segment, e, data, rfl, rfl, hdirty, hsize, List.mem_singleton.mp hcall⟩
      · exact yields_pure.mpr (hidle.mono fun _ _ h => ⟨h.1, [], h.2, List.forall_mem_nil _⟩)

/-- To unmap a page of a mapped file upholds the marks: it is saved only if it was changed. -/
theorem upholds_unmapPage (hmarked : Marked changed machine.spaces) (hp : IsAligned p)
    (hback : ∀ segment, segment? machine.spaces s p = some segment → segment.writeBack = true) :
    Yields (Kernel.unmapPage s p) machine fun _ after => machine.Upholds changed after := by
  unfold Kernel.unmapPage
  generalize unmapRounds = rounds
  induction rounds generalizing machine with
  | zero => exact yields_throw.mpr trivial
  | succ rounds ih =>
    simp only [Kernel.unmapPageIn, Kernel.supplement, Kernel.await, holding_eq, lift_eq, yields_bind,
      yields_supplement]
    intro space hspace
    have hinfo := info?_eq (p := p) hspace
    -- nothing but calls that were due have reached a file when the page is forgotten
    have hforgotten : ∀ (after : Machine) (calls : List FileCall),
        after.spaces = unmap (drop machine.spaces s p) s p →
        after.files = Files.serveAll machine.files calls →
        (∀ call ∈ calls, call.Due changed machine.spaces) → machine.Upholds changed after := by
      intro after calls hspaces hfiles hdue
      refine ⟨fun s' q segment hsegment => ?_, hspaces ▸ hmarked.forget hp, calls, hfiles, hdue⟩
      rw [hspaces] at hsegment
      exact segment?_forget hsegment
    cases hfind : space.supplement.find? p with
    | none => exact yields_pure.mpr ((Aside.refl machine).upholds hmarked)
    | some info =>
      refine yields_ite (fun _ => ?_) (fun _ => ?_)
      · simp only [yields_bind, yields_pure]
        exact ih hmarked hback
      · simp only [yields_bind, yields_findEntry]
        intro _ _
        split
        · simp only [yields_bind, yields_pure]
          refine yields_forget.mono ?_
          rintro entry _ ⟨-, slots, rfl⟩
          exact hforgotten _ [] rfl rfl (List.forall_mem_nil _)
        · simp only [yields_bind]
          refine aside_pinIfBacking.mono fun backs pinned hpinned => ?_
          refine yields_ite (fun _ => ?_) (fun _ => ?_)
          · simp only [yields_bind]
            refine yields_forget.mono ?_
            rintro _ _ ⟨rfl, slots, rfl⟩
            refine (yields_saveAndFree info _).mono ?_
            rintro _ after ⟨hspaces, calls, hfiles, hcalls⟩
            rw [hpinned.spaces_eq] at hspaces hcalls
            replace hfiles : after.files = Files.serveAll machine.files calls := hpinned.files_eq ▸ hfiles
            refine hforgotten after calls hspaces hfiles fun call hcall => ?_
            obtain ⟨segment, e, data, hseg, hentry, hdirty, hsize, rfl⟩ := hcalls call hcall
            have hsegment : segment? machine.spaces s p = some segment := by
              rw [segment?, hinfo, hfind, Option.bind_some, hseg]
            have hchanged := (hmarked s p hp).dirty e hentry hdirty (by rw [hsegment]; rfl)
            exact ⟨s, p, segment, hp, hsegment, hback segment hsegment, hchanged, rfl, rfl, hsize⟩
          · simp only [yields_bind, yields_pure]
            have hlooked := hpinned.upholds hmarked
            refine (ih (hpinned.spaces_eq ▸ hmarked) (hpinned.spaces_eq ▸ hback)).mono ?_
            exact fun _ after hafter => hlooked.trans hafter

/-! ### Mappings -/

/-- To unmap pages of mapped files one after the other upholds the marks, whether pages are refused or
not. -/
theorem upholds_unmapPages (hmarked : Marked changed machine.spaces) {pages : List Nat}
    (hpages : ∀ p ∈ pages, IsAligned p ∧
      ∀ segment, segment? machine.spaces s p = some segment → segment.writeBack = true) :
    Yields (Kernel.throughFailures (Kernel.unmapPage s) pages) machine fun _ after =>
      machine.Upholds changed after := by
  refine Outcomes.alone.toRules.throughFailures (fun _ after => machine.Upholds changed after)
    (fun done p rest before hwhole hbefore => ?_) ((Aside.refl machine).upholds hmarked)
  obtain ⟨hp, hback⟩ := hpages p (by simp [hwhole])
  have hback' : ∀ segment, segment? before.spaces s p = some segment → segment.writeBack = true :=
    fun segment hsegment => hback segment (hbefore.segment s p segment hsegment)
  exact (upholds_unmapPage hbefore.marked hp hback').mono fun _ _ hafter => hbefore.trans hafter

/-- To remove a mapping upholds the marks. -/
theorem upholds_removeMapping (h : machine.Settled) (hm : Mapped machine.spaces)
    (hmarked : Marked changed machine.spaces) (id : Nat) :
    Yields (Kernel.removeMapping s id) machine fun _ after => machine.Upholds changed after := by
  simp only [Kernel.removeMapping, holding_eq, lift_eq, yields_bind]
  refine ensures_takeMapping.yields.mono ?_
  rintro taken taking ⟨rfl, hnone, hsome⟩
  cases hmapping : mapping? machine.spaces s id with
  | none =>
    obtain rfl : taking = machine := hnone hmapping
    exact yields_pure.mpr ((Aside.refl taking).upholds hmarked)
  | some mapping =>
    obtain rfl := hsome (by rw [hmapping]; rfl)
    have hunlisted : Marked changed (unlisted machine.spaces s id) := by
      intro s' p hp
      have hcopy : copy? (unlisted machine.spaces s id) s' p = copy? machine.spaces s' p := by
        rw [copy?, copy?, info?_unlisted]
      rw [segment?_unlisted, mapped?_unlisted, hcopy]
      exact hmarked s' p hp
    have hlisted : machine.Upholds changed
        { machine with spaces := unlisted machine.spaces s id } :=
      .of_marked hunlisted (fun _ _ => segment?_unlisted) rfl
    simp only [yields_bind]
    refine (upholds_unmapPages hunlisted fun p hp => ?_).mono fun outcome after hafter => ?_
    · obtain ⟨segment, hsegment, hback, -⟩ := hm.window hmapping hp
      refine ⟨h.described.isAligned hsegment, fun other hother => ?_⟩
      obtain rfl := Option.some.inj (hsegment.symm.trans (segment?_unlisted.symm.trans hother))
      exact hback
    · simp only [yields_space, yields_notify, yields_pure]
      exact fun _ _ => (hlisted.trans hafter).aside ⟨rfl, rfl⟩

/-- To remove mappings one after the other upholds the marks. -/
theorem upholds_removeMappings (ids : List Nat) : ∀ {machine : Machine}, machine.Settled →
    Mapped machine.spaces → Marked changed machine.spaces →
    Yields (Kernel.removeMappings s ids) machine fun _ after => machine.Upholds changed after := by
  induction ids with
  | nil => exact fun _ _ hmarked => yields_pure.mpr ((Aside.refl _).upholds hmarked)
  | cons id ids ih =>
    intro machine h hm hmarked
    simp only [Kernel.removeMappings, yields_bind]
    refine ((upholds_removeMapping h hm hmarked id).and
      (ensures_removeMapping h hm s id).yields).mono ?_
    rintro outcome removed ⟨hupholds, hsettled, hremoved⟩
    have hmapped : Mapped removed.spaces := by
      cases hmapping : mapping? machine.spaces s id with
      | none =>
        rw [hmapping] at hremoved
        exact hremoved.1 ▸ hm
      | some mapping =>
        rw [hmapping] at hremoved
        exact hremoved.1.mapped hm
    have hrest : ∀ before : Machine, before.Settled → removed.Aside before →
        Yields (Kernel.removeMappings s ids) before fun _ after => machine.Upholds changed after := by
      intro before hbefore haside
      have hall := hupholds.aside haside
      refine (ih hbefore (haside.spaces_eq ▸ hmapped) hall.marked).mono ?_
      exact fun _ after hafter => hall.trans hafter
    cases outcome with
    | ok u => exact hrest removed hsettled (Aside.refl removed)
    | error cause =>
      simp only [lift_eq, yields_bind, yields_space, yields_notify]
      intro _ _
      exact hrest _ (Coherent.congr hsettled rfl rfl rfl rfl) ⟨rfl, rfl⟩

/-- To tear a space down upholds the marks. -/
theorem upholds_destroy (h : machine.Settled) (hm : Mapped machine.spaces)
    (hmarked : Marked changed machine.spaces) :
    Yields (Kernel.destroy s) machine fun _ after => machine.Upholds changed after := by
  simp only [Kernel.destroy, Kernel.supplement, holding_eq, lift_eq, yields_bind, yields_supplement]
  intro space _
  refine yields_ite (fun _ => ?_) (fun _ => ?_)
  · exact yields_pure.mpr ((Aside.refl machine).upholds hmarked)
  · refine yields_bind.mpr (((upholds_removeMappings space.supplement.mappingIds h hm hmarked).and
      (ensures_removeMappings space.supplement.mappingIds h hm).yields).mono ?_)
    rintro _ removed ⟨hupholds, hsettled, -⟩
    refine (ensures_empty hsettled s).yields.mono ?_
    rintro _ after ⟨-, hempties⟩
    exact hupholds.trans (hempties.upholds hupholds.marked)

end Transition

end DemandPaging
