import DemandPaging.Proofs.FlatMemory
import DemandPaging.Proofs.MarkedRegistrations

/-!
# Only changed pages are saved

A page of flat memory was changed if a byte was stored in it since it came. The marks of the machine
are right with respect to that along every run (`Run.marked`): what an action does to the marks is what
it does to flat memory.

So the swap disk and the files of mappings are written only for pages that were changed
(`Run.savesChanged`). A page of a file that is in swap is private, may be written and was changed. A
file is written only where a changed page of a mapping has its window, and only after the page was
changed: what a copy to user memory stores counts from the piece on that stored it.
-/

set_option autoImplicit false

namespace DemandPaging

open Spaces Machine

namespace Transition

variable {machine : Machine} {changed : SpaceId → Nat → Prop}

/-- A call upholds the marks, with the pages changed that it stores in; or it registers pages, with
windows that suit them. -/
theorem upholds_perform (ho : machine.Orderly) (hmarked : Marked changed machine.spaces) (c : Call)
    (hpermitted : c.Permitted machine) :
    Yields (Kernel.perform c) machine fun _ after =>
      machine.Upholds (fun s p => changed s p ∨ StoredIn (c.stored machine) s p) after ∨
      c.stored machine = nothing ∧ (∃ s window, Adds s window machine after) ∧
        Extends machine.spaces after.spaces := by
  have hquiet : ∀ after, c.stored machine = nothing → machine.Upholds changed after →
      machine.Upholds (fun s p => changed s p ∨ StoredIn (c.stored machine) s p) after := by
    intro after hstored hupholds
    refine hupholds.mono (fun _ _ hold => .inl hold) fun s p hp hchanged => ?_
    rw [hstored] at hchanged
    exact (hupholds.marked s p hp).allowed
      (hchanged.resolve_right (not_storedIn_nothing s p))
  have hregisters : c.Registers machine → Yields (Kernel.perform c) machine fun _ after =>
      c.stored machine = nothing ∧ (∃ s window, Adds s window machine after) ∧
        Extends machine.spaces after.spaces := by
    intro hc
    refine ((ensures_registers hc (c.not_bare hc hpermitted)).yields.and
      (extends_registers hc)).mono ?_
    rintro _ after ⟨⟨s, -, hadds, -⟩, hextends⟩
    exact ⟨(quiet_of_registers hc).1, ⟨s, _, hadds⟩, hextends⟩
  cases c with
  | registerPage | registerSegment =>
    exact (hregisters hpermitted.1).mono fun _ _ hafter => .inr hafter
  | mapFile s f page =>
    simp only [Kernel.perform, yields_bind, yields_pure]
    refine (ensures_mapFile s f page).yields.mono fun outcome after hafter => ?_
    cases outcome with
    | ok id =>
      obtain ⟨file, -, hmaps⟩ := hafter
      exact .inr ⟨rfl, ⟨s, _, hmaps.adds⟩, hmaps.extends⟩
    | error cause => exact .inl (hquiet after rfl (hafter ▸ (Aside.refl machine).upholds hmarked))
  | unmapFile s id =>
    simp only [Kernel.perform, Kernel.unmapFile, holding_eq, yields_bind, yields_pure]
    exact (upholds_removeMapping ho.settled ho.mapped hmarked id).mono fun _ after hafter =>
      .inl (hquiet after rfl hafter)
  | resolveFault s address stackPointer code =>
    simp only [Kernel.perform, yields_bind, yields_pure]
    exact (upholds_resolveFault ho.settled hmarked address stackPointer code).mono
      fun _ after hafter => .inl (hquiet after rfl hafter)
  | handleFault s address stackPointer code =>
    simp only [Kernel.perform, yields_bind, yields_pure]
    exact (upholds_handleFault ho.settled hmarked address stackPointer code).mono
      fun _ after hafter => .inl (hquiet after rfl hafter)
  | growStack s address =>
    simp only [Kernel.perform, yields_bind, yields_pure]
    exact (upholds_growStack ho.settled hmarked hpermitted).mono
      fun _ after hafter => .inl (hquiet after rfl hafter)
  | copyFromUser s start length stackPointer =>
    simp only [Kernel.perform, yields_bind, yields_pure]
    exact (upholds_copyFromUser ho.settled hmarked start length stackPointer).mono
      fun _ after hafter => .inl (hquiet after rfl hafter)
  | copyToUser s start data stackPointer =>
    simp only [Kernel.perform, yields_bind, yields_pure]
    exact (upholds_copyToUser ho.settled hmarked start data stackPointer).mono
      fun _ _ hafter => .inl hafter
  | destroy s =>
    simp only [Kernel.perform, yields_bind, yields_pure]
    exact (upholds_destroy ho.settled ho.mapped hmarked).mono
      fun _ after hafter => .inl (hquiet after rfl hafter)
  | allocate | allocateFor | bind | unpin | free | freeOwnedBy => exact hpermitted.elim

end Transition

/-- A byte was stored in the page since it came. -/
def FlatPage.Changed (page : FlatPage) : Prop := ∃ k, k < pageSize ∧ (page.stored k).isSome = true

/-- The pages of flat memory that were changed. -/
def Changed (moments : List Moment) (s : SpaceId) (p : Nat) : Prop :=
  ∃ page, flat moments s p = some page ∧ page.Changed

section

variable {moments : List Moment} {moment : Moment} {s : SpaceId} {p : Nat}

/-! ### One moment -/

/-- The pages that were changed before a moment, and those that it stores in. -/
def Moment.changes (moment : Moment) (moments : List Moment) : SpaceId → Nat → Prop :=
  fun s p => Changed moments s p ∨ StoredIn (moment.action.stored moment.before) s p

/-- A page that is known after a moment was changed if it was changed before or is stored in. -/
theorem Refines.changed_iff (h : Refines moment.before moments) (ho : moment.before.Orderly)
    (hm : Moves moment.action moment.reply moment.before moment.after) (hp : IsAligned p)
    (hknown : moment.after.Known s p) :
    Changed (moments ++ [moment]) s p ↔ moment.changes moments s p := by
  have hflat := h.flat_eq (s := s) ho hm hp
  rw [if_pos hknown] at hflat
  have hor : ∀ new old : Option UInt8,
      (new <|> old).isSome = true ↔ new.isSome = true ∨ old.isSome = true := by
    intro new old
    cases new <;> simp
  simp only [Changed, FlatPage.Changed, Moment.changes, StoredIn, hflat, Option.some.injEq,
    exists_eq_left', hor, and_or_left, exists_or]
  cases flat moments s p with
  | none => simp
  | some page => simp [or_comm]

/-- Nothing is wrong with pages that are not known. -/
theorem Refines.marked (h : Refines moment.before moments) (ho : moment.before.Orderly)
    (hm : Moves moment.action moment.reply moment.before moment.after)
    (hmarked : Marked (moment.changes moments) moment.after.spaces) :
    Marked (Changed (moments ++ [moment])) moment.after.spaces := by
  intro s p hp
  by_cases hknown : moment.after.Known s p
  · rw [propext (h.changed_iff ho hm hp hknown)]
    exact hmarked s p hp
  · obtain ⟨hmapped, hinfo⟩ := not_or.mp hknown
    rw [Option.not_isSome_iff_eq_none] at hmapped hinfo
    rw [hmapped, segment?, copy?, hinfo]
    exact marks_of_absent

/-- Pages that are registered have right marks, for nobody has stored in them. -/
theorem Refines.adds {window : Nat → Option Segment} (h : Refines moment.before moments)
    (hmarked : Marked (Changed moments) moment.before.spaces)
    (hstored : moment.action.stored moment.before = nothing)
    (hadds : Adds s window moment.before moment.after)
    (hextends : Extends moment.before.spaces moment.after.spaces) :
    Marked (moment.changes moments) moment.after.spaces := by
  have hchanges : ∀ s' p, moment.changes moments s' p ↔ Changed moments s' p := by
    intro s' p
    rw [Moment.changes, hstored]
    exact or_iff_left (not_storedIn_nothing s' p)
  intro s' p hp
  rw [propext (hchanges s' p), hadds.mapped, hadds.copy]
  rcases hadds.info s' p with heq | ⟨rfl, -, hunknown, -, segment, -, hinfo⟩
  · rw [segment?, heq]
    exact hmarked s' p hp
  · have hnew : ¬ Changed moments s' p := by
      rintro ⟨page, hpage, -⟩
      exact hunknown ((h.known s' p hp).mp (by rw [hpage, Option.isSome_some]))
    obtain ⟨hmapped, hnone⟩ := not_or.mp hunknown
    rw [Option.not_isSome_iff_eq_none] at hmapped hnone
    have hsegment : segment? moment.after.spaces s' p = some segment := by
      rw [segment?, hinfo]
      rfl
    have hnowindow : segment? moment.before.spaces s' p = none := by
      rw [segment?, hnone, Option.bind_none]
    obtain ⟨hproper, huser⟩ : Suits p segment :=
      (hextends s' p segment hsegment).resolve_left (by
        rw [hnowindow]
        exact (Option.some_ne_none segment).symm)
    rw [hmapped, copy?, hnone, hsegment]
    refine marks_of_none (fun hchanged => absurd hchanged hnew) ?_ fun _ => huser
    rintro _ ⟨⟩
    exact hproper

/-- What a permitted call does to the marks and to files. -/
theorem Refines.perform (h : Refines moment.before moments) (ho : moment.before.Orderly)
    (hmarked : Marked (Changed moments) moment.before.spaces)
    {c : Call} (haction : moment.action = .call c) (hpermitted : c.Permitted moment.before)
    (hstep : moment.action.step moment.before = .ok moment.reply moment.after) :
    Marked (moment.changes moments) moment.after.spaces ∧
      ∃ calls, moment.after.files = Files.serveAll moment.before.files calls ∧
        ∀ call ∈ calls, call.Due (moment.changes moments) moment.before.spaces := by
  have hstored : moment.action.stored moment.before = c.stored moment.before := by
    rw [haction]
    rfl
  rw [haction] at hstep
  rcases Transition.upholds_perform ho hmarked c hpermitted _ _ hstep with
    hupholds | ⟨hnothing, ⟨s, window, hadds⟩, hextends⟩
  · rw [← hstored] at hupholds
    exact ⟨hupholds.marked, hupholds.calls⟩
  · exact ⟨h.adds hmarked (hstored.trans hnothing) hadds hextends, [], hadds.files, List.forall_mem_nil _⟩

/-- The marks are right after a moment if they were before. -/
theorem Refines.marked_step (h : Refines moment.before moments) (ho : moment.before.Orderly)
    (hmarked : Marked (Changed moments) moment.before.spaces)
    (hm : Moves moment.action moment.reply moment.before moment.after)
    (hpermitted : moment.action.Permitted moment.before)
    (hstep : moment.action.step moment.before = .ok moment.reply moment.after) :
    Marked (Changed (moments ++ [moment])) moment.after.spaces := by
  refine h.marked ho hm ?_
  by_cases hcall : ∃ c, moment.action = .call c
  · obtain ⟨c, haction⟩ := hcall
    rw [haction] at hpermitted
    exact (h.perform ho hmarked haction hpermitted hstep).1
  · have houtside := (Transition.ensures_outside (not_exists.mp hcall)).of_ok hstep
    intro s p hp
    have hchanges : moment.changes moments s p ↔ Changed moments s p := by
      rw [Moment.changes, (Action.eq_none_of_outside (not_exists.mp hcall)).1]
      exact or_iff_left (not_storedIn_nothing s p)
    rw [propext hchanges, houtside.segment, houtside.mapped, houtside.copy]
    exact hmarked s p hp

/-! ### All moments -/

variable {start machine : Machine}

/-- The marks of all pages are right along a run. -/
theorem Run.marked (hfresh : start.Fresh) (h : Run start moments machine) :
    Marked (Changed moments) machine.spaces := by
  induction h with
  | nil =>
    intro s p _
    rw [hfresh.mapped?, segment?, copy?, hfresh.info?]
    exact marks_of_absent
  | @snoc moments before after action reply hrun hpermitted hstep ih =>
    obtain ⟨ho, -, hm⟩ := (hrun.snoc hpermitted hstep).moves hfresh.orderly
    exact @Refines.marked_step moments ⟨action, reply, before, after⟩ (hrun.refines hfresh) ho ih hm
      hpermitted hstep

/-- What is in swap and what is written to files is there for pages that were changed. -/
structure SavesChanged (moments : List Moment) (machine : Machine) : Prop where
  /-- A page of a file that is in swap is private, may be written, and was changed since it came. -/
  swapped : ∀ s p info segment copy, info? machine.spaces s p = some info →
    info.backing = .fileThenSwap segment copy → segment.writeBack = false ∧ segment.writable = true ∧
      ∃ page, flat moments s p = some page ∧ page.window = some segment ∧ page.Changed
  /-- No page of a mapped file and none that must not be written is in swap. -/
  unswapped : ∀ s p page segment, IsAligned p → flat moments s p = some page →
    page.window = some segment → segment.writeBack = true ∨ segment.writable = false →
      copy? machine.spaces s p = none
  /-- A call writes a file only in the windows of pages of its mappings, and those were changed before
  it or by it. -/
  written : ∀ earlier moment later c, moments = earlier ++ moment :: later →
    moment.action = .call c → ∃ calls, moment.after.files = Files.serveAll moment.before.files calls ∧
      ∀ call ∈ calls, call.Due (moment.changes earlier) moment.before.spaces
  /-- While a copy stores a piece, only those pages are written that were changed before the copy or by
  the pieces before this one. -/
  piecewise : ∀ earlier moment later s start data stackPointer done piece rest middle outcome after,
    moments = earlier ++ moment :: later →
    moment.action = .call (.copyToUser s start data stackPointer) →
    Piece.all start data.size = done ++ piece :: rest →
    Kernel.upToFailure (Transition.storePiece s start data stackPointer) done moment.before =
      .ok (.ok ()) middle →
    Transition.storePiece s start data stackPointer piece middle = .ok outcome after →
    ∃ calls, after.files = Files.serveAll middle.files calls ∧ ∀ call ∈ calls,
      call.Due (Transition.changedBy (Changed earlier) s start data done) moment.before.spaces

/-- Along a run only changed pages go to swap if they have a file, and files are written only for changed
pages of their mappings. -/
theorem Run.savesChanged (hfresh : start.Fresh) (h : Run start moments machine) :
    SavesChanged moments machine := by
  have hmarked := h.marked hfresh
  have hrefines := h.refines hfresh
  have hsettled := (h.orderly hfresh.orderly).settled
  -- the machine before any moment of the run
  have hbefore : ∀ earlier moment later, moments = earlier ++ moment :: later →
      Run start (earlier ++ [moment]) moment.after := by
    rintro earlier moment later rfl
    rw [List.append_cons] at h
    obtain ⟨middle, hfirst, -⟩ := h.split
    obtain ⟨hrun, hpermitted, hstep, -⟩ := hfirst.last
    exact hrun.snoc hpermitted hstep
  refine ⟨?_, ?_, ?_, ?_⟩
  · intro s p info segment copy hinfo hbacking
    have hfits := hsettled.described.fits s p info hinfo nofun
    have hsegment : segment? machine.spaces s p = some segment := by
      rw [segment?, hinfo, Option.bind_some, PageInfo.segment?, hbacking]
      rfl
    have hcopy : copy? machine.spaces s p = some copy := by
      rw [copy?, hinfo, Option.bind_some, PageInfo.copy?, hbacking]
      rfl
    have hpage := hmarked s p hfits.aligned
    have hchanged := hpage.kept (by rw [hcopy, Option.isSome_some]) (by rw [hsegment, Option.isSome_some])
    have hwritable := hpage.allowed hchanged
    obtain ⟨page, hflat, hstored⟩ := hchanged
    have hwindow := (hrefines.window s p page hfits.aligned hflat).symm.trans hsegment
    rw [hsegment] at hwritable
    refine ⟨?_, hwritable, page, hflat, hwindow, hstored⟩
    rw [← Bool.not_eq_true]
    intro hback
    have hnone := hfits.back segment (by rw [PageInfo.segment?, hbacking]; rfl) hback
    rw [PageInfo.copy?, hbacking] at hnone
    cases hnone
  · intro s p page segment hp hflat hwindow hwhy
    have hsegment := (hrefines.window s p page hp hflat).trans hwindow
    obtain ⟨info, hinfo, hinfoSegment⟩ := Option.bind_eq_some_iff.mp hsegment
    have hfits := hsettled.described.fits s p info hinfo nofun
    rcases hwhy with hback | hreadOnly
    · rw [copy?, hinfo, Option.bind_some, hfits.back segment hinfoSegment hback]
    · rw [← Option.not_isSome_iff_eq_none]
      intro hsome
      exact hmarked.not_changed hp hsegment hreadOnly
        ((hmarked s p hp).kept hsome (by rw [hsegment, Option.isSome_some]))
  · intro earlier moment later c hsplit haction
    have hmoment := hbefore earlier moment later hsplit
    obtain ⟨hrun, hpermitted, hstep, -⟩ := hmoment.last
    rw [haction] at hpermitted
    exact ((hrun.refines hfresh).perform (hrun.orderly hfresh.orderly) (hrun.marked hfresh) haction
      hpermitted hstep).2
  · intro earlier moment later s address data stackPointer done piece rest middle outcome after hsplit
      haction hwhole hdone hpiece
    obtain ⟨hrun, -, -, -⟩ := (hbefore earlier moment later hsplit).last
    have hstored := (Transition.upholds_storePieces (hrun.orderly hfresh.orderly).settled
      (hrun.marked hfresh) hwhole stackPointer).of_ok hdone
    obtain ⟨hsettled', hupholds, hserved⟩ := hstored
    rw [hserved rfl] at hupholds
    exact Transition.due_storePiece hsettled' hupholds piece stackPointer outcome after hpiece

end

/-- A byte is stored in a private page of a file, and the page goes to swap when the stack grows. -/
theorem savesChanged_sample : ∃ moments machine segment copy page, Run .sample moments machine ∧
    (info? machine.spaces 0 0x10000).map (·.backing) = some (.fileThenSwap segment copy) ∧
    flat moments 0 0x10000 = some page ∧ page.window = some segment ∧ page.Changed := by
  obtain ⟨moments, machine, h, -, hbacking⟩ := @exists_run .sample
    [.addSpace 1, .addFile (.ofBytes #[1, 2, 3]),
      .call (.registerPage 0 0 0 0x10000 3 4093 true), .call (.copyToUser 0 0x10001 #[9] 0),
      .call (.growStack 0 0x7ffff000)]
    (fun r => (info? r.2.spaces 0 0x10000).any fun info =>
      info.backing.segment?.isSome && info.backing.copy?.isSome) (by decide +kernel)
  obtain ⟨info, hinfo, hboth⟩ := (Option.any_eq_true ..).mp hbacking
  obtain ⟨segment, copy, heq⟩ : ∃ segment copy, info.backing = .fileThenSwap segment copy := by
    cases hbacking : info.backing with
    | fileThenSwap segment copy => exact ⟨segment, copy, rfl⟩
    | file | swap | anonymous =>
      rw [hbacking] at hboth
      cases hboth
  obtain ⟨-, -, page, hflat, hwindow, hchanged⟩ :=
    (Run.savesChanged Machine.fresh_sample h).swapped 0 0x10000 info segment copy hinfo heq
  refine ⟨moments, machine, segment, copy, page, h, ?_, hflat, hwindow, hchanged⟩
  rw [hinfo, Option.map_some, heq]

end DemandPaging
