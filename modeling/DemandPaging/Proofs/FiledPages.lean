import DemandPaging.Proofs.Histories
import DemandPaging.Proofs.Upkeep

/-!
# Pages that are filed

A page of a mapped file never goes to swap, its window fits in a page, and its file is there
(`PageInfo.Filed`). No call spoils this, whatever pages it names, nor the number of frames; no file goes
away, and no number of a mapping is given out twice. `Machine.Lasts` says all of this of two machines, and
every call keeps it up (`Outcomes.lasts_perform`).

Others may meanwhile do what they like to files and devices but make files go away. A `Chronicle` is a
history of that kind.
-/

set_option autoImplicit false

namespace DemandPaging

open Spaces Machine Transition

/-! ### Entries -/

/-- If the page belongs to a mapped file, then it is in no swap slot, its window fits in a page, and its
file is one of the first `files`. -/
def PageInfo.Filed (files : Nat) (info : PageInfo) : Prop :=
  ∀ segment, info.segment? = some segment → segment.writeBack = true →
    info.copy? = none ∧ segment.readBytes ≤ pageSize ∧ segment.file < files

namespace PageInfo

variable {info info' : PageInfo} {files files' : Nat}

/-- Files may be new. -/
theorem Filed.mono (h : info.Filed files) (hle : files ≤ files') : info.Filed files' := by
  intro segment hsegment hback
  obtain ⟨hcopy, hfits, hlt⟩ := h segment hsegment hback
  exact ⟨hcopy, hfits, Nat.lt_of_lt_of_le hlt hle⟩

/-- Only the window and the swap copy matter. -/
theorem Filed.congr (h : info.Filed files) (hsegment : info'.segment? = info.segment?)
    (hcopy : info.copy? = none → info'.copy? = none) : info'.Filed files := by
  intro segment hfound hback
  obtain ⟨hnone, hrest⟩ := h segment (hsegment.symm.trans hfound) hback
  exact ⟨hcopy hnone, hrest⟩

/-- A page that belongs to no mapped file is filed. -/
theorem filed_of_private (h : ∀ segment, info.segment? = some segment → segment.writeBack = false) :
    info.Filed files := by
  intro segment hsegment hback
  rw [h segment hsegment] at hback
  cases hback

/-- A page that came back from swap has no copy any more. -/
theorem Filed.movedIn (h : info.Filed files) (hmoved : info.movedIn? = some info') :
    info'.Filed files := by
  obtain ⟨-, -, hsegment, -⟩ := of_movedIn? hmoved
  refine h.congr hsegment fun _ => ?_
  unfold movedIn? at hmoved
  unfold copy?
  cases hbacking : info.backing <;> rw [hbacking] at hmoved <;> cases hmoved <;> rfl

end PageInfo

/-- What was planned for a page of a mapped file is not to move it to swap. -/
theorem Plan.ofEntry_ne_swap {entry : PageTableEntry} {info : PageInfo} {segment : Segment}
    (hsegment : info.segment? = some segment) (hback : segment.writeBack = true) (writable : Bool) :
    Plan.ofEntry entry info ≠ .swap writable := by
  rw [Plan.ofEntry, hsegment]
  simp only [hback, Bool.true_and, Bool.true_or, if_true]
  split <;> simp

/-- Every page of a mapped file is filed. -/
def Machine.Filed (m : Machine) : Prop :=
  ∀ s p info, info? m.spaces s p = some info → info.Filed m.files.size

/-- Frames are as many as before, no file has gone, numbers of mappings are given out in ascending order,
and pages are still filed. -/
structure Machine.Lasts (before after : Machine) : Prop where
  frames : before.frames.AsLarge after.frames
  files : before.files.size ≤ after.files.size
  next : ∀ s n, next? before.spaces s = some n → ∃ n', next? after.spaces s = some n' ∧ n ≤ n'
  filed : before.Filed → after.Filed

/-- What lasts may be composed over the steps of an operation. -/
instance : IsPreorder Machine Machine.Lasts where
  refl _ := ⟨.refl _, Nat.le_refl _, fun _ n hn => ⟨n, hn, Nat.le_refl n⟩, id⟩
  trans _ _ _ h h' := by
    refine ⟨h.frames.trans h'.frames, Nat.le_trans h.files h'.files, fun s n hn => ?_, h'.filed ∘ h.filed⟩
    obtain ⟨n', hn', hle⟩ := h.next s n hn
    obtain ⟨n'', hn'', hle'⟩ := h'.next s n' hn'
    exact ⟨n'', hn'', Nat.le_trans hle hle'⟩

/-- What lasts twice lasts. -/
theorem Machine.Lasts.trans {a b c : Machine} (h : a.Lasts b) (h' : b.Lasts c) : a.Lasts c :=
  trans_of Machine.Lasts h h'

namespace Machine

variable {m m' : Machine} {s : SpaceId} {p : Nat}

/-- What goes on behind the tables lasts. -/
theorem Offstage.lasts (h : m.Offstage m') : m.Lasts m' where
  frames := h.frames
  files := h.files
  next _ n hn := ⟨n, h.spaces_eq ▸ hn, Nat.le_refl n⟩
  filed hfiled s p info hinfo := (hfiled s p info (h.spaces_eq ▸ hinfo)).mono h.files

/-- Slots may be claimed or given back besides, and something may be said. -/
theorem Lasts.aside {m'' : Machine} (h : m.Lasts m') (hspaces : m''.spaces = m'.spaces)
    (hframes : m''.frames = m'.frames) (hfiles : m''.files = m'.files) : m.Lasts m'' :=
  h.trans (offstage_of_eq hspaces hframes hfiles).lasts

/-- Entries were changed at most. -/
theorem lasts_entries {spaces : Array AddressSpace} (hnext : ∀ s, next? spaces s = next? m.spaces s)
    (hentries : m.Filed → ∀ s p info, info? spaces s p = some info →
      info? m.spaces s p = some info ∨ info.Filed m.files.size) : m.Lasts { m with spaces } where
  frames := .refl _
  files := Nat.le_refl _
  next s n hn := ⟨n, (hnext s).trans hn, Nat.le_refl n⟩
  filed hfiled s p info hinfo := (hentries hfiled s p info hinfo).elim (hfiled s p info) id

/-- The page directory of a space was changed. -/
theorem lasts_onDirectory (f : PageDirectory → PageDirectory) :
    m.Lasts { m with spaces := onDirectory m.spaces s f } := by
  refine lasts_entries (fun s' => ?_) fun _ s' p info hinfo => .inl ?_
  · simp only [next?, standing?, onDirectory, Array.getElem?_modify]
    split
    · cases m.spaces[s']? <;> rfl
    · rfl
  · rwa [info?_onDirectory] at hinfo

/-- The entry of a page was changed, and is filed if it was before. -/
theorem lasts_amend {f : PageInfo → PageInfo}
    (hf : ∀ info, info? m.spaces s p = some info → info.Filed m.files.size → (f info).Filed m.files.size) :
    m.Lasts { m with spaces := amend m.spaces s p f } := by
  refine lasts_entries (fun s' => next?_congr standing?_amend) fun hfiled s' p' info hinfo => ?_
  rw [info?_amend] at hinfo
  split at hinfo
  · rename_i hsp
    obtain ⟨rfl, rfl⟩ := hsp
    obtain ⟨old, hold, rfl⟩ := Option.map_eq_some_iff.mp hinfo
    exact .inr (hf old hold (hfiled s p old hold))
  · exact .inl hinfo

/-- The entry of a page was dropped. -/
theorem lasts_drop : m.Lasts { m with spaces := drop m.spaces s p } := by
  refine lasts_entries (fun s' => next?_congr standing?_drop) fun _ s' p' info hinfo => .inl ?_
  rw [info?_drop] at hinfo
  split at hinfo
  · cases hinfo
  · exact hinfo

/-- A page got an entry. -/
theorem lasts_put (hs : s < m.spaces.size) {info : PageInfo} (hinfo : info.Filed m.files.size) :
    m.Lasts { m with spaces := put m.spaces s p info } := by
  refine lasts_entries (fun s' => next?_congr standing?_put) fun _ s' p' info' hinfo' => ?_
  rw [info?_put hs] at hinfo'
  split at hinfo'
  · cases hinfo'
    exact .inr hinfo
  · exact .inl hinfo'

/-- Mappings were listed or taken off the list, and entries were dropped. -/
theorem lasts_onSupplement {g : Supplement → Supplement}
    (hnext : ∀ space, m.spaces[s]? = some space → space.supplement.nextMapping ≤ (g space.supplement).nextMapping)
    (hentries : ∀ table p info, (g table).find? p = some info → table.find? p = some info) :
    m.Lasts { m with spaces := onSupplement m.spaces s g } where
  frames := .refl _
  files := Nat.le_refl _
  next s' n hn := by
    simp only [next?, standing?_onSupplement]
    split
    · subst s'
      obtain ⟨_, hstanding, rfl⟩ := Option.map_eq_some_iff.mp hn
      obtain ⟨space, hspace, rfl⟩ := Option.map_eq_some_iff.mp hstanding
      rw [hspace]
      exact ⟨_, rfl, hnext space hspace⟩
    · exact ⟨n, hn, Nat.le_refl n⟩
  filed hfiled s' p info hinfo := by
    refine hfiled s' p info ?_
    rw [info?_onSupplement] at hinfo
    split at hinfo
    · subst s'
      obtain ⟨space, hspace, hfind⟩ := Option.bind_eq_some_iff.mp hinfo
      rw [info?_eq hspace]
      exact hentries _ p info hfind
    · exact hinfo

end Machine

/-! ### Steps -/

namespace Transition

variable {m : Machine} {s : SpaceId} {p frame : Nat}

/-- To unmap a page lasts. -/
theorem lasts_clear : (clear s p).Yields m fun _ after => m.Lasts after :=
  yields_clear.mpr fun _ _ => lasts_onDirectory _

/-- Any directory may be put in the place of another one. -/
theorem lasts_setDirectory (d : PageDirectory) :
    (setDirectory s d).Yields m fun _ after => m.Lasts after :=
  yields_setDirectory.mpr (lasts_onDirectory fun _ => d)

/-- To mark a page as accessed lasts. -/
theorem lasts_setAccessed (on : Bool) : (setAccessed s p on).Yields m fun _ after => m.Lasts after :=
  yields_setAccessed.mpr (lasts_onDirectory _)

/-- To mark a page as changed lasts. -/
theorem lasts_setDirty (on : Bool) : (setDirty s p on).Yields m fun _ after => m.Lasts after :=
  yields_setDirty.mpr (lasts_onDirectory _)

/-- To map a page lasts. -/
theorem lasts_install (writable : Bool) :
    (install s p frame writable).Yields m fun _ after => m.Lasts after :=
  yields_bind.mpr (yields_directory.mpr fun _ _ => yields_bind.mpr (yields_ofExcept.mpr fun _ _ =>
    yields_bind.mpr ((lasts_setDirectory _).mono fun _ _ hafter => yields_pure.mpr hafter)))

/-- A page that got an entry so that an eviction can work with it got an anonymous one. -/
theorem Entered.lasts {made : Array AddressSpace} {info : PageInfo}
    (h : Entered m.spaces s p info made) : m.Lasts { m with spaces := made } := by
  cases h with
  | found => exact refl_of Lasts _
  | made hs => exact lasts_put hs (PageInfo.filed_of_private nofun)

/-- A victim leaves its page directory, and its entry is marked. -/
theorem lasts_detach (victim : FrameRecord) : (detach victim).Yields m fun transit after =>
    m.Lasts after ∧ (transit.plan = .discard ∨ ∃ entry info, transit.plan = .ofEntry entry info ∧
      info? after.spaces transit.owner transit.page = some { info with evicting := true }) := by
  obtain ⟨frame, s, page⟩ := victim
  cases page with
  | none => exact yields_throw.mpr trivial
  | some p =>
    refine ensures_parted.yields.mono ?_
    rintro transit after ⟨_, _, spaces, rfl, rfl, hparted⟩
    cases hparted with
    | absent => exact ⟨lasts_onDirectory _, .inl rfl⟩
    | unwanted => exact ⟨lasts_onDirectory _, .inl rfl⟩
    | @marked entry info made hentry _ hentered =>
      have hcleared : m.Lasts { m with spaces := unmap m.spaces s p } := lasts_onDirectory _
      have hmade : m.Lasts { m with spaces := made } := hcleared.trans (Entered.lasts hentered)
      exact ⟨hmade.trans (lasts_amend fun _ _ hfiled => hfiled.congr rfl id),
        .inr ⟨entry, info, rfl, hentered.info?_amend _⟩⟩

/-- The contents of a victim are safe. If they went to swap, then its page belongs to no mapped file. -/
theorem lasts_finish {transit : Transit} {copy : Option SwapCopy}
    (hcopy : ∀ info segment, transit.plan ≠ .discard → copy.isSome = true →
      info? m.spaces transit.owner transit.page = some info → info.segment? = some segment →
        segment.writeBack = false) :
    (finish transit copy).Yields m fun _ after => m.Lasts after := by
  refine (yields_finished transit copy).mono ?_
  rintro _ _ ⟨-, spaces, slots, notice, hfinished, rfl⟩
  have hlasts : m.Lasts { m with spaces } := by
    cases hfinished with
    | discarded => exact refl_of Lasts m
    | gone => exact refl_of Lasts m
    | givenUp => exact refl_of Lasts m
    | released hplan =>
      refine lasts_amend fun old hold hfiled => ?_
      cases copy with
      | none => exact hfiled.congr rfl id
      | some saved =>
        refine PageInfo.filed_of_private fun segment hsegment => hcopy old segment hplan rfl hold ?_
        exact (PageInfo.segment?_saved old (some saved)).symm.trans hsegment
  exact ⟨FrameTable.asLarge_setPage _ _ _, hlasts.files, hlasts.next, hlasts.filed⟩

/-- A victim that could not be moved is put back. -/
theorem lasts_restore (transit : Transit) : (restore transit).Yields m fun _ after => m.Lasts after := by
  have hrecord : ∀ {before : Machine}, m.Lasts before → Yields (do
      modifyInfo transit.owner transit.page ({ · with evicting := false })
      let table ← frames
      setFrames (← ofExcept (table.insert
        { frame := transit.frame, owner := transit.owner, page := some transit.page } false)))
      before fun _ after => m.Lasts after := by
    intro before hbefore
    refine yields_bind.mpr (yields_modifyInfo.mpr (yields_bind.mpr (yields_frames.mpr (yields_bind.mpr
      (yields_ofExcept.mpr fun table htable => yields_setFrames.mpr ?_)))))
    have hamended : m.Lasts { before with
        spaces := amend before.spaces transit.owner transit.page ({ · with evicting := false }) } :=
      hbefore.trans (lasts_amend fun old _ hfiled => hfiled.congr rfl id)
    exact hamended.trans (offstage_frames (FrameTable.asLarge_of_insert htable)).lasts
  cases hentry : transit.entry with
  | none =>
    simp only [restore, hentry]
    exact hrecord (refl_of Lasts m)
  | some entry =>
    simp only [restore, hentry]
    refine yields_bind.mpr ((lasts_install _).mono fun _ _ hinstalled => ?_)
    refine yields_bind.mpr ((lasts_setDirty _).mono fun _ _ hdirty => ?_)
    refine yields_bind.mpr ((lasts_setAccessed _).mono fun _ _ haccessed => ?_)
    exact hrecord ((hinstalled.trans hdirty).trans haccessed)

/-- The entry of a page that is in memory again is brought up to date. -/
theorem lasts_settleSwapIn (copy : SwapCopy) (fileBacked : Bool) :
    (settleSwapIn s p copy fileBacked).Yields m fun _ after => m.Lasts after := by
  refine yields_settleSwapIn.mono ?_
  rintro _ _ ⟨made, slots, hmoved, rfl⟩
  have hmade : m.Lasts { m with spaces := made } := by
    cases hmoved with
    | dropped => exact lasts_drop
    | kept hinfo =>
      refine lasts_amend fun old hold hfiled => ?_
      rw [hold] at hinfo
      exact hfiled.movedIn hinfo
  cases fileBacked with
  | false => exact hmade.aside rfl rfl rfl
  | true =>
    have hmarked : m.Lasts { m with spaces := mark made s p ({ · with dirty := true }) } :=
      hmade.trans (lasts_onDirectory _)
    exact hmarked.aside rfl rfl rfl

/-- A page is forgotten. -/
theorem lasts_forget {copy : Option SwapCopy} : (forget s p copy).Yields m fun _ after => m.Lasts after := by
  refine yields_forget.mono ?_
  rintro _ _ ⟨-, slots, rfl⟩
  have hdropped : m.Lasts { m with spaces := drop m.spaces s p } := lasts_drop
  have hcleared : m.Lasts { m with spaces := unmap (drop m.spaces s p) s p } :=
    hdropped.trans (lasts_onDirectory _)
  exact hcleared.aside rfl rfl rfl

/-- A mapping is taken off the list. -/
theorem lasts_takeMapping (id : Nat) : (takeMapping s id).Yields m fun _ after => m.Lasts after := by
  refine yields_bind.mpr (yields_supplement.mpr fun space hspace => ?_)
  cases htaken : space.supplement.takeMapping id with
  | none => exact yields_pure.mpr (refl_of Lasts m)
  | some taken =>
    obtain ⟨mapping, table⟩ := taken
    refine yields_bind.mpr (yields_setSupplement.mpr (yields_pure.mpr ?_))
    obtain ⟨_, -, heq⟩ := Option.map_eq_some_iff.mp htaken
    obtain rfl : { space.supplement with mappings := space.supplement.mappings.erase id } = table :=
      (Prod.mk.inj heq).2
    rw [modify_supplement hspace fun table => { table with mappings := table.mappings.erase id }]
    exact lasts_onSupplement (fun _ _ => Nat.le_refl _) fun _ _ _ hfind => hfind

/-- A page that belongs to no mapped file is registered, or nothing happens. -/
theorem lasts_registerPage (f : FileId) (offset page readBytes zeroBytes : Nat) (writable : Bool) :
    (registerPage s f offset page readBytes zeroBytes writable).Yields m fun _ after => m.Lasts after := by
  refine yields_ite (fun _ => yields_throw.mpr trivial) fun _ => ?_
  refine yields_ite (fun _ => yields_throw.mpr trivial) fun _ => ?_
  refine yields_ite (fun _ => yields_pure.mpr (refl_of Lasts m)) fun _ => ?_
  refine yields_bind.mpr (yields_supplement.mpr fun space hspace => ?_)
  split
  · exact yields_pure.mpr (refl_of Lasts m)
  · rename_i table hinsert
    refine yields_bind.mpr (yields_setSupplement.mpr (yields_pure.mpr ?_))
    rw [Supplement.put_of_insert hspace hinsert]
    refine lasts_put (Array.getElem?_eq_some_iff.mp hspace).1 (PageInfo.filed_of_private ?_)
    rintro _ ⟨⟩
    rfl

/-- A segment is registered as far as it goes. -/
theorem lasts_registerSegment (f : FileId) (offset page readBytes zeroBytes : Nat) (writable : Bool) :
    (registerSegment s f offset page readBytes zeroBytes writable).Yields m fun _ after =>
      m.Lasts after := by
  suffices general : ∀ pages i (before : Machine),
      (registerFrom s f offset page readBytes writable pages i).Yields before fun _ after =>
        before.Lasts after by
    rw [registerSegment_eq]
    refine yields_ite (fun _ => yields_throw.mpr trivial) fun _ => ?_
    exact yields_ite (fun _ => yields_throw.mpr trivial) fun _ => general _ _ m
  intro pages
  induction pages with
  | zero => exact fun i before => yields_pure.mpr (refl_of Lasts before)
  | succ pages ih =>
    intro i before
    refine yields_bind.mpr ((lasts_registerPage f _ _ _ _ writable).mono fun outcome after hafter => ?_)
    cases outcome with
    | error cause => exact yields_pure.mpr hafter
    | ok u =>
      refine yields_ite (fun _ => ?_) fun _ => yields_throw.mpr trivial
      exact (ih (i + 1) after).mono fun _ _ hlast => hafter.trans hlast

/-- The pages of a mapped file are registered, as far as it goes. -/
theorem lasts_registerMapped {f : FileId} {length page : Nat} (pages : Nat) : ∀ (i : Nat) {m : Machine},
    f < m.files.size → (registerMapped s f length page pages i).Yields m fun _ after => m.Lasts after := by
  induction pages with
  | zero => exact fun i m _ => yields_pure.mpr (refl_of Lasts m)
  | succ pages ih =>
    intro i m hf
    refine yields_bind.mpr (yields_supplement.mpr fun space hspace => ?_)
    split
    · exact yields_pure.mpr (refl_of Lasts m)
    · rename_i table hinsert
      refine yields_bind.mpr (yields_setSupplement.mpr ?_)
      rw [Supplement.put_of_insert hspace hinsert]
      have hput : m.Lasts { m with
          spaces := put m.spaces s (page + i * pageSize)
            (.fileBacked (page + i * pageSize) (mappedSegment f length i)) } := by
        refine lasts_put (Array.getElem?_eq_some_iff.mp hspace).1 ?_
        rintro _ ⟨⟩ -
        exact ⟨rfl, Nat.min_le_right _ _, hf⟩
      refine Yields.mono (ih (i + 1) ?_) fun _ _ hafter => hput.trans hafter
      exact hf

/-- A mapping gets a number that is larger than all before. -/
theorem lasts_addMapping (mapping : Mapping) :
    (addMapping s mapping).Yields m fun id after => m.Lasts after ∧ next? m.spaces s = some id ∧
      next? after.spaces s = some (id + 1) := by
  refine ensures_addMapping.yields.mono ?_
  rintro id _ ⟨standing, notices, hstanding, hid, -, rfl⟩
  obtain ⟨space, hspace, rfl⟩ := Option.map_eq_some_iff.mp hstanding
  refine ⟨?_, ?_, ?_⟩
  · have hlisted : m.Lasts { m with spaces := onSupplement m.spaces s fun table =>
        { table with mappings := table.mappings.insert id mapping, nextMapping := id + 1 } } := by
      refine lasts_onSupplement (fun old hold => ?_) fun _ _ _ hfind => hfind
      obtain rfl := Option.some.inj (hspace.symm.trans hold)
      exact hid ▸ Nat.le_succ _
    exact hlisted.aside rfl rfl rfl
  · rw [next?, hstanding, Option.map_some, hid]
  · simp only [next?, standing?_onSupplement, if_true, hspace, Option.map_some]
    rfl

/-- All entries of a space are dropped for good. -/
theorem lasts_dropEntries : (dropEntries s).Yields m fun _ after => m.Lasts after := by
  refine yields_bind.mpr (yields_supplement.mpr fun space hspace => yields_bind.mpr
    (yields_setSupplement.mpr ?_))
  rw [modify_supplement hspace fun table => table.destroy]
  refine (yields_releaseCopies _).mono ?_
  rintro _ _ ⟨slots, rfl⟩
  refine Lasts.aside (lasts_onSupplement (fun _ _ => Nat.le_refl _) fun _ p info hfind => ?_) rfl rfl rfl
  rw [Supplement.destroy, Supplement.find?, Std.ExtTreeMap.getElem?_empty] at hfind
  cases hfind

/-- All frames of a space are given back and their pages unmapped. -/
theorem lasts_freeOwnedBy : (freeOwnedBy s).Yields m fun _ after => m.Lasts after := by
  have hclear : ∀ (records : List FrameRecord) {before : Machine}, m.Lasts before →
      (clearPages records).Yields before fun _ after => m.Lasts after := by
    intro records
    induction records with
    | nil => exact fun hbefore => yields_pure.mpr hbefore
    | cons record records ih =>
      intro before hbefore
      rw [clearPages]
      cases record.page with
      | none => exact ih hbefore
      | some p =>
        refine yields_bind.mpr (lasts_clear.mono fun _ _ hcleared => ?_)
        exact ih (hbefore.trans hcleared)
  refine yields_bind.mpr (yields_frames.mpr (yields_bind.mpr (yields_ofExcept.mpr fun freed hfreed =>
    yields_bind.mpr (yields_setFrames.mpr ?_))))
  have htable := (offstage_frames (FrameTable.asLarge_of_freeOwnedBy hfreed)).lasts
  exact yields_bind.mpr ((hclear _ htable).mono fun _ _ hafter => yields_pure.mpr hafter)

end Transition

/-! ### Operations -/

section

variable {μ : Type → Type} [Kernel μ] {others : Machine → Machine → Prop} {evicts : Prop}
  (O : Outcomes μ others evicts) (hothers : ∀ a b, others a b → a.Offstage b) {s : SpaceId}
  {p frame : Nat}

include hothers

/-- A transition lasts, and so does whatever others do. -/
theorem Outcomes.lasts_step {α : Type} {step : Transition α}
    (h : ∀ m, step.Yields m fun _ after => m.Lasts after) : O.Maintains Lasts (Kernel.atomically step) :=
  maintains_step (fun a b hab => (hothers a b hab).lasts) h

omit hothers in
/-- What goes on behind the tables lasts. -/
theorem Outcomes.lasts_offstage {α : Type} {work : μ α} (h : O.Maintains Offstage work) :
    O.Maintains Lasts work := h.mono fun _ _ => Offstage.lasts

/-- To look up an entry lasts. -/
theorem Outcomes.lasts_findEntry : O.Maintains Lasts (Kernel.findEntry s p) :=
  O.lasts_offstage (O.maintains_findEntry hothers p)

/-- To look up a table lasts. -/
theorem Outcomes.lasts_supplement : O.Maintains Lasts (Kernel.supplement s) :=
  O.lasts_offstage (O.maintains_supplement hothers)

/-- Something is said of a space. -/
theorem Outcomes.lasts_say {α : Type} (notice : AddressSpace → Notice) (a : α) :
    O.Maintains Lasts (do
      Transition.notify (notice (← Transition.space s))
      Pure.pure a) :=
  O.lasts_offstage ((O.maintains_space hothers).bind fun _ =>
    (O.offstage_notify hothers _).bind fun _ => Rules.maintains_pure a)

/-! #### Evictions -/

/-- The clock chooses a victim. -/
theorem Outcomes.lasts_chooseVictim : O.Maintains Lasts Kernel.chooseVictim := by
  have htake : ∀ (choice : Option Nat) (clock : SecondChance) (m : Machine),
      (takeVictim choice clock).Yields m fun _ after => m.Lasts after := fun choice clock m =>
    yields_takeVictim (fun _ => Offstage.lasts ⟨rfl, ⟨rfl, rfl⟩, Nat.le_refl _⟩)
      fun _ _ => Offstage.lasts ⟨rfl, ⟨rfl, rfl⟩, Nat.le_refl _⟩
  have hmark : ∀ (table : FrameTable) (index : Nat),
      O.Maintains Lasts ((Kernel.candidates table).testAndClear index) := by
    intro table index
    unfold Kernel.candidates
    simp only
    split
    · refine (O.lasts_findEntry hothers).bind fun entry => ?_
      split
      · exact (O.lasts_step hothers fun _ => lasts_setAccessed false).bind fun _ => Rules.maintains_pure _
      · exact Rules.maintains_pure _
    · exact Rules.maintains_pure _
  have hsweep : ∀ (table : FrameTable) (visits : List Nat) (fallback : Option Nat),
      O.Maintains Lasts (SecondChance.sweep (Kernel.candidates table) visits fallback) := by
    intro table visits
    induction visits with
    | nil => exact fun _ => Rules.maintains_pure _
    | cons index rest ih =>
      intro fallback
      rw [SecondChance.sweep]
      split
      · refine (hmark table index).bind fun accessed => ?_
        split
        · exact ih _
        · exact Rules.maintains_pure _
      · exact ih _
  refine (O.lasts_step hothers (Yields.unchanged fun _ => yields_frames.mpr rfl)).bind fun table => ?_
  refine Rules.Maintains.bind ((hsweep table _ none).bind fun choice => ?_) fun chosen => ?_
  · cases choice <;> exact Rules.maintains_pure _
  · exact O.lasts_step hothers fun _ => htake _ _ _

/-- There is a free frame after all, or a victim. -/
theorem Outcomes.lasts_findSource : O.Maintains Lasts Kernel.findSource := by
  have hlook : ∀ m : Machine, lookAgain.Yields m fun _ after => m.Lasts after := fun m =>
    yields_lookAgain
      (fun _ _ h => (offstage_frames (FrameTable.asLarge_pool (FramePool.capacity_of_alloc h))).lasts)
      fun _ h _ _ => (offstage_frames (FrameTable.asLarge_pool (FramePool.capacity_of_alloc h))).lasts
  refine (O.lasts_step hothers hlook).bind fun outcome => ?_
  obtain (cause | (_ | frame)) := outcome
  · exact Rules.maintains_pure _
  · exact (O.lasts_chooseVictim hothers).bind fun _ => Rules.maintains_pure _
  · exact Rules.maintains_pure _

/-- A victim is moved out of its frame, or it is put back. -/
theorem Outcomes.lasts_migrate (victim : FrameRecord) : O.Maintains Lasts (Kernel.migrate victim) := by
  intro m
  refine O.bind (O.holding (O.atomically fun met hmet => (lasts_detach victim).mono ?_))
  rintro transit detached ⟨hdetached, hplan⟩
  have hstart : m.Lasts detached := (hothers m met hmet).lasts.trans hdetached
  refine O.bind (O.mono (O.offstage_writeOut hothers transit detached) ?_)
  rintro outcome written ⟨hwritten, hcopy⟩
  cases outcome with
  | error cause =>
    refine O.bind (O.holding (O.holding (O.atomically fun last hlast => ?_)))
    refine (lasts_restore transit).mono fun u restored hrestored => O.pure ?_
    exact (hstart.trans hwritten.lasts).trans ((hothers _ _ hlast).lasts.trans hrestored)
  | ok copy =>
    refine O.bind (O.holding (O.holding (O.atomically fun last hlast => ?_)))
    refine (lasts_finish ?_).mono fun u finished hfinished => O.pure ?_
    · intro info segment hdiscard hsome hinfo hsegment
      rw [(hothers _ _ hlast).spaces_eq, hwritten.spaces_eq] at hinfo
      obtain ⟨entry, planned, hplanned, hmarked⟩ := hplan.resolve_left hdiscard
      obtain rfl := Option.some.inj (hmarked.symm.trans hinfo)
      obtain ⟨copy, rfl⟩ := Option.isSome_iff_exists.mp hsome
      obtain ⟨writable, hswap⟩ := hcopy copy rfl
      by_contra hback
      rw [Bool.not_eq_false] at hback
      exact Plan.ofEntry_ne_swap hsegment hback writable (hplanned.symm.trans hswap)
    · exact (hstart.trans hwritten.lasts).trans ((hothers _ _ hlast).lasts.trans hfinished)

/-- A frame for a new use is found, or none is. -/
theorem Outcomes.lasts_evict : O.Maintains Lasts Kernel.evict := by
  refine .holding (Rules.Maintains.bind (.holding (O.lasts_findSource hothers)) fun outcome => ?_)
  obtain (cause | (frame | victim)) := outcome
  · exact Rules.maintains_pure _
  · exact Rules.maintains_pure _
  · refine (O.lasts_migrate hothers victim).bind fun outcome => ?_
    cases outcome <;> exact Rules.maintains_pure _

/-- A page gets a frame, or none. -/
theorem Outcomes.lasts_allocateFor (zeroed : Bool) :
    O.Maintains Lasts (Kernel.allocateFor s p zeroed) := by
  have hhand : ∀ (frame : Nat) (clean : Bool), O.Maintains Lasts (do
      Kernel.handOver s (some p) zeroed clean frame
      Pure.pure (Except.ok frame : Except VmError Nat)) := fun frame clean =>
    (O.lasts_offstage (O.offstage_handOver hothers (some p) zeroed clean)).bind fun _ =>
      Rules.maintains_pure _
  refine Rules.Maintains.bind (.holding (O.lasts_step hothers fun _ =>
    (offstage_allocFree _).mono fun _ _ => Offstage.lasts)) fun found => ?_
  cases found with
  | some frame => exact hhand frame false
  | none =>
    refine (O.lasts_evict hothers).bind fun outcome => ?_
    obtain (cause | ⟨frame, clean⟩) := outcome
    · exact Rules.maintains_pure _
    · exact Rules.Maintains.bind (.holding (O.lasts_step hothers fun _ =>
        (offstage_record _).mono fun _ _ => Offstage.lasts)) fun _ => hhand frame clean

/-! #### Faults -/

/-- A frame is given back. -/
theorem Outcomes.lasts_free {α : Type} (a : α) : O.Maintains Lasts (do
    Kernel.free frame
    Pure.pure a) :=
  (O.lasts_offstage (O.offstage_free hothers)).bind fun _ => Rules.maintains_pure a

/-- A page is mapped from now on, and may be evicted. -/
theorem Outcomes.lasts_release {α : Type} (notice : AddressSpace → Notice) (a : α) :
    O.Maintains Lasts (do
      Kernel.unpin frame
      Transition.notify (notice (← Transition.space s))
      Pure.pure a) :=
  (O.lasts_offstage (O.offstage_unpin hothers)).bind fun _ => O.lasts_say hothers notice a

/-- To bring a page in from swap lasts. -/
theorem Outcomes.lasts_loadFromSwap (copy : SwapCopy) (fileBacked : Bool) (address : Nat) :
    O.Maintains Lasts (Kernel.loadFromSwap s p copy fileBacked address) := by
  refine (O.lasts_allocateFor hothers false).bind fun outcome => ?_
  cases outcome with
  | error cause => exact Rules.maintains_pure _
  | ok frame =>
    refine (O.lasts_offstage (O.offstage_readSlot hothers)).bind fun outcome => ?_
    cases outcome with
    | error cause => exact O.lasts_free hothers _
    | ok u =>
      refine (O.lasts_step hothers fun _ => lasts_install _).bind fun done => ?_
      cases done with
      | true =>
        refine Rules.Maintains.bind (.holding (O.lasts_step hothers fun _ =>
          lasts_settleSwapIn copy fileBacked)) fun _ => ?_
        exact O.lasts_release hothers (fun space => .pageFromSwap space.pid p copy.slot) _
      | false => exact O.lasts_free hothers _

/-- To bring a page in from its file lasts. -/
theorem Outcomes.lasts_loadFromFile (segment : Segment) (address : Nat) :
    O.Maintains Lasts (Kernel.loadFromFile s p segment address) := by
  refine (O.lasts_allocateFor hothers false).bind fun outcome => ?_
  cases outcome with
  | error cause => exact Rules.maintains_pure _
  | ok frame =>
    refine (O.lasts_offstage (O.offstage_readIn hothers segment)).bind fun outcome => ?_
    split
    · refine (O.lasts_offstage (O.maintains_space hothers)).bind fun _ => ?_
      exact (O.lasts_offstage (O.offstage_notify hothers _)).bind fun _ => O.lasts_free hothers _
    · refine (O.lasts_step hothers fun _ => lasts_install _).bind fun done => ?_
      cases done with
      | true =>
        refine Rules.Maintains.bind (.holding (O.lasts_step hothers fun _ =>
          yields_modifyInfo.mpr (lasts_amend fun _ _ hfiled => hfiled.congr rfl id))) fun _ => ?_
        exact O.lasts_release hothers (fun space => .pageFromFile space.pid p segment.offset) _
      | false => exact O.lasts_free hothers _

/-- To bring in a new page of the stack lasts. -/
theorem Outcomes.lasts_addStackPage : O.Maintains Lasts (Kernel.addStackPage s p) := by
  refine (O.lasts_supplement hothers).bind fun table => ?_
  split
  · exact Rules.maintains_pure _
  refine (O.lasts_findEntry hothers).bind fun entry => ?_
  split
  · exact Rules.maintains_pure _
  refine (O.lasts_allocateFor hothers true).bind fun outcome => ?_
  cases outcome with
  | error cause => exact Rules.maintains_pure _
  | ok frame =>
    refine (O.lasts_step hothers fun _ => lasts_install _).bind fun done => ?_
    cases done with
    | true => exact O.lasts_release hothers (fun space => .stackGrew space.pid p) _
    | false => exact O.lasts_free hothers _

/-- To grow the stack lasts. -/
theorem Outcomes.lasts_growStack (address : Nat) : O.Maintains Lasts (Kernel.growStack s address) := by
  rw [Kernel.growStack]
  split
  · exact Rules.maintains_pure _
  · exact .holding (O.lasts_addStackPage hothers)

/-- A fault is resolved, or it is not. -/
theorem Outcomes.lasts_resolveIn (address stackPointer rounds : Nat) :
    O.Maintains Lasts (Kernel.resolveIn s address stackPointer rounds) := by
  induction rounds with
  | zero => exact O.lasts_step hothers fun _ => yields_throw.mpr trivial
  | succ rounds ih =>
    refine (O.lasts_supplement hothers).bind fun table => ?_
    split
    · exact Rules.maintains_pure _
    · split
      · -- a page without an entry may be one of the stack
        refine (O.lasts_step hothers (Yields.unchanged fun _ => yields_stackLimit.mpr rfl)).bind
          fun limit => ?_
        split
        · refine (O.lasts_addStackPage hothers).bind fun outcome => ?_
          cases outcome <;> exact Rules.maintains_pure _
        · exact Rules.maintains_pure _
      · rename_i info _
        split
        · exact (O.maintains_await _).bind fun _ => ih
        · rw [Kernel.faultWithInfo]
          split
          · refine (O.lasts_findEntry hothers).bind fun entry => ?_
            split <;> exact Rules.maintains_pure _
          · split
            · exact O.lasts_loadFromSwap hothers _ _ address
            · exact O.lasts_loadFromFile hothers _ address
            · exact Rules.maintains_pure _

/-- To resolve a fault lasts, whichever way the page comes in. -/
theorem Outcomes.lasts_resolveFault (address stackPointer : Nat) (code : FaultCode) :
    O.Maintains Lasts (Kernel.resolveFault s address stackPointer code) := by
  rw [Kernel.resolveFault]
  split
  · exact Rules.maintains_pure _
  · exact .holding (O.lasts_resolveIn hothers address stackPointer _)

/-- To handle a fault lasts, also if it cannot be resolved. -/
theorem Outcomes.lasts_handleFault (address stackPointer : Nat) (code : FaultCode) :
    O.Maintains Lasts (Kernel.handleFault s address stackPointer code) := by
  refine (O.lasts_resolveFault hothers address stackPointer code).bind fun outcome => ?_
  obtain ((address | cause) | u) := outcome
  · exact O.lasts_say hothers (fun space => .unresolvable space.pid address) false
  · refine (O.lasts_offstage (O.maintains_space hothers)).bind fun _ => ?_
    refine (O.lasts_offstage (O.offstage_notify hothers _)).bind fun _ => ?_
    exact O.lasts_step hothers fun _ => yields_throw.mpr trivial
  · exact Rules.maintains_pure _

/-! #### Copies -/

/-- One piece is reached, or the fault that it takes is not resolved. -/
theorem Outcomes.lasts_reach {α : Type} {act : Nat → Transition α}
    (hact : ∀ frame m, (act frame).Yields m fun _ after => m.Lasts after)
    (start : Nat) (piece : Piece) (stackPointer : Nat) (write : Bool) :
    O.Maintains Lasts (Kernel.reach s start piece stackPointer write act) := by
  have htranslate : ∀ page, O.Maintains Lasts (Kernel.translate s page write) := fun page => by
    refine (O.lasts_step hothers (Yields.unchanged fun _ => yields_directory.mpr fun _ _ => rfl)).bind
      fun d => ?_
    refine (O.lasts_step hothers fun _ => lasts_setDirectory _).bind fun _ => ?_
    exact (O.lasts_offstage (maintains_interrupt hothers _)).bind fun _ => Rules.maintains_pure _
  have hwith : ∀ page frame, O.Maintains Lasts (Kernel.withFrame s page frame act) := fun page frame => by
    refine (O.lasts_offstage (O.offstage_requireFrame hothers)).bind fun _ => .holding ?_
    refine (O.lasts_findEntry hothers).bind fun entry => ?_
    split
    · exact (O.lasts_step hothers (hact frame)).bind fun _ => Rules.maintains_pure _
    · exact Rules.maintains_pure _
  have hin : ∀ rounds, O.Maintains Lasts (Kernel.reachIn s piece stackPointer write act rounds) := by
    intro rounds
    induction rounds with
    | zero => exact O.lasts_step hothers fun _ => yields_throw.mpr trivial
    | succ rounds ih =>
      refine (htranslate _).bind fun outcome => ?_
      cases outcome with
      | error code =>
        refine (O.lasts_resolveFault hothers _ stackPointer code).bind fun outcome => ?_
        cases outcome with
        | error cause => exact Rules.maintains_pure _
        | ok u => exact ih
      | ok frame =>
        refine (hwith _ frame).bind fun result => ?_
        cases result with
        | some a => exact Rules.maintains_pure _
        | none => exact ih
  rw [Kernel.reach]
  split
  · exact Rules.maintains_pure _
  · split
    · exact Rules.maintains_pure _
    · exact hin _

/-- A copy to user memory lasts, over all its pieces. -/
theorem Outcomes.lasts_copyToUser (start : Nat) (data : Bytes) (stackPointer : Nat) :
    O.Maintains Lasts (Kernel.copyToUser s start data stackPointer) := by
  rw [Kernel.copyToUser]
  refine .upToFailure (fun piece => O.lasts_reach hothers (fun frame m => ?_) start piece stackPointer true) _
  exact (offstage_writeFrame _ _).mono fun _ _ => Offstage.lasts

/-- A copy from user memory lasts, over all its pieces. -/
theorem Outcomes.lasts_copyFromUser (start length stackPointer : Nat) :
    O.Maintains Lasts (Kernel.copyFromUser s start length stackPointer) := by
  refine .copyFromUser fun piece => O.lasts_reach hothers (fun frame m => ?_) start piece stackPointer false
  exact (ensures_readFrame.mpr fun _ _ _ => refl_of Lasts m).yields

/-! #### Mappings -/

/-- Pages of a file are registered. A number that is answered is larger than all before. -/
theorem Outcomes.lasts_mapFile (f : FileId) (page : Nat) (m : Machine) :
    O.Yields (Kernel.mapFile s f page) m fun outcome after => m.Lasts after ∧ ∀ id, outcome = .ok id →
      (∀ n, next? m.spaces s = some n → n ≤ id) ∧ next? after.spaces s = some (id + 1) := by
  have hunused : ∀ p, O.Maintains Offstage (Kernel.requireUnused s p) := fun p => by
    refine (maintains_step hothers (Yields.unchanged fun _ => yields_supplement.mpr fun _ _ => rfl)).bind
      fun table => ?_
    split
    · exact Rules.maintains_pure _
    · refine (O.maintains_findEntry hothers p).bind fun entry => ?_
      split <;> exact Rules.maintains_pure _
  refine O.bind (O.atomically fun met hmet => (ensures_file.mpr fun file hfile => ?_).yields)
  have hf : f < met.files.size := (Array.getElem?_eq_some_iff.mp hfile).1
  have hmet' := hothers m met hmet
  dsimp only
  split
  · exact O.pure ⟨hmet'.lasts, nofun⟩
  refine O.holding (O.holding (O.bind (O.atomically fun last hlast => yields_supplement.mpr fun _ _ => ?_)))
  have hlast' := trans_of Offstage hmet' (hothers met last hlast)
  split
  · exact O.pure ⟨hlast'.lasts, nofun⟩
  refine O.bind (O.mono (Rules.Maintains.upToFailure hunused _ last) fun outcome checked hchecked => ?_)
  have hchecked' := trans_of Offstage hlast' hchecked
  cases outcome with
  | error cause => exact O.pure ⟨hchecked'.lasts, nofun⟩
  | ok u =>
    refine O.bind (O.atomically fun now hnow => ?_)
    have hf' : f < now.files.size := Nat.lt_of_lt_of_le hf
      (trans_of Offstage (trans_of Offstage (hothers met last hlast) hchecked) (hothers checked now hnow)).files
    refine (lasts_registerMapped _ 0 hf').mono fun outcome registered hregistered => ?_
    have hlasts := (trans_of Offstage hchecked' (hothers checked now hnow)).lasts.trans hregistered
    cases outcome with
    | error cause => exact O.pure ⟨hlasts, nofun⟩
    | ok u =>
      refine O.bind (O.atomically fun ready hready => (lasts_addMapping _).mono ?_)
      rintro id after ⟨hadded, hnext, hnext'⟩
      have hready' := hlasts.trans (hothers registered ready hready).lasts
      refine O.pure ⟨hready'.trans hadded, fun id' hid' => ?_⟩
      obtain rfl := Except.ok.inj hid'
      refine ⟨fun n hn => ?_, hnext'⟩
      obtain ⟨n', hn', hle⟩ := hready'.next s n hn
      rwa [Option.some.inj (hn'.symm.trans hnext)] at hle

/-- One page of a mapping is unmapped. -/
theorem Outcomes.lasts_unmapPageIn (rounds : Nat) :
    O.Maintains Lasts (Kernel.unmapPageIn s p rounds) := by
  induction rounds with
  | zero => exact O.lasts_step hothers fun _ => yields_throw.mpr trivial
  | succ rounds ih =>
    refine (O.lasts_supplement hothers).bind fun table => ?_
    split
    · exact Rules.maintains_pure _
    · rename_i info _
      split
      · exact (O.maintains_await _).bind fun _ => ih
      · refine (O.lasts_findEntry hothers).bind fun mapped => ?_
        simp only
        split
        · exact Rules.Maintains.bind (.holding (O.lasts_step hothers fun _ => lasts_forget)) fun _ =>
            Rules.maintains_pure _
        · refine (O.lasts_offstage (O.offstage_pinIfBacking hothers p)).bind fun backs => ?_
          cases backs with
          | true =>
            refine Rules.Maintains.bind (.holding (O.lasts_step hothers fun _ => lasts_forget)) fun entry => ?_
            exact O.lasts_offstage (O.offstage_saveAndFree hothers info entry)
          | false => exact (O.maintains_await _).bind fun _ => ih

/-- To take a mapping out lasts, its number is not given out again. -/
theorem Outcomes.lasts_removeMapping (id : Nat) : O.Maintains Lasts (Kernel.removeMapping s id) := by
  refine Rules.Maintains.bind (.holding (O.lasts_step hothers fun _ => lasts_takeMapping id)) fun taken => ?_
  cases taken with
  | none => exact Rules.maintains_pure _
  | some mapping =>
    refine Rules.Maintains.bind (.throughFailures (fun p => O.lasts_unmapPageIn hothers _) _) fun outcome => ?_
    exact O.lasts_say hothers (fun space => .unmapped space.pid id) outcome

/-- A space is torn down. -/
theorem Outcomes.lasts_destroy : O.Maintains Lasts (Kernel.destroy s) := by
  have hremove : ∀ ids, O.Maintains Lasts (Kernel.removeMappings s ids) := by
    intro ids
    induction ids with
    | nil => exact Rules.maintains_pure _
    | cons id ids ih =>
      refine (O.lasts_removeMapping hothers id).bind fun outcome => ?_
      cases outcome with
      | ok u => exact ih
      | error cause =>
        refine (O.lasts_offstage (O.maintains_space hothers)).bind fun _ => ?_
        exact (O.lasts_offstage (O.offstage_notify hothers _)).bind fun _ => ih
  refine .holding ((O.lasts_supplement hothers).bind fun table => ?_)
  split
  · exact Rules.maintains_pure _
  refine (hremove _).bind fun _ => ?_
  refine Rules.Maintains.bind (.holding (O.lasts_step hothers fun _ => lasts_dropEntries)) fun _ => ?_
  refine Rules.Maintains.bind (.holding (O.lasts_step hothers fun _ => lasts_freeOwnedBy)) fun gone => ?_
  exact O.lasts_offstage ((O.maintains_space hothers).bind fun _ => O.offstage_notify hothers _)

/-- Every call lasts. -/
theorem Outcomes.lasts_perform {c : Call} (hpublic : c.Public) : O.Maintains Lasts (Kernel.perform c) := by
  cases c with
  | registerPage s f offset page readBytes zeroBytes writable =>
    exact Rules.Maintains.bind (.holding (O.lasts_step hothers fun _ => lasts_registerPage f offset page
      readBytes zeroBytes writable)) fun _ => Rules.maintains_pure _
  | registerSegment s f offset page readBytes zeroBytes writable =>
    exact Rules.Maintains.bind (.holding (O.lasts_step hothers fun _ => lasts_registerSegment f offset page
      readBytes zeroBytes writable)) fun _ => Rules.maintains_pure _
  | mapFile s f page =>
    have hmap : O.Maintains Lasts (Kernel.mapFile s f page) := fun m =>
      O.mono (O.lasts_mapFile hothers f page m) fun _ _ hafter => hafter.1
    exact hmap.bind fun _ => Rules.maintains_pure _
  | unmapFile s id =>
    exact Rules.Maintains.bind (.holding (O.lasts_removeMapping hothers id)) fun _ => Rules.maintains_pure _
  | resolveFault s address stackPointer code =>
    exact (O.lasts_resolveFault hothers address stackPointer code).bind fun _ => Rules.maintains_pure _
  | handleFault s address stackPointer code =>
    exact (O.lasts_handleFault hothers address stackPointer code).bind fun _ => Rules.maintains_pure _
  | growStack s address => exact (O.lasts_growStack hothers address).bind fun _ => Rules.maintains_pure _
  | copyFromUser s start length stackPointer =>
    exact (O.lasts_copyFromUser hothers start length stackPointer).bind fun _ => Rules.maintains_pure _
  | copyToUser s start data stackPointer =>
    exact (O.lasts_copyToUser hothers start data stackPointer).bind fun _ => Rules.maintains_pure _
  | destroy s => exact (O.lasts_destroy hothers).bind fun _ => Rules.maintains_pure _
  | allocate | allocateFor | bind | unpin | free | freeOwnedBy => exact hpublic.elim

end

/-! ### Chronicles -/

/-- Others may change files and devices at will, but no file goes away. -/
def Machine.Tampers (before after : Machine) : Prop :=
  before.Devices after ∧ before.files.size ≤ after.files.size

/-- Whoever changes files and devices stays behind the tables. -/
theorem Machine.Tampers.offstage {before after : Machine} (h : before.Tampers after) :
    before.Offstage after := by
  obtain ⟨⟨_, _, rfl⟩, hle⟩ := h
  exact ⟨rfl, .refl _, hle⟩

/-- The call was answered: nobody came in between, or others tampered with files and devices while it
went on. -/
inductive Call.Serves (c : Call) (before : Machine) (reply : Reply) (after : Machine) : Prop where
  | alone (h : (Kernel.perform c : Transition Reply) before = .ok reply after)
  | among (h : (Kernel.perform c : Woven Machine.Tampers Reply) before (.ok reply after))

/-- What holds of all outcomes holds of a call that was answered. -/
theorem Call.Serves.of_yields {c : Call} {before after : Machine} {reply : Reply}
    (h : c.Serves before reply after) {post : Reply → Machine → Prop}
    (hyields : ∀ {m : Type → Type} [Kernel m] {others : Machine → Machine → Prop}
      (O : Outcomes m others True), (∀ a b, others a b → a.Tampers b) →
        O.Yields (Kernel.perform c) before post) : post reply after := by
  cases h with
  | alone h =>
    exact hyields Outcomes.alone (fun a b heq => heq ▸ ⟨.refl a, Nat.le_refl _⟩) reply after h
  | among h => exact hyields (Outcomes.woven Machine.Tampers) (fun _ _ h => h) reply after h

/-- What happened from `start` on, oldest first, and the machine that it led to. No file ever goes away.
A *careful* chronicle adds no stack page where a mapped file belongs. -/
inductive Chronicle (careful : Prop) (start : Machine) : List Moment → Machine → Prop where
  | nil : Chronicle careful start [] start
  | call {moments : List Moment} {before after : Machine} {c : Call} {reply : Reply}
      (h : Chronicle careful start moments before) (hpublic : c.Public)
      (hcareful : careful → c.Careful before) (hserves : c.Serves before reply after) :
      Chronicle careful start (moments ++ [⟨.call c, reply, before, after⟩]) after
  | outside {moments : List Moment} {before after : Machine} {action : Action} {reply : Reply}
      (h : Chronicle careful start moments before) (hcall : ∀ c, action ≠ .call c)
      (hstep : action.step before = .ok reply after) :
      Chronicle careful start (moments ++ [⟨action, reply, before, after⟩]) after

section

variable {careful : Prop} {start machine : Machine} {moments : List Moment}

/-- A run is a careful chronicle. -/
theorem Run.chronicle (h : Run start moments machine) (careful : Prop) :
    Chronicle careful start moments machine := by
  induction h with
  | nil => exact .nil
  | @snoc moments before after action reply _ hpermitted hstep ih =>
    cases action with
    | call c =>
      refine ih.call (c.public_of_permitted hpermitted) (fun _ => ?_) (.alone hstep)
      exact c.careful_of_permitted hpermitted
    | addSpace | addFile | changeFile | turnDisk => exact ih.outside (by simp) hstep

/-- The machine is steady throughout. -/
theorem Chronicle.steady (h : Chronicle careful start moments machine) (hfresh : start.Fresh) :
    machine.Steady (.since careful moments) [] [] := by
  induction h with
  | nil => exact hfresh.steady
  | call _ hpublic hcareful hserves ih =>
    exact Machine.Steady.answered (hserves.of_yields fun O hothers => O.perform
      (fun a b hab => (hothers a b hab).1.allowed rfl) ih (fun _ => Terms.idle_since _ _) hpublic hcareful)
  | outside _ hcall hstep ih =>
    exact (ih.outside ((Transition.ensures_outside hcall).of_ok hstep)).leaving fun hfailed =>
      hfailed.append _

/-- What is done from outside lasts. -/
theorem Outside.lasts {before after : Machine} (h : Outside before after) : before.Lasts after where
  frames := h.frames ▸ .refl _
  files := h.files
  next _ n hn := ⟨n, h.next? hn, Nat.le_refl n⟩
  filed hfiled s p info hinfo := (hfiled s p info ((h.info s p).symm.trans hinfo)).mono h.files

/-- What was is left of any earlier machine. -/
theorem Chronicle.lasts (h : Chronicle careful start moments machine) :
    start.Lasts machine ∧ ∀ moment ∈ moments, moment.after.Lasts machine := by
  -- a moment that comes last is followed by nothing
  have hsnoc : ∀ {moments : List Moment} {moment : Moment} {before : Machine},
      (start.Lasts before ∧ ∀ moment ∈ moments, moment.after.Lasts before) →
      before.Lasts moment.after → start.Lasts moment.after ∧
        ∀ earlier ∈ moments ++ [moment], earlier.after.Lasts moment.after := by
    intro moments moment before hbefore hstep
    refine ⟨hbefore.1.trans hstep, fun earlier hmem => ?_⟩
    rcases List.mem_append.mp hmem with hmem | hmem
    · exact (hbefore.2 earlier hmem).trans hstep
    · rw [List.mem_singleton.mp hmem]
      exact refl_of Lasts _
  induction h with
  | nil => exact ⟨refl_of Lasts _, fun moment hmem => absurd hmem List.not_mem_nil⟩
  | @call moments before after c reply _ hpublic _ hserves ih =>
    have hstep : before.Lasts after := hserves.of_yields fun O hothers =>
      O.lasts_perform (fun a b hab => (hothers a b hab).offstage) hpublic before
    exact @hsnoc moments ⟨.call c, reply, before, after⟩ before ih hstep
  | @outside moments before after action reply _ hcall hstep ih =>
    exact @hsnoc moments ⟨action, reply, before, after⟩ before ih
      ((Transition.ensures_outside hcall).of_ok hstep).lasts

/-- Every page of a mapped file is filed. -/
theorem Chronicle.filed (h : Chronicle careful start moments machine) (hfresh : start.Fresh) :
    machine.Filed := by
  refine h.lasts.1.filed fun s p info hinfo => ?_
  rw [hfresh.info?] at hinfo
  cases hinfo

/-- There is a frame for each number that the pool gives out. -/
theorem Chronicle.size_memory (h : Chronicle careful start moments machine) (hfresh : start.Fresh) :
    machine.frames.memory.size = machine.frames.pool.capacity := by
  rw [h.lasts.1.frames.memory, h.lasts.1.frames.capacity]
  exact hfresh.settled.capacity.symm

/-- The numbers of mappings of a space that were answered are smaller than the next one. -/
theorem Chronicle.lt_next (h : Chronicle careful start moments machine) {s : SpaceId} {f : FileId}
    {page id : Nat} {moment : Moment} (hmem : moment ∈ moments)
    (haction : moment.action = .call (.mapFile s f page)) (hreply : moment.reply = .mapping id) :
    ∃ n, next? machine.spaces s = some n ∧ id < n := by
  have hnext : next? moment.after.spaces s = some (id + 1) := by
    induction h with
    | nil => cases hmem
    | @call moments before after c reply _ hpublic _ hserves ih =>
      rcases List.mem_append.mp hmem with hmem | hmem
      · exact ih hmem
      · obtain rfl := List.mem_singleton.mp hmem
        obtain rfl := Action.call.inj haction
        have hanswered : reply = .mapping id → next? after.spaces s = some (id + 1) := by
          refine @Call.Serves.of_yields _ _ _ _ hserves (fun reply after => reply = .mapping id →
            next? after.spaces s = some (id + 1)) fun O hothers => O.bind (O.mono (O.lasts_mapFile
              (fun a b hab => (hothers a b hab).offstage) f page before) ?_)
          rintro (cause | id') after ⟨-, hnumber⟩
          · exact O.pure nofun
          · refine O.pure fun heq => ?_
            obtain rfl := Reply.mapping.inj heq
            exact (hnumber id' rfl).2
        exact hanswered hreply
    | outside _ hcall _ ih =>
      rcases List.mem_append.mp hmem with hmem | hmem
      · exact ih hmem
      · obtain rfl := List.mem_singleton.mp hmem
        exact absurd haction (hcall _)
  obtain ⟨n, hn, hle⟩ := (h.lasts.2 moment hmem).next s _ hnext
  exact ⟨n, hn, hle⟩

end

end DemandPaging
