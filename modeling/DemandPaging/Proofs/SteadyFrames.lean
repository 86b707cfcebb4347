import DemandPaging.Proofs.Faults
import DemandPaging.Proofs.SteadyEvictions

/-!
# Frames of a steady machine

A frame goes through the same states on the way to every page. `Granted` frames have a record for the
page that they are meant for, are pinned, and are mapped nowhere; `Held` frames are mapped at their page
besides. This module says how a frame gets from one state to another, and that a steady machine stays
steady on the way: a frame is recorded, filled, mapped and unpinned, or given back.
-/

set_option autoImplicit false

namespace DemandPaging

open Spaces Machine Transition

section

variable {terms : Terms} {m m' m'' : Machine} {s : SpaceId} {p frame : Nat}

/-- What holds of the tables of all spaces holds of each entry. -/
theorem Spaces.Tables.entry {spaces : Array AddressSpace} {info : PageInfo} (h : Tables terms spaces)
    (hinfo : info? spaces s p = some info) : Entry terms spaces s p info :=
  ⟨h.torn s p info hinfo, h.still s p info hinfo, h.anonymous s p info hinfo⟩

/-! ### Filling a frame -/

/-- At most one frame was filled, while files and devices may have changed. -/
structure Machine.Fills (terms : Terms) (frame : Nat) (before after : Machine) : Prop where
  spaces_eq : after.spaces = before.spaces
  pool_eq : after.frames.pool = before.frames.pool
  records_eq : after.frames.records = before.frames.records
  others : ∀ f k, f ≠ frame → after.frames.memory.byte? f k = before.frames.memory.byte? f k
  bytes : terms.bytes.isSome = true → ∀ slot k,
    after.swap.device.disk.slotByte slot k = before.swap.device.disk.slotByte slot k
  speaks : before.Speaks after

/-- No frame need be filled. -/
theorem Machine.Fills.refl (terms : Terms) (frame : Nat) (m : Machine) : m.Fills terms frame m :=
  ⟨rfl, rfl, rfl, fun _ _ _ => rfl, fun _ _ _ => rfl, .of_eq rfl⟩

/-- A frame may be filled in several steps. -/
theorem Machine.Fills.trans (h : m.Fills terms frame m') (h' : m'.Fills terms frame m'') :
    m.Fills terms frame m'' where
  spaces_eq := h'.spaces_eq.trans h.spaces_eq
  pool_eq := h'.pool_eq.trans h.pool_eq
  records_eq := h'.records_eq.trans h.records_eq
  others f k hf := (h'.others f k hf).trans (h.others f k hf)
  bytes hsome slot k := (h'.bytes hsome slot k).trans (h.bytes hsome slot k)
  speaks := h.speaks.trans h'.speaks

/-- What others do may come in while any frame is filled. -/
theorem Terms.Allows.fills (h : terms.Allows m m') (frame : Nat) : m.Fills terms frame m' := by
  obtain ⟨⟨_, _, rfl⟩, hbytes⟩ := h
  exact ⟨rfl, rfl, rfl, fun _ _ _ => rfl, hbytes, .of_eq rfl⟩

/-- Something was said. -/
theorem Machine.fills_said (m : Machine) (terms : Terms) (frame : Nat) (notice : Notice) :
    m.Fills terms frame { m with notices := m.notices.push notice } :=
  ⟨rfl, rfl, rfl, fun _ _ _ => rfl, fun _ _ _ => rfl, ⟨#[notice], rfl⟩⟩

/-- The contents of a frame were replaced. -/
theorem Machine.fills_memory (m : Machine) (terms : Terms) {frame : Nat} {memory : FrameMemory}
    (h : ∀ f k, f ≠ frame → memory.byte? f k = m.frames.memory.byte? f k) :
    m.Fills terms frame { m with frames := { m.frames with memory } } :=
  ⟨rfl, rfl, rfl, h, fun _ _ _ => rfl, .of_eq rfl⟩

/-- A steady machine stays steady if the frame is not one that an eviction has taken. -/
theorem Machine.Steady.fills {loose pinned : List Nat} (h : m.Steady terms loose pinned)
    (hfills : m.Fills terms frame m') (hnot : frame ∉ terms.frames) : m'.Steady terms loose pinned := by
  refine h.similar hfills.pool_eq hfills.records_eq (hfills.spaces_eq ▸ .refl _)
    fun inFrame inSlot hsome => ?_
  obtain ⟨hframes, hslots⟩ := h.untouched inFrame inSlot hsome
  refine ⟨fun f hf k => ?_, fun slot k => ?_⟩
  · rw [hfills.others f k fun heq => hnot (heq ▸ hf), hframes f hf]
  · rw [hfills.bytes (by rw [hsome, Option.isSome_some]), hslots]

/-! ### Frames that are granted -/

/-- A frame has a record for page `p` of space `s`, is pinned, and is mapped nowhere. -/
structure Machine.Granted (terms : Terms) (s : SpaceId) (p frame : Nat) (m : Machine) : Prop where
  steady : m.Steady terms [] [frame]
  aligned : IsAligned p
  mem : { frame, owner := s, page := some p } ∈ m.frames.records
  unmapped : ∀ s' p', IsAligned p' → frame? m.spaces s' p' ≠ some frame

/-- A frame came out of the pool. -/
theorem Machine.Steady.claim (h : m.Steady terms [] []) {pool : FramePool}
    (hpool : pool.Accounts (frame :: (m.frames.records.map (·.frame) ++ ([] ++ terms.frames))) []) :
    Machine.Steady terms [frame] [] { m with frames := { m.frames with pool } } :=
  ⟨hpool.perm List.perm_middle.symm fun _ => Iff.rfl, h.bound, h.recorded, h.tables, h.honest,
    h.untouched⟩

/-- A frame that is out gets a record and is pinned. -/
theorem Machine.Steady.insert (h : m.Steady terms [frame] []) (hp : IsAligned p) {table : FrameTable}
    (hinsert : m.frames.insert { frame, owner := s, page := some p } true = .ok table) :
    Machine.Granted terms s p frame { m with frames := table } := by
  obtain ⟨pool, hpool, rfl⟩ := FrameTable.exists_of_insert hinsert
  have hsteady : Machine.Steady { terms with page := terms.page } [] [frame]
      { m with frames := { m.frames with
        pool, records := m.frames.records ++ [{ frame, owner := s, page := some p }] } } := by
    refine h.update terms.page (.refl _ s p) hp (fun _ _ _ hne => hne) ?_ (fun r hr => ?_)
      (fun _ _ _ hin => absurd hin List.not_mem_nil) (fun f hf => ?_)
      (fun info hinfo => h.tables.entry hinfo) (.inl rfl) (fun hcareful => ⟨?_, ?_⟩) h.untouched
    · obtain ⟨-, -, haccounts⟩ := h.pool.setPinned hpool
      refine haccounts.perm ?_ fun f => by simp
      rw [List.map_append]
      exact (List.append_assoc _ _ _).symm ▸ .refl _
    · rw [List.mem_append, List.mem_singleton, or_iff_left_iff_imp]
      rintro rfl
      exact absurd ⟨rfl, rfl⟩ hr
    · exact List.mem_append_left _ (h.recorded s p f hp hf)
    · intro r hr howner hpage hnot
      rcases List.mem_append.mp hr with hr | hr
      · exact (h.honest hcareful s p).mapped r hr howner hpage List.not_mem_nil
      · rw [List.mem_singleton.mp hr] at hnot
        exact absurd List.mem_cons_self hnot
    · intro info segment f hinfo hsegment hback hres hf
      exact absurd ((h.honest hcareful s p).truthful info segment f hinfo hsegment hback hres hf)
        List.not_mem_nil
  exact ⟨hsteady, hp, List.mem_append_right _ (List.mem_singleton.mpr rfl), fun s' p' hp' =>
    h.unmapped (List.mem_append_left _ (List.mem_singleton.mpr rfl)) hp'⟩

/-- A frame that was granted is none of those that an eviction has taken. -/
theorem Machine.Granted.not_mem (h : m.Granted terms s p frame) : frame ∉ terms.frames :=
  (h.steady.not_mem_frames h.mem).2

/-- A frame that was granted may be filled. -/
theorem Machine.Granted.fills (h : m.Granted terms s p frame) (hfills : m.Fills terms frame m') :
    m'.Granted terms s p frame where
  steady := h.steady.fills hfills h.not_mem
  aligned := h.aligned
  mem := hfills.records_eq ▸ h.mem
  unmapped := hfills.spaces_eq ▸ h.unmapped

/-- The frame can be given back: its record goes, and no other. -/
theorem Machine.Granted.exists_free (h : m.Granted terms s p frame) : ∃ front rear pool,
    m.frames.records = front ++ { frame, owner := s, page := some p } :: rear ∧
      (m.frames.position? frame).isSome = true ∧
      m.frames.free frame = .ok { m.frames.removeAt front.length with pool } ∧
      (m.frames.removeAt front.length).records = front ++ rear ∧
      (∀ r ∈ front ++ rear, r.frame ≠ frame) ∧
      pool.Accounts ((front ++ rear).map (·.frame) ++ ([] ++ terms.frames)) [] := by
  have hsome := FrameTable.position?_isSome h.mem
  obtain ⟨index, hposition⟩ := Option.isSome_iff_exists.mp hsome
  obtain ⟨front, record, rear, hsplit, hframe, rfl⟩ := FrameTable.exists_split hposition
  obtain rfl := h.steady.record_inj (by rw [hsplit]; simp) h.mem hframe
  have hperm := FrameTable.perm_frames front rear { frame, owner := s, page := some p }
  rw [← hsplit] at hperm
  have hout : (m.frames.records.map (fun r : FrameRecord => r.frame) ++ ([] ++ terms.frames)).Perm
      (frame :: ((front ++ rear).map (fun r : FrameRecord => r.frame) ++ ([] ++ terms.frames))) :=
    (hperm.trans (List.perm_append_singleton _ _)).append_right _
  obtain ⟨pool, hpool, -, haccounts⟩ := (h.steady.pool.perm hout fun _ => Iff.rfl).dealloc
  have hnodup := hperm.nodup_iff.mp (List.nodup_append.mp h.steady.pool.nodup).1
  refine ⟨front, rear, pool, hsplit, hsome, ?_, FrameTable.records_removeAt hsplit, fun r hr => ?_, ?_⟩
  · simp only [FrameTable.free, hposition, hpool]
  · exact (List.nodup_append.mp hnodup).2.2 _ (List.mem_map_of_mem hr) _ (List.mem_singleton.mpr rfl)
  · simpa using haccounts

/-- The frame is given back. -/
theorem Machine.Granted.free (h : m.Granted terms s p frame) :
    (Transition.free frame).Yields m fun _ after => after.Steady terms [] [] ∧
      after.spaces = m.spaces ∧ m.Speaks after := by
  obtain ⟨front, rear, pool, hsplit, hsome, hfree, hrecords, hother, haccounts⟩ := h.exists_free
  obtain ⟨index, hposition⟩ := Option.isSome_iff_exists.mp hsome
  refine yields_bind.mpr (yields_frames.mpr ?_)
  simp only [hposition, hfree]
  refine yields_bind.mpr (yields_ofExcept.mpr fun table htable => yields_setFrames.mpr ?_)
  obtain rfl := Except.ok.inj htable
  have hmem : ∀ r : FrameRecord, r ≠ { frame, owner := s, page := some p } →
      (r ∈ front ++ rear ↔ r ∈ m.frames.records) := by
    intro r hne
    rw [hsplit, List.mem_append, List.mem_append, List.mem_cons]
    exact ⟨fun hin => hin.imp_right .inr, fun hin => hin.imp_right fun hin => hin.resolve_left hne⟩
  refine ⟨?_, rfl, .of_eq rfl⟩
  refine h.steady.update terms.page (.refl _ s p) h.aligned (fun _ _ _ hne => hne) ?_ (fun r hr => ?_)
    (fun r hr hnot hin => ?_) (fun f hf => ?_) (fun info hinfo => h.steady.tables.entry hinfo)
    (.inl rfl) (fun hcareful => ⟨?_, ?_⟩) h.steady.untouched
  · rw [hrecords]
    exact haccounts
  · rw [hrecords]
    refine hmem r ?_
    rintro rfl
    exact hr ⟨rfl, rfl⟩
  · obtain rfl := h.steady.record_inj hr h.mem (List.mem_singleton.mp hin)
    exact absurd ⟨rfl, rfl⟩ hnot
  · rw [hrecords, hmem]
    · exact h.steady.recorded s p f h.aligned hf
    · rintro ⟨⟩
      exact h.unmapped s p h.aligned hf
  · rw [hrecords]
    intro r hr howner hpage _
    have hne : r ≠ { frame, owner := s, page := some p } := by
      rintro rfl
      exact hother _ hr rfl
    exact (h.steady.honest hcareful s p).mapped r ((hmem r hne).mp hr) howner hpage fun hin =>
      hother r hr (List.mem_singleton.mp hin)
  · intro info segment f hinfo hsegment hback hres hf
    have hin := (h.steady.honest hcareful s p).truthful info segment f hinfo hsegment hback hres hf
    obtain rfl := List.mem_singleton.mp hin
    exact absurd hf (h.unmapped s p h.aligned)

/-! ### Frames that are mapped -/

/-- A frame has a record for page `p` of space `s`, is pinned, and is mapped there. -/
structure Machine.Held (terms : Terms) (s : SpaceId) (p frame : Nat) (m : Machine) : Prop where
  steady : m.Steady terms [] [frame]
  aligned : IsAligned p
  mem : { frame, owner := s, page := some p } ∈ m.frames.records
  mapped : frame? m.spaces s p = some frame

/-- A frame that is mapped may be filled as long as it is pinned. -/
theorem Machine.Held.fills (h : m.Held terms s p frame) (hfills : m.Fills terms frame m') :
    m'.Held terms s p frame where
  steady := h.steady.fills hfills (h.steady.not_mem_frames h.mem).2
  aligned := h.aligned
  mem := hfills.records_eq ▸ h.mem
  mapped := hfills.spaces_eq ▸ h.mapped

/-- On careful terms a page that is mapped to a frame has no other frame. -/
theorem Machine.Steady.eq_of_mapped {pinned : List Nat} (h : m.Steady terms [] pinned)
    (hcareful : terms.careful) (hmapped : frame? m.spaces s p = some frame) {r : FrameRecord}
    (hr : r ∈ m.frames.records) (howner : r.owner = s) (hpage : r.page = some p)
    (hnot : r.frame ∉ pinned) : r.frame = frame :=
  Option.some.inj (((h.honest hcareful s p).mapped r hr howner hpage hnot).symm.trans hmapped)

/-- The frame is mapped at its page, unless the page is mapped already. -/
theorem Machine.Granted.install (h : m.Granted terms s p frame) (writable : Bool) :
    (Transition.install s p frame writable).Yields m fun done after =>
      if done = true then after.Held terms s p frame ∧
        (∀ s' p', info? after.spaces s' p' = info? m.spaces s' p') ∧ after.notices = m.notices
      else after = m := by
  refine (ensures_install (h.steady.tables.refusals s) (fun _ _ => by simp) fun hlt hnone hframe =>
    ?_).yields
  rw [if_pos rfl]
  have hmapped : frame? (map m.spaces s p (.userPage (BitVec.ofNat 20 frame) writable)) s p =
      some frame := by
    rw [frame?, mapped?_map hlt, if_pos ⟨rfl, rfl⟩, Option.map_some]
    simp only [PageTableEntry.userPage, BitVec.toNat_ofNat, maxFrame, Option.some.injEq] at hframe ⊢
    omega
  refine ⟨⟨?_, h.aligned, h.mem, hmapped⟩, fun _ _ => info?_map, rfl⟩
  refine h.steady.update terms.page (elsewhere_map h.aligned hlt) h.aligned
    (fun _ _ _ hne => hne) h.steady.pool (fun _ _ => Iff.rfl) (fun _ _ _ hin => hin) (fun f hf => ?_)
    (fun info hinfo => ?_) (.inl (by rw [segment?, segment?, info?_map])) (fun hcareful => ⟨?_, ?_⟩)
    h.steady.untouched
  · obtain rfl := Option.some.inj (hmapped.symm.trans hf)
    exact h.mem
  · rw [info?_map] at hinfo
    obtain ⟨hlive, hstill, hanonymous⟩ := h.steady.tables.entry hinfo
    refine ⟨?_, hstill, fun hne hback => ?_⟩
    · rw [TornDown, standing?_map]
      exact hlive
    · obtain ⟨hleft, hresident, -⟩ := hanonymous hne hback
      exact ⟨hleft, hresident, by rw [hmapped, Option.isSome_some]⟩
  · intro r hr howner hpage hnot
    have := (h.steady.honest hcareful s p).mapped r hr howner hpage hnot
    rw [frame?, hnone] at this
    cases this
  · intro _ _ f _ _ _ _ hf
    obtain rfl := Option.some.inj (hmapped.symm.trans hf)
    exact List.mem_cons_self

/-- What is known of the page is brought up to date. -/
theorem Machine.Held.change (h : m.Held terms s p frame) {spaces : Array AddressSpace}
    (he : Elsewhere m.spaces spaces s p) (hmapped : frame? spaces s p = some frame)
    (hentry : ∀ info, info? spaces s p = some info → Entry terms spaces s p info)
    (hsegment : segment? spaces s p = segment? m.spaces s p) :
    Machine.Held terms s p frame { m with spaces } := by
  refine ⟨?_, h.aligned, h.mem, hmapped⟩
  refine h.steady.update terms.page he h.aligned (fun _ _ _ hne => hne) h.steady.pool
    (fun _ _ => Iff.rfl) (fun _ _ _ hin => hin) (fun f hf => ?_) hentry (.inl hsegment)
    (fun hcareful => ⟨?_, ?_⟩) h.steady.untouched
  · obtain rfl := Option.some.inj (hmapped.symm.trans hf)
    exact h.mem
  · intro r hr howner hpage hnot
    have hframe := h.steady.eq_of_mapped hcareful h.mapped hr howner hpage hnot
    rw [hframe] at hnot
    exact absurd List.mem_cons_self hnot
  · intro _ _ f _ _ _ _ hf
    obtain rfl := Option.some.inj (hmapped.symm.trans hf)
    exact List.mem_cons_self

/-- On careful terms, if the page belongs to a mapped file, then its entry says that it is in memory. -/
def Spaces.Settles (terms : Terms) (spaces : Array AddressSpace) (s : SpaceId) (p : Nat) : Prop :=
  terms.careful → ∀ info segment, info? spaces s p = some info → info.segment? = some segment →
    segment.writeBack = true → info.resident = true

/-- Evictions may have the frame, once the entry of its page is settled. -/
theorem Machine.Held.unpin (h : m.Held terms s p frame) :
    (Transition.unpin frame).Yields m fun _ after =>
      (Settles terms m.spaces s p → after.Steady terms [] []) := by
  obtain ⟨index, hposition⟩ := Option.isSome_iff_exists.mp (FrameTable.position?_isSome h.mem)
  refine yields_bind.mpr (yields_frames.mpr (yields_bind.mpr (yields_ofExcept.mpr fun table htable =>
    yields_setFrames.mpr fun hsettles => ?_)))
  obtain ⟨hnone, -⟩ | ⟨pool, hpool, rfl⟩ := FrameTable.exists_of_unpin htable
  · cases hnone.symm.trans hposition
  · obtain ⟨-, -, haccounts⟩ := h.steady.pool.setPinned hpool
    refine h.steady.update terms.page (.refl _ s p) h.aligned (fun _ _ _ hne => hne)
      (haccounts.perm (.refl _) fun f => by simp) (fun _ _ => Iff.rfl) (fun r hr hnot hin => ?_)
      (fun f hf => h.steady.recorded s p f h.aligned hf) (fun info hinfo => h.steady.tables.entry hinfo)
      (.inl rfl) (fun hcareful => ⟨?_, ?_⟩) h.steady.untouched
    · obtain rfl := h.steady.record_inj hr h.mem (List.mem_singleton.mp hin)
      exact absurd ⟨rfl, rfl⟩ hnot
    · intro r hr howner hpage _
      by_cases hframe : r.frame = frame
      · rw [hframe]
        exact h.mapped
      · exact (h.steady.honest hcareful s p).mapped r hr howner hpage fun hin =>
          hframe (List.mem_singleton.mp hin)
    · intro info segment f hinfo hsegment hback hres _
      rw [hsettles hcareful info segment hinfo hsegment hback] at hres
      cases hres

/-! ### Entries of pages that are mapped -/

/-- A page that came back from swap is in memory and has its window. -/
theorem PageInfo.of_movedIn? {info info' : PageInfo} (h : info.movedIn? = some info') :
    info'.resident = true ∧ info'.evicting = info.evicting ∧ info'.segment? = info.segment? ∧
      info'.backing ≠ .anonymous := by
  unfold movedIn? at h
  unfold segment?
  cases hbacking : info.backing <;> rw [hbacking] at h <;> cases h <;> exact ⟨rfl, rfl, rfl, by simp⟩

/-- The entry of a page that came back from swap is brought up to date or dropped. -/
theorem Machine.Held.movedIn (h : m.Held terms s p frame) {spaces : Array AddressSpace}
    (he : Elsewhere m.spaces spaces s p) (hmapped : mapped? spaces s p = mapped? m.spaces s p)
    (hinfo : info? spaces s p = (info? m.spaces s p).bind (·.movedIn?)) :
    Machine.Held terms s p frame { m with spaces } ∧
      ∀ info, info? spaces s p = some info → info.resident = true := by
  have hframe : frame? spaces s p = some frame := by
    rw [frame?, hmapped]
    exact h.mapped
  have hentry : ∀ info', info? spaces s p = some info' → info'.resident = true ∧
      Entry terms spaces s p info' := by
    intro info' hinfo'
    rw [hinfo] at hinfo'
    obtain ⟨info, hold, hmoved⟩ := Option.bind_eq_some_iff.mp hinfo'
    obtain ⟨hresident, hevicting, -, hback⟩ := PageInfo.of_movedIn? hmoved
    obtain ⟨hlive, hstill, -⟩ := h.steady.tables.entry hold
    exact ⟨hresident, fun htorn => hlive (htorn.congr (he.standing s).symm),
      fun hne => hevicting.trans (hstill hne), fun _ hb => absurd hb hback⟩
  have hsegment : segment? spaces s p = segment? m.spaces s p := by
    rw [segment?, segment?, hinfo]
    cases hold : info? m.spaces s p with
    | none => rfl
    | some info => exact PageInfo.movedIn?_bind_segment? info
  exact ⟨h.change he hframe (fun info' hinfo' => (hentry info' hinfo').2) hsegment,
    fun info' hinfo' => (hentry info' hinfo').1⟩

/-- A page may count as changed. -/
theorem Machine.Held.markDirty (h : m.Held terms s p frame) :
    Machine.Held terms s p frame
      { m with spaces := mark m.spaces s p fun e => { e with dirty := true } } := by
  have hframe : frame? (mark m.spaces s p fun e => { e with dirty := true }) s p = some frame := by
    rw [frame?, mapped?_mark, if_pos ⟨rfl, rfl⟩, Option.map_map]
    exact h.mapped
  refine h.change (elsewhere_mark h.aligned) hframe (fun info hinfo => ?_)
    (by rw [segment?, segment?, info?_mark])
  rw [info?_mark] at hinfo
  obtain ⟨hlive, hstill, hanonymous⟩ := h.steady.tables.entry hinfo
  refine ⟨?_, hstill, fun hne hback => ?_⟩
  · rw [TornDown, standing?_mark]
    exact hlive
  · obtain ⟨hleft, hresident, -⟩ := hanonymous hne hback
    exact ⟨hleft, hresident, by rw [hframe, Option.isSome_some]⟩

/-- The entry of a page says from now on that the page is in memory. -/
theorem Machine.Held.markResident (h : m.Held terms s p frame) :
    Machine.Held terms s p frame
      { m with spaces := amend m.spaces s p fun info => { info with resident := true } } := by
  have hframe : frame? (amend m.spaces s p fun info => { info with resident := true }) s p =
      some frame := by
    rw [frame?, mapped?_amend]
    exact h.mapped
  have hinfo := @info?_amend m.spaces s p s p fun info => { info with resident := true }
  rw [if_pos ⟨rfl, rfl⟩] at hinfo
  refine h.change elsewhere_amend hframe (fun info' hinfo' => ?_) ?_
  · rw [hinfo] at hinfo'
    obtain ⟨info, hold, rfl⟩ := Option.map_eq_some_iff.mp hinfo'
    obtain ⟨hlive, hstill, hanonymous⟩ := h.steady.tables.entry hold
    refine ⟨fun htorn => hlive (htorn.congr standing?_amend.symm), hstill, fun hne hback => ?_⟩
    exact ⟨(hanonymous hne hback).1, rfl, by rw [hframe, Option.isSome_some]⟩
  · rw [segment?, segment?, hinfo]
    cases info? m.spaces s p <;> rfl

/-- A page came back from swap: its entry is settled and its slot given back. -/
theorem Machine.Held.settleSwapIn (h : m.Held terms s p frame) (copy : SwapCopy) (fileBacked : Bool) :
    (Transition.settleSwapIn s p copy fileBacked).Yields m fun _ after => after.Held terms s p frame ∧
      (∀ info, info? after.spaces s p = some info → info.resident = true) ∧ m.Speaks after := by
  refine yields_settleSwapIn.mono ?_
  rintro _ _ ⟨made, slots, hmoved, rfl⟩
  obtain ⟨hheld, hresident⟩ := h.movedIn hmoved.elsewhere hmoved.mapped?_eq hmoved.info?_eq
  cases fileBacked with
  | false =>
    exact ⟨hheld.fills ⟨rfl, rfl, rfl, fun _ _ _ => rfl, fun _ _ _ => rfl, .of_eq rfl⟩, hresident, .of_eq rfl⟩
  | true =>
    refine ⟨hheld.markDirty.fills ⟨rfl, rfl, rfl, fun _ _ _ => rfl, fun _ _ _ => rfl, .of_eq rfl⟩,
      fun info hinfo => hresident info ?_, .of_eq rfl⟩
    exact info?_mark.symm.trans hinfo

end

end DemandPaging
