import DemandPaging.Proofs.SteadyFrames

/-!
# Faults of a steady machine

A fault that is resolved leaves a steady machine steady, and so does one that is not. If it failed for
want of a place to write a victim to, then either nothing was changed but the entry of the victim, or a
frame had been handed out before and it was the transfer in that failed (`Machine.Refuses`).

A fault on a page that is on its way out waits for the eviction. If it is somebody else who evicts, then
it does not come back within the time that is looked at; and if it could evict itself, then nothing is
on its way.
-/

set_option autoImplicit false

namespace DemandPaging

open Spaces Machine Transition

/-! ### Handing a frame over -/

/-- Something was said, and one of the things said was that a frame was handed out. -/
def Machine.HandsOut (before after : Machine) : Prop :=
  ∃ said, after.notices = before.notices ++ said ∧
    ∃ pid frame page, Notice.allocated pid frame page ∈ said

section

variable {m m' m'' : Machine}

/-- What was said before a frame was handed out does not matter. -/
theorem Machine.Speaks.handsOut (h : m.Speaks m') (h' : m'.HandsOut m'') : m.HandsOut m'' := by
  obtain ⟨said, hsaid⟩ := h
  obtain ⟨said', hsaid', pid, frame, page, hmem⟩ := h'
  exact ⟨said ++ said', by rw [hsaid', hsaid, Array.append_assoc], pid, frame, page,
    Array.mem_append_right _ hmem⟩

/-- What is said after a frame was handed out does not matter. -/
theorem Machine.HandsOut.speaks (h : m.HandsOut m') (h' : m'.Speaks m'') : m.HandsOut m'' := by
  obtain ⟨said, hsaid, pid, frame, page, hmem⟩ := h
  obtain ⟨said', hsaid'⟩ := h'
  exact ⟨said ++ said', by rw [hsaid', hsaid, Array.append_assoc], pid, frame, page,
    Array.mem_append_left _ hmem⟩

/-- An operation was refused: the machine is steady still, and if a page could not be written out, then
that was undone or, if it was a transfer in that failed, a frame had been handed out. -/
structure Machine.Refuses (terms : Terms) (cause : VmError) (before after : Machine) : Prop where
  steady : after.Steady (terms.excusing cause) [] []
  reverted : cause.OfWriteOut → before.Reverted terms.careful after ∨
    (∃ e, cause = .block e) ∧ before.HandsOut after

/-- A refusal that has nothing to do with writing a page out leaves a steady machine. -/
theorem Machine.Steady.refuses {terms : Terms} {cause : VmError} (h : m'.Steady terms [] [])
    (hcause : ¬ cause.OfWriteOut) : m.Refuses terms cause m' :=
  ⟨h.excusing cause, fun hwhy => absurd hwhy hcause⟩

/-- What an eviction has undone is undone also with regard to the machine before the hand went on. -/
theorem Machine.Swept.reverted {careful : Prop} (h : m.Swept m') (h' : m'.Reverted careful m'') :
    m.Reverted careful m'' where
  records := h.records_eq ▸ h'.records
  memory_eq := h'.memory_eq.trans h.memory_eq
  slots_eq := h'.slots_eq.trans h.slots_eq
  notices_eq := h'.notices_eq.trans h.notices_eq
  standing s := (h'.standing s).trans (h.faded.standing s)
  info := by
    obtain ⟨s, p, hothers, hpage⟩ := h'.info
    simp only [h.faded.info, h.faded.lasting] at hothers hpage
    exact ⟨s, p, hothers, hpage⟩
  lasting hcareful s p hp := (h'.lasting hcareful s p hp).trans (h.faded.lasting s p)

/-- A refusal after the hand went on is one with regard to the machine before. -/
theorem Machine.Swept.refuses {terms : Terms} {cause : VmError} (h : m.Swept m')
    (h' : m'.Refuses terms cause m'') : m.Refuses terms cause m'' :=
  ⟨h'.steady, fun hwhy => (h'.reverted hwhy).imp h.reverted fun hboth =>
    ⟨hboth.1, (Speaks.of_eq h.notices_eq).handsOut hboth.2⟩⟩

end

section

variable {μ : Type → Type} [Kernel μ] {others : Machine → Machine → Prop} {evicts : Prop}
  {terms : Terms} {m : Machine} {s : SpaceId} {p frame : Nat}

/-- A frame comes out of the pool, if there is one. -/
theorem Machine.Steady.allocFree (h : m.Steady terms [] []) (hp : IsAligned p) :
    (Transition.allocFree s (some p)).Yields m fun result after =>
      match result with
      | none => after.Steady terms [] [] ∧ m.Swept after
      | some frame => after.Granted terms s p frame ∧ after.spaces = m.spaces ∧
        after.notices = m.notices := by
  refine yields_bind.mpr (yields_frames.mpr (yields_bind.mpr (yields_ofExcept.mpr ?_)))
  rintro ⟨result, table⟩ halloc
  refine yields_bind.mpr (yields_setFrames.mpr (yields_pure.mpr ?_))
  obtain ⟨pool, hpool, hfound⟩ := FrameTable.exists_of_allocFree halloc
  have haccounts := (h.pool.alloc hpool).2
  cases result with
  | none =>
    obtain rfl : table = _ := hfound
    exact ⟨⟨haccounts, h.bound, h.recorded, h.tables, h.honest, h.untouched⟩,
      rfl, fun _ _ ha => (ha.alloc hpool).2, rfl, rfl, rfl, .refl _⟩
  | some frame => exact ⟨(h.claim haccounts.2).insert hp hfound, rfl, rfl⟩

/-- A frame that an eviction has made free gets a record. -/
theorem Machine.Steady.record (h : m.Steady terms [frame] []) (hp : IsAligned p) :
    (Transition.record frame s (some p)).Yields m fun _ after => after.Granted terms s p frame ∧
      after.spaces = m.spaces ∧ after.notices = m.notices := by
  rw [Transition.record, yields_bind, yields_frames, yields_bind, yields_ofExcept]
  exact fun table htable => yields_setFrames.mpr ⟨h.insert hp htable, rfl, rfl⟩

variable (O : Outcomes μ others evicts)
  (hallows : ∀ before after, others before after → terms.Allows before after)

include hallows

/-- A frame is zeroed if need be, and that it was handed out is said. -/
theorem Outcomes.handOver (page : Option Nat) (zeroed clean : Bool) :
    O.Yields (Kernel.handOver s page zeroed clean frame) m fun _ after =>
      m.Fills terms frame after ∧ m.HandsOut after := by
  have hsay : ∀ before : Machine, m.Fills terms frame before →
      O.Yields (do Transition.notify (.allocated (← Transition.space s).pid frame page)) before
        fun _ after => m.Fills terms frame after ∧ m.HandsOut after := by
    intro before hbefore
    refine O.bind (O.step hallows fun met hmet => yields_space.mpr fun space _ => ?_)
    refine O.step hallows fun last hlast => yields_notify.mpr ?_
    have hfills := (hbefore.trans (hmet.fills frame)).trans (hlast.fills frame)
    exact ⟨hfills.trans (fills_said last terms frame _), hfills.speaks.handsOut
      ⟨#[_], rfl, space.pid, frame, page, Array.mem_singleton.mpr rfl⟩⟩
  rw [Kernel.handOver]
  split
  · refine O.bind (O.holding (O.step hallows fun met hmet => (ensures_zero.mpr fun _ hpage => ?_).yields))
    refine hsay _ ((hmet.fills frame).trans (fills_memory met terms fun f k hf => ?_))
    rw [FrameMemory.byte?_setPage (FrameMemory.lt_size_of_page hpage), if_neg (Ne.symm hf)]
  · exact hsay m (.refl terms frame m)

/-- A page gets a frame, or the eviction that was needed for it failed. -/
theorem Outcomes.allocateFor (h : m.Steady terms [] []) (hidle : evicts → terms.Idle)
    (hp : IsAligned p) (zeroed : Bool) :
    O.Yields (Kernel.allocateFor s p zeroed) m fun outcome after =>
      match outcome with
      | .ok frame => after.Granted terms s p frame ∧
        (∀ s' p', segment? after.spaces s' p' = segment? m.spaces s' p') ∧ m.HandsOut after
      | .error cause => m.Refuses terms cause after := by
  refine O.bind (O.holding (O.step hallows fun met hmet => ?_))
  refine ((h.allows hmet).allocFree hp).mono fun result middle hmiddle => ?_
  cases result with
  | some frame =>
    obtain ⟨hgranted, hspaces, hnotices⟩ := hmiddle
    refine O.bind (O.mono (O.handOver hallows _ _ _) fun u after hafter => O.pure ?_)
    refine ⟨hgranted.fills hafter.1, fun s' p' => ?_, ?_⟩
    · obtain ⟨_, _, rfl⟩ := hmet.devices
      rw [hafter.1.spaces_eq, hspaces]
    · obtain ⟨_, _, rfl⟩ := hmet.devices
      exact (Speaks.of_eq hnotices).handsOut hafter.2
  | none =>
    obtain ⟨hsteady, hswept⟩ := hmiddle
    refine O.bind (O.mono (O.evict (fun a b hab => (hallows a b hab).devices) hsteady hidle)
      fun outcome after hafter => ?_)
    cases outcome with
    | error cause =>
      refine O.pure ((hmet.devices.swept.trans hswept).refuses ⟨hafter.1, fun hwhy => .inl ?_⟩)
      exact hafter.2 hwhy
    | ok result =>
      obtain ⟨frame, clean⟩ := result
      refine O.bind (O.holding (O.step hallows fun last hlast => ?_))
      refine ((hafter.1.allows hlast).record hp).mono fun u recorded hrecorded => ?_
      refine O.bind (O.mono (O.handOver hallows _ _ _) fun u final hfinal => O.pure ?_)
      obtain ⟨hgranted, hspaces, hnotices⟩ := hrecorded
      obtain ⟨_, _, rfl⟩ := hlast.devices
      refine ⟨hgranted.fills hfinal.1, fun s' p' => ?_, ?_⟩
      · rw [hfinal.1.spaces_eq, hspaces]
        refine (hafter.2.segment s' p').trans ?_
        exact (hmet.devices.swept.trans hswept).faded.similar.segment s' p'
      · have hspeaks : m.Speaks after :=
          (Speaks.of_eq (hmet.devices.swept.trans hswept).notices_eq).trans hafter.2.speaks
        exact (hspeaks.trans (.of_eq hnotices)).handsOut hfinal.2

/-! ### Loading a page -/

omit hallows in
/-- One part of a slot fills one frame at most. -/
theorem Transition.yields_readPart (terms : Terms) (slot frame : Nat) (part : Fin sectorsPerPage) :
    Yields (readPart slot frame part) m fun _ after => m.Fills terms frame after := by
  refine (ensures_readPart slot frame part).yields.mono ?_
  rintro _ _ ⟨device, memory, rfl, hdisk, -, hothers, -⟩
  exact ⟨rfl, rfl, rfl, hothers, fun _ slot k => congrArg (fun disk : RamDisk => disk.slotByte slot k) hdisk,
    .of_eq rfl⟩

omit hallows in
/-- The window of a page fills one frame. -/
theorem Transition.yields_fillFrame (terms : Terms) (frame : Nat) (segment : Segment) (data : Bytes) :
    Yields (fillFrame frame segment data) m fun _ after => m.Fills terms frame after := by
  refine (ensures_bind.mpr (ensures_page.mpr fun content hcontent => ensures_setPage.mpr ?_)).yields
  refine fills_memory m terms fun f k hf => ?_
  rw [FrameMemory.byte?_setPage (FrameMemory.lt_size_of_page hcontent), if_neg (Ne.symm hf)]

omit hallows in
/-- A file that is read is changed at most in its count of reads. -/
theorem Transition.yields_readFile (terms : Terms) (f : FileId) (offset n : Nat) :
    Yields (readFile f offset n) m fun _ after => terms.Allows m after :=
  (ensures_readFile.mpr fun _ _ => ⟨⟨_, m.swap.device, rfl⟩, fun _ _ _ => rfl⟩).yields

/-- A slot is read over a frame, all of it or not. -/
theorem Outcomes.readSlot (slot : Nat) :
    O.Yields (Kernel.readSlot slot frame) m fun _ after => m.Fills terms frame after := by
  refine O.bind (O.step hallows fun met hmet => yields_requireFrame (O.holding ?_))
  refine O.bind (O.step hallows fun met' hmet' => yields_requireUsed (O.holding ?_))
  have hstart : m.Fills terms frame met' := (hmet.trans hmet').fills frame
  refine O.bind (O.mono (O.upToFailure (fun _ after => m.Fills terms frame after)
    (fun _ after => m.Fills terms frame after) ?_ hstart) fun outcome after hafter => ?_)
  · intro _ k _ before _ hbefore
    refine O.bind (O.step hallows fun met hmet => yields_swap.mpr ?_)
    cases SwapStore.refuseRead? met.swap slot k with
    | some cause => exact O.pure (hbefore.trans (hmet.fills frame))
    | none =>
      refine O.bind (O.interrupt fun met' hmet' => O.step hallows fun last hlast => ?_)
      refine (yields_readPart terms slot frame k).mono fun outcome after hafter => ?_
      have hothers := (hmet.trans (hallows _ _ hmet')).trans hlast
      have hfills := (hbefore.trans (hothers.fills frame)).trans hafter
      cases outcome <;> exact hfills
  · cases outcome with
    | error cause => exact O.pure hafter
    | ok u =>
      refine O.bind (O.step hallows fun met hmet => yields_notify.mpr (O.pure ?_))
      exact (hafter.trans (hmet.fills frame)).trans (fills_said met terms frame _)

/-- The window of a page is read into a frame. -/
theorem Outcomes.readIn (segment : Segment) :
    O.Yields (Kernel.readIn frame segment) m fun _ after => m.Fills terms frame after := by
  refine O.holding (O.bind (O.step hallows fun met hmet => ?_))
  refine yields_ite (fun _ => yields_pure.mpr ?_) fun _ => yields_throw.mpr trivial
  refine O.bind (O.interrupt fun met' hmet' => O.bind (O.step hallows fun last hlast => ?_))
  refine (yields_readFile terms _ _ _).mono fun outcome read hread => ?_
  have hstart := ((hmet.trans (hallows _ _ hmet')).trans hlast).trans hread
  cases outcome with
  | error cause =>
    refine O.bind (O.step hallows fun now hnow => (yields_fillFrame terms _ _ _).mono fun u after hafter => ?_)
    exact O.pure (((hstart.trans hnow).fills frame).trans hafter)
  | ok data =>
    refine O.bind (O.step hallows fun now hnow => (yields_fillFrame terms _ _ _).mono fun u after hafter => ?_)
    exact O.pure (((hstart.trans hnow).fills frame).trans hafter)

/-- A granted frame is given back. -/
theorem Outcomes.free (h : m.Granted terms s p frame) :
    O.Yields (Kernel.free frame) m fun _ after => after.Steady terms [] [] ∧
      after.spaces = m.spaces ∧ m.Speaks after := by
  refine O.holding (O.step hallows fun met hmet => (h.fills (hmet.fills frame)).free.mono ?_)
  rintro _ after ⟨hsteady, hspaces, hspeaks⟩
  exact ⟨hsteady, hspaces.trans (hmet.fills frame).spaces_eq, (hmet.fills frame).speaks.trans hspeaks⟩

/-- A frame that is mapped may be evicted from now on, and that its page is there is said. -/
theorem Outcomes.release (h : m.Held terms s p frame) {ε : Type} (notice : AddressSpace → Notice) :
    O.Yields (do
      Kernel.unpin frame
      Transition.notify (notice (← Transition.space s))
      Pure.pure (Except.ok ()) : μ (Except ε Unit)) m fun outcome after =>
        outcome = .ok () ∧ (Settles terms m.spaces s p → after.Steady terms [] []) := by
  refine O.bind (O.holding (O.step hallows fun met hmet => ?_))
  refine (h.fills (hmet.fills frame)).unpin.mono fun u after hafter => ?_
  rw [hmet.spaces_eq] at hafter
  refine O.bind (O.step hallows fun last hlast => yields_space.mpr fun space _ => ?_)
  refine O.bind (O.step hallows fun now hnow => yields_notify.mpr (O.pure ⟨rfl, fun hsettles => ?_⟩))
  exact (((hafter hsettles).allows hlast).allows hnow).said _ _

omit hallows

/-- What a fault that was not resolved leaves behind. -/
def Machine.Faults (terms : Terms) (before : Machine) : FaultError → Machine → Prop
  | .unrecoverable _, after => after.Steady terms [] []
  | .fatal cause, after => before.Refuses terms cause after

/-- A refusal becomes a fault that was not resolved. If it is not fatal it is none of swap, so it excuses
nothing. -/
theorem Machine.Refuses.ofVm {before after : Machine} {cause : VmError}
    (h : before.Refuses terms cause after) (address : Nat) :
    before.Faults terms (.ofVm address cause) after := by
  unfold FaultError.ofVm
  split
  · exact h
  · rename_i hfatal
    refine h.steady.of_excusing ?_
    rintro (rfl | ⟨e, rfl⟩) <;> exact hfatal rfl

/-- The terms on which a machine is steady after a fault. -/
def Terms.afterFault (terms : Terms) : FaultError → Terms
  | .unrecoverable _ => terms
  | .fatal cause => terms.excusing cause

/-- A fault that was not resolved leaves the machine steady on the terms of its cause. -/
theorem Machine.Faults.steady {before after : Machine} {cause : FaultError}
    (h : before.Faults terms cause after) : after.Steady (terms.afterFault cause) [] [] := by
  cases cause with
  | unrecoverable address => exact h
  | fatal cause => exact Refuses.steady h

/-- A fault that failed after the hand went on is one with regard to the machine before. -/
theorem Machine.Swept.faults {before middle after : Machine} {cause : FaultError}
    (h : before.Swept middle) (h' : middle.Faults terms cause after) :
    before.Faults terms cause after := by
  cases cause with
  | unrecoverable address => exact h'
  | fatal cause => exact h.refuses h'

include hallows

/-- A page is brought back from its swap slot, or stays there. -/
theorem Outcomes.loadFromSwap (h : m.Steady terms [] []) (hidle : evicts → terms.Idle)
    (hp : IsAligned p) (copy : SwapCopy) (fileBacked : Bool) (address : Nat) :
    O.Yields (Kernel.loadFromSwap s p copy fileBacked address) m fun outcome after =>
      match outcome with
      | .ok () => after.Steady terms [] []
      | .error cause => m.Faults terms cause after := by
  refine O.bind (O.mono (O.allocateFor hallows h hidle hp false) fun outcome granted hgranted => ?_)
  cases outcome with
  | error cause => exact O.pure (hgranted.ofVm address)
  | ok frame =>
    obtain ⟨hgranted, -, hhands⟩ := hgranted
    refine O.bind (O.mono (O.readSlot hallows copy.slot) fun outcome read hread => ?_)
    have hread' := hgranted.fills hread
    cases outcome with
    | error cause =>
      refine O.bind (O.mono (O.free hallows hread') fun u after hafter => O.pure ?_)
      exact ⟨hafter.1.excusing _, fun _ => .inr ⟨⟨cause, rfl⟩, hhands.speaks (hread.speaks.trans hafter.2.2)⟩⟩
    | ok u =>
      refine O.bind (O.step hallows fun met hmet => ?_)
      refine ((hread'.fills (hmet.fills frame)).install copy.writable).mono fun done after hafter => ?_
      cases done with
      | true =>
        obtain ⟨hheld, -⟩ := hafter
        refine O.bind (O.holding (O.step hallows fun last hlast => ?_))
        refine ((hheld.fills (hlast.fills frame)).settleSwapIn copy fileBacked).mono ?_
        rintro u settled ⟨hsettled, hresident, -⟩
        exact O.mono (O.release hallows hsettled fun space => .pageFromSwap space.pid p copy.slot)
          fun outcome final ⟨hok, hfinal⟩ => hok ▸ hfinal fun _ info _ hinfo _ _ => hresident info hinfo
      | false =>
        obtain rfl : after = met := hafter
        refine O.bind (O.mono (O.free hallows (hread'.fills (hmet.fills frame))) fun u final hfinal => ?_)
        exact O.pure hfinal.1

/-- A page is loaded from its file, or stays there. -/
theorem Outcomes.loadFromFile (h : m.Steady terms [] []) (hidle : evicts → terms.Idle)
    (hp : IsAligned p) (segment : Segment) (address : Nat) :
    O.Yields (Kernel.loadFromFile s p segment address) m fun outcome after =>
      match outcome with
      | .ok () => after.Steady terms [] []
      | .error cause => m.Faults terms cause after := by
  refine O.bind (O.mono (O.allocateFor hallows h hidle hp false) fun outcome granted hgranted => ?_)
  cases outcome with
  | error cause => exact O.pure (hgranted.ofVm address)
  | ok frame =>
    refine O.bind (O.mono (O.readIn hallows segment) fun outcome read hread => ?_)
    have hread' := hgranted.1.fills hread
    split
    · refine O.bind (O.step hallows fun met hmet => yields_space.mpr fun _ _ => ?_)
      refine O.bind (O.step hallows fun last hlast => yields_notify.mpr ?_)
      have hlast' := (hread'.fills (hmet.fills frame)).fills (hlast.fills frame)
      refine O.bind (O.mono (O.free hallows (hlast'.fills (fills_said last terms frame _))) fun u final
        hfinal => ?_)
      exact O.pure hfinal.1
    · refine O.bind (O.step hallows fun met hmet => ?_)
      refine ((hread'.fills (hmet.fills frame)).install segment.writable).mono fun done after hafter => ?_
      cases done with
      | true =>
        obtain ⟨hheld, -⟩ := hafter
        refine O.bind (O.holding (O.step hallows fun last hlast => yields_modifyInfo.mpr ?_))
        have hlast' := hheld.fills (hlast.fills frame)
        refine O.mono (O.release hallows hlast'.markResident fun space =>
          .pageFromFile space.pid p segment.offset) fun outcome final ⟨hok, hfinal⟩ =>
            hok ▸ hfinal fun _ info _ hinfo _ _ => ?_
        rw [info?_amend, if_pos ⟨rfl, rfl⟩] at hinfo
        obtain ⟨_, -, rfl⟩ := Option.map_eq_some_iff.mp hinfo
        rfl
      | false =>
        obtain rfl : after = met := hafter
        refine O.bind (O.mono (O.free hallows (hread'.fills (hmet.fills frame))) fun u final hfinal => ?_)
        exact O.pure hfinal.1

/-! ### Stack pages -/

/-- A supplemental page table is read. -/
theorem Outcomes.supplement : O.Yields (Kernel.supplement s) m fun table after =>
    terms.Allows m after ∧ ∃ space, m.spaces[s]? = some space ∧ table = space.supplement := by
  refine O.holding (O.step hallows fun met hmet => yields_supplement.mpr fun space hspace => ?_)
  refine ⟨hmet, space, ?_, rfl⟩
  obtain ⟨_, _, rfl⟩ := hmet.devices
  exact hspace

/-- A page directory is asked for an entry. -/
theorem Outcomes.findEntry : O.Yields (Kernel.findEntry s p) m fun entry after =>
    terms.Allows m after ∧ entry = mapped? m.spaces s p := by
  refine O.bind (O.step hallows fun met hmet => yields_directory.mpr fun space hspace => ?_)
  refine O.bind (O.interrupt fun last hlast => O.pure ⟨hmet.trans (hallows _ _ hlast), ?_⟩)
  obtain ⟨_, _, rfl⟩ := hmet.devices
  exact (mapped?_eq hspace).symm

/-- The page belongs to no mapped file. -/
def Spaces.IsPrivate (spaces : Array AddressSpace) (s : SpaceId) (p : Nat) : Prop :=
  ∀ segment, segment? spaces s p = some segment → segment.writeBack = false

/-- A page of zeroes is mapped, or nothing is. -/
theorem Outcomes.addStackPage (h : m.Steady terms [] []) (hidle : evicts → terms.Idle)
    (hp : IsAligned p) :
    O.Yields (Kernel.addStackPage s p) m fun outcome after =>
      match outcome with
      | .ok () => (terms.careful → IsPrivate m.spaces s p) → after.Steady terms [] []
      | .error cause => m.Refuses terms cause after := by
  refine O.bind (O.mono (O.supplement hallows) fun table met hmet => ?_)
  have hmet' := h.allows hmet.1
  split
  · exact O.pure (hmet'.refuses (by simp [VmError.OfWriteOut, VmError.OfSwap]))
  refine O.bind (O.mono (O.findEntry hallows) fun entry last hlast => ?_)
  have hlast' := hmet'.allows hlast.1
  split
  · exact O.pure (hlast'.refuses (by simp [VmError.OfWriteOut, VmError.OfSwap]))
  have hdevices := hmet.1.trans hlast.1
  refine O.bind (O.mono (O.allocateFor hallows hlast' hidle hp true) fun outcome granted hgranted => ?_)
  cases outcome with
  | error cause => exact O.pure (hdevices.devices.swept.refuses hgranted)
  | ok frame =>
    obtain ⟨hgranted, hsegments, -⟩ := hgranted
    refine O.bind (O.step hallows fun now hnow => ?_)
    refine ((hgranted.fills (hnow.fills frame)).install true).mono fun done after hafter => ?_
    cases done with
    | true =>
      obtain ⟨hheld, hinfo, -⟩ := hafter
      refine O.mono (O.release hallows hheld fun space => .stackGrew space.pid p)
        fun outcome final ⟨hok, hfinal⟩ => hok ▸ fun hprivate => hfinal
          fun hcareful info segment hinfo' hseg hback => ?_
      have hwindow : segment? m.spaces s p = some segment := by
        obtain ⟨_, _, rfl⟩ := hdevices.devices
        obtain ⟨_, _, rfl⟩ := hnow.devices
        rw [← hsegments, segment?, ← hinfo s p, hinfo', Option.bind_some, hseg]
      rw [hprivate hcareful segment hwindow] at hback
      cases hback
    | false =>
      obtain rfl : after = now := hafter
      refine O.bind (O.mono (O.free hallows (hgranted.fills (hnow.fills frame))) fun u final hfinal => ?_)
      exact O.pure (hfinal.1.refuses (by simp [VmError.OfWriteOut, VmError.OfSwap]))

/-- A stack is begun, or nothing is. -/
theorem Outcomes.growStack (h : m.Steady terms [] []) (hidle : evicts → terms.Idle) (address : Nat) :
    O.Yields (Kernel.growStack s address) m fun outcome after =>
      match outcome with
      | .ok () => (terms.careful → IsPrivate m.spaces s (pageOf address)) → after.Steady terms [] []
      | .error cause => m.Refuses terms cause after := by
  rw [Kernel.growStack]
  split
  · exact O.pure (h.refuses (by simp [VmError.OfWriteOut, VmError.OfSwap]))
  · exact O.holding (O.addStackPage hallows h hidle (isAligned_pageOf address))

/-! ### Resolving a fault -/

variable (h : m.Steady terms [] []) (hidle : evicts → terms.Idle)

include h hidle

/-- A fault on a page without an entry adds a page to the stack, or is refused. -/
theorem Outcomes.faultWithoutInfo (address stackPointer : Nat)
    (hnone : info? m.spaces s (pageOf address) = none) :
    O.Yields (Kernel.faultWithoutInfo s address stackPointer) m fun outcome after =>
      match outcome with
      | .ok () => after.Steady terms [] []
      | .error cause => m.Faults terms cause after := by
  refine O.bind (O.step hallows fun met hmet => yields_stackLimit.mpr ?_)
  split
  · have hwindow : segment? met.spaces s (pageOf address) = none := by
      obtain ⟨_, _, rfl⟩ := hmet.devices
      rw [segment?, hnone, Option.bind_none]
    refine O.bind (O.mono (O.addStackPage hallows (h.allows hmet) hidle (isAligned_pageOf address))
      fun outcome after hafter => ?_)
    cases outcome with
    | error cause => exact O.pure (hmet.devices.swept.faults (hafter.ofVm address))
    | ok u =>
      refine O.pure (hafter fun _ segment hsegment => ?_)
      rw [hwindow] at hsegment
      cases hsegment
  · exact O.pure (h.allows hmet)

/-- A fault on a page with an entry brings it in from where the entry says, or is refused. -/
theorem Outcomes.faultWithInfo (info : PageInfo) (address : Nat) :
    O.Yields (Kernel.faultWithInfo s info address) m fun outcome after =>
      match outcome with
      | .ok () => after.Steady terms [] []
      | .error cause => m.Faults terms cause after := by
  rw [Kernel.faultWithInfo]
  split
  · refine O.bind (O.mono (O.findEntry hallows) fun entry after hafter => ?_)
    split <;> exact O.pure (h.allows hafter.1)
  · split
    · exact O.loadFromSwap hallows h hidle (isAligned_pageOf address) _ _ address
    · exact O.loadFromFile hallows h hidle (isAligned_pageOf address) _ address
    · exact O.pure h

/-- A fault is resolved, or it is not. A page that is on its way out is waited for. -/
theorem Outcomes.resolveIn (address stackPointer rounds : Nat) :
    O.Yields (Kernel.resolveIn s address stackPointer rounds) m fun outcome after =>
      match outcome with
      | .ok () => after.Steady terms [] []
      | .error cause => m.Faults terms cause after := by
  cases rounds with
  | zero => exact O.atomically fun _ _ => yields_throw.mpr trivial
  | succ rounds =>
    refine O.bind (O.mono (O.supplement hallows) fun table met hmet => ?_)
    obtain ⟨hmet, space, hspace, rfl⟩ := hmet
    have hmet' := h.allows hmet
    have hfind : info? met.spaces s (pageOf address) = space.supplement.find? (pageOf address) := by
      obtain ⟨_, _, rfl⟩ := hmet.devices
      exact info?_eq hspace
    split
    · exact O.pure hmet'
    · split
      · rename_i hnone
        refine O.mono (O.faultWithoutInfo hallows hmet' hidle address stackPointer
          (hfind.trans hnone)) fun outcome after hafter => ?_
        cases outcome with
        | ok u => exact hafter
        | error cause => exact hmet.devices.swept.faults hafter
      · rename_i info hinfo
        split
        · rename_i hevicting
          by_cases hevicts : evicts
          · have hstill := hmet'.tables.still s _ info (hfind.trans hinfo)
              (by rw [(hidle hevicts).page]; simp)
            rw [hstill] at hevicting
            cases hevicting
          · exact O.bind (O.waits hevicts)
        · refine O.mono (O.faultWithInfo hallows hmet' hidle info address) fun outcome after hafter => ?_
          cases outcome with
          | ok u => exact hafter
          | error cause => exact hmet.devices.swept.faults hafter

/-- A fault leaves the machine steady. If it was not resolved, then on the terms of its cause. -/
theorem Outcomes.resolveFault (address stackPointer : Nat) (code : FaultCode) :
    O.Yields (Kernel.resolveFault s address stackPointer code) m fun outcome after =>
      match outcome with
      | .ok () => after.Steady terms [] []
      | .error cause => m.Faults terms cause after := by
  rw [Kernel.resolveFault]
  split
  · exact O.pure h
  · exact O.holding (O.resolveIn hallows h hidle address stackPointer _)

/-- What the trap does with a fault leaves a steady machine, unless the system halts. -/
theorem Outcomes.handleFault (address stackPointer : Nat) (code : FaultCode) :
    O.Yields (Kernel.handleFault s address stackPointer code) m fun _ after =>
      after.Steady terms [] [] := by
  refine O.bind (O.mono (O.resolveFault hallows h hidle address stackPointer code) ?_)
  rintro ((address | cause) | u) after hafter
  · refine O.bind (O.step hallows fun met hmet => yields_space.mpr fun _ _ => ?_)
    refine O.bind (O.step hallows fun last hlast => yields_notify.mpr (O.pure ?_))
    exact ((Steady.allows hafter hmet).allows hlast).said _ _
  · refine O.bind (O.step hallows fun met hmet => yields_space.mpr fun _ _ => ?_)
    refine O.bind (O.step hallows fun last hlast => yields_notify.mpr ?_)
    exact O.atomically fun _ _ => yields_throw.mpr trivial
  · exact O.pure hafter

end

end DemandPaging
