import DemandPaging.Proofs.Histories
import DemandPaging.Proofs.Traces

/-!
# Frames in flight

From the moment when an eviction has taken a victim and unmapped its page until it ends, the frame of the
victim belongs to no table. Others may go on meanwhile, as long as they neither evict nor wait for the
eviction (`Beside`). They cannot see the frame and leave it alone: it stays out of the pool without a pin,
without a record and mapped nowhere, and its contents stay the same (`Machine.Sealed`). So the slot or the
file that the contents go to gets what was in the frame when its page was unmapped, and then the frame is
all zero (`History.inFlight`).

On careful terms this is what the page held. Otherwise the page may have been mapped to another frame than
the one that its record names.
-/

set_option autoImplicit false

namespace DemandPaging

open Spaces Machine Transition

/-! ### What others do -/

/-- A call while somebody else has the right to evict. If it needs that right, it halts. -/
def Call.beside (c : Call) : Transition Reply := fun machine =>
  match (Kernel.perform c : Attended Unit Reply)
    { attendant := fun _ _ => pure (), held := [.eviction] } (machine, ()) with
  | .ok reply (after, _) => .ok reply after
  | .error halt (after, _) => .error halt after

/-- What others may make of a machine while an eviction is under way: calls that neither evict nor wait
for it, and things done from outside, one after another. -/
inductive Beside : Machine → Machine → Prop where
  | refl (machine : Machine) : Beside machine machine
  | call {machine before after : Machine} {c : Call} {reply : Reply} (h : Beside machine before)
      (hpublic : c.Public) (hperforms : c.beside before = .ok reply after) : Beside machine after
  | outside {machine before after : Machine} {action : Action} {reply : Reply}
      (h : Beside machine before) (hcall : ∀ c, action ≠ .call c)
      (hstep : action.step before = .ok reply after) : Beside machine after

section

variable {terms : Terms} {m m' : Machine} {loose pinned : List Nat}

/-- A reply excuses nothing new where leftovers are allowed already. -/
theorem Machine.Steady.of_afterReply {reply : Reply} (h : m.Steady (terms.afterReply reply) loose pinned)
    (hleftover : terms.leftover) : m.Steady terms loose pinned := by
  unfold Terms.afterReply at h
  split at h
  · exact h
  · exact h.leaving fun _ => hleftover

/-- What others do beside an eviction leaves a machine steady, whatever the eviction has on its way. -/
theorem Machine.Steady.beside (h : m.Steady terms [] []) (hcareful : ¬ terms.careful)
    (hleftover : terms.leftover) (hbeside : Beside m m') : m'.Steady terms [] [] := by
  induction hbeside with
  | refl => exact h
  | outside _ hcall hstep ih => exact ih.outside ((ensures_outside hcall).of_ok hstep)
  | @call before after c reply _ hpublic hperforms ih =>
    let O : Outcomes (Attended Unit) Eq False := .waiting (fun _ => rfl) (fun _ _ => pure ()) <| by
      rintro _ _ _ _ _ _ ⟨⟩
      rfl
    have hyields : O.Yields (Kernel.perform c) before fun reply after =>
        after.Steady (terms.afterReply reply) [] [] :=
      O.perform (fun _ _ heq => heq ▸ .refl terms _) ih False.elim hpublic fun hc => absurd hc hcareful
    unfold Call.beside at hperforms
    split at hperforms
    · rename_i _ _ _ hrun
      cases hperforms
      exact (hyields [.eviction] () List.mem_cons_self _ _ () hrun).of_afterReply hleftover
    · cases hperforms

/-- Other bytes must stay as they are. -/
theorem Machine.Steady.rebase (h : m.Steady terms loose pinned)
    {bytes : Option ((Nat → Nat → Option UInt8) × (Nat → Nat → UInt8))}
    (hbytes : ({ terms with bytes } : Terms).Untouched m) : m.Steady { terms with bytes } loose pinned :=
  ⟨h.pool, h.bound, h.recorded, { h.tables with }, h.honest, hbytes⟩

end

/-! ### The frame -/

/-- The frame is in nobody's hands: it is out of the pool without a pin or a record, it is mapped nowhere,
and it has these contents. -/
structure Machine.Sealed (frame : Nat) (content : Nat → Option UInt8) (machine : Machine) : Prop where
  allocated : machine.frames.pool.isAllocated frame = true
  unpinned : machine.frames.pool.isPinned frame = false
  unrecorded : ∀ record ∈ machine.frames.records, record.frame ≠ frame
  unmapped : ∀ s p e, machine.IsMapped s p e → e.frame.toNat ≠ frame
  contents : ∀ k, machine.frames.memory.byte? frame k = content k

/-- The machine is steady while the frame with its contents is in flight. -/
def Machine.Carries (page : Option (SpaceId × Nat)) (frame : Nat) (content : Nat → Option UInt8)
    (machine : Machine) : Prop :=
  machine.Steady
    { page := page
      frames := [frame]
      bytes := some (fun _ => content, machine.swap.device.disk.slotByte) } [] []

section

variable {terms : Terms} {page : Option (SpaceId × Nat)} {frame : Nat} {content : Nat → Option UInt8}
  {m m' : Machine}

/-- A frame that was taken is in flight from then on. -/
theorem Machine.Steady.carries (h : m.Steady terms [frame] []) (hframes : terms.frames = []) :
    m.Carries terms.page frame (m.frames.memory.byte? frame) where
  pool := by
    have hpool := h.pool
    rw [hframes] at hpool
    exact hpool
  bound := h.bound
  recorded := h.recorded
  tables := { h.tables with
    anonymous := fun s p info hinfo hnot hback =>
      (h.tables.anonymous s p info hinfo hnot hback).imp_left fun _ => trivial }
  honest := False.elim
  untouched := by
    rintro _ _ ⟨⟩
    exact ⟨fun f hf k => by rw [List.mem_singleton.mp hf], fun _ _ => rfl⟩

/-- The frame that an eviction carries is sealed: allocated, not pinned, recorded nowhere, mapped nowhere, and
with the same bytes. -/
theorem Machine.Carries.sealed (h : m.Carries page frame content) : m.Sealed frame content where
  allocated := (h.pool.isAllocated_iff frame).mpr (List.mem_append_right _ (List.mem_singleton.mpr rfl))
  unpinned := Bool.eq_false_iff.mpr fun hpinned => by cases (h.pool.isPinned_iff frame).mp hpinned
  unrecorded _ hr heq := (h.not_mem_frames hr).2 (List.mem_singleton.mpr heq)
  unmapped s p e hmaps heq := by
    obtain ⟨hp, hentry⟩ := isMapped_iff.mp hmaps
    refine h.unmapped (List.mem_singleton.mpr rfl) hp (?_ : frame? m.spaces s p = some frame)
    rw [frame?, hentry, Option.map_some, heq]
  contents := (h.untouched _ _ rfl).1 frame (List.mem_singleton.mpr rfl)

/-- The frame does not mind what happens to devices, files and slots. -/
theorem Machine.Carries.congr (h : m.Carries page frame content) (hframes : m'.frames = m.frames)
    (hspaces : m'.spaces = m.spaces) : m'.Carries page frame content := by
  have hfree := h.rebase (Terms.untouched_of_none (rfl : ({ frames := [frame] } : Terms).bytes = none) m)
  have hsteady := hfree.similar (congrArg FrameTable.pool hframes) (congrArg FrameTable.records hframes)
    (hspaces ▸ .refl _) (Terms.untouched_of_none rfl m')
  refine hsteady.rebase ?_
  rintro _ _ ⟨⟩
  refine ⟨fun f hf k => ?_, fun _ _ => rfl⟩
  rw [List.mem_singleton.mp hf, hframes]
  exact h.sealed.contents k

/-- Others leave the frame alone, and no byte of a slot changes. -/
theorem Machine.Carries.beside (h : m.Carries page frame content) (hbeside : Beside m m') :
    m'.Carries page frame content ∧
      m'.swap.device.disk.slotByte = m.swap.device.disk.slotByte := by
  have hsteady := Machine.Steady.beside h not_false trivial hbeside
  have hslots : m'.swap.device.disk.slotByte = m.swap.device.disk.slotByte :=
    funext₂ (hsteady.untouched _ _ rfl).2
  refine ⟨?_, hslots⟩
  unfold Carries
  rw [hslots]
  exact hsteady

end

/-! ### Moving the contents -/

/-- Where the contents of a victim are once they were moved. -/
def Plan.Stored (plan : Plan) (content : Nat → Option UInt8) (copy : Option SwapCopy)
    (machine : Machine) : Prop :=
  match plan with
  | .swap writable => ∃ slot, copy = some { slot, writable } ∧
      ∀ k < pageSize, content k = some (machine.swap.device.disk.slotByte slot k)
  | .file segment => copy = none ∧
      ∀ k < segment.readBytes, content k = some (Files.windowByte machine.files segment k)
  | .keep | .discard => copy = none

section

variable {page : Option (SpaceId × Nat)} {frame : Nat} {content : Nat → Option UInt8} {m : Machine}

/-- The frame with its contents is in flight throughout. -/
def Traced.carrying (page : Option (SpaceId × Nat)) (frame : Nat) (content : Nat → Option UInt8) :
    Rules (Traced Beside) :=
  keeping (Machine.Carries page frame content)

/-- A transition of the eviction, after others have done something. -/
theorem Machine.Carries.atomically (h : m.Carries page frame content) {α : Type} {step : Transition α}
    {post : α → Machine → Prop} (hstep : ∀ met, met.Carries page frame content →
      met.swap.device.disk.slotByte = m.swap.device.disk.slotByte →
        step.Yields met fun a after => after.Carries page frame content ∧ post a after) :
    (Traced.carrying page frame content).Yields (Kernel.atomically step) m post :=
  Traced.keeping_atomically fun met hmet => hstep met (h.beside hmet).1 (h.beside hmet).2

/-- After others came in, the frame is still carried, and the slots have the same bytes. -/
theorem Machine.Carries.interrupt (h : m.Carries page frame content) {event : Event}
    {post : Unit → Machine → Prop} (hpost : ∀ met, met.Carries page frame content →
      met.swap.device.disk.slotByte = m.swap.device.disk.slotByte → post () met) :
    (Traced.carrying page frame content).Yields (Kernel.interrupt event) m post :=
  Traced.keeping_interrupt fun met hmet =>
    ⟨(h.beside hmet).1, hpost met (h.beside hmet).1 (h.beside hmet).2⟩

/-- A part of the frame is written to its slot, and the other parts of the slot stay. -/
theorem Machine.Carries.writePart (h : m.Carries page frame content) (slot : Nat)
    (part : Fin sectorsPerPage) : (Transition.writePart slot frame part).Yields m fun outcome after =>
      after.Carries page frame content ∧
        ∀ k < pageSize, if k / sectorSize = part.val
          then outcome = .ok () → content k = some (after.swap.device.disk.slotByte slot k)
          else after.swap.device.disk.slotByte slot k = m.swap.device.disk.slotByte slot k := by
  refine (ensures_writePart slot frame part).yields.mono ?_
  rintro outcome _ ⟨contents, device, rfl, hcontents, hothers, hstored⟩
  refine ⟨h.congr rfl rfl, fun k hk => ?_⟩
  split
  · rename_i hpart
    intro hok
    rw [← h.sealed.contents k, FrameMemory.byte?_eq hcontents]
    exact Page.getElem?_of_sector (hstored hok) hk hpart
  · rename_i hpart
    have hsector : slot * sectorsPerPage + k / sectorSize ≠ SwapStore.sectorOf slot part :=
      fun heq => hpart (Nat.add_left_cancel heq)
    simp only [RamDisk.slotByte, hothers _ hsector]

/-- The frame is written to a slot. -/
theorem Machine.Carries.writeSlot (h : m.Carries page frame content) (slot : Nat) :
    (Traced.carrying page frame content).Yields (Kernel.writeSlot slot frame) m fun outcome after =>
      after.Carries page frame content ∧ (outcome = .ok () →
        ∀ k < pageSize, content k = some (after.swap.device.disk.slotByte slot k)) := by
  let R := Traced.carrying page frame content
  refine R.bind (h.atomically fun met hmet _ => yields_requireFrame ⟨hmet, R.holding ?_⟩)
  refine R.bind (hmet.atomically fun start hstart _ => yields_requireUsed ⟨hstart, R.holding ?_⟩)
  -- the parts that are done are in the slot
  let inv (done : List (Fin sectorsPerPage)) (after : Machine) : Prop :=
    after.Carries page frame content ∧ ∀ part ∈ done, ∀ k < pageSize, k / sectorSize = part.val →
      content k = some (after.swap.device.disk.slotByte slot k)
  refine R.bind (R.mono (R.upToFailure inv (fun _ after => after.Carries page frame content) ?_
    ⟨hstart, by simp⟩) fun outcome after hafter => ?_)
  · rintro done part _ before - ⟨hbefore, hdone⟩
    refine R.bind (hbefore.atomically fun met hmet hslots => yields_swap.mpr ⟨hmet, ?_⟩)
    cases SwapStore.refuseWrite? met.swap slot part with
    | some cause => exact R.pure hmet
    | none =>
      refine R.bind (hmet.interrupt fun met' hmet' hslots' => ?_)
      refine hmet'.atomically fun last hlast hslots'' => ?_
      refine (hlast.writePart slot part).mono fun outcome after hafter => ⟨hafter.1, ?_⟩
      cases outcome with
      | error cause => exact hafter.1
      | ok u =>
        refine ⟨hafter.1, fun part' hmem k hk hpart => ?_⟩
        have hbyte := hafter.2 k hk
        split at hbyte
        · exact hbyte rfl
        · rename_i hne
          have hmem' : part' ∈ done := by
            refine (List.mem_append.mp hmem).resolve_right fun hlast => hne ?_
            rw [hpart, List.mem_singleton.mp hlast]
          rw [hbyte, hslots'', hslots', hslots]
          exact hdone part' hmem' k hk hpart
  · cases outcome with
    | error cause => exact R.pure ⟨hafter, by simp⟩
    | ok u =>
      refine R.bind (hafter.1.atomically fun met hmet hslots => yields_notify.mpr ⟨hmet.congr rfl rfl, ?_⟩)
      refine R.pure ⟨hmet.congr rfl rfl, fun _ k hk => ?_⟩
      have hpart : k / sectorSize < sectorsPerPage := by
        simp only [sectorSize, sectorsPerPage, pageSize] at *
        omega
      refine (hafter.2 ⟨k / sectorSize, hpart⟩ (List.mem_finRange _) k hk rfl).trans ?_
      exact congrArg (fun slotByte => some (slotByte slot k)) hslots.symm

/-- The frame is written to a slot of its own. -/
theorem Machine.Carries.swapOut (h : m.Carries page frame content) :
    (Traced.carrying page frame content).Yields (Kernel.swapOut frame) m fun outcome after =>
      after.Carries page frame content ∧ ∀ slot, outcome = .ok slot →
        ∀ k < pageSize, content k = some (after.swap.device.disk.slotByte slot k) := by
  let R := Traced.carrying page frame content
  refine R.bind (h.atomically fun met hmet _ => yields_allocateSlot.mpr fun slot? slots _ => ?_)
  refine ⟨hmet.congr rfl rfl, ?_⟩
  cases slot? with
  | none => exact R.pure ⟨hmet.congr rfl rfl, by simp⟩
  | some slot =>
    have hclaimed : Carries page frame content { met with swap := { met.swap with slots } } :=
      hmet.congr rfl rfl
    refine R.bind (R.mono (hclaimed.writeSlot slot) fun outcome after hafter => ?_)
    cases outcome with
    | error cause =>
      refine R.bind (hafter.1.atomically fun last hlast _ => yields_releaseSlot.mpr fun slots' _ => ?_)
      exact ⟨hlast.congr rfl rfl, R.pure ⟨hlast.congr rfl rfl, by simp⟩⟩
    | ok u =>
      refine R.pure ⟨hafter.1, ?_⟩
      rintro _ ⟨⟩
      exact hafter.2 rfl

/-- The frame is written back to a file. -/
theorem Machine.Carries.writeBack (h : m.Carries page frame content) (segment : Segment) :
    (Traced.carrying page frame content).Yields (Kernel.writeBack frame segment) m fun outcome after =>
      after.Carries page frame content ∧ (outcome = .ok () →
        ∀ k < segment.readBytes, content k = some (Files.windowByte after.files segment k)) := by
  let R := Traced.carrying page frame content
  refine R.holding (R.bind (h.atomically fun met hmet _ => ?_))
  refine yields_ite (fun hfits => yields_pure.mpr ⟨hmet, ?_⟩) fun _ => yields_throw.mpr trivial
  refine R.bind (hmet.atomically fun met' hmet' _ => (ensures_page.mpr fun contents hcontents => ?_).yields)
  refine ⟨hmet', R.bind (hmet'.interrupt fun last hlast _ => ?_)⟩
  refine R.bind (hlast.atomically fun now hnow _ => (ensures_writeFile.mpr fun file hfile => ?_).yields)
  refine ⟨hnow.congr rfl rfl, ?_⟩
  have hsize : (contents.window 0 segment.readBytes).size = segment.readBytes := by
    rw [Page.size_window]
    omega
  cases houtcome : (file.write segment.offset (contents.window 0 segment.readBytes)).1 with
  | error cause => exact R.pure ⟨hnow.congr rfl rfl, by simp⟩
  | ok stored =>
    refine R.pure ⟨hnow.congr rfl rfl, fun hok k hk => ?_⟩
    have hall : stored = segment.readBytes := by
      by_contra hne
      rw [if_neg hne] at hok
      cases hok
    rw [Files.windowByte_write hfile (Nat.le_of_eq hsize) (by rw [houtcome, hall, hsize])
      (hsize.symm ▸ hk), ← hmet'.sealed.contents k, FrameMemory.byte?_of_window hcontents hfits hk]

/-- The contents are moved where they go. -/
theorem Machine.Carries.writeOut {transit : Transit} (h : m.Carries page transit.frame content) :
    (Traced.carrying page transit.frame content).Yields (Kernel.writeOut transit) m fun outcome after =>
      after.Carries page transit.frame content ∧
        ∀ copy, outcome = .ok copy → transit.plan.Stored content copy after := by
  let R := Traced.carrying page transit.frame content
  rw [Kernel.writeOut]
  cases transit.plan with
  | swap writable =>
    refine R.bind (R.mono h.swapOut fun outcome after hafter => ?_)
    cases outcome with
    | error cause => exact R.pure ⟨hafter.1, by simp⟩
    | ok slot =>
      refine R.pure ⟨hafter.1, ?_⟩
      rintro _ ⟨⟩
      exact ⟨slot, rfl, hafter.2 slot rfl⟩
  | file segment =>
    refine R.bind (R.mono (h.writeBack segment) fun outcome after hafter => ?_)
    cases outcome with
    | error cause => exact R.pure ⟨hafter.1, by simp⟩
    | ok u =>
      refine R.pure ⟨hafter.1, ?_⟩
      rintro _ ⟨⟩
      exact ⟨rfl, hafter.2 rfl⟩
  | keep | discard =>
    refine R.pure ⟨h, ?_⟩
    rintro _ ⟨⟩
    rfl

/-! ### The end of the eviction -/

/-- Nothing in the tables of frames or directories changes when the contents of a sealed frame do. -/
theorem Machine.Sealed.fill {m' : Machine} {memory : FrameMemory} (h : m.Sealed frame content)
    (hframes : m'.frames = { m.frames with memory })
    (hmapped : ∀ s p, mapped? m'.spaces s p = mapped? m.spaces s p) :
    m'.Sealed frame (memory.byte? frame) where
  allocated := hframes ▸ h.allocated
  unpinned := hframes ▸ h.unpinned
  unrecorded := hframes ▸ h.unrecorded
  unmapped s p e hmaps := by
    rw [isMapped_iff, hmapped, ← isMapped_iff] at hmaps
    exact h.unmapped s p e hmaps
  contents _ := by rw [hframes]

/-- A victim is detached with its frame, and all frames are left alone. -/
theorem Transition.yields_detach (victim : FrameRecord) :
    (Transition.detach victim).Yields m fun transit after =>
      transit.frame = victim.frame ∧ after.frames = m.frames := by
  obtain ⟨frame, s, page⟩ := victim
  cases page with
  | none => exact yields_throw.mpr trivial
  | some p =>
    refine ensures_parted.yields.mono ?_
    rintro transit after ⟨_, _, _, rfl, rfl, -⟩
    exact ⟨rfl, rfl⟩

/-- The frame was cleared; no other frame, no directory and no byte of a slot has changed. -/
structure Machine.Clears (frame : Nat) (before after : Machine) : Prop where
  exists_frame : frame < before.frames.memory.size
  frames_eq : after.frames = { before.frames with
    memory := before.frames.memory.setPage frame Page.blank }
  device_eq : after.swap.device = before.swap.device
  mapped_eq : ∀ s p, mapped? after.spaces s p = mapped? before.spaces s p

/-- When an eviction ends well, its frame is cleared. -/
theorem Transition.yields_finish_clears (transit : Transit) (copy : Option SwapCopy) :
    (Transition.finish transit copy).Yields m fun _ after => m.Clears transit.frame after := by
  refine (yields_finished transit copy).mono ?_
  rintro _ _ ⟨hlt, spaces, slots, notice, hfinished, rfl⟩
  cases hfinished with
  | discarded => exact ⟨hlt, rfl, rfl, fun _ _ => rfl⟩
  | released => exact ⟨hlt, rfl, rfl, fun _ _ => mapped?_amend⟩
  | gone => exact ⟨hlt, rfl, rfl, fun _ _ => rfl⟩
  | givenUp => exact ⟨hlt, rfl, rfl, fun _ _ => rfl⟩

/-- A sealed frame that was cleared is all zero and still sealed. -/
theorem Machine.Clears.sealed {m' : Machine} (h : m.Clears frame m') (hsealed : m.Sealed frame content) :
    m'.Sealed frame fun k => if k < pageSize then some 0 else none := by
  have hfilled := hsealed.fill h.frames_eq h.mapped_eq
  rwa [funext (FrameMemory.byte?_setPage_blank h.exists_frame)] at hfilled

end

/-! ### The whole eviction -/

section

variable {careful : Prop} {start machine picked taken : Machine} {moments : List Moment}
  {victim : FrameRecord} {transit : Transit} {trace : List Machine}
  {result : EStateM.Result Halt Machine (Except VmError (Option SwapCopy))}

/-- After any history, let an eviction take a victim and unmap its page, and let others do what they can
beside it. The frame is out of all hands with its contents unchanged at all times until the eviction ends.
If the contents could be moved, they are where they go, and they stay in their slot; and when the eviction
has ended, the frame is all zero and still in nobody's hands. On careful terms the page was mapped to that
frame, so the contents are those of the page. -/
theorem History.inFlight (hfresh : start.Fresh) (h : History careful start moments machine)
    (hfind : (Kernel.findSource : Transition _) machine = .ok (.ok (.page victim)) picked)
    (hdetach : Transition.detach victim picked = .ok transit taken)
    (hwrite : (Kernel.writeOut transit : Traced Beside _) taken trace result) :
    (careful → ∀ p, victim.page = some p →
      ∃ e, picked.IsMapped victim.owner p e ∧ e.frame.toNat = victim.frame) ∧
    (∀ m ∈ taken :: trace, ∀ later, Beside m later →
      later.Sealed victim.frame (picked.frames.memory.byte? victim.frame)) ∧
    ∀ copy written, result = .ok (.ok copy) written →
      transit.plan.Stored (picked.frames.memory.byte? victim.frame) copy written ∧
      ∀ later, Beside written later → ∀ after, Transition.finish transit copy later = .ok () after →
        after.Sealed victim.frame (fun k => if k < pageSize then some 0 else none) ∧
        after.swap.device.disk.slotByte = written.swap.device.disk.slotByte := by
  have hs := h.steady hfresh
  have hidle := Terms.idle_since careful moments
  have hpicked : machine.Picked victim picked :=
    Outcomes.alone.findSource (fun _ _ heq => heq ▸ .refl _) hs.pool _ _ hfind
  obtain ⟨hframe, htaken⟩ := hpicked.detach hs hidle _ _ hdetach
  have hframes : taken.frames = picked.frames := (yields_detach victim _ _ hdetach).2
  obtain ⟨page, hcarries⟩ : ∃ page,
      taken.Carries page transit.frame (taken.frames.memory.byte? transit.frame) := by
    rcases htaken with ⟨-, -, hsteady⟩ | ⟨_, _, hmoving⟩
    · rw [← hframe] at hsteady
      exact ⟨_, hsteady.carries rfl⟩
    · exact ⟨_, hmoving.steady.carries rfl⟩
  obtain ⟨hkept, hdone⟩ := hcarries.writeOut trace result hwrite
  rw [← hframe, ← hframes]
  refine ⟨fun hcareful p hpage => ?_, fun m hm later hlater => ?_, fun copy written hok => ?_⟩
  · have hmem := hpicked.records.mem_iff.mp List.mem_cons_self
    obtain ⟨_, hpage', hp⟩ := hs.bound _ hmem
    obtain rfl := Option.some.inj (hpage.symm.trans hpage')
    have hmapped := (hs.honest hcareful victim.owner p).mapped victim hmem rfl hpage List.not_mem_nil
    rw [← hpicked.faded.similar.frame] at hmapped
    obtain ⟨e, hentry, hnumber⟩ := Option.map_eq_some_iff.mp hmapped
    exact ⟨e, isMapped_iff.mpr ⟨hp, hentry⟩, hnumber.trans hframe.symm⟩
  · have hm' : m.Carries page transit.frame (taken.frames.memory.byte? transit.frame) := by
      rcases List.mem_cons.mp hm with rfl | hm
      · exact hcarries
      · exact hkept m hm
    exact (hm'.beside hlater).1.sealed
  · obtain ⟨hwritten, hstored⟩ := hdone _ _ hok
    refine ⟨hstored copy rfl, fun later hlater after hfinish => ?_⟩
    obtain ⟨hcarried, hslots⟩ := hwritten.beside hlater
    have hclears := yields_finish_clears transit copy () after hfinish
    refine ⟨hclears.sealed hcarried.sealed, ?_⟩
    rw [hclears.device_eq, hslots]

end

/-! ### Evictions that can be computed -/

/-- Whether a step answers, with something of which `p` holds. -/
def Transition.check {α : Type} (step : Transition α) (machine : Machine) (p : α → Machine → Bool) : Bool :=
  match step machine with
  | .ok a after => p a after
  | .error _ _ => false

/-- A step that passes its check answers with something that does. -/
theorem Transition.exists_of_check {α : Type} {step : Transition α} {machine : Machine}
    {p : α → Machine → Bool} (h : step.check machine p = true) :
    ∃ a after, step machine = .ok a after ∧ p a after = true := by
  unfold Transition.check at h
  split at h
  · rename_i a after hrun
    exact ⟨a, after, hrun, h⟩
  · cases h

/-- What is known of an eviction when the contents of its victim are where they go. -/
structure MovedOut where
  victim : FrameRecord
  /-- The machine when the victim was found. -/
  picked : Machine
  transit : Transit
  /-- The machine when the victim was detached. -/
  taken : Machine
  copy : Option SwapCopy

/-- An eviction that nobody comes in between, until the contents of the victim are where they go. -/
def Transition.moveOut : Transition MovedOut := do
  match ← Kernel.findSource with
  | .ok (.page victim) => do
    let picked ← get
    let transit ← Transition.detach victim
    let taken ← get
    match ← Kernel.writeOut transit with
    | .ok copy => pure { victim, picked, transit, taken, copy }
    | .error _ => throw .blocked
  | _ => throw .blocked

/-- Others may come in between such an eviction. -/
theorem inFlight_of_moveOut {machine written : Machine} {moved : MovedOut}
    (h : Transition.moveOut machine = .ok moved written) :
    (Kernel.findSource : Transition _) machine = .ok (.ok (.page moved.victim)) moved.picked ∧
      Transition.detach moved.victim moved.picked = .ok moved.transit moved.taken ∧ ∃ trace,
        (Kernel.writeOut moved.transit : Traced Beside _) moved.taken trace
          (.ok (.ok moved.copy) written) := by
  obtain ⟨source, picked, hfind, h⟩ := ok_of_bind h
  cases source with
  | error cause => cases h
  | ok source =>
    cases source with
    | pool frame => cases h
    | page victim =>
      obtain ⟨_, _, hget, h⟩ := ok_of_bind h
      cases hget
      obtain ⟨transit, taken, hdetach, h⟩ := ok_of_bind h
      obtain ⟨_, _, hget, h⟩ := ok_of_bind h
      cases hget
      obtain ⟨outcome, _, hwrite, h⟩ := ok_of_bind h
      cases outcome with
      | error cause => cases h
      | ok copy =>
        cases h
        obtain ⟨trace, htraced⟩ := (Traced.admission Beside.refl).writeOut transit taken
        rw [hwrite] at htraced
        exact ⟨hfind, hdetach, trace, htraced⟩

/-- A page of a stack is written to swap, and its space is torn down before the eviction ends. The slot has
what was in the page, and the frame is all zero. -/
theorem inFlight_sample : ∃ moments machine victim picked transit taken trace written later after,
    Run .sample moments machine ∧
    victim = { frame := 0, owner := 0, page := some 0x7ffff000 } ∧
    (Kernel.findSource : Transition _) machine = .ok (.ok (.page victim)) picked ∧
    Transition.detach victim picked = .ok transit taken ∧
    (Kernel.writeOut transit : Traced Beside _) taken trace
      (.ok (.ok (some { slot := 0, writable := true })) written) ∧
    Beside written later ∧ TornDown later.spaces 0 ∧
    Transition.finish transit (some { slot := 0, writable := true }) later = .ok () after ∧
    (∃ e, picked.IsMapped 0 0x7ffff000 e ∧ e.frame.toNat = 0) ∧
    (∀ k < pageSize, picked.frames.memory.byte? 0 k = some (after.swap.device.disk.slotByte 0 k)) ∧
    after.Sealed 0 fun k => if k < pageSize then some 0 else none := by
  obtain ⟨moments, machine, h, -, hfacts⟩ := @exists_run .sample
    [.addSpace 1, .call (.growStack 0 0x7ffff000), .call (.copyToUser 0 0x7ffff000 #[1] 0), .addSpace 2]
    (fun r => Transition.moveOut.check r.2 fun moved written =>
      (Call.beside (.destroy 0)).check written fun _ later =>
        (Transition.finish moved.transit moved.copy).check later fun _ _ =>
          decide (moved.victim = ⟨0, 0, some 0x7ffff000⟩ ∧ moved.transit.plan = .swap true ∧
            moved.copy = some ⟨0, true⟩ ∧ TornDown later.spaces 0)) (by decide +kernel)
  obtain ⟨⟨victim, picked, transit, taken, copy⟩, written, hmove, hfacts⟩ := exists_of_check hfacts
  obtain ⟨_, later, hdestroy, hfacts⟩ := exists_of_check hfacts
  obtain ⟨_, after, hfinish, hfacts⟩ := exists_of_check hfacts
  obtain ⟨rfl, hplan, rfl, htorn⟩ := of_decide_eq_true hfacts
  obtain ⟨hfind, hdetach, trace, hwrite⟩ := inFlight_of_moveOut hmove
  have hpublic : (Call.destroy 0).Public := trivial
  have hbeside : Beside written later := .call (.refl written) hpublic hdestroy
  obtain ⟨hmapped, -, hdone⟩ :=
    History.inFlight Machine.fresh_sample (h.history True) hfind hdetach hwrite
  obtain ⟨hstored, hlater⟩ := hdone _ written rfl
  obtain ⟨hsealed, hslots⟩ := hlater later hbeside after hfinish
  rw [show transit.plan = .swap true from hplan] at hstored
  obtain ⟨_, ⟨⟩, hslot⟩ := hstored
  refine ⟨moments, machine, _, picked, transit, taken, trace, written, later, after, h, rfl, hfind, hdetach,
    hwrite, hbeside, htorn, hfinish, hmapped trivial _ rfl, ?_, hsealed⟩
  rw [hslots]
  exact hslot

/-- A machine with two frames and four swap slots. -/
def Machine.twoFrames : Machine :=
  .boot {} 2 { name := "swap", kind := .swap, size := 32, disk := .ofSize 32 }

/-- The machine with two frames has just been started. -/
theorem Machine.fresh_twoFrames : Machine.twoFrames.Fresh := fresh_boot _ _ _

/-- A stack grows over a page of a mapped file, the mapping is removed, and the stack grows there again. The
page has two records then, and it is mapped to the frame of the second one. It is written, and evicted by
its first record: the slot gets a zero for the byte that was stored. -/
theorem inFlight_stale : ∃ moments machine victim picked transit taken trace written e,
    History False .twoFrames moments machine ∧
    moments.map (·.action) = [.addSpace 1, .addFile { content := #[0x66] },
      .call (.mapFile 0 0 0x10000000), .call (.growStack 0 0x10000000),
      .call (.copyFromUser 0 0x10000000 1 0), .call (.growStack 0 0x7ffff000),
      .call (.growStack 0 0x7fffe000), .call (.unmapFile 0 0), .call (.growStack 0 0x10000000),
      .call (.copyToUser 0 0x10000000 #[1] 0)] ∧
    victim = { frame := 0, owner := 0, page := some 0x10000000 } ∧
    (Kernel.findSource : Transition _) machine = .ok (.ok (.page victim)) picked ∧
    picked.IsMapped 0 0x10000000 e ∧ picked.frames.memory.byte? e.frame.toNat 0 = some 1 ∧
    Transition.detach victim picked = .ok transit taken ∧
    (Kernel.writeOut transit : Traced Beside _) taken trace
      (.ok (.ok (some { slot := 2, writable := true })) written) ∧
    written.swap.device.disk.slotByte 2 0 = 0 := by
  have hfacts : ((Action.steps [.addSpace 1, .addFile { content := #[0x66] },
        .call (.mapFile 0 0 0x10000000), .call (.growStack 0 0x10000000),
        .call (.copyFromUser 0 0x10000000 1 0), .call (.growStack 0 0x7ffff000),
        .call (.growStack 0 0x7fffe000), .call (.unmapFile 0 0),
        .call (.growStack 0 0x10000000)]).check .twoFrames fun _ before =>
      (Kernel.copyToUser 0 0x10000000 #[1] 0 : Transition _).check before fun outcome machine =>
        Transition.moveOut.check machine fun moved written =>
          decide (outcome.toOption = some () ∧ moved.victim = ⟨0, 0, some 0x10000000⟩ ∧
            moved.copy = some ⟨2, true⟩ ∧ frame? machine.spaces 0 0x10000000 = some 1 ∧
            frame? moved.picked.spaces 0 0x10000000 = some 1 ∧
            written.swap.device.disk.slotByte 2 0 = 0)) = true := by decide +kernel
  obtain ⟨replies, before, hsteps, hfacts⟩ := exists_of_check hfacts
  obtain ⟨outcome, machine, hcopy, hfacts⟩ := exists_of_check hfacts
  obtain ⟨⟨victim, picked, transit, taken, copy⟩, written, hmove, hfacts⟩ := exists_of_check hfacts
  obtain ⟨hdone, rfl, rfl, hframe, hframe', hslot⟩ := of_decide_eq_true hfacts
  obtain ⟨hfind, hdetach, trace, hwrite⟩ := inFlight_of_moveOut hmove
  cases outcome with
  | error cause => cases hdone
  | ok u =>
    obtain ⟨moments, h, hactions, -⟩ := History.steps (by
      intro c hc
      simp only [List.mem_cons, reduceCtorEq, Action.call.injEq, List.not_mem_nil, or_false,
        false_or] at hc
      rcases hc with rfl | rfl | rfl | rfl | rfl | rfl | rfl <;> trivial) .nil hsteps
    have hpublic : (Call.copyToUser 0 0x10000000 #[1] 0).Public := trivial
    have hcall : (Kernel.perform (.copyToUser 0 0x10000000 #[1] 0) : Transition _) before =
        .ok .done machine := run_bind hcopy _
    have hmachine := h.call hpublic False.elim (.alone hcall)
    -- the page still holds what was stored when the victim is found
    have hpiece : Piece.all 0x10000000 (#[1] : Bytes).size =
        [{ address := 0x10000000, done := 0, size := 1 }] := by decide
    obtain ⟨frame, hframe'', hbyte⟩ := yields_copyToUser hpiece 0 _ machine hcopy rfl
    obtain rfl := Option.some.inj (hframe.symm.trans hframe'')
    have hpicked : machine.Picked ⟨0, 0, some 0x10000000⟩ picked :=
      Outcomes.alone.findSource (fun _ _ heq => heq ▸ .refl _)
        (hmachine.steady Machine.fresh_twoFrames).pool _ _ hfind
    obtain ⟨e, hentry, hnumber⟩ := Option.map_eq_some_iff.mp hframe'
    refine ⟨_, machine, _, picked, transit, taken, trace, written, e, hmachine, ?_, rfl, hfind,
      isMapped_iff.mpr ⟨by decide, hentry⟩, ?_, hdetach, hwrite, hslot⟩
    · rw [List.nil_append, List.map_append, hactions]
      rfl
    · rw [hnumber, hpicked.memory_eq]
      exact hbyte 0 (by decide)

end DemandPaging
