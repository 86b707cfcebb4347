import DemandPaging.Proofs.Evictions
import DemandPaging.Proofs.Steadiness

/-!
# Victims and where they go

The parts of an eviction, followed for any kind of outcome while others may change files and devices:
the search for a frame or a victim, and the move of the contents of a victim. A search that finds
nothing has only cleared marks of pages that were used (`Swept`), and a victim has lost its record
besides (`Picked`). If the contents cannot be moved, nothing has changed but files and devices; a slot
that was claimed is given back, and the slots are then free in the order in which they were.
-/

set_option autoImplicit false

namespace DemandPaging

open Spaces Machine Transition

/-! ### What lasts -/

/-- What is known of a mapped page, but for whether it was used. -/
def PageTableEntry.lasting (e : PageTableEntry) : Nat × Bool × Bool :=
  (e.frame.toNat, e.writable, e.dirty)

namespace Spaces

variable {a b c : Array AddressSpace} {s : SpaceId} {p : Nat}

/-- How a page is mapped, if it is. -/
def lasting? (spaces : Array AddressSpace) (s : SpaceId) (p : Nat) : Option (Nat × Bool × Bool) :=
  (mapped? spaces s p).map (·.lasting)

/-- The frame of a page is among what lasts. -/
theorem frame?_eq_lasting? (spaces : Array AddressSpace) (s : SpaceId) (p : Nat) :
    frame? spaces s p = (lasting? spaces s p).map (·.1) := by
  rw [frame?, lasting?, Option.map_map]
  rfl

/-- Nothing has changed but marks of pages that were used. -/
structure Faded (a b : Array AddressSpace) : Prop where
  info : ∀ s p, info? b s p = info? a s p
  standing : ∀ s, standing? b s = standing? a s
  lasting : ∀ s p, lasting? b s p = lasting? a s p

/-- No mark need fade. -/
theorem Faded.refl (a : Array AddressSpace) : Faded a a := ⟨fun _ _ => rfl, fun _ => rfl, fun _ _ => rfl⟩

/-- Marks may fade again. -/
theorem Faded.trans (h : Faded a b) (h' : Faded b c) : Faded a c :=
  ⟨fun s p => (h'.info s p).trans (h.info s p), fun s => (h'.standing s).trans (h.standing s),
    fun s p => (h'.lasting s p).trans (h.lasting s p)⟩

/-- Spaces in which only marks have faded are similar. -/
theorem Faded.similar (h : Faded a b) : Similar a b :=
  ⟨h.info, h.standing, fun s p => by rw [frame?_eq_lasting?, frame?_eq_lasting?, h.lasting]⟩

/-- A mark of a page was set or cleared. -/
theorem faded_mark (a : Array AddressSpace) (s : SpaceId) (p : Nat) (on : Bool) :
    Faded a (mark a s p fun e => { e with accessed := on }) where
  info _ _ := info?_mark
  standing _ := standing?_mark
  lasting s' p' := by
    rw [lasting?, mapped?_mark]
    split
    · rw [Option.map_map]
      rfl
    · rfl

end Spaces

/-! ### Writing a page out -/

/-- Something was said. -/
def Machine.Speaks (before after : Machine) : Prop := ∃ said, after.notices = before.notices ++ said

/-- Nothing need be said. -/
theorem Machine.Speaks.of_eq {before after : Machine} (h : after.notices = before.notices) :
    before.Speaks after := ⟨#[], by rw [h, Array.append_empty]⟩

/-- What is said in two parts is said. -/
theorem Machine.Speaks.trans {m m' m'' : Machine} (h : m.Speaks m') (h' : m'.Speaks m'') : m.Speaks m'' := by
  obtain ⟨said, h⟩ := h
  obtain ⟨said', h'⟩ := h'
  exact ⟨said ++ said', by rw [h', h, Array.append_assoc]⟩

/-- A page was stored: slots may be claimed, and something was said. -/
structure Machine.Wrote (before after : Machine) : Prop where
  spaces_eq : after.spaces = before.spaces
  frames_eq : after.frames = before.frames
  speaks : before.Speaks after

/-- A page may be stored in several steps. -/
theorem Machine.Wrote.trans {m m' m'' : Machine} (h : m.Wrote m') (h' : m'.Wrote m'') : m.Wrote m'' :=
  ⟨h'.spaces_eq.trans h.spaces_eq, h'.frames_eq.trans h.frames_eq, h.speaks.trans h'.speaks⟩

/-- Others may change files and devices while a page is stored. -/
theorem Machine.Devices.wrote {before after : Machine} (h : before.Devices after) :
    before.Wrote after := by
  obtain ⟨files, device, rfl⟩ := h
  exact ⟨rfl, rfl, .of_eq rfl⟩

/-- The clock hand has gone on, while files and devices may have changed. -/
structure Machine.Swept (before after : Machine) : Prop where
  records_eq : after.frames.records = before.frames.records
  accounts : ∀ out pinned, before.frames.pool.Accounts out pinned → after.frames.pool.Accounts out pinned
  memory_eq : after.frames.memory = before.frames.memory
  slots_eq : after.swap.slots = before.swap.slots
  notices_eq : after.notices = before.notices
  faded : Faded before.spaces after.spaces

/-- The hand need not go on. -/
theorem Machine.Swept.refl (m : Machine) : m.Swept m := ⟨rfl, fun _ _ h => h, rfl, rfl, rfl, .refl _⟩

/-- The hand may go on again. -/
theorem Machine.Swept.trans {m m' m'' : Machine} (h : m.Swept m') (h' : m'.Swept m'') : m.Swept m'' where
  records_eq := h'.records_eq.trans h.records_eq
  accounts out pinned ha := h'.accounts out pinned (h.accounts out pinned ha)
  memory_eq := h'.memory_eq.trans h.memory_eq
  slots_eq := h'.slots_eq.trans h.slots_eq
  notices_eq := h'.notices_eq.trans h.notices_eq
  faded := h.faded.trans h'.faded

/-- Others may change files and devices while the hand goes on. -/
theorem Machine.Devices.swept {before after : Machine} (h : before.Devices after) :
    before.Swept after := by
  obtain ⟨files, device, rfl⟩ := h
  exact ⟨rfl, fun _ _ h => h, rfl, rfl, rfl, .refl _⟩

/-- The hand clears or sets the mark of a page that was used. -/
theorem Machine.swept_mark (m : Machine) (s : SpaceId) (p : Nat) (on : Bool) :
    m.Swept { m with spaces := mark m.spaces s p fun e => { e with accessed := on } } :=
  ⟨rfl, fun _ _ h => h, rfl, rfl, rfl, faded_mark m.spaces s p on⟩

/-- The record of a page has left the table besides. -/
structure Machine.Picked (before : Machine) (victim : FrameRecord) (after : Machine) : Prop where
  records : (victim :: after.frames.records).Perm before.frames.records
  bound : victim.page.isSome = true
  accounts : ∀ out pinned, before.frames.pool.Accounts out pinned → after.frames.pool.Accounts out pinned
  memory_eq : after.frames.memory = before.frames.memory
  slots_eq : after.swap.slots = before.swap.slots
  notices_eq : after.notices = before.notices
  faded : Faded before.spaces after.spaces

/-- A victim that is picked after the hand went on is picked. -/
theorem Machine.Swept.picked {m m' m'' : Machine} {victim : FrameRecord} (h : m.Swept m')
    (h' : m'.Picked victim m'') : m.Picked victim m'' where
  records := h.records_eq ▸ h'.records
  bound := h'.bound
  accounts out pinned ha := h'.accounts out pinned (h.accounts out pinned ha)
  memory_eq := h'.memory_eq.trans h.memory_eq
  slots_eq := h'.slots_eq.trans h.slots_eq
  notices_eq := h'.notices_eq.trans h.notices_eq
  faded := h.faded.trans h'.faded

section

variable {m : Type → Type} [Kernel m] {others : Machine → Machine → Prop} {evicts : Prop}
  {machine : Machine} {slot frame : Nat}

/-- One part of a frame that is written changes the device only. -/
theorem Transition.yields_writePart (slot frame : Nat) (part : Fin sectorsPerPage) :
    Yields (writePart slot frame part) machine fun _ after => machine.Devices after := by
  refine (ensures_writePart slot frame part).yields.mono ?_
  rintro _ _ ⟨_, device, rfl, -⟩
  exact ⟨machine.files, device, rfl⟩

/-- A file that is written is all that is changed. -/
theorem Transition.yields_writeFile (terms : Terms) (f : FileId) (offset : Nat) (data : Bytes) :
    Yields (writeFile f offset data) machine fun _ after => terms.Allows machine after :=
  (ensures_writeFile.mpr fun _ _ => ⟨⟨_, machine.swap.device, rfl⟩, fun _ _ _ => rfl⟩).yields

/-- To ask for a frame changes nothing. -/
theorem Transition.yields_requireFrame {post : Unit → Machine → Prop} (h : post () machine) :
    Yields (requireFrame frame) machine post :=
  (ensures_bind.mpr (ensures_page.mpr fun _ _ => ensures_pure.mpr h)).yields

/-- To ask for a slot changes nothing. -/
theorem Transition.yields_requireUsed {post : Unit → Machine → Prop} (h : post () machine) :
    Yields (requireUsed slot) machine post :=
  yields_bind.mpr (yields_swap.mpr (yields_ite (fun _ => yields_pure.mpr h) fun _ => by simp))

variable (O : Outcomes m others evicts)

/-- A transition on a machine that others may have changed. -/
theorem Outcomes.step {terms : Terms}
    (hallows : ∀ before after, others before after → terms.Allows before after) {α : Type}
    {step : Transition α} {post : α → Machine → Prop}
    (h : ∀ met, terms.Allows machine met → step.Yields met post) :
    O.Yields (Kernel.atomically step) machine post :=
  O.atomically fun met hmet => h met (hallows machine met hmet)

/-- A frame is written back to a file. -/
theorem Outcomes.writeBack {terms : Terms}
    (hallows : ∀ before after, others before after → terms.Allows before after) (segment : Segment) :
    O.Yields (Kernel.writeBack frame segment) machine fun _ after => terms.Allows machine after := by
  refine O.holding (O.bind (O.step hallows fun met hmet => ?_))
  refine yields_ite (fun _ => yields_pure.mpr ?_) fun _ => yields_throw.mpr trivial
  refine O.bind (O.step hallows fun met' hmet' => (ensures_page.mpr fun content _ => ?_).yields)
  refine O.bind (O.interrupt fun last hlast => O.bind (O.step hallows fun now hnow => ?_))
  refine (yields_writeFile terms _ _ _).mono fun outcome after hafter => ?_
  have hstored := (((hmet.trans hmet').trans (hallows _ _ hlast)).trans hnow).trans hafter
  cases outcome <;> exact O.pure hstored

variable (hothers : ∀ before after, others before after → before.Devices after)

include hothers

/-- A transition on a machine whose files and devices others may have changed. -/
theorem Outcomes.devices {α : Type} {step : Transition α} {post : α → Machine → Prop}
    (h : ∀ met, machine.Devices met → step.Yields met post) :
    O.Yields (Kernel.atomically step) machine post :=
  O.atomically fun met hmet => h met (hothers machine met hmet)

/-- A frame is written to a slot. If the device fails, nothing else has changed. -/
theorem Outcomes.writeSlot : O.Yields (Kernel.writeSlot slot frame) machine fun outcome after =>
    match outcome with
    | .ok () => ∃ notice middle, machine.Devices middle ∧
        after = { middle with notices := middle.notices.push notice }
    | .error _ => machine.Devices after := by
  refine O.bind (O.devices hothers fun met hmet => yields_requireFrame (O.holding ?_))
  refine O.bind (O.devices hothers fun met' hmet' => yields_requireUsed (O.holding ?_))
  have hstart := hmet.trans hmet'
  refine O.bind (O.mono (O.upToFailure (fun _ after => machine.Devices after)
    (fun _ after => machine.Devices after) ?_ hstart) fun outcome after hafter => ?_)
  · intro _ k _ before _ hbefore
    refine O.bind (O.devices hothers fun met hmet => yields_swap.mpr ?_)
    cases SwapStore.refuseWrite? met.swap slot k with
    | some cause => exact O.pure (hbefore.trans hmet)
    | none =>
      refine O.bind (O.interrupt fun met' hmet' => O.devices hothers fun last hlast => ?_)
      refine (yields_writePart slot frame k).mono fun outcome after hafter => ?_
      have hdevices := (((hbefore.trans hmet).trans (hothers _ _ hmet')).trans hlast).trans hafter
      cases outcome <;> exact hdevices
  · cases outcome with
    | error cause => exact O.pure hafter
    | ok u =>
      refine O.bind (O.devices hothers fun met hmet => yields_notify.mpr (O.pure ?_))
      exact ⟨_, met, hafter.trans hmet, rfl⟩

/-- A page goes to a slot of its own, or nothing has changed. -/
theorem Outcomes.swapOut : O.Yields (Kernel.swapOut frame) machine fun outcome after =>
    match outcome with
    | .ok _ => machine.Wrote after
    | .error cause => machine.Devices after ∧ cause.OfSwap := by
  refine O.bind (O.devices hothers fun met hmet => yields_allocateSlot.mpr fun slot? slots hclaim => ?_)
  cases slot? with
  | none =>
    have hsame : slots = met.swap.slots := by
      unfold SlotBitmap.allocate at hclaim
      repeat' split at hclaim
      all_goals cases hclaim
      rfl
    subst hsame
    exact O.pure ⟨hmet, .inl rfl⟩
  | some slot =>
    refine O.bind (O.mono (O.writeSlot hothers) fun outcome after hafter => ?_)
    cases outcome with
    | ok u =>
      obtain ⟨notice, middle, hmiddle, rfl⟩ := hafter
      obtain ⟨_, _, rfl⟩ := hmet
      obtain ⟨_, _, rfl⟩ := hmiddle
      exact O.pure ⟨rfl, rfl, #[notice], rfl⟩
    | error cause =>
      refine O.bind (O.devices hothers fun last hlast => yields_releaseSlot.mpr fun slots' hfree => ?_)
      refine O.pure ⟨?_, .inr ⟨cause, rfl⟩⟩
      obtain ⟨_, _, rfl⟩ := hmet
      obtain ⟨_, _, rfl⟩ := hafter
      obtain ⟨files, device, rfl⟩ := hlast
      obtain rfl := SlotBitmap.eq_of_free_of_allocate hclaim hfree
      exact ⟨files, device, rfl⟩

/-- The contents of a victim are moved, or nothing has changed. -/
theorem Outcomes.writeOut (transit : Transit) :
    O.Yields (Kernel.writeOut transit) machine fun outcome after =>
      match outcome with
      | .ok copy => machine.Wrote after ∧ (copy = none → ∀ writable, transit.plan ≠ .swap writable)
      | .error cause => machine.Devices after ∧ transit.plan ≠ .discard ∧
        (cause.OfSwap ∨ ∃ segment, transit.plan = .file segment) := by
  rw [Kernel.writeOut]
  cases transit.plan with
  | swap writable =>
    refine O.bind (O.mono (O.swapOut hothers) fun outcome after hafter => ?_)
    cases outcome with
    | ok slot => exact O.pure ⟨hafter, by simp⟩
    | error cause =>
      exact O.pure ⟨hafter.1, by simp, .inl hafter.2⟩
  | file segment =>
    refine O.bind (O.mono (O.writeBack (fun before after h =>
      (hothers before after h).allowed (rfl : ({} : Terms).bytes = none)) segment)
      fun outcome after hafter => ?_)
    cases outcome with
    | ok u => exact O.pure ⟨hafter.devices.wrote, fun _ _ => by simp⟩
    | error cause => exact O.pure ⟨hafter.devices, by simp, .inr ⟨segment, rfl⟩⟩
  | keep => exact O.pure ⟨(Devices.refl machine).wrote, fun _ _ => by simp⟩
  | discard => exact O.pure ⟨(Devices.refl machine).wrote, fun _ _ => by simp⟩

/-! ### Choosing a victim -/

/-- The clock hand only clears marks, and it stops at a frame that may be evicted. -/
theorem Outcomes.sweep (table : FrameTable) (visits : List Nat) (fallback : Option Nat)
    (hfallback : ∀ index, fallback = some index → table.isEligible index = true) :
    O.Yields (SecondChance.sweep (Kernel.candidates table) visits fallback) machine
      fun choice after => machine.Swept after ∧
        ∀ index, choice = some index → table.isEligible index = true := by
  induction visits generalizing fallback machine with
  | nil => exact O.pure ⟨.refl machine, hfallback⟩
  | cons index rest ih =>
    rw [SecondChance.sweep]
    split
    · rename_i heligible
      have hmark : O.Yields ((Kernel.candidates table).testAndClear index) machine
          fun _ after => machine.Swept after := by
        unfold Kernel.candidates
        simp only
        split
        · refine O.bind (O.bind (O.devices hothers fun met hmet => yields_directory.mpr fun _ _ => ?_))
          refine O.bind (O.interrupt fun met' hmet' => O.pure ?_)
          have hswept := (hmet.trans (hothers _ _ hmet')).swept
          split
          · refine O.bind (O.devices hothers fun last hlast => yields_setAccessed.mpr (O.pure ?_))
            exact (hswept.trans hlast.swept).trans (swept_mark last _ _ _)
          · exact O.pure hswept
        · exact O.pure (.refl machine)
      refine O.bind (O.mono hmark fun accessed after hafter => ?_)
      split
      · refine O.mono (ih (fallback <|> some index) fun i hi => ?_) fun choice last hlast =>
          ⟨hafter.trans hlast.1, hlast.2⟩
        cases fallback with
        | none =>
          cases hi
          exact heligible
        | some first => exact hfallback i hi
      · refine O.pure ⟨hafter, fun i hi => ?_⟩
        cases hi
        exact heligible
    · exact ih fallback hfallback

omit hothers in
/-- What is taken is the record that was chosen, if it is still there. Either way the hand has moved. -/
theorem Transition.yields_takeVictim {choice : Option Nat} {clock : SecondChance}
    {post : Except VmError FrameRecord → Machine → Prop}
    (hnone : choice.bind (machine.frames.records[·]?) = none →
      post (.error .noVictim) { machine with frames := { machine.frames with clock } })
    (hsome : ∀ victim, choice.bind (machine.frames.records[·]?) = some victim → post (.ok victim)
      { machine with frames := FrameTable.removeAt { machine.frames with clock } clock.hand }) :
    Yields (takeVictim choice clock) machine post := by
  refine yields_bind.mpr (yields_frames.mpr ?_)
  cases hchoice : choice.bind (machine.frames.records[·]?) with
  | none =>
    simp only [hchoice]
    exact yields_bind.mpr (yields_setFrames.mpr (yields_pure.mpr (hnone hchoice)))
  | some victim =>
    simp only [hchoice]
    exact yields_bind.mpr (yields_setFrames.mpr (yields_pure.mpr (hsome victim hchoice)))

/-- The clock chooses a victim, or nothing has changed but marks. -/
theorem Outcomes.chooseVictim : O.Yields Kernel.chooseVictim machine fun outcome after =>
    match outcome with
    | .ok victim => machine.Picked victim after
    | .error cause => cause = .noVictim ∧ machine.Swept after := by
  refine O.bind (O.devices hothers fun met hmet => yields_frames.mpr ?_)
  refine O.bind (O.bind (O.mono (O.sweep hothers met.frames _ none (by simp)) fun choice after hafter => ?_))
  obtain ⟨hswept, heligible⟩ := hafter
  have hclock : ∀ (last : Machine) (clock : SecondChance), after.Devices last →
      machine.Swept { last with frames := { last.frames with clock } } := by
    intro last clock hlast
    obtain ⟨hrecords, haccounts, hmemory, hslots, hnotices, hfaded⟩ :=
      (hmet.swept.trans hswept).trans hlast.swept
    exact ⟨hrecords, haccounts, hmemory, hslots, hnotices, hfaded⟩
  cases choice with
  | none =>
    exact O.pure (O.devices hothers fun last hlast =>
      yields_takeVictim (fun _ => ⟨rfl, hclock last _ hlast⟩) (by simp))
  | some index =>
    refine O.pure (O.devices hothers fun last hlast => ?_)
    refine yields_takeVictim (fun _ => ⟨rfl, hclock last _ hlast⟩) fun victim hrecord => ?_
    rw [Option.bind_some] at hrecord
    have hmay := heligible index rfl
    rw [FrameTable.isEligible, ← (hswept.trans hlast.swept).records_eq, hrecord, Option.any_some,
      Bool.and_eq_true] at hmay
    obtain ⟨front, rear, hsplit, hlength⟩ := FrameTable.exists_split_of_getElem? hrecord
    have hrecords := @FrameTable.records_removeAt
      { last.frames with clock := { hand := index } } front rear victim hsplit
    rw [hlength] at hrecords
    refine (hclock last { hand := index } hlast).picked
      ⟨?_, hmay.1, fun _ _ h => h, rfl, rfl, rfl, .refl _⟩
    rw [hrecords, hsplit]
    exact List.perm_middle.symm

omit hothers in
/-- A second look at the pool finds a frame or none, and if none it fails when there is nothing to evict. -/
theorem Transition.yields_lookAgain {post : Except VmError (Option Nat) → Machine → Prop}
    (hfound : ∀ frame pool, machine.frames.pool.alloc = .ok (some frame, pool) →
      post (.ok (some frame)) { machine with frames := { machine.frames with pool } })
    (hnone : ∀ pool, machine.frames.pool.alloc = .ok (none, pool) → ∀ outcome,
      outcome = .error .outOfFrames ∨ outcome = .ok none →
      post outcome { machine with frames := { machine.frames with pool } }) :
    Yields lookAgain machine post := by
  rw [lookAgain, yields_bind, yields_frames, yields_bind, yields_ofExcept]
  rintro ⟨frame, pool⟩ halloc
  rw [yields_bind, yields_setFrames]
  cases frame with
  | some frame => exact yields_pure.mpr (hfound frame pool halloc)
  | none =>
    refine yields_pure.mpr (hnone pool halloc _ ?_)
    split
    · exact .inl rfl
    · exact .inr rfl

/-- There is a free frame after all, or a victim. -/
theorem Outcomes.findSource {out : List Nat} (h : machine.frames.pool.Accounts out []) :
    O.Yields Kernel.findSource machine fun outcome after =>
      match outcome with
      | .ok (.pool frame) => ∃ middle pool, machine.Devices middle ∧
          after = { middle with frames := { middle.frames with pool } } ∧
          pool.Accounts (frame :: out) []
      | .ok (.page victim) => machine.Picked victim after
      | .error cause => (cause = .outOfFrames ∨ cause = .noVictim) ∧ machine.Swept after := by
  refine O.bind (O.devices hothers fun met hmet => yields_lookAgain ?_ ?_)
  · intro frame pool halloc
    have hframes : met.frames = machine.frames := by
      obtain ⟨_, _, rfl⟩ := hmet
      rfl
    exact O.pure ⟨met, pool, hmet, rfl, ((hframes ▸ h).alloc halloc).2.2⟩
  · intro pool halloc outcome houtcome
    have hswept : machine.Swept { met with frames := { met.frames with pool } } :=
      hmet.swept.trans ⟨rfl, fun out pinned ha => (ha.alloc halloc).2, rfl, rfl, rfl, .refl _⟩
    rcases houtcome with rfl | rfl
    · exact O.pure ⟨.inl rfl, hswept⟩
    · refine O.bind (O.mono (O.chooseVictim hothers) fun outcome after hafter => O.pure ?_)
      cases outcome with
      | error cause => exact ⟨.inr hafter.1, hswept.trans hafter.2⟩
      | ok victim => exact hswept.picked hafter

end

end DemandPaging
