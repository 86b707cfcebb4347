import DemandPaging.Proofs.Copies
import DemandPaging.Proofs.Teardowns

/-!
# What happens to the system

An `Action` is a call of the memory manager or something that is done to the system from outside:
spaces and files come up, somebody else writes a file or turns its switches, the disk fails or works
again. Calls that register pages or add to the stack may only be made where nobody is in the way
(`Call.Permitted`).

`Moves` says what an action does to the pages, in one of six ways, and `ensures_step` says that every
permitted action does one of them. All that is proved of runs is proved from `Moves`.
-/

set_option autoImplicit false

namespace DemandPaging

open Spaces Machine

/-- Something that happens to the system. -/
inductive Action where
  /-- A call of the memory manager. -/
  | call (call : Call)
  /-- A process starts. -/
  | addSpace (pid : Nat)
  /-- A file comes up. -/
  | addFile (file : MemoryFile)
  /-- Somebody else writes a file or turns its switches. -/
  | changeFile (f : FileId) (file : MemoryFile)
  /-- The switches of the swap disk are turned. -/
  | turnDisk (failReads failWrites : Bool)

/-! ### Calls -/

namespace Call

/-- A call names pages for registration only while they are not mapped, and adds to the stack only
where there is no entry. What it registers is from a file that exists. The frame table is not asked
for frames directly. -/
def Permitted (machine : Machine) : Call → Prop
  | registerPage s f _ page _ _ _ => f < machine.files.size ∧ mapped? machine.spaces s page = none
  | registerSegment s f _ page readBytes zeroBytes _ => f < machine.files.size ∧
    ∀ i, i < (readBytes + zeroBytes) / pageSize → mapped? machine.spaces s (page + i * pageSize) = none
  | growStack s address => info? machine.spaces s (pageOf address) = none
  | mapFile .. | unmapFile .. | resolveFault .. | handleFault .. | copyFromUser .. | copyToUser ..
  | destroy .. => True
  | allocate .. | allocateFor .. | bind .. | unpin .. | free .. | freeOwnedBy .. => False

/-- Whether a call is permitted can be computed. -/
instance (machine : Machine) : (c : Call) → Decidable (c.Permitted machine)
  | registerPage .. | registerSegment .. => inferInstanceAs (Decidable (_ ∧ _))
  | growStack .. => inferInstanceAs (Decidable (_ = none))
  | mapFile .. | unmapFile .. | resolveFault .. | handleFault .. | copyFromUser .. | copyToUser ..
  | destroy .. => inferInstanceAs (Decidable True)
  | allocate .. | allocateFor .. | bind .. | unpin .. | free .. | freeOwnedBy .. =>
    inferInstanceAs (Decidable False)

/-- The call registers pages of a file that exists. -/
def Registers (machine : Machine) : Call → Prop
  | registerPage _ f .. | registerSegment _ f .. => f < machine.files.size
  | _ => False

/-- The window that a call names for a page. -/
def window (machine : Machine) : Call → SpaceId → Nat → Option Segment
  | registerPage s f offset page readBytes zeroBytes writable, s', p =>
    if s' = s then pageWindow page 1 (fun _ =>
      { file := f, offset, readBytes, zeroBytes, writable, writeBack := false }) p
    else none
  | registerSegment s f offset page readBytes zeroBytes writable, s', p =>
    if s' = s then pageWindow page ((readBytes + zeroBytes) / pageSize)
      (segmentPage f offset readBytes writable) p
    else none
  | mapFile s f page, s', p =>
    if s' = s then machine.files[f]?.bind fun file =>
      pageWindow page (pageCount file.size) (mappedSegment f file.size) p
    else none
  | _, _, _ => none

/-- The call tears a space down. -/
def tearsDown : Call → SpaceId → Bool
  | destroy s, s' => s' = s
  | _, _ => false

/-- What a call stores in user memory. -/
def stored (machine : Machine) : Call → SpaceId → Nat → Option UInt8
  | copyToUser s start data stackPointer =>
    stores s start data (Transition.copied s start data stackPointer machine)
  | _ => nothing

end Call

namespace Action

/-- Carry out an action. -/
def step : Action → Transition Reply
  | .call c => Kernel.perform c
  | .addSpace pid => do
    let _ ← Transition.addSpace pid
    return .done
  | .addFile file => do
    let _ ← Transition.addFile file
    return .done
  | .changeFile f file => do
    Transition.setFile f file
    return .done
  | .turnDisk failReads failWrites => do
    Transition.modifyDisk ({ · with failReads, failWrites })
    return .done

/-- Only calls are ever forbidden. -/
def Permitted (machine : Machine) : Action → Prop
  | .call c => c.Permitted machine
  | _ => True

/-- Whether an action is permitted can be computed, so a run can be replayed. -/
instance (machine : Machine) : (action : Action) → Decidable (action.Permitted machine)
  | .call c => inferInstanceAs (Decidable (c.Permitted machine))
  | .addSpace _ | .addFile _ | .changeFile .. | .turnDisk .. => inferInstanceAs (Decidable True)

/-- The window that an action names for a page. -/
def window (machine : Machine) : Action → SpaceId → Nat → Option Segment
  | .call c => c.window machine
  | _ => fun _ _ => none

/-- The action tears a space down. -/
def tearsDown : Action → SpaceId → Bool
  | .call c => c.tearsDown
  | _ => fun _ => false

/-- What an action stores in user memory. -/
def stored (machine : Machine) : Action → SpaceId → Nat → Option UInt8
  | .call c => c.stored machine
  | _ => nothing

end Action

/-! ### Effects -/

/-- Nothing was done to the pages: spaces and files may be new, files may have other contents, and
switches may have been turned. -/
structure Outside (before after : Machine) : Prop where
  frames : after.frames = before.frames
  slots : after.swap.slots = before.swap.slots
  disk : ∀ slot k, after.swap.device.disk.slotByte slot k = before.swap.device.disk.slotByte slot k
  mapped : ∀ s p, mapped? after.spaces s p = mapped? before.spaces s p
  info : ∀ s p, info? after.spaces s p = info? before.spaces s p
  standing : ∀ s, standing? after.spaces s = standing? before.spaces s ∨
    standing? before.spaces s = none ∧ ∃ pid, standing? after.spaces s = some (AddressSpace.ofPid pid).standing
  files : before.files.size ≤ after.files.size

/-- What an action did to the pages. -/
inductive Moves (action : Action) (reply : Reply) (before after : Machine) : Prop where
  /-- Pages were moved, the stack grew, bytes were stored. -/
  | paged (writes : List FileId) (hlength : writes.length ≤ Transition.copyWrites)
      (hwindow : ∀ s p, action.window before s p = none) (hlive : ∀ s, action.tearsDown s = false)
      (hadvance : Advance writes (action.stored before) before after)
  /-- Pages were registered, as many as were taken. -/
  | registered (s : SpaceId) (hstored : action.stored before = nothing)
      (hlive : ∀ s, action.tearsDown s = false)
      (hprivate : ∀ p segment, action.window before s p = some segment →
        segment.writeBack = false ∧ segment.file < before.files.size)
      (hadds : Adds s (action.window before s) before after)
      (hstanding : ∀ s', standing? after.spaces s' = standing? before.spaces s')
  /-- A file was mapped. -/
  | mapped (s : SpaceId) (f : FileId) (page id : Nat) (file : MemoryFile)
      (haction : action = .call (.mapFile s f page)) (hreply : reply = .mapping id)
      (hfile : before.files[f]? = some file) (hmaps : Maps s f page file.size id before after)
  /-- A mapping was removed. -/
  | unmapped (s : SpaceId) (id : Nat) (mapping : Mapping)
      (haction : action = .call (.unmapFile s id)) (hunmaps : Unmaps s id mapping before after)
      (hsaves : reply = .done →
        Saves (Transition.among s (pageRange mapping.page mapping.pages)) before after)
  /-- An address space was torn down. -/
  | destroyed (s : SpaceId) (haction : action = .call (.destroy s))
      (hdestroys : Destroys s before after)
  /-- Nothing was done. -/
  | refused (hstored : action.stored before = nothing) (hlive : ∀ s, action.tearsDown s = false)
      (hreply : reply ≠ .done) (heq : after = before)
  /-- Something was done from outside. -/
  | outside (hcall : ∀ call, action ≠ .call call) (houtside : Outside before after)

/-- The machine is settled but for what is `away`, mappings and windows agree, and every window is
in a file. -/
structure Machine.OrderlyBut (away : Away) (machine : Machine) : Prop where
  settled : machine.SettledBut away
  mapped : Mapped machine.spaces
  backed : ∀ s p segment, segment? machine.spaces s p = some segment →
    segment.file < machine.files.size

/-- The machine is settled, mappings and windows agree, and every window is in a file. -/
abbrev Machine.Orderly (machine : Machine) : Prop := machine.OrderlyBut {}

/-- What is still on its way after an action: to tear a space down is to want none of its pages. -/
def Away.after (away : Away) : Action → Away
  | .call (.destroy s) => away.without s
  | _ => away

/-- Only to tear down the space of the page that is on its way makes a difference. -/
theorem Away.after_eq_self {away : Away} {action : Action}
    (h : ∀ s p, away.page = some (s, p) → action ≠ .call (.destroy s)) :
    away.after action = away := by
  unfold after
  split
  · rename_i s
    obtain ⟨page, frames, slots⟩ := away
    cases page with
    | none => rfl
    | some victim =>
      have hne : victim.1 ≠ s := fun heq => h victim.1 victim.2 rfl (by rw [heq])
      simp [without, hne]
  · rfl

/-- If nothing was on its way, nothing is afterwards. -/
theorem Away.after_empty (action : Action) : ({} : Away).after action = {} :=
  after_eq_self nofun

/-- If nothing was on its way before an action, the machine is in order after it without exception. -/
theorem Machine.OrderlyBut.of_empty {action : Action} {machine : Machine}
    (h : machine.OrderlyBut (({} : Away).after action)) : machine.Orderly := by
  rw [Away.after_empty] at h
  exact h

section

variable {action : Action} {reply : Reply} {away away' : Away} {m m' : Machine}

/-- What goes on outside leaves every page in its frame. -/
theorem Outside.frame (h : Outside m m') (s : SpaceId) (p : Nat) :
    frame? m'.spaces s p = frame? m.spaces s p := by rw [frame?, frame?, h.mapped]

/-- What goes on outside leaves every page its window. -/
theorem Outside.segment (h : Outside m m') (s : SpaceId) (p : Nat) :
    segment? m'.spaces s p = segment? m.spaces s p := by rw [segment?, segment?, h.info]

/-- What goes on outside leaves every page its swap copy. -/
theorem Outside.copy (h : Outside m m') (s : SpaceId) (p : Nat) :
    copy? m'.spaces s p = copy? m.spaces s p := by rw [copy?, copy?, h.info]

/-- A new space has no mappings. -/
theorem Outside.mapping? (h : Outside m m') (s : SpaceId) (id : Nat) :
    mapping? m'.spaces s id = mapping? m.spaces s id := by
  rcases h.standing s with hsame | ⟨hnone, pid, hnew⟩
  · exact mapping?_congr hsame id
  · rw [Spaces.mapping?, Spaces.mapping?, hnone, hnew, Option.bind_some, Option.bind_none]
    exact Std.ExtTreeMap.getElem?_empty

/-- A space that was there keeps the number of its next mapping. -/
theorem Outside.next? (h : Outside m m') {s : SpaceId} {n : Nat} (hn : next? m.spaces s = some n) :
    next? m'.spaces s = some n := by
  rcases h.standing s with hsame | ⟨hnone, -⟩
  · rw [← hn]
    exact next?_congr hsame
  · rw [Spaces.next?, hnone] at hn
    cases hn

/-- What goes on outside leaves the machine settled. A space that is new is empty and lives. -/
theorem Outside.settled (h : Outside m m') (hs : m.SettledBut away) : m'.SettledBut away where
  pool := by
    rw [h.frames]
    exact hs.pool
  capacity := by
    rw [h.frames]
    exact hs.capacity
  tracked := by
    rw [h.frames]
    refine ⟨fun r => ?_, fun s p => ?_⟩
    · simpa only [h.frame] using hs.tracked.mem_iff r
    · simpa only [h.frame] using hs.tracked.user s p
  described := hs.described.congr h.info h.frame
  accounted := by
    rw [h.slots]
    exact hs.accounted.congr h.copy
  live := by
    refine ⟨fun s standing hstanding => ?_, fun s standing hstanding hd => ?_⟩
    · rcases h.standing s with hsame | ⟨-, pid, hnew⟩
      · exact hs.live.refusals s standing (hsame.symm.trans hstanding)
      · rw [hnew, Option.some.injEq] at hstanding
        subst hstanding
        rfl
    · rcases h.standing s with hsame | ⟨-, pid, hnew⟩
      · simpa only [h.info, h.frame] using
          hs.live.destroyed s standing (hsame.symm.trans hstanding) hd
      · rw [hnew, Option.some.injEq] at hstanding
        subst hstanding
        cases hd

/-- What goes on outside leaves the machine in order. Files that windows show stay there. -/
theorem Outside.orderly (h : Outside m m') (ho : m.OrderlyBut away) : m'.OrderlyBut away where
  settled := h.settled ho.settled
  mapped := by
    refine ⟨fun s standing hstanding => ?_, ?_, ?_, ?_⟩
    · rcases h.standing s with hsame | ⟨-, pid, hnew⟩
      · exact ho.mapped.numbered s standing (hsame.symm.trans hstanding)
      · rw [hnew, Option.some.injEq] at hstanding
        subst hstanding
        refine ⟨Nat.zero_le _, fun id mapping hmapping => ?_⟩
        rw [show (AddressSpace.ofPid pid).standing.mappings = ∅ from rfl,
          Std.ExtTreeMap.getElem?_empty] at hmapping
        cases hmapping
    · simpa only [h.mapping?, h.segment] using ho.mapped.windows
    · simpa only [h.mapping?, h.segment] using ho.mapped.owned
    · simpa only [h.mapping?] using ho.mapped.disjoint
  backed s p segment hsegment := by
    rw [h.segment] at hsegment
    exact Nat.lt_of_lt_of_le (ho.backed s p segment hsegment) h.files

/-- A space that was torn down stays so. -/
theorem Moves.tornDown (h : Moves action reply m m') {s : SpaceId} (htorn : TornDown m.spaces s) :
    TornDown m'.spaces s := by
  cases h with
  | paged _ _ _ _ hadvance => exact htorn.congr (hadvance.standing s)
  | registered _ _ _ _ _ hstanding => exact htorn.congr (hstanding s)
  | mapped s' f page id file _ _ _ hmaps =>
    obtain ⟨standing, hstanding, hd, -⟩ := hmaps.standing
    refine htorn.congr (hmaps.others s ?_)
    rintro rfl
    obtain ⟨standing', hstanding', hd'⟩ := htorn
    rw [Option.some.inj (hstanding'.symm.trans hstanding), hd] at hd'
    cases hd'
  | unmapped s' id mapping _ hunmaps _ =>
    by_cases hs : s = s'
    · subst hs
      obtain ⟨standing, hstanding, hd⟩ := htorn
      exact ⟨_, hunmaps.standing standing hstanding, hd⟩
    · exact htorn.congr (hunmaps.others s hs)
  | destroyed s' _ hdestroys =>
    by_cases hs : s = s'
    · exact hs ▸ hdestroys.torn
    · exact htorn.congr (hdestroys.others s hs)
  | refused _ _ _ heq => exact heq ▸ htorn
  | outside _ houtside =>
    rcases houtside.standing s with hsame | ⟨hnone, -⟩
    · exact htorn.congr hsame
    · obtain ⟨standing, hstanding, -⟩ := htorn
      rw [hnone] at hstanding
      cases hstanding

/-- To tear a space down is to have it torn down. -/
theorem Moves.torn {s : SpaceId} (h : Moves (.call (.destroy s)) reply m m') :
    TornDown m'.spaces s := by
  have htears : (Action.call (.destroy s)).tearsDown s = true := decide_eq_true rfl
  cases h with
  | paged _ _ _ hlive _ | registered _ _ hlive _ _ _ | refused _ hlive _ _ =>
    rw [hlive s] at htears
    cases htears
  | mapped _ _ _ _ _ haction => cases haction
  | unmapped _ _ _ haction => cases haction
  | destroyed _ haction hdestroys =>
    cases haction
    exact hdestroys.torn
  | outside hcall => exact absurd rfl (hcall _)

/-- Windows that are left are still in files. -/
theorem Forgets.backed {gone : SpaceId → Nat → Prop} {writes : List FileId}
    (h : Forgets gone writes m m') (ho : m.OrderlyBut away) {s : SpaceId} {p : Nat}
    {segment : Segment} (hsegment : segment? m'.spaces s p = some segment) :
    segment.file < m'.files.size := by
  rw [h.files.size_eq]
  exact ho.backed s p segment (h.segment hsegment).2

/-- An action keeps the machine in order if it leaves it settled. -/
theorem Moves.orderly (h : Moves action reply m m') (ho : m.OrderlyBut away)
    (hs : m'.SettledBut away') : m'.OrderlyBut away' := by
  cases h with
  | paged writes _ _ _ hadvance =>
    refine ⟨hs, ho.mapped.congr hadvance.standing hadvance.segment, fun s p segment hsegment => ?_⟩
    rw [hadvance.segment] at hsegment
    rw [hadvance.files.size_eq]
    exact ho.backed s p segment hsegment
  | registered s _ _ hprivate hadds hstanding =>
    refine ⟨hs, ho.mapped.adds hadds hstanding fun p segment hw => (hprivate p segment hw).1,
      fun s' p segment hsegment => ?_⟩
    rw [hadds.files]
    rcases hadds.segment_cases hsegment with hold | ⟨-, -, hw⟩
    · exact ho.backed s' p segment hold
    · exact (hprivate p segment hw).2
  | mapped s f page id file _ _ hfile hmaps =>
    refine ⟨hs, hmaps.mapped ho.mapped, fun s' p segment hsegment => ?_⟩
    rw [hmaps.adds.files]
    rcases hmaps.adds.segment_cases hsegment with hold | ⟨-, -, hw⟩
    · exact ho.backed s' p segment hold
    · obtain ⟨i, -, -, rfl⟩ := pageWindow_eq_some.mp hw
      exact (Array.getElem?_eq_some_iff.mp hfile).1
  | unmapped s id mapping _ hunmaps _ =>
    obtain ⟨writes, -, hforgets⟩ := hunmaps.forgets
    exact ⟨hs, hunmaps.mapped ho.mapped, fun _ _ _ => hforgets.backed ho⟩
  | destroyed s _ hdestroys =>
    obtain ⟨writes, -, hforgets⟩ := hdestroys.forgets
    exact ⟨hs, hdestroys.mapped ho.mapped, fun _ _ _ => hforgets.backed ho⟩
  | refused _ _ _ heq =>
    subst heq
    exact ⟨hs, ho.mapped, ho.backed⟩
  | outside _ houtside =>
    exact ⟨hs, (houtside.orderly ho).mapped, (houtside.orderly ho).backed⟩

end

/-- What a permitted call registers is not mapped, so it is not bare. -/
theorem Call.not_bare {m : Machine} (c : Call) (hc : c.Registers m) (hpermitted : c.Permitted m)
    (s : SpaceId) (p : Nat) (hnamed : (c.window m s p).isSome = true) : ¬ Bare m.spaces s p := by
  refine not_bare_of_unmapped ?_
  obtain ⟨segment, hsegment⟩ := Option.isSome_iff_exists.mp hnamed
  cases c with
  | registerPage s' f offset page readBytes zeroBytes writable =>
    obtain ⟨rfl, hwindow⟩ := (Option.ite_none_right_eq_some ..).mp hsegment
    obtain ⟨i, hi, rfl, -⟩ := pageWindow_eq_some.mp hwindow
    obtain rfl : i = 0 := by omega
    rw [Nat.zero_mul, Nat.add_zero]
    exact hpermitted.2
  | registerSegment s' f offset page readBytes zeroBytes writable =>
    obtain ⟨rfl, hwindow⟩ := (Option.ite_none_right_eq_some ..).mp hsegment
    obtain ⟨i, hi, rfl, -⟩ := pageWindow_eq_some.mp hwindow
    exact hpermitted.2 i hi
  | mapFile | unmapFile | resolveFault | handleFault | growStack | copyFromUser | copyToUser
  | destroy | allocate | allocateFor | bind | unpin | free | freeOwnedBy => exact hc.elim

namespace Transition

variable {machine : Machine} {away : Away}

/-- A fault that was looked at moved pages. -/
theorem moves_of_serviced {action : Action} {reply : Reply} {after : Machine}
    (hstored : action.stored machine = nothing)
    (hwindow : ∀ s p, action.window machine s p = none) (hlive : ∀ s, action.tearsDown s = false)
    (h : Serviced away 1 machine after) :
    after.SettledBut away ∧ Moves action reply machine after := by
  obtain ⟨⟨writes, hlength, hadvance⟩, hsettled⟩ := h
  refine ⟨hsettled, .paged writes (Nat.le_trans hlength (by decide)) hwindow hlive ?_⟩
  rw [hstored]
  exact hadvance

/-- Pages that were registered got entries. -/
theorem moves_of_adds {s : SpaceId} {action : Action} {reply : Reply} {after : Machine}
    (hstored : action.stored machine = nothing) (hlive : ∀ s, action.tearsDown s = false)
    (hprivate : ∀ p segment, action.window machine s p = some segment →
      segment.writeBack = false ∧ segment.file < machine.files.size)
    (hsettled : machine.SettledBut away) (h : Adds s (action.window machine s) machine after ∧
      ∀ s', standing? after.spaces s' = standing? machine.spaces s') :
    after.SettledBut away ∧ Moves action reply machine after :=
  ⟨h.1.settled hsettled (h.1.live hsettled.live h.2), .registered s hstored hlive hprivate h.1 h.2⟩

/-- What it does to register pages, unless one of them is bare. -/
theorem ensures_registers {c : Call} (hc : c.Registers machine)
    (hbare : ∀ s p, (c.window machine s p).isSome = true → ¬ Bare machine.spaces s p) :
    Ensures (Kernel.perform c) machine fun _ after => ∃ s,
      (∀ p segment, c.window machine s p = some segment →
        segment.writeBack = false ∧ segment.file < machine.files.size) ∧
      Adds s (c.window machine s) machine after ∧
        ∀ s', standing? after.spaces s' = standing? machine.spaces s' := by
  cases c with
  | registerPage s f offset page readBytes zeroBytes writable =>
    simp only [Kernel.perform, holding_eq, lift_eq, ensures_bind, ensures_pure]
    have hwindow : (Call.registerPage s f offset page readBytes zeroBytes
        writable).window machine s = pageWindow page 1 (fun _ =>
          { file := f, offset, readBytes, zeroBytes, writable, writeBack := false }) := by
      funext p
      exact if_pos rfl
    have hpage : (Call.registerPage s f offset page readBytes zeroBytes
        writable).window machine s page = some
          { file := f, offset, readBytes, zeroBytes, writable, writeBack := false } := by
      rw [hwindow]
      exact pageWindow_eq_some.mpr ⟨0, Nat.zero_lt_one, by simp, rfl⟩
    have hfree := hbare s page (by rw [hpage, Option.isSome_some])
    refine (ensures_registerPage hfree hpage).mono fun outcome after hafter => ⟨s, ?_, hafter⟩
    intro p segment hp
    rw [hwindow] at hp
    obtain ⟨i, -, -, rfl⟩ := pageWindow_eq_some.mp hp
    exact ⟨rfl, hc⟩
  | registerSegment s f offset page readBytes zeroBytes writable =>
    simp only [Kernel.perform, holding_eq, lift_eq, ensures_bind, ensures_pure]
    have hwindow : (Call.registerSegment s f offset page readBytes zeroBytes
        writable).window machine s = pageWindow page ((readBytes + zeroBytes) / pageSize)
          (segmentPage f offset readBytes writable) := by
      funext p
      exact if_pos rfl
    have hfree : ∀ i, i < (readBytes + zeroBytes) / pageSize →
        ¬ Bare machine.spaces s (page + i * pageSize) := fun i hi =>
      hbare s _ (by rw [hwindow, pageWindow_page hi, Option.isSome_some])
    refine (ensures_registerSegment hfree).mono fun outcome after hafter =>
      ⟨s, ?_, hwindow ▸ hafter⟩
    intro p segment hp
    rw [hwindow] at hp
    obtain ⟨i, -, -, rfl⟩ := pageWindow_eq_some.mp hp
    exact ⟨rfl, hc⟩
  | mapFile | unmapFile | resolveFault | handleFault | growStack | copyFromUser | copyToUser
  | destroy | allocate | allocateFor | bind | unpin | free | freeOwnedBy => exact hc.elim

/-- To register pages stores nothing and tears nothing down. -/
theorem quiet_of_registers {c : Call} (hc : c.Registers machine) :
    c.stored machine = nothing ∧ ∀ s, c.tearsDown s = false := by
  cases c with
  | registerPage | registerSegment => exact ⟨rfl, fun _ => rfl⟩
  | mapFile | unmapFile | resolveFault | handleFault | growStack | copyFromUser | copyToUser
  | destroy | allocate | allocateFor | bind | unpin | free | freeOwnedBy => exact hc.elim

/-- Pages may be registered unless one of them is bare. -/
theorem ensures_register (h : machine.SettledBut away) {c : Call} (hc : c.Registers machine)
    (hbare : ∀ s p, (c.window machine s p).isSome = true → ¬ Bare machine.spaces s p) :
    Ensures (Kernel.perform c) machine fun reply after =>
      after.SettledBut away ∧ Moves (.call c) reply machine after := by
  obtain ⟨hstored, hlive⟩ := quiet_of_registers hc
  exact (ensures_registers hc hbare).mono fun reply after ⟨s, hprivate, hadds⟩ =>
    moves_of_adds hstored hlive hprivate h hadds

/-- What a permitted call does. -/
theorem ensures_perform (h : machine.OrderlyBut away) (c : Call)
    (hpermitted : c.Permitted machine) :
    Ensures (Kernel.perform c) machine fun reply after =>
      after.SettledBut (away.after (.call c)) ∧ Moves (.call c) reply machine after := by
  cases c with
  | registerPage | registerSegment =>
    exact ensures_register h.settled hpermitted.1 (Call.not_bare _ hpermitted.1 hpermitted)
  | mapFile s f page =>
    simp only [Kernel.perform, ensures_bind, ensures_pure]
    refine (ensures_mapFile s f page).mono fun outcome after hafter => ?_
    cases outcome with
    | ok id =>
      obtain ⟨file, hfile, hmaps⟩ := hafter
      exact ⟨hmaps.settled h.settled, .mapped s f page id file rfl rfl hfile hmaps⟩
    | error cause =>
      exact ⟨hafter ▸ h.settled, .refused rfl (fun _ => rfl) (by simp [Reply.ofNumber]) hafter⟩
  | unmapFile s id =>
    simp only [Kernel.perform, Kernel.unmapFile, holding_eq, ensures_bind, ensures_pure]
    refine (ensures_removeMapping h.settled h.mapped s id).mono ?_
    rintro outcome after ⟨hsettled, hafter⟩
    refine ⟨hsettled, ?_⟩
    cases hmapping : mapping? machine.spaces s id with
    | none =>
      rw [hmapping] at hafter
      obtain ⟨heq, hrefused⟩ := hafter
      cases outcome with
      | ok u => exact absurd rfl hrefused
      | error cause => exact .refused rfl (fun _ => rfl) (by simp [Reply.ofVm]) heq
    | some mapping =>
      rw [hmapping] at hafter
      refine .unmapped s id mapping rfl hafter.1 fun hdone => hafter.2 ?_
      cases outcome with
      | ok u => rfl
      | error cause => cases hdone
  | resolveFault s address stackPointer code =>
    simp only [Kernel.perform, ensures_bind, ensures_pure]
    exact (ensures_resolveFault h.settled s address stackPointer code).mono fun _ _ hafter =>
      moves_of_serviced rfl (fun _ _ => rfl) (fun _ => rfl) hafter.1
  | handleFault s address stackPointer code =>
    simp only [Kernel.perform, ensures_bind, ensures_pure]
    exact (ensures_handleFault h.settled s address stackPointer code).mono fun _ _ =>
      moves_of_serviced rfl (fun _ _ => rfl) fun _ => rfl
  | growStack s address =>
    simp only [Kernel.perform, ensures_bind, ensures_pure]
    exact (ensures_growStack h.settled hpermitted).mono fun _ _ =>
      moves_of_serviced rfl (fun _ _ => rfl) fun _ => rfl
  | copyFromUser s start length stackPointer =>
    simp only [Kernel.perform, ensures_bind, ensures_pure]
    refine (ensures_copyFromUser h.settled s start length stackPointer).mono ?_
    rintro _ after ⟨⟨writes, hlength, hadvance, -⟩, hsettled⟩
    exact ⟨hsettled, .paged writes hlength (fun _ _ => rfl) (fun _ => rfl) hadvance⟩
  | copyToUser s start data stackPointer =>
    simp only [Kernel.perform, ensures_bind, ensures_pure]
    refine (ensures_copyToUser h.settled s start data stackPointer).mono ?_
    rintro _ after ⟨⟨writes, hlength, hadvance⟩, hsettled, -⟩
    exact ⟨hsettled, .paged writes hlength (fun _ _ => rfl) (fun _ => rfl) hadvance⟩
  | destroy s =>
    simp only [Kernel.perform, ensures_bind, ensures_pure]
    refine (ensures_destroy h.settled h.mapped s).mono ?_
    rintro _ after ⟨hsettled, -, hdestroys⟩
    exact ⟨hsettled, .destroyed s rfl hdestroys⟩
  | allocate | allocateFor | bind | unpin | free | freeOwnedBy => exact hpermitted.elim

/-- A new space knows of no pages. -/
theorem outside_addSpace (pid : Nat) :
    Outside machine { machine with spaces := machine.spaces.push (.ofPid pid) } := by
  have hnone : machine.spaces[machine.spaces.size]? = none := Array.getElem?_size
  refine ⟨rfl, rfl, fun _ _ => rfl, fun s p => ?_, fun s p => ?_, fun s => ?_, Nat.le_refl _⟩
  · rw [mapped?, mapped?, Array.getElem?_push]
    split
    · subst s
      rw [hnone]
      exact Std.ExtTreeMap.getElem?_empty
    · rfl
  · rw [info?, info?, Array.getElem?_push]
    split
    · subst s
      rw [hnone]
      exact Std.ExtTreeMap.getElem?_empty
    · rfl
  · rw [standing?, standing?, Array.getElem?_push]
    split
    · subst s
      rw [hnone]
      exact .inr ⟨rfl, pid, rfl⟩
    · exact .inl rfl

/-- What is done from outside. -/
theorem ensures_outside {action : Action} (hcall : ∀ c, action ≠ .call c) :
    Ensures action.step machine fun _ after => Outside machine after := by
  cases action with
  | call c => exact absurd rfl (hcall c)
  | addSpace pid =>
    simp only [Action.step, addSpace, ensures_bind, ensures_modifyGet, ensures_pure]
    exact outside_addSpace pid
  | addFile file =>
    simp only [Action.step, addFile, ensures_bind, ensures_modifyGet, ensures_pure]
    refine ⟨rfl, rfl, fun _ _ => rfl, fun _ _ => rfl, fun _ _ => rfl, fun _ => .inl rfl, ?_⟩
    rw [Array.size_push]
    exact Nat.le_succ _
  | changeFile f file =>
    simp only [Action.step, setFile, ensures_bind, ensures_modify, ensures_pure]
    exact ⟨rfl, rfl, fun _ _ => rfl, fun _ _ => rfl, fun _ _ => rfl, fun _ => .inl rfl,
      Nat.le_of_eq Array.size_setIfInBounds.symm⟩
  | turnDisk failReads failWrites =>
    simp only [Action.step, modifyDisk, swap, setSwap, ensures_bind, ensures_get, ensures_modify,
      ensures_pure]
    exact ⟨rfl, rfl, fun _ _ => rfl, fun _ _ => rfl, fun _ _ => rfl, fun _ => .inl rfl, Nat.le_refl _⟩

/-- What a permitted action does. -/
theorem ensures_step (h : machine.OrderlyBut away) (action : Action)
    (hpermitted : action.Permitted machine) :
    Ensures action.step machine fun reply after =>
      after.OrderlyBut (away.after action) ∧ Moves action reply machine after := by
  suffices hsettled : Ensures action.step machine fun reply after =>
      after.SettledBut (away.after action) ∧ Moves action reply machine after by
    exact hsettled.mono fun reply after hafter => ⟨hafter.2.orderly h hafter.1, hafter.2⟩
  cases action with
  | call c => exact ensures_perform h c hpermitted
  | addSpace | addFile | changeFile | turnDisk =>
    refine (ensures_outside (by simp)).mono fun reply after houtside => ?_
    exact ⟨houtside.settled h.settled, .outside (by simp) houtside⟩

end Transition

end DemandPaging
