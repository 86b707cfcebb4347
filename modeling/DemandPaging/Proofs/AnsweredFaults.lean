import DemandPaging.Proofs.AnsweredEvictions

/-!
# Faults that are not resolved

A fault on a machine in order is answered (`answers_resolveFault`), unless a counter of transfers is
exhausted. If it is not resolved, there is a reason: what is fatal, the machine lacks (`Machine.Lacks`),
and what is not, is an access that is invalid as it stands (`Machine.Invalid`). The reason is found in
the machine as it was before the fault.

So a fault on a page that can be brought in (`Machine.Obtains`) is resolved on a machine that lacks
nothing.
-/

set_option autoImplicit false

namespace DemandPaging

open Spaces Machine

/-- The file does not give a whole window. -/
def MemoryFile.IsShort (file : MemoryFile) (segment : Segment) : Prop :=
  file.failing = true ∨ file.size < segment.offset + segment.readBytes

/-- Why an access that made a fault is invalid. -/
inductive Machine.Invalid (machine : Machine) (s : SpaceId) (address stackPointer : Nat)
    (code : FaultCode) : Prop where
  /-- It is not at a user address behind the first page. -/
  | outside (h : ¬ IsUser address ∨ address < pageSize)
  /-- The page is present, and the access is forbidden. -/
  | forbidden (h : code.present = true)
  /-- The space was torn down. -/
  | tornDown (standing : Standing) (hstanding : standing? machine.spaces s = some standing)
      (h : standing.destroyed = true)
  /-- The page has no entry and is no page of the stack. -/
  | unknown (hinfo : info? machine.spaces s (pageOf address) = none)
      (h : isStackAccess machine.stackLimit address stackPointer = false)
  /-- The page has no entry but is mapped. -/
  | mapped (hinfo : info? machine.spaces s (pageOf address) = none)
      (h : (mapped? machine.spaces s (pageOf address)).isSome = true)
  /-- The page is to be loaded from a file that does not give all of it. -/
  | short (segment : Segment) (file : MemoryFile)
      (hcopy : copy? machine.spaces s (pageOf address) = none)
      (hsegment : segment? machine.spaces s (pageOf address) = some segment)
      (hfile : machine.files[segment.file]? = some file) (h : file.IsShort segment)
  /-- The page has an entry, but no contents anywhere. -/
  | missing (info : PageInfo) (hinfo : info? machine.spaces s (pageOf address) = some info)
      (hcopy : info.copy? = none) (h : info.segment? = none)

/-- Why a fault is not resolved. -/
def Machine.Excuses (machine : Machine) (s : SpaceId) (address stackPointer : Nat) (code : FaultCode) :
    FaultError → Prop
  | .fatal cause => machine.Lacks cause
  | .unrecoverable a => a = address ∧ machine.Invalid s address stackPointer code

/-- What a machine lacks is fatal to a fault. -/
theorem Machine.Lacks.ofVm {machine : Machine} {cause : VmError} (h : machine.Lacks cause)
    (address : Nat) : FaultError.ofVm address cause = .fatal cause := if_pos h.isFatal

namespace Transition

variable {machine : Machine} {s : SpaceId} {p frame : Nat}

/-! ### Which address is to blame -/

/-- If the outcome blames an access, then the one at this address. -/
def Blames {α : Type} (address : Nat) (outcome : Except FaultError α) : Prop :=
  ∀ a, outcome = .error (.unrecoverable a) → a = address

/-- A fault that was resolved blames no access. -/
theorem blames_ok {α : Type} (address : Nat) (a : α) : Blames address (.ok a) := nofun

/-- A fatal cause blames no access. -/
theorem blames_fatal {α : Type} (address : Nat) (cause : VmError) :
    Blames address (.error (.fatal cause) : Except FaultError α) := nofun

/-- The access at the address itself may be blamed. -/
theorem blames_self {α : Type} (address : Nat) :
    Blames address (.error (.unrecoverable address) : Except FaultError α) := by
  rintro _ ⟨⟩
  rfl

/-- Whatever failed, the access at the address is blamed, or none is. -/
theorem blames_ofVm {α : Type} (address : Nat) (cause : VmError) :
    Blames address (.error (.ofVm address cause) : Except FaultError α) := by
  unfold FaultError.ofVm
  split
  · exact blames_fatal address cause
  · exact blames_self address

/-- To load a page from swap blames no other access than the one that it is loaded for. -/
theorem blames_loadFromSwap (copy : SwapCopy) (fileBacked : Bool) (address : Nat) :
    Yields (Kernel.loadFromSwap s p copy fileBacked address) machine fun outcome _ =>
      Blames address outcome := by
  refine yields_bind.mpr fun outcome _ _ => ?_
  cases outcome with
  | error cause => exact yields_pure.mpr (blames_ofVm address cause)
  | ok frame =>
    refine yields_bind.mpr fun outcome _ _ => ?_
    cases outcome with
    | error cause => exact yields_bind.mpr fun _ _ _ => yields_pure.mpr (blames_fatal address _)
    | ok u =>
      refine yields_bind.mpr fun done _ _ => yields_ite (fun _ => ?_) (fun _ => ?_)
      · refine yields_bind.mpr fun _ _ _ => yields_bind.mpr fun _ _ _ => ?_
        refine yields_bind.mpr fun _ _ _ => yields_bind.mpr fun _ _ _ => ?_
        exact yields_pure.mpr (blames_ok address ())
      · exact yields_bind.mpr fun _ _ _ => yields_pure.mpr (blames_self address)

/-- To load a page from its file blames no other access than the one that it is loaded for. -/
theorem blames_loadFromFile (segment : Segment) (address : Nat) :
    Yields (Kernel.loadFromFile s p segment address) machine fun outcome _ =>
      Blames address outcome := by
  refine yields_bind.mpr fun outcome _ _ => ?_
  cases outcome with
  | error cause => exact yields_pure.mpr (blames_ofVm address cause)
  | ok frame =>
    refine yields_bind.mpr fun outcome _ _ => yields_ite (fun _ => ?_) (fun _ => ?_)
    · refine yields_bind.mpr fun _ _ _ => yields_bind.mpr fun _ _ _ => ?_
      exact yields_bind.mpr fun _ _ _ => yields_pure.mpr (blames_self address)
    · refine yields_bind.mpr fun done _ _ => yields_ite (fun _ => ?_) (fun _ => ?_)
      · refine yields_bind.mpr fun _ _ _ => yields_bind.mpr fun _ _ _ => ?_
        refine yields_bind.mpr fun _ _ _ => yields_bind.mpr fun _ _ _ => ?_
        exact yields_pure.mpr (blames_ok address ())
      · exact yields_bind.mpr fun _ _ _ => yields_pure.mpr (blames_self address)

/-- A fault on a page without an entry blames no access but its own. -/
theorem blames_faultWithoutInfo (address stackPointer : Nat) :
    Yields (Kernel.faultWithoutInfo s address stackPointer) machine fun outcome _ =>
      Blames address outcome := by
  refine yields_bind.mpr fun _ _ _ => yields_ite (fun _ => ?_) (fun _ => ?_)
  · refine yields_bind.mpr fun outcome _ _ => ?_
    cases outcome with
    | error cause => exact yields_pure.mpr (blames_ofVm address cause)
    | ok u => exact yields_pure.mpr (blames_ok address ())
  · exact yields_pure.mpr (blames_self address)

/-- A fault on a page with an entry blames no access but its own. -/
theorem blames_faultWithInfo (info : PageInfo) (address : Nat) :
    Yields (Kernel.faultWithInfo s info address) machine fun outcome _ => Blames address outcome := by
  refine yields_ite (fun _ => ?_) (fun _ => ?_)
  · refine yields_bind.mpr fun _ _ _ => yields_ite (fun _ => ?_) (fun _ => ?_)
    · exact yields_pure.mpr (blames_ok address ())
    · exact yields_pure.mpr (blames_self address)
  · cases info.copy? with
    | some copy => exact blames_loadFromSwap copy _ address
    | none =>
      cases info.segment? with
      | some segment => exact blames_loadFromFile segment address
      | none => exact yields_pure.mpr (blames_self address)

/-- Whatever the state of the machine, only the access that made the fault is ever blamed for it. -/
theorem blames_resolveFault (address stackPointer : Nat) (code : FaultCode) :
    Yields (Kernel.resolveFault s address stackPointer code) machine fun outcome _ =>
      Blames address outcome := by
  refine yields_ite (fun _ => yields_pure.mpr (blames_self address)) (fun _ => ?_)
  rw [holding_eq]
  generalize faultRounds = rounds
  induction rounds generalizing machine with
  | zero => exact yields_throw.mpr trivial
  | succ rounds ih =>
    refine yields_bind.mpr fun table _ _ => yields_ite (fun _ => ?_) (fun _ => ?_)
    · exact yields_pure.mpr (blames_self address)
    · cases table.find? (pageOf address) with
      | none => exact blames_faultWithoutInfo address stackPointer
      | some info =>
        refine yields_ite (fun _ => ?_) (fun _ => blames_faultWithInfo info address)
        exact yields_bind.mpr fun _ _ _ => ih

/-! ### Small steps -/

/-- A frame that is out is open to evictions. -/
theorem finishes_unpin {out pinned : List Nat} (hpool : machine.frames.pool.Accounts out pinned)
    (hout : frame ∈ out) : Finishes (unpin frame) machine fun _ after =>
      ∃ frames, after = { machine with frames } := by
  obtain ⟨pool, hunpinned⟩ := hpool.exists_setPinned hout false
  simp only [unpin, finishes_bind, finishes_frames, finishes_ofExcept, finishes_setFrames,
    FrameTable.unpin]
  split
  · exact ⟨_, rfl, _, rfl⟩
  · simp only [hunpinned]
    exact ⟨_, rfl, _, rfl⟩

/-- A page that is in memory again gives its slot back. -/
theorem finishes_settleSwapIn {copy : SwapCopy} (fileBacked : Bool) (hs : s < machine.spaces.size)
    (hsound : machine.swap.slots.Sound) (hused : machine.swap.slots.isUsed copy.slot = true) :
    Finishes (settleSwapIn s p copy fileBacked) machine fun _ after => ∃ spaces swap,
      after = { machine with spaces, swap } ∧ s < spaces.size := by
  obtain ⟨slots, hfree, -⟩ := hsound.free hused
  obtain ⟨made, hmoved, hrun⟩ := exists_movedIn (p := p) hs copy fileBacked
  have hrelease : ∀ spaces, s < spaces.size → Finishes (releaseSlot copy.slot)
      { machine with spaces } fun _ after => ∃ spaces swap,
        after = { machine with spaces, swap } ∧ s < spaces.size := by
    intro spaces hsize
    simp only [releaseSlot, finishes_bind, finishes_swap, finishes_ofExcept, finishes_setSwap,
      SwapStore.release, hfree, Except.ok.injEq, exists_eq_left']
    exact ⟨_, _, rfl, hsize⟩
  rw [Finishes, hrun]
  refine hrelease _ ?_
  cases fileBacked <;> simpa [mark, hmoved.size_eq] using hs

/-- The frame of a page that was brought in is open to evictions, and something is said. -/
theorem answers_arrived {reserved : Machine} (h : Reserved {} s p frame reserved) {ε : Type}
    {notice : AddressSpace → Notice} {post : Except ε Unit → Machine → Prop}
    (hpool : machine.frames.pool = reserved.frames.pool) (hs : s < machine.spaces.size)
    (hpost : ∀ after, post (.ok ()) after) :
    Answers (do
      Kernel.unpin frame
      let space ← Transition.space s
      notify (notice space)
      pure (.ok ())) machine post := by
  obtain ⟨front, rear, -, hcoherent⟩ := h
  simp only [Kernel.unpin, holding_eq, lift_eq, answers_bind]
  refine (finishes_unpin (hpool ▸ hcoherent.pool)
    (List.mem_append_right _ List.mem_cons_self)).answers.mono ?_
  rintro _ _ ⟨frames, rfl⟩
  rw [@answers_space { machine with frames } s _ _ (Array.getElem?_eq_getElem hs)]
  simp only [answers_notify, answers_pure]
  exact hpost _

/-- A reserved frame goes back to the pool, and the fault is not resolved. -/
theorem answers_returned (h : Reserved {} s p frame machine) {ε : Type} {cause : ε}
    {post : Except ε Unit → Machine → Prop} (hpost : ∀ after, post (.error cause) after) :
    Answers (do
      Kernel.free frame
      pure (.error cause)) machine post := by
  simp only [Kernel.free, holding_eq, lift_eq, answers_bind]
  exact (finishes_free h).answers.mono fun _ after _ => hpost after

/-- A reserved frame is mapped at its page. -/
theorem finishes_install_reserved {writable : Bool} (h : Reserved {} s p frame machine)
    (hs : s < machine.spaces.size) (hp : IsAligned p) (hunmapped : mapped? machine.spaces s p = none)
    (hsmall : machine.frames.capacity ≤ maxFrame + 1) :
    Finishes (install s p frame writable) machine fun done after => done = true ∧
      ∃ spaces, after = { machine with spaces } ∧ s < spaces.size := by
  have hlt := h.lt_size
  have hframe : frame ≤ maxFrame := by
    have hcapacity : machine.frames.memory.size = machine.frames.capacity := rfl
    omega
  obtain ⟨front, rear, -, hcoherent⟩ := h
  refine (finishes_install hs hp (hcoherent.live.refusals s) hunmapped hframe).mono ?_
  rintro done _ ⟨rfl, rfl⟩
  refine ⟨rfl, _, rfl, ?_⟩
  rw [map, size_onDirectory]
  exact hs

/-! ### Pages are brought in -/

/-- A page in swap is brought back, or the machine lacks what is needed for that. -/
theorem answers_loadFromSwap (h : machine.Able) (hp : IsAligned p) {info : PageInfo} {copy : SwapCopy}
    (hinfo : info? machine.spaces s p = some info) (hcopy : info.copy? = some copy)
    (fileBacked : Bool) (address : Nat) :
    Answers (Kernel.loadFromSwap s p copy fileBacked address) machine fun outcome _ =>
      ∀ failure, outcome = .error failure → ∃ cause, failure = .fatal cause ∧ machine.Lacks cause := by
  have hfits := h.settled.fits hinfo
  have hunmapped := hfits.unmapped (hfits.resident_eq_false hcopy)
  have hs := lt_size_of_info? hinfo
  simp only [Kernel.loadFromSwap, holding_eq, lift_eq, answers_bind]
  refine ((answers_allocateFor h hs false).ensures (ensures_allocateFor h.settled s p false)).mono ?_
  rintro outcome reserved ⟨hanswer, hpaging, houtcome⟩
  cases outcome with
  | error cause =>
    rintro _ ⟨⟩
    exact ⟨cause, hanswer.ofVm address, hanswer⟩
  | ok frame =>
    obtain ⟨hreserved, -⟩ := houtcome
    obtain ⟨hunmapped', hinfo'⟩ := hpaging.absent s p hp hunmapped
    rw [hinfo] at hinfo'
    obtain ⟨front, rear, -, hcoherent⟩ := id hreserved
    have hcopy' : copy? reserved.spaces s p = some copy := by
      rw [copy?, hinfo', Option.bind_some, hcopy]
    have hused := hcoherent.accounted.isUsed hcopy'
    simp only [answers_bind]
    refine ((answers_readSlot hreserved.lt_size hused).ensures (ensures_readSlot copy.slot frame)).mono
      ?_
    rintro outcome _ ⟨hfails, device, memory, notices, rfl, -, hsize, -, -⟩
    have hread : Reserved {} s p frame { reserved with
        swap := { reserved.swap with device }, frames := { reserved.frames with memory }, notices } :=
      hreserved.congr rfl rfl hsize rfl rfl
    cases outcome with
    | error cause =>
      refine answers_returned hread fun _ => ?_
      rintro _ ⟨⟩
      exact ⟨_, rfl, (hfails cause rfl).congr hanswer.slotCount_eq hanswer.device⟩
    | ok u =>
      simp only [answers_bind]
      refine (finishes_install_reserved hread (lt_size_of_info? hinfo') hp hunmapped' ?_).answers.mono
        ?_
      · exact Nat.le_trans (Nat.le_of_eq (hsize.trans hanswer.capacity_eq)) h.small
      · rintro done _ ⟨rfl, spaces, rfl, hspaces⟩
        rw [if_pos rfl, answers_bind]
        refine (@finishes_settleSwapIn { reserved with
          swap := { reserved.swap with device }, frames := { reserved.frames with memory }, notices,
          spaces } s p copy fileBacked hspaces hcoherent.accounted.sound hused).answers.mono ?_
        rintro _ _ ⟨spaces, swap, rfl, hspaces⟩
        refine answers_arrived hreserved ?_ ?_ fun _ => ?_
        · rfl
        · exact hspaces
        · exact not_refused

/-- A page of a file is loaded, or the machine lacks what is needed for that, or the file is too short. -/
theorem answers_loadFromFile (h : machine.Able) (hp : IsAligned p) {info : PageInfo} {segment : Segment}
    (hinfo : info? machine.spaces s p = some info) (hresident : info.resident = false)
    (hsegment : info.segment? = some segment) (address : Nat) :
    Answers (Kernel.loadFromFile s p segment address) machine fun outcome _ =>
      ∀ failure, outcome = .error failure →
        (∃ cause, failure = .fatal cause ∧ machine.Lacks cause) ∨
        failure = .unrecoverable address ∧ ∃ file, machine.files[segment.file]? = some file ∧
          file.IsShort segment := by
  have hunmapped := (h.settled.fits hinfo).unmapped hresident
  have hs := lt_size_of_info? hinfo
  have hsegment' : segment? machine.spaces s p = some segment := by
    rw [segment?, hinfo, Option.bind_some, hsegment]
  have hfile := Array.getElem?_eq_getElem (h.backed s p segment hsegment')
  simp only [Kernel.loadFromFile, holding_eq, lift_eq, answers_bind]
  refine ((answers_allocateFor h hs false).ensures (ensures_allocateFor h.settled s p false)).mono ?_
  rintro outcome reserved ⟨hanswer, hpaging, houtcome⟩
  cases outcome with
  | error cause =>
    rintro _ ⟨⟩
    exact .inl ⟨cause, hanswer.ofVm address, hanswer⟩
  | ok frame =>
    obtain ⟨hreserved, -⟩ := houtcome
    obtain ⟨hunmapped', hinfo'⟩ := hpaging.absent s p hp hunmapped
    rw [hinfo] at hinfo'
    have hs' := lt_size_of_info? hinfo'
    obtain ⟨front, rear, -, hcoherent⟩ := id hreserved
    obtain ⟨file', hfile', hfailing, hlonger⟩ := hanswer.files _ _ hfile
    simp only [answers_bind]
    refine ((answers_readIn hreserved.lt_size (h.fits s p segment hsegment') hfile').ensures
      (ensures_readIn reserved.spaces frame segment)).mono ?_
    rintro outcome _ ⟨hread, files, memory, rfl, -, hsize, -, -⟩
    refine answers_ite (fun hshort => ?_) (fun _ => ?_)
    · rw [answers_bind, @answers_space { reserved with
        files, frames := { reserved.frames with memory } } s _ _ (Array.getElem?_eq_getElem hs'),
        answers_bind, answers_notify]
      refine answers_returned (s := s) (p := p) ?_ fun _ => ?_
      · exact hreserved.congr rfl rfl hsize rfl rfl
      rintro _ ⟨⟩
      refine .inr ⟨rfl, _, hfile, ?_⟩
      rcases hread with hall | hfails | hends
      · exact absurd hall hshort
      · exact .inl (hfailing ▸ hfails)
      · exact .inr (Nat.lt_of_le_of_lt hlonger hends)
    · rw [answers_bind]
      have hread : Reserved {} s p frame { reserved with
          files, frames := { reserved.frames with memory } } := hreserved.congr rfl rfl hsize rfl rfl
      refine (finishes_install_reserved hread hs' hp hunmapped' ?_).answers.mono ?_
      · exact Nat.le_trans (Nat.le_of_eq (hsize.trans hanswer.capacity_eq)) h.small
      · rintro done _ ⟨rfl, spaces, rfl, hspaces⟩
        rw [if_pos rfl, answers_bind]
        refine (finishes_modifyInfo.mpr ?_).answers
        refine answers_arrived hreserved ?_ ?_ fun _ => ?_
        · rfl
        · rw [amend, size_onSupplement]
          exact hspaces
        · exact not_refused

/-- A page is added to the stack, or the space was torn down, or the page is mapped already, or the
machine lacks what is needed. -/
theorem answers_addStackPage (h : machine.Able) (hp : IsAligned p) {space : AddressSpace}
    (hspace : machine.spaces[s]? = some space) :
    Answers (Kernel.addStackPage s p) machine fun outcome _ => ∀ cause, outcome = .error cause →
      cause = .destroyed ∧ space.supplement.destroyed = true ∨
      cause = .alreadyMapped ∧ (mapped? machine.spaces s p).isSome = true ∨ machine.Lacks cause := by
  have hs := (Array.getElem?_eq_some_iff.mp hspace).1
  simp only [Kernel.addStackPage, lift_eq, answers_bind]
  refine (answers_supplement hspace).mpr (answers_ite (fun hdestroyed => ?_) fun _ => ?_)
  · rintro _ ⟨⟩
    exact .inl ⟨rfl, hdestroyed⟩
  · rw [answers_bind, answers_iff (run_findEntry hspace p)]
    refine answers_ite (fun hmapped => ?_) (fun hnot => ?_)
    · rintro _ ⟨⟩
      exact .inr (.inl ⟨rfl, hmapped⟩)
    · have hunmapped := Option.not_isSome_iff_eq_none.mp hnot
      rw [answers_bind]
      refine ((answers_allocateFor h hs true).ensures (ensures_allocateFor h.settled s p true)).mono ?_
      rintro outcome reserved ⟨hanswer, hpaging, houtcome⟩
      cases outcome with
      | error cause =>
        rintro _ ⟨⟩
        exact .inr (.inr hanswer)
      | ok frame =>
        have hsmall := Nat.le_trans (Nat.le_of_eq hanswer.capacity_eq) h.small
        simp only [answers_bind]
        refine (finishes_install_reserved houtcome.1 (hpaging.lt_size hs) hp
          (hpaging.absent s p hp hunmapped).1 hsmall).answers.mono ?_
        rintro done _ ⟨rfl, spaces, rfl, hspaces⟩
        rw [if_pos rfl]
        refine answers_arrived houtcome.1 ?_ ?_ fun _ => ?_
        · rfl
        · exact hspaces
        · exact not_refused

/-! ### Faults -/

/-- A fault on a page without an entry is resolved, or there is a reason why not. -/
theorem answers_faultWithoutInfo (h : machine.Able) {space : AddressSpace} {address : Nat}
    (hspace : machine.spaces[s]? = some space) (hlive : space.supplement.destroyed = false)
    (hinfo : info? machine.spaces s (pageOf address) = none) (stackPointer : Nat) (code : FaultCode) :
    Answers (Kernel.faultWithoutInfo s address stackPointer) machine fun outcome _ =>
      ∀ failure, outcome = .error failure → machine.Excuses s address stackPointer code failure := by
  simp only [Kernel.faultWithoutInfo, lift_eq, answers_bind, answers_stackLimit]
  refine answers_ite (fun _ => ?_) (fun hnot => ?_)
  · rw [answers_bind]
    refine (answers_addStackPage h (isAligned_pageOf address) hspace).mono fun outcome after hcause => ?_
    cases outcome with
    | ok u => exact not_refused
    | error cause =>
      rintro _ ⟨⟩
      rcases hcause cause rfl with ⟨-, hdestroyed⟩ | ⟨rfl, hmapped⟩ | hlacks
      · rw [hlive] at hdestroyed
        cases hdestroyed
      · exact ⟨rfl, .mapped hinfo hmapped⟩
      · rw [hlacks.ofVm]
        exact hlacks
  · rintro _ ⟨⟩
    exact ⟨rfl, .unknown hinfo (Bool.eq_false_iff.mpr hnot)⟩

/-- A fault on a page with an entry is resolved, or there is a reason why not. -/
theorem answers_faultWithInfo (h : machine.Able) {info : PageInfo} {address : Nat}
    (hinfo : info? machine.spaces s (pageOf address) = some info) (stackPointer : Nat)
    (code : FaultCode) :
    Answers (Kernel.faultWithInfo s info address) machine fun outcome _ =>
      ∀ failure, outcome = .error failure → machine.Excuses s address stackPointer code failure := by
  have hp := isAligned_pageOf address
  have hfits := h.settled.fits hinfo
  have hspace := Array.getElem?_eq_getElem (lt_size_of_info? hinfo)
  simp only [Kernel.faultWithInfo]
  refine answers_ite (fun hresident => ?_) (fun hnot => ?_)
  · rw [answers_bind, answers_iff (run_findEntry hspace _)]
    have hframe := hfits.resident.symm.trans hresident
    rw [frame?, Option.isSome_map] at hframe
    rw [if_pos hframe]
    exact not_refused
  · have hresident : info.resident = false := Bool.eq_false_iff.mpr hnot
    cases hcopy : info.copy? with
    | some copy =>
      refine (answers_loadFromSwap h hp hinfo hcopy _ address).mono fun outcome _ hcause failure hf => ?_
      obtain ⟨cause, rfl, hlacks⟩ := hcause failure hf
      exact hlacks
    | none =>
      cases hsegment : info.segment? with
      | none =>
        rintro _ ⟨⟩
        exact ⟨rfl, .missing info hinfo hcopy hsegment⟩
      | some segment =>
        refine (answers_loadFromFile h hp hinfo hresident hsegment address).mono
          fun outcome _ hcause failure hf => ?_
        rcases hcause failure hf with ⟨cause, rfl, hlacks⟩ | ⟨rfl, file, hfile, hshort⟩
        · exact hlacks
        · refine ⟨rfl, .short segment file ?_ ?_ hfile hshort⟩
          · rw [copy?, hinfo, Option.bind_some, hcopy]
          · rw [segment?, hinfo, Option.bind_some, hsegment]

/-- A fault is resolved, and then its page is mapped; or there is a reason why it is not. -/
theorem answers_resolveFault (h : machine.Able) (hs : s < machine.spaces.size)
    (address stackPointer : Nat) (code : FaultCode) :
    Answers (Kernel.resolveFault s address stackPointer code) machine fun outcome after =>
      match outcome with
      | .ok () => (mapped? after.spaces s (pageOf address)).isSome = true
      | .error failure => machine.Excuses s address stackPointer code failure := by
  have hspace := Array.getElem?_eq_getElem hs
  have hexcuses : Answers (Kernel.resolveFault s address stackPointer code) machine fun outcome _ =>
      ∀ failure, outcome = .error failure → machine.Excuses s address stackPointer code failure := by
    rw [Kernel.resolveFault]
    refine answers_ite (fun hinvalid => ?_) (fun hvalid => ?_)
    · rintro _ ⟨⟩
      refine ⟨rfl, ?_⟩
      rcases hinvalid with hkernel | hfirst | hpresent
      · exact .outside (.inl hkernel)
      · exact .outside (.inr hfirst)
      · exact .forbidden hpresent
    · have hrounds : faultRounds = 0xffffffff + 1 := rfl
      rw [holding_eq, hrounds, Kernel.resolveIn, answers_bind]
      refine (answers_supplement hspace).mpr (answers_ite (fun hdestroyed => ?_) fun hlive => ?_)
      · rintro _ ⟨⟩
        exact ⟨rfl, .tornDown _ (standing?_eq hspace) hdestroyed⟩
      · rw [← info?_eq hspace]
        cases hinfo : info? machine.spaces s (pageOf address) with
        | none => exact answers_faultWithoutInfo h hspace (Bool.eq_false_iff.mpr hlive) hinfo _ code
        | some info =>
          have hevicting := (h.settled.fits hinfo).evicting
          simp only [hevicting, Bool.false_eq_true, if_false]
          exact answers_faultWithInfo h hinfo stackPointer code
  refine (hexcuses.ensures (ensures_resolveFault h.settled s address stackPointer code)).mono ?_
  rintro outcome after ⟨hcause, -, hmapped⟩
  cases outcome with
  | ok u => exact hmapped rfl
  | error failure => exact hcause failure rfl

end Transition

end DemandPaging
