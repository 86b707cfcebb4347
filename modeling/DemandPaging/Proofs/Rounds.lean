import DemandPaging.Proofs.CompleteTeardowns
import DemandPaging.Proofs.FramesInFlight
import DemandPaging.Proofs.WriteProtection

/-!
# Rounds

Three operations are loops that look again when other work got in their way: a fault whose page is being
evicted, an unmapping whose page is being evicted, and a copy whose page was taken away. Here each loop is
written as one round that is told what to do if another round is needed (`resolveRound`, `unmapRound`,
`reachRound`). A round is the `Last` one if it comes to the same whatever would be done in another.

When nothing comes in between, a fault and an unmapping need one round, and a copy needs two for each page:
a fault that was resolved leaves its page mapped, so the next access to it goes through or is forbidden, and
to forbid it ends the copy (`Run.rounds`).
-/

set_option autoImplicit false

namespace DemandPaging

open Spaces Machine

namespace Kernel

variable {m : Type → Type} [Kernel m] {α : Type}

/-! ### One round of each loop -/

/-- Look once what a fault needs. If its page is just being evicted, wait and do it `again`. -/
def resolveRound (s : SpaceId) (address stackPointer : Nat) (again : m (Except FaultError Unit)) :
    m (Except FaultError Unit) := do
  let table ← supplement s
  if table.destroyed then pure (.error (.unrecoverable address))
  else
    match table.find? (pageOf address) with
    | none => faultWithoutInfo s address stackPointer
    | some info =>
      if info.evicting then do
        await .eviction
        again
      else faultWithInfo s info address

/-- Try once to unmap a page. If an eviction got in the way, wait and do it `again`. -/
def unmapRound (s : SpaceId) (page : Nat) (again : m (Except VmError Unit)) :
    m (Except VmError Unit) := do
  match (← supplement s).find? page with
  | none => pure (.ok ())
  | some info =>
    if info.evicting then do
      await .eviction
      again
    else do
      let mapped ← findEntry s page
      let frame := if info.resident then mapped.map (·.frame.toNat) else none
      match frame with
      | none => do
        let _ ← holding (.supplement s) (Transition.forget s page info.copy?)
        pure (.ok ())
      | some frame =>
        if ← pinIfBacking frame s page then do
          let entry ← holding (.supplement s) (Transition.forget s page info.copy?)
          saveAndFree frame info entry
        else do
          await .eviction
          again

/-- Try once to reach a piece. After a fault that could be resolved, or if the page was taken away, do it
`again`. -/
def reachRound (resolve : FaultCode → m (Except FaultError Unit)) (s : SpaceId) (piece : Piece)
    (write : Bool) (act : Nat → Transition α) (again : m (Except FaultError α)) :
    m (Except FaultError α) := do
  let page := pageOf piece.address
  match ← translate s page write with
  | .error code =>
    match ← resolve code with
    | .error cause => pure (.error cause)
    | .ok () => again
  | .ok frame =>
    match ← withFrame s page frame act with
    | some a => pure (.ok a)
    | none => again

/-- The loop of a fault is a round, and then the loop with one round less. -/
theorem resolveIn_succ (s : SpaceId) (address stackPointer rounds : Nat) :
    (resolveIn s address stackPointer (rounds + 1) : m _) =
      resolveRound s address stackPointer (resolveIn s address stackPointer rounds) := rfl

/-- The loop of an unmapping is a round, and then the loop with one round less. -/
theorem unmapPageIn_succ (s : SpaceId) (page rounds : Nat) :
    (unmapPageIn s page (rounds + 1) : m _) = unmapRound s page (unmapPageIn s page rounds) := rfl

/-- The loop of a copy is a round, and then the loop with one round less. -/
theorem reachIn_succ (s : SpaceId) (piece : Piece) (stackPointer : Nat) (write : Bool)
    (act : Nat → Transition α) (rounds : Nat) :
    (reachIn s piece stackPointer write act (rounds + 1) : m _) =
      reachRound (resolveFault s piece.address stackPointer) s piece write act
        (reachIn s piece stackPointer write act rounds) := rfl

/-! ### Calls with other loops in them -/

/-- Resolve a fault by `loop`, if the access is not refused at once. -/
def resolveFaultBy (loop : m (Except FaultError Unit)) (s : SpaceId) (address : Nat)
    (code : FaultCode) : m (Except FaultError Unit) :=
  if ¬ IsUser address ∨ address < pageSize ∨ code.present then
    pure (.error (.unrecoverable address))
  else holding (.faults s) loop

/-- A fault is resolved by its own loop. -/
theorem resolveFault_eq (s : SpaceId) (address stackPointer : Nat) (code : FaultCode) :
    (resolveFault s address stackPointer code : m _) =
      resolveFaultBy (resolveIn s address stackPointer faultRounds) s address code := rfl

/-- Reach a piece in two rounds, with one round for each fault. More rounds would be `again`, or `later` for
a fault. -/
def reachTwice (s : SpaceId) (stackPointer : Nat) (write : Bool) (later : m (Except FaultError Unit))
    (again : m (Except FaultError α)) (piece : Piece) (act : Nat → Transition α) :
    m (Except FaultError α) :=
  let resolve := resolveFaultBy (resolveRound s piece.address stackPointer later) s piece.address
  reachRound resolve s piece write act (reachRound resolve s piece write act again)

/-- Remove a mapping, with `unmap` for each of its pages. -/
def removeMappingBy (unmap : Nat → m (Except VmError Unit)) (s : SpaceId) (id : Nat) :
    m (Except VmError Unit) := do
  match ← holding (.supplement s) (Transition.takeMapping s id) with
  | none => pure (.error .invalidMapping)
  | some mapping => do
    let outcome ← throughFailures unmap (pageRange mapping.page mapping.pages)
    Transition.notify (.unmapped (← Transition.space s).pid id)
    pure outcome

/-- A mapping is removed with the loop of an unmapping for each page. -/
theorem removeMapping_eq (s : SpaceId) (id : Nat) :
    (removeMapping s id : m _) = removeMappingBy (unmapPage s) s id := rfl

/-- A file is unmapped with the loop of an unmapping for each page, while no fault is resolved. -/
theorem unmapFile_eq (s : SpaceId) (id : Nat) :
    (unmapFile s id : m _) = holding (.faults s) (removeMappingBy (unmapPage s) s id) := rfl

/-- Remove some mappings, with `unmap` for each page, and complain about those that could not be saved. -/
def removeMappingsBy (unmap : Nat → m (Except VmError Unit)) (s : SpaceId) : List Nat → m Unit
  | [] => pure ()
  | id :: rest => do
    match ← removeMappingBy unmap s id with
    | .ok () => pure ()
    | .error cause =>
      Transition.notify (.writeBackFailed (← Transition.space s).pid id cause)
    removeMappingsBy unmap s rest

/-- Mappings are removed with the loop of an unmapping for each page. -/
theorem removeMappings_eq (s : SpaceId) (ids : List Nat) :
    (removeMappings s ids : m _) = removeMappingsBy (unmapPage s) s ids := by
  induction ids with
  | nil => rfl
  | cons id rest ih =>
    rw [removeMappings, removeMappingsBy, ih]
    rfl

/-- Tear an address space down, with `unmap` for each page of a mapping. -/
def destroyBy (unmap : Nat → m (Except VmError Unit)) (s : SpaceId) : m Unit :=
  holding (.faults s) do
    let table ← supplement s
    if table.destroyed then pure ()
    else do
      removeMappingsBy unmap s table.mappingIds
      holding (.supplement s) (Transition.dropEntries s)
      dropFrames s

/-- A space is torn down with the loop of an unmapping for each page of its mappings. -/
theorem destroy_eq (s : SpaceId) : (destroy s : m _) = destroyBy (unmapPage s) s := by
  simp only [destroy, destroyBy, removeMappings_eq]

/-- Reach a piece of a range that begins at `start` by `loop`, if it lies in user memory at all. -/
def reachBy (loop : m (Except FaultError α)) (start : Nat) (piece : Piece) : m (Except FaultError α) :=
  if wordLimit ≤ piece.address then pure (.error (.unrecoverable start))
  else if ¬ IsUser piece.address then pure (.error (.unrecoverable piece.address))
  else loop

/-- Store `data` in user memory at `start`, with `loop` for each piece and for what is done with its
frame. -/
def copyToUserBy (loop : Piece → (Nat → Transition Unit) → m (Except FaultError Unit)) (start : Nat)
    (data : Bytes) : m (Except FaultError Unit) :=
  upToFailure (fun piece =>
    reachBy (loop piece fun frame =>
      Transition.writeFrame frame (pageOffset piece.address) (data.window piece.done piece.size))
      start piece) (Piece.all start data.size)

/-- A copy to user memory reaches each piece by its own loop. -/
theorem copyToUser_eq (s : SpaceId) (start : Nat) (data : Bytes) (stackPointer : Nat) :
    (copyToUser s start data stackPointer : m _) =
      copyToUserBy (fun piece act => reachIn s piece stackPointer true act copyRounds) start data := rfl

/-- Read the remaining pieces of a range, after `data`, with `loop` for each piece and for what is done
with its frame. -/
def copyPiecesBy (loop : Piece → (Nat → Transition Bytes) → m (Except FaultError Bytes)) (start : Nat) :
    List Piece → Bytes → m (Bytes × Except FaultError Unit)
  | [], data => pure (data, .ok ())
  | piece :: rest, data => do
    let outcome ← reachBy (loop piece fun frame =>
      Transition.readFrame frame (pageOffset piece.address) piece.size) start piece
    match outcome with
    | .error cause => pure (data, .error cause)
    | .ok bytes => copyPiecesBy loop start rest (data ++ bytes)

/-- Read `length` bytes of user memory at `start`, with `loop` for each piece. -/
def copyFromUserBy (loop : Piece → (Nat → Transition Bytes) → m (Except FaultError Bytes))
    (start length : Nat) : m (Bytes × Except FaultError Unit) :=
  copyPiecesBy loop start (Piece.all start length) #[]

/-- The rest of a copy from user memory reaches each piece by its own loop. -/
theorem copyPieces_eq (s : SpaceId) (start stackPointer : Nat) (pieces : List Piece) (data : Bytes) :
    (copyPieces s start stackPointer pieces data : m _) =
      copyPiecesBy (fun piece act => reachIn s piece stackPointer false act copyRounds) start pieces
        data := by
  induction pieces generalizing data with
  | nil => rfl
  | cons piece rest ih =>
    simp only [copyPieces, copyPiecesBy, ih]
    rfl

/-- A copy from user memory reaches each piece by its own loop. -/
theorem copyFromUser_eq (s : SpaceId) (start length stackPointer : Nat) :
    (copyFromUser s start length stackPointer : m _) =
      copyFromUserBy (fun piece act => reachIn s piece stackPointer false act copyRounds) start
        length := copyPieces_eq _ _ _ _ _

end Kernel

namespace Transition

variable {α β ε : Type} {machine : Machine} {s : SpaceId}

/-! ### Operations that come to the same -/

/-- Two operations come to the same if their first parts do, and what follows does on what these leave. -/
theorem bind_congr {step step' : Transition β} {next next' : β → Transition α}
    {post : β → Machine → Prop} (hstep : step machine = step' machine) (h : Yields step machine post)
    (hnext : ∀ b after, post b after → next b after = next' b after) :
    (step >>= next) machine = (step' >>= next') machine := by
  cases hrun : step machine with
  | ok b after =>
    rw [run_bind hrun, run_bind (hstep.symm.trans hrun)]
    exact hnext b after (h b after hrun)
  | error halt after => rw [run_bind_error hrun, run_bind_error (hstep.symm.trans hrun)]

section

variable (inv : Machine → Prop) {step step' : β → Transition (Except ε Unit)}

/-- Two lists of steps that end at the first failure come to the same if each step does on every machine that
they may get to. -/
theorem upToFailure_congr (hstep : ∀ b before, inv before → step b before = step' b before)
    (hinv : ∀ b before, inv before → Yields (step b) before fun _ => inv) (todo : List β)
    (h : inv machine) : Kernel.upToFailure step todo machine = Kernel.upToFailure step' todo machine := by
  induction todo generalizing machine with
  | nil => rfl
  | cons b rest ih =>
    rw [Kernel.upToFailure, Kernel.upToFailure]
    refine bind_congr (hstep b machine h) (hinv b machine h) fun outcome after hafter => ?_
    cases outcome with
    | error cause => rfl
    | ok u => exact ih hafter

/-- Two lists of steps that are gone through to the end come to the same if each step does on every machine
that they may get to. -/
theorem throughFailures_congr (hstep : ∀ b before, inv before → step b before = step' b before)
    (hinv : ∀ b before, inv before → Yields (step b) before fun _ => inv) (todo : List β)
    (h : inv machine) :
    Kernel.throughFailures step todo machine = Kernel.throughFailures step' todo machine := by
  induction todo generalizing machine with
  | nil => rfl
  | cons b rest ih =>
    rw [Kernel.throughFailures, Kernel.throughFailures]
    refine bind_congr (hstep b machine h) (hinv b machine h) fun outcome after hafter => ?_
    simp only [Bind.bind, EStateM.bind, ih hafter]

/-- What every step keeps, all of them keep. -/
theorem yields_throughFailures (hinv : ∀ b before, inv before → Yields (step b) before fun _ => inv)
    (todo : List β) (h : inv machine) :
    Yields (Kernel.throughFailures step todo) machine fun _ => inv :=
  Outcomes.alone.toRules.throughFailures (fun _ => inv) (fun _ b _ before _ => hinv b before) h

end

/-! ### The last round -/

/-- The round comes to the same whatever would be done in another one, so it is the last. -/
def Last (round : Transition α → Transition α) (machine : Machine) : Prop :=
  ∀ again again', round again machine = round again' machine

/-- A fault needs one round: no page is being evicted. -/
theorem last_resolveRound (h : machine.Settled) (s : SpaceId) (address stackPointer : Nat) :
    Last (Kernel.resolveRound s address stackPointer) machine := by
  intro again again'
  have hlook : Yields (Kernel.supplement s) machine fun table after => machine = after ∧
      ∀ info, table.find? (pageOf address) = some info → info.evicting = false := by
    apply Ensures.yields
    rw [ensures_kernelSupplement]
    intro space hspace
    refine ⟨rfl, fun info hinfo => ?_⟩
    rw [← info?_eq hspace] at hinfo
    exact (h.fits hinfo).evicting
  rw [Kernel.resolveRound, Kernel.resolveRound]
  refine bind_congr rfl hlook ?_
  rintro table _ ⟨rfl, hidle⟩
  split
  · rfl
  · cases hinfo : table.find? (pageOf address) with
    | none => rfl
    | some info => simp only [hidle info hinfo, Bool.false_eq_true, if_false]

/-- An unmapping needs one round: no page is being evicted, and its frame backs every mapped page. -/
theorem last_unmapRound (h : machine.Settled) (s : SpaceId) (p : Nat) :
    Last (Kernel.unmapRound s p) machine := by
  intro again again'
  have hlook : Yields (Kernel.supplement s) machine fun table after => machine = after ∧
      table.find? p = info? machine.spaces s p := by
    apply Ensures.yields
    rw [ensures_kernelSupplement]
    intro space hspace
    exact ⟨rfl, (info?_eq hspace).symm⟩
  rw [Kernel.unmapRound, Kernel.unmapRound]
  refine bind_congr rfl hlook ?_
  rintro table _ ⟨rfl, hfind⟩
  rw [hfind]
  cases hinfo : info? machine.spaces s p with
  | none => rfl
  | some info =>
    have hfits := h.fits hinfo
    simp only [hfits.evicting, Bool.false_eq_true, if_false]
    have hentry : Yields (Kernel.findEntry s p) machine fun entry after => machine = after ∧
        entry = mapped? machine.spaces s p := by
      rw [yields_findEntry]
      exact fun _ _ => ⟨rfl, rfl⟩
    refine bind_congr rfl hentry ?_
    rintro _ _ ⟨rfl, rfl⟩
    cases hframe : (if info.resident then (mapped? machine.spaces s p).map (·.frame.toNat) else none) with
    | none => rfl
    | some frame =>
      have hframe' : frame? machine.spaces s p = some frame := by
        split at hframe
        · exact hframe
        · cases hframe
      refine bind_congr rfl (ensures_pinIfBacking h hfits.aligned hframe').yields ?_
      rintro _ after ⟨rfl, -⟩
      rfl

/-- To resolve a fault takes one round of its loop. -/
theorem run_resolveFault_once (h : machine.Settled) (s : SpaceId) (address stackPointer : Nat)
    (code : FaultCode) (again : Transition (Except FaultError Unit)) :
    (Kernel.resolveFault s address stackPointer code : Transition _) machine =
      Kernel.resolveFaultBy (Kernel.resolveRound s address stackPointer again) s address code machine := by
  have hrounds : faultRounds = 0xffffffff + 1 := rfl
  rw [Kernel.resolveFault_eq, Kernel.resolveFaultBy, Kernel.resolveFaultBy, hrounds,
    Kernel.resolveIn_succ]
  split
  · rfl
  · exact last_resolveRound h s address stackPointer _ _

/-- To unmap a page takes one round. -/
theorem run_unmapPage_once (h : machine.Settled) (s : SpaceId) (p : Nat)
    (again : Transition (Except VmError Unit)) :
    (Kernel.unmapPage s p : Transition _) machine = Kernel.unmapRound s p again machine := by
  have hrounds : unmapRounds = 0xffffffff + 1 := rfl
  rw [Kernel.unmapPage, hrounds, Kernel.unmapPageIn_succ]
  exact last_unmapRound h s p _ _

/-- An access to a mapped page finds its frame, or it is forbidden. -/
theorem yields_translate_mapped {p : Nat} {entry : PageTableEntry}
    (hentry : mapped? machine.spaces s p = some entry) (write : Bool) :
    Yields (Kernel.translate s p write) machine fun outcome after =>
      match outcome with
      | .error code => machine = after ∧ code.present = true
      | .ok frame => frame? after.spaces s p = some frame := by
  apply Ensures.yields
  rw [ensures_translate]
  intro _ _
  rw [hentry]
  simp only
  split
  · exact ⟨trivial, rfl⟩
  · simp [frame?, mapped?_mark, hentry, PageTableEntry.touch]

/-- A forbidden access is an invalid one. -/
theorem run_resolveFault_present {code : FaultCode} (hpresent : code.present = true)
    (address stackPointer : Nat) :
    (Kernel.resolveFault s address stackPointer code : Transition _) machine =
      .ok (.error (.unrecoverable address)) machine := by
  rw [Kernel.resolveFault, if_pos (.inr (.inr hpresent))]
  rfl

/-- After a fault was resolved, the next access to its page finds its frame, or it is forbidden and not to be
resolved. -/
theorem run_translate_mapped {address : Nat} {entry : PageTableEntry}
    (hentry : mapped? machine.spaces s (pageOf address) = some entry) (write : Bool) :
    (∃ next, (Kernel.translate s (pageOf address) write : Transition _) machine =
      .ok (.ok entry.frame.toNat) next) ∨
    ∃ code, (Kernel.translate s (pageOf address) write : Transition _) machine = .ok (.error code) machine ∧
      code.present = true ∧ ∀ stackPointer,
        (Kernel.resolveFault s address stackPointer code : Transition _) machine =
          .ok (.error (.unrecoverable address)) machine := by
  by_cases hforbidden : (write && !entry.writable) = true
  · right
    refine ⟨.protection write, ?_, rfl, fun stackPointer => run_resolveFault_present rfl _ _⟩
    refine run_translate (lt_size_of_mapped? hentry) (ensures_translate.mpr fun _ _ => ?_)
    simp only [hentry, hforbidden, if_true, and_self]
  · left
    have hrun : Ensures (Kernel.translate s (pageOf address) write) machine fun outcome after =>
        outcome = .ok entry.frame.toNat ∧
          after = { machine with spaces := mark machine.spaces s (pageOf address) (·.touch write) } := by
      rw [ensures_translate]
      intro _ _
      simp only [hentry, hforbidden, Bool.false_eq_true, if_false, and_self]
    exact ⟨_, run_translate (lt_size_of_mapped? hentry) hrun⟩

section

variable {piece : Piece} {resolve : FaultCode → Transition (Except FaultError Unit)}

/-- A piece of a mapped page needs one round: it is reached, or to reach it is forbidden. -/
theorem reachRound_of_mapped {entry : PageTableEntry}
    (hentry : mapped? machine.spaces s (pageOf piece.address) = some entry) {stackPointer : Nat}
    (hresolve : ∀ code, (Kernel.resolveFault s piece.address stackPointer code : Transition _) machine =
      resolve code machine)
    (write : Bool) (act : Nat → Transition α) (again again' : Transition (Except FaultError α)) :
    Kernel.reachRound (Kernel.resolveFault s piece.address stackPointer) s piece write act again machine =
      Kernel.reachRound resolve s piece write act again' machine := by
  rw [Kernel.reachRound, Kernel.reachRound]
  refine bind_congr rfl (yields_translate_mapped hentry write) fun outcome after hafter => ?_
  cases outcome with
  | error code =>
    obtain ⟨rfl, hpresent⟩ := hafter
    have hrefused : Yields (Kernel.resolveFault s piece.address stackPointer code) machine
        fun outcome _ => outcome = .error (.unrecoverable piece.address) :=
      (yields_iff (run_resolveFault_present hpresent piece.address stackPointer)).mpr rfl
    refine bind_congr (hresolve code) hrefused ?_
    rintro _ _ rfl
    rfl
  | ok frame =>
    have hany : Yields (act frame) after fun _ _ => True := fun _ _ _ => trivial
    refine bind_congr rfl (yields_withFrame hafter hany) ?_
    rintro _ _ ⟨a, rfl, -⟩
    rfl

/-- Any piece needs two rounds: a fault that was resolved leaves the page mapped. -/
theorem run_reachIn_twice (h : machine.Settled) (s : SpaceId) (piece : Piece) (stackPointer : Nat)
    (write : Bool) (act : Nat → Transition α) (later : Transition (Except FaultError Unit))
    (again : Transition (Except FaultError α)) :
    (Kernel.reachIn s piece stackPointer write act copyRounds : Transition _) machine =
      Kernel.reachTwice s stackPointer write later again piece act machine := by
  have hrounds : copyRounds = 0xfffffffe + 1 + 1 := rfl
  have honce : ∀ before : Machine, before.Settled → ∀ code,
      (Kernel.resolveFault s piece.address stackPointer code : Transition _) before =
        Kernel.resolveFaultBy (Kernel.resolveRound s piece.address stackPointer later) s piece.address
          code before :=
    fun before hbefore code => run_resolveFault_once hbefore s piece.address stackPointer code later
  rw [hrounds, Kernel.reachIn_succ, Kernel.reachIn_succ, Kernel.reachTwice]
  cases hentry : mapped? machine.spaces s (pageOf piece.address) with
  | some entry => exact reachRound_of_mapped hentry (honce machine h) write act _ _
  | none =>
    have htranslate : Yields (Kernel.translate s (pageOf piece.address) write) machine
        fun outcome after => machine = after ∧ outcome = .error (.notPresent write) := by
      apply Ensures.yields
      rw [ensures_translate]
      intro _ _
      rw [hentry]
      exact ⟨rfl, rfl⟩
    rw [Kernel.reachRound]
    refine bind_congr rfl htranslate ?_
    rintro _ _ ⟨rfl, rfl⟩
    refine bind_congr (honce machine h _)
      (ensures_resolveFault h s piece.address stackPointer _).yields ?_
    rintro outcome after ⟨hserviced, hmapped⟩
    cases outcome with
    | error cause => rfl
    | ok u =>
      obtain ⟨entry, hentry'⟩ := Option.isSome_iff_exists.mp (hmapped rfl)
      exact reachRound_of_mapped hentry' (honce after hserviced.settled) write act _ _

end

/-! ### What the parts of a call leave -/

/-- Between two pages that are unmapped, the machine is settled. -/
theorem settled_saveAndFree {p frame : Nat} (h : Reserved {} s p frame machine) (info : PageInfo)
    (entry : Option PageTableEntry) :
    Yields (Kernel.saveAndFree frame info entry) machine fun _ after => after.Settled := by
  have hfree : ∀ files, ∀ saved : Except FileError Unit,
      Yields (Kernel.free frame >>= fun _ => pure (saved.mapError VmError.file))
        { machine with files } fun _ after => after.Settled := by
    intro files saved
    have hreserved : Reserved {} s p frame { machine with files } := h.congr rfl rfl rfl rfl rfl
    simp only [Kernel.free, holding_eq, lift_eq, yields_bind, yields_pure]
    exact ((ensures_free hreserved).mono fun _ _ hafter => hafter.2).yields
  cases hinfo : info.segment? with
  | none =>
    simp only [Kernel.saveAndFree, hinfo, pure_bind]
    exact hfree machine.files _
  | some segment =>
    cases entry with
    | none =>
      simp only [Kernel.saveAndFree, hinfo, pure_bind]
      exact hfree machine.files _
    | some entry =>
      rw [saveAndFree_eq hinfo, yields_bind]
      refine yields_ite (fun _ => ?_) (fun _ => yields_pure.mpr (hfree machine.files _))
      refine (yields_writeBack segment).mono ?_
      rintro saved _ ⟨_, -, rfl⟩
      exact hfree _ saved

/-- To unmap a page leaves the machine settled. -/
theorem settled_unmapPage (h : machine.Settled) (s : SpaceId) (p : Nat) :
    Yields (Kernel.unmapPage s p) machine fun _ after => after.Settled := by
  have hrounds : unmapRounds = 0xffffffff + 1 := rfl
  rw [Kernel.unmapPage, hrounds, Kernel.unmapPageIn]
  simp only [Kernel.supplement, holding_eq, lift_eq, yields_bind, yields_supplement]
  intro space hspace
  rw [← info?_eq hspace]
  cases hinfo : info? machine.spaces s p with
  | none => exact yields_pure.mpr h
  | some info =>
    have hfits := h.fits hinfo
    have hcopy : copy? machine.spaces s p = info.copy? := by rw [copy?, hinfo, Option.bind_some]
    simp only [hfits.evicting, Bool.false_eq_true, if_false, yields_bind, yields_findEntry]
    intro _ _
    cases hentry : mapped? machine.spaces s p with
    | none =>
      have hframe : (if info.resident then (none : Option PageTableEntry).map (·.frame.toNat)
          else none) = none := by split <;> rfl
      rw [hframe, yields_bind]
      refine (ensures_forget h.accounted hcopy hfits.aligned).yields.mono ?_
      rintro _ _ ⟨-, slots, rfl, haccounted⟩
      exact yields_pure.mpr
        (h.forgotten hfits.aligned (by simp) hentry (h.live.isLive_of_info? hinfo) haccounted)
    | some entry =>
      have hframe : frame? machine.spaces s p = some entry.frame.toNat := by
        rw [frame?, hentry, Option.map_some]
      have hresident : info.resident = true := by rw [hfits.resident, hframe, Option.isSome_some]
      simp only [hresident, if_true, Option.map_some, yields_bind]
      refine (ensures_pinIfBacking h hfits.aligned hframe).yields.mono ?_
      rintro _ _ ⟨rfl, pool, rfl, hpinned⟩
      simp only [if_true, yields_bind]
      refine (ensures_forget hpinned.accounted hcopy hfits.aligned).yields.mono ?_
      rintro last _ ⟨-, slots, rfl, haccounted⟩
      exact settled_saveAndFree (Coherent.forgotten
        (m := { machine with frames := { machine.frames with pool } }) hpinned hfits.aligned hframe
        haccounted) info last

/-- What is done with a frame leaves the machine settled, and so does to reach the piece. -/
theorem settled_reach {act : Nat → Transition α} (hact : ∀ frame before, before.Settled →
      Ensures (act frame) before fun _ after => after.Settled) (h : machine.Settled) (start : Nat)
    (piece : Piece) (stackPointer : Nat) (write : Bool) :
    Yields (Kernel.reach s start piece stackPointer write act) machine fun _ after => after.Settled := by
  have hreach := @ensures_reach machine {} s α h start piece stackPointer write act
    (fun _ after => after.Settled)
    fun before entry _ hserviced _ _ => hact entry.frame.toNat before hserviced.settled
  refine hreach.yields.mono fun outcome after hafter => ?_
  cases outcome with
  | error cause => exact hafter.settled
  | ok a => exact hafter

/-- A piece is reached in two rounds, if it lies in user memory at all. -/
theorem run_reach_twice (h : machine.Settled) (s : SpaceId) (start : Nat) (piece : Piece)
    (stackPointer : Nat) (write : Bool) (act : Nat → Transition α)
    (later : Transition (Except FaultError Unit)) (again : Transition (Except FaultError α)) :
    (Kernel.reach s start piece stackPointer write act : Transition _) machine =
      Kernel.reachBy (Kernel.reachTwice s stackPointer write later again piece act) start piece
        machine := by
  rw [Kernel.reach, Kernel.reachBy]
  split
  · rfl
  · split
    · rfl
    · exact run_reachIn_twice h s piece stackPointer write act later again

/-! ### Whole calls -/

/-- A copy to user memory takes two rounds for each piece. -/
theorem run_copyToUser_twice (h : machine.Settled) (s : SpaceId) (start : Nat) (data : Bytes)
    (stackPointer : Nat) (later : Transition (Except FaultError Unit))
    (again : Transition (Except FaultError Unit)) :
    (Kernel.copyToUser s start data stackPointer : Transition _) machine =
      Kernel.copyToUserBy (Kernel.reachTwice s stackPointer true later again) start data machine := by
  refine upToFailure_congr Machine.Settled (fun piece before hbefore => ?_)
    (fun piece before hbefore => ?_) _ h
  · exact run_reach_twice hbefore s start piece stackPointer true _ later again
  · refine settled_reach (fun frame m hm => ?_) hbefore start piece stackPointer true
    rw [ensures_writeFrame]
    intro content _ _
    exact Coherent.congr hm rfl FrameMemory.size_setPage rfl rfl

/-- A copy from user memory takes two rounds for each piece. -/
theorem run_copyFromUser_twice (h : machine.Settled) (s : SpaceId) (start length stackPointer : Nat)
    (later : Transition (Except FaultError Unit)) (again : Transition (Except FaultError Bytes)) :
    (Kernel.copyFromUser s start length stackPointer : Transition _) machine =
      Kernel.copyFromUserBy (Kernel.reachTwice s stackPointer false later again) start length machine := by
  rw [Kernel.copyFromUser, Kernel.copyFromUserBy]
  generalize Piece.all start length = pieces
  generalize (#[] : Bytes) = data
  induction pieces generalizing data machine with
  | nil => rfl
  | cons piece rest ih =>
    rw [Kernel.copyPieces, Kernel.copyPiecesBy]
    refine bind_congr (run_reach_twice h s start piece stackPointer false _ later again)
      (settled_reach (fun frame m hm => ?_) h start piece stackPointer false) fun outcome after hafter => ?_
    · rw [ensures_readFrame]
      exact fun _ _ _ => hm
    · cases outcome with
      | error cause => rfl
      | ok bytes => exact ih hafter _

section

variable (again : Nat → Transition (Except VmError Unit))

/-- One round for each page is enough to remove a mapping, and the machine is settled afterwards. -/
theorem run_removeMapping_once (h : machine.Settled) (s : SpaceId) (id : Nat) :
    (Kernel.removeMapping s id : Transition _) machine =
        Kernel.removeMappingBy (fun p => Kernel.unmapRound s p (again p)) s id machine ∧
      Yields (Kernel.removeMapping s id) machine fun _ after => after.Settled := by
  have htake : Yields (takeMapping s id) machine fun _ after => after.Settled := by
    refine ensures_takeMapping.yields.mono ?_
    rintro taken after ⟨rfl, hnone, hsome⟩
    cases hmapping : mapping? machine.spaces s id with
    | none => exact hnone hmapping ▸ h
    | some mapping =>
      rw [hsome (by rw [hmapping]; rfl)]
      exact settled_unlisted h hmapping
  constructor
  · rw [Kernel.removeMapping_eq, Kernel.removeMappingBy, Kernel.removeMappingBy]
    refine bind_congr rfl htake fun taken taking htaking => ?_
    cases taken with
    | none => rfl
    | some mapping =>
      refine bind_congr (throughFailures_congr Machine.Settled (fun p before hbefore => ?_)
        (fun p before hbefore => settled_unmapPage hbefore s p) _ htaking)
        (fun _ _ _ => trivial) fun _ _ _ => rfl
      exact run_unmapPage_once hbefore s p (again p)
  · rw [Kernel.removeMapping, yields_bind]
    refine htake.mono fun taken taking htaking => ?_
    cases taken with
    | none => exact yields_pure.mpr htaking
    | some mapping =>
      rw [yields_bind]
      refine (yields_throughFailures Machine.Settled
        (fun p before hbefore => settled_unmapPage hbefore s p) _ htaking).mono fun outcome after hafter => ?_
      simp only [lift_eq, yields_bind, yields_space, yields_notify, yields_pure]
      intro _ _
      exact Coherent.congr hafter rfl rfl rfl rfl

/-- One round for each page is enough to remove all mappings of a list. -/
theorem run_removeMappings_once (h : machine.Settled) (s : SpaceId) (ids : List Nat) :
    (Kernel.removeMappings s ids : Transition _) machine =
      Kernel.removeMappingsBy (fun p => Kernel.unmapRound s p (again p)) s ids machine := by
  induction ids generalizing machine with
  | nil => rfl
  | cons id rest ih =>
    obtain ⟨honce, hsettled⟩ := run_removeMapping_once again h s id
    rw [Kernel.removeMappings, Kernel.removeMappingsBy]
    refine bind_congr honce hsettled fun outcome after hafter => ?_
    cases outcome with
    | ok u => exact ih hafter
    | error cause =>
      have hspace : Yields (Transition.space s) after fun _ asked => asked.Settled :=
        yields_space.mpr fun _ _ => hafter
      refine bind_congr rfl hspace fun space asked hasked => ?_
      have hsaid : Yields (notify (.writeBackFailed space.pid id cause)) asked
          fun _ said => said.Settled := yields_notify.mpr (Coherent.congr hasked rfl rfl rfl rfl)
      exact bind_congr rfl hsaid fun _ said hsaid => ih hsaid

/-- To tear a space down takes one round for each page of its mappings. -/
theorem run_destroy_once (h : machine.Settled) (s : SpaceId) :
    (Kernel.destroy s : Transition _) machine =
      Kernel.destroyBy (fun p => Kernel.unmapRound s p (again p)) s machine := by
  have hlook : Yields (Kernel.supplement s) machine fun _ after => machine = after := by
    apply Ensures.yields
    rw [ensures_kernelSupplement]
    exact fun _ _ => rfl
  rw [Kernel.destroy, Kernel.destroyBy, holding_eq, holding_eq]
  refine bind_congr rfl hlook ?_
  rintro table _ rfl
  split
  · rfl
  · exact bind_congr (run_removeMappings_once again h s table.mappingIds) (fun _ _ _ => trivial)
      fun _ _ _ => rfl

end

end Transition

/-! ### Between the calls of a run -/

section

variable {start machine : Machine} {moments : List Moment}

open Transition

/-- Between calls that do not come in between each other, whatever was refused before and however few frames
there are: no page is being evicted, and the frame of every mapped page can be pinned. So a fault and an
unmapping come to the same whatever would be done in a second round, and so do the calls that unmap whole
mappings. A fault that is resolved leaves its page mapped; the next access to it finds its frame, or else it
is forbidden, and to resolve that fault is refused. So a copy comes to the same whatever would be done in a
third round for one of its pieces. -/
theorem Run.rounds (hfresh : start.Fresh) (hrun : Run start moments machine) :
    (∀ s p info, info? machine.spaces s p = some info → info.evicting = false) ∧
    (∀ s p frame, IsAligned p → frame? machine.spaces s p = some frame →
      ∃ after, (Kernel.pinIfBacking frame s p : Transition _) machine = .ok true after) ∧
    (∀ s address stackPointer code (again : Transition (Except FaultError Unit)),
      (Kernel.resolveFault s address stackPointer code : Transition _) machine =
        Kernel.resolveFaultBy (Kernel.resolveRound s address stackPointer again) s address code machine) ∧
    (∀ s p (again : Transition (Except VmError Unit)),
      (Kernel.unmapPage s p : Transition _) machine = Kernel.unmapRound s p again machine) ∧
    (∀ s (again : Nat → Transition (Except VmError Unit)),
      (∀ id, (Kernel.unmapFile s id : Transition _) machine =
        Kernel.removeMappingBy (fun p => Kernel.unmapRound s p (again p)) s id machine) ∧
      (Kernel.destroy s : Transition _) machine =
        Kernel.destroyBy (fun p => Kernel.unmapRound s p (again p)) s machine) ∧
    (∀ s address stackPointer code after,
      (Kernel.resolveFault s address stackPointer code : Transition _) machine = .ok (.ok ()) after →
      ∃ entry, mapped? after.spaces s (pageOf address) = some entry ∧ ∀ write,
        (∃ next, (Kernel.translate s (pageOf address) write : Transition _) after =
          .ok (.ok entry.frame.toNat) next) ∨
        ∃ code', (Kernel.translate s (pageOf address) write : Transition _) after = .ok (.error code') after ∧
          code'.present = true ∧ ∀ stackPointer,
            (Kernel.resolveFault s address stackPointer code' : Transition _) after =
              .ok (.error (.unrecoverable address)) after) ∧
    (∀ s start data stackPointer (later again : Transition (Except FaultError Unit)),
      (Kernel.copyToUser s start data stackPointer : Transition _) machine =
        Kernel.copyToUserBy (Kernel.reachTwice s stackPointer true later again) start data machine) ∧
    ∀ s start length stackPointer (later : Transition (Except FaultError Unit))
      (again : Transition (Except FaultError Bytes)),
      (Kernel.copyFromUser s start length stackPointer : Transition _) machine =
        Kernel.copyFromUserBy (Kernel.reachTwice s stackPointer false later again) start length machine := by
  have h : machine.Settled := (hrun.orderly hfresh.orderly).settled
  refine ⟨fun s p info hinfo => (h.fits hinfo).evicting, fun s p frame hp hframe => ?_,
    fun s address stackPointer code again => run_resolveFault_once h s address stackPointer code again,
    fun s p again => run_unmapPage_once h s p again,
    fun s again => ⟨fun id => (run_removeMapping_once again h s id).1, run_destroy_once again h s⟩,
    fun s address stackPointer code after hfault => ?_,
    fun s start data stackPointer later again => ?_, fun s start length stackPointer later again => ?_⟩
  · obtain ⟨_, after, hpin, rfl, -⟩ := finishes_pinIfBacking h hp hframe
    exact ⟨after, hpin⟩
  · obtain ⟨-, hmapped⟩ := (ensures_resolveFault h s address stackPointer code).of_ok hfault
    obtain ⟨entry, hentry⟩ := Option.isSome_iff_exists.mp (hmapped rfl)
    exact ⟨entry, hentry, fun write => run_translate_mapped hentry write⟩
  · exact run_copyToUser_twice h s start data stackPointer later again
  · exact run_copyFromUser_twice h s start length stackPointer later again

/-- A machine with one frame has two pages of a stack. A copy that begins in one of them and ends in the
other finds each of them in swap when its turn comes, so both pieces need a second round. -/
theorem rounds_sample : ∃ moments machine, Run .sample moments machine ∧
    moments.map (·.action) = [.addSpace 1, .call (.growStack 0 0x7fffe000),
      .call (.growStack 0 0x7ffff000)] ∧
    mapped? machine.spaces 0 0x7fffe000 = none ∧
    (∀ later again : Transition (Except FaultError Unit),
      (Kernel.copyToUser 0 0x7fffefff #[1, 2] 0 : Transition _) machine =
        Kernel.copyToUserBy (Kernel.reachTwice 0 0 true later again) 0x7fffefff #[1, 2] machine) ∧
    ∃ after, (Kernel.copyToUser 0 0x7fffefff #[1, 2] 0 : Transition _) machine = .ok (.ok ()) after ∧
      mapped? after.spaces 0 0x7fffe000 = none ∧ (mapped? after.spaces 0 0x7ffff000).isSome = true := by
  obtain ⟨moments, machine, hrun, hactions, hfacts⟩ := @exists_run .sample
    [.addSpace 1, .call (.growStack 0 0x7fffe000), .call (.growStack 0 0x7ffff000)]
    (fun r => decide (mapped? r.2.spaces 0 0x7fffe000 = none) &&
      (Kernel.copyToUser 0 0x7fffefff #[1, 2] 0 : Transition _).check r.2 fun outcome after =>
        decide (outcome = .ok () ∧ mapped? after.spaces 0 0x7fffe000 = none ∧
          (mapped? after.spaces 0 0x7ffff000).isSome = true)) (by decide +kernel)
  obtain ⟨hunmapped, hcopy⟩ := (Bool.and_eq_true _ _).mp hfacts
  obtain ⟨outcome, after, hcopy, hfacts⟩ := exists_of_check hcopy
  obtain ⟨rfl, haway, hmapped⟩ := of_decide_eq_true hfacts
  obtain ⟨-, -, -, -, -, -, hcopies, -⟩ := hrun.rounds Machine.fresh_sample
  exact ⟨moments, machine, hrun, hactions, of_decide_eq_true hunmapped,
    hcopies 0 0x7fffefff #[1, 2] 0, after, hcopy, haway, hmapped⟩

end

end DemandPaging
