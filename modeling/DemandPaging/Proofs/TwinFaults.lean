import DemandPaging.Proofs.TwinEvictions

/-!
# Faults of twins

Twins resolve a fault alike: with the same answer, and they are twins afterwards (`Machine.Paired`). They
need not be twins under the same renaming, since the page that was brought in may have gone to frames
that had different names.

That a frame which is given back unused is out no more, and so of no account, takes its record, which a
steady machine has.
-/

set_option autoImplicit false

namespace DemandPaging

open Spaces Transition

/-- The answers are the same, and the machines are twins under some renaming. -/
def Machine.Paired {α : Type} (sizes : Sizes) (x y : α) (a b : Machine) : Prop :=
  x = y ∧ ∃ σ : Equiv.Perm Nat, a.Twin sizes σ none b

/-- Nobody does anything, which is allowed on all terms. -/
theorem Terms.allows_of_eq (terms : Terms) (before after : Machine) (h : before = after) :
    terms.Allows before after := h ▸ .refl terms before

/-- Between two operations nothing is on its way. -/
theorem Terms.idle_default : Terms.Idle {} := ⟨rfl, rfl, rfl⟩

section

variable {sizes : Sizes} {σ : Equiv.Perm Nat} {stale : Option Nat} {a b : Machine} {s : SpaceId}
  {p frame : Nat}

/-- Frames with records are out. -/
theorem Machine.Steady.isAllocated {terms : Terms} {loose pinned : List Nat} {m : Machine}
    (h : m.Steady terms loose pinned) {record : FrameRecord} (hr : record ∈ m.frames.records) :
    m.frames.pool.isAllocated record.frame = true :=
  (h.pool.isAllocated_iff _).mpr (List.mem_append_left _ (List.mem_map_of_mem hr))

/-- To map a page leaves the frames alone. -/
theorem Transition.frames_of_install {machine : Machine} (s : SpaceId) (p frame : Nat) (writable : Bool) :
    (install s p frame writable).Yields machine fun _ after => after.frames = machine.frames :=
  yields_bind.mpr (yields_directory.mpr fun _ _ => yields_bind.mpr (yields_ofExcept.mpr fun _ _ =>
    yields_bind.mpr (yields_setDirectory.mpr (yields_pure.mpr rfl))))

/-- Answers that are the same, with twins, make a pair. -/
theorem Same.paired {α : Type} {x y : α} (h : Same sizes σ none x y a b) :
    Machine.Paired sizes x y a b := ⟨h.1, σ, h.2⟩

namespace Machine.Twin

/-- A frame whose bytes are of no account is given back. -/
theorem freeStale (h : a.Twin sizes σ (some frame) b) (hout : a.frames.pool.isAllocated frame = true)
    {record : FrameRecord} (hrecord : record ∈ a.frames.records) (hframe : record.frame = frame) :
    Agree (Transition.free frame) (Transition.free (σ frame)) a b (Same sizes σ none) := by
  obtain ⟨index, hposition⟩ := Option.isSome_iff_exists.mp (FrameTable.position?_isSome hrecord)
  rw [hframe] at hposition
  have hback : (Transition.free frame).Yields a fun _ after =>
      after.frames.pool.isAllocated frame = false := by
    refine yields_bind.mpr (yields_frames.mpr ?_)
    simp only [hposition, FrameTable.free]
    refine yields_bind.mpr (yields_ofExcept.mpr fun table htable => yields_setFrames.mpr ?_)
    cases hpool : a.frames.pool.dealloc frame with
    | error halt => simp only [hpool, reduceCtorEq] at htable
    | ok pool =>
      simp only [hpool, Except.ok.injEq] at htable
      subst htable
      exact (FramePool.isAllocated_of_dealloc hpool).2
  refine ((h.free hout).left hback).mono ?_
  rintro u _ a' b' ⟨⟨rfl, h'⟩, hin⟩
  refine ⟨rfl, h'.mono fun f hf _ heq => ?_⟩
  rw [← Option.some.inj heq, hin] at hf
  cases hf

/-! ### Bringing a page in -/

/-- A page that is in memory again is settled. -/
theorem settleSwapIn (h : a.Twin sizes σ stale b) (s : SpaceId) (page : Nat) (copy : SwapCopy)
    (fileBacked : Bool) :
    Agree (Transition.settleSwapIn s page copy fileBacked) (Transition.settleSwapIn s page copy fileBacked)
      a b (Same sizes σ stale) := by
  refine agree_bind (h.agree_supplement fun space _ => ?_)
  refine (h.setSupplement s _).bind ?_
  rintro _ _ a b ⟨-, h⟩
  cases fileBacked with
  | false => exact h.releaseSlot copy.slot
  | true => exact (h.setDirty s page true).bind fun _ _ _ _ h => h.2.releaseSlot copy.slot

/-- What is done last when a page was brought in. -/
theorem announce (h : a.Twin sizes σ stale b) (frame : Nat) (notice : AddressSpace → Notice) {ε : Type} :
    Agree (do
        Kernel.unpin frame
        notify (notice (← space s))
        pure (.ok ()) : Transition (Except ε Unit))
      (do
        Kernel.unpin (σ frame)
        notify (notice (← space s))
        pure (.ok ()) : Transition (Except ε Unit)) a b (Same sizes σ stale) := by
  refine (h.unpin frame).bind ?_
  rintro _ _ a b ⟨-, h⟩
  exact agree_bind (h.agree_space fun _ _ => ⟨rfl, h.said _ _⟩)

/-- Both machines bring the page in from the same slot, each into a frame of its own. -/
theorem loadFromSwap (h : a.Twin sizes σ none b) (hs : a.Steady {} [] []) (hp : IsAligned p)
    (s : SpaceId) (copy : SwapCopy) (fileBacked : Bool) (address : Nat) :
    Agree (Kernel.loadFromSwap s p copy fileBacked address) (Kernel.loadFromSwap s p copy fileBacked address)
      a b (Machine.Paired sizes) := by
  have hgranted := Outcomes.alone.allocateFor (s := s) (Terms.allows_of_eq {}) hs
    (fun _ => Terms.idle_default) hp false
  refine ((h.allocateFor hs s p false).left hgranted).bind ?_
  rintro (cause | f) (cause' | g) a b ⟨halloc, hgranted⟩
  · obtain ⟨rfl, h⟩ := halloc
    exact ⟨rfl, σ, h⟩
  · exact halloc.elim
  · exact halloc.elim
  obtain ⟨σ, rfl, h⟩ := halloc
  have hfills : Yields (Kernel.readSlot copy.slot f) a fun _ after => a.Fills {} f after :=
    Outcomes.alone.readSlot (Terms.allows_of_eq {}) copy.slot
  refine ((h.readSlot copy.slot).left hfills).bind ?_
  rintro outcome _ a b ⟨⟨rfl, h⟩, hfills⟩
  have hmem := (hgranted.1.fills hfills).mem
  have hout := (hgranted.1.fills hfills).steady.isAllocated hmem
  cases outcome with
  | error cause =>
    refine (freeStale h hout hmem rfl).bind ?_
    rintro _ _ a b ⟨-, h⟩
    exact ⟨rfl, σ, h⟩
  | ok u =>
    have h : a.Twin sizes σ none b := h
    refine ((h.install s p f copy.writable).left (frames_of_install s p f copy.writable)).bind ?_
    rintro done _ a' b' ⟨⟨rfl, h⟩, hframes⟩
    refine agree_ite (fun _ => ?_) fun _ => ?_
    · refine (h.settleSwapIn s p copy fileBacked).bind ?_
      rintro _ _ a b ⟨-, h⟩
      exact (h.announce f _).mono fun _ _ _ _ h => h.paired
    · refine (h.free (hframes ▸ hout)).bind ?_
      rintro _ _ a b ⟨-, h⟩
      exact ⟨rfl, σ, h⟩

/-- Both machines bring the page in from the same window, each into a frame of its own. -/
theorem loadFromFile (h : a.Twin sizes σ none b) (hs : a.Steady {} [] []) (hp : IsAligned p)
    (s : SpaceId) (segment : Segment) (address : Nat) :
    Agree (Kernel.loadFromFile s p segment address) (Kernel.loadFromFile s p segment address)
      a b (Machine.Paired sizes) := by
  have hgranted := Outcomes.alone.allocateFor (s := s) (Terms.allows_of_eq {}) hs
    (fun _ => Terms.idle_default) hp false
  refine ((h.allocateFor hs s p false).left hgranted).bind ?_
  rintro (cause | f) (cause' | g) a b ⟨halloc, hgranted⟩
  · obtain ⟨rfl, h⟩ := halloc
    exact ⟨rfl, σ, h⟩
  · exact halloc.elim
  · exact halloc.elim
  obtain ⟨σ, rfl, h⟩ := halloc
  have hfills : Yields (Kernel.readIn f segment) a fun _ after => a.Fills {} f after :=
    Outcomes.alone.readIn (Terms.allows_of_eq {}) segment
  refine ((h.readIn segment).left hfills).bind ?_
  rintro outcome _ a b ⟨⟨rfl, h⟩, hfills⟩
  have hmem := (hgranted.1.fills hfills).mem
  have hout := (hgranted.1.fills hfills).steady.isAllocated hmem
  refine agree_ite (fun hshort => ?_) fun hall => ?_
  · rw [if_neg hshort] at h
    refine agree_bind (h.agree_space fun space _ => agree_bind (agree_notify.mpr ?_))
    have hsaid := h.said (a.notices.push (.shortRead space.pid p outcome))
      (b.notices.push (.shortRead (space.rename σ).pid p outcome))
    refine (freeStale hsaid hout hmem rfl).bind ?_
    rintro _ _ a b ⟨-, h⟩
    exact ⟨rfl, σ, h⟩
  · rw [if_pos (not_not.mp hall)] at h
    refine ((h.install s p f segment.writable).left (frames_of_install s p f segment.writable)).bind ?_
    rintro done _ a' b' ⟨⟨rfl, h⟩, hframes⟩
    refine agree_ite (fun _ => ?_) fun _ => ?_
    · refine (h.modifyInfo s p _).bind ?_
      rintro _ _ a b ⟨-, h⟩
      exact (h.announce f _).mono fun _ _ _ _ h => h.paired
    · refine (h.free (hframes ▸ hout)).bind ?_
      rintro _ _ a b ⟨-, h⟩
      exact ⟨rfl, σ, h⟩

/-- Both machines add the page, each with a frame of its own. -/
theorem addStackPage (h : a.Twin sizes σ none b) (hs : a.Steady {} [] []) (s : SpaceId) {page : Nat}
    (hp : IsAligned page) :
    Agree (Kernel.addStackPage s page) (Kernel.addStackPage s page) a b (Machine.Paired sizes) := by
  refine agree_bind (h.agree_supplement fun space _ => ?_)
  refine agree_ite (fun _ => ⟨rfl, σ, h⟩) fun _ => ?_
  have hsame : Yields (Kernel.findEntry s page) a fun _ after => after = a :=
    (ensures_findEntry.mpr fun _ _ => rfl).yields
  refine ((h.findEntry s page).left hsame).bind ?_
  rintro e _ a' b' ⟨⟨rfl, h'⟩, rfl⟩
  rw [Option.isSome_map]
  refine agree_ite (fun _ => ⟨rfl, σ, h'⟩) fun _ => ?_
  have hgranted := Outcomes.alone.allocateFor (s := s) (Terms.allows_of_eq {}) hs
    (fun _ => Terms.idle_default) hp true
  refine ((h'.allocateFor hs s page true).left hgranted).bind ?_
  rintro (cause | f) (cause' | g) a b ⟨halloc, hgranted⟩
  · obtain ⟨rfl, h⟩ := halloc
    exact ⟨rfl, σ, h⟩
  · exact halloc.elim
  · exact halloc.elim
  obtain ⟨σ, rfl, h⟩ := halloc
  have h : a.Twin sizes σ none b := h
  have hout := hgranted.1.steady.isAllocated hgranted.1.mem
  refine ((h.install s page f true).left (frames_of_install s page f true)).bind ?_
  rintro done _ a' b' ⟨⟨rfl, h⟩, hframes⟩
  refine agree_ite (fun _ => (h.announce f _).mono fun _ _ _ _ h => h.paired) fun _ => ?_
  refine (h.free (hframes ▸ hout)).bind ?_
  rintro _ _ a b ⟨-, h⟩
  exact ⟨rfl, σ, h⟩

/-- Both machines grow the stack, or refuse to for the same reason. -/
theorem growStack (h : a.Twin sizes σ none b) (hs : a.Steady {} [] []) (s : SpaceId) (address : Nat) :
    Agree (Kernel.growStack s address) (Kernel.growStack s address) a b (Machine.Paired sizes) :=
  agree_ite (fun _ => ⟨rfl, σ, h⟩) fun _ => h.addStackPage hs s (isAligned_pageOf address)

/-! ### Resolving a fault -/

/-- A fault on a page without an entry goes the same way in both machines. -/
theorem faultWithoutInfo (h : a.Twin sizes σ none b) (hs : a.Steady {} [] []) (s : SpaceId)
    (address sp : Nat) :
    Agree (Kernel.faultWithoutInfo s address sp) (Kernel.faultWithoutInfo s address sp) a b
      (Machine.Paired sizes) := by
  refine agree_bind (agree_stackLimit.mpr ?_)
  rw [h.stackLimit]
  refine agree_ite (fun _ => ?_) fun _ => ⟨rfl, σ, h⟩
  refine (h.addStackPage hs s (isAligned_pageOf address)).bind ?_
  rintro outcome _ a b ⟨rfl, hpaired⟩
  cases outcome <;> exact ⟨rfl, hpaired⟩

/-- A fault on a page with an entry goes the same way in both machines. -/
theorem faultWithInfo (h : a.Twin sizes σ none b) (hs : a.Steady {} [] []) (s : SpaceId)
    (info : PageInfo) (address : Nat) :
    Agree (Kernel.faultWithInfo s info address) (Kernel.faultWithInfo s info address) a b
      (Machine.Paired sizes) := by
  refine agree_ite (fun _ => ?_) fun _ => ?_
  · refine (h.findEntry s (pageOf address)).bind ?_
    rintro e _ a b ⟨rfl, h⟩
    rw [Option.isSome_map]
    exact agree_ite (fun _ => ⟨rfl, σ, h⟩) fun _ => ⟨rfl, σ, h⟩
  · split
    · exact h.loadFromSwap hs (isAligned_pageOf address) s _ _ address
    · exact h.loadFromFile hs (isAligned_pageOf address) s _ address
    · exact ⟨rfl, σ, h⟩

/-- However many rounds it takes, a fault is resolved alike. -/
theorem resolveIn (h : a.Twin sizes σ none b) (hs : a.Steady {} [] []) (s : SpaceId)
    (address sp rounds : Nat) :
    Agree (Kernel.resolveIn s address sp rounds) (Kernel.resolveIn s address sp rounds) a b
      (Machine.Paired sizes) := by
  induction rounds with
  | zero => exact agree_throw .blocked
  | succ rounds ih =>
    refine agree_bind (h.agree_supplement fun space _ => ?_)
    refine agree_ite (fun _ => ⟨rfl, σ, h⟩) fun _ => ?_
    cases space.supplement.find? (pageOf address) with
    | none => exact h.faultWithoutInfo hs s address sp
    | some info => exact agree_ite (fun _ => ih) fun _ => h.faultWithInfo hs s info address

/-- Twins resolve a fault alike. -/
theorem resolveFault (h : a.Twin sizes σ none b) (hs : a.Steady {} [] []) (s : SpaceId)
    (address sp : Nat) (code : FaultCode) :
    Agree (Kernel.resolveFault s address sp code) (Kernel.resolveFault s address sp code) a b
      (Machine.Paired sizes) :=
  agree_ite (fun _ => ⟨rfl, σ, h⟩) fun _ => h.resolveIn hs s address sp faultRounds

/-- A fault is handled alike, and both machines halt for it or none does. -/
theorem handleFault (h : a.Twin sizes σ none b) (hs : a.Steady {} [] []) (s : SpaceId)
    (address sp : Nat) (code : FaultCode) :
    Agree (Kernel.handleFault s address sp code) (Kernel.handleFault s address sp code) a b
      (Machine.Paired sizes) := by
  refine (h.resolveFault hs s address sp code).bind ?_
  rintro outcome _ a b ⟨rfl, σ, h⟩
  rcases outcome with (address | cause) | u
  · exact agree_bind (h.agree_space fun _ _ => ⟨rfl, σ, h.said _ _⟩)
  · exact agree_bind (h.agree_space fun _ _ => agree_bind (agree_notify.mpr (agree_throw _)))
  · exact ⟨rfl, σ, h⟩

end Machine.Twin

end

end DemandPaging
