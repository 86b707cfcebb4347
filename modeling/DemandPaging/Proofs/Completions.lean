import DemandPaging.Proofs.Interleavings
import DemandPaging.Proofs.Refaults

/-!
# Operations that come to an end

`Ensures` leaves it open whether an operation answers at all. `Finishes` says that it does:
`Transition.Finishes step machine post` of the one result of an uninterrupted step, and
`Woven.Finishes work machine post` of every result that the operation may have while others work.
The rules are those of `Ensures`, and what a step ensures may be taken over once it is known to answer
(`Transition.Ensures.finishes`).
-/

set_option autoImplicit false

namespace DemandPaging

open Spaces

namespace Transition

variable {α β : Type} {machine : Machine} {s : SpaceId}

/-- The step answers, and `post` holds of the answer and the machine it leaves. -/
def Finishes (step : Transition α) (machine : Machine) (post : α → Machine → Prop) : Prop :=
  ∃ a after, step machine = .ok a after ∧ post a after

/-- Less may be said of the answer. -/
theorem Finishes.mono {step : Transition α} {post weaker : α → Machine → Prop}
    (h : Finishes step machine post) (hw : ∀ a after, post a after → weaker a after) :
    Finishes step machine weaker := by
  obtain ⟨a, after, hrun, hpost⟩ := h
  exact ⟨a, after, hrun, hw a after hpost⟩

/-- What a step ensures holds if it answers. -/
theorem Ensures.finishes {step : Transition α} {post : α → Machine → Prop}
    (h : Ensures step machine post) (hends : Finishes step machine fun _ _ => True) :
    Finishes step machine post := by
  obtain ⟨a, after, hrun, -⟩ := hends
  exact ⟨a, after, hrun, h.of_ok hrun⟩

/-- A step whose result is known. -/
theorem finishes_iff {step : Transition α} {post : α → Machine → Prop} {a : α} {after : Machine}
    (hrun : step machine = .ok a after) : Finishes step machine post ↔ post a after := by
  constructor
  · rintro ⟨a', after', hrun', hpost⟩
    rw [hrun] at hrun'
    cases hrun'
    exact hpost
  · intro hpost
    exact ⟨a, after, hrun, hpost⟩

/-- What is given at once is finished. -/
@[simp] theorem finishes_pure {a : α} {post : α → Machine → Prop} :
    Finishes (pure a) machine post ↔ post a machine := finishes_iff rfl

/-- A sequence finishes if its first part does, and its second part does on what that leaves. -/
@[simp] theorem finishes_bind {step : Transition α} {next : α → Transition β}
    {post : β → Machine → Prop} :
    Finishes (step >>= next) machine post ↔
      Finishes step machine fun a after => Finishes (next a) after post := by
  constructor
  · rintro ⟨b, after, hrun, hpost⟩
    obtain ⟨a, middle, hfirst, hnext⟩ := ok_of_bind hrun
    exact ⟨a, middle, hfirst, b, after, hnext, hpost⟩
  · rintro ⟨a, middle, hfirst, b, after, hnext, hpost⟩
    exact ⟨b, after, (run_bind hfirst next).trans hnext, hpost⟩

/-- A part of the machine finishes unless it halts. -/
@[simp] theorem finishes_ofExcept {outcome : Except Halt α} {post : α → Machine → Prop} :
    Finishes (ofExcept outcome) machine post ↔ ∃ a, outcome = .ok a ∧ post a machine := by
  cases outcome with
  | ok a =>
    simp only [ofExcept, finishes_pure, Except.ok.injEq, exists_eq_left']
  | error halt =>
    refine iff_of_false ?_ (by simp)
    rintro ⟨a, after, hrun, -⟩
    cases hrun

/-- To say something always finishes. -/
@[simp] theorem finishes_notify {notice : Notice} {post : Unit → Machine → Prop} :
    Finishes (notify notice) machine post ↔
      post () { machine with notices := machine.notices.push notice } := finishes_iff rfl

/-- To ask for the frame table always finishes. -/
@[simp] theorem finishes_frames {post : FrameTable → Machine → Prop} :
    Finishes frames machine post ↔ post machine.frames machine := finishes_iff rfl

/-- To replace the frame table always finishes. -/
@[simp] theorem finishes_setFrames {table : FrameTable} {post : Unit → Machine → Prop} :
    Finishes (setFrames table) machine post ↔ post () { machine with frames := table } :=
  finishes_iff rfl

/-- To ask for the swap store always finishes. -/
@[simp] theorem finishes_swap {post : SwapStore → Machine → Prop} :
    Finishes swap machine post ↔ post machine.swap machine := finishes_iff rfl

/-- To replace the swap store always finishes. -/
@[simp] theorem finishes_setSwap {store : SwapStore} {post : Unit → Machine → Prop} :
    Finishes (setSwap store) machine post ↔ post () { machine with swap := store } :=
  finishes_iff rfl

/-- To replace a supplemental page table always finishes. -/
@[simp] theorem finishes_setSupplement {table : Supplement} {post : Unit → Machine → Prop} :
    Finishes (setSupplement s table) machine post ↔
      post () { machine with
        spaces := machine.spaces.modify s fun space => { space with supplement := table } } :=
  finishes_iff rfl

/-- A space that exists can be asked for. -/
theorem finishes_space {space : AddressSpace} {post : AddressSpace → Machine → Prop}
    (hspace : machine.spaces[s]? = some space) (hpost : post space machine) :
    Finishes (Transition.space s) machine post :=
  ⟨space, machine, run_space hspace, hpost⟩

/-- To ask for a supplemental page table finishes if the space is there. -/
theorem finishes_supplement {space : AddressSpace} {post : Supplement → Machine → Prop}
    (hspace : machine.spaces[s]? = some space) (hpost : post space.supplement machine) :
    Finishes (supplement s) machine post :=
  ⟨space.supplement, machine, run_supplement hspace, hpost⟩

/-- To ask for a page directory finishes if the space is there. -/
theorem finishes_directory {space : AddressSpace} {post : PageDirectory → Machine → Prop}
    (hspace : machine.spaces[s]? = some space) (hpost : post space.directory machine) :
    Finishes (directory s) machine post := by
  rw [directory, finishes_bind]
  exact finishes_space hspace (finishes_pure.mpr hpost)

/-- To ask for the contents of a frame finishes if it is there. -/
theorem finishes_page {frame : Nat} {content : Page} {post : Page → Machine → Prop}
    (hcontent : machine.frames.memory.page frame = .ok content) (hpost : post content machine) :
    Finishes (page frame) machine post := by
  rw [page, finishes_bind, finishes_frames, hcontent]
  exact finishes_pure.mpr hpost

/-- A file that exists can be written, though it may refuse. -/
theorem finishes_writeFile {f : FileId} {file : MemoryFile} {offset : Nat} {data : Bytes}
    {post : Except FileError Nat → Machine → Prop} (hfile : machine.files[f]? = some file)
    (hpost : post (file.write offset data).1
      { machine with files := machine.files.setIfInBounds f (file.write offset data).2 }) :
    Finishes (writeFile f offset data) machine post := by
  have hget : (get : Transition Machine) machine = .ok machine machine := rfl
  have hrun : Transition.file f machine = .ok file machine := by
    rw [Transition.file, run_bind hget, hfile]
    rfl
  rw [writeFile, finishes_bind, finishes_iff hrun]
  exact (finishes_iff rfl).mpr hpost

/-- A page of a space that exists can be unmapped. -/
theorem finishes_clear (hs : s < machine.spaces.size) {p : Nat} :
    Finishes (clear s p) machine fun entry after => entry = mapped? machine.spaces s p ∧
      after = { machine with spaces := unmap machine.spaces s p } := by
  have hends : Finishes (clear s p) machine fun _ _ => True := by
    rw [clear, finishes_bind]
    refine finishes_directory (Array.getElem?_eq_getElem hs) ?_
    rw [finishes_bind]
    exact (finishes_iff rfl).mpr (finishes_pure.mpr trivial)
  refine Ensures.finishes ?_ hends
  rw [ensures_clear]
  exact fun _ _ => ⟨rfl, rfl⟩

end Transition

namespace Woven

variable {others : Machine → Machine → Prop} {α β : Type} {machine : Machine}
  {post : α → Machine → Prop}

/-- Whatever comes in between, the operation answers, and `post` holds of the answer and the machine
it leaves. -/
def Finishes (work : Woven others α) (machine : Machine) (post : α → Machine → Prop) : Prop :=
  ∀ result, work machine result → ∃ a after, result = .ok a after ∧ post a after

/-- Less may be said of the answer. -/
theorem Finishes.mono {work : Woven others α} {weaker : α → Machine → Prop}
    (h : Finishes work machine post) (hw : ∀ a after, post a after → weaker a after) :
    Finishes work machine weaker := by
  intro result hresult
  obtain ⟨a, after, rfl, hpost⟩ := h result hresult
  exact ⟨a, after, rfl, hw a after hpost⟩

/-- Nobody can come in where something is given at once. -/
@[simp] theorem finishes_pure {a : α} :
    Finishes (pure a : Woven others α) machine post ↔ post a machine := by
  constructor
  · intro h
    obtain ⟨a', after, heq, hpost⟩ := h _ rfl
    cases heq
    exact hpost
  · rintro hpost _ rfl
    exact ⟨a, machine, rfl, hpost⟩

/-- A sequence finishes if its first part does, and its second part does on all that others may make of what
that leaves. -/
@[simp] theorem finishes_bind {work : Woven others α} {next : α → Woven others β}
    {post : β → Machine → Prop} :
    Finishes (work >>= next) machine post ↔
      Finishes work machine fun a after => Finishes (next a) after post := by
  constructor
  · rintro h (⟨a, middle⟩ | ⟨halt, middle⟩) hwork
    · exact ⟨a, middle, rfl, fun result hresult => h result (.inl ⟨a, middle, hwork, hresult⟩)⟩
    · obtain ⟨b, after, heq, -⟩ := h (.error halt middle) (.inr ⟨halt, middle, hwork, rfl⟩)
      cases heq
  · rintro h result (⟨a, middle, hwork, hresult⟩ | ⟨halt, middle, hwork, rfl⟩)
    · obtain ⟨a', middle', heq, hnext⟩ := h _ hwork
      cases heq
      exact hnext result hresult
    · obtain ⟨a', middle', heq, -⟩ := h _ hwork
      cases heq

/-- A transition is carried out on the machine that others left. -/
@[simp] theorem finishes_atomically {step : Transition α} :
    Finishes (Kernel.atomically step : Woven others α) machine post ↔
      ∀ met, others machine met → Transition.Finishes step met post := by
  constructor
  · intro h met hothers
    obtain ⟨a, after, heq, hpost⟩ := h _ ⟨met, hothers, rfl⟩
    exact ⟨a, after, heq, hpost⟩
  · rintro h _ ⟨met, hothers, rfl⟩
    exact h met hothers

/-- An interruption is over when others have done what they may. -/
@[simp] theorem finishes_interrupt {event : Event} {post : Unit → Machine → Prop} :
    Finishes (Kernel.interrupt event : Woven others Unit) machine post ↔
      ∀ met, others machine met → post () met := by
  constructor
  · intro h met hothers
    obtain ⟨u, after, heq, hpost⟩ := h _ ⟨met, hothers, rfl⟩
    cases heq
    exact hpost
  · rintro h _ ⟨met, hothers, rfl⟩
    exact ⟨(), met, rfl, h met hothers⟩

/-- That operations answer, and how, goes from their parts to the whole. -/
def finishing (others : Machine → Machine → Prop) : Rules (Woven others) where
  Yields := Finishes
  mono := Finishes.mono
  pure := finishes_pure.mpr
  bind := finishes_bind.mpr
  holding h := h

end Woven

end DemandPaging
