import DemandPaging.Proofs.Interleavings
import DemandPaging.Proofs.Refaults

/-!
# Outcomes

Some facts hold after an operation whatever happens while it goes on, and whatever state it finds: they
say nothing of operations that halt. `Transition.Yields step machine post` says of a step that if it
answers, then `post` holds of the answer and of the machine it leaves. It is weaker than `Ensures`,
which also excludes that a step halts for a double release.

`Outcomes m others evicts` is what it takes to say the same of operations in any monad `m` that they can
run in. Besides the `Rules` for what is put together of parts it has one for a transition and one for an
event. The machine may become any that is in the relation `others` before a transition and at an event;
and unless `evicts`, whoever needs the right to evict waits for ever. An operation is then followed only
once. There are outcomes of uninterrupted runs, of runs that others come in between, and of what an
attendant does while an eviction is under way.
-/

set_option autoImplicit false

namespace DemandPaging

open Spaces

namespace Transition

variable {α β : Type} {machine : Machine} {s : SpaceId} {p : Nat}

/-- If the step answers, then `post` holds of the answer and the machine it leaves. -/
def Yields (step : Transition α) (machine : Machine) (post : α → Machine → Prop) : Prop :=
  ∀ a after, step machine = .ok a after → post a after

/-- What is ensured of a step is yielded by it. -/
theorem Ensures.yields {step : Transition α} {post : α → Machine → Prop}
    (h : Ensures step machine post) : Yields step machine post := fun _ _ hrun => h.of_ok hrun

/-- Less may be yielded than is. -/
theorem Yields.mono {step : Transition α} {post weaker : α → Machine → Prop}
    (h : Yields step machine post) (hw : ∀ a after, post a after → weaker a after) :
    Yields step machine weaker := fun a after hrun => hw a after (h a after hrun)

/-- Two things that hold of an answer hold together. -/
theorem Yields.and {step : Transition α} {post other : α → Machine → Prop}
    (h : Yields step machine post) (h' : Yields step machine other) :
    Yields step machine fun a after => post a after ∧ other a after :=
  fun a after hrun => ⟨h a after hrun, h' a after hrun⟩

/-- What is ensured and what is yielded hold together. -/
theorem Ensures.and_yields {α : Type} {step : Transition α} {post other : α → Machine → Prop}
    (h : Ensures step machine post) (h' : Yields step machine other) :
    Ensures step machine fun a after => post a after ∧ other a after := by
  unfold Ensures at h ⊢
  cases hrun : step machine with
  | ok a after =>
    rw [hrun] at h
    exact ⟨h, h' a after hrun⟩
  | error halt after =>
    rw [hrun] at h
    exact h

/-- A step whose result is known. -/
theorem yields_iff {step : Transition α} {post : α → Machine → Prop} {a : α} {after : Machine}
    (hrun : step machine = .ok a after) : Yields step machine post ↔ post a after := by
  constructor
  · exact fun h => h a after hrun
  · intro hpost a' after' hrun'
    rw [hrun] at hrun'
    cases hrun'
    exact hpost

/-- A step that is one of two, whichever it is. -/
theorem yields_ite {c : Prop} [Decidable c] {yes no : Transition α} {post : α → Machine → Prop}
    (hyes : c → Yields yes machine post) (hno : ¬ c → Yields no machine post) :
    Yields (if c then yes else no) machine post := by
  split
  · exact hyes ‹_›
  · exact hno ‹_›

/-- An answer that is given at once is yielded on the machine as it is. -/
@[simp] theorem yields_pure {a : α} {post : α → Machine → Prop} :
    Yields (pure a) machine post ↔ post a machine := yields_iff rfl

/-- The second part yields `post` on whatever the first part leaves. -/
@[simp] theorem yields_bind {step : Transition α} {next : α → Transition β}
    {post : β → Machine → Prop} :
    Yields (step >>= next) machine post ↔
      Yields step machine fun a after => Yields (next a) after post := by
  constructor
  · intro h a middle hfirst b after hnext
    exact h b after ((run_bind hfirst next).trans hnext)
  · intro h b after hrun
    obtain ⟨a, middle, hfirst, hnext⟩ := ok_of_bind hrun
    exact h a middle hfirst b after hnext

/-- A halt yields anything. -/
@[simp] theorem yields_throw {halt : Halt} {post : α → Machine → Prop} :
    Yields (throw halt) machine post ↔ True := iff_true_intro fun _ _ h => by cases h

/-- Only an answer that is taken over matters, not a halt. -/
@[simp] theorem yields_ofExcept {outcome : Except Halt α} {post : α → Machine → Prop} :
    Yields (ofExcept outcome) machine post ↔ ∀ a, outcome = .ok a → post a machine := by
  cases outcome with
  | ok a => simp only [ofExcept, yields_pure, Except.ok.injEq, forall_eq']
  | error halt => simp only [ofExcept, yields_throw, reduceCtorEq, false_implies, implies_true]

/-- Something is said. -/
@[simp] theorem yields_notify {notice : Notice} {post : Unit → Machine → Prop} :
    Yields (notify notice) machine post ↔
      post () { machine with notices := machine.notices.push notice } := yields_iff rfl

/-- The stack limit is read. -/
@[simp] theorem yields_stackLimit {post : Nat → Machine → Prop} :
    Yields stackLimit machine post ↔ post machine.stackLimit machine := yields_iff rfl

/-- The frame table is read. -/
@[simp] theorem yields_frames {post : FrameTable → Machine → Prop} :
    Yields frames machine post ↔ post machine.frames machine := yields_iff rfl

/-- The frame table is replaced. -/
@[simp] theorem yields_setFrames {table : FrameTable} {post : Unit → Machine → Prop} :
    Yields (setFrames table) machine post ↔ post () { machine with frames := table } :=
  yields_iff rfl

/-- The swap store is read. -/
@[simp] theorem yields_swap {post : SwapStore → Machine → Prop} :
    Yields swap machine post ↔ post machine.swap machine := yields_iff rfl

/-- The swap store is replaced. -/
@[simp] theorem yields_setSwap {store : SwapStore} {post : Unit → Machine → Prop} :
    Yields (setSwap store) machine post ↔ post () { machine with swap := store } := yields_iff rfl

/-- A space is read, which exists if there is an answer. -/
@[simp] theorem yields_space {post : AddressSpace → Machine → Prop} :
    Yields (space s) machine post ↔
      ∀ space, machine.spaces[s]? = some space → post space machine := by
  constructor
  · exact fun h space hspace => h space machine (run_space hspace)
  · exact fun h => (ensures_space.mpr h).yields

/-- The table of a space is read. -/
@[simp] theorem yields_supplement {post : Supplement → Machine → Prop} :
    Yields (supplement s) machine post ↔
      ∀ space, machine.spaces[s]? = some space → post space.supplement machine := by
  simp only [supplement, yields_bind, yields_space, yields_pure]

/-- The page directory of a space is read. -/
@[simp] theorem yields_directory {post : PageDirectory → Machine → Prop} :
    Yields (directory s) machine post ↔
      ∀ space, machine.spaces[s]? = some space → post space.directory machine := by
  simp only [directory, yields_bind, yields_space, yields_pure]

/-- The page directory of a space is replaced. -/
@[simp] theorem yields_setDirectory {d : PageDirectory} {post : Unit → Machine → Prop} :
    Yields (setDirectory s d) machine post ↔
      post () { machine with
        spaces := machine.spaces.modify s fun space => { space with directory := d } } :=
  yields_iff rfl

/-- The table of a space is replaced. -/
@[simp] theorem yields_setSupplement {table : Supplement} {post : Unit → Machine → Prop} :
    Yields (setSupplement s table) machine post ↔
      post () { machine with
        spaces := machine.spaces.modify s fun space => { space with supplement := table } } :=
  yields_iff rfl

/-- A page is unmapped. -/
@[simp] theorem yields_clear {post : Option PageTableEntry → Machine → Prop} :
    Yields (clear s p) machine post ↔ ∀ space, machine.spaces[s]? = some space →
      post (mapped? machine.spaces s p) { machine with spaces := unmap machine.spaces s p } := by
  simp only [clear, yields_bind, yields_directory, yields_setDirectory, yields_pure]
  refine forall₂_congr fun space hs => ?_
  rw [modify_directory hs fun d => (d.clear p).2, mapped?_eq hs]
  rfl

/-- The entry of a page in the table is changed. -/
@[simp] theorem yields_modifyInfo {f : PageInfo → PageInfo} {post : Unit → Machine → Prop} :
    Yields (modifyInfo s p f) machine post ↔
      post () { machine with spaces := amend machine.spaces s p f } := yields_iff rfl

/-- The dirty mark of a page is set, if the page is mapped. -/
@[simp] theorem yields_setDirty {on : Bool} {post : Unit → Machine → Prop} :
    Yields (setDirty s p on) machine post ↔
      post () { machine with
        spaces := mark machine.spaces s p fun e => { e with dirty := on } } := yields_iff rfl

/-- The mark of use of a page is set, if the page is mapped. -/
@[simp] theorem yields_setAccessed {on : Bool} {post : Unit → Machine → Prop} :
    Yields (setAccessed s p on) machine post ↔
      post () { machine with
        spaces := mark machine.spaces s p fun e => { e with accessed := on } } := yields_iff rfl

/-- A slot is claimed, if there is one. -/
@[simp] theorem yields_allocateSlot {post : Option Nat → Machine → Prop} :
    Yields allocateSlot machine post ↔ ∀ slot slots,
      machine.swap.slots.allocate = .ok (slot, slots) →
        post slot { machine with swap := { machine.swap with slots } } := by
  simp only [allocateSlot, yields_bind, yields_swap, yields_ofExcept, SwapStore.allocate]
  cases machine.swap.slots.allocate with
  | error halt => simp
  | ok result =>
    obtain ⟨slot, slots⟩ := result
    simp

/-- A slot is given back. -/
@[simp] theorem yields_releaseSlot {slot : Nat} {post : Unit → Machine → Prop} :
    Yields (releaseSlot slot) machine post ↔ ∀ slots, machine.swap.slots.free slot = .ok slots →
      post () { machine with swap := { machine.swap with slots } } := by
  simp only [releaseSlot, yields_bind, yields_swap, yields_ofExcept, yields_setSwap,
    SwapStore.release]
  cases machine.swap.slots.free slot with
  | error halt => simp
  | ok slots => simp

/-- A page is in memory again: its entry is settled, it is marked as changed if it has a file, and its slot
is given back. -/
theorem yields_settleSwapIn {copy : SwapCopy} {fileBacked : Bool} :
    Yields (settleSwapIn s p copy fileBacked) machine fun _ after => ∃ made slots,
      MovedIn machine.spaces s p made ∧ after = { machine with
        spaces := if fileBacked then mark made s p ({ · with dirty := true }) else made
        swap := { machine.swap with slots } } := by
  by_cases hs : s < machine.spaces.size
  · obtain ⟨made, hmoved, hrun⟩ := exists_movedIn (p := p) hs copy fileBacked
    rw [Yields, hrun]
    exact yields_releaseSlot.mpr fun slots _ => ⟨made, slots, hmoved, rfl⟩
  · refine yields_bind.mpr (yields_supplement.mpr fun space hspace => ?_)
    exact absurd (Array.getElem?_eq_some_iff.mp hspace).1 hs

/-- What becomes of the tables and slots of a machine when a victim is let go: its page is not wanted; or its
entry is brought up to date; or it is gone, and a copy of the page is given up. -/
inductive Finished (before : Machine) (transit : Transit) :
    Option SwapCopy → Array AddressSpace → SlotBitmap → Prop
  | discarded {copy : Option SwapCopy} (hplan : transit.plan = .discard) :
      Finished before transit copy before.spaces before.swap.slots
  | released {copy : Option SwapCopy} (hplan : transit.plan ≠ .discard) :
      Finished before transit copy (amend before.spaces transit.owner transit.page (·.saved copy))
        before.swap.slots
  | gone (hplan : transit.plan ≠ .discard) : Finished before transit none before.spaces before.swap.slots
  | givenUp {copy : SwapCopy} {slots : SlotBitmap} (hplan : transit.plan ≠ .discard)
      (hfree : before.swap.slots.free copy.slot = .ok slots) :
      Finished before transit (some copy) before.spaces slots

/-- All that `finish` can do: the frame is cleared, and something is said. -/
theorem yields_finished (transit : Transit) (copy : Option SwapCopy) :
    Yields (finish transit copy) machine fun _ after => transit.frame < machine.frames.memory.size ∧
      ∃ spaces slots notice, Finished machine transit copy spaces slots ∧ after = { machine with
        frames := { machine.frames with
          memory := machine.frames.memory.setPage transit.frame Page.blank }
        spaces, swap := { machine.swap with slots }, notices := machine.notices.push notice } := by
  refine yields_bind.mpr ((ensures_zero.mpr fun content hcontent => ?_).yields)
  have hlt := FrameMemory.lt_size_of_page hcontent
  -- whatever is done to the tables and slots, what is said about it comes last
  have hnotify : ∀ {spaces slots}, Finished machine transit copy spaces slots →
      Yields (do
        notify (.evicted (← space transit.owner).pid transit.page transit.frame (copy.map (·.slot))))
        { machine with
          frames := { machine.frames with
            memory := machine.frames.memory.setPage transit.frame Page.blank }
          spaces, swap := { machine.swap with slots } } fun _ after =>
            transit.frame < machine.frames.memory.size ∧ ∃ spaces slots notice,
              Finished machine transit copy spaces slots ∧ after = { machine with
                frames := { machine.frames with
                  memory := machine.frames.memory.setPage transit.frame Page.blank }
                spaces, swap := { machine.swap with slots }, notices := machine.notices.push notice } :=
    fun hfinished => yields_bind.mpr (yields_space.mpr fun _ _ =>
      yields_notify.mpr ⟨hlt, _, _, _, hfinished, rfl⟩)
  refine yields_ite (fun hplan => hnotify (.discarded hplan)) fun hplan => ?_
  refine yields_bind.mpr (yields_supplement.mpr fun space hspace => ?_)
  cases space.supplement.find? transit.page with
  | some info =>
    cases copy with
    | some copy => exact yields_bind.mpr (yields_modifyInfo.mpr (hnotify (.released hplan)))
    | none => exact yields_bind.mpr (yields_modifyInfo.mpr (hnotify (.released hplan)))
  | none =>
    cases copy with
    | some copy =>
      exact yields_bind.mpr (yields_releaseSlot.mpr fun _ hfree => hnotify (.givenUp hplan hfree))
    | none => exact hnotify (.gone hplan)

end Transition

/-! ### Outcomes of operations -/

/-- What may be said of the answers of operations in `m` when the machine may become any that is in the
relation `others`, with a rule for each way in which operations are built. -/
structure Outcomes (m : Type → Type) [Kernel m] (others : Machine → Machine → Prop)
    (evicts : Prop) extends Rules m where
  atomically : ∀ {α : Type} {step : Transition α} {machine : Machine} {post : α → Machine → Prop},
    (∀ met, others machine met → step.Yields met post) →
      Yields (Kernel.atomically step) machine post
  interrupt : ∀ {event : Event} {machine : Machine} {post : Unit → Machine → Prop},
    (∀ met, others machine met → post () met) → Yields (Kernel.interrupt event) machine post
  /-- While nobody may evict, whoever needs to never answers. -/
  waits : ∀ {α : Type} {work : m α} {machine : Machine} {post : α → Machine → Prop}, ¬ evicts →
    Yields (Kernel.holding .eviction work) machine post

namespace Outcomes

/-- The outcomes of uninterrupted runs. -/
def alone : Outcomes Transition Eq True where
  Yields := Transition.Yields
  mono := Transition.Yields.mono
  pure := Transition.yields_pure.mpr
  bind := Transition.yields_bind.mpr
  atomically h := h _ rfl
  interrupt h := Transition.yields_pure.mpr (h _ rfl)
  holding h := h
  waits h := absurd trivial h

/-- The outcomes of runs that others come in between. -/
def woven (others : Machine → Machine → Prop) : Outcomes (Woven others) others True where
  Yields work machine post := ∀ a after, work machine (.ok a after) → post a after
  mono h hw a after hrun := hw a after (h a after hrun)
  pure := by
    rintro _ a machine post hpost _ _ ⟨⟩
    exact hpost
  bind := by
    rintro _ _ work next machine post h b after (⟨a, middle, hwork, hnext⟩ | ⟨_, _, -, heq⟩)
    · exact h a middle hwork b after hnext
    · cases heq
  atomically := by
    rintro _ step machine post h a after ⟨met, hothers, hrun⟩
    exact h met hothers a after hrun.symm
  interrupt := by
    rintro event machine post h _ after ⟨met, hothers, heq⟩
    cases heq
    exact h after hothers
  holding h := h
  waits h := absurd trivial h

/-- An operation that needs what is held already never goes on. -/
theorem holding_attended {σ α : Type} (resource : Resource) (work : Attended σ α) (watch : Watch σ) :
    (Kernel.holding resource work : Attended σ α) watch = if resource ∈ watch.held then throw .blocked
      else work { watch with held := resource :: watch.held } := rfl

/-- The outcomes of what runs while somebody else has the right to evict. The attendant does no more
than `others` at an event. -/
def waiting {σ : Type} {others : Machine → Machine → Prop} (hrefl : ∀ machine, others machine machine)
    (attendant : List Resource → Event → Visit σ Unit)
    (hattendant : ∀ held event before notes after notes',
      attendant held event (before, notes) = .ok () (after, notes') → others before after) :
    Outcomes (Attended σ) others False where
  Yields work machine post := ∀ held notes, Resource.eviction ∈ held → ∀ a after notes',
    work { attendant, held } (machine, notes) = .ok a (after, notes') → post a after
  mono h hw held notes hheld a after notes' hrun := hw a after (h held notes hheld a after notes' hrun)
  pure := by
    rintro _ a machine post hpost held notes - _ _ _ ⟨⟩
    exact hpost
  bind := by
    intro _ _ work next machine post h held notes hheld b after notes' hrun
    change EStateM.bind (work { attendant, held }) (fun a => next a { attendant, held })
      (machine, notes) = _ at hrun
    rw [EStateM.bind] at hrun
    split at hrun
    · rename_i a middle hwork
      exact h held notes hheld a middle.1 middle.2 hwork held middle.2 hheld b after notes' hrun
    · cases hrun
  atomically := by
    rintro _ step machine post h held notes - a after notes' hrun
    change Visit.ofTransition step (machine, notes) = _ at hrun
    simp only [Visit.ofTransition] at hrun
    split at hrun
    · rename_i _ _ hstep
      cases hrun
      exact h machine (hrefl machine) a after hstep
    · cases hrun
  interrupt := by
    rintro event machine post h held notes - _ after notes' hrun
    exact h after (hattendant held event machine notes after notes' hrun)
  holding := by
    intro _ resource work machine post h held notes hheld a after notes' hrun
    rw [holding_attended] at hrun
    split at hrun
    · cases hrun
    · exact h (resource :: held) notes (List.mem_cons_of_mem _ hheld) a after notes' hrun
  waits := by
    rintro _ work machine post - held notes hheld a after notes' hrun
    rw [holding_attended, if_pos hheld] at hrun
    cases hrun

end Outcomes

end DemandPaging
