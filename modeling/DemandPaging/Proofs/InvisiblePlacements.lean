import DemandPaging.Proofs.Runs
import DemandPaging.Proofs.TwinCalls

/-!
# Placement is invisible

Two machines that start up with the same configuration, but for how frames are placed, cannot be told
apart by what is done with them. Whatever is done, either both halt, and for the same reason; or both
give the same answers, and what they are left as are twins (`Machine.Twin`): their records are the same
in the same order, the clock stands at the same place, and pins, page directories and contents are the
same under some renaming of frames. Supplemental page tables, swap and files are simply the same
(`Action.steps_placement`).

One action keeps twins twins (`Machine.Twin.step`), under a renaming that need not be the old one; any
number of actions does, by induction.
-/

set_option autoImplicit false

namespace DemandPaging

open Spaces Transition

/-- The sizes of a machine. -/
def Machine.sizes (machine : Machine) : Sizes where
  frames := machine.frames.capacity
  slots := machine.swap.slotCount
  sectors := machine.swap.device.size

section

variable {sizes : Sizes} {σ : Equiv.Perm Nat} {a b : Machine}

/-! ### One action -/

/-- The same is answered to the same outcome. -/
theorem Transition.agree_reply {α : Type} {step other : Transition α} (reply : α → Reply)
    (h : Agree step other a b (Machine.Paired sizes)) :
    Agree (do return reply (← step)) (do return reply (← other)) a b (Machine.Paired sizes) := by
  refine h.bind ?_
  rintro x _ a b ⟨rfl, hpaired⟩
  exact ⟨rfl, hpaired⟩

/-- Steps that leave twins leave machines that only differ in the frames they use. -/
theorem Machine.Twin.paired {α : Type} {step other : Transition α}
    (h : Agree step other a b (Same sizes σ none)) : Agree step other a b (Machine.Paired sizes) :=
  h.mono fun _ _ _ _ hsame => hsame.paired

/-- Twins answer a call alike. -/
theorem Machine.Twin.perform (h : a.Twin sizes σ none b) (hs : a.Steady {} [] []) {c : Call}
    (hpublic : c.Public) :
    Agree (Kernel.perform c) (Kernel.perform c) a b (Machine.Paired sizes) := by
  cases c with
  | registerPage s f offset page readBytes zeroBytes writable =>
    exact agree_reply _ (paired (h.registerPage s f offset page readBytes zeroBytes writable))
  | registerSegment s f offset page readBytes zeroBytes writable =>
    exact agree_reply _ (paired (h.registerSegment s f offset page readBytes zeroBytes writable))
  | mapFile s f page => exact agree_reply _ (paired (h.mapFile s f page))
  | unmapFile s id => exact agree_reply _ (paired (h.removeMapping s id))
  | resolveFault s address sp code => exact agree_reply _ (h.resolveFault hs s address sp code)
  | handleFault s address sp code => exact agree_reply _ (h.handleFault hs s address sp code)
  | growStack s address => exact agree_reply _ (h.growStack hs s address)
  | copyFromUser s start length sp => exact agree_reply _ (h.copyFromUser hs s start length sp)
  | copyToUser s start data sp => exact agree_reply _ (h.copyToUser hs s start data sp)
  | destroy s => exact agree_reply (fun _ => .done) (paired (h.destroy hs s))
  | allocate | allocateFor | bind | unpin | free | freeOwnedBy => exact hpublic.elim

/-- Twins stay twins whatever is done from outside. -/
theorem Machine.Twin.outside (h : a.Twin sizes σ none b) {action : Action}
    (hcall : ∀ c, action ≠ .call c) :
    Agree action.step action.step a b (Same sizes σ none) := by
  cases action with
  | call c => exact absurd rfl (hcall c)
  | addSpace pid =>
    refine ⟨rfl, h.withSpaces ?_⟩
    rw [h.spaces, renamed, renamed, Array.map_push, AddressSpace.rename_ofPid]
  | addFile file => exact ⟨rfl, h.withFiles (by rw [h.files])⟩
  | changeFile f file => exact ⟨rfl, h.withFiles (by rw [h.files])⟩
  | turnDisk failReads failWrites => exact ⟨rfl, h.withSwap (by rw [h.swap]) rfl rfl⟩

/-- The action asks for no frames directly. -/
def Action.Public : Action → Prop
  | call c => c.Public
  | _ => True

/-- Twins answer an action alike and are twins afterwards, and a steady machine is steady. -/
theorem Machine.Twin.step (h : a.Twin sizes σ none b) (hs : a.Steady {} [] []) {action : Action}
    (hpublic : action.Public) :
    Agree action.step action.step a b fun reply reply' a b =>
      Machine.Paired sizes reply reply' a b ∧ a.Steady {} [] [] := by
  cases action with
  | call c =>
    refine (h.perform hs hpublic).left ?_
    refine Yields.mono (Outcomes.alone.perform (Terms.allows_of_eq {}) hs
      (fun _ => Terms.idle_default) hpublic False.elim) fun reply after hafter => ?_
    unfold Terms.afterReply at hafter
    cases hfailure : reply.failure? with
    | none =>
      rw [hfailure] at hafter
      exact hafter
    | some cause =>
      rw [hfailure] at hafter
      exact hafter.leaving fun _ => trivial
  | addSpace | addFile | changeFile | turnDisk =>
    refine ((h.outside (by simp)).mono fun _ _ _ _ hsame => hsame.paired).left ?_
    exact ((ensures_outside (by simp)).mono fun _ _ houtside => hs.outside houtside).yields

/-! ### Any number of actions -/

/-- Twins answer actions alike and are twins afterwards. -/
theorem Machine.Twin.steps (h : a.Twin sizes σ none b) (hs : a.Steady {} [] []) {actions : List Action}
    (hpublic : ∀ action ∈ actions, action.Public) :
    Agree (Action.steps actions) (Action.steps actions) a b fun replies replies' a b =>
      Machine.Paired sizes replies replies' a b ∧ a.Steady {} [] [] := by
  induction actions generalizing σ a b with
  | nil => exact ⟨⟨rfl, σ, h⟩, hs⟩
  | cons action rest ih =>
    rw [Action.steps, List.mapM_cons]
    refine (h.step hs (hpublic action List.mem_cons_self)).bind ?_
    rintro reply _ a b ⟨⟨rfl, σ, h⟩, hs⟩
    refine (ih h hs fun later hlater => hpublic later (List.mem_cons_of_mem _ hlater)).bind ?_
    rintro replies _ a b ⟨⟨rfl, hpaired⟩, hs⟩
    exact ⟨⟨rfl, hpaired⟩, hs⟩

end

/-! ### From the start -/

/-- Tables of free frames are twins, whatever their policies. -/
theorem FrameTable.twin_ofSize {size : Nat} (hsmall : size ≤ maxFrame + 1) (placement policy : Placement) :
    (ofSize size placement).Twin size (Equiv.refl Nat) none (ofSize size policy) :=
  ⟨.refl hsmall, Array.size_replicate, Array.size_replicate, Array.size_replicate, rfl, rfl,
    ⟨fun _ => rfl, rfl, rfl⟩, fun _ _ _ _ => rfl⟩

/-- Machines that start up with different policies are twins. -/
theorem Machine.twin_boot {config : Config} {available : Nat}
    (hsmall : config.poolFrames available ≤ maxFrame + 1) (device : Block) (policy : Placement) :
    (boot config available device).Twin (boot config available device).sizes (Equiv.refl Nat) none
      (boot { config with placement := policy } available device) := by
  have hsize : (boot config available device).sizes.frames = config.poolFrames available :=
    Array.size_replicate
  refine ⟨?_, (Array.map_empty).symm, rfl, rfl, rfl, rfl, rfl⟩
  rw [hsize]
  exact FrameTable.twin_ofSize hsmall config.placement policy

/-- A fresh machine is a twin of itself. -/
theorem Machine.Fresh.twin {start : Machine} (hfresh : start.Fresh)
    (hsmall : start.frames.capacity ≤ maxFrame + 1) :
    start.Twin start.sizes (Equiv.refl Nat) none start := by
  refine ⟨?_, ?_, rfl, rfl, rfl, rfl, rfl⟩
  · obtain ⟨size, placement, hframes⟩ := hfresh.frames
    have hsize : start.frames.capacity = size := by
      rw [hframes]
      exact Array.size_replicate
    rw [sizes, hsize, hframes]
    exact FrameTable.twin_ofSize (hsize ▸ hsmall) placement placement
  · rw [hfresh.spaces]
    exact (Array.map_empty).symm

/-- Along a run a machine has a twin, and it is steady. -/
theorem Run.twin {start : Machine} (hfresh : start.Fresh)
    (hsmall : start.frames.capacity ≤ maxFrame + 1) {moments : List Moment} {machine : Machine}
    (h : Run start moments machine) :
    machine.Steady {} [] [] ∧ ∃ σ other, machine.Twin start.sizes σ none other := by
  induction h with
  | nil =>
    have hsteady : start.Steady (.since False []) [] [] := hfresh.steady
    exact ⟨hsteady.leaving fun _ => trivial, _, _, hfresh.twin hsmall⟩
  | @snoc moments before after action reply _ hpermitted hstep ih =>
    obtain ⟨hs, σ, other, htwin⟩ := ih
    have hpublic : action.Public := by
      cases action with
      | call c => cases c <;> trivial
      | addSpace | addFile | changeFile | turnDisk => trivial
    obtain ⟨_, after', hboth, hs'⟩ := (htwin.step hs hpublic).of_ok hstep
    exact ⟨hs', hboth.2.imp fun σ h => ⟨after', h⟩⟩

/-- How many frames, slots and sectors there are never changes. -/
theorem Run.sizes_eq {start : Machine} (hfresh : start.Fresh)
    (hsmall : start.frames.capacity ≤ maxFrame + 1) {moments : List Moment} {machine : Machine}
    (h : Run start moments machine) : machine.sizes = start.sizes := by
  obtain ⟨-, σ, other, htwin⟩ := h.twin hfresh hsmall
  unfold Machine.sizes
  rw [show machine.frames.capacity = _ from htwin.frames.size, htwin.slots, htwin.sectors]
  rfl

/-- Two machines that start up alike but for how frames are placed answer alike whatever is done with
them, and differ afterwards only in which frame is where. -/
theorem Action.steps_placement {config : Config} {available : Nat}
    (hsmall : config.poolFrames available ≤ maxFrame + 1) (device : Block) (policy : Placement)
    {actions : List Action} (hpublic : ∀ action ∈ actions, action.Public) :
    Agree (Action.steps actions) (Action.steps actions) (.boot config available device)
      (.boot { config with placement := policy } available device) fun replies replies' a b =>
        replies' = replies ∧ ∃ σ : Equiv.Perm Nat,
          a.Twin (Machine.boot config available device).sizes σ none b ∧
            ∀ s p frame, IsAligned p → frame? a.spaces s p = some frame →
              ∀ k, b.frames.memory.byte? (σ frame) k = a.frames.memory.byte? frame k := by
  have hsteady : (Machine.boot config available device).Steady (.since False []) [] [] :=
    (Machine.fresh_boot config available device).steady
  refine ((Machine.twin_boot hsmall device policy).steps (hsteady.leaving fun _ => trivial)
    hpublic).mono ?_
  rintro replies _ a b ⟨⟨rfl, σ, h⟩, hs⟩
  refine ⟨rfl, σ, h, fun s p frame hp hframe k => ?_⟩
  exact h.frames.bytes frame (hs.isAllocated (hs.recorded s p frame hp hframe)) (by simp) k

/-- A frame is given back when a space is torn down. First fit takes it for the stack of the next space;
next fit takes the other one. -/
theorem steps_placement_sample : ∃ replies a b, ∃ σ : Equiv.Perm Nat,
    Action.steps [.addSpace 1, .call (.growStack 0 0x7ffff000), .call (.destroy 0), .addSpace 2,
        .call (.copyToUser 1 0x7ffffff0 #[5] 0x7fffffe0)]
      (.boot {} 2 { name := "swap", kind := .swap, size := 16, disk := .ofSize 16 }) = .ok replies a ∧
    Action.steps [.addSpace 1, .call (.growStack 0 0x7ffff000), .call (.destroy 0), .addSpace 2,
        .call (.copyToUser 1 0x7ffffff0 #[5] 0x7fffffe0)]
      (.boot { placement := .firstFit } 2
        { name := "swap", kind := .swap, size := 16, disk := .ofSize 16 }) = .ok replies b ∧
    a.frames.records = [⟨1, 1, some 0x7ffff000⟩] ∧ b.frames.records = [⟨0, 1, some 0x7ffff000⟩] ∧
    σ 1 = 0 ∧ a.Twin ⟨2, 2, 16⟩ σ none b := by
  -- the actions have a name, so that nothing below carries them out but the kernel
  generalize hactions : ([.addSpace 1, .call (.growStack 0 0x7ffff000), .call (.destroy 0), .addSpace 2,
    .call (.copyToUser 1 0x7ffffff0 #[5] 0x7fffffe0)] : List Action) = actions
  have hsmall : ({} : Config).poolFrames 2 ≤ maxFrame + 1 := by decide
  have hpublic : ∀ action ∈ actions, action.Public := by
    subst hactions
    simp [Action.Public, Call.Public]
  have hagree := Action.steps_placement hsmall
    { name := "swap", kind := .swap, size := 16, disk := .ofSize 16 } .firstFit hpublic
  obtain ⟨replies, replies', a, b, ha, hb, ⟨rfl, σ, h, -⟩, hboth⟩ := hagree.exists_ok
    (p := fun a b => a.frames.records = [⟨1, 1, some 0x7ffff000⟩] ∧
      b.frames.records = [⟨0, 1, some 0x7ffff000⟩]) (by subst hactions; decide +kernel)
  obtain ⟨hrecords, hrecords'⟩ := of_decide_eq_true hboth
  have hname := h.frames.records
  rw [hrecords, hrecords'] at hname
  refine ⟨replies', a, b, σ, ha, hb, hrecords, hrecords', ?_, h⟩
  exact (congrArg FrameRecord.frame (List.head_eq_of_cons_eq hname)).symm

end DemandPaging
