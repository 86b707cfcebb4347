import DemandPaging.Proofs.SteadyCopies
import DemandPaging.Proofs.SteadyTeardowns

/-!
# Histories

A `History` is what may happen when nobody is careful which pages are named: calls of the memory
manager and things done from outside, one after another. A call may be carried out by itself, or files
and devices may change and fail while it goes on (`Call.Performs`). A *careful* history adds no stack
page where a mapped file belongs; that is all that it takes for records and mappings to agree.

The machine is steady throughout (`History.steady`), and there are no anonymous entries in it unless
some call failed for want of swap.
-/

set_option autoImplicit false

namespace DemandPaging

open Spaces Machine Transition

/-! ### Calls -/

namespace Call

/-- The frame table is not asked for frames directly. -/
def Public : Call → Prop
  | registerPage .. | registerSegment .. | mapFile .. | unmapFile .. | resolveFault ..
  | handleFault .. | growStack .. | copyFromUser .. | copyToUser .. | destroy .. => True
  | allocate .. | allocateFor .. | bind .. | unpin .. | free .. | freeOwnedBy .. => False

/-- The call adds no stack page where a mapped file belongs. -/
def Careful (machine : Machine) : Call → Prop
  | growStack s address => IsPrivate machine.spaces s (pageOf address)
  | _ => True

/-- A call that may be made in a run is public. -/
theorem public_of_permitted {machine : Machine} (c : Call) (h : c.Permitted machine) : c.Public := by
  cases c <;> first | exact trivial | exact h

/-- A call that may be made in a run adds no stack page where there is an entry. -/
theorem careful_of_permitted {machine : Machine} (c : Call) (h : c.Permitted machine) :
    c.Careful machine := by
  cases c with
  | growStack s address =>
    intro segment hsegment
    rw [segment?, show info? machine.spaces s (pageOf address) = none from h] at hsegment
    cases hsegment
  | registerPage | registerSegment | mapFile | unmapFile | resolveFault | handleFault | copyFromUser
  | copyToUser | destroy | allocate | allocateFor | bind | unpin | free | freeOwnedBy => trivial

/-- The call was carried out: nobody came in between, or files and devices changed while it went on. -/
inductive Performs (c : Call) (before : Machine) (reply : Reply) (after : Machine) : Prop where
  | alone (h : (Kernel.perform c : Transition Reply) before = .ok reply after)
  | among (h : (Kernel.perform c : Woven Machine.Devices Reply) before (.ok reply after))

/-- What holds of all outcomes holds of a call that was carried out. -/
theorem Performs.of_yields {c : Call} {before after : Machine} {reply : Reply}
    (h : c.Performs before reply after) {post : Reply → Machine → Prop}
    (hyields : ∀ {m : Type → Type} [Kernel m] {others : Machine → Machine → Prop}
      (O : Outcomes m others True), (∀ a b, others a b → a.Devices b) →
        O.Yields (Kernel.perform c) before post) : post reply after := by
  cases h with
  | alone h => exact hyields Outcomes.alone (fun a b heq => heq ▸ .refl a) reply after h
  | among h => exact hyields (Outcomes.woven Machine.Devices) (fun _ _ h => h) reply after h

end Call

/-- Why a call failed, unless it is for an access that nobody may make. -/
def Reply.failure? : Reply → Option VmError
  | refused cause | faulted (.fatal cause) | read _ (some (.fatal cause)) => some cause
  | _ => none

/-- The terms on which a machine is steady after a call. -/
def Terms.afterReply (terms : Terms) (reply : Reply) : Terms :=
  match reply.failure? with
  | none => terms
  | some cause => terms.excusing cause

section

variable {terms : Terms} {m m' : Machine}

/-- A fault that failed changes the terms as the failure does. -/
theorem Terms.afterReply_faulted (terms : Terms) (cause : FaultError) :
    terms.afterReply (.faulted cause) = terms.afterFault cause := by
  cases cause <;> rfl

/-- A copy from user memory that failed changes the terms as the fault that it met. -/
theorem Terms.afterReply_read (terms : Terms) (data : Bytes) (cause : FaultError) :
    terms.afterReply (.read data (some cause)) = terms.afterFault cause := by
  cases cause <;> rfl

/-- What is done from outside leaves a steady machine steady. -/
theorem Machine.Steady.outside (h : m.Steady terms [] []) (ho : Outside m m') :
    m'.Steady terms [] [] := by
  have hrelisted : Relisted m.spaces m'.spaces := by
    refine ⟨fun s p info hi => (ho.info s p).symm.trans hi, fun s p _ _ _ => ho.frame s p,
      fun s new hs => ?_, fun s p info hi htorn => ?_⟩
    · rcases ho.standing s with hsame | ⟨-, pid, hnew⟩
      · exact .inr ⟨new, hsame.symm.trans hs, rfl⟩
      · obtain rfl := Option.some.inj (hnew.symm.trans hs)
        exact .inl rfl
    · rcases ho.standing s with hsame | ⟨-, pid, hnew⟩
      · exact htorn.congr hsame.symm
      · obtain ⟨_, hstanding, hd⟩ := htorn
        obtain rfl := Option.some.inj (hnew.symm.trans hstanding)
        cases hd
  refine ⟨ho.frames ▸ h.pool, ho.frames ▸ h.bound, fun s p frame hp hframe => ?_,
    h.tables.relist hrelisted ?_ ?_, fun hcareful s p => ?_, fun inFrame inSlot hsome => ?_⟩
  · rw [ho.frames]
    exact h.recorded s p frame hp ((ho.frame s p).symm.trans hframe)
  · simpa only [ho.mapping?, Whole, ho.segment] using h.tables.whole
  · simpa only [ho.mapping?] using h.tables.disjoint
  · obtain ⟨hmapped, htruthful⟩ := h.honest hcareful s p
    rw [ho.frames]
    exact ⟨by simpa only [ho.frame] using hmapped, by simpa only [ho.info, ho.frame] using htruthful⟩
  · obtain ⟨hframes, hslots⟩ := h.untouched inFrame inSlot hsome
    rw [ho.frames]
    exact ⟨hframes, fun slot k => (ho.disk slot k).trans (hslots slot k)⟩

/-- A call leaves a steady machine steady, whichever pages it names. -/
theorem Outcomes.perform {μ : Type → Type} [Kernel μ] {others : Machine → Machine → Prop}
    {evicts : Prop} (O : Outcomes μ others evicts)
    (hallows : ∀ before after, others before after → terms.Allows before after)
    (h : m.Steady terms [] []) (hidle : evicts → terms.Idle) {c : Call} (hpublic : c.Public)
    (hcareful : terms.careful → c.Careful m) :
    O.Yields (Kernel.perform c) m fun reply after => after.Steady (terms.afterReply reply) [] [] := by
  have hrefused : ∀ {after : Machine}, after.Steady terms [] [] → ∀ outcome : Except VmError Unit,
      after.Steady (terms.afterReply (.ofVm outcome)) [] [] := by
    intro after hafter outcome
    cases outcome with
    | ok u => exact hafter
    | error cause => exact hafter.excusing cause
  cases c with
  | registerPage s f offset page readBytes zeroBytes writable =>
    refine O.bind (O.holding (O.step hallows fun met hmet => ?_))
    exact ((h.allows hmet).registerPage f offset page readBytes zeroBytes writable).mono
      fun outcome after hafter => O.pure (hrefused hafter outcome)
  | registerSegment s f offset page readBytes zeroBytes writable =>
    refine O.bind (O.holding (O.step hallows fun met hmet => ?_))
    exact ((h.allows hmet).registerSegment f offset page readBytes zeroBytes writable).mono
      fun outcome after hafter => O.pure (hrefused hafter outcome)
  | mapFile s f page =>
    refine O.bind (O.mono (O.mapFile hallows h f page) fun outcome after hafter => O.pure ?_)
    cases outcome with
    | ok id => exact hafter
    | error cause => exact hafter.excusing cause
  | unmapFile s id =>
    exact O.bind (O.mono (O.unmapFile hallows h hidle id) fun outcome after hafter =>
      O.pure (hrefused hafter outcome))
  | resolveFault s address stackPointer code =>
    refine O.bind (O.mono (O.resolveFault hallows h hidle address stackPointer code)
      fun outcome after hafter => O.pure ?_)
    cases outcome with
    | ok u => exact hafter
    | error cause =>
      rw [Reply.ofFault, Terms.afterReply_faulted]
      exact hafter.steady
  | handleFault s address stackPointer code =>
    exact O.bind (O.mono (O.handleFault hallows h hidle address stackPointer code)
      fun outcome after hafter => O.pure hafter)
  | growStack s address =>
    refine O.bind (O.mono (O.growStack hallows h hidle address) fun outcome after hafter => O.pure ?_)
    cases outcome with
    | ok u => exact hafter hcareful
    | error cause => exact hafter.steady
  | copyFromUser s start length stackPointer =>
    refine O.bind (O.mono (O.copyFromUser hallows hidle start length stackPointer h) ?_)
    rintro ⟨data, (cause | u)⟩ after hafter
    · refine O.pure ?_
      rw [Reply.ofRead, Terms.afterReply_read]
      exact hafter
    · exact O.pure hafter
  | copyToUser s start data stackPointer =>
    refine O.bind (O.mono (O.copyToUser hallows hidle start data stackPointer h)
      fun outcome after hafter => O.pure ?_)
    cases outcome with
    | ok u => exact hafter
    | error cause =>
      rw [Reply.ofFault, Terms.afterReply_faulted]
      exact hafter
  | destroy s =>
    exact O.bind (O.mono (O.destroy hallows h hidle) fun u after hafter => O.pure hafter)
  | allocate | allocateFor | bind | unpin | free | freeOwnedBy => exact hpublic.elim

end

/-! ### Histories -/

/-- What happened from `start` on, oldest first, and the machine that it led to. -/
inductive History (careful : Prop) (start : Machine) : List Moment → Machine → Prop where
  | nil : History careful start [] start
  | call {moments : List Moment} {before after : Machine} {c : Call} {reply : Reply}
      (h : History careful start moments before) (hpublic : c.Public)
      (hcareful : careful → c.Careful before) (hperforms : c.Performs before reply after) :
      History careful start (moments ++ [⟨.call c, reply, before, after⟩]) after
  | outside {moments : List Moment} {before after : Machine} {action : Action} {reply : Reply}
      (h : History careful start moments before) (hcall : ∀ c, action ≠ .call c)
      (hstep : action.step before = .ok reply after) :
      History careful start (moments ++ [⟨action, reply, before, after⟩]) after

/-- Some actions are carried out one after another. -/
theorem History.steps {start before : Machine} {moments : List Moment} {actions : List Action}
    (hpublic : ∀ c, Action.call c ∈ actions → c.Public) (h : History False start moments before)
    {replies : List Reply} {after : Machine} (hsteps : Action.steps actions before = .ok replies after) :
    ∃ later, History False start (moments ++ later) after ∧ later.map (·.action) = actions ∧
      later.map (·.reply) = replies := by
  induction actions generalizing before moments replies with
  | nil =>
    cases hsteps
    exact ⟨[], (List.append_nil moments).symm ▸ h, rfl, rfl⟩
  | cons action rest ih =>
    obtain ⟨reply, middle, others, hstep, hrest, rfl⟩ := step_of_steps hsteps
    have hnext : History False start (moments ++ [⟨action, reply, before, middle⟩]) middle := by
      cases action with
      | call c => exact h.call (hpublic c List.mem_cons_self) False.elim (.alone hstep)
      | addSpace | addFile | changeFile | turnDisk => exact h.outside (by simp) hstep
    obtain ⟨later, hlater, hactions, hreplies⟩ := ih
      (fun c hc => hpublic c (List.mem_cons_of_mem _ hc)) hnext hrest
    refine ⟨⟨action, reply, before, middle⟩ :: later, ?_, ?_, ?_⟩
    · simpa using hlater
    · rw [List.map_cons, hactions]
    · rw [List.map_cons, hreplies]

/-- A run is a careful history. -/
theorem Run.history {start machine : Machine} {moments : List Moment} (h : Run start moments machine)
    (careful : Prop) : History careful start moments machine := by
  induction h with
  | nil => exact .nil
  | @snoc moments before after action reply _ hpermitted hstep ih =>
    cases action with
    | call c =>
      refine ih.call (c.public_of_permitted hpermitted) (fun _ => ?_) (.alone hstep)
      exact c.careful_of_permitted hpermitted
    | addSpace | addFile | changeFile | turnDisk => exact ih.outside (by simp) hstep

/-- Some call failed because a page did not fit into swap or the swap device failed. -/
def FailedOnSwap (moments : List Moment) : Prop :=
  ∃ moment ∈ moments, ∃ cause, moment.reply.failure? = some cause ∧ cause.OfSwap

/-- What failed on swap once has failed for good. -/
theorem FailedOnSwap.append {moments : List Moment} (h : FailedOnSwap moments) (moment : Moment) :
    FailedOnSwap (moments ++ [moment]) := by
  obtain ⟨earlier, hmem, hfailed⟩ := h
  exact ⟨earlier, List.mem_append_left _ hmem, hfailed⟩

/-- Terms for a machine with a past. -/
def Terms.since (careful : Prop) (moments : List Moment) : Terms :=
  { careful, leftover := FailedOnSwap moments }

/-- Between two actions nothing is on its way. -/
theorem Terms.idle_since (careful : Prop) (moments : List Moment) : (since careful moments).Idle :=
  ⟨rfl, rfl, rfl⟩

section

variable {careful : Prop} {start machine : Machine} {moments : List Moment}

/-- A machine that was just started is steady, and nothing has failed yet. -/
theorem Machine.Fresh.steady (h : start.Fresh) : start.Steady (.since careful []) [] [] := by
  have hsettled := h.settled
  have hrecords : start.frames.records = [] := by
    obtain ⟨size, placement, hframes⟩ := h.frames
    rw [hframes]
    rfl
  have hframe : ∀ s p f, frame? start.spaces s p ≠ some f := by
    intro s p f
    rw [frame?, h.mapped?]
    simp
  refine ⟨hsettled.pool, fun r hr => ?_, fun s p f _ hf => absurd hf (hframe s p f), ⟨?_, ?_, ?_, ?_,
    ?_, ?_, ?_⟩, fun _ s p => ⟨fun r hr => ?_, fun _ _ f _ _ _ _ hf => absurd hf (hframe s p f)⟩,
    Terms.untouched_of_none rfl _⟩
  · rw [hrecords] at hr
    cases hr
  · simp [h.standing?]
  · simp [h.info?]
  · simp [h.info?]
  · simp [h.info?]
  · simp [h.info?]
  · simp [Spaces.mapping?, h.standing?]
  · simp [Spaces.mapping?, h.standing?]
  · rw [hrecords] at hr
    cases hr

/-- What a call leaves is steady for one more moment. -/
theorem Machine.Steady.answered {after : Machine} {moment : Moment}
    (h : after.Steady ((Terms.since careful moments).afterReply moment.reply) [] []) :
    after.Steady (.since careful (moments ++ [moment])) [] [] := by
  unfold Terms.afterReply at h
  cases hfailure : moment.reply.failure? with
  | none =>
    rw [hfailure] at h
    exact h.leaving fun hfailed => hfailed.append _
  | some cause =>
    rw [hfailure] at h
    refine h.leaving ?_
    rintro (hfailed | hswap)
    · exact hfailed.append _
    · exact ⟨_, List.mem_append_right _ (List.mem_singleton.mpr rfl), cause, hfailure, hswap⟩

/-- The machine is steady throughout. -/
theorem History.steady (h : History careful start moments machine) (hfresh : start.Fresh) :
    machine.Steady (.since careful moments) [] [] := by
  induction h with
  | nil => exact hfresh.steady
  | call _ hpublic hcareful hperforms ih =>
    exact Machine.Steady.answered (hperforms.of_yields fun O hothers => O.perform
      (fun a b hab => (hothers a b hab).allowed rfl) ih (fun _ => Terms.idle_since _ _) hpublic hcareful)
  | outside _ hcall hstep ih =>
    exact (ih.outside ((Transition.ensures_outside hcall).of_ok hstep)).leaving fun hfailed =>
      hfailed.append _

end

end DemandPaging
