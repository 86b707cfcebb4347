import DemandPaging.Proofs.Histories

/-!
# Evictions that fail

A fault or a growing stack needs a frame, and if there is none, a page must give way. If that page
cannot be written out, then nothing is lost (`History.failedEviction`): every page is mapped as it was,
all frames hold what they held, and the frames and slots are in use that were. The free slots are even
in the order in which they were, so they will be handed out as if nothing had happened.

Where a stack page was added over a page of a mapped file, there may be two frames for one page, and an
eviction that fails may map the other one; so histories are careful here.
-/

set_option autoImplicit false

namespace DemandPaging

open Spaces Machine Transition

/-- The call resolves a fault or adds a stack page. -/
def Call.FaultsOrGrows : Call → Prop
  | resolveFault .. | growStack .. => True
  | _ => False

/-- The call failed because the page of a victim could not be written out: it did not fit into swap, its
file could not be written, or the swap device failed before any frame was handed out. -/
def Reply.FailsToEvict (before : Machine) (reply : Reply) (after : Machine) : Prop :=
  ∃ cause, reply.failure? = some cause ∧ cause.OfWriteOut ∧
    ¬ ((∃ e, cause = .block e) ∧ before.HandsOut after)

section

variable {terms : Terms} {m before after start machine : Machine} {c : Call} {reply : Reply}
  {moments : List Moment}

/-- Between two calls nobody is at work on a frame. -/
theorem Machine.Steady.not_pinned {loose : List Nat} (h : m.Steady terms loose []) (frame : Nat) :
    m.frames.pool.isPinned frame = false := by
  rw [Bool.eq_false_iff]
  exact fun hpinned => List.not_mem_nil ((h.pool.isPinned_iff frame).mp hpinned)

/-- Whichever way a fault or a growing stack fails to make room, it is undone. -/
theorem Outcomes.reverted {μ : Type → Type} [Kernel μ] {others : Machine → Machine → Prop}
    {evicts : Prop} (O : Outcomes μ others evicts)
    (hallows : ∀ before after, others before after → terms.Allows before after)
    (h : m.Steady terms [] []) (hidle : evicts → terms.Idle) (hc : c.FaultsOrGrows) :
    O.Yields (Kernel.perform c) m fun reply after => reply.FailsToEvict m after →
      m.Reverted terms.careful after ∧ ∀ frame, after.frames.pool.isPinned frame = false := by
  have hrefused : ∀ {cause : VmError} {after : Machine}, m.Refuses terms cause after →
      (Reply.refused cause).FailsToEvict m after → m.Reverted terms.careful after ∧
        ∀ frame, after.frames.pool.isPinned frame = false := by
    rintro cause after hrefuses ⟨_, ⟨⟩, hwhy, hnot⟩
    exact ⟨(hrefuses.reverted hwhy).resolve_right hnot, hrefuses.steady.not_pinned⟩
  cases c with
  | resolveFault s address stackPointer code =>
    refine O.bind (O.mono (O.resolveFault hallows h hidle address stackPointer code)
      fun outcome after hafter => O.pure fun hfails => ?_)
    rcases outcome with (address | cause) | u
    · obtain ⟨_, ⟨⟩, -⟩ := hfails
    · exact hrefused hafter hfails
    · obtain ⟨_, ⟨⟩, -⟩ := hfails
  | growStack s address =>
    refine O.bind (O.mono (O.growStack hallows h hidle address) fun outcome after hafter =>
      O.pure fun hfails => ?_)
    cases outcome with
    | ok u => obtain ⟨_, ⟨⟩, -⟩ := hfails
    | error cause => exact hrefused hafter hfails
  | registerPage | registerSegment | mapFile | unmapFile | handleFault | copyFromUser | copyToUser
  | destroy | allocate | allocateFor | bind | unpin | free | freeOwnedBy => exact hc.elim

/-- A call that failed to make room is undone. -/
theorem History.reverted {careful : Prop} (h : History careful start moments before)
    (hfresh : start.Fresh) (hc : c.FaultsOrGrows) (hperforms : c.Performs before reply after)
    (hfails : reply.FailsToEvict before after) :
    before.Reverted careful after ∧ ∀ frame, after.frames.pool.isPinned frame = false := by
  have hafter : reply.FailsToEvict before after →
      before.Reverted careful after ∧ ∀ frame, after.frames.pool.isPinned frame = false :=
    hperforms.of_yields fun O hothers => O.reverted (fun a b hab => (hothers a b hab).allowed rfl)
      (h.steady hfresh) (fun _ => Terms.idle_since _ _) hc
  exact hafter hfails

/-- An eviction that fails loses nothing. Every page is mapped to the same frame with the same
permission, and counts as changed if it did; every frame holds the same bytes; the frames that are in use
have the same records and are not pinned; and the slots are as they were, in the same order. -/
theorem History.failedEviction (hfresh : start.Fresh) (h : History True start moments before)
    (hc : c.FaultsOrGrows) (hperforms : c.Performs before reply after)
    (hfails : reply.FailsToEvict before after) :
    (∀ s p, lasting? after.spaces s p = lasting? before.spaces s p) ∧
      after.frames.memory = before.frames.memory ∧
      after.frames.records.Perm before.frames.records ∧
      (∀ frame, after.frames.pool.isPinned frame = false) ∧
      after.swap.slots = before.swap.slots := by
  obtain ⟨hreverted, hpinned⟩ := h.reverted hfresh hc hperforms hfails
  refine ⟨fun s p => ?_, hreverted.memory_eq, hreverted.records, hpinned, hreverted.slots_eq⟩
  have hpage : ∀ spaces, lasting? spaces s (pageOf p) = lasting? spaces s p := fun spaces => by
    rw [lasting?, lasting?, mapped?_pageOf]
  rw [← hpage, ← hpage]
  exact hreverted.lasting trivial s _ (isAligned_pageOf p)

/-- If nothing was said, no frame was handed out. -/
theorem Machine.not_handsOut (h : after.notices.size = before.notices.size) :
    ¬ before.HandsOut after := by
  rintro ⟨said, hsaid, pid, frame, page, hmem⟩
  rw [hsaid, Array.size_append] at h
  have hpos := Array.size_pos_of_mem hmem
  omega

/-- The only frame has a page of a stack, the swap disk fails, and another stack is to grow. -/
theorem exists_failure : ∃ moments before after, Run .sample moments before ∧
    (∀ moment ∈ moments, moment.reply = .done) ∧ (mapped? before.spaces 0 0x7ffff000).isSome = true ∧
    (Call.growStack 1 0x7ffff000).Performs before (.refused (.block .writeError)) after ∧
    (Reply.refused (.block .writeError)).FailsToEvict before after := by
  obtain ⟨moments, before, replies, after, h, -, hsteps, hfacts⟩ := @exists_steps .sample
    [.addSpace 1, .call (.growStack 0 0x7ffff000), .addSpace 2, .turnDisk false true]
    [.call (.growStack 1 0x7ffff000)]
    (fun r r' => r'.1 = [.refused (.block .writeError)] ∧ (∀ moment ∈ r.1, moment.reply = .done) ∧
      (mapped? r.2.spaces 0 0x7ffff000).isSome = true ∧ r'.2.notices.size = r.2.notices.size)
    (by decide +kernel)
  obtain ⟨rfl, hdone, hmapped, hnotices⟩ := of_decide_eq_true hfacts
  obtain ⟨reply, middle, others, hstep, hrest, hreplies⟩ := step_of_steps hsteps
  obtain ⟨rfl, rfl⟩ := List.cons.inj hreplies
  cases hrest
  exact ⟨moments, before, after, h, hdone, hmapped, .alone hstep, _, rfl, .inl (.inr ⟨_, rfl⟩),
    fun hhands => not_handsOut hnotices hhands.2⟩

/-- A stack is to grow while the swap disk fails, and the other stack keeps its page. -/
theorem failedEviction_sample : ∃ moments before after, History True .sample moments before ∧
    (Call.growStack 1 0x7ffff000).Performs before (.refused (.block .writeError)) after ∧
    (Reply.refused (.block .writeError)).FailsToEvict before after ∧
    (mapped? before.spaces 0 0x7ffff000).isSome = true ∧
    lasting? after.spaces 0 0x7ffff000 = lasting? before.spaces 0 0x7ffff000 ∧
    after.swap.slots = before.swap.slots := by
  obtain ⟨moments, before, after, h, -, hmapped, hperforms, hfails⟩ := exists_failure
  have hc : (Call.growStack 1 0x7ffff000).FaultsOrGrows := trivial
  obtain ⟨hmaps, -, -, -, hslots⟩ :=
    History.failedEviction Machine.fresh_sample (h.history True) hc hperforms hfails
  exact ⟨moments, before, after, h.history True, hperforms, hfails, hmapped, hmaps 0 0x7ffff000, hslots⟩

end

end DemandPaging
