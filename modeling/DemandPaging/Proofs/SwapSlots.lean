import DemandPaging.Proofs.Runs

/-!
# Swap slots

The slots in use are the ones that the supplemental page tables record, and each is recorded once
(`Machine.KeepsSlots`). So no slot is lost and no two pages share one, and a slot that is given back
was in use: after any run, no permitted action halts because a slot was freed twice.
-/

set_option autoImplicit false

namespace DemandPaging

open Spaces Machine

namespace Machine

/-- The swap slots that are recorded in the tables of all spaces, one for each entry that has one. -/
def recordedSlots (machine : Machine) : List Nat :=
  machine.spaces.toList.flatMap fun space => slotsOf space.supplement.toList

/-- The slots in use are the recorded ones, and none is recorded twice. -/
structure KeepsSlots (machine : Machine) : Prop where
  used_iff : ∀ slot, machine.swap.isUsed slot = true ↔ slot ∈ machine.recordedSlots
  nodup : machine.recordedSlots.Nodup
  counted : machine.swap.usedCount = machine.recordedSlots.length

variable {machine : Machine}

/-- A slot is recorded if some page has its copy there. -/
theorem mem_recordedSlots {slot : Nat} : slot ∈ machine.recordedSlots ↔
    ∃ s p copy, copy? machine.spaces s p = some copy ∧ copy.slot = slot := by
  rw [recordedSlots, List.mem_flatMap]
  constructor
  · rintro ⟨space, hspace, hslot⟩
    obtain ⟨s, hs⟩ := List.mem_iff_getElem?.mp hspace
    rw [Array.getElem?_toList] at hs
    exact ⟨s, (mem_slotsOf hs).mp hslot⟩
  · rintro ⟨s, p, copy, hcopy, hslot⟩
    obtain ⟨info, hinfo, -⟩ := Option.bind_eq_some_iff.mp hcopy
    obtain ⟨space, hs, -⟩ := Option.bind_eq_some_iff.mp hinfo
    refine ⟨space, ?_, (mem_slotsOf hs).mpr ⟨p, copy, hcopy, hslot⟩⟩
    rw [← Array.getElem?_toList] at hs
    exact List.mem_of_getElem? hs

/-- No slot is recorded twice, be it in one space or in two. -/
theorem nodup_recordedSlots (h : Accounted [] machine.spaces machine.swap.slots) :
    machine.recordedSlots.Nodup := by
  rw [recordedSlots, List.nodup_flatMap]
  constructor
  · intro space hspace
    obtain ⟨s, hs⟩ := List.mem_iff_getElem?.mp hspace
    rw [Array.getElem?_toList] at hs
    exact nodup_slotsOf h hs
  · rw [List.pairwise_iff_getElem]
    intro i j hi hj hij slot hslot hslot'
    have hspace : ∀ k (hk : k < machine.spaces.toList.length),
        machine.spaces[k]? = some machine.spaces.toList[k] := by
      intro k hk
      rw [← Array.getElem?_toList]
      exact List.getElem?_eq_getElem hk
    obtain ⟨p, copy, hcopy, hs⟩ := (mem_slotsOf (hspace i hi)).mp hslot
    obtain ⟨p', copy', hcopy', hs'⟩ := (mem_slotsOf (hspace j hj)).mp hslot'
    obtain ⟨hsame, -⟩ := h.inj i p j p' copy copy' hcopy hcopy' (hs.trans hs'.symm)
    exact Nat.ne_of_gt hij hsame

/-- Slots that are accounted for are kept: the list of slots in use and the list of recorded ones have the
same slots, and neither has one twice. -/
theorem keepsSlots_of_accounted (h : Accounted [] machine.spaces machine.swap.slots) :
    machine.KeepsSlots := by
  have hused : ∀ slot, machine.swap.isUsed slot = true ↔ slot ∈ machine.recordedSlots := by
    intro slot
    rw [mem_recordedSlots]
    exact (h.isUsed_iff slot).trans (or_iff_left List.not_mem_nil)
  have hperm : machine.swap.slots.usedSlots.Perm machine.recordedSlots := by
    rw [List.perm_ext_iff_of_nodup machine.swap.slots.nodup_usedSlots (nodup_recordedSlots h)]
    intro slot
    rw [SlotBitmap.mem_usedSlots]
    exact hused slot
  refine ⟨hused, nodup_recordedSlots h, ?_⟩
  rw [← hperm.length_eq]
  exact h.sound.used_eq

/-- A settled machine keeps its slots, since no slot is on its way. -/
theorem Settled.keepsSlots (h : machine.Settled) : machine.KeepsSlots :=
  keepsSlots_of_accounted h.accounted

end Machine

/-- After any run the slots in use are the recorded ones, each recorded once, and no permitted action
halts because a slot was freed twice. -/
theorem Run.slotAccounting {start machine : Machine} {moments : List Moment} (hfresh : start.Fresh)
    (h : Run start moments machine) :
    machine.KeepsSlots ∧ ∀ (action : Action) (halt : Halt) (after : Machine) (slot : Nat),
      action.Permitted machine → action.step machine = .error halt after →
        halt ≠ .slotFreedTwice slot := by
  have ho := h.orderly hfresh.orderly
  refine ⟨Machine.Settled.keepsSlots ho.settled, fun action halt after slot hpermitted hstep => ?_⟩
  rintro rfl
  cases (Transition.ensures_step ho action hpermitted).of_error hstep

/-- A stack of two pages in one frame: one slot is in use, for the page that was added first, and the
stack can be torn down. -/
theorem slotAccounting_sample : ∃ moments machine, Run .sample moments machine ∧
    moments.length = 3 ∧ machine.recordedSlots = [0] ∧ machine.KeepsSlots ∧
      ∀ halt after slot, (Action.call (.destroy 0)).step machine = .error halt after →
        halt ≠ .slotFreedTwice slot := by
  obtain ⟨moments, machine, h, -, hfacts⟩ := @exists_run .sample [.addSpace 1,
    .call (.growStack 0 0x7ffff000), .call (.growStack 0 0x7fffe000)]
    (fun r => r.1.length = 3 ∧ r.2.recordedSlots = [0]) (by decide +kernel)
  obtain ⟨hlength, hrecorded⟩ := of_decide_eq_true hfacts
  have hkept := Run.slotAccounting Machine.fresh_sample h
  exact ⟨moments, machine, h, hlength, hrecorded, hkept.1,
    fun halt after slot => hkept.2 _ halt after slot trivial⟩

end DemandPaging
