import DemandPaging.Proofs.Ensures
import DemandPaging.Proofs.Replays
import DemandPaging.Proofs.Slots
import Mathlib.Data.Finset.Card

/-!
# The set of free slots

A bitmap of swap slots stands for a set of free slots. `SlotBitmap.Reached count calls slots free` says
that the bitmap `slots` is what some calls make of `count` free slots, and that `free` are the slots that
are free according to what was answered: a claim takes the slot that it answers out of the set, a release
puts a slot back. Only slots in use may be released.

`SlotBitmap.Represents` says in what way bitmap and set agree: in the bits, in the queue and in the count,
in what each call does next, and in which releases halt. It holds after any calls (`Reached.represents`).
-/

set_option autoImplicit false

namespace DemandPaging

/-- What may be asked of a bitmap of slots. -/
inductive SlotCall where
  /-- Claim a slot. -/
  | claim
  /-- Give a slot back. -/
  | release (slot : Nat)

namespace SlotCall

/-- Carry out a call. The answer of a claim is the slot, if there is one. -/
def perform (slots : SlotBitmap) : SlotCall → Except Halt (Option Nat × SlotBitmap)
  | claim => slots.allocate
  | release slot =>
    match slots.free slot with
    | .error halt => .error halt
    | .ok slots => .ok (none, slots)

/-- Only a slot in use may be released. -/
def Permitted (count : Nat) (free : Finset Nat) : SlotCall → Prop
  | claim => True
  | release slot => slot < count ∧ slot ∉ free

/-- Whether a call of a bitmap is permitted can be computed. -/
instance (count : Nat) (free : Finset Nat) : (call : SlotCall) → Decidable (call.Permitted count free)
  | claim => inferInstanceAs (Decidable True)
  | release _ => inferInstanceAs (Decidable (_ ∧ _))

/-- The free slots after a call, by its answer. -/
def freeAfter (free : Finset Nat) : SlotCall → Option Nat → Finset Nat
  | claim, some slot => free.erase slot
  | claim, none => free
  | release slot, _ => insert slot free

end SlotCall

namespace SlotGroup

/-- The lowest free slot of a group. -/
theorem le_of_lowest? {group : SlotGroup} {i j : Nat} (h : group.lowest? = some i)
    (hj : group.getLsbD j = true) : i ≤ j := by
  by_contra hlt
  have hnone := (List.find?_range_eq_some.mp h).2.2 j (Nat.lt_of_not_le hlt)
  rw [hj] at hnone
  cases hnone

/-- A group that is not zero has a free slot. -/
theorem ne_zero_iff {group : SlotGroup} : group ≠ 0 ↔ ∃ i, group.getLsbD i = true := by
  constructor
  · intro h
    cases hlow : group.lowest? with
    | none => exact absurd (eq_zero_of_lowest? hlow) h
    | some i => exact ⟨i, (lowest?_eq_some hlow).2⟩
  · rintro ⟨i, hi⟩
    exact SlotBitmap.ne_zero_of_getLsbD hi

end SlotGroup

/-- A release that the bitmap refuses halts and leaves the machine as it was. -/
theorem Transition.run_releaseSlot_error {machine : Machine} {slot : Nat} {halt : Halt}
    (h : machine.swap.slots.free slot = .error halt) :
    releaseSlot slot machine = .error halt machine := by
  have hrelease : machine.swap.release slot = .error halt := by rw [SwapStore.release, h]
  change EStateM.bind (ofExcept (machine.swap.release slot)) setSwap machine = _
  rw [hrelease]
  rfl

namespace SlotBitmap

/-- The bitmap that permitted calls, oldest first, make of `count` free slots, with the set of slots that
are free by what was answered. -/
inductive Reached (count : Nat) : List SlotCall → SlotBitmap → Finset Nat → Prop where
  /-- At first every slot is free. -/
  | nil : Reached count [] (ofCount count) (Finset.range count)
  /-- One more call was carried out. -/
  | snoc {calls : List SlotCall} {slots slots' : SlotBitmap} {free : Finset Nat} {call : SlotCall}
      {answer : Option Nat} (h : Reached count calls slots free) (hpermitted : call.Permitted count free)
      (hrun : call.perform slots = .ok (answer, slots')) :
      Reached count (calls ++ [call]) slots' (call.freeAfter free answer)

/-- Carry out some calls, if they are permitted. -/
def replay (count : Nat) (calls : List SlotCall) : Option (SlotBitmap × Finset Nat) :=
  calls.foldlM (fun (slots, free) call =>
    if call.Permitted count free then
      match call.perform slots with
      | .ok (answer, slots) => some (slots, call.freeAfter free answer)
      | .error _ => none
    else none) (ofCount count, Finset.range count)

/-- In what way a bitmap stands for a set of free slots, of `count` slots in all. -/
structure Represents (slots : SlotBitmap) (count : Nat) (free : Finset Nat) : Prop where
  count_eq : slots.count = count
  isFree_eq : ∀ slot, slots.isFree slot = decide (slot ∈ free)
  /-- No bit behind the last slot is set. -/
  lt_count : ∀ g group i, slots.groups[g]? = some group → group.getLsbD i = true → g * 64 + i < count
  /-- The queue holds the groups that have a free slot. -/
  mem_queue : ∀ g, g ∈ slots.queue ↔
    ∃ group i, slots.groups[g]? = some group ∧ group.getLsbD i = true
  nodup_queue : slots.queue.Nodup
  used_add_card : slots.used + free.card = count
  /-- A claim finds no slot exactly if all are in use, and then changes nothing. -/
  exhausted : slots.used = slots.count → slots.allocate = .ok (none, slots)
  /-- Otherwise it takes a free slot, the lowest one of its group. -/
  claims : slots.used ≠ slots.count → ∃ slot slots', slots.allocate = .ok (some slot, slots') ∧
    slot < count ∧ slot ∈ free ∧ (∀ x ∈ free, x / 64 = slot / 64 → slot ≤ x) ∧
      ∀ x, slots'.isFree x = decide (x ∈ free.erase slot)
  /-- A slot in use can be released, and then it is free as well. -/
  releases : ∀ slot, slot < count → slot ∉ free → ∃ slots', slots.free slot = .ok slots' ∧
    ∀ x, slots'.isFree x = decide (x ∈ insert slot free)
  /-- To release another slot halts, and the machine is left as it was. -/
  refuses : ∀ slot, ¬ (slot < count ∧ slot ∉ free) → ∀ machine : Machine, machine.swap.slots = slots →
    Transition.releaseSlot slot machine =
      .error (if slot < count then .slotFreedTwice slot else .slotOutOfRange slot) machine

/-! ### One bitmap -/

/-- The slot that is claimed is the lowest free one of its group. -/
theorem le_of_allocate {slots slots' : SlotBitmap} {slot x : Nat}
    (h : slots.allocate = .ok (some slot, slots')) (hgroup : x / 64 = slot / 64)
    (hx : slots.bit x = true) : slot ≤ x := by
  unfold SlotBitmap.allocate at h
  cases hqueue : slots.queue with
  | nil => simp [hqueue] at h
  | cons g queue =>
    cases hg : slots.groups[g]? with
    | none => simp [hqueue, hg] at h
    | some group =>
      cases hlow : group.lowest? with
      | none => simp [hqueue, hg, hlow] at h
      | some i =>
        simp only [hqueue, hg, hlow, Except.ok.injEq, Prod.mk.injEq, Option.some.injEq] at h
        obtain ⟨rfl, -⟩ := h
        have hi := (SlotGroup.lowest?_eq_some hlow).1
        rw [bit, show x / 64 = g by omega, hg] at hx
        have := SlotGroup.le_of_lowest? hlow hx
        omega

/-- Every slot is free or in use. -/
theorem length_usedSlots_add (slots : SlotBitmap) :
    slots.usedSlots.length + slots.freeSlots.length = slots.count := by
  have hused : slots.usedSlots = (List.range slots.count).filter fun slot => !slots.isFree slot := by
    refine List.filter_congr fun slot hslot => ?_
    rw [isUsed, decide_eq_true (List.mem_range.mp hslot), Bool.true_and]
  rw [hused, freeSlots, Nat.add_comm, ← List.length_eq_length_filter_add, List.length_range]

section

variable {slots : SlotBitmap} {count : Nat} {free : Finset Nat}

/-- What every call keeps: the bitmap is sound, and the set has its free slots. -/
structure Shows (slots : SlotBitmap) (count : Nat) (free : Finset Nat) : Prop where
  sound : slots.Sound
  count_eq : slots.count = count
  isFree_eq : ∀ slot, slots.isFree slot = decide (slot ∈ free)

/-- Only slots that exist are free. -/
theorem Shows.lt_count (h : slots.Shows count free) {slot : Nat} (hslot : slot ∈ free) : slot < count := by
  have hfree := h.isFree_eq slot
  rw [decide_eq_true hslot, isFree, Bool.and_eq_true, decide_eq_true_eq, h.count_eq] at hfree
  exact hfree.1

/-- A slot is in use if it exists and is not free. -/
theorem Shows.isUsed_iff (h : slots.Shows count free) (slot : Nat) :
    slots.isUsed slot = true ↔ slot < count ∧ slot ∉ free := by
  rw [isUsed, h.isFree_eq, h.count_eq, Bool.and_eq_true, decide_eq_true_eq, Bool.not_eq_true',
    decide_eq_false_iff_not]

/-- At first all slots are free. -/
theorem shows_ofCount (count : Nat) : (ofCount count).Shows count (Finset.range count) := by
  refine ⟨sound_ofCount count, rfl, fun slot => ?_⟩
  rw [(sound_ofCount count).isFree_eq, bit_ofCount, decide_eq_decide, Finset.mem_range]

/-- A claim answers nothing if no slot is free, and otherwise a free slot that it takes. -/
theorem Shows.allocate (h : slots.Shows count free) :
    (free = ∅ ∧ slots.allocate = .ok (none, slots)) ∨
      ∃ slot slots', slots.allocate = .ok (some slot, slots') ∧ slot ∈ free ∧
        slots'.Shows count (free.erase slot) := by
  rcases h.sound.allocate with ⟨hrun, hnone⟩ | ⟨slot, slots', hrun, hsound, hcount, hslot, hfree⟩
  · refine .inl ⟨Finset.eq_empty_of_forall_notMem fun x hx => ?_, hrun⟩
    have := hnone x
    rw [h.isFree_eq, decide_eq_false_iff_not] at this
    exact this hx
  · rw [h.isFree_eq, decide_eq_true_eq] at hslot
    refine .inr ⟨slot, slots', hrun, hslot, hsound, hcount.trans h.count_eq, fun x => ?_⟩
    rw [hfree, h.isFree_eq, ← Bool.decide_and, decide_eq_decide, Finset.mem_erase]
    tauto

/-- A slot in use can be released. -/
theorem Shows.release (h : slots.Shows count free) {slot : Nat} (hlt : slot < count)
    (hslot : slot ∉ free) :
    ∃ slots', slots.free slot = .ok slots' ∧ slots'.Shows count (insert slot free) := by
  obtain ⟨slots', hrun, hsound, hcount, hfree⟩ := h.sound.free ((h.isUsed_iff slot).mpr ⟨hlt, hslot⟩)
  refine ⟨slots', hrun, hsound, hcount.trans h.count_eq, fun x => ?_⟩
  rw [hfree, h.isFree_eq, ← Bool.decide_or, decide_eq_decide, Finset.mem_insert]
  tauto

/-- To release a slot that is free, or that does not exist, halts. -/
theorem Shows.refuses (h : slots.Shows count free) {slot : Nat} (hslot : ¬ (slot < count ∧ slot ∉ free)) :
    slots.free slot =
      .error (if slot < count then .slotFreedTwice slot else .slotOutOfRange slot) := by
  by_cases hlt : slot < count
  · have hfree : slot ∈ free := by
      by_contra hnot
      exact hslot ⟨hlt, hnot⟩
    have hbit : slots.bit slot = true := by
      rw [← h.sound.isFree_eq, h.isFree_eq, decide_eq_true hfree]
    obtain ⟨group, hg, hset⟩ := exists_group_of_bit hbit
    have hcount : ¬ slots.count ≤ slot := by
      rw [h.count_eq]
      omega
    rw [SlotBitmap.free, if_neg hcount, hg, if_pos hlt]
    simp only [hset, if_true]
  · rw [SlotBitmap.free, if_pos (h.count_eq ▸ Nat.le_of_not_lt hlt), if_neg hlt]

/-- The count of used slots is that of the slots that are not in the set. -/
theorem Shows.used_add_card (h : slots.Shows count free) : slots.used + free.card = count := by
  have hfree : slots.freeSlots.toFinset = free := by
    ext slot
    rw [List.mem_toFinset, freeSlots, List.mem_filter, List.mem_range, h.isFree_eq, decide_eq_true_eq,
      h.count_eq]
    exact ⟨fun hslot => hslot.2, fun hslot => ⟨h.lt_count hslot, hslot⟩⟩
  have hcard : free.card = slots.freeSlots.length := by
    rw [← hfree]
    exact List.toFinset_card_of_nodup (List.nodup_range.filter _)
  rw [hcard, h.sound.used_eq, ← h.count_eq]
  exact slots.length_usedSlots_add

/-- A bitmap that is sound and has the free slots of the set stands for the set in all its parts. -/
theorem Shows.accounts (h : slots.Shows count free) : slots.Represents count free where
  count_eq := h.count_eq
  isFree_eq := h.isFree_eq
  lt_count := by
    intro g group i hg hbit
    have hi : i < 64 := by
      by_contra hi
      rw [BitVec.getLsbD_of_ge _ _ (Nat.le_of_not_lt hi)] at hbit
      cases hbit
    rw [← h.count_eq]
    refine h.sound.lt_count _ ?_
    rw [bit, show (g * 64 + i) / 64 = g by omega, show (g * 64 + i) % 64 = i by omega, hg]
    exact hbit
  mem_queue := by
    intro g
    rw [h.sound.mem_queue]
    simp only [SlotGroup.ne_zero_iff, ← exists_and_left]
  nodup_queue := h.sound.nodup_queue
  used_add_card := h.used_add_card
  exhausted := by
    intro hall
    have hcard := h.used_add_card
    rw [hall, h.count_eq] at hcard
    have hempty : free = ∅ := Finset.card_eq_zero.mp (by omega)
    rcases h.allocate with ⟨-, hrun⟩ | ⟨slot, slots', -, hslot, -⟩
    · exact hrun
    · rw [hempty] at hslot
      exact absurd hslot (Finset.notMem_empty slot)
  claims := by
    intro hsome
    rcases h.allocate with ⟨rfl, -⟩ | ⟨slot, slots', hrun, hslot, hshows⟩
    · have hcard := h.used_add_card
      rw [Finset.card_empty, Nat.add_zero, ← h.count_eq] at hcard
      exact absurd hcard hsome
    · refine ⟨slot, slots', hrun, h.lt_count hslot, hslot, fun x hx hgroup => ?_, hshows.isFree_eq⟩
      refine le_of_allocate hrun hgroup ?_
      rw [← h.sound.isFree_eq, h.isFree_eq, decide_eq_true hx]
  releases := by
    intro slot hlt hslot
    obtain ⟨slots', hrun, hshows⟩ := h.release hlt hslot
    exact ⟨slots', hrun, hshows.isFree_eq⟩
  refuses := by
    rintro slot hslot machine rfl
    rw [Transition.run_releaseSlot_error (h.refuses hslot)]

end

/-! ### After any calls -/

/-- What one permitted call keeps. -/
theorem Shows.perform {slots slots' : SlotBitmap} {count : Nat} {free : Finset Nat} {call : SlotCall}
    {answer : Option Nat} (h : slots.Shows count free) (hpermitted : call.Permitted count free)
    (hrun : call.perform slots = .ok (answer, slots')) :
    slots'.Shows count (call.freeAfter free answer) := by
  cases call with
  | claim =>
    change slots.allocate = _ at hrun
    rcases h.allocate with ⟨-, hclaim⟩ | ⟨slot, claimed, hclaim, -, hshows⟩
    · cases hclaim.symm.trans hrun
      exact h
    · cases hclaim.symm.trans hrun
      exact hshows
  | release slot =>
    obtain ⟨released, hrelease, hshows⟩ := h.release hpermitted.1 hpermitted.2
    simp only [SlotCall.perform, hrelease] at hrun
    cases hrun
    exact hshows

/-- After any calls the bitmap is sound and has the free slots of the set. -/
theorem Reached.shows {count : Nat} {calls : List SlotCall} {slots : SlotBitmap} {free : Finset Nat}
    (h : Reached count calls slots free) : slots.Shows count free := by
  induction h with
  | nil => exact shows_ofCount count
  | snoc _ hpermitted hrun ih => exact ih.perform hpermitted hrun

/-- A bitmap that calls lead to by evaluation is one that they lead to. -/
theorem reached_of_replay {count : Nat} {calls : List SlotCall} {r : SlotBitmap × Finset Nat}
    (h : replay count calls = some r) : Reached count calls r.1 r.2 := by
  refine @of_foldlM _ _ _ _ _ (fun calls r => Reached count calls r.1 r.2) .nil
    (fun earlier call ⟨slots, free⟩ after hearlier hlast => ?_) _ h
  simp only at hlast
  split at hlast
  · rename_i hpermitted
    split at hlast
    · rename_i answer slots' hrun
      cases hlast
      exact hearlier.snoc hpermitted hrun
    · cases hlast
  · cases hlast

/-- After any permitted calls the bitmap stands for the set of the slots that are free by what was
answered. -/
theorem Reached.represents {count : Nat} {calls : List SlotCall} {slots : SlotBitmap} {free : Finset Nat}
    (h : Reached count calls slots free) : slots.Represents count free := h.shows.accounts

/-- Of 66 slots all are claimed, and then slot 65 and slot 3 are given back: the group of slot 3 is asked
first again, and the next claim would get slot 3. -/
theorem represents_sample : ∃ slots free,
    Reached 66 (List.replicate 66 .claim ++ [.release 65, .release 3]) slots free ∧
      free = {3, 65} ∧ slots.queue = [0, 1] ∧ slots.used = 64 ∧ slots.Represents 66 free := by
  have hreplay : (replay 66 (List.replicate 66 .claim ++ [.release 65, .release 3])).any
      (fun r => r.2 = {3, 65} && r.1.queue = [0, 1] && r.1.used = 64) = true := by decide +kernel
  obtain ⟨r, hr, hfacts⟩ := Option.any_eq_true _ _ |>.mp hreplay
  simp only [Bool.and_eq_true, decide_eq_true_eq] at hfacts
  have hreached := reached_of_replay hr
  exact ⟨r.1, r.2, hreached, hfacts.1.1, hfacts.1.2, hfacts.2, hreached.represents⟩

end SlotBitmap

end DemandPaging
