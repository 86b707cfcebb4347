import DemandPaging.Swap.SlotBitmap
import Mathlib.Data.List.Nodup
import Mathlib.Data.List.Perm.Basic

/-!
# Swap slots as a set

`SlotBitmap.Sound` is what a bitmap of swap slots keeps: the queue holds the groups that have a free
slot, bits behind the last slot are never set, and the count of used slots is right. Under it a claim
takes a free slot and changes nothing else (`Sound.allocate`), and so does giving a slot back
(`Sound.free`); so the bitmap is a set of free slots with `isFree` as its membership.
-/

set_option autoImplicit false

namespace DemandPaging

namespace SlotGroup

/-- To claim a slot clears its bit and no other. -/
theorem getLsbD_claim (group : SlotGroup) (i j : Nat) :
    (group.claim i).getLsbD j = (group.getLsbD j && decide (j ≠ i)) := by
  by_cases hj : j < 64
  · by_cases h : j = i
    · subst h
      simp [claim, hj]
    · have hbit : (1#64 <<< i).getLsbD j = false := by
        simp [hj]
        omega
      rw [claim, BitVec.getLsbD_and, BitVec.getLsbD_not, hbit]
      simp [hj, h]
  · have hge : group.getLsbD j = false := BitVec.getLsbD_of_ge _ _ (by omega)
    simp [claim, hge]

/-- To give a slot back sets its bit and no other. -/
theorem getLsbD_release (group : SlotGroup) (i j : Nat) (hj : j < 64) :
    (group.release i).getLsbD j = (group.getLsbD j || decide (j = i)) := by
  by_cases h : j = i
  · subst h
    simp [release, hj]
  · have hbit : (1#64 <<< i).getLsbD j = false := by
      simp [hj]
      omega
    rw [release, BitVec.getLsbD_or, hbit]
    simp [h]

/-- The slot that is found in a group is free. -/
theorem lowest?_eq_some {group : SlotGroup} {i : Nat} (h : group.lowest? = some i) :
    i < 64 ∧ group.getLsbD i = true :=
  ⟨List.mem_range.mp (List.mem_of_find?_eq_some h), List.find?_some h⟩

/-- A group without a free slot is zero. -/
theorem eq_zero_of_lowest? {group : SlotGroup} (h : group.lowest? = none) : group = 0 := by
  apply BitVec.eq_of_getLsbD_eq
  intro i hi
  have := List.find?_eq_none.mp h i (List.mem_range.mpr hi)
  simpa using this

end SlotGroup

namespace SlotBitmap

/-- The bit of a slot is set. -/
def bit (slots : SlotBitmap) (slot : Nat) : Bool :=
  slots.groups[slot / 64]?.any (·.getLsbD (slot % 64))

/-- What a bitmap of swap slots keeps. -/
structure Sound (slots : SlotBitmap) : Prop where
  size_groups : slots.groups.size = (slots.count + 63) / 64
  lt_count : ∀ slot, slots.bit slot = true → slot < slots.count
  mem_queue : ∀ g, g ∈ slots.queue ↔ ∃ group, slots.groups[g]? = some group ∧ group ≠ 0
  nodup_queue : slots.queue.Nodup
  used_eq : slots.used = slots.usedSlots.length

/-- The slots in use are listed. -/
theorem mem_usedSlots {slots : SlotBitmap} {slot : Nat} :
    slot ∈ slots.usedSlots ↔ slots.isUsed slot = true := by
  simp only [usedSlots, List.mem_filter, List.mem_range, isUsed, Bool.and_eq_true,
    decide_eq_true_eq]
  tauto

/-- No slot is listed twice. -/
theorem nodup_usedSlots (slots : SlotBitmap) : slots.usedSlots.Nodup :=
  List.nodup_range.filter _

/-- If no bit behind the last slot is set, a slot is free exactly if its bit is set. -/
theorem isFree_eq_bit {slots : SlotBitmap}
    (h : ∀ slot, slots.bit slot = true → slot < slots.count) (slot : Nat) :
    slots.isFree slot = slots.bit slot := by
  change (decide (slot < slots.count) && slots.bit slot) = slots.bit slot
  cases hb : slots.bit slot with
  | false => simp
  | true => simp [h slot hb]

/-- In a sound bitmap a slot is free exactly if its bit is set. -/
theorem Sound.isFree_eq {slots : SlotBitmap} (h : slots.Sound) (slot : Nat) :
    slots.isFree slot = slots.bit slot := isFree_eq_bit h.lt_count slot

/-- A claimed slot is one more that is used. -/
theorem length_usedSlots_of_claim {slots slots' : SlotBitmap} {slot : Nat}
    (hcount : slots'.count = slots.count) (hslot : slots.isFree slot = true)
    (hfree : ∀ x, slots'.isFree x = (slots.isFree x && decide (x ≠ slot))) :
    slots'.usedSlots.length = slots.usedSlots.length + 1 := by
  have hlt : slot < slots.count := by
    simp only [isFree, Bool.and_eq_true, decide_eq_true_eq] at hslot
    exact hslot.1
  have hperm : slots'.usedSlots.Perm (slot :: slots.usedSlots) := by
    rw [List.perm_ext_iff_of_nodup slots'.nodup_usedSlots]
    · intro x
      by_cases hx : x = slot
      · subst hx
        simp [mem_usedSlots, isUsed, hfree, hcount, hlt]
      · simp [mem_usedSlots, isUsed, hfree, hcount, hx]
    · rw [List.nodup_cons]
      refine ⟨?_, slots.nodup_usedSlots⟩
      simp [mem_usedSlots, isUsed, hslot]
  rw [hperm.length_eq, List.length_cons]

/-- The used slots after a free one was claimed. -/
theorem isUsed_of_claim {slots slots' : SlotBitmap} {slot : Nat}
    (hcount : slots'.count = slots.count) (hslot : slots.isFree slot = true)
    (hfree : ∀ x, slots'.isFree x = (slots.isFree x && decide (x ≠ slot))) (x : Nat) :
    slots'.isUsed x = (slots.isUsed x || decide (x = slot)) := by
  have hlt : slot < slots.count := by
    simp only [isFree, Bool.and_eq_true, decide_eq_true_eq] at hslot
    exact hslot.1
  rw [isUsed, isUsed, hfree, hcount]
  by_cases hx : x = slot
  · subst hx
    simp [hlt]
  · simp [hx]

/-- The used slots after one of them was given back. -/
theorem isUsed_of_release {slots slots' : SlotBitmap} {slot : Nat}
    (hcount : slots'.count = slots.count)
    (hfree : ∀ x, slots'.isFree x = (slots.isFree x || decide (x = slot))) (x : Nat) :
    slots'.isUsed x = (slots.isUsed x && decide (x ≠ slot)) := by
  rw [isUsed, isUsed, hfree, hcount]
  by_cases hx : x = slot
  · simp [hx]
  · simp [hx]

/-- The bits after the group of a slot was replaced. -/
theorem bit_setGroup {slots slots' : SlotBitmap} {g : Nat} {group group' : SlotGroup}
    (hg : slots.groups[g]? = some group)
    (hgroups : slots'.groups = slots.groups.setIfInBounds g group') (x : Nat) :
    slots'.bit x = if x / 64 = g then group'.getLsbD (x % 64) else slots.bit x := by
  have hlt : g < slots.groups.size := (Array.getElem?_eq_some_iff.mp hg).1
  rw [bit, hgroups, Array.getElem?_setIfInBounds]
  by_cases hx : g = x / 64
  · subst hx
    simp [hlt]
  · rw [if_neg hx, if_neg (Ne.symm hx)]
    rfl

/-- Some bit of the group of a slot that is set makes the group nonzero. -/
theorem exists_group_of_bit {slots : SlotBitmap} {slot : Nat} (h : slots.bit slot = true) :
    ∃ group, slots.groups[slot / 64]? = some group ∧ group.getLsbD (slot % 64) = true := by
  rw [bit] at h
  cases hg : slots.groups[slot / 64]? with
  | none => simp [hg] at h
  | some group =>
    rw [hg] at h
    exact ⟨group, rfl, h⟩

/-- A group with a free slot is not zero. -/
theorem ne_zero_of_getLsbD {group : SlotGroup} {i : Nat} (h : group.getLsbD i = true) :
    group ≠ 0 := by
  rintro rfl
  simp at h

section

variable {groups : Array SlotGroup} {queue : List Nat} {g : Nat} {group group' : SlotGroup}

/-- The first group of the queue was replaced, and leaves the queue if it has no free slot left. -/
theorem mem_queue_of_claim
    (h : ∀ x, x ∈ g :: queue ↔ ∃ group, groups[x]? = some group ∧ group ≠ 0)
    (hnodup : (g :: queue).Nodup) (hsize : g < groups.size) (x : Nat) :
    x ∈ (if group' = 0 then queue else g :: queue) ↔
      ∃ group, (groups.setIfInBounds g group')[x]? = some group ∧ group ≠ 0 := by
  rw [List.nodup_cons] at hnodup
  have hold := h x
  rw [List.mem_cons] at hold
  rw [Array.getElem?_setIfInBounds]
  by_cases hx : g = x
  · subst hx
    simp only [if_true, hsize, Option.some.injEq, exists_eq_left']
    split
    · rename_i hzero
      exact iff_of_false hnodup.1 (not_not_intro hzero)
    · rename_i hzero
      exact iff_of_true List.mem_cons_self hzero
  · rw [if_neg hx, ← hold]
    split <;> simp [Ne.symm hx]

/-- A group got a free slot, and joins the queue if it had none. -/
theorem mem_queue_of_release
    (h : ∀ x, x ∈ queue ↔ ∃ group, groups[x]? = some group ∧ group ≠ 0)
    (hg : groups[g]? = some group) (hne : group' ≠ 0) (x : Nat) :
    x ∈ (if group = 0 then g :: queue else queue) ↔
      ∃ group, (groups.setIfInBounds g group')[x]? = some group ∧ group ≠ 0 := by
  have hsize : g < groups.size := (Array.getElem?_eq_some_iff.mp hg).1
  have hold := h x
  rw [Array.getElem?_setIfInBounds]
  by_cases hx : g = x
  · subst hx
    simp only [if_true, hsize, Option.some.injEq, exists_eq_left']
    split
    · exact iff_of_true List.mem_cons_self hne
    · rename_i hzero
      exact iff_of_true (hold.mpr ⟨group, hg, hzero⟩) hne
  · rw [if_neg hx, ← hold]
    split <;> simp [Ne.symm hx]

end

/-- Claiming in a sound bitmap: there is no free slot, or one of them is taken and all else stays as
it is. -/
theorem Sound.allocate {slots : SlotBitmap} (h : slots.Sound) :
    (slots.allocate = .ok (none, slots) ∧ ∀ x, slots.isFree x = false) ∨
      ∃ slot slots', slots.allocate = .ok (some slot, slots') ∧ slots'.Sound ∧
        slots'.count = slots.count ∧ slots.isFree slot = true ∧
        ∀ x, slots'.isFree x = (slots.isFree x && decide (x ≠ slot)) := by
  cases hq : slots.queue with
  | nil =>
    left
    refine ⟨by simp [SlotBitmap.allocate, hq], fun x => ?_⟩
    rw [h.isFree_eq]
    by_contra hx
    obtain ⟨group, hg, hbit⟩ := exists_group_of_bit (Bool.not_eq_false _ ▸ hx)
    have hmem := (h.mem_queue _).mpr ⟨group, hg, ne_zero_of_getLsbD hbit⟩
    rw [hq] at hmem
    exact List.not_mem_nil hmem
  | cons g queue =>
    right
    obtain ⟨group, hg, hne⟩ := (h.mem_queue g).mp (hq ▸ List.mem_cons_self)
    have hsize : g < slots.groups.size := (Array.getElem?_eq_some_iff.mp hg).1
    have hnodup := h.nodup_queue
    rw [hq] at hnodup
    cases hlow : group.lowest? with
    | none => exact absurd (SlotGroup.eq_zero_of_lowest? hlow) hne
    | some i =>
      obtain ⟨hi, hbit⟩ := SlotGroup.lowest?_eq_some hlow
      set slots' : SlotBitmap := { slots with
        groups := slots.groups.setIfInBounds g (group.claim i)
        queue := if group.claim i = 0 then queue else g :: queue
        used := slots.used + 1 } with hslots'
      have hbits : ∀ x, slots'.bit x = (slots.bit x && decide (x ≠ g * 64 + i)) := by
        intro x
        rw [bit_setGroup hg rfl]
        split
        · rename_i hx
          rw [SlotGroup.getLsbD_claim, bit, hx, hg]
          have : (x % 64 ≠ i) ↔ (x ≠ g * 64 + i) := by omega
          simp [this]
        · have : x ≠ g * 64 + i := by omega
          simp [this]
      have hslot : slots.isFree (g * 64 + i) = true := by
        rw [h.isFree_eq, bit, show (g * 64 + i) / 64 = g by omega, hg,
          show (g * 64 + i) % 64 = i by omega]
        exact hbit
      have hlt : ∀ x, slots'.bit x = true → x < slots.count := by
        intro x hx
        rw [hbits, Bool.and_eq_true] at hx
        exact h.lt_count x hx.1
      have hfree : ∀ x, slots'.isFree x = (slots.isFree x && decide (x ≠ g * 64 + i)) := by
        intro x
        rw [h.isFree_eq, ← hbits]
        exact isFree_eq_bit hlt x
      refine ⟨g * 64 + i, slots', ?_, ?_, rfl, hslot, hfree⟩
      · simp [SlotBitmap.allocate, hq, hg, hlow, hslots']
      · refine ⟨by simpa [hslots'] using h.size_groups, hlt, ?_, ?_, ?_⟩
        · exact mem_queue_of_claim (hq ▸ h.mem_queue) hnodup hsize
        · simp only [hslots']
          split
          · exact (List.nodup_cons.mp hnodup).2
          · exact hnodup
        · have hlen : slots'.usedSlots.length = slots.usedSlots.length + 1 :=
            length_usedSlots_of_claim rfl hslot hfree
          rw [hlen, ← h.used_eq]

/-- Giving back a used slot of a sound bitmap makes it free and changes nothing else. -/
theorem Sound.free {slots : SlotBitmap} (h : slots.Sound) {slot : Nat}
    (hused : slots.isUsed slot = true) :
    ∃ slots', slots.free slot = .ok slots' ∧ slots'.Sound ∧ slots'.count = slots.count ∧
      ∀ x, slots'.isFree x = (slots.isFree x || decide (x = slot)) := by
  simp only [isUsed, Bool.and_eq_true, decide_eq_true_eq, Bool.not_eq_true'] at hused
  obtain ⟨hlt, hnot⟩ := hused
  have hsize : slot / 64 < slots.groups.size := by
    rw [h.size_groups]
    omega
  have hg : slots.groups[slot / 64]? = some slots.groups[slot / 64] :=
    Array.getElem?_eq_getElem hsize
  generalize slots.groups[slot / 64] = group at hg
  have hbit : group.getLsbD (slot % 64) = false := by
    rw [h.isFree_eq, bit, hg] at hnot
    exact hnot
  have hpos : slots.used ≠ 0 := by
    rw [h.used_eq]
    have : slot ∈ slots.usedSlots := by simp [mem_usedSlots, isUsed, hlt, hnot]
    exact Nat.ne_of_gt (List.length_pos_of_mem this)
  set slots' : SlotBitmap := { slots with
    groups := slots.groups.setIfInBounds (slot / 64) (group.release (slot % 64))
    queue := if group = 0 then slot / 64 :: slots.queue else slots.queue
    used := slots.used - 1 } with hslots'
  have hbits : ∀ x, slots'.bit x = (slots.bit x || decide (x = slot)) := by
    intro x
    rw [bit_setGroup hg rfl]
    split
    · rename_i hx
      rw [SlotGroup.getLsbD_release _ _ _ (Nat.mod_lt _ (by decide)), bit, hx, hg]
      have : (x % 64 = slot % 64) ↔ (x = slot) := by omega
      simp [this]
    · have : x ≠ slot := by rintro rfl; contradiction
      simp [this]
  have hlt' : ∀ x, slots'.bit x = true → x < slots.count := by
    intro x hx
    rw [hbits, Bool.or_eq_true, decide_eq_true_eq] at hx
    rcases hx with hx | rfl
    · exact h.lt_count x hx
    · exact hlt
  have hfree : ∀ x, slots'.isFree x = (slots.isFree x || decide (x = slot)) := by
    intro x
    rw [h.isFree_eq, ← hbits]
    exact isFree_eq_bit hlt' x
  refine ⟨slots', ?_, ?_, rfl, hfree⟩
  · simp [SlotBitmap.free, Nat.not_le.mpr hlt, hg, hbit, hpos, hslots']
  · refine ⟨by simpa [hslots'] using h.size_groups, hlt', ?_, ?_, ?_⟩
    · apply mem_queue_of_release h.mem_queue hg
      apply ne_zero_of_getLsbD (i := slot % 64)
      simp [SlotGroup.getLsbD_release _ _ _ (Nat.mod_lt slot (show 0 < 64 by decide))]
    · simp only [hslots']
      split
      · rename_i hz
        rw [List.nodup_cons, h.mem_queue, hg]
        exact ⟨by simp [hz], h.nodup_queue⟩
      · exact h.nodup_queue
    · -- seen from the new bitmap, the old one has claimed the slot
      have hback : ∀ x, slots.isFree x = (slots'.isFree x && decide (x ≠ slot)) := by
        intro x
        rw [hfree]
        by_cases hx : x = slot
        · simp [hx, hnot]
        · simp [hx]
      have hlen : slots.usedSlots.length = slots'.usedSlots.length + 1 :=
        length_usedSlots_of_claim rfl (by simp [hfree]) hback
      have hused := h.used_eq
      have husedNew : slots'.used = slots.used - 1 := rfl
      omega

/-- To give back the slot that was claimed last undoes the claim, the order of the queue included. -/
theorem eq_of_free_of_allocate {slots claimed slots' : SlotBitmap} {slot : Nat}
    (hclaim : slots.allocate = .ok (some slot, claimed)) (hfree : claimed.free slot = .ok slots') :
    slots' = slots := by
  unfold SlotBitmap.allocate at hclaim
  cases hqueue : slots.queue with
  | nil => simp [hqueue] at hclaim
  | cons g queue =>
    cases hgroup : slots.groups[g]? with
    | none => simp [hqueue, hgroup] at hclaim
    | some group =>
      cases hlow : group.lowest? with
      | none => simp [hqueue, hgroup, hlow] at hclaim
      | some i =>
        simp only [hqueue, hgroup, hlow, Except.ok.injEq, Prod.mk.injEq, Option.some.injEq] at hclaim
        obtain ⟨rfl, rfl⟩ := hclaim
        obtain ⟨hi, hbit⟩ := SlotGroup.lowest?_eq_some hlow
        have hlt : g < slots.groups.size := (Array.getElem?_eq_some_iff.mp hgroup).1
        have hdiv : (g * 64 + i) / 64 = g := by omega
        have hmod : (g * 64 + i) % 64 = i := by omega
        have hback : (group.claim i).release i = group := by
          refine BitVec.eq_of_getLsbD_eq fun j hj => ?_
          rw [SlotGroup.getLsbD_release _ _ _ hj, SlotGroup.getLsbD_claim]
          by_cases hij : j = i
          · subst hij
            simp [hbit]
          · simp [hij]
        have hgroups : slots.groups.setIfInBounds g group = slots.groups := by
          refine Array.ext_getElem? fun j => ?_
          rw [Array.getElem?_setIfInBounds]
          split
          · rename_i hj
            rw [← hj, hgroup]
          · rfl
        have hunset : (group.claim i).getLsbD i = false := by simp [SlotGroup.getLsbD_claim]
        simp only [SlotBitmap.free, hdiv, hmod, Array.getElem?_setIfInBounds_self, hlt, if_true, hunset,
          Bool.false_eq_true, if_false, Nat.succ_ne_zero, hback, Array.setIfInBounds_setIfInBounds,
          hgroups, Nat.add_sub_cancel] at hfree
        split at hfree
        · cases hfree
        · cases hfree
          obtain ⟨groups, slotQueue, count, used⟩ := slots
          obtain rfl : slotQueue = g :: queue := hqueue
          simp only [SlotBitmap.mk.injEq, true_and, and_true]
          split <;> rfl

/-- Of a group in which the first slots are free, the bits of these are set. -/
theorem getLsbD_firstFree (n i : Nat) (hi : i < 64) :
    (SlotGroup.firstFree n).getLsbD i = decide (i < n) := by
  rw [SlotGroup.firstFree, BitVec.getLsbD_ushiftRight, BitVec.getLsbD_allOnes]
  simp only [decide_eq_decide]
  omega

/-- The bits of a fresh bitmap are those of its slots. -/
theorem bit_ofCount (count slot : Nat) : (ofCount count).bit slot = decide (slot < count) := by
  simp only [bit, ofCount, Array.getElem?_map, Array.getElem?_range]
  split
  · simp only [Option.map_some, Option.any_some]
    rw [getLsbD_firstFree _ _ (Nat.mod_lt _ (by decide)), decide_eq_decide]
    omega
  · simp only [Option.map_none, Option.any_none]
    rw [eq_comm, decide_eq_false_iff_not]
    omega

/-- No bit behind the last slot of a fresh bitmap is set. -/
theorem lt_count_of_bit_ofCount {count slot : Nat} (h : (ofCount count).bit slot = true) :
    slot < (ofCount count).count := by
  rw [bit_ofCount, decide_eq_true_eq] at h
  exact h

/-- No slot of a fresh bitmap is in use. -/
theorem usedSlots_ofCount (count : Nat) : (ofCount count).usedSlots = [] := by
  rw [List.eq_nil_iff_forall_not_mem]
  intro slot hslot
  rw [mem_usedSlots, isUsed, isFree_eq_bit fun _ => lt_count_of_bit_ofCount, bit_ofCount] at hslot
  simp only [ofCount, Bool.and_eq_true, Bool.not_eq_true', decide_eq_false_iff_not] at hslot
  exact hslot.2 (of_decide_eq_true hslot.1)

/-- A fresh bitmap is sound. -/
theorem sound_ofCount (count : Nat) : (ofCount count).Sound := by
  refine ⟨by simp [ofCount], fun _ => lt_count_of_bit_ofCount, ?_, List.nodup_range, ?_⟩
  · intro g
    simp only [ofCount, List.mem_range, Array.getElem?_map, Array.getElem?_range]
    split
    · rename_i hg
      refine iff_of_true hg ⟨_, rfl, ne_zero_of_getLsbD (i := 0) ?_⟩
      rw [getLsbD_firstFree _ _ (by decide), decide_eq_true_eq]
      omega
    · rename_i hg
      exact iff_of_false hg (by simp)
  · rw [usedSlots_ofCount]
    rfl

end SlotBitmap

end DemandPaging
