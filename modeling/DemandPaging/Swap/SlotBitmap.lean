import DemandPaging.Halt

/-!
# Swap slots

Which swap slots are free. Slots come in groups of 64 with one bit each, set while the slot is free.
Groups that have a free slot wait in a queue; a claim takes the lowest free slot of the group at the
head, and a group goes back to the head of the queue when one of its slots is freed after all were
in use. So neither claiming nor freeing searches through the groups.

Freeing a slot that does not exist, or that is free, is a broken promise of the caller and halts.
-/

set_option autoImplicit false

namespace DemandPaging

/-- The slots of one group, a bit set for each free one. -/
abbrev SlotGroup := BitVec 64

namespace SlotGroup

/-- The first `n` slots of a group free, the others in use for ever. -/
def firstFree (n : Nat) : SlotGroup := BitVec.allOnes 64 >>> (64 - n)

/-- The lowest free slot of a group. -/
def lowest? (group : SlotGroup) : Option Nat := (List.range 64).find? (group.getLsbD ·)

/-- The group with a slot in use. -/
def claim (group : SlotGroup) (i : Nat) : SlotGroup := group &&& ~~~(1#64 <<< i)

/-- The group with a slot free. -/
def release (group : SlotGroup) (i : Nat) : SlotGroup := group ||| (1#64 <<< i)

end SlotGroup

/-- The free slots of a swap store. -/
structure SlotBitmap where
  /-- The groups, lowest slots first. -/
  groups : Array SlotGroup
  /-- The groups that have a free slot; the head is asked first. -/
  queue : List Nat
  /-- The number of slots. -/
  count : Nat
  /-- The number of slots in use. -/
  used : Nat := 0
  deriving DecidableEq, Repr, Inhabited

namespace SlotBitmap

/-- `count` slots, all free. Lower groups are asked first. -/
def ofCount (count : Nat) : SlotBitmap :=
  let groupCount := (count + 63) / 64
  { groups := (Array.range groupCount).map fun g => .firstFree (count - 64 * g)
    queue := List.range groupCount
    count }

/-- Whether the slot exists and is free. -/
def isFree (slots : SlotBitmap) (slot : Nat) : Bool :=
  slot < slots.count && slots.groups[slot / 64]?.any (·.getLsbD (slot % 64))

/-- Whether the slot exists and is in use. -/
def isUsed (slots : SlotBitmap) (slot : Nat) : Bool :=
  slot < slots.count && !slots.isFree slot

/-- The free slots, lowest first. -/
def freeSlots (slots : SlotBitmap) : List Nat := (List.range slots.count).filter slots.isFree

/-- The slots in use, lowest first. -/
def usedSlots (slots : SlotBitmap) : List Nat := (List.range slots.count).filter slots.isUsed

/-- Claim the lowest free slot of the group at the head of the queue. There is none if every slot
is in use. -/
def allocate (slots : SlotBitmap) : Except Halt (Option Nat × SlotBitmap) :=
  match slots.queue with
  | [] => .ok (none, slots)
  | g :: queue =>
    match slots.groups[g]? with
    | none => .error .outOfBounds
    | some group =>
      match group.lowest? with
      | none => .error .brokenPromise
      | some i =>
        let group := group.claim i
        .ok (some (g * 64 + i),
          { slots with
            groups := slots.groups.setIfInBounds g group
            queue := if group = 0 then queue else g :: queue
            used := slots.used + 1 })

/-- Free a slot that is in use. -/
def free (slots : SlotBitmap) (slot : Nat) : Except Halt SlotBitmap :=
  if slots.count ≤ slot then .error (.slotOutOfRange slot)
  else match slots.groups[slot / 64]? with
    | none => .error .outOfBounds
    | some group =>
      if group.getLsbD (slot % 64) then .error (.slotFreedTwice slot)
      else if slots.used = 0 then .error .overflow
      else .ok { slots with
        groups := slots.groups.setIfInBounds (slot / 64) (group.release (slot % 64))
        queue := if group = 0 then slot / 64 :: slots.queue else slots.queue
        used := slots.used - 1 }

end SlotBitmap

end DemandPaging
