import DemandPaging.Lock.Ticket
import Mathlib.Logic.Function.Basic
import Mathlib.Logic.Relation

/-!
# Order at a ticket lock

Any number of callers use a ticket lock, each with one attempt to get it or one guard at a time; a thread
with several counts as several callers. What they do to the two counters are atomic steps, and these may
come in any order (`TicketLock.Step`). Some callers take a ticket and wait until it is served. Others try
to get the lock at once: they look at the number of the next ticket, then check that it is served, then
take that ticket if it is still the next one, and look again if it is not.

Besides the lock, a `TicketLock.Scene` has the tickets that were issued and those that got a guard, in
order. All else that is true of the callers can be read off these two lists and the number that is served
(`Scene.Orderly`), and so nobody shares the lock and nobody is served before his turn
(`Scene.Reached.servesInOrder`).
-/

set_option autoImplicit false

namespace DemandPaging

namespace TicketLock

/-- A lock serves a ticket if it is the one that it serves next. -/
theorem isServing_iff {lock : TicketLock} {ticket : UInt64} :
    lock.isServing ticket = true ↔ lock.nextServing = ticket := beq_iff_eq

/-- A ticket is not the last one if there is a number after it. -/
theorem isLast_eq_false_iff {ticket : UInt64} :
    isLast ticket = false ↔ ticket.toNat + 1 < UInt64.size := by
  have hlt : ticket.toNat < UInt64.size := ticket.toNat_lt
  rw [isLast, beq_eq_false_iff_ne]
  omega

/-- The number after one that is not the last. -/
theorem toNat_succ {ticket : UInt64} (h : ticket.toNat + 1 < UInt64.size) :
    (ticket + 1).toNat = ticket.toNat + 1 := by
  rw [UInt64.toNat_add]
  exact Nat.mod_eq_of_lt h

/-- An exchange takes the next ticket or does nothing, and halts only at the last number. -/
theorem exchange_eq_ok_iff {lock after : TicketLock} {ticket : UInt64} {worked : Bool} :
    lock.exchange ticket = .ok (worked, after) ↔ ticket.toNat + 1 < UInt64.size ∧
      worked = decide (lock.nextTicket = ticket) ∧
        after = if worked then { lock with nextTicket := ticket + 1 } else lock := by
  rw [exchange, ← isLast_eq_false_iff]
  cases isLast ticket with
  | true => simp
  | false =>
    by_cases hnext : lock.nextTicket = ticket
    · simp only [hnext, decide_true]
      cases worked <;> simp [eq_comm]
    · simp only [hnext, decide_false]
      cases worked <;> simp [eq_comm]

/-- To leave the lock serves the next number, and halts only at the last one. -/
theorem release_eq_ok_iff {lock after : TicketLock} {ticket : UInt64} :
    lock.release ticket = .ok after ↔
      ticket.toNat + 1 < UInt64.size ∧ after = { lock with nextServing := ticket + 1 } := by
  rw [release, ← isLast_eq_false_iff]
  cases isLast ticket <;> simp [eq_comm]

/-- How far a caller is. -/
inductive Stage where
  /-- The caller wants nothing. -/
  | idle
  /-- The caller has taken a ticket and waits until it is served. -/
  | waiting (ticket : UInt64)
  /-- The caller wants the lock only at once, and has looked at the number of the next ticket. -/
  | looking (ticket : UInt64)
  /-- The caller has looked at the number of the next ticket, and has then seen it served. -/
  | ready (ticket : UInt64)
  /-- The caller has the guard. -/
  | holding (ticket : UInt64)
  deriving DecidableEq, Repr

/-- The caller has no ticket. -/
def Stage.Ticketless (stage : Stage) : Prop :=
  ∀ ticket, stage ≠ .holding ticket ∧ stage ≠ .waiting ticket

/-- A ticket lock and its callers. -/
structure Scene (ι : Type) where
  lock : TicketLock := {}
  /-- How far each caller is. -/
  stage : ι → Stage := fun _ => .idle
  /-- The tickets that were issued, oldest first, with those who took them. -/
  issued : List (ι × UInt64) := []
  /-- The tickets that got a guard, oldest first, with those who had them. -/
  granted : List (ι × UInt64) := []

variable {ι : Type}

section

variable [DecidableEq ι]

/-- A caller gets to some stage. -/
def Scene.set (scene : Scene ι) (i : ι) (stage : Stage) : Scene ι :=
  { scene with stage := Function.update scene.stage i stage }

/-- A caller takes a ticket. -/
def Scene.issue (scene : Scene ι) (i : ι) : Scene ι :=
  let (ticket, lock) := scene.lock.takeTicket
  { scene with
    lock
    stage := Function.update scene.stage i (.waiting ticket)
    issued := scene.issued ++ [(i, ticket)] }

/-- A caller whose ticket is served gets the guard. -/
def Scene.grant (scene : Scene ι) (i : ι) (ticket : UInt64) : Scene ι :=
  { scene with
    stage := Function.update scene.stage i (.holding ticket)
    granted := scene.granted ++ [(i, ticket)] }

/-- One atomic step of one caller. -/
inductive Step : Scene ι → Scene ι → Prop where
  /-- A ticket is taken. -/
  | take {scene : Scene ι} (i : ι) (hstage : scene.stage i = .idle) : Step scene (scene.issue i)
  /-- A ticket is not served yet, and its holder goes on waiting. -/
  | wait {scene : Scene ι} (i : ι) {ticket : UInt64} (hstage : scene.stage i = .waiting ticket)
      (hserving : scene.lock.isServing ticket = false) : Step scene scene
  /-- A ticket is served. -/
  | enter {scene : Scene ι} (i : ι) {ticket : UInt64} (hstage : scene.stage i = .waiting ticket)
      (hserving : scene.lock.isServing ticket = true) : Step scene (scene.grant i ticket)
  /-- Somebody wants the lock at once. -/
  | look {scene : Scene ι} (i : ι) (hstage : scene.stage i = .idle) :
      Step scene (scene.set i (.looking scene.lock.nextTicket))
  /-- The number is served. -/
  | check {scene : Scene ι} (i : ι) {ticket : UInt64} (hstage : scene.stage i = .looking ticket)
      (hserving : scene.lock.isServing ticket = true) : Step scene (scene.set i (.ready ticket))
  /-- The number is not served, so the lock cannot be had at once. -/
  | giveUp {scene : Scene ι} (i : ι) {ticket : UInt64} (hstage : scene.stage i = .looking ticket)
      (hserving : scene.lock.isServing ticket = false) : Step scene (scene.set i .idle)
  /-- The number is still the next one, and is taken. -/
  | succeed {scene : Scene ι} (i : ι) {ticket : UInt64} {after : TicketLock}
      (hstage : scene.stage i = .ready ticket) (hrun : scene.lock.exchange ticket = .ok (true, after)) :
      Step scene
        (Scene.grant { scene with lock := after, issued := scene.issued ++ [(i, ticket)] } i ticket)
  /-- Somebody else took the number, and the next one is looked at. -/
  | retry {scene : Scene ι} (i : ι) {ticket : UInt64} {after : TicketLock}
      (hstage : scene.stage i = .ready ticket) (hrun : scene.lock.exchange ticket = .ok (false, after)) :
      Step scene (Scene.set { scene with lock := after } i (.looking after.nextTicket))
  /-- The exchange did not work though the number may be the next one still, and it is looked at again. -/
  | again {scene : Scene ι} (i : ι) {ticket : UInt64} (hstage : scene.stage i = .ready ticket) :
      Step scene (scene.set i (.looking scene.lock.nextTicket))
  /-- The guard is given back. -/
  | leave {scene : Scene ι} (i : ι) {ticket : UInt64} {after : TicketLock}
      (hstage : scene.stage i = .holding ticket) (hrun : scene.lock.release ticket = .ok after) :
      Step scene (Scene.set { scene with lock := after } i .idle)

/-- What some steps make of a lock that has just been made. -/
def Scene.Reached (scene : Scene ι) : Prop := Relation.ReflTransGen Step {} scene

end

namespace Scene

variable {scene : Scene ι}

/-- Nobody has the guard and nobody waits for it. -/
def Unwanted (scene : Scene ι) : Prop := ∀ i, (scene.stage i).Ticketless

/-- The lock serves its callers in order. -/
structure InOrder (scene : Scene ι) : Prop where
  /-- At most one caller has a guard. -/
  exclusive : ∀ i j ticket ticket', scene.stage i = .holding ticket → scene.stage j = .holding ticket' →
    i = j
  /-- The tickets are numbered in the order in which they are issued. -/
  numbered : scene.issued.map (·.2.toNat) = List.range scene.issued.length
  /-- Guards are granted in that order. -/
  granted_le : scene.granted <+: scene.issued
  /-- Who has the guard was granted it last. -/
  holding : ∀ i ticket, scene.stage i = .holding ticket → scene.granted.getLast? = some (i, ticket)
  /-- Those who wait are those whose ticket was issued and not granted. -/
  waiting : ∀ i ticket, scene.stage i = .waiting ticket ↔
    (i, ticket) ∈ scene.issued ∧ (i, ticket) ∉ scene.granted
  /-- To get the lock at once works only while nobody wants it. -/
  atOnce : ∀ i ticket after, scene.stage i = .ready ticket →
    scene.lock.exchange ticket = .ok (true, after) → scene.Unwanted
  /-- The next ticket is served exactly while nobody wants the lock. -/
  serving_iff : scene.lock.nextServing = scene.lock.nextTicket ↔ scene.Unwanted
  /-- No exchange halts. -/
  exchanges : ∀ i ticket, scene.stage i = .ready ticket →
    ∃ worked after, scene.lock.exchange ticket = .ok (worked, after)
  /-- No guard that is given back halts. -/
  leaves : ∀ i ticket, scene.stage i = .holding ticket → ∃ after, scene.lock.release ticket = .ok after

/-- What can be read off the tickets that were issued and granted. -/
structure Orderly (scene : Scene ι) : Prop where
  /-- The number of a ticket is its place. -/
  toNat_eq : ∀ {k : Nat} {i : ι} {ticket : UInt64}, scene.issued[k]? = some (i, ticket) →
    ticket.toNat = k
  nextTicket_eq : scene.lock.nextTicket.toNat = scene.issued.length
  granted_le : scene.granted <+: scene.issued
  served_le : scene.lock.nextServing.toNat ≤ scene.granted.length
  le_served : scene.granted.length ≤ scene.lock.nextServing.toNat + 1
  holding_iff : ∀ i ticket, scene.stage i = .holding ticket ↔
    scene.granted[scene.lock.nextServing.toNat]? = some (i, ticket)
  waiting_iff : ∀ i ticket, scene.stage i = .waiting ticket ↔
    scene.issued[ticket.toNat]? = some (i, ticket) ∧ scene.granted.length ≤ ticket.toNat
  ready_le : ∀ i ticket, scene.stage i = .ready ticket → ticket ≤ scene.lock.nextServing

/-- At first there are no tickets. -/
theorem orderly_new : Orderly ({} : Scene ι) := by
  constructor <;> simp

/-! ### What follows -/

section

variable (h : scene.Orderly)
include h

/-- A guard that is out is the last that was granted, of the number that is served. -/
theorem Orderly.of_holding {i : ι} {ticket : UInt64} (hstage : scene.stage i = .holding ticket) :
    scene.granted.length = ticket.toNat + 1 ∧ scene.lock.nextServing = ticket ∧
      scene.granted[ticket.toNat]? = some (i, ticket) := by
  have hplace := (h.holding_iff i ticket).mp hstage
  have hlt := (List.getElem?_eq_some_iff.mp hplace).1
  obtain ⟨rest, hrest⟩ := h.granted_le
  have hnumber : ticket.toNat = scene.lock.nextServing.toNat := by
    apply @h.toNat_eq _ i
    rw [← hrest, List.getElem?_append_left hlt, hplace]
  have hle := h.le_served
  exact ⟨by omega, (UInt64.toNat_inj.mp hnumber).symm, hnumber ▸ hplace⟩

/-- The next ticket is served exactly while nobody has the guard or waits for it. -/
theorem Orderly.serving_iff :
    scene.lock.nextServing = scene.lock.nextTicket ↔ scene.Unwanted := by
  have hserved := h.served_le
  have hgranted := h.granted_le.length_le
  rw [← UInt64.toNat_inj, h.nextTicket_eq]
  constructor
  · intro heq i ticket
    rw [Ne, Ne, h.holding_iff, h.waiting_iff]
    refine ⟨fun hplace => ?_, fun hplace => ?_⟩
    · have hlt := (List.getElem?_eq_some_iff.mp hplace).1
      omega
    · have hlt := (List.getElem?_eq_some_iff.mp hplace.1).1
      omega
  · intro hunwanted
    by_contra hne
    have hle := h.le_served
    by_cases hout : scene.lock.nextServing.toNat < scene.granted.length
    · obtain ⟨⟨i, ticket⟩, hplace⟩ : ∃ last, scene.granted[scene.lock.nextServing.toNat]? = some last :=
        ⟨_, List.getElem?_eq_getElem hout⟩
      exact (hunwanted i ticket).1 ((h.holding_iff i ticket).mpr hplace)
    · have hlt : scene.lock.nextServing.toNat < scene.issued.length := by omega
      obtain ⟨⟨i, ticket⟩, hplace⟩ : ∃ first, scene.issued[scene.lock.nextServing.toNat]? = some first :=
        ⟨_, List.getElem?_eq_getElem hlt⟩
      refine (hunwanted i ticket).2 ((h.waiting_iff i ticket).mpr ?_)
      rw [h.toNat_eq hplace]
      exact ⟨hplace, Nat.le_of_not_lt hout⟩

/-- An exchange that works is of the next number, which is served. -/
theorem Orderly.of_exchange {i : ι} {ticket : UInt64} {after : TicketLock}
    (hstage : scene.stage i = .ready ticket) (hrun : scene.lock.exchange ticket = .ok (true, after)) :
    scene.lock.nextTicket = ticket ∧ scene.lock.nextServing = ticket := by
  obtain ⟨-, hnext, -⟩ := exchange_eq_ok_iff.mp hrun
  have hnext := of_decide_eq_true hnext.symm
  have hle := UInt64.le_iff_toNat_le.mp (h.ready_le i ticket hstage)
  have hserved := h.served_le
  have hgranted := h.granted_le.length_le
  have hlength := h.nextTicket_eq
  subst hnext
  exact ⟨rfl, UInt64.toNat_inj.mp (by omega)⟩

/-- A ticket was granted exactly if it is among the first. -/
theorem Orderly.mem_granted_iff {i : ι} {ticket : UInt64}
    (hplace : scene.issued[ticket.toNat]? = some (i, ticket)) :
    (i, ticket) ∈ scene.granted ↔ ticket.toNat < scene.granted.length := by
  have hsame := List.prefix_iff_getElem?.mp h.granted_le
  constructor
  · intro hmem
    obtain ⟨k, hk, hticket⟩ := List.getElem_of_mem hmem
    rw [h.toNat_eq ((hsame k hk).trans (congrArg some hticket))]
    exact hk
  · intro hlt
    have hticket := (hsame _ hlt).symm.trans hplace
    exact Option.some.inj hticket ▸ List.getElem_mem hlt

/-- All that is claimed of a lock can be read off tickets that are in order. -/
theorem Orderly.inOrder (hfew : scene.issued.length < UInt64.size - 1) : scene.InOrder where
  exclusive := by
    intro i j ticket ticket' hi hj
    have hplace := (h.holding_iff i ticket).mp hi
    rw [(h.holding_iff j ticket').mp hj] at hplace
    cases hplace
    rfl
  numbered := by
    refine List.ext_getElem (by simp) fun k hk _ => ?_
    rw [List.getElem_map, List.getElem_range]
    exact h.toNat_eq (List.getElem?_eq_getElem _)
  granted_le := h.granted_le
  holding := by
    intro i ticket hstage
    obtain ⟨hlength, -, hplace⟩ := h.of_holding hstage
    rw [List.getLast?_eq_getElem?, hlength, Nat.add_sub_cancel, hplace]
  waiting := by
    intro i ticket
    rw [h.waiting_iff]
    constructor
    · rintro ⟨hplace, hle⟩
      exact ⟨List.mem_of_getElem? hplace, by rw [h.mem_granted_iff hplace]; exact Nat.not_lt.mpr hle⟩
    · rintro ⟨hmem, hnot⟩
      obtain ⟨k, hplace⟩ := List.mem_iff_getElem?.mp hmem
      have hnumber := h.toNat_eq hplace
      subst hnumber
      exact ⟨hplace, Nat.not_lt.mp (mt (h.mem_granted_iff hplace).mpr hnot)⟩
  atOnce := by
    intro i ticket after hstage hrun
    obtain ⟨hnext, hserving⟩ := h.of_exchange hstage hrun
    exact h.serving_iff.mp (hserving.trans hnext.symm)
  serving_iff := h.serving_iff
  exchanges := by
    intro i ticket hstage
    have hle := UInt64.le_iff_toNat_le.mp (h.ready_le i ticket hstage)
    have hserved := h.served_le
    have hgranted := h.granted_le.length_le
    exact ⟨_, _, exchange_eq_ok_iff.mpr ⟨by omega, rfl, rfl⟩⟩
  leaves := by
    intro i ticket hstage
    have hlength := (h.of_holding hstage).1
    have hgranted := h.granted_le.length_le
    exact ⟨_, release_eq_ok_iff.mpr ⟨by omega, rfl⟩⟩

end

/-! ### What every step keeps -/

/-- A list that is longer by one has one more place. -/
theorem getElem?_concat_eq_some_iff {α : Type} {l : List α} {a b : α} {k : Nat} :
    (l ++ [a])[k]? = some b ↔ l[k]? = some b ∨ k = l.length ∧ a = b := by
  rcases Nat.lt_trichotomy k l.length with hlt | rfl | hgt
  · simp [List.getElem?_append_left hlt, Nat.ne_of_lt hlt]
  · simp
  · have hnone : l[k]? = none := List.getElem?_eq_none (Nat.le_of_lt hgt)
    have hnone' : (l ++ [a])[k]? = none := List.getElem?_eq_none (by simpa using Nat.succ_le_of_lt hgt)
    simp [hnone, hnone', Nat.ne_of_gt hgt]

section

variable [DecidableEq ι] {i : ι} {ticket : UInt64} {after : TicketLock}

/-- Only the caller gets to another stage. -/
@[simp] theorem set_stage {stage : Stage} :
    (scene.set i stage).stage = Function.update scene.stage i stage := rfl

/-- The caller waits with the next ticket. -/
@[simp] theorem issue_stage :
    (scene.issue i).stage = Function.update scene.stage i (.waiting scene.lock.nextTicket) := rfl

/-- The caller holds the guard of the ticket. -/
@[simp] theorem grant_stage :
    (scene.grant i ticket).stage = Function.update scene.stage i (.holding ticket) := rfl

/-- Who is at another stage than the one a caller got to was there before. -/
theorem stage_of_update {stage : ι → Stage} {new other : Stage} {j : ι} (hnew : new ≠ other)
    (hj : Function.update stage i new j = other) : stage j = other := by
  rw [Function.update_apply] at hj
  split at hj
  · exact absurd hj hnew
  · exact hj

/-- Nobody else notices that a caller gets from one stage to another. -/
theorem update_stage_iff {stage : ι → Stage} {new other : Stage} {j : ι} (hold : stage i ≠ other)
    (hnew : new ≠ other) : Function.update stage i new j = other ↔ stage j = other := by
  refine ⟨stage_of_update hnew, fun hj => ?_⟩
  rw [Function.update_of_ne]
  · exact hj
  · rintro rfl
    exact hold hj

variable (h : scene.Orderly)
include h

/-- A caller who has no ticket gets to a stage without one. -/
theorem Orderly.set {stage : Stage} (hbefore : (scene.stage i).Ticketless) (hafter : stage.Ticketless)
    (hready : ∀ ticket, stage = .ready ticket → ticket ≤ scene.lock.nextServing) :
    (scene.set i stage).Orderly where
  toNat_eq := h.toNat_eq
  nextTicket_eq := h.nextTicket_eq
  granted_le := h.granted_le
  served_le := h.served_le
  le_served := h.le_served
  holding_iff := by
    intro j ticket
    rw [set_stage, update_stage_iff (hbefore ticket).1 (hafter ticket).1]
    exact h.holding_iff j ticket
  waiting_iff := by
    intro j ticket
    rw [set_stage, update_stage_iff (hbefore ticket).2 (hafter ticket).2]
    exact h.waiting_iff j ticket
  ready_le := by
    intro j ticket hstage
    rw [set_stage] at hstage
    by_cases hnew : stage = .ready ticket
    · exact hready ticket hnew
    · exact h.ready_le j ticket (stage_of_update hnew hstage)

/-- The next ticket is taken. -/
theorem Orderly.issue (hbefore : (scene.stage i).Ticketless)
    (hfew : scene.issued.length + 1 < UInt64.size) : (scene.issue i).Orderly where
  toNat_eq := by
    intro k j ticket hplace
    rcases getElem?_concat_eq_some_iff.mp hplace with hplace | ⟨rfl, heq⟩
    · exact h.toNat_eq hplace
    · cases heq
      exact h.nextTicket_eq
  nextTicket_eq := by
    have hlt : scene.lock.nextTicket.toNat + 1 < UInt64.size := h.nextTicket_eq ▸ hfew
    simp only [Scene.issue, takeTicket, toNat_succ hlt, h.nextTicket_eq, List.length_append,
      List.length_singleton]
  granted_le := h.granted_le.trans (List.prefix_append _ _)
  served_le := h.served_le
  le_served := h.le_served
  holding_iff := by
    intro j ticket
    rw [issue_stage, update_stage_iff (hbefore ticket).1 (by nofun)]
    exact h.holding_iff j ticket
  waiting_iff := by
    intro j ticket
    have hgranted := h.granted_le.length_le
    have hnext := h.nextTicket_eq
    have hwaiting := h.waiting_iff j ticket
    simp only [Scene.issue, takeTicket, getElem?_concat_eq_some_iff, or_and_right, ← hwaiting]
    by_cases hj : j = i
    · subst hj
      rw [Function.update_self]
      constructor
      · rintro ⟨⟩
        exact .inr ⟨⟨hnext, rfl⟩, by omega⟩
      · rintro (hwaits | ⟨⟨-, ⟨⟩⟩, -⟩)
        · exact absurd hwaits (hbefore ticket).2
        · rfl
    · simp [hj, Ne.symm hj]
  ready_le := by
    intro j ticket hready
    rw [issue_stage] at hready
    exact h.ready_le j ticket (stage_of_update (by nofun) hready)

/-- A ticket that is served is granted. -/
theorem Orderly.grant (hstage : scene.stage i = .waiting ticket)
    (hserving : scene.lock.nextServing = ticket) : (scene.grant i ticket).Orderly := by
  obtain ⟨hplace, hle⟩ := (h.waiting_iff i ticket).mp hstage
  have hserved := h.served_le
  have hnumber : scene.granted.length = ticket.toNat := by
    rw [hserving] at hserved
    omega
  refine ⟨h.toNat_eq, h.nextTicket_eq, ?granted_le, ?served_le, ?le_served, ?holding_iff, ?waiting_iff,
    ?ready_le⟩
  case granted_le =>
    obtain ⟨rest, hrest⟩ := h.granted_le
    rw [← hrest, List.getElem?_append_right hle, hnumber, Nat.sub_self] at hplace
    obtain ⟨tail, rfl⟩ := List.head?_eq_some_iff.mp (List.head?_eq_getElem?.trans hplace)
    exact ⟨tail, by simp [Scene.grant, ← hrest]⟩
  case served_le => simpa [Scene.grant] using Nat.le_succ_of_le hserved
  case le_served => simp [Scene.grant, hserving, hnumber]
  case holding_iff =>
    intro j other
    have hnone : scene.granted[ticket.toNat]? = none := List.getElem?_eq_none (Nat.le_of_eq hnumber)
    have hholding := h.holding_iff j other
    rw [hserving, hnone] at hholding
    simp only [Scene.grant, hserving, getElem?_concat_eq_some_iff, hnone, hnumber]
    by_cases hj : j = i
    · subst hj
      simp
    · simp [hj, Ne.symm hj, hholding]
  case waiting_iff =>
    intro j other
    have hwaiting := h.waiting_iff j other
    simp only [Scene.grant, List.length_append, List.length_singleton]
    by_cases hj : j = i
    · subst hj
      rw [Function.update_self]
      refine ⟨nofun, fun ⟨hplace', hle'⟩ => ?_⟩
      have hwaits := hstage.symm.trans (hwaiting.mpr ⟨hplace', by omega⟩)
      cases hwaits
      omega
    · rw [Function.update_of_ne hj, hwaiting]
      refine and_congr_right fun hplace' => ⟨fun hle' => ?_, fun hle' => by omega⟩
      refine Nat.lt_of_le_of_ne hle' fun heq => hj ?_
      rw [← heq, hnumber, hplace] at hplace'
      cases hplace'
      rfl
  case ready_le =>
    intro j other hready
    rw [grant_stage] at hready
    exact h.ready_le j other (stage_of_update (by nofun) hready)

/-- The guard is given back, and the next number is served. -/
theorem Orderly.leave (hstage : scene.stage i = .holding ticket)
    (hrun : scene.lock.release ticket = .ok after) :
    (Scene.set { scene with lock := after } i .idle).Orderly := by
  obtain ⟨hlength, hserving, hplace⟩ := h.of_holding hstage
  obtain ⟨hlt, rfl⟩ := release_eq_ok_iff.mp hrun
  have hnext := toNat_succ hlt
  refine ⟨h.toNat_eq, h.nextTicket_eq, h.granted_le, ?served_le, ?le_served, ?holding_iff, ?waiting_iff,
    ?ready_le⟩
  case served_le => simp [Scene.set, hnext, hlength]
  case le_served => simp [Scene.set, hnext, hlength]
  case holding_iff =>
    intro j other
    have hnone : scene.granted[ticket.toNat + 1]? = none := List.getElem?_eq_none (Nat.le_of_eq hlength)
    have hholding := h.holding_iff j other
    rw [hserving, hplace] at hholding
    simp only [Scene.set, hnext, hnone]
    by_cases hj : j = i
    · subst hj
      simp
    · simp [hj, Ne.symm hj, hholding]
  case waiting_iff =>
    intro j other
    rw [set_stage, update_stage_iff (by simp [hstage]) (by nofun)]
    exact h.waiting_iff j other
  case ready_le =>
    intro j other hready
    rw [set_stage] at hready
    have hle := h.ready_le j other (stage_of_update (by nofun) hready)
    rw [hserving] at hle
    simp only [Scene.set, UInt64.le_iff_toNat_le, hnext] at hle ⊢
    exact Nat.le_succ_of_le hle

end

/-- One step keeps the order while the numbers last. -/
theorem Orderly.step [DecidableEq ι] {scene' : Scene ι} (h : scene.Orderly) (hstep : Step scene scene')
    (hfew : scene'.issued.length < UInt64.size) : scene'.Orderly := by
  cases hstep with
  | take i hstage =>
    refine h.issue (by simp [hstage, Stage.Ticketless]) ?_
    simpa [Scene.issue] using hfew
  | wait i hstage hserving => exact h
  | enter i hstage hserving => exact h.grant hstage (isServing_iff.mp hserving)
  | look i hstage =>
    exact h.set (by simp [hstage, Stage.Ticketless]) (by simp [Stage.Ticketless]) nofun
  | check i hstage hserving =>
    refine h.set (by simp [hstage, Stage.Ticketless]) (by simp [Stage.Ticketless]) ?_
    rintro _ ⟨⟩
    exact UInt64.le_of_eq (isServing_iff.mp hserving).symm
  | giveUp i hstage hserving =>
    exact h.set (by simp [hstage, Stage.Ticketless]) (by simp [Stage.Ticketless]) nofun
  | @succeed i ticket after hstage hrun =>
    obtain ⟨hnext, hserving⟩ := h.of_exchange hstage hrun
    have hafter := (exchange_eq_ok_iff.mp hrun).2.2
    have heq : Scene.grant { scene with lock := after, issued := scene.issued ++ [(i, ticket)] } i ticket =
        (scene.issue i).grant i ticket := by
      simp [Scene.grant, Scene.issue, takeTicket, hafter, hnext]
    rw [heq] at hfew ⊢
    refine (h.issue (by simp [hstage, Stage.Ticketless]) ?_).grant ?_ hserving
    · simpa [Scene.grant, Scene.issue] using hfew
    · simp [Scene.issue, takeTicket, hnext]
  | retry i hstage hrun =>
    obtain ⟨-, -, rfl⟩ := exchange_eq_ok_iff.mp hrun
    exact h.set (by simp [hstage, Stage.Ticketless]) (by simp [Stage.Ticketless]) nofun
  | again i hstage =>
    exact h.set (by simp [hstage, Stage.Ticketless]) (by simp [Stage.Ticketless]) nofun
  | leave i hstage hrun => exact h.leave hstage hrun

variable [DecidableEq ι]

/-- No step takes back a ticket that was issued. -/
theorem issued_length_le {scene' : Scene ι} (hstep : Step scene scene') :
    scene.issued.length ≤ scene'.issued.length := by
  cases hstep <;> simp [Scene.issue, Scene.grant, Scene.set]

/-- While the numbers of the tickets last, whatever steps were taken, the tickets are in order. -/
theorem Reached.orderly (h : scene.Reached) (hfew : scene.issued.length < UInt64.size) :
    scene.Orderly := by
  induction h with
  | refl => exact orderly_new
  | tail _ hstep ih => exact (ih (Nat.lt_of_le_of_lt (issued_length_le hstep) hfew)).step hstep hfew

/-- While the numbers of the tickets last, the lock excludes, and serves in the order in which tickets
were taken, whoever takes which step next. -/
theorem Reached.servesInOrder (h : scene.Reached) (hfew : scene.issued.length < UInt64.size - 1) :
    scene.InOrder :=
  (h.orderly (Nat.lt_of_lt_of_le hfew (Nat.sub_le _ _))).inOrder hfew

/-- Somebody looks at the next number before another takes that ticket, finds it gone, and takes a ticket
to wait with, which is served when the other leaves. -/
theorem servesInOrder_sample : ∃ scene : Scene Bool, scene.Reached ∧
    scene.granted = [(false, 0), (true, 1)] ∧ scene.stage true = .holding 1 ∧
      scene.issued.length < UInt64.size - 1 ∧ scene.InOrder := by
  have hlook : Reached _ := .tail .refl (.look true rfl)
  have htake : Reached _ := .tail (.tail hlook (.take false rfl)) (.enter false rfl rfl)
  have hfail : Reached _ := .tail (.tail (.tail htake (.check true rfl rfl)) (.retry true rfl rfl))
    (.giveUp true rfl rfl)
  have hleave : Reached _ := .tail (.tail hfail (.take true rfl)) (.leave false rfl rfl)
  have henter : Reached _ := .tail hleave (.enter true rfl rfl)
  exact ⟨_, henter, rfl, rfl, by decide, Reached.servesInOrder henter (by decide)⟩

/-- To take the lock at once, if nothing comes in between, is a few of these steps. -/
theorem reaches_of_tryTake {i : ι} {answer : Option UInt64} {after : TicketLock}
    (hstage : scene.stage i = .idle) (hrun : scene.lock.tryTake = .ok (answer, after)) :
    ∃ scene', Relation.ReflTransGen Step scene scene' ∧ scene'.lock = after ∧
      scene'.stage i = match answer with
        | some ticket => .holding ticket
        | none => .idle := by
  have hlook : Relation.ReflTransGen Step scene _ := .single (.look i hstage)
  have hlooking : (scene.set i (.looking scene.lock.nextTicket)).stage i =
      .looking scene.lock.nextTicket := Function.update_self ..
  rw [tryTake] at hrun
  cases hserving : scene.lock.isServing scene.lock.nextTicket with
  | false =>
    simp only [hserving, Bool.false_eq_true, if_false] at hrun
    cases hrun
    exact ⟨_, hlook.tail (.giveUp i hlooking hserving), rfl, Function.update_self ..⟩
  | true =>
    simp only [hserving, if_true] at hrun
    cases hexchange : scene.lock.exchange scene.lock.nextTicket with
    | error halt => simp [hexchange] at hrun
    | ok answered =>
      obtain ⟨worked, lock⟩ := answered
      simp only [hexchange] at hrun
      cases hrun
      obtain ⟨-, hworked, -⟩ := exchange_eq_ok_iff.mp hexchange
      rw [decide_eq_true rfl] at hworked
      subst hworked
      exact ⟨_, (hlook.tail (.check i hlooking hserving)).tail
        (.succeed i (Function.update_self ..) hexchange), rfl, Function.update_self ..⟩

end Scene

end TicketLock

end DemandPaging
