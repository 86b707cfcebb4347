import DemandPaging.Kernel.Eviction
import DemandPaging.Proofs.Transfers

/-!
# Choosing a victim

What is ensured of the first half of an eviction: it finds a frame in the pool after all, or it takes
the record of a mapped page out of the table. While the clock hand goes round it clears accessed
flags, which changes nothing that matters (`Alike`).
-/

set_option autoImplicit false

namespace DemandPaging

namespace Transition

open Spaces Machine

variable {machine : Machine} {away : Away}

/-- Reading a mark clears it, and that is all. -/
theorem ensures_testAndClear (table : FrameTable) (index : Nat) :
    Ensures ((Kernel.candidates table).testAndClear index) machine fun _ after =>
      ∃ spaces, after = { machine with spaces } ∧ Alike machine.spaces spaces := by
  unfold Kernel.candidates
  simp only
  split
  · simp only [ensures_bind, ensures_findEntry]
    intro space _
    refine ensures_ite (fun _ => ?_) (fun _ => ?_)
    · simp only [lift_eq, ensures_bind, ensures_setAccessed, ensures_pure]
      exact ⟨_, rfl, alike_mark (fun _ => rfl) fun _ hd => hd⟩
    · exact ⟨machine.spaces, rfl, .refl _⟩
  · exact ⟨machine.spaces, rfl, .refl _⟩

/-- The clock hand only clears marks, and it stops at a frame that may be evicted. -/
theorem ensures_sweep (table : FrameTable) (visits : List Nat) (fallback : Option Nat)
    (hfallback : ∀ index, fallback = some index → table.isEligible index = true) :
    Ensures (SecondChance.sweep (Kernel.candidates table) visits fallback) machine
      fun choice after => (∃ spaces, after = { machine with spaces } ∧ Alike machine.spaces spaces) ∧
        ∀ index, choice = some index → table.isEligible index = true := by
  induction visits generalizing fallback machine with
  | nil => exact ⟨⟨machine.spaces, rfl, .refl _⟩, hfallback⟩
  | cons index rest ih =>
    rw [SecondChance.sweep]
    refine ensures_ite (fun heligible => ?_) (fun _ => ih fallback hfallback)
    rw [ensures_bind]
    refine (ensures_testAndClear table index).mono ?_
    rintro accessed _ ⟨spaces, rfl, hlike⟩
    refine ensures_ite (fun _ => ?_) (fun _ => ?_)
    · have hnext : ∀ i, (fallback <|> some index) = some i → table.isEligible i = true := by
        intro i hi
        cases fallback with
        | none =>
          cases hi
          exact heligible
        | some first => exact hfallback i hi
      refine (ih (fallback <|> some index) hnext).mono ?_
      rintro choice _ ⟨⟨spaces', rfl, hlike'⟩, hchoice⟩
      exact ⟨⟨spaces', rfl, hlike.trans hlike'⟩, hchoice⟩
    · refine ⟨⟨spaces, rfl, hlike⟩, fun i hi => ?_⟩
      cases hi
      exact heligible

/-- A victim is a mapped page whose record has left the table; all else is as it was. -/
structure Chosen (away : Away) (before : Machine) (victim : FrameRecord) (after : Machine) :
    Prop where
  split : ∃ front rear, before.frames.records = front ++ victim :: rear ∧
    after.frames.records = front ++ rear
  bound : victim.page.isSome = true
  coherent : Coherent away before.frames.records [] [] after
  paging : Paging 0 before after

/-- The page of a victim is mapped to the frame of the victim. -/
theorem Chosen.page {before after : Machine} {victim : FrameRecord}
    (h : Chosen away before victim after) :
    ∃ frame s p entry, victim = ⟨frame, s, some p⟩ ∧ IsAligned p ∧
      mapped? after.spaces s p = some entry ∧ entry.frame.toNat = frame := by
  obtain ⟨⟨front, rear, hsplit, -⟩, hbound, hcoherent, -⟩ := h
  obtain ⟨frame, s, page⟩ := victim
  obtain ⟨p, rfl⟩ := Option.isSome_iff_exists.mp hbound
  have hmem : (⟨frame, s, some p⟩ : FrameRecord) ∈ before.frames.records := by simp [hsplit]
  obtain ⟨p', hp', hp, hframe⟩ := (hcoherent.tracked.mem_iff _).mp hmem
  obtain rfl : p = p' := Option.some.inj hp'
  obtain ⟨entry, hentry, hnumber⟩ := Option.map_eq_some_iff.mp hframe
  exact ⟨frame, s, p, entry, rfl, hp, hentry, hnumber⟩

/-- The clock chooses a victim, or there is none. -/
theorem ensures_chooseVictim (h : machine.SettledBut away) :
    Ensures Kernel.chooseVictim machine fun outcome after =>
      match outcome with
      | .ok victim => Chosen away machine victim after
      | .error _ => after.SettledBut away ∧ Paging 0 machine after := by
  simp only [Kernel.chooseVictim, SecondChance.select, lift_eq, ensures_bind, ensures_frames]
  refine (ensures_sweep machine.frames _ none fun index hi => by cases hi).mono ?_
  rintro choice _ ⟨⟨spaces, rfl, hlike⟩, hchoice⟩
  have hpaging : ∀ frames : FrameTable, frames.memory = machine.frames.memory →
      Paging 0 machine { machine with spaces, frames } := fun frames hmemory =>
    .of_alike hlike rfl hmemory rfl rfl
  have hcoherent : ∀ frames : FrameTable, frames.pool = machine.frames.pool →
      frames.memory = machine.frames.memory →
      Coherent away machine.frames.records [] [] { machine with spaces, frames } :=
    fun frames hpool hmemory =>
      Coherent.alike h hpool (congrArg FrameMemory.size hmemory) hlike rfl
  cases choice with
  | none =>
    simp only [takeVictim, ensures_pure, ensures_bind, ensures_frames, Option.bind_none,
      ensures_setFrames]
    exact ⟨hcoherent _ rfl rfl, hpaging _ rfl⟩
  | some index =>
    simp only [takeVictim, ensures_pure, ensures_bind, ensures_frames, Option.bind_some]
    cases hrecord : machine.frames.records[index]? with
    | none =>
      simp only [ensures_bind, ensures_setFrames, ensures_pure]
      exact ⟨hcoherent _ rfl rfl, hpaging _ rfl⟩
    | some victim =>
      simp only [ensures_bind, ensures_setFrames, ensures_pure]
      have heligible := hchoice index rfl
      rw [FrameTable.isEligible, hrecord, Option.any_some, Bool.and_eq_true] at heligible
      obtain ⟨front, rear, hsplit, hlength⟩ := FrameTable.exists_split_of_getElem? hrecord
      have hrecords := @FrameTable.records_removeAt
        { machine.frames with clock := { hand := index } } front rear victim hsplit
      rw [hlength] at hrecords
      exact ⟨⟨front, rear, hsplit, hrecords⟩, heligible.1, hcoherent _ rfl rfl, hpaging _ rfl⟩

/-- There is a free frame after all, or a victim, or neither. -/
theorem ensures_findSource (h : machine.SettledBut away) :
    Ensures Kernel.findSource machine fun outcome after =>
      match outcome with
      | .ok (.pool frame) =>
        Coherent away after.frames.records [frame] [] after ∧ Paging 0 machine after
      | .ok (.page victim) => ∃ middle, Paging 0 machine middle ∧ middle.SettledBut away ∧
        Chosen away middle victim after
      | .error _ => after.SettledBut away ∧ Paging 0 machine after := by
  simp only [Kernel.findSource, lookAgain, lift_eq, ensures_bind, ensures_frames,
    ensures_setFrames, ensures_ofExcept]
  refine ⟨?_, fun halt hhalt => FramePool.not_isDoubleRelease_of_alloc hhalt⟩
  rintro ⟨frame, pool⟩ halloc
  have hpaging : ∀ m' : Machine,
      m' = { machine with frames := { machine.frames with pool } } → Paging 0 machine m' := by
    rintro m' rfl
    exact .of_spaces rfl rfl (.refl _ _) (fun _ _ _ _ _ _ => rfl) fun _ _ _ _ _ _ => rfl
  obtain ⟨hcapacity, hfound⟩ := h.pool.alloc halloc
  cases frame with
  | some frame =>
    simp only [ensures_pure]
    refine ⟨Coherent.setPool h ?_ hcapacity rfl rfl rfl, hpaging _ rfl⟩
    refine hfound.2.perm ?_ fun _ => Iff.rfl
    exact List.perm_middle.symm
  | none =>
    simp only [ensures_pure]
    have hsettled :
        Machine.SettledBut away { machine with frames := { machine.frames with pool } } :=
      Coherent.setPool h hfound hcapacity rfl rfl rfl
    by_cases hempty : machine.frames.records.isEmpty = true
    · rw [if_pos hempty]
      exact ⟨hsettled, hpaging _ rfl⟩
    · rw [if_neg hempty]
      simp only [ensures_bind, ensures_pure]
      refine (ensures_chooseVictim hsettled).mono fun outcome after hafter => ?_
      cases outcome with
      | error cause => exact ⟨hafter.1, (hpaging _ rfl).trans hafter.2⟩
      | ok victim => exact ⟨_, hpaging _ rfl, hsettled, hafter⟩

end Transition

end DemandPaging
