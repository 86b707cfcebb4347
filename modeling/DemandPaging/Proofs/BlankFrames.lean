import DemandPaging.Proofs.FramesInFlight
import DemandPaging.Proofs.PoolRuns

/-!
# Frames that are handed out blank

A frame that is asked for as zero is all zero when it is handed out, wherever it came from, and a frame that
was taken from a page is all zero whether that was asked for or not. Whatever was in the frame before, none
of it is left (`Kernel.handed_out_blank`). This takes no invariant: it holds on every machine.

Where a frame comes from is decided in three places. A frame that the pool still has is cleared by
`Kernel.handOver`. An eviction clears its victim's frame when it ends well, whatever the plan was
(`Outcomes.migrate_blank`), and says so; it says the contrary of a frame that it finds free after all
(`Outcomes.evict_blank`), and `Kernel.handOver` goes by what it says. The frame is found free there only if
somebody gave it back after the first look, so what evictions do is stated of operations that others come in
between, and nothing is asked of the others. Once the frame is in hand, they must not write to it.
-/

set_option autoImplicit false

namespace DemandPaging

open Transition

/-- Every byte of the frame is zero. -/
def Machine.IsBlank (frame : Nat) (machine : Machine) : Prop :=
  ∀ k < pageSize, machine.frames.memory.byte? frame k = some 0

/-- The frame is out of the pool. -/
def Machine.InUse (frame : Nat) (machine : Machine) : Prop :=
  machine.frames.pool.isAllocated frame = true

/-- The others do not give the frame back. -/
def Withholds (frame : Nat) (others : Machine → Machine → Prop) : Prop :=
  ∀ before after, others before after → before.InUse frame → after.InUse frame

/-- The others do not write to the frame while it is blank. -/
def Spares (frame : Nat) (others : Machine → Machine → Prop) : Prop :=
  ∀ before after, others before after → before.IsBlank frame → after.IsBlank frame

/-- Others who do nothing spare every frame. -/
theorem spares_eq (frame : Nat) : Spares frame Eq := fun _ _ heq hblank => heq ▸ hblank

/-! ### What clears a frame -/

section

variable {machine after : Machine} {frame : Nat}

/-- Whether a frame is blank depends on the contents of frames alone. -/
theorem Machine.IsBlank.congr (h : machine.IsBlank frame)
    (hmemory : after.frames.memory = machine.frames.memory) : after.IsBlank frame := by
  unfold IsBlank
  rw [hmemory]
  exact h

/-- What is in a frame is all zero after it was cleared. -/
theorem Machine.isBlank_of_setPage (hlt : frame < machine.frames.memory.size)
    (hmemory : after.frames.memory = machine.frames.memory.setPage frame Page.blank) :
    after.IsBlank frame := by
  intro k hk
  rw [hmemory, FrameMemory.byte?_setPage_blank hlt, if_pos hk]

/-- A frame that was cleared is blank. -/
theorem Machine.Clears.isBlank (h : machine.Clears frame after) : after.IsBlank frame := by
  apply Machine.isBlank_of_setPage h.exists_frame
  rw [h.frames_eq]

/-- What is recorded does not matter to what is in the frames. -/
theorem Transition.yields_record_memory (owner : SpaceId) (page : Option Nat) :
    (Transition.record frame owner page).Yields machine fun _ after =>
      after.frames.memory = machine.frames.memory := by
  rw [Transition.record]
  refine yields_bind.mpr (yields_frames.mpr (yields_bind.mpr (yields_ofExcept.mpr fun table htable => ?_)))
  refine yields_setFrames.mpr ?_
  exact FrameTable.memory_insert htable

end

/-! ### Frames from the pool -/

namespace FramePool

variable {pool after : FramePool} {frame : Nat}

/-- A frame that is free in the map was not handed out. -/
theorem not_isAllocated_of_isFree (h : pool.map.isFree frame = true) : ¬ pool.isAllocated frame = true := by
  obtain ⟨entry, hentry, hnot⟩ := (Option.any_eq_true ..).mp h
  rw [isAllocated, hentry, Option.any_some, Bool.not_eq_true]
  exact (Bool.not_eq_true' _).mp hnot

/-- If there is no free frame, all that may change is where the next search begins. -/
theorem alloc_eq_none (h : pool.alloc = .ok (none, after)) : after.map = pool.map := by
  unfold FramePool.alloc at h
  split at h
  · cases h
    rfl
  · cases hplace : (pool.placer.place pool.map 1).1 with
    | none =>
      simp only [hplace] at h
      cases h
      rfl
    | some place =>
      simp only [hplace, PoolCall.isFree_of_place hplace] at h
      cases h

end FramePool

/-- A frame that is found at the first look was free. -/
theorem Transition.yields_allocFree_free {machine : Machine} (owner : SpaceId) (page : Option Nat) :
    (Transition.allocFree owner page).Yields machine fun found after =>
      match found with
      | some frame => ¬ machine.InUse frame
      | none => after.frames.pool.map = machine.frames.pool.map := by
  rw [Transition.allocFree]
  refine yields_bind.mpr (yields_frames.mpr (yields_bind.mpr (yields_ofExcept.mpr ?_)))
  rintro ⟨found, table⟩ htable
  refine yields_bind.mpr (yields_setFrames.mpr (yields_pure.mpr ?_))
  obtain ⟨pool, halloc, hfound⟩ := FrameTable.exists_of_allocFree htable
  cases found with
  | none =>
    obtain rfl : table = _ := hfound
    exact FramePool.alloc_eq_none halloc
  | some frame => exact FramePool.not_isAllocated_of_isFree (FramePool.alloc_eq_some halloc).1

/-! ### Operations -/

namespace Outcomes

variable {m : Type → Type} [Kernel m] {others : Machine → Machine → Prop} {evicts : Prop}
  (O : Outcomes m others evicts) {machine : Machine}

/-- Whatever the plan for a victim is, its frame is blank when it was moved out. -/
theorem migrate_blank
    (hany : ∀ {α : Type} (work : m α) (machine : Machine), O.Yields work machine fun _ _ => True)
    (victim : FrameRecord) :
    O.Yields (Kernel.migrate victim) machine fun outcome after =>
      outcome = .ok () → after.IsBlank victim.frame := by
  rw [Kernel.migrate]
  refine O.bind (O.holding (O.atomically fun met _ => ?_))
  refine (yields_detach victim).mono fun transit taken htransit => ?_
  -- where the contents go, and what others do meanwhile, does not matter
  refine O.bind (O.mono (hany (Kernel.writeOut transit) taken) fun written middle _ => ?_)
  cases written with
  | error cause =>
    refine O.bind (O.mono (hany _ middle) fun _ _ _ => O.pure ?_)
    intro hok
    cases hok
  | ok copy =>
    refine O.bind (O.holding (O.holding (O.atomically fun last _ => ?_)))
    refine (yields_finish_clears transit copy).mono fun _ after hclears => O.pure fun _ => ?_
    rw [← htransit.1]
    exact hclears.isBlank

/-- An eviction that says that its frame is clean has cleared it. If it says that it is not, the frame was
free when it began to look for one. -/
theorem evict_blank
    (hany : ∀ {α : Type} (work : m α) (machine : Machine), O.Yields work machine fun _ _ => True) :
    O.Yields Kernel.evict machine fun outcome after => ∀ frame clean, outcome = .ok (frame, clean) →
      if clean then after.IsBlank frame
      else ∃ met, others machine met ∧ ¬ met.InUse frame := by
  have hsource : O.Yields Kernel.findSource machine fun source _ => ∀ frame,
      source = .ok (.pool frame) →
        ∃ met, others machine met ∧ ¬ met.InUse frame := by
    rw [Kernel.findSource]
    refine O.bind (O.atomically fun met hmet => yields_lookAgain ?_ ?_)
    · intro found pool halloc
      refine O.pure fun frame hfound => ?_
      cases hfound
      exact ⟨met, hmet, FramePool.not_isAllocated_of_isFree (FramePool.alloc_eq_some halloc).1⟩
    · rintro pool - _ (rfl | rfl)
      · refine O.pure fun frame hfound => ?_
        cases hfound
      · refine O.bind (O.mono (hany _ _) fun victim _ _ => O.pure fun frame hfound => ?_)
        cases victim <;> cases hfound
  rw [Kernel.evict]
  refine O.holding (O.bind (O.holding (O.mono hsource fun source picked hfree => ?_)))
  cases source with
  | error cause =>
    refine O.pure fun frame clean heq => ?_
    cases heq
  | ok source =>
    cases source with
    | pool found =>
      refine O.pure fun frame clean heq => ?_
      cases heq
      exact hfree found rfl
    | page victim =>
      refine O.bind (O.mono (O.migrate_blank hany victim) fun moved after hblank => ?_)
      cases moved with
      | error cause =>
        refine O.pure fun frame clean heq => ?_
        cases heq
      | ok u =>
        refine O.pure fun frame clean heq => ?_
        cases heq
        exact hblank rfl

/-- A frame is handed over blank if that is asked for, and if it is blank already. -/
theorem handOver_blank (owner : SpaceId) (page : Option Nat) {zeroed clean : Bool} {frame : Nat}
    (hspares : Spares frame others) (hclean : clean = true → machine.IsBlank frame)
    (hwanted : zeroed = true ∨ clean = true) :
    O.Yields (Kernel.handOver owner page zeroed clean frame) machine fun _ after =>
      after.IsBlank frame := by
  have hnotify : ∀ before : Machine, before.IsBlank frame →
      O.Yields (do Transition.notify (.allocated (← Transition.space owner).pid frame page) : m Unit)
        before fun _ after => after.IsBlank frame := by
    intro before hblank
    refine O.bind (O.atomically fun met hmet => yields_space.mpr fun _ _ => ?_)
    refine O.atomically fun last hlast => yields_notify.mpr ?_
    exact (hspares met last hlast (hspares before met hmet hblank)).congr rfl
  rw [Kernel.handOver]
  split
  · refine O.bind (O.holding (O.atomically fun met _ => (ensures_zero.mpr fun content hcontent => ?_).yields))
    exact hnotify _ (Machine.isBlank_of_setPage (FrameMemory.lt_size_of_page hcontent) rfl)
  · rename_i hnot
    refine hnotify machine (hclean ?_)
    cases clean with
    | true => rfl
    | false =>
      obtain rfl : zeroed = true := hwanted.resolve_right Bool.false_ne_true
      exact absurd rfl hnot

/-- A frame that a call hands out is blank if that is asked for, and if it was in use all the time. -/
theorem allocateRecord_blank
    (hany : ∀ {α : Type} (work : m α) (machine : Machine), O.Yields work machine fun _ _ => True)
    (owner : SpaceId) (page : Option Nat) {zeroed : Bool} {frame : Nat} (hspares : Spares frame others)
    (hwanted : zeroed = true ∨ machine.InUse frame ∧ Withholds frame others) :
    O.Yields (Kernel.allocateRecord owner page zeroed) machine fun outcome after =>
      outcome = .ok frame → after.IsBlank frame := by
  rw [Kernel.allocateRecord]
  refine O.bind (O.holding (O.atomically fun met hmet => ?_))
  refine (yields_allocFree_free owner page).mono fun found looked hfound => ?_
  cases found with
  | some first =>
    by_cases hfirst : first = frame
    · subst hfirst
      have hzeroed : zeroed = true := by
        refine hwanted.resolve_right fun hkept => hfound ?_
        obtain ⟨hused, hwithheld⟩ := hkept
        exact hwithheld machine met hmet hused
      refine O.bind (O.mono (O.handOver_blank owner page hspares (fun h => ?_) (.inl hzeroed)) ?_)
      · cases h
      · exact fun _ after hblank => O.pure fun _ => hblank
    · refine O.bind (O.mono (hany _ _) fun _ after _ => O.pure fun heq => ?_)
      cases heq
      exact absurd rfl hfirst
  | none =>
    refine O.bind (O.mono (O.evict_blank hany) fun outcome evicted hevicted => ?_)
    cases outcome with
    | error cause =>
      refine O.pure fun heq => ?_
      cases heq
    | ok result =>
      obtain ⟨taken, clean⟩ := result
      by_cases htaken : taken = frame
      · subst htaken
        have hclean := hevicted taken clean rfl
        -- only an eviction that found the frame free, or made it so, has it to give
        have hwanted' : zeroed = true ∨ clean = true := by
          refine hwanted.imp_right fun hkept => ?_
          obtain ⟨hused, hwithheld⟩ := hkept
          by_contra hnot
          rw [if_neg hnot] at hclean
          obtain ⟨again, hagain, hfree⟩ := hclean
          have hstill : looked.InUse taken := by
            rw [Machine.InUse, FramePool.isAllocated, hfound]
            exact hwithheld machine met hmet hused
          exact hfree (hwithheld looked again hagain hstill)
        refine O.bind (O.holding (O.atomically fun last hlast => ?_))
        refine (yields_record_memory owner page).mono fun _ recorded hmemory => ?_
        have hblank : clean = true → recorded.IsBlank taken := by
          rintro rfl
          exact (hspares evicted last hlast hclean).congr hmemory
        refine O.bind (O.mono (O.handOver_blank owner page hspares hblank hwanted') ?_)
        exact fun _ after hblank => O.pure fun _ => hblank
      · refine O.bind (O.mono (hany _ _) fun _ middle _ => ?_)
        refine O.bind (O.mono (hany _ _) fun _ after _ => O.pure fun heq => ?_)
        cases heq
        exact absurd rfl htaken

end Outcomes

/-! ### Handing out frames -/

/-- On every machine: a frame that is asked for as zero is all zero, and so is one that was in use before
the call, that is, one that was taken from a page.

Others may do anything while an eviction looks for a frame and moves a victim out, whatever the plan for the
victim is: it ends with a frame that it has cleared, or with one that it found free and that it says is not
clean. And a frame that is handed over while others do not write to it is all zero if that is asked for, and
if it was already. -/
theorem Kernel.handed_out_blank (machine : Machine) (owner : SpaceId) (page frame : Nat) (zeroed : Bool) :
    (∀ after, (Kernel.allocate owner zeroed : Transition _) machine = .ok (.ok frame) after ∨
        (Kernel.allocateFor owner page zeroed : Transition _) machine = .ok (.ok frame) after →
      zeroed = true ∨ machine.InUse frame → after.IsBlank frame) ∧
    ∀ others,
      (∀ victim after, (Kernel.migrate victim : Woven others _) machine (.ok (.ok ()) after) →
        after.IsBlank victim.frame) ∧
      (∀ clean evicted, (Kernel.evict : Woven others _) machine (.ok (.ok (frame, clean)) evicted) →
        if clean then evicted.IsBlank frame else ∃ met, others machine met ∧ ¬ met.InUse frame) ∧
      (Spares frame others → ∀ bound after,
        ((Kernel.allocateRecord owner bound true : Woven others _) machine (.ok (.ok frame) after) →
          after.IsBlank frame) ∧
        ∀ clean, (clean = true → machine.IsBlank frame) → zeroed = true ∨ clean = true →
          (Kernel.handOver owner bound zeroed clean frame : Woven others _) machine (.ok () after) →
            after.IsBlank frame) := by
  have halone : ∀ bound after, zeroed = true ∨ machine.InUse frame →
      (Kernel.allocateRecord owner bound zeroed : Transition _) machine = .ok (.ok frame) after →
        after.IsBlank frame := by
    intro bound after hwanted hrun
    refine Outcomes.alone.allocateRecord_blank (fun _ _ _ _ _ => trivial) owner bound (spares_eq frame)
      (hwanted.imp_right fun hused => ⟨hused, ?_⟩) _ _ hrun rfl
    rintro before _ rfl hused'
    exact hused'
  refine ⟨fun after hrun hwanted => ?_, fun others => ⟨?_, ?_, fun hspares bound after => ⟨?_, ?_⟩⟩⟩
  · rcases hrun with hrun | hrun
    · exact halone none after hwanted hrun
    · exact halone (some page) after hwanted hrun
  · intro victim after hrun
    exact (Outcomes.woven others).migrate_blank (fun _ _ _ _ _ => trivial) victim _ _ hrun rfl
  · intro clean evicted hrun
    exact (Outcomes.woven others).evict_blank (fun _ _ _ _ _ => trivial) _ _ hrun frame clean rfl
  · intro hrun
    exact (Outcomes.woven others).allocateRecord_blank (fun _ _ _ _ _ => trivial) owner bound hspares
      (.inl rfl) _ _ hrun rfl
  · intro clean hclean hwanted hrun
    exact (Outcomes.woven others).handOver_blank owner bound hspares hclean hwanted _ _ hrun

/-- A frame whose page was written is taken from it, and it is all zero though nobody asked for that. If its
space is torn down while an eviction waits for its turn, the eviction finds the frame free, and says that it
is not clean; it is all zero when it is handed over. -/
theorem handed_out_blank_sample : ∃ moments machine taken met evicted handed,
    Run .sample moments machine ∧ moments.map (·.action) = [.addSpace 1, .addSpace 2,
      .call (.growStack 0 0x7ffff000), .call (.copyToUser 0 0x7ffff000 #[1] 0)] ∧
    machine.InUse 0 ∧ (Kernel.allocate 1 false : Transition _) machine = .ok (.ok 0) taken ∧
    taken.IsBlank 0 ∧ Happens machine met ∧ ¬ met.InUse 0 ∧
    (Kernel.evict : Woven Happens _) machine (.ok (.ok (0, false)) evicted) ∧
    (Kernel.handOver 1 (some 0x10000000) true false 0 : Woven Eq _) evicted (.ok () handed) ∧
    handed.IsBlank 0 := by
  obtain ⟨moments, machine, h, hactions, hfacts⟩ := @exists_run .sample
    [.addSpace 1, .addSpace 2, .call (.growStack 0 0x7ffff000), .call (.copyToUser 0 0x7ffff000 #[1] 0)]
    (fun r => (Kernel.allocate 1 false : Transition _).check r.2 fun frame _ =>
      (Action.step (.call (.destroy 0))).check r.2 fun _ met => lookAgain.check met fun found evicted =>
        (Kernel.handOver 1 (some 0x10000000) true false 0 : Transition _).check evicted fun _ _ =>
          decide (r.2.frames.pool.isAllocated 0 = true ∧ ¬ met.frames.pool.isAllocated 0 = true ∧
            frame.toOption = some 0 ∧ found.toOption = some (some 0))) (by decide +kernel)
  obtain ⟨frame, taken, hallocate, hfacts⟩ := exists_of_check hfacts
  obtain ⟨reply, met, hdestroy, hfacts⟩ := exists_of_check hfacts
  obtain ⟨found, evicted, hlook, hfacts⟩ := exists_of_check hfacts
  obtain ⟨_, handed, hhand, hfacts⟩ := exists_of_check hfacts
  obtain ⟨hused, hfree, hframe, hfound⟩ := of_decide_eq_true hfacts
  cases frame with
  | error cause => cases hframe
  | ok frame =>
    cases hframe
    cases found with
    | error cause => cases hfound
    | ok found =>
      cases hfound
      have hpermitted : (Action.call (.destroy 0)).Permitted machine := trivial
      have hothers : Happens machine met := ⟨_, .snoc .nil hpermitted hdestroy⟩
      have hevict : (Kernel.evict : Woven Happens _) machine (.ok (.ok (0, false)) evicted) :=
        .inl ⟨.ok (.pool 0), evicted, .inl ⟨.ok (some 0), evicted, ⟨met, hothers, hlook.symm⟩, rfl⟩, rfl⟩
      have hhand' : (Kernel.handOver 1 (some 0x10000000) true false 0 : Woven Eq _) evicted
          (.ok () handed) := by
        let A : Admission (Woven Eq) := Woven.admission fun _ => rfl
        have hadmits := A.bind (A.atomically (Transition.zero 0)) fun _ =>
          A.bind (A.atomically (Transition.space 1)) fun space =>
            A.atomically (Transition.notify (.allocated space.pid 0 (some 0x10000000)))
        rw [← hhand]
        exact hadmits evicted
      obtain ⟨halone, -⟩ := Kernel.handed_out_blank machine 1 0x10000000 0 false
      obtain ⟨-, hwoven⟩ := Kernel.handed_out_blank evicted 1 0x10000000 0 true
      obtain ⟨-, -, hhands⟩ := hwoven Eq
      refine ⟨moments, machine, taken, met, evicted, handed, h, hactions, hused, hallocate,
        halone taken (.inl hallocate) (.inr hused), hothers, hfree, hevict, hhand', ?_⟩
      obtain ⟨-, hhanded⟩ := hhands (spares_eq 0) (some 0x10000000) handed
      exact hhanded false (fun hclean => by cases hclean) (.inl rfl) hhand'

end DemandPaging
