import DemandPaging.Proofs.ClockHand
import DemandPaging.Proofs.Refaults
import Mathlib.Data.List.Find

/-!
# Who gets a second chance

`SecondChance.Finds` says what one search of the clock hand does, whatever the marks are seen through. If
a frame is not in use, the first such frame in the order of the hand is the victim, and only the frames
before it lose their marks. If all are in use, all of them lose their marks in the first turn, so the second
turn ends with the first frame whose mark did not come back at once; and if all came back, the first frame
of all is taken.

A search only looks at marks, so it is enough to know what one look does (`Candidates.Reads`). One turn of
the hand goes over a list without duplicates, in which no look changes what a later one finds, so the frames
in use before the first unused one are passed one by one (`Candidates.Reads.exists_passes`). A circle of
frames with any marks (`FrameCircle`) and the records of a machine in order (`FrameTable.Unshared.reads`) are
two cases of it.
-/

set_option autoImplicit false

namespace DemandPaging

namespace Candidates

/-- The frame may be evicted and is not in use. -/
def unused {m : Type → Type} (frames : Candidates m) (marks : Nat → Bool) (index : Nat) : Bool :=
  frames.eligible index && !marks index

/-- The marks after looks at some frames: those are cleared, unless they come back at once. -/
def cleared (sticky : Nat → Bool) (looks : List Nat) (marks : Nat → Bool) : Nat → Bool := fun index =>
  if index ∈ looks then marks index && sticky index else marks index

section

variable {sticky marks : Nat → Bool} {looks more : List Nat}

/-- No look clears no mark. -/
@[simp] theorem cleared_nil : cleared sticky [] marks = marks := by
  funext index
  simp [cleared]

/-- It does not matter how often and in what order the frames are looked at. -/
theorem cleared_congr (h : ∀ index, index ∈ looks ↔ index ∈ more) :
    cleared sticky looks marks = cleared sticky more marks := by
  funext index
  simp only [cleared, h]

/-- Looks at some frames and then at others. -/
theorem cleared_cleared : cleared sticky more (cleared sticky looks marks) =
    cleared sticky (looks ++ more) marks := by
  funext index
  simp only [cleared, List.mem_append]
  by_cases hlooks : index ∈ looks <;> by_cases hmore : index ∈ more <;> simp [hlooks, hmore]

/-- To look at frames that are not marked changes nothing. -/
theorem cleared_eq_self (h : ∀ index ∈ looks, marks index = false) :
    cleared sticky looks marks = marks := by
  funext index
  rw [cleared]
  split
  · rw [h index ‹_›, Bool.false_and]
  · rfl

end

variable {ε σ : Type} {frames : Candidates (EStateM ε σ)} {marks : σ → Nat → Bool}
  {sticky : Nat → Bool} {inv : σ → Prop} {s middle s' : σ}

/-- Some frames were looked at one after the other, and nothing else was done. -/
inductive Looked (frames : Candidates (EStateM ε σ)) : List Nat → σ → σ → Prop where
  /-- No look. -/
  | nil (s : σ) : Looked frames [] s s
  /-- One look and those after it. -/
  | cons {index : Nat} {rest : List Nat} {marked : Bool} {s middle s' : σ}
      (hlook : frames.testAndClear index s = .ok marked middle) (hrest : Looked frames rest middle s') :
      Looked frames (index :: rest) s s'

/-- Looks at some frames and then at others are looks at all of them. -/
theorem Looked.append {looks more : List Nat} (h : frames.Looked looks s middle)
    (hmore : frames.Looked more middle s') : frames.Looked (looks ++ more) s s' := by
  induction h with
  | nil s => exact hmore
  | cons hlook hrest ih => exact .cons hlook (ih hmore)

/-- A look at a frame tells its mark and clears it, and leaves the other marks alone. -/
structure Reads (frames : Candidates (EStateM ε σ)) (marks : σ → Nat → Bool) (sticky : Nat → Bool)
    (inv : σ → Prop) : Prop where
  look : ∀ index s, index < frames.size → frames.eligible index = true → inv s →
    ∃ s', frames.testAndClear index s = .ok (marks s index) s' ∧ inv s' ∧
      marks s' = cleared sticky [index] (marks s)

/-- The hand goes past some frames, all of which are in use or may not be evicted. -/
structure Passes (frames : Candidates (EStateM ε σ)) (marks : σ → Nat → Bool) (sticky : Nat → Bool)
    (passed : List Nat) (s s' : σ) : Prop where
  sweep_eq : ∀ rest fallback, SecondChance.sweep frames (passed ++ rest) fallback s =
    SecondChance.sweep frames rest (fallback.or (passed.find? frames.eligible)) s'
  looked : frames.Looked (passed.filter frames.eligible) s s'
  marks_eq : marks s' = cleared sticky (passed.filter frames.eligible) (marks s)

/-- No frame is passed. -/
theorem Passes.nil (s : σ) : frames.Passes marks sticky [] s s where
  sweep_eq rest fallback := by rw [List.nil_append, List.find?_nil, Option.or_none]
  looked := .nil s
  marks_eq := by rw [List.filter_nil, cleared_nil]

/-- One frame is passed, and then others. -/
theorem Passes.cons {index : Nat} {passed : List Nat} (h : frames.Passes marks sticky [index] s middle)
    (hrest : frames.Passes marks sticky passed middle s') :
    frames.Passes marks sticky (index :: passed) s s' where
  sweep_eq rest fallback := by
    have hone := h.sweep_eq (passed ++ rest) fallback
    rw [List.singleton_append] at hone
    rw [List.cons_append, hone, hrest.sweep_eq, Option.or_assoc, ← List.find?_append,
      List.singleton_append]
  looked := by
    rw [← List.singleton_append, List.filter_append]
    exact h.looked.append hrest.looked
  marks_eq := by
    rw [hrest.marks_eq, h.marks_eq, cleared_cleared, ← List.filter_append, List.singleton_append]

/-- The hand goes past a frame that may not be evicted, and does not look at it. -/
theorem passes_ineligible {index : Nat} (h : frames.eligible index = false) :
    frames.Passes marks sticky [index] s s where
  sweep_eq rest fallback := by
    rw [List.singleton_append, SecondChance.sweep, h, if_neg Bool.false_ne_true,
      List.find?_cons_of_neg (Bool.eq_false_iff.mp h), List.find?_nil, Option.or_none]
  looked := by
    rw [List.filter_cons_of_neg (Bool.eq_false_iff.mp h), List.filter_nil]
    exact .nil s
  marks_eq := by
    rw [List.filter_cons_of_neg (Bool.eq_false_iff.mp h), List.filter_nil, cleared_nil]

/-- The hand goes past a frame in use and clears its mark. -/
theorem Reads.passes_marked (h : frames.Reads marks sticky inv) {index : Nat}
    (hindex : index < frames.size) (heligible : frames.eligible index = true)
    (hmarked : marks s index = true) (hs : inv s) :
    ∃ s', inv s' ∧ frames.Passes marks sticky [index] s s' := by
  obtain ⟨s', hlook, hinv, hmarks⟩ := h.look index s hindex heligible hs
  rw [hmarked] at hlook
  have hfilter : [index].filter frames.eligible = [index] := by
    rw [List.filter_cons_of_pos heligible, List.filter_nil]
  refine ⟨s', hinv, fun rest fallback => ?_, ?_, ?_⟩
  · rw [List.singleton_append, SecondChance.sweep, if_pos heligible, List.find?_cons_of_pos heligible]
    simp only [bind, EStateM.bind, hlook, if_true]
    cases fallback <;> rfl
  · rw [hfilter]
    exact .cons hlook (.nil s')
  · rw [hfilter]
    exact hmarks

/-- The hand goes past frames of which none is unused. No frame is met twice, so that no mark is looked at
that was cleared before. -/
theorem Reads.exists_passes (h : frames.Reads marks sticky inv) {passed : List Nat}
    (hpassed : passed.Nodup) (hsize : ∀ index ∈ passed, index < frames.size) (hs : inv s)
    (hused : ∀ index ∈ passed, frames.unused (marks s) index = false) :
    ∃ s', inv s' ∧ frames.Passes marks sticky passed s s' := by
  induction passed generalizing s with
  | nil => exact ⟨s, hs, .nil s⟩
  | cons index rest ih =>
    obtain ⟨hnot, hrest⟩ := List.nodup_cons.mp hpassed
    have hfirst := hused index List.mem_cons_self
    obtain ⟨middle, hmiddle, hone⟩ : ∃ s', inv s' ∧ frames.Passes marks sticky [index] s s' := by
      cases heligible : frames.eligible index with
      | false => exact ⟨s, hs, passes_ineligible heligible⟩
      | true =>
        rw [unused, heligible, Bool.true_and, Bool.not_eq_false'] at hfirst
        exact h.passes_marked (hsize index List.mem_cons_self) heligible hfirst hs
    have hbehind : ∀ i ∈ rest, frames.unused (marks middle) i = false := by
      intro i hi
      have hne : i ∉ [index].filter frames.eligible := by
        intro hmem
        obtain rfl := List.mem_singleton.mp (List.mem_filter.mp hmem).1
        exact hnot hi
      rw [unused, hone.marks_eq, cleared, if_neg hne]
      exact hused i (List.mem_cons_of_mem _ hi)
    obtain ⟨s', hs', hothers⟩ :=
      ih hrest (fun i hi => hsize i (List.mem_cons_of_mem _ hi)) hmiddle hbehind
    exact ⟨s', hs', hone.cons hothers⟩

/-- The hand stops at the first unused frame. -/
theorem Reads.exists_stop (h : frames.Reads marks sticky inv) {index : Nat} (hindex : index < frames.size)
    (hunused : frames.unused (marks s) index = true) (hs : inv s) (rest : List Nat)
    (fallback : Option Nat) :
    ∃ s', SecondChance.sweep frames (index :: rest) fallback s = .ok (some index) s' ∧
      frames.Looked [index] s s' ∧ marks s' = marks s := by
  rw [unused, Bool.and_eq_true, Bool.not_eq_true'] at hunused
  obtain ⟨heligible, hmarked⟩ := hunused
  obtain ⟨s', hlook, -, hmarks⟩ := h.look index s hindex heligible hs
  rw [hmarked] at hlook
  refine ⟨s', ?_, .cons hlook (.nil s'), ?_⟩
  · rw [SecondChance.sweep, if_pos heligible]
    simp only [bind, EStateM.bind, hlook]
    rfl
  · rw [hmarks]
    apply cleared_eq_self
    intro i hi
    rw [List.mem_singleton.mp hi]
    exact hmarked

end Candidates

namespace SecondChance

/-- The order in which one turn of the hand meets `size` frames. -/
def turn (clock : SecondChance) (size : Nat) : List Nat := (List.range size).rotate clock.hand

/-- A turn meets every frame. -/
theorem mem_turn {clock : SecondChance} {size index : Nat} : index ∈ clock.turn size ↔ index < size := by
  rw [turn, List.mem_rotate, List.mem_range]

/-- A turn meets no frame twice. -/
theorem nodup_turn (clock : SecondChance) (size : Nat) : (clock.turn size).Nodup :=
  List.nodup_rotate.mpr List.nodup_range

/-- A search makes two turns. -/
theorem visits_eq (clock : SecondChance) (size : Nat) :
    clock.visits size = clock.turn size ++ clock.turn size := by
  have hself : (clock.visits size).filterMap ((List.range size)[·]?) = clock.visits size := by
    have hsome : ∀ index ∈ clock.visits size, (List.range size)[index]? = some index := by
      intro index hindex
      exact List.getElem?_range (lt_of_mem_visits hindex)
    rw [List.filterMap_congr hsome, List.filterMap_some]
  have horder := order_eq_rotate clock (List.range size)
  rw [order, List.length_range, hself] at horder
  exact horder

open Candidates in
/-- What a search over some frames does to marks and hand, when it answers `victim`. -/
structure Finds {ε σ : Type} (clock : SecondChance) (frames : Candidates (EStateM ε σ))
    (marks : σ → Nat → Bool) (sticky : Nat → Bool) (s : σ) (victim : Option Nat)
    (after : SecondChance) (s' : σ) : Prop where
  /-- The first unused frame is the victim, and the frames before it that may be evicted lose their marks
  unless those are sticky. -/
  first_unused : ∀ front frame rear, clock.turn frames.size = front ++ frame :: rear →
    frames.unused (marks s) frame = true → (∀ index ∈ front, frames.unused (marks s) index = false) →
      victim = some frame ∧ marks s' = cleared sticky (front.filter frames.eligible) (marks s)
  /-- If none is unused, all frames that may be evicted lose their marks unless those are sticky, and the
  victim is the first of them whose mark is not sticky, or else the first of them. -/
  all_used : (∀ index < frames.size, frames.unused (marks s) index = false) →
    victim = ((clock.turn frames.size).find? fun index => frames.eligible index && !sticky index).or
        ((clock.turn frames.size).find? frames.eligible) ∧
      marks s' = cleared sticky ((clock.turn frames.size).filter frames.eligible) (marks s)
  /-- There is no victim exactly if no frame may be evicted. -/
  eq_none_iff : victim = none ↔ ∀ index < frames.size, frames.eligible index = false
  /-- A frame that may not be evicted does not lose its mark. -/
  kept : ∀ index, frames.eligible index = false → marks s' index = marks s index
  /-- All that is done is to look at the frames that may be evicted, in the order of the hand and at most
  twice as often as there are frames. -/
  looked : ∃ visited, visited <+: clock.visits frames.size ∧
    frames.Looked (visited.filter frames.eligible) s s' ∧
    (visited.filter frames.eligible).length ≤ 2 * frames.size
  /-- The hand ends on the victim. -/
  hand_eq : ∀ frame, victim = some frame → after.hand = frame
  /-- A hand that is not behind the end of the list never gets there. -/
  hand_le : clock.hand ≤ frames.size → after.hand ≤ frames.size

end SecondChance

namespace Candidates

variable {ε σ : Type} {frames : Candidates (EStateM ε σ)} {marks : σ → Nat → Bool}
  {sticky : Nat → Bool} {inv : σ → Prop} {s : σ} {clock : SecondChance}

/-- The hand goes past frames in use and stops at the first unused one. -/
theorem Reads.sweep_to (h : frames.Reads marks sticky inv) {front : List Nat} {frame : Nat}
    (hnodup : (front ++ [frame]).Nodup) (hsize : ∀ index ∈ front ++ [frame], index < frames.size)
    (hs : inv s) (hunused : frames.unused (marks s) frame = true)
    (hfront : ∀ index ∈ front, frames.unused (marks s) index = false) (rear : List Nat)
    (fallback : Option Nat) :
    ∃ s', SecondChance.sweep frames (front ++ frame :: rear) fallback s = .ok (some frame) s' ∧
      frames.Looked ((front ++ [frame]).filter frames.eligible) s s' ∧
      marks s' = cleared sticky (front.filter frames.eligible) (marks s) := by
  obtain ⟨hdistinct, -, hapart⟩ := List.nodup_append.mp hnodup
  obtain ⟨middle, hmiddle, hpasses⟩ := h.exists_passes hdistinct
    (fun index hindex => hsize index (List.mem_append_left _ hindex)) hs hfront
  have hframe : frame ∈ front ++ [frame] := List.mem_append_right _ List.mem_cons_self
  have hstill : frames.unused (marks middle) frame = true := by
    have hnot : frame ∉ front.filter frames.eligible := by
      intro hmem
      exact hapart frame (List.mem_filter.mp hmem).1 frame List.mem_cons_self rfl
    rw [unused, hpasses.marks_eq, cleared, if_neg hnot]
    exact hunused
  obtain ⟨s', hstop, hlooked, hmarks⟩ := h.exists_stop (hsize frame hframe) hstill hmiddle rear
    (fallback.or (front.find? frames.eligible))
  have heligible : frames.eligible frame = true := ((Bool.and_eq_true _ _).mp hunused).1
  refine ⟨s', (hpasses.sweep_eq _ _).trans hstop, ?_, hmarks.trans hpasses.marks_eq⟩
  rw [List.filter_append, List.filter_cons_of_pos heligible, List.filter_nil]
  exact hpasses.looked.append hlooked

/-- Some frame is unused: the search ends in its first turn. -/
theorem Reads.sweep_unused (h : frames.Reads marks sticky inv) (hs : inv s) {front rear : List Nat}
    {frame : Nat} (hsplit : clock.turn frames.size = front ++ frame :: rear)
    (hunused : frames.unused (marks s) frame = true)
    (hfront : ∀ index ∈ front, frames.unused (marks s) index = false) :
    ∃ s' visited, SecondChance.sweep frames (clock.visits frames.size) none s = .ok (some frame) s' ∧
      marks s' = cleared sticky (front.filter frames.eligible) (marks s) ∧
      visited <+: clock.visits frames.size ∧ frames.Looked (visited.filter frames.eligible) s s' := by
  have hsplit' : clock.turn frames.size = (front ++ [frame]) ++ rear := by
    rw [hsplit, List.append_assoc, List.singleton_append]
  have hnodup := clock.nodup_turn frames.size
  rw [hsplit'] at hnodup
  have hsize : ∀ index ∈ front ++ [frame], index < frames.size := by
    intro index hindex
    apply SecondChance.mem_turn.mp
    rw [hsplit']
    exact List.mem_append_left _ hindex
  obtain ⟨s', hrun, hlooked, hmarks⟩ := h.sweep_to (List.nodup_append.mp hnodup).1 hsize hs hunused
    hfront (rear ++ clock.turn frames.size) none
  have hvisits : clock.visits frames.size = front ++ frame :: (rear ++ clock.turn frames.size) := by
    rw [SecondChance.visits_eq, ← List.cons_append, ← List.append_assoc, ← hsplit]
  refine ⟨s', front ++ [frame], by rw [hvisits]; exact hrun, hmarks, ?_, hlooked⟩
  exact ⟨rear ++ clock.turn frames.size, by rw [hvisits, List.append_assoc, List.singleton_append]⟩

/-- Of frames that were all in use, those are unused after one turn whose marks are not sticky. -/
theorem Passes.unused_eq {passed : List Nat} {middle : σ}
    (h : frames.Passes marks sticky passed s middle)
    (hused : ∀ index ∈ passed, frames.unused (marks s) index = false) :
    ∀ index ∈ passed, frames.unused (marks middle) index = (frames.eligible index && !sticky index) := by
  intro index hindex
  have hmarked := hused index hindex
  cases heligible : frames.eligible index with
  | false => rw [unused, heligible, Bool.false_and, Bool.false_and]
  | true =>
    have hlooked : index ∈ passed.filter frames.eligible := List.mem_filter.mpr ⟨hindex, heligible⟩
    rw [unused, heligible, Bool.true_and, Bool.not_eq_false'] at hmarked
    rw [unused, h.marks_eq, cleared, if_pos hlooked, hmarked, heligible, Bool.true_and (sticky index)]

/-- Frames that were passed lose nothing when they are looked at again. -/
theorem Passes.cleared_again {passed front : List Nat} {middle : σ}
    (h : frames.Passes marks sticky passed s middle) (hfront : ∀ index ∈ front, index ∈ passed) :
    cleared sticky (front.filter frames.eligible) (marks middle) = marks middle := by
  rw [h.marks_eq, cleared_cleared]
  apply cleared_congr
  intro index
  rw [List.mem_append, or_iff_left_of_imp]
  intro hindex
  obtain ⟨hmem, heligible⟩ := List.mem_filter.mp hindex
  exact List.mem_filter.mpr ⟨hfront index hmem, heligible⟩

/-- All frames are in use: their marks are cleared in the first turn, and the second one goes past those
that came back. -/
theorem Reads.sweep_used (h : frames.Reads marks sticky inv) (hs : inv s) (clock : SecondChance)
    (hused : ∀ index < frames.size, frames.unused (marks s) index = false) :
    ∃ s' visited, SecondChance.sweep frames (clock.visits frames.size) none s =
        .ok (((clock.turn frames.size).find? fun index => frames.eligible index && !sticky index).or
          ((clock.turn frames.size).find? frames.eligible)) s' ∧
      marks s' = cleared sticky ((clock.turn frames.size).filter frames.eligible) (marks s) ∧
      visited <+: clock.visits frames.size ∧ frames.Looked (visited.filter frames.eligible) s s' := by
  have hsize : ∀ index ∈ clock.turn frames.size, index < frames.size :=
    fun index => SecondChance.mem_turn.mp
  have hnodup := clock.nodup_turn frames.size
  have hturn : ∀ index ∈ clock.turn frames.size, frames.unused (marks s) index = false :=
    fun index hindex => hused index (hsize index hindex)
  obtain ⟨middle, hmiddle, hfirst⟩ := h.exists_passes hnodup hsize hs hturn
  rw [← List.find?_congr (hfirst.unused_eq hturn), SecondChance.visits_eq, hfirst.sweep_eq,
    Option.none_or, ← hfirst.marks_eq]
  cases hfound : (clock.turn frames.size).find? (frames.unused (marks middle)) with
  | none =>
    -- every mark came back
    obtain ⟨s', -, hsecond⟩ := h.exists_passes hnodup hsize hmiddle
      fun index hindex => Bool.eq_false_iff.mpr (List.find?_eq_none.mp hfound index hindex)
    have hend := hsecond.sweep_eq [] ((clock.turn frames.size).find? frames.eligible)
    rw [List.append_nil, Option.or_self] at hend
    refine ⟨s', clock.turn frames.size ++ clock.turn frames.size, hend, ?_, List.prefix_rfl, ?_⟩
    · rw [hsecond.marks_eq, hfirst.cleared_again fun _ hindex => hindex]
    · rw [List.filter_append]
      exact hfirst.looked.append hsecond.looked
  | some frame =>
    obtain ⟨hunused, front, rear, hsplit, hfront⟩ := List.find?_eq_some_iff_append.mp hfound
    have hsplit' : clock.turn frames.size = (front ++ [frame]) ++ rear := by
      rw [hsplit, List.append_assoc, List.singleton_append]
    have hmem : ∀ index ∈ front ++ [frame], index ∈ clock.turn frames.size := by
      intro index hindex
      rw [hsplit']
      exact List.mem_append_left _ hindex
    obtain ⟨s', hrun, hlooked, hmarks⟩ := h.sweep_to
      (List.nodup_append.mp (hsplit' ▸ hnodup)).1 (fun index hindex => hsize index (hmem index hindex))
      hmiddle hunused (fun index hindex => (Bool.not_eq_true' _).mp (hfront index hindex)) rear
      ((clock.turn frames.size).find? frames.eligible)
    rw [← hsplit] at hrun
    refine ⟨s', clock.turn frames.size ++ (front ++ [frame]), hrun, ?_, ?_, ?_⟩
    · rw [hmarks]
      exact hfirst.cleared_again fun index hindex => hmem index (List.mem_append_left _ hindex)
    · exact (List.prefix_append_right_inj _).mpr ⟨rear, hsplit'.symm⟩
    · rw [List.filter_append]
      exact hfirst.looked.append hlooked

/-- Some frame is unused, and there is a first one, or none is. -/
theorem unused_cases (clock : SecondChance) (marked : Nat → Bool) :
    (∃ front frame rear, clock.turn frames.size = front ++ frame :: rear ∧
        frames.unused marked frame = true ∧ ∀ index ∈ front, frames.unused marked index = false) ∨
      ∀ index < frames.size, frames.unused marked index = false := by
  cases hfound : (clock.turn frames.size).find? (frames.unused marked) with
  | none =>
    right
    intro index hindex
    exact Bool.eq_false_iff.mpr (List.find?_eq_none.mp hfound index (SecondChance.mem_turn.mpr hindex))
  | some frame =>
    obtain ⟨hunused, front, rear, hsplit, hfront⟩ := List.find?_eq_some_iff_append.mp hfound
    exact .inl ⟨front, frame, rear, hsplit, hunused, fun index hindex =>
      (Bool.not_eq_true' _).mp (hfront index hindex)⟩

/-- A search answers, with a victim if some frame may be evicted, and clears marks of frames that may be
evicted. -/
theorem Reads.exists_sweep (h : frames.Reads marks sticky inv) (hs : inv s) (clock : SecondChance) :
    ∃ victim s', ∃ looks visited : List Nat, SecondChance.sweep frames (clock.visits frames.size) none s =
        .ok victim s' ∧
      (victim = none ↔ ∀ index < frames.size, frames.eligible index = false) ∧
      marks s' = cleared sticky (looks.filter frames.eligible) (marks s) ∧
      visited <+: clock.visits frames.size ∧ frames.Looked (visited.filter frames.eligible) s s' := by
  rcases unused_cases clock (marks s) with ⟨front, frame, rear, hsplit, hunused, hfront⟩ | hused
  · obtain ⟨s', visited, hrun, hmarks, hlooked⟩ := h.sweep_unused hs hsplit hunused hfront
    refine ⟨some frame, s', front, visited, hrun, iff_of_false nofun ?_, hmarks, hlooked⟩
    intro hnone
    have hframe : frame < frames.size := by
      apply SecondChance.mem_turn.mp
      rw [hsplit]
      exact List.mem_append_right _ List.mem_cons_self
    rw [unused, hnone frame hframe, Bool.false_and] at hunused
    cases hunused
  · obtain ⟨s', visited, hrun, hmarks, hlooked⟩ := h.sweep_used hs clock hused
    refine ⟨_, s', clock.turn frames.size, visited, hrun, ?_, hmarks, hlooked⟩
    rw [Option.or_eq_none_iff, List.find?_eq_none, List.find?_eq_none]
    constructor
    · intro hnone index hindex
      exact Bool.eq_false_iff.mpr (hnone.2 index (SecondChance.mem_turn.mpr hindex))
    · intro hnone
      constructor
      · intro index hindex
        rw [hnone index (SecondChance.mem_turn.mp hindex), Bool.false_and]
        exact Bool.false_ne_true
      · intro index hindex
        rw [hnone index (SecondChance.mem_turn.mp hindex)]
        exact Bool.false_ne_true

/-- Where a look tells and clears a mark, a search finds its victim by second chance. -/
theorem Reads.finds (h : frames.Reads marks sticky inv) (hs : inv s) (clock : SecondChance) :
    ∃ victim after s', clock.select frames s = .ok (victim, after) s' ∧
      clock.Finds frames marks sticky s victim after s' := by
  obtain ⟨victim, s', looks, visited, hsweep, hnone, hmarks, hvisited, hlooked⟩ :=
    h.exists_sweep hs clock
  have hselect : clock.select frames s =
      .ok (victim, victim.elim clock fun index => { hand := index }) s' := by
    rw [SecondChance.select]
    simp only [bind, EStateM.bind, hsweep]
    cases victim <;> rfl
  refine ⟨victim, _, s', hselect, ?_, ?_, hnone, ?_, ⟨visited, hvisited, hlooked, ?_⟩, ?_, ?_⟩
  · intro front frame rear hsplit hunused hfront
    obtain ⟨s'', -, hrun, hafter, -⟩ := h.sweep_unused hs hsplit hunused hfront
    cases hrun.symm.trans hsweep
    exact ⟨rfl, hafter⟩
  · intro hused
    obtain ⟨s'', -, hrun, hafter, -⟩ := h.sweep_used hs clock hused
    cases hrun.symm.trans hsweep
    exact ⟨rfl, hafter⟩
  · intro index hineligible
    have hnot : index ∉ looks.filter frames.eligible := by
      rw [List.mem_filter, hineligible]
      exact fun hmem => Bool.false_ne_true hmem.2
    rw [hmarks, cleared, if_neg hnot]
  · have hfilter := List.length_filter_le frames.eligible visited
    have hprefix := hvisited.length_le
    rw [SecondChance.visits, List.length_map, List.length_range] at hprefix
    omega
  · rintro frame rfl
    rfl
  · intro hhand
    cases victim with
    | none => exact hhand
    | some frame => exact Nat.le_of_lt (SecondChance.of_select hselect).1

end Candidates

/-- When the frame at a place of the list is removed, a hand that is not behind the end of the list still
is not. -/
theorem SecondChance.hand_removed_le {clock : SecondChance} {size index : Nat} (hhand : clock.hand ≤ size)
    (hindex : index < size) : (clock.removed index).hand ≤ size - 1 := by
  rw [removed]
  split
  · exact Nat.sub_le_sub_right hhand 1
  · omega

/-! ### Frames with any marks -/

/-- Frames that the clock hand goes round: which of them may be evicted, and of which the mark comes back
as soon as it is cleared. -/
structure FrameCircle where
  /-- The number of frames. -/
  size : Nat
  /-- The frame may be evicted. -/
  eligible : Nat → Bool
  /-- The frame is in use all the time. -/
  sticky : Nat → Bool

namespace FrameCircle

/-- The frames as the clock hand sees them. The state is the marks. -/
def candidates (circle : FrameCircle) : Candidates (EStateM Empty (Nat → Bool)) where
  size := circle.size
  eligible := circle.eligible
  testAndClear index := modifyGet fun marks =>
    (marks index, Function.update marks index (marks index && circle.sticky index))

/-- A look at a frame tells its mark and clears it unless it is sticky. -/
theorem reads (circle : FrameCircle) :
    circle.candidates.Reads id circle.sticky fun _ => True where
  look index marks _ _ _ := by
    refine ⟨_, rfl, trivial, ?_⟩
    funext i
    simp only [id, Function.update_apply, Candidates.cleared, List.mem_singleton]
    split
    · rename_i hi
      rw [hi]
    · rfl

/-- Whatever frames may be evicted, are marked and are in use all the time, the victim is found by second
chance. The hand never gets behind the end of the list, neither by the search nor by the removal of a
frame. -/
theorem select_finds (circle : FrameCircle) (clock : SecondChance) (marks : Nat → Bool) :
    ∃ victim after marks', clock.select circle.candidates marks = .ok (victim, after) marks' ∧
      clock.Finds circle.candidates id circle.sticky marks victim after marks' ∧
      ∀ index < circle.size, clock.hand ≤ circle.size →
        (after.removed index).hand ≤ circle.size - 1 := by
  obtain ⟨victim, after, marks', hrun, hfinds⟩ := circle.reads.finds (s := marks) trivial clock
  refine ⟨victim, after, marks', hrun, hfinds, ?_⟩
  intro index hindex hhand
  exact SecondChance.hand_removed_le (hfinds.hand_le hhand) hindex

end FrameCircle

/-! ### The frames of a machine -/

namespace FrameTable

/-- The page that the frame at a place of the list is bound to, with the space that it belongs to. -/
def bound? (table : FrameTable) (index : Nat) : Option (SpaceId × Nat) :=
  table.records[index]?.bind fun record => record.page.map (record.owner, ·)

/-- The marks of the frames: whether their pages were used. -/
def marks (table : FrameTable) (machine : Machine) (index : Nat) : Bool :=
  (table.bound? index).any fun (owner, page) =>
    (Spaces.mapped? machine.spaces owner page).any (·.accessed)

/-- No two frames are bound to one page. -/
def Unshared (table : FrameTable) : Prop :=
  ∀ i j owner p q, table.bound? i = some (owner, p) → table.bound? j = some (owner, q) →
    pageNumber p = pageNumber q → i = j

/-- A frame that may be evicted is bound to a page. -/
theorem exists_bound {table : FrameTable} {index : Nat} (h : table.isEligible index = true) :
    ∃ frame owner page, table.records[index]? = some ⟨frame, owner, some page⟩ := by
  obtain ⟨⟨frame, owner, page⟩, hrecord, hbound⟩ := (Option.any_eq_true ..).mp h
  cases page with
  | none => cases hbound
  | some page => exact ⟨frame, owner, page, hrecord⟩

end FrameTable

/-- The marks after the mark of one page was cleared. -/
theorem FrameTable.Unshared.marks_mark {table : FrameTable} (h : table.Unshared) {machine : Machine}
    {index frame : Nat} {owner : SpaceId} {page : Nat}
    (hrecord : table.records[index]? = some ⟨frame, owner, some page⟩) :
    table.marks { machine with
        spaces := Spaces.mark machine.spaces owner page fun e => { e with accessed := false } } =
      Candidates.cleared (fun _ => false) [index] (table.marks machine) := by
  have hbound : table.bound? index = some (owner, page) := by
    rw [bound?, hrecord]
    rfl
  funext i
  simp only [Candidates.cleared, List.mem_singleton, Bool.and_false, marks, Spaces.mapped?_mark]
  by_cases hi : i = index
  · subst i
    simp only [hbound, Option.any_some, if_true, and_self]
    cases Spaces.mapped? machine.spaces owner page <;> rfl
  · rw [if_neg hi]
    cases hother : table.bound? i with
    | none => rfl
    | some place =>
      obtain ⟨owner', page'⟩ := place
      have hapart : ¬ (owner = owner' ∧ pageNumber page = pageNumber page') := by
        rintro ⟨rfl, hpage⟩
        exact hi (h i index owner page' page hother hbound hpage.symm)
      simp only [Option.any_some, if_neg hapart]

/-- A look at a frame asks its page directory. It changes nothing that another look finds if no page is
bound to two frames. -/
theorem FrameTable.Unshared.reads {table : FrameTable} (h : table.Unshared) :
    (Kernel.candidates (m := Transition) table).Reads table.marks (fun _ => false)
      fun machine => ∀ r ∈ table.records, r.owner < machine.spaces.size where
  look index machine _ heligible howners := by
    have heligible : table.isEligible index = true := heligible
    obtain ⟨frame, owner, page, hrecord⟩ := exists_bound heligible
    have hspace := Array.getElem?_eq_getElem (howners _ (List.mem_of_getElem? hrecord))
    have hfind := Transition.run_findEntry hspace page
    have hmark : table.marks machine index =
        (Spaces.mapped? machine.spaces owner page).any (·.accessed) := by
      rw [marks, bound?, hrecord]
      rfl
    cases haccessed : (Spaces.mapped? machine.spaces owner page).any (·.accessed) with
    | false =>
      refine ⟨machine, ?_, howners, ?_⟩
      · rw [hmark, haccessed]
        simp only [Kernel.candidates, hrecord, Transition.run_bind hfind, haccessed]
        rfl
      · symm
        apply Candidates.cleared_eq_self
        intro i hi
        rw [List.mem_singleton.mp hi, hmark, haccessed]
    | true =>
      refine ⟨{ machine with
        spaces := Spaces.mark machine.spaces owner page fun e => { e with accessed := false } }, ?_, ?_,
        h.marks_mark hrecord⟩
      · rw [hmark, haccessed]
        simp only [Kernel.candidates, hrecord, Transition.run_bind hfind, haccessed]
        rfl
      · intro r hr
        exact Nat.lt_of_lt_of_eq (howners r hr) Spaces.size_onDirectory.symm

/-- In a machine in order no page is bound to two frames. -/
theorem Machine.Settled.unshared {machine : Machine} (h : machine.Settled) :
    machine.frames.Unshared := by
  intro i j owner p q hi hj hpage
  obtain ⟨⟨frame, s, bound⟩, hr, hplace⟩ := Option.bind_eq_some_iff.mp hi
  obtain ⟨⟨frame', s', bound'⟩, hr', hplace'⟩ := Option.bind_eq_some_iff.mp hj
  obtain ⟨_, rfl, ⟨⟩⟩ := Option.map_eq_some_iff.mp hplace
  obtain ⟨_, rfl, ⟨⟩⟩ := Option.map_eq_some_iff.mp hplace'
  obtain ⟨_, ⟨⟩, hp, hframe⟩ := (h.tracked.mem_iff _).mp (List.mem_of_getElem? hr)
  obtain ⟨_, ⟨⟩, hq, hframe'⟩ := (h.tracked.mem_iff _).mp (List.mem_of_getElem? hr')
  obtain rfl := (pageNumber_inj hp hq).mp hpage
  -- one page has one frame, and no frame has two records
  obtain rfl : frame = frame' := Option.some.inj (hframe.symm.trans hframe')
  have hnodup := (List.nodup_append.mp h.pool.nodup).1
  obtain ⟨hlt, -⟩ := List.getElem?_eq_some_iff.mp hr
  have hlength : i < (machine.frames.records.map (·.frame)).length := by
    rwa [List.length_map]
  exact (List.getElem?_inj hlength hnodup).mp (by rw [List.getElem?_map, List.getElem?_map, hr, hr'])

/-- A machine in order finds its victims by second chance, and the pages that were used are those that get
one. -/
theorem Machine.Settled.select_finds_candidates {machine : Machine} (h : machine.Settled) :
    ∃ victim after machine',
      (machine.frames.clock.select (Kernel.candidates machine.frames) : Transition _) machine =
        .ok (victim, after) machine' ∧
      machine.frames.clock.Finds (Kernel.candidates (m := Transition) machine.frames)
        machine.frames.marks (fun _ => false) machine victim after machine' := by
  apply h.unshared.reads.finds
  intro r hr
  obtain ⟨p, -, -, hframe⟩ := (h.tracked.mem_iff r).mp hr
  obtain ⟨entry, hentry, -⟩ := Option.map_eq_some_iff.mp hframe
  exact Spaces.lt_size_of_mapped? hentry

end DemandPaging
