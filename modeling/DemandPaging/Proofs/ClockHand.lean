import DemandPaging.Frame.Table
import Mathlib.Data.List.Rotate

/-!
# Where the clock hand goes on

`SecondChance.order` is the order in which the next search meets the frames of a list: two turns from the
hand on. When a victim has been found and taken out, and new frames have come in at the back, each turn
goes through the frames that were behind the victim, then the new ones, then those that were before it
(`SecondChance.Resumes`).

So the search goes on at the frame that followed the victim, as long as there is one behind it in the list.
Removals move the hand, but insertions do not: if the victim was the last of the list, the hand stands
where the new frames come in, and the next search begins with the first of them.
-/

set_option autoImplicit false

namespace DemandPaging

/-- Frames that may all be evicted, with their accessed marks. -/
def Candidates.ofMarks (size : Nat) : Candidates (EStateM Unit (List Bool)) where
  size
  eligible _ := true
  testAndClear index := modifyGet fun marks => (marks.getD index false, marks.set index false)

namespace SecondChance

variable {α : Type}

/-- The frames of a list in the order in which the next search meets them. -/
def order (clock : SecondChance) (frames : List α) : List α :=
  (clock.visits frames.length).filterMap (frames[·]?)

/-- How the search goes on after the frame at `victim` was taken out of `frames` and `added` came in. -/
structure Resumes (clock : SecondChance) (frames added : List α) (victim : Nat) : Prop where
  /-- Each turn goes from the frame behind the victim to the last one, then through the new frames, and
  then from the first one up to the victim. -/
  order_eq : clock.order (frames.eraseIdx victim ++ added) =
    (frames.drop (victim + 1) ++ added ++ frames.take victim) ++
      (frames.drop (victim + 1) ++ added ++ frames.take victim)
  /-- If a frame is behind the victim, it is met first. -/
  next : ∀ frame, frames[victim + 1]? = some frame →
    (clock.order (frames.eraseIdx victim ++ added)).head? = some frame
  /-- If the victim was the last frame, the first of the new ones is met first. -/
  last : victim + 1 = frames.length → ∀ frame, added.head? = some frame →
    (clock.order (frames.eraseIdx victim ++ added)).head? = some frame

/-- No visit is outside the list. -/
theorem lt_of_mem_visits {clock : SecondChance} {size index : Nat} (h : index ∈ clock.visits size) :
    index < size := by
  obtain ⟨step, hstep, rfl⟩ := List.mem_map.mp h
  have hpos : 0 < size := by
    have hlt := List.mem_range.mp hstep
    omega
  exact Nat.mod_lt _ hpos

/-- To look at all places of a list is to go through the list. -/
theorem filterMap_getElem?_range (frames : List α) :
    (List.range frames.length).filterMap (frames[·]?) = frames := by
  induction frames with
  | nil => rfl
  | cons frame rest ih =>
    rw [List.length_cons, List.range_succ_eq_map, List.filterMap_cons, List.filterMap_map]
    exact congrArg (frame :: ·) ih

/-- Each turn begins at the hand. -/
theorem order_eq_rotate (clock : SecondChance) (frames : List α) :
    clock.order frames = frames.rotate clock.hand ++ frames.rotate clock.hand := by
  have hturn : (List.range frames.length).filterMap
      (fun step => frames[(clock.hand + step) % frames.length]?) = frames.rotate clock.hand := by
    have hall := filterMap_getElem?_range (frames.rotate clock.hand)
    rw [List.length_rotate] at hall
    refine Eq.trans (List.filterMap_congr fun step hstep => ?_) hall
    rw [List.getElem?_rotate (List.mem_range.mp hstep), Nat.add_comm]
  have hagain : ∀ step, (clock.hand + (frames.length + step)) % frames.length =
      (clock.hand + step) % frames.length := by
    intro step
    rw [Nat.add_left_comm, Nat.add_mod_left]
  rw [order, visits, List.filterMap_map, Nat.two_mul, List.range_add, List.filterMap_append,
    List.filterMap_map]
  simp only [Function.comp_def, hagain, hturn]

/-- How the search goes on from the place of a frame that was taken out. -/
theorem resumes {frames : List α} {victim : Nat} (hvictim : victim < frames.length) (added : List α) :
    Resumes { hand := victim } frames added victim := by
  have hlength : (frames.take victim).length = victim := List.length_take_of_le (Nat.le_of_lt hvictim)
  have hturn : (frames.eraseIdx victim ++ added).rotate victim =
      frames.drop (victim + 1) ++ added ++ frames.take victim := by
    have hrotate := List.rotate_append_length_eq (frames.take victim) (frames.drop (victim + 1) ++ added)
    rwa [hlength, ← List.append_assoc, ← List.eraseIdx_eq_take_drop_succ] at hrotate
  have horder : SecondChance.order { hand := victim } (frames.eraseIdx victim ++ added) = _ :=
    (order_eq_rotate _ _).trans (congrArg (fun turn => turn ++ turn) hturn)
  refine ⟨horder, fun frame hframe => ?_, fun hlast frame hframe => ?_⟩
  · rw [horder, List.append_assoc, List.append_assoc, List.head?_append, List.head?_drop, hframe,
      Option.some_or]
  · rw [horder, List.drop_of_length_le (Nat.le_of_eq hlast.symm), List.nil_append, List.append_assoc,
      List.head?_append, hframe, Option.some_or]

/-- The frame that a search finds is one that it visits. -/
theorem mem_of_sweep {ε σ : Type} {frames : Candidates (EStateM ε σ)} {visits : List Nat}
    {fallback : Option Nat} {s s' : σ} {victim : Nat}
    (hrun : sweep frames visits fallback s = .ok (some victim) s') :
    victim ∈ visits ∨ fallback = some victim := by
  induction visits generalizing fallback s with
  | nil =>
    cases hrun
    exact .inr rfl
  | cons index rest ih =>
    rw [sweep] at hrun
    split at hrun
    · cases hclear : frames.testAndClear index s with
      | error cause s₁ => simp [bind, EStateM.bind, hclear] at hrun
      | ok accessed s₁ =>
        simp only [bind, EStateM.bind, hclear] at hrun
        split at hrun
        · rcases ih hrun with hmem | hfallback
          · exact .inl (List.mem_cons_of_mem _ hmem)
          · cases fallback with
            | none =>
              cases hfallback
              exact .inl List.mem_cons_self
            | some first => exact .inr hfallback
        · cases hrun
          exact .inl List.mem_cons_self
    · exact (ih hrun).imp_left (List.mem_cons_of_mem _)

/-- The victim of a search is in the list, and the hand is left on it. -/
theorem of_select {ε σ : Type} {frames : Candidates (EStateM ε σ)} {clock after : SecondChance}
    {s s' : σ} {victim : Nat} (hrun : clock.select frames s = .ok (some victim, after) s') :
    victim < frames.size ∧ after = { hand := victim } := by
  rw [select] at hrun
  cases hsweep : sweep frames (clock.visits frames.size) none s with
  | error cause s₁ => simp [bind, EStateM.bind, hsweep] at hrun
  | ok found s₁ =>
    simp only [bind, EStateM.bind, hsweep] at hrun
    cases found with
    | none => cases hrun
    | some index =>
      cases hrun
      exact ⟨lt_of_mem_visits ((mem_of_sweep hsweep).resolve_right nofun), rfl⟩

/-- After a victim has been found and taken out and new frames have come in at the back, the search goes
on at the frame behind the victim, or at the first new one if the victim was the last. -/
theorem select_resumes {ε σ : Type} {candidates : Candidates (EStateM ε σ)} {frames : List α}
    {clock after : SecondChance} {s s' : σ} {victim : Nat} (hsize : candidates.size = frames.length)
    (hrun : clock.select candidates s = .ok (some victim, after) s') (added : List α) :
    (after.removed victim).Resumes frames added victim := by
  obtain ⟨hlt, rfl⟩ := of_select hrun
  rw [hsize] at hlt
  rw [removed, if_neg (Nat.lt_irrefl victim)]
  exact resumes hlt added

/-- The second of three frames is found. -/
theorem select_resumes_sample :
    SecondChance.select {} (.ofMarks 3) [true, false, false] =
        .ok (some 1, { hand := 1 }) [false, false, false] ∧
      Resumes (removed { hand := 1 } 1) ['a', 'b', 'c'] ['d'] 1 := by
  have hrun : SecondChance.select {} (.ofMarks 3) [true, false, false] =
      .ok (some 1, { hand := 1 }) [false, false, false] := rfl
  exact ⟨hrun, select_resumes rfl hrun _⟩

/-- The second of two frames is found. The next search begins with the frame that came in instead, and
takes it, though the first one comes after the second and is not in use either. -/
theorem select_last_new :
    SecondChance.select {} (.ofMarks 2) [true, false] = .ok (some 1, { hand := 1 }) [false, false] ∧
      (order (removed { hand := 1 } 1) (['a', 'b'].eraseIdx 1 ++ ['c'])).head? = some 'c' ∧
      ['a', 'b'][(1 + 1) % 2]? = some 'a' ∧
      (removed { hand := 1 } 1).select (.ofMarks 2) [false, false] =
        .ok (some 1, { hand := 1 }) [false, false] :=
  ⟨rfl, rfl, rfl, rfl⟩

end SecondChance

/-- The search goes on in the table of frames as it does in a list, when a record is taken out and another
one is inserted. -/
theorem FrameTable.resumes_of_insert {table after : FrameTable} {victim : Nat} {record : FrameRecord}
    {pinned : Bool} (hhand : table.clock = { hand := victim }) (hvictim : victim < table.size)
    (hrun : (table.removeAt victim).insert record pinned = .ok after) :
    after.records = table.records.eraseIdx victim ++ [record] ∧
      after.clock.Resumes table.records [record] victim := by
  rw [insert] at hrun
  split at hrun
  · cases hrun
  · cases hrun
    refine ⟨rfl, ?_⟩
    simp only [removeAt, hhand, SecondChance.removed, if_neg (Nat.lt_irrefl victim)]
    exact SecondChance.resumes hvictim _

end DemandPaging
