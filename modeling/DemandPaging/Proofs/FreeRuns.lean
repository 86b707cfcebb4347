import DemandPaging.Address
import DemandPaging.Proofs.Placements

/-!
# Free runs are found where they are

`CoreMap.IsRun` says that so many free frames follow one another from a place on. Either policy finds the
first such place in its own order (`Placer.preference`), and finds none exactly if there is none: a search
skips only places at which a run would contain the frame that ended the last one
(`CoreMap.not_isRun_of_freeRun_lt`). Next fit looks from its position on to the end and then from the front
on. It goes no further than its position then, and need not, since the places from there on were seen.

The searches count places in natural numbers. `Placer.placeInWords` is the same search as one loop, in which
every sum has to fit in a machine word and every slice of the map has to exist. It ends, halts nowhere and
finds the same place (`Placer.placeInWords_eq`).
-/

set_option autoImplicit false

namespace DemandPaging

namespace CoreMap

variable {map : CoreMap} {n start : Nat}

/-- From `start` on, `n` free frames follow one another. -/
def IsRun (map : CoreMap) (n start : Nat) : Prop := ∀ i < n, map.isFree (start + i) = true

/-- Whether frames make a run can be computed. -/
instance (map : CoreMap) (n start : Nat) : Decidable (map.IsRun n start) :=
  inferInstanceAs (Decidable (∀ i < n, map.isFree (start + i) = true))

/-- A run ends within the map. -/
theorem IsRun.add_le (h : map.IsRun n start) (hn : 0 < n) : start + n ≤ map.size := by
  have hlast := lt_size_of_isFree (h (n - 1) (by omega))
  omega

/-- No more free frames are counted than are asked for. -/
theorem freeRun_le (map : CoreMap) (start limit : Nat) : map.freeRun start limit ≤ limit := by
  induction limit generalizing start with
  | zero => exact Nat.le_refl 0
  | succ limit ih =>
    rw [freeRun]
    split
    · exact Nat.succ_le_succ (ih (start + 1))
    · exact Nat.zero_le _

/-- The frames that were counted are free. -/
theorem isRun_freeRun (map : CoreMap) (start limit : Nat) :
    map.IsRun (map.freeRun start limit) start := by
  induction limit generalizing start with
  | zero => intro i hi; cases hi
  | succ limit ih =>
    rw [freeRun]
    split
    · rename_i hfree
      intro i hi
      cases i with
      | zero => exact hfree
      | succ i =>
        have hnext := ih (start + 1) i (by omega)
        rwa [Nat.add_assoc, Nat.add_comm 1 i] at hnext
    · intro i hi
      cases hi

/-- If the count ended early, the frame at which it ended is not free. -/
theorem isFree_freeRun_of_lt {limit : Nat} (h : map.freeRun start limit < limit) :
    map.isFree (start + map.freeRun start limit) = false := by
  induction limit generalizing start with
  | zero => cases h
  | succ limit ih =>
    rw [freeRun] at h ⊢
    split at h
    · rename_i hfree
      rw [if_pos hfree]
      have hnext := @ih (start + 1) (by omega)
      rwa [Nat.add_assoc, Nat.add_comm 1] at hnext
    · rename_i hfree
      rw [if_neg hfree]
      exact Bool.eq_false_iff.mpr hfree

/-- As many free frames as are asked for are counted exactly if they follow one another. -/
theorem freeRun_eq_iff : map.freeRun start n = n ↔ map.IsRun n start := by
  constructor
  · intro h
    have hrun := isRun_freeRun map start n
    rwa [h] at hrun
  · intro h
    by_contra hne
    have hlt : map.freeRun start n < n := Nat.lt_of_le_of_ne (freeRun_le map start n) hne
    have hended := isFree_freeRun_of_lt hlt
    rw [h _ hlt] at hended
    cases hended

/-- A run that is too short rules out all places up to its end: a run from there would go over the frame
that ended it. -/
theorem not_isRun_of_freeRun_lt (h : map.freeRun start n < n) {place : Nat} (hstart : start ≤ place)
    (hplace : place ≤ start + map.freeRun start n) : ¬ map.IsRun n place := by
  intro hrun
  have hended := isFree_freeRun_of_lt h
  have hfree := hrun (start + map.freeRun start n - place) (by omega)
  rw [show place + (start + map.freeRun start n - place) = start + map.freeRun start n by omega] at hfree
  rw [hfree] at hended
  cases hended

/-! ### The search -/

/-- One round of a search. -/
theorem searchRun_succ (map : CoreMap) (n stop steps start : Nat) :
    searchRun map n stop (steps + 1) start = if start < stop ∧ start + n ≤ map.size then
      if map.freeRun start n = n then some start
      else searchRun map n stop steps (start + map.freeRun start n + 1)
    else none := rfl

/-- What is found is a run, and there is none before it. -/
theorem isRun_of_searchRun {stop steps place : Nat} (h : searchRun map n stop steps start = some place) :
    map.IsRun n place ∧ start ≤ place ∧ place < stop ∧
      ∀ other, start ≤ other → other < place → ¬ map.IsRun n other := by
  induction steps generalizing start with
  | zero => cases h
  | succ steps ih =>
    rw [searchRun_succ] at h
    split at h
    · rename_i hwithin
      by_cases hrun : map.freeRun start n = n
      · rw [if_pos hrun] at h
        cases h
        refine ⟨freeRun_eq_iff.mp hrun, Nat.le_refl _, hwithin.1, fun other hle hlt => ?_⟩
        omega
      · rw [if_neg hrun] at h
        have hshort : map.freeRun start n < n := Nat.lt_of_le_of_ne (freeRun_le map start n) hrun
        obtain ⟨hfound, hle, hlt, hbefore⟩ := ih h
        refine ⟨hfound, by omega, hlt, fun other hother hless => ?_⟩
        by_cases hskipped : other ≤ start + map.freeRun start n
        · exact not_isRun_of_freeRun_lt hshort hother hskipped
        · exact hbefore other (by omega) hless
    · cases h

/-- If nothing is found, there is nothing. The number of steps does not cut a search short, since each step
goes forward. -/
theorem not_isRun_of_searchRun {stop steps : Nat} (hn : 0 < n)
    (h : searchRun map n stop steps start = none) (hsteps : stop ≤ start + steps) {place : Nat}
    (hstart : start ≤ place) (hstop : place < stop) : ¬ map.IsRun n place := by
  induction steps generalizing start with
  | zero => omega
  | succ steps ih =>
    rw [searchRun_succ] at h
    split at h
    · by_cases hrun : map.freeRun start n = n
      · rw [if_pos hrun] at h
        cases h
      · rw [if_neg hrun] at h
        have hshort : map.freeRun start n < n := Nat.lt_of_le_of_ne (freeRun_le map start n) hrun
        by_cases hskipped : place ≤ start + map.freeRun start n
        · exact not_isRun_of_freeRun_lt hshort hstart hskipped
        · exact ih h (by omega) (by omega)
    · intro hrun
      have hend := hrun.add_le hn
      omega

/-- The search finds the first run of a range. It may be any range in which there are the same runs as in
its own. -/
theorem firstRun_eq_find? {stop count : Nat} (hn : 0 < n)
    (hsame : ∀ place, start ≤ place → map.IsRun n place → (place < stop ↔ place < start + count)) :
    map.firstRun n start stop = (List.range' start count).find? fun place => map.IsRun n place := by
  cases hfound : map.firstRun n start stop with
  | none =>
    symm
    rw [List.find?_range'_eq_none]
    intro place hstart hcount
    have hnot : ¬ map.IsRun n place := by
      intro hrun
      have hstop := (hsame place hstart hrun).mpr hcount
      exact not_isRun_of_searchRun hn hfound (by omega) hstart hstop hrun
    rw [decide_eq_false hnot]
    rfl
  | some place =>
    obtain ⟨hrun, hstart, hstop, hbefore⟩ := isRun_of_searchRun hfound
    have hcount := (hsame place hstart hrun).mp hstop
    symm
    rw [List.find?_range'_eq_some]
    refine ⟨decide_eq_true hrun, List.mem_range'_1.mpr ⟨hstart, hcount⟩, ?_⟩
    intro other hle hlt
    rw [decide_eq_false (hbefore other hle hlt)]
    rfl

end CoreMap

namespace Placer

variable {map : CoreMap} {n : Nat}

/-- The places at which `n` frames in a row fit in a map of so many frames, in the order in which a policy
prefers them. -/
def preference (placer : Placer) (size n : Nat) : List Nat :=
  match placer with
  | firstFit => List.range (size + 1 - n)
  | nextFit position =>
    List.range' (position % size) (size + 1 - n - position % size) ++ List.range (size + 1 - n)

/-- Next fit looks from its position on, and then at the places before it. -/
theorem choose_nextFit (map : CoreMap) (n position : Nat) :
    choose (nextFit position) map n =
      (map.firstRun n (position % map.size) map.size).or (map.firstRun n 0 position) := by
  rw [choose]
  cases map.firstRun n (position % map.size) map.size with
  | none => rfl
  | some place => rfl

/-- A policy chooses the run that it prefers. -/
theorem choose_eq_find? (placer : Placer) (hn : 0 < n) :
    placer.choose map n = (placer.preference map.size n).find? fun place => map.IsRun n place := by
  -- a run fits in the map, so no range needs to reach further
  have hfits : ∀ start place, start ≤ place → map.IsRun n place →
      (place < map.size ↔ place < start + (map.size + 1 - n - start)) := by
    intro start place hstart hrun
    have hend := hrun.add_le hn
    omega
  cases placer with
  | firstFit =>
    rw [choose, preference, List.range_eq_range']
    exact CoreMap.firstRun_eq_find? hn (hfits 0)
  | nextFit position =>
    have hfirst := CoreMap.firstRun_eq_find? hn (hfits (position % map.size))
    rw [choose_nextFit, preference, List.find?_append, ← hfirst]
    cases hfound : map.firstRun n (position % map.size) map.size with
    | some place => rfl
    | none =>
      rw [Option.none_or, Option.none_or, List.range_eq_range']
      apply CoreMap.firstRun_eq_find? hn
      intro place _ hrun
      -- the places behind the position have been looked at, so this one is before it
      have hbefore : place < position := by
        have hend := hrun.add_le hn
        have hmod := Nat.mod_le position map.size
        by_contra hle
        exact CoreMap.not_isRun_of_searchRun hn hfound (by omega) (by omega) (by omega) hrun
      have hend := hrun.add_le hn
      omega

/-! ### The search in machine words -/

/-- A sum in a machine word. -/
def addWord (a b : Nat) : Except Halt Nat :=
  if a + b < wordLimit then .ok (a + b) else .error .overflow

/-- A sum that fits into the word is taken. -/
theorem addWord_of_lt {a b : Nat} (h : a + b < wordLimit) : addWord a b = .ok (a + b) := if_pos h

/-- Count free frames in the slice of the map that begins at `start`. -/
def countFree (map : CoreMap) (start limit : Nat) : Except Halt Nat :=
  if start ≤ map.size then .ok (map.freeRun start limit) else .error .outOfBounds

/-- What a place is like. -/
inductive Look where
  /-- The map ends before a run from here could. -/
  | past
  /-- Here is a run. -/
  | found
  /-- The next place at which a run could begin. -/
  | onward (next : Nat)
  deriving DecidableEq, Repr

/-- Look at one place. -/
def look (map : CoreMap) (n start : Nat) : Except Halt Look := do
  if map.size < (← addWord start n) then return .past
  let run ← countFree map start n
  if run = n then return .found
  return .onward (← addWord start (← addWord run 1))

/-- What is seen in a map that a machine can hold. No number leaves its word on the way. -/
theorem look_eq {start : Nat} (hsize : map.size < 0x8000000000000000) (hword : start + n < wordLimit) :
    look map n start = .ok (if map.size < start + n then .past
      else if map.freeRun start n = n then .found else .onward (start + map.freeRun start n + 1)) := by
  have hle := map.freeRun_le start n
  simp only [look, addWord_of_lt hword, bind, Except.bind, pure, Except.pure]
  by_cases hpast : map.size < start + n
  · simp only [hpast, if_true]
  · have hlimit : map.size + 1 < wordLimit := by simp only [wordLimit]; omega
    have hcount : countFree map start n = .ok (map.freeRun start n) := if_pos (by omega)
    have hskip := addWord_of_lt (a := map.freeRun start n) (b := 1) (by omega)
    simp only [hpast, if_false, hcount, hskip]
    by_cases hrun : map.freeRun start n = n
    · simp only [hrun, if_true]
    · have hnext := addWord_of_lt (a := start) (b := map.freeRun start n + 1) (by omega)
      simp only [hrun, if_false, hnext]
      rfl

/-- A search goes forward, from a place in the map. -/
theorem lt_of_look {start next : Nat} (h : look map n start = .ok (.onward next)) :
    start ≤ map.size ∧ start < next := by
  simp only [look, addWord, countFree, bind, Except.bind, pure, Except.pure] at h
  grind

/-- First fit as a loop, from `start` on. -/
def seekFirst (map : CoreMap) (n start : Nat) : Except Halt (Option Nat) :=
  match _hlook : look map n start with
  | .error halt => .error halt
  | .ok .past => .ok none
  | .ok .found => .ok (some start)
  | .ok (.onward next) => seekFirst map n next
termination_by map.size + 1 - start
decreasing_by
  have hforward := lt_of_look _hlook
  omega

/-- Next fit as a loop, from `start` on. It starts over once, at the front, and ends at the position. -/
def seekNext (map : CoreMap) (n position start : Nat) (wrapped : Bool) : Except Halt (Option Nat) :=
  if wrapped ∧ position ≤ start then .ok none
  else match _hlook : look map n start with
    | .error halt => .error halt
    | .ok .past => if wrapped then .ok none else seekNext map n position 0 true
    | .ok .found => .ok (some start)
    | .ok (.onward next) => seekNext map n position next wrapped
termination_by (if wrapped then 0 else 1, map.size + 1 - start)
decreasing_by
  · rename_i hnot
    rw [if_neg hnot]
    decreasing_tactic
  · have hforward := lt_of_look _hlook
    apply Prod.Lex.right
    omega

/-- Place frames with the loops. -/
def placeInWords (placer : Placer) (map : CoreMap) (n : Nat) : Except Halt (Option Nat × Placer) :=
  match placer with
  | firstFit =>
    if n = 0 then .ok (none, firstFit)
    else do return (← seekFirst map n 0, firstFit)
  | nextFit position =>
    if n = 0 ∨ map.size < n then .ok (none, nextFit position)
    else do
      match ← seekNext map n position (position % map.size) false with
      | none => return (none, nextFit position)
      | some start => return (some start, nextFit ((← addWord start n) % map.size))

variable {position start steps : Nat} {wrapped : Bool}

/-- One round of first fit. -/
theorem seekFirst_eq (hsize : map.size < 0x8000000000000000) (hword : start + n < wordLimit) :
    seekFirst map n start = if map.size < start + n then .ok none
      else if map.freeRun start n = n then .ok (some start)
      else seekFirst map n (start + map.freeRun start n + 1) := by
  have hlook := look_eq hsize hword
  rw [seekFirst]
  grind

/-- One round of next fit. -/
theorem seekNext_eq (hsize : map.size < 0x8000000000000000) (hword : start + n < wordLimit) :
    seekNext map n position start wrapped = if wrapped ∧ position ≤ start then .ok none
      else if map.size < start + n then
        if wrapped then .ok none else seekNext map n position 0 true
      else if map.freeRun start n = n then .ok (some start)
      else seekNext map n position (start + map.freeRun start n + 1) wrapped := by
  have hlook := look_eq hsize hword
  rw [seekNext]
  grind

/-- First fit as a loop finds what the search finds. -/
theorem seekFirst_eq_searchRun (hsize : map.size < 0x8000000000000000) (hn : 0 < n)
    (hword : start + n < wordLimit) (hsteps : map.size ≤ start + steps) :
    seekFirst map n start = .ok (CoreMap.searchRun map n map.size steps start) := by
  induction steps generalizing start with
  | zero =>
    rw [seekFirst_eq hsize hword, if_pos (by omega)]
    rfl
  | succ steps ih =>
    rw [seekFirst_eq hsize hword, CoreMap.searchRun_succ]
    by_cases hpast : map.size < start + n
    · rw [if_pos hpast, if_neg (by omega)]
    · have hwithin : start < map.size ∧ start + n ≤ map.size := by omega
      have hle := map.freeRun_le start n
      rw [if_neg hpast, if_pos hwithin]
      split
      · rfl
      · exact ih (by simp only [wordLimit]; omega) (by omega)

/-- Next fit, once it has started over, finds what the search before the position finds. -/
theorem seekNext_eq_searchRun (hsize : map.size < 0x8000000000000000)
    (hword : start + n < wordLimit) (hsteps : position ≤ start + steps) :
    seekNext map n position start true = .ok (CoreMap.searchRun map n position steps start) := by
  induction steps generalizing start with
  | zero =>
    rw [seekNext_eq hsize hword, if_pos ⟨rfl, by omega⟩]
    rfl
  | succ steps ih =>
    rw [seekNext_eq hsize hword, CoreMap.searchRun_succ]
    by_cases hend : position ≤ start
    · rw [if_pos ⟨rfl, hend⟩, if_neg (by omega)]
    · rw [if_neg fun h => hend h.2]
      by_cases hpast : map.size < start + n
      · rw [if_pos hpast, if_pos rfl, if_neg (by omega)]
      · have hwithin : start < position ∧ start + n ≤ map.size := by omega
        have hle := map.freeRun_le start n
        rw [if_neg hpast, if_pos hwithin]
        split
        · rfl
        · exact ih (by simp only [wordLimit]; omega) (by omega)

/-- Next fit, before it starts over, finds what the search finds, and otherwise what the one before the
position finds. -/
theorem seekNext_eq_or (hsize : map.size < 0x8000000000000000) (hn : 0 < n)
    (hword : start + n < wordLimit) (hsteps : map.size ≤ start + steps) :
    seekNext map n position start false = .ok
      ((CoreMap.searchRun map n map.size steps start).or (map.firstRun n 0 position)) := by
  have hover : seekNext map n position 0 true = .ok (map.firstRun n 0 position) := by
    apply seekNext_eq_searchRun hsize
    · omega
    · omega
  induction steps generalizing start with
  | zero =>
    rw [seekNext_eq hsize hword, if_neg (by simp), if_pos (by omega), if_neg (by simp), hover]
    rfl
  | succ steps ih =>
    rw [seekNext_eq hsize hword, CoreMap.searchRun_succ, if_neg (by simp)]
    by_cases hpast : map.size < start + n
    · rw [if_pos hpast, if_neg (by simp), hover, if_neg (by omega)]
      rfl
    · have hwithin : start < map.size ∧ start + n ≤ map.size := by omega
      have hle := map.freeRun_le start n
      rw [if_neg hpast, if_pos hwithin]
      split
      · rfl
      · exact ih (by simp only [wordLimit]; omega) (by omega)

/-- What a policy chooses is a run. -/
theorem isRun_of_choose {placer : Placer} (hn : 0 < n) (h : placer.choose map n = some start) :
    map.IsRun n start := by
  rw [choose_eq_find? placer hn] at h
  have hrun := List.find?_some h
  exact of_decide_eq_true hrun

/-- The search of either policy, and what it remembers after it. A request for more frames than there are
needs no case of its own. -/
theorem place_eq (placer : Placer) (hn : 0 < n) :
    placer.place map n = match placer.choose map n with
      | none => (none, placer)
      | some start => (some start, placer.advance map.size start n) := by
  rw [place]
  split
  · cases hchoose : placer.choose map n with
    | none => rfl
    | some start =>
      have hend := (isRun_of_choose hn hchoose).add_le hn
      omega
  · rfl

/-- The loop of next fit finds what next fit chooses. -/
theorem seekNext_eq_choose (hsize : map.size < 0x8000000000000000) (hn : 0 < n) (hle : n ≤ map.size) :
    seekNext map n position (position % map.size) false = .ok (choose (nextFit position) map n) := by
  have hmod := Nat.mod_lt position (show map.size > 0 by omega)
  rw [choose_nextFit]
  apply seekNext_eq_or hsize hn
  · simp only [wordLimit]
    omega
  · omega

/-- The loops end, halt nowhere and place the frames where the searches place them. -/
theorem placeInWords_eq (placer : Placer) (hsize : map.size < 0x8000000000000000) (hn : n < wordLimit) :
    placer.placeInWords map n = .ok (placer.place map n) := by
  by_cases hzero : n = 0
  · cases placer with
    | firstFit => rw [placeInWords, if_pos hzero, place, if_pos (.inl hzero)]
    | nextFit position => rw [placeInWords, if_pos (.inl hzero), place, if_pos (.inl hzero)]
  · have hpos : 0 < n := by omega
    cases placer with
    | firstFit =>
      have hloop : seekFirst map n 0 = .ok (choose firstFit map n) := by
        apply seekFirst_eq_searchRun hsize hpos
        · omega
        · omega
      rw [placeInWords, if_neg hzero, hloop, place_eq firstFit hpos]
      cases choose firstFit map n with
      | none => rfl
      | some start => rfl
    | nextFit position =>
      by_cases hmany : map.size < n
      · rw [placeInWords, if_pos (.inr hmany), place, if_pos (.inr hmany)]
      · rw [placeInWords, if_neg (by omega), seekNext_eq_choose hsize hpos (by omega),
          place_eq (nextFit position) hpos]
        cases hchoose : choose (nextFit position) map n with
        | none => rfl
        | some start =>
          have hend := (isRun_of_choose hpos hchoose).add_le hpos
          have hsum := addWord_of_lt (a := start) (b := n) (by simp only [wordLimit]; omega)
          simp only [bind, Except.bind, hsum]
          rfl

/-! ### What is found -/

/-- What a policy does when it is asked for `n` frames in a row. -/
structure Places (placer : Placer) (map : CoreMap) (n : Nat) : Prop where
  /-- Nothing is found exactly if nothing was asked for or there is no run. -/
  eq_none_iff : (placer.place map n).1 = none ↔ n = 0 ∨ ∀ start, ¬ map.IsRun n start
  /-- A search that finds nothing leaves no trace. -/
  kept : (placer.place map n).1 = none → (placer.place map n).2 = placer
  /-- What is found is a run of frames of the map. -/
  isRun : ∀ start, (placer.place map n).1 = some start → map.IsRun n start ∧ start + n ≤ map.size
  /-- It is the first in the order of the policy. -/
  first : ∀ start, (placer.place map n).1 = some start →
    ∃ front rear, placer.preference map.size n = front ++ start :: rear ∧
      ∀ other ∈ front, ¬ map.IsRun n other
  /-- The next search of next fit goes on behind it, so its position is then `(start + n) % map.size`. -/
  advanced : ∀ start, (placer.place map n).1 = some start →
    (placer.place map n).2 = placer.advance map.size start n
  /-- A loop that counts in machine words ends and finds the same, for any map that fits in memory. -/
  in_words : map.size < 0x8000000000000000 → n < wordLimit →
    placer.placeInWords map n = .ok (placer.place map n)

/-- Every place is in the order of a policy. -/
theorem mem_preference (placer : Placer) {size : Nat} (hfits : start + n ≤ size) :
    start ∈ placer.preference size n := by
  have hrange : start ∈ List.range (size + 1 - n) := List.mem_range.mpr (by omega)
  cases placer with
  | firstFit => exact hrange
  | nextFit position => exact List.mem_append_right _ hrange

/-- Nothing is chosen exactly if there is no run. -/
theorem choose_eq_none_iff (placer : Placer) (hn : 0 < n) :
    placer.choose map n = none ↔ ∀ start, ¬ map.IsRun n start := by
  rw [choose_eq_find? placer hn, List.find?_eq_none]
  constructor
  · intro hnone start hrun
    exact hnone start (placer.mem_preference (hrun.add_le hn)) (decide_eq_true hrun)
  · intro hnone start _ hrun
    exact hnone start (of_decide_eq_true hrun)

/-- What is chosen stands in the order of the policy before all other runs. -/
theorem first_of_choose {placer : Placer} (hn : 0 < n) (h : placer.choose map n = some start) :
    ∃ front rear, placer.preference map.size n = front ++ start :: rear ∧
      ∀ other ∈ front, ¬ map.IsRun n other := by
  rw [choose_eq_find? placer hn, List.find?_eq_some_iff_append] at h
  obtain ⟨-, front, rear, hsplit, hnot⟩ := h
  refine ⟨front, rear, hsplit, fun other hother => ?_⟩
  have hfalse := hnot other hother
  simpa using hfalse

/-- A policy that finds nothing. -/
theorem places_of_none {placer : Placer} (hplace : placer.place map n = (none, placer))
    (hnone : n = 0 ∨ ∀ start, ¬ map.IsRun n start) : placer.Places map n where
  eq_none_iff := iff_of_true (congrArg Prod.fst hplace) hnone
  kept _ := congrArg Prod.snd hplace
  isRun start h := by
    rw [hplace] at h
    cases h
  first start h := by
    rw [hplace] at h
    cases h
  advanced start h := by
    rw [hplace] at h
    cases h
  in_words := placer.placeInWords_eq

/-- A policy that finds the run it chooses. -/
theorem places_of_some {placer : Placer} (hn : 0 < n) (hchoose : placer.choose map n = some start)
    (hplace : placer.place map n = (some start, placer.advance map.size start n)) :
    placer.Places map n := by
  have hrun := isRun_of_choose hn hchoose
  have hanswer : (placer.place map n).1 = some start := congrArg Prod.fst hplace
  have honly : ∀ place, (placer.place map n).1 = some place → place = start := by
    intro place hfound
    rw [hanswer] at hfound
    exact (Option.some.inj hfound).symm
  constructor
  case eq_none_iff =>
    rw [hanswer]
    apply iff_of_false
    · intro hnone
      cases hnone
    · intro hnone
      cases hnone with
      | inl hzero => omega
      | inr hnot => exact hnot start hrun
  case kept =>
    intro hnone
    rw [hanswer] at hnone
    cases hnone
  case isRun =>
    intro place hfound
    rw [honly place hfound]
    exact ⟨hrun, hrun.add_le hn⟩
  case first =>
    intro place hfound
    rw [honly place hfound]
    exact first_of_choose hn hchoose
  case advanced =>
    intro place hfound
    rw [honly place hfound, hplace]
  case in_words => exact placer.placeInWords_eq

/-- Either policy finds what exists, for every map, every request and wherever its last search ended: the
run that it prefers, or nothing if there is no run. -/
theorem place_places (placer : Placer) (map : CoreMap) (n : Nat) : placer.Places map n := by
  by_cases hzero : n = 0
  · apply places_of_none
    · exact if_pos (.inl hzero)
    · exact .inl hzero
  · have hn : 0 < n := by omega
    have hplace := @place_eq map n placer hn
    cases hchoose : placer.choose map n with
    | none =>
      rw [hchoose] at hplace
      exact places_of_none hplace (.inr ((placer.choose_eq_none_iff hn).mp hchoose))
    | some start =>
      rw [hchoose] at hplace
      exact places_of_some hn hchoose hplace

end Placer

end DemandPaging
