import DemandPaging.Kernel.UserCopy
import Mathlib.Data.List.Basic

/-!
# Pieces of a user range

The pieces of a range follow one another without a gap, and each lies within one page. So the first
`i` of them make up a prefix of the range (`total_take`), and all of them the whole range.
-/

set_option autoImplicit false

namespace DemandPaging

namespace Piece

/-- The number of bytes in some pieces. -/
def total : List Piece → Nat
  | [] => 0
  | piece :: rest => piece.size + total rest

/-- One more piece adds its bytes. -/
theorem total_append (done : List Piece) (piece : Piece) :
    total (done ++ [piece]) = total done + piece.size := by
  induction done with
  | nil => simp only [List.nil_append, total, Nat.zero_add, Nat.add_zero]
  | cons first done ih => simp only [List.cons_append, total, ih, Nat.add_assoc]

variable {start length i : Nat}

/-- The page of a piece is the page of the range that it belongs to. -/
theorem pageOf_ofRange (h : i < count start length) :
    pageOf (ofRange start length i).address = pageOf start + i * pageSize := by
  have hstart := Nat.mod_lt start (show 0 < 4096 by decide)
  simp only [count] at h
  split at h
  · cases h
  · simp only [ofRange, pageOf, pageOffset, pageSize] at *
    omega

/-- A piece lies within its page. -/
theorem address_add_size_le (h : i < count start length) :
    (ofRange start length i).address + (ofRange start length i).size ≤
      pageOf (ofRange start length i).address + pageSize := by
  rw [pageOf_ofRange h]
  simp only [ofRange, pageOf, pageSize]
  omega

/-- A piece begins where it says in the range. -/
theorem address_eq (start length i : Nat) :
    (ofRange start length i).address = start + (ofRange start length i).done := by
  simp only [ofRange]
  omega

/-- A piece lies within the range. -/
theorem done_add_size_le (h : i < count start length) :
    (ofRange start length i).done + (ofRange start length i).size ≤ length := by
  have hstart := Nat.mod_lt start (show 0 < 4096 by decide)
  simp only [count] at h
  split at h
  · cases h
  · simp only [ofRange, pageOf, pageOffset, pageSize] at *
    omega

/-- The pieces before the `i`-th page of the range hold what comes before that page. -/
theorem total_take (start length i : Nat) :
    total ((List.range i).map (ofRange start length)) =
      min length (pageOf start + i * pageSize - start) := by
  induction i with
  | zero =>
    have : pageOf start ≤ start := Nat.sub_le _ _
    rw [List.range_zero, List.map_nil, total]
    omega
  | succ i ih =>
    have hstart := Nat.mod_lt start (show 0 < 4096 by decide)
    have hstep : total ((List.range (i + 1)).map (ofRange start length)) =
        total ((List.range i).map (ofRange start length)) + (ofRange start length i).size := by
      rw [List.range_succ, List.map_append, List.map_singleton, total_append]
    rw [hstep, ih]
    simp only [ofRange, pageOf, pageSize]
    omega

/-- The pieces before a piece hold what comes before it. -/
theorem total_take_eq_done (h : i < count start length) :
    total ((List.range i).map (ofRange start length)) = (ofRange start length i).done := by
  rw [total_take]
  have hstart := Nat.mod_lt start (show 0 < 4096 by decide)
  simp only [count] at h
  split at h
  · cases h
  · simp only [ofRange, pageOf, pageOffset, pageSize] at *
    omega

/-- All pieces together hold the whole range. -/
theorem total_all (start length : Nat) : total (all start length) = length := by
  rw [all, total_take]
  have hstart := Nat.mod_lt start (show 0 < 4096 by decide)
  simp only [count]
  split
  · omega
  · simp only [pageOf, pageOffset, pageSize]
    omega

/-- A piece in the list of all pieces, with those before it. -/
theorem eq_of_split {done rest : List Piece} {piece : Piece}
    (h : all start length = done ++ piece :: rest) :
    done.length < count start length ∧ piece = ofRange start length done.length ∧
      done = (List.range done.length).map (ofRange start length) := by
  have hlength := congrArg List.length h
  simp only [all, List.length_map, List.length_range, List.length_append, List.length_cons]
    at hlength
  have hlt : done.length < count start length := by omega
  refine ⟨hlt, ?_, ?_⟩
  · have hget : (all start length)[done.length]? = some piece := by simp [h]
    simp only [all, List.getElem?_map, List.getElem?_range hlt, Option.map_some,
      Option.some.injEq] at hget
    exact hget.symm
  · have htake : (all start length).take done.length = done := by simp [h]
    rw [all, ← List.map_take, List.take_range, Nat.min_eq_left (Nat.le_of_lt hlt)] at htake
    exact htake.symm

/-- The bytes of a piece come after those of the pieces before it. -/
theorem total_eq_done {done rest : List Piece} {piece : Piece}
    (h : all start length = done ++ piece :: rest) : total done = piece.done := by
  obtain ⟨hlt, hpiece, hdone⟩ := eq_of_split h
  rw [hdone, hpiece, total_take_eq_done hlt]

end Piece

end DemandPaging
