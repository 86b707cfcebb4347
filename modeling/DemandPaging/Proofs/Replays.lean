import Mathlib.Data.List.Induction

/-!
# Replays

What calls may make of a state is a relation between the calls, oldest first, and the state after them. To
show that some calls lead to some state, they are replayed by a fold that stops at a call that is not permitted
or halts. A relation that holds at first and is kept by one more call holds of every replay.
-/

set_option autoImplicit false

namespace DemandPaging

/-- Steps that lead somewhere have led through what each of them keeps. -/
theorem of_foldlM {σ α : Type} {step : σ → α → Option σ} {start final : σ} {R : List α → σ → Prop}
    (hnil : R [] start)
    (hsnoc : ∀ earlier a before after, R earlier before → step before a = some after →
      R (earlier ++ [a]) after)
    {steps : List α} (h : steps.foldlM step start = some final) : R steps final := by
  induction steps using List.reverseRecOn generalizing final with
  | nil =>
    cases h
    exact hnil
  | append_singleton earlier a ih =>
    rw [List.foldlM_append] at h
    obtain ⟨before, hearlier, hlast⟩ := Option.bind_eq_some_iff.mp h
    rw [List.foldlM_cons] at hlast
    obtain ⟨_, hstep, hend⟩ := Option.bind_eq_some_iff.mp hlast
    cases hend
    exact hsnoc earlier a before final (ih hearlier) hstep

/-- The last of what the elements of a list say, if one more element may say something. -/
theorem getLast?_filterMap_concat {α β : Type} (f : α → Option β) (l : List α) (a : α) :
    ((l ++ [a]).filterMap f).getLast? = (f a).or (l.filterMap f).getLast? := by
  rw [List.filterMap_append, List.getLast?_append]
  cases h : f a <;> simp [h]

end DemandPaging
