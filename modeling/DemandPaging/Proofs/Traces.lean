import DemandPaging.Proofs.Outcomes

/-!
# Traces

`Traced others` is the monad of operations that other work comes in between, like `Woven others`, but it
remembers the machines that an operation leaves on its way: one after each of its transitions, oldest
first. So it can be said of an operation that something holds throughout (`Traced.keeping`), also if it
halts in the end.
-/

set_option autoImplicit false

namespace DemandPaging

/-- Operations that other work comes in between, as what they may leave on the way and result in. -/
def Traced (_others : Machine → Machine → Prop) (α : Type) : Type :=
  Machine → List Machine → EStateM.Result Halt Machine α → Prop

namespace Traced

variable {others : Machine → Machine → Prop} {α β : Type}

/-- The machine that a transition leaves, unless it halts. -/
def left : EStateM.Result Halt Machine α → List Machine
  | .ok _ after => [after]
  | .error _ _ => []

/-- The trace of a sequence is that of its first part and then that of its second part. -/
instance : Monad (Traced others) where
  pure a := fun machine trace result => trace = [] ∧ result = .ok a machine
  bind work next := fun machine trace result =>
    (∃ a middle first later, work machine first (.ok a middle) ∧ next a middle later result ∧
      trace = first ++ later) ∨
      ∃ halt middle, work machine trace (.error halt middle) ∧ result = .error halt middle

/-- A transition leaves one machine behind, and so does an event. -/
instance : Kernel (Traced others) where
  atomically step := fun machine trace result =>
    ∃ met, others machine met ∧ result = step met ∧ trace = left result
  interrupt _ := fun machine trace result => ∃ met, others machine met ∧ result = .ok () met ∧ trace = [met]
  holding _ work := work

/-! ### What is kept -/

/-- Every machine on the way is `kept`, whatever comes in between. -/
def keeping (kept : Machine → Prop) : Rules (Traced others) where
  Yields work machine post := ∀ trace result, work machine trace result →
    (∀ m ∈ trace, kept m) ∧ ∀ a after, result = .ok a after → post a after
  mono h hw trace result hrun :=
    ⟨(h trace result hrun).1, fun a after hok => hw a after ((h trace result hrun).2 a after hok)⟩
  pure := by
    rintro _ a machine post hpost _ _ ⟨rfl, rfl⟩
    refine ⟨by simp, ?_⟩
    rintro _ _ ⟨⟩
    exact hpost
  bind := by
    rintro _ _ work next machine post h _ result
      (⟨a, middle, first, later, hwork, hnext, rfl⟩ | ⟨halt, middle, hwork, rfl⟩)
    · obtain ⟨hfirst, hmiddle⟩ := h first _ hwork
      obtain ⟨hlater, hpost⟩ := hmiddle a middle rfl later result hnext
      exact ⟨List.forall_mem_append.mpr ⟨hfirst, hlater⟩, hpost⟩
    · exact ⟨(h _ _ hwork).1, by simp⟩
  holding h := h

variable {kept : Machine → Prop} {machine : Machine}

/-- A transition is carried out on the machine that others left. -/
theorem keeping_atomically {step : Transition α} {post : α → Machine → Prop}
    (h : ∀ met, others machine met → step.Yields met fun a after => kept after ∧ post a after) :
    (keeping kept : Rules (Traced others)).Yields (Kernel.atomically step) machine post := by
  rintro _ _ ⟨met, hothers, rfl, rfl⟩
  cases hrun : step met with
  | ok a after =>
    obtain ⟨hkept, hpost⟩ := h met hothers a after hrun
    refine ⟨fun m hm => List.mem_singleton.mp hm ▸ hkept, ?_⟩
    rintro _ _ ⟨⟩
    exact hpost
  | error halt after => exact ⟨by simp [left], by simp⟩

/-- At an event the machine may become any that others may leave. -/
theorem keeping_interrupt {event : Event} {post : Unit → Machine → Prop}
    (h : ∀ met, others machine met → kept met ∧ post () met) :
    (keeping kept : Rules (Traced others)).Yields (Kernel.interrupt event) machine post := by
  rintro _ _ ⟨met, hothers, rfl, rfl⟩
  obtain ⟨hkept, hpost⟩ := h met hothers
  refine ⟨fun m hm => List.mem_singleton.mp hm ▸ hkept, ?_⟩
  rintro _ _ ⟨⟩
  exact hpost

/-! ### What may come about -/

/-- Nothing need come in between. -/
def admission (hrefl : ∀ machine, others machine machine) : Admission (Traced others) where
  Admits work alone := ∀ machine, ∃ trace, work machine trace (alone machine)
  pure _ _ := ⟨[], rfl, rfl⟩
  bind := by
    intro _ _ work alone next then_ h hnext machine
    obtain ⟨first, hfirst⟩ := h machine
    simp only [Bind.bind, EStateM.bind]
    cases hrun : alone machine with
    | ok a middle =>
      rw [hrun] at hfirst
      obtain ⟨later, hlater⟩ := hnext a middle
      exact ⟨first ++ later, .inl ⟨a, middle, first, later, hfirst, hlater, rfl⟩⟩
    | error halt middle =>
      rw [hrun] at hfirst
      exact ⟨first, .inr ⟨halt, middle, hfirst, rfl⟩⟩
  atomically _ machine := ⟨_, machine, hrefl machine, rfl, rfl⟩
  interrupt _ machine := ⟨_, machine, hrefl machine, rfl, rfl⟩
  holding h := h

end Traced

end DemandPaging
