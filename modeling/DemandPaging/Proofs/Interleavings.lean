import DemandPaging.Proofs.Runs

/-!
# Operations among others

`Woven others` is the monad of operations that other work comes in between: before each transition
and at each event the machine may have become any machine that it stands in the relation `others`
to. An operation is then the set of the results that it may have. The operations are the same as
those that run uninterrupted; only the monad is another one.

`Woven.Ensures` says of all these results what `Transition.Ensures` says of the one result of an
uninterrupted run, and has the same rules. The one for a transition leaves what others do to the
invariant that is carried along. `Woven.Admits` is the other direction: what comes about if nothing
comes in between may come about. An `Admission` is what it takes to show this in any monad.
-/

set_option autoImplicit false

namespace DemandPaging

/-! ### Uninterrupted runs -/

/-- What it takes for an operation in `m` to come about without interruption, with a rule for each way in
which operations are built. -/
structure Admission (m : Type → Type) [Kernel m] where
  /-- The one operation may go as the other one does by itself. -/
  Admits : {α : Type} → m α → Transition α → Prop
  pure : ∀ {α : Type} (a : α), Admits (Pure.pure a) (Pure.pure a)
  bind : ∀ {α β : Type} {work : m α} {alone : Transition α} {next : α → m β}
    {then_ : α → Transition β}, Admits work alone → (∀ a, Admits (next a) (then_ a)) →
      Admits (work >>= next) (alone >>= then_)
  atomically : ∀ {α : Type} (step : Transition α), Admits (Kernel.atomically step) step
  interrupt : ∀ event : Event, Admits (Kernel.interrupt event) (Pure.pure ())
  holding : ∀ {α : Type} {resource : Resource} {work : m α} {alone : Transition α},
    Admits work alone → Admits (Kernel.holding resource work) alone

namespace Admission

variable {m : Type → Type} [Kernel m] (A : Admission m) {α ε : Type}

/-- A frame may be written back with nothing in between. -/
theorem writeBack (frame : Nat) (segment : Segment) :
    A.Admits (Kernel.writeBack frame segment) (Kernel.writeBack frame segment) := by
  refine A.holding (A.bind (A.atomically _) fun _ => ?_)
  refine A.bind (A.atomically _) fun content => A.bind (A.interrupt _) fun _ => ?_
  refine A.bind (A.atomically _) fun outcome => ?_
  cases outcome <;> exact A.pure _

/-- A list of steps that ends at the first failure may be gone through without interruption. -/
theorem upToFailure {step : α → m (Except ε Unit)} {alone : α → Transition (Except ε Unit)}
    (h : ∀ a, A.Admits (step a) (alone a)) (todo : List α) :
    A.Admits (Kernel.upToFailure step todo) (Kernel.upToFailure alone todo) := by
  induction todo with
  | nil => exact A.pure _
  | cons a rest ih =>
    refine A.bind (h a) fun outcome => ?_
    cases outcome with
    | error cause => exact A.pure _
    | ok u => exact ih

/-- A list of steps that is gone through to its end may be gone through without interruption. -/
theorem throughFailures {step : α → m (Except ε Unit)} {alone : α → Transition (Except ε Unit)}
    (h : ∀ a, A.Admits (step a) (alone a)) (todo : List α) :
    A.Admits (Kernel.throughFailures step todo) (Kernel.throughFailures alone todo) := by
  induction todo with
  | nil => exact A.pure _
  | cons a rest ih =>
    refine A.bind (h a) fun first => A.bind ih fun later => ?_
    cases first <;> exact A.pure _

end Admission

/-! ### Operations among others -/

/-- Operations that other work comes in between, as what they may result in. -/
def Woven (_others : Machine → Machine → Prop) (α : Type) : Type :=
  Machine → EStateM.Result Halt Machine α → Prop

namespace Woven

variable {others : Machine → Machine → Prop} {α β : Type}

/-- The second part of a sequence has every result that it may have after some answer of the first part. -/
instance : Monad (Woven others) where
  pure a := fun machine result => result = .ok a machine
  bind work next := fun machine result =>
    (∃ a middle, work machine (.ok a middle) ∧ next a middle result) ∨
      ∃ halt middle, work machine (.error halt middle) ∧ result = .error halt middle

/-- Others come in before every transition and at every event, and nobody keeps them out by what he holds. -/
instance : Kernel (Woven others) where
  atomically step := fun machine result => ∃ met, others machine met ∧ result = step met
  interrupt _ := fun machine result => ∃ met, others machine met ∧ result = .ok () met
  holding _ work := work

/-- Who holds a resource lets others in all the same, since they are restricted by what `others` allows. -/
@[simp] theorem holding_eq (resource : Resource) (work : Woven others α) :
    Kernel.holding resource work = work := rfl

/-- A transition is carried out in one go wherever it stands. -/
@[simp] theorem lift_eq (step : Transition α) :
    @liftM Transition (Woven others)
      (@instMonadLiftTOfMonadLift Transition Transition (Woven others) _ _) α step =
        Kernel.atomically step := rfl

/-! ### What is ensured -/

/-- Of a result: if it is an answer, then `post` holds of it and of the machine; and if it is a
halt, then not for a double release. -/
def Meets (post : α → Machine → Prop) : EStateM.Result Halt Machine α → Prop
  | .ok a machine => post a machine
  | .error halt _ => halt.isDoubleRelease = false

/-- Whatever comes in between, if the operation answers, then `post` holds of the answer and the
machine it leaves; and it does not halt for a double release. -/
def Ensures (work : Woven others α) (machine : Machine) (post : α → Machine → Prop) : Prop :=
  ∀ result, work machine result → Meets post result

variable {machine : Machine} {post : α → Machine → Prop}

/-- Less may be ensured than is. -/
theorem Ensures.mono {work : Woven others α} {weaker : α → Machine → Prop}
    (h : Ensures work machine post) (hw : ∀ a after, post a after → weaker a after) :
    Ensures work machine weaker := by
  intro result hresult
  have hmeets := h result hresult
  cases result with
  | ok a after => exact hw a after hmeets
  | error halt after => exact hmeets

/-- An answer that is given at once is ensured on the machine as it is. -/
@[simp] theorem ensures_pure {a : α} :
    Ensures (pure a : Woven others α) machine post ↔ post a machine := by
  constructor
  · intro h
    exact h _ rfl
  · rintro h _ rfl
    exact h

/-- The second part ensures `post` on whatever the first part leaves, with all that came in between. -/
@[simp] theorem ensures_bind {work : Woven others α} {next : α → Woven others β}
    {post : β → Machine → Prop} :
    Ensures (work >>= next) machine post ↔
      Ensures work machine fun a after => Ensures (next a) after post := by
  constructor
  · rintro h (⟨a, middle⟩ | ⟨halt, middle⟩) hwork
    · exact fun result hresult => h result (.inl ⟨a, middle, hwork, hresult⟩)
    · exact h (.error halt middle) (.inr ⟨halt, middle, hwork, rfl⟩)
  · rintro h result (⟨a, middle, hwork, hresult⟩ | ⟨halt, middle, hwork, rfl⟩)
    · exact h _ hwork result hresult
    · exact h _ hwork

/-- A transition is carried out on the machine that others left. -/
@[simp] theorem ensures_atomically {step : Transition α} :
    Ensures (Kernel.atomically step : Woven others α) machine post ↔
      ∀ met, others machine met → Transition.Ensures step met post := by
  constructor
  · intro h met hothers
    exact h _ ⟨met, hothers, rfl⟩
  · rintro h _ ⟨met, hothers, rfl⟩
    exact h met hothers

/-- What is ensured at an event holds of every machine that others may leave. -/
@[simp] theorem ensures_interrupt {event : Event} {post : Unit → Machine → Prop} :
    Ensures (Kernel.interrupt event : Woven others Unit) machine post ↔
      ∀ met, others machine met → post () met := by
  constructor
  · intro h met hothers
    exact h _ ⟨met, hothers, rfl⟩
  · rintro h _ ⟨met, hothers, rfl⟩
    exact h met hothers

/-- What is ensured among others goes from the parts of an operation to the whole. -/
def ensuring (others : Machine → Machine → Prop) : Rules (Woven others) where
  Yields := Ensures
  mono := Ensures.mono
  pure := ensures_pure.mpr
  bind := ensures_bind.mpr
  holding h := h

/-- The rules of what is ensured among others speak of `Ensures`. -/
@[simp] theorem yields_ensuring {work : Woven others α} :
    (ensuring others).Yields work machine post ↔ Ensures work machine post := Iff.rfl

/-! ### What may come about -/

/-- The result of an uninterrupted run is among those that the operation may have. -/
def Admits (work : Woven others α) (alone : Transition α) : Prop :=
  ∀ machine, work machine (alone machine)

/-- Nothing need come in between. -/
def admission (hrefl : ∀ machine, others machine machine) : Admission (Woven others) where
  Admits := Admits
  pure _ _ := rfl
  bind := by
    intro _ _ work alone next then_ h hnext machine
    have hfirst := h machine
    change (_ ∨ _ : Prop)
    simp only [Bind.bind, EStateM.bind]
    cases hrun : alone machine with
    | ok a middle =>
      rw [hrun] at hfirst
      exact .inl ⟨a, middle, hfirst, hnext a middle⟩
    | error halt middle =>
      rw [hrun] at hfirst
      exact .inr ⟨halt, middle, hfirst, rfl⟩
  atomically _ machine := ⟨machine, hrefl machine, rfl⟩
  interrupt _ machine := ⟨machine, hrefl machine, rfl⟩
  holding h := h

/-- Other work that comes before the operation may as well come during it. -/
def Patient (work : Woven others α) : Prop :=
  ∀ machine met result, others machine met → work met result → work machine result

/-- An operation is patient if its first part is. -/
theorem Patient.bind {work : Woven others α} (h : Patient work) (next : α → Woven others β) :
    Patient (work >>= next) := by
  rintro machine met result hothers (⟨a, middle, hwork, hresult⟩ | ⟨halt, middle, hwork, rfl⟩)
  · exact .inl ⟨a, middle, h machine met _ hothers hwork, hresult⟩
  · exact .inr ⟨halt, middle, h machine met _ hothers hwork, rfl⟩

/-- What only computes something first is as patient as what follows. -/
theorem patient_pure_bind {a : α} {next : α → Woven others β} (h : Patient (next a)) :
    Patient (pure a >>= next) := by
  rintro machine met result hothers (⟨_, _, heq, hresult⟩ | ⟨_, _, heq, -⟩)
  · cases heq
    exact .inl ⟨a, machine, rfl, h machine met _ hothers hresult⟩
  · cases heq

/-- A single transition is patient if what others do twice they may do at once. -/
theorem patient_atomically (htrans : ∀ a b c, others a b → others b c → others a c)
    (step : Transition α) : Patient (Kernel.atomically step : Woven others α) := by
  rintro machine met _ hothers ⟨met', hothers', rfl⟩
  exact ⟨met', htrans _ _ _ hothers hothers', rfl⟩

end Woven

end DemandPaging
