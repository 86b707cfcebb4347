import DemandPaging.Kernel.UserCopy

/-!
# Rules for what is put together

Several things are said of operations and their answers: that the answers are as they should be, that there
is one, or that a halt has no other cause than some. What is said goes from the parts of an operation to the
whole in the same way each time, and `Rules m` is what it takes for that.

Two loops go through the steps of a list: one up to the first refusal (`Kernel.upToFailure`), and one past
all of them (`Kernel.throughFailures`). A third one goes through the pieces of a copy from user memory and
gathers what it reads. Each is followed here once, by what holds of the machine when some of the steps are
done, for everything that may be said.
-/

set_option autoImplicit false

namespace DemandPaging

/-- What may be said of the answers of operations in `m`, with a rule for each way in which parts of them
are put together. -/
structure Rules (m : Type → Type) [Kernel m] where
  /-- Of every answer and the machine that it comes with, `post` holds. -/
  Yields : {α : Type} → m α → Machine → (α → Machine → Prop) → Prop
  mono : ∀ {α : Type} {work : m α} {machine : Machine} {post weaker : α → Machine → Prop},
    Yields work machine post → (∀ a after, post a after → weaker a after) → Yields work machine weaker
  pure : ∀ {α : Type} {a : α} {machine : Machine} {post : α → Machine → Prop},
    post a machine → Yields (Pure.pure a) machine post
  bind : ∀ {α β : Type} {work : m α} {next : α → m β} {machine : Machine}
    {post : β → Machine → Prop},
    Yields work machine (fun a after => Yields (next a) after post) →
      Yields (work >>= next) machine post
  holding : ∀ {α : Type} {resource : Resource} {work : m α} {machine : Machine}
    {post : α → Machine → Prop},
    Yields work machine post → Yields (Kernel.holding resource work) machine post

/-- The outcome of what is refused for this cause, if there is one. -/
def refusedFor {ε : Type} : Option ε → Except ε Unit
  | none => .ok ()
  | some cause => .error cause

/-- Every outcome without a result is that of a cause, or of none. -/
theorem exists_refusedFor {ε : Type} (outcome : Except ε Unit) : ∃ cause, outcome = refusedFor cause := by
  cases outcome with
  | ok u => exact ⟨none, rfl⟩
  | error cause => exact ⟨some cause, rfl⟩

/-- What is not refused has no cause. -/
theorem eq_none_of_refusedFor {ε : Type} {cause : Option ε} (h : refusedFor cause = .ok ()) :
    cause = none := by
  cases cause with
  | none => rfl
  | some cause => cases h

namespace Rules

variable {m : Type → Type} [Kernel m] (R : Rules m) {α ρ ε : Type} {machine : Machine}
  {step : α → m (Except ε Unit)}

include R

/-- Steps in order up to the first that is refused. `inv done` describes the machine when the steps
`done` were done, and `bad done` describes it when the step after them was refused. -/
theorem upToFailure (inv : List α → Machine → Prop) (bad : ε → Machine → Prop) {whole : List α}
    (hstep : ∀ done a rest before, whole = done ++ a :: rest → inv done before →
      R.Yields (step a) before fun outcome after =>
        match outcome with
        | .ok () => inv (done ++ [a]) after
        | .error cause => bad cause after)
    (h : inv [] machine) :
    R.Yields (Kernel.upToFailure step whole) machine fun outcome after =>
      match outcome with
      | .ok () => inv whole after
      | .error cause => bad cause after := by
  suffices general : ∀ todo done before, whole = done ++ todo → inv done before →
      R.Yields (Kernel.upToFailure step todo) before fun outcome after =>
        match outcome with
        | .ok () => inv whole after
        | .error cause => bad cause after by
    exact general whole [] machine rfl h
  intro todo
  induction todo with
  | nil =>
    intro done before hwhole hinv
    rw [List.append_nil] at hwhole
    subst hwhole
    exact R.pure hinv
  | cons a rest ih =>
    intro done before hwhole hinv
    rw [Kernel.upToFailure]
    refine R.bind (R.mono (hstep done a rest before hwhole hinv) fun outcome after hafter => ?_)
    cases outcome with
    | error cause => exact R.pure hafter
    | ok u => exact ih (done ++ [a]) after (by simpa using hwhole) hafter

/-- What every step keeps, whether it is refused or not, all of them keep. -/
theorem upToFailure_keeps (inv : Machine → Prop)
    (hstep : ∀ a before, inv before → R.Yields (step a) before fun _ => inv) (todo : List α)
    (h : inv machine) : R.Yields (Kernel.upToFailure step todo) machine fun _ => inv := by
  refine R.mono (R.upToFailure (fun _ => inv) (fun _ => inv) (fun _ a _ before _ hbefore => ?_) h) ?_
  · refine R.mono (hstep a before hbefore) fun outcome after hafter => ?_
    cases outcome <;> exact hafter
  · intro outcome after hafter
    cases outcome <;> exact hafter

/-- All steps in order, whether they are refused or not. `inv tried` describes the machine when these steps
were tried, each with what it was refused for. The first of the refusals is answered. -/
theorem throughFailures_first (cause : ρ → ε) (inv : List (α × Option ρ) → Machine → Prop)
    {whole : List α}
    (hstep : ∀ tried a rest before, whole = tried.map (·.1) ++ a :: rest → inv tried before →
      R.Yields (step a) before fun outcome after => ∃ refusal,
        outcome = refusedFor (refusal.map cause) ∧ inv (tried ++ [(a, refusal)]) after)
    (h : inv [] machine) :
    R.Yields (Kernel.throughFailures step whole) machine fun outcome after => ∃ tried,
      tried.map (·.1) = whole ∧ inv tried after ∧
        outcome = refusedFor ((tried.findSome? (·.2)).map cause) := by
  suffices general : ∀ todo tried before, whole = tried.map (·.1) ++ todo → inv tried before →
      R.Yields (Kernel.throughFailures step todo) before fun outcome after => ∃ more,
        more.map (·.1) = todo ∧ inv (tried ++ more) after ∧
          outcome = refusedFor ((more.findSome? (·.2)).map cause) by
    exact general whole [] machine rfl h
  intro todo
  induction todo with
  | nil =>
    intro tried before _ hinv
    exact R.pure ⟨[], rfl, (List.append_nil tried).symm ▸ hinv, rfl⟩
  | cons a rest ih =>
    intro tried before hwhole hinv
    rw [Kernel.throughFailures]
    refine R.bind (R.mono (hstep tried a rest before hwhole hinv) ?_)
    rintro _ middle ⟨refusal, rfl, hmiddle⟩
    refine R.bind (R.mono (ih (tried ++ [(a, refusal)]) middle (by simpa using hwhole) hmiddle) ?_)
    rintro _ after ⟨more, hmore, hafter, rfl⟩
    rw [List.append_assoc] at hafter
    cases refusal with
    | none => exact R.pure ⟨(a, none) :: more, by simp [hmore], hafter, rfl⟩
    | some found => exact R.pure ⟨(a, some found) :: more, by simp [hmore], hafter, rfl⟩

/-- All steps in order, whether they are refused or not. `inv done` describes the machine when the
steps `done` were tried. -/
theorem throughFailures (inv : List α → Machine → Prop) {whole : List α}
    (hstep : ∀ done a rest before, whole = done ++ a :: rest → inv done before →
      R.Yields (step a) before fun _ after => inv (done ++ [a]) after)
    (h : inv [] machine) :
    R.Yields (Kernel.throughFailures step whole) machine fun _ after => inv whole after := by
  refine R.mono (R.throughFailures_first id (fun tried => inv (tried.map (·.1)))
    (fun tried a rest before hwhole hinv => ?_) h) ?_
  · refine R.mono (hstep (tried.map (·.1)) a rest before hwhole hinv) fun outcome after hafter => ?_
    obtain ⟨refusal, rfl⟩ := exists_refusedFor outcome
    exact ⟨refusal, by rw [Option.map_id_fun, id], by simpa using hafter⟩
  · rintro outcome after ⟨tried, rfl, hinv, -⟩
    exact hinv

/-- User memory is read piece by piece. `inv done data` describes the machine when the pieces `done` were
read and `data` was in them, and `bad data` describes it when the piece after them was not reached. -/
theorem copyFromUser {s : SpaceId} {start length stackPointer : Nat}
    (inv : List Piece → Bytes → Machine → Prop) (bad : Bytes → FaultError → Machine → Prop)
    (hstep : ∀ done piece rest data before, Piece.all start length = done ++ piece :: rest →
      inv done data before →
        R.Yields (Kernel.reach s start piece stackPointer false fun frame =>
          Transition.readFrame frame (pageOffset piece.address) piece.size) before fun outcome after =>
            match outcome with
            | .ok bytes => inv (done ++ [piece]) (data ++ bytes) after
            | .error cause => bad data cause after)
    (h : inv [] #[] machine) :
    R.Yields (Kernel.copyFromUser s start length stackPointer) machine fun answer after =>
      match answer.2 with
      | .ok () => inv (Piece.all start length) answer.1 after
      | .error cause => bad answer.1 cause after := by
  suffices general : ∀ todo done data before, Piece.all start length = done ++ todo →
      inv done data before →
        R.Yields (Kernel.copyPieces s start stackPointer todo data) before fun answer after =>
          match answer.2 with
          | .ok () => inv (Piece.all start length) answer.1 after
          | .error cause => bad answer.1 cause after by
    exact general _ [] #[] machine rfl h
  intro todo
  induction todo with
  | nil =>
    intro done data before hwhole hinv
    rw [List.append_nil] at hwhole
    rw [hwhole]
    exact R.pure hinv
  | cons piece rest ih =>
    intro done data before hwhole hinv
    rw [Kernel.copyPieces]
    refine R.bind (R.mono (hstep done piece rest data before hwhole hinv) fun outcome after hafter => ?_)
    cases outcome with
    | error cause => exact R.pure hafter
    | ok bytes => exact ih (done ++ [piece]) (data ++ bytes) after (by simpa using hwhole) hafter

end Rules

end DemandPaging
