import DemandPaging.Kernel.Call
import DemandPaging.Proofs.Rules

/-!
# What a transition ensures

`Ensures step machine post` says of one uninterrupted run: if `step`, begun on `machine`, answers,
then its answer and the machine it leaves satisfy `post`; and if it halts, then not because
something was given back that was not out. A halt ends the system, so nothing is said of the machine
it leaves.

The rules of this module take a composite operation apart. Those for `pure` and `>>=` are
equivalences and drive `simp`; the operations of `Kernel` lose their events and resources on the
way, since in `Transition` nothing comes in between. Every larger operation gets one lemma of the
form `Ensures operation machine post`, and its callers use that lemma through `Ensures.mono`.
-/

set_option autoImplicit false

namespace DemandPaging

/-- The halt says that something was given back that was not out. -/
def Halt.isDoubleRelease : Halt → Bool
  | .doubleFree _ | .slotOutOfRange _ | .slotFreedTwice _ => true
  | _ => false

namespace Transition

variable {α β : Type} {machine : Machine}

/-- If the step answers, then `post` holds of the answer and the machine it leaves; and it does not
halt for a double release. -/
def Ensures (step : Transition α) (machine : Machine) (post : α → Machine → Prop) : Prop :=
  match step machine with
  | .ok a machine => post a machine
  | .error halt _ => halt.isDoubleRelease = false

/-- What is ensured of an answer that is known. -/
theorem Ensures.of_ok {step : Transition α} {post : α → Machine → Prop} {a : α} {after : Machine}
    (h : Ensures step machine post) (hrun : step machine = .ok a after) : post a after := by
  unfold Ensures at h
  rw [hrun] at h
  exact h

/-- What is ensured of a halt that is known. -/
theorem Ensures.of_error {step : Transition α} {post : α → Machine → Prop} {halt : Halt}
    {after : Machine} (h : Ensures step machine post) (hrun : step machine = .error halt after) :
    halt.isDoubleRelease = false := by
  unfold Ensures at h
  rw [hrun] at h
  exact h

/-- Less may be ensured than is. -/
theorem Ensures.mono {step : Transition α} {post weaker : α → Machine → Prop}
    (h : Ensures step machine post) (hw : ∀ a after, post a after → weaker a after) :
    Ensures step machine weaker := by
  unfold Ensures at h ⊢
  cases hrun : step machine with
  | ok a after => rw [hrun] at h; exact hw a after h
  | error halt after => rw [hrun] at h; exact h

/-- An answer that is given at once is ensured on the machine as it is. -/
@[simp] theorem ensures_pure {a : α} {post : α → Machine → Prop} :
    Ensures (pure a) machine post ↔ post a machine := Iff.rfl

/-- The second part ensures `post` on whatever the first part leaves. -/
@[simp] theorem ensures_bind {step : Transition α} {next : α → Transition β}
    {post : β → Machine → Prop} :
    Ensures (step >>= next) machine post ↔
      Ensures step machine fun a after => Ensures (next a) after post := by
  unfold Ensures
  simp only [Bind.bind, EStateM.bind]
  cases step machine <;> rfl

/-- An answer that is only changed is ensured of what it is changed to. -/
@[simp] theorem ensures_map {step : Transition α} {f : α → β} {post : β → Machine → Prop} :
    Ensures (f <$> step) machine post ↔ Ensures step machine fun a after => post (f a) after := by
  unfold Ensures
  simp only [Functor.map, EStateM.map]
  cases step machine <;> rfl

/-- A halt ensures anything, unless it tells of something given back twice. -/
@[simp] theorem ensures_throw {halt : Halt} {post : α → Machine → Prop} :
    Ensures (throw halt) machine post ↔ halt.isDoubleRelease = false := Iff.rfl

/-- A read leaves the machine and answers with it. -/
@[simp] theorem ensures_get {post : Machine → Machine → Prop} :
    Ensures get machine post ↔ post machine machine := Iff.rfl

/-- A change of the machine answers with nothing. -/
@[simp] theorem ensures_modify {f : Machine → Machine} {post : Unit → Machine → Prop} :
    Ensures (modify f) machine post ↔ post () (f machine) := Iff.rfl

/-- A change of the machine that has an answer. -/
@[simp] theorem ensures_modifyGet {f : Machine → α × Machine} {post : α → Machine → Prop} :
    Ensures (modifyGet f) machine post ↔ post (f machine).1 (f machine).2 := Iff.rfl

/-- Two steps answer if the first one does, and the second one on what the first one leaves. -/
theorem ok_of_bind {step : Transition α} {next : α → Transition β} {b : β} {after : Machine}
    (h : (step >>= next) machine = .ok b after) :
    ∃ a middle, step machine = .ok a middle ∧ next a middle = .ok b after := by
  change EStateM.bind step next machine = _ at h
  rw [EStateM.bind] at h
  split at h
  · exact ⟨_, _, ‹_›, h⟩
  · cases h

/-- A step goes on with the answer of its first part. -/
theorem run_bind {step : Transition α} {a : α} {after : Machine} (h : step machine = .ok a after)
    (next : α → Transition β) : (step >>= next) machine = next a after := by
  change EStateM.bind step next machine = next a after
  rw [EStateM.bind, h]

/-- A step halts with its first part. -/
theorem run_bind_error {step : Transition α} {halt : Halt} {after : Machine}
    (h : step machine = .error halt after) (next : α → Transition β) :
    (step >>= next) machine = .error halt after := by
  change EStateM.bind step next machine = .error halt after
  rw [EStateM.bind, h]

/-- The answer of a part of the machine is taken over, and so is its halt. -/
@[simp] theorem ensures_ofExcept {outcome : Except Halt α} {post : α → Machine → Prop} :
    Ensures (ofExcept outcome) machine post ↔
      (∀ a, outcome = .ok a → post a machine) ∧
        ∀ halt, outcome = .error halt → halt.isDoubleRelease = false := by
  cases outcome <;> simp [ofExcept]

/-! ### Uninterrupted operations -/

/-- With nobody else about, a resource need not be waited for. -/
@[simp] theorem holding_eq (resource : Resource) (work : Transition α) :
    Kernel.holding resource work = work := rfl

/-- With nobody else about, nothing happens where others might come in. -/
@[simp] theorem interrupt_eq (event : Event) :
    (Kernel.interrupt event : Transition Unit) = pure () := rfl

/-- With nobody else about, every step is carried out in one go. -/
@[simp] theorem atomically_eq (step : Transition α) : Kernel.atomically step = step := rfl

/-- A transition is lifted to itself. -/
@[simp] theorem lift_eq (step : Transition α) :
    @liftM Transition Transition (@instMonadLiftTOfMonadLift Transition Transition Transition _ _)
      α step = step := rfl

/-- A step that is one of two, whichever it is. -/
theorem ensures_ite {c : Prop} [Decidable c] {yes no : Transition α} {post : α → Machine → Prop}
    (hyes : c → Ensures yes machine post) (hno : ¬ c → Ensures no machine post) :
    Ensures (if c then yes else no) machine post := by
  split
  · exact hyes ‹_›
  · exact hno ‹_›

/-- What is ensured goes from the parts of an operation to the whole. -/
def ensuring : Rules Transition where
  Yields := Ensures
  mono := Ensures.mono
  pure := ensures_pure.mpr
  bind := ensures_bind.mpr
  holding h := h

/-! ### Loops -/

/-- The steps that are done before the first one that is refused. -/
def served {ε : Type} (step : α → Transition (Except ε Unit)) : List α → Machine → List α
  | [], _ => []
  | a :: rest, machine =>
    match step a machine with
    | .ok (.ok ()) after => a :: served step rest after
    | _ => []

section

variable {ε : Type} {step : α → Transition (Except ε Unit)} {inv : List α → Machine → Prop}

/-- Steps in order up to the first that is refused. `inv done` describes the machine when the steps
`done` were done, and `bad done` describes it when the step after them was refused. -/
theorem ensures_upToFailure {bad : List α → ε → Machine → Prop} {whole : List α}
    (hstep : ∀ done a rest before, whole = done ++ a :: rest → inv done before →
      Ensures (step a) before fun outcome after =>
        match outcome with
        | .ok () => inv (done ++ [a]) after
        | .error cause => bad done cause after)
    (h : inv [] machine) :
    Ensures (Kernel.upToFailure step whole) machine fun outcome after =>
      match outcome with
      | .ok () => inv whole after ∧ served step whole machine = whole
      | .error cause => bad (served step whole machine) cause after := by
  suffices general : ∀ todo done before, whole = done ++ todo → inv done before →
      Ensures (Kernel.upToFailure step todo) before fun outcome after =>
        match outcome with
        | .ok () => inv whole after ∧ served step todo before = todo
        | .error cause => bad (done ++ served step todo before) cause after by
    exact general whole [] machine rfl h
  intro todo
  induction todo with
  | nil =>
    intro done before hwhole hinv
    rw [List.append_nil] at hwhole
    subst hwhole
    exact ⟨hinv, rfl⟩
  | cons a rest ih =>
    intro done before hwhole hinv
    rw [Kernel.upToFailure, ensures_bind]
    have hone := hstep done a rest before hwhole hinv
    unfold Ensures at hone ⊢
    cases hrun : step a before with
    | error halt after =>
      rw [hrun] at hone
      exact hone
    | ok outcome after =>
      rw [hrun] at hone
      cases outcome with
      | error cause =>
        have hserved : served step (a :: rest) before = [] := by simp [served, hrun]
        rw [hserved, List.append_nil]
        exact hone
      | ok u =>
        have hwhole' : whole = (done ++ [a]) ++ rest := by simpa using hwhole
        have hrest := ih (done ++ [a]) after hwhole' hone
        refine hrest.mono fun outcome final hfinal => ?_
        cases outcome with
        | error cause => simpa [served, hrun] using hfinal
        | ok u =>
          refine ⟨hfinal.1, ?_⟩
          simp [served, hrun, hfinal.2]

/-- All steps in order, whether they are refused or not. `inv done` describes the machine when the
steps `done` were tried, and `good done` holds besides as long as none of them was refused. -/
theorem ensures_throughFailures {good : List α → Machine → Prop} {whole : List α}
    (hstep : ∀ done a rest before, whole = done ++ a :: rest → inv done before →
      Ensures (step a) before fun outcome after => inv (done ++ [a]) after ∧
        (outcome = .ok () → good done before → good (done ++ [a]) after))
    (h : inv [] machine) (hgood : good [] machine) :
    Ensures (Kernel.throughFailures step whole) machine fun outcome after =>
      inv whole after ∧ (outcome = .ok () → good whole after) := by
  refine Ensures.mono (ensuring.throughFailures_first id (fun tried after => inv (tried.map (·.1)) after ∧
    (tried.findSome? (·.2) = none → good (tried.map (·.1)) after)) ?step ⟨h, fun _ => hgood⟩) ?whole
  case step =>
    rintro tried a rest before hwhole ⟨hinv, hdone⟩
    refine (hstep (tried.map (·.1)) a rest before hwhole hinv).mono ?_
    rintro outcome after ⟨hinv', hgood'⟩
    obtain ⟨refusal, rfl⟩ := exists_refusedFor outcome
    refine ⟨refusal, by rw [Option.map_id_fun, id], by simpa using hinv', fun hnone => ?_⟩
    rw [List.findSome?_append] at hnone
    obtain ⟨hearlier, hlast⟩ := Option.or_eq_none_iff.mp hnone
    obtain rfl : refusal = none := by simpa using hlast
    simpa using hgood' rfl (hdone hearlier)
  case whole =>
    rintro outcome after ⟨tried, rfl, ⟨hinv, hgood'⟩, rfl⟩
    refine ⟨hinv, fun hok => hgood' ?_⟩
    rw [Option.map_id_fun, id] at hok
    exact eq_none_of_refusedFor hok

end

end Transition

end DemandPaging
