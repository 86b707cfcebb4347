import DemandPaging.Proofs.Outcomes

/-!
# Agreement

Two machines may go through the same operation side by side. `Agree step other a b post` says of two
steps, one begun on each machine, that both answer, and then `post` holds of the answers and of the
machines that they leave; or that both halt, and for the same reason.

The rules take operations apart as those of `Ensures` do, both at once. What either step yields by itself
may be added (`Agree.yields`), so nothing that is known of one run has to be proved again for two.
-/

set_option autoImplicit false

namespace DemandPaging

namespace Transition

variable {α β γ δ : Type} {step : Transition α} {other : Transition β} {a b : Machine}

/-- Both answer, and `post` holds of the answers and the machines that are left; or both halt for the same
reason. -/
def Agree (step : Transition α) (other : Transition β) (a b : Machine)
    (post : α → β → Machine → Machine → Prop) : Prop :=
  match step a, other b with
  | .ok x a, .ok y b => post x y a b
  | .error halt _, .error halt' _ => halt' = halt
  | _, _ => False

/-- The same of two parts of a machine. -/
def Corresponds (post : α → β → Prop) : Except Halt α → Except Halt β → Prop
  | .ok x, .ok y => post x y
  | .error halt, .error halt' => halt' = halt
  | _, _ => False

/-- Less may be said of the answers that agree. -/
theorem Agree.mono {post weaker : α → β → Machine → Machine → Prop} (h : Agree step other a b post)
    (hw : ∀ x y a b, post x y a b → weaker x y a b) : Agree step other a b weaker := by
  unfold Agree at h ⊢
  cases hstep : step a <;> cases hother : other b <;> rw [hstep, hother] at h
  · exact hw _ _ _ _ h
  · exact h
  · exact h
  · exact h

/-- What both yield holds besides. -/
theorem Agree.yields {post : α → β → Machine → Machine → Prop} (h : Agree step other a b post)
    {left : α → Machine → Prop} (hleft : step.Yields a left) {right : β → Machine → Prop}
    (hright : other.Yields b right) :
    Agree step other a b fun x y a b => post x y a b ∧ left x a ∧ right y b := by
  unfold Agree at h ⊢
  cases hstep : step a <;> cases hother : other b <;> rw [hstep, hother] at h
  · exact ⟨h, hleft _ _ hstep, hright _ _ hother⟩
  · exact h
  · exact h
  · exact h

/-- What the first one yields holds besides. -/
theorem Agree.left {post : α → β → Machine → Machine → Prop} (h : Agree step other a b post)
    {left : α → Machine → Prop} (hleft : step.Yields a left) :
    Agree step other a b fun x y a b => post x y a b ∧ left x a :=
  (h.yields hleft (fun _ _ _ => trivial : other.Yields b fun _ _ => True)).mono fun _ _ _ _ h =>
    ⟨h.1, h.2.1⟩

/-- If the first one answers, so does the other one. -/
theorem Agree.of_ok {post : α → β → Machine → Machine → Prop} (h : Agree step other a b post) {x : α}
    {after : Machine} (hstep : step a = .ok x after) : ∃ y after', post x y after after' := by
  unfold Agree at h
  cases hother : other b <;> rw [hstep, hother] at h
  · exact ⟨_, _, h⟩
  · exact h.elim

/-- Both answer if this can be computed. -/
theorem Agree.exists_ok {post : α → β → Machine → Machine → Prop} (h : Agree step other a b post)
    {p : Machine → Machine → Bool}
    (hp : (match step a, other b with
      | .ok _ a, .ok _ b => p a b
      | _, _ => false) = true) :
    ∃ x y a' b', step a = .ok x a' ∧ other b = .ok y b' ∧ post x y a' b' ∧ p a' b' = true := by
  unfold Agree at h
  cases hstep : step a <;> cases hother : other b <;> rw [hstep, hother] at h hp
  · exact ⟨_, _, _, _, rfl, rfl, h, hp⟩
  · cases hp
  · cases hp
  · cases hp

/-- Two answers that are given at once agree if `post` holds of them. -/
@[simp] theorem agree_pure {x : α} {y : β} {post : α → β → Machine → Machine → Prop} :
    Agree (pure x) (pure y) a b post ↔ post x y a b := Iff.rfl

/-- Two steps that halt for the same reason agree, whatever is asked of answers. -/
theorem agree_throw (halt : Halt) {post : α → β → Machine → Machine → Prop} :
    Agree (throw halt) (throw halt) a b post := rfl

/-- The second parts agree on what the first parts leave. -/
theorem agree_bind {next : α → Transition γ} {next' : β → Transition δ}
    {post : γ → δ → Machine → Machine → Prop}
    (h : Agree step other a b fun x y a b => Agree (next x) (next' y) a b post) :
    Agree (step >>= next) (other >>= next') a b post := by
  unfold Agree at h ⊢
  change match EStateM.bind step next a, EStateM.bind other next' b with
    | .ok x a, .ok y b => post x y a b
    | .error halt _, .error halt' _ => halt' = halt
    | _, _ => False
  rw [EStateM.bind, EStateM.bind]
  cases hstep : step a <;> cases hother : other b <;> rw [hstep, hother] at h
  · exact h
  · exact h.elim
  · exact h.elim
  · exact h

/-- The second parts agree wherever the first ones have agreed. -/
theorem Agree.bind {next : α → Transition γ} {next' : β → Transition δ}
    {middle : α → β → Machine → Machine → Prop} {post : γ → δ → Machine → Machine → Prop}
    (h : Agree step other a b middle)
    (hnext : ∀ x y a b, middle x y a b → Agree (next x) (next' y) a b post) :
    Agree (step >>= next) (other >>= next') a b post := agree_bind (h.mono hnext)

/-- Steps that choose alike. -/
theorem agree_ite {c : Prop} [Decidable c] {yes no : Transition α} {yes' no' : Transition β}
    {post : α → β → Machine → Machine → Prop} (hyes : c → Agree yes yes' a b post)
    (hno : ¬ c → Agree no no' a b post) :
    Agree (if c then yes else no) (if c then yes' else no') a b post := by
  split
  · exact hyes ‹_›
  · exact hno ‹_›

/-- Corresponding outcomes of a part are answered alike. -/
theorem agree_ofExcept {outcome : Except Halt α} {outcome' : Except Halt β}
    {post : α → β → Machine → Machine → Prop}
    (h : Corresponds (fun x y => post x y a b) outcome outcome') :
    Agree (ofExcept outcome) (ofExcept outcome') a b post := by
  cases outcome <;> cases outcome' <;> exact h

/-- Less may be said of outcomes that correspond. -/
theorem Corresponds.mono {post weaker : α → β → Prop} {outcome : Except Halt α}
    {outcome' : Except Halt β} (h : Corresponds post outcome outcome')
    (hw : ∀ x y, post x y → weaker x y) : Corresponds weaker outcome outcome' := by
  cases outcome <;> cases outcome'
  · exact h
  · exact h
  · exact h
  · exact hw _ _ h

/-- Outcomes that correspond are both halts, and the same one, or are both answers. -/
theorem Corresponds.cases {post : α → β → Prop} {outcome : Except Halt α} {outcome' : Except Halt β}
    (h : Corresponds post outcome outcome') :
    (∃ halt, outcome = .error halt ∧ outcome' = .error halt) ∨
      ∃ x y, outcome = .ok x ∧ outcome' = .ok y ∧ post x y := by
  cases outcome <;> cases outcome'
  · exact .inl ⟨_, rfl, congrArg Except.error h⟩
  · exact h.elim
  · exact h.elim
  · exact .inr ⟨_, _, rfl, rfl, h⟩

/-- Two parts that do the same. -/
theorem corresponds_refl {post : α → α → Prop} {outcome : Except Halt α}
    (h : ∀ x, outcome = .ok x → post x x) : Corresponds post outcome outcome := by
  cases outcome with
  | ok x => exact h x rfl
  | error halt => exact rfl

/-- Each step answers its own machine. -/
@[simp] theorem agree_get {post : Machine → Machine → Machine → Machine → Prop} :
    Agree get get a b post ↔ post a b a b := Iff.rfl

/-- Each machine gets its own notice, which may name another frame. -/
@[simp] theorem agree_notify {notice notice' : Notice} {post : Unit → Unit → Machine → Machine → Prop} :
    Agree (notify notice) (notify notice') a b post ↔ post () ()
      { a with notices := a.notices.push notice } { b with notices := b.notices.push notice' } := Iff.rfl

/-- Each step answers its own stack limit. -/
@[simp] theorem agree_stackLimit {post : Nat → Nat → Machine → Machine → Prop} :
    Agree stackLimit stackLimit a b post ↔ post a.stackLimit b.stackLimit a b := Iff.rfl

/-- Each step answers its own frame table. -/
@[simp] theorem agree_frames {post : FrameTable → FrameTable → Machine → Machine → Prop} :
    Agree frames frames a b post ↔ post a.frames b.frames a b := Iff.rfl

/-- Each machine gets its own frame table. -/
@[simp] theorem agree_setFrames {table table' : FrameTable}
    {post : Unit → Unit → Machine → Machine → Prop} :
    Agree (setFrames table) (setFrames table') a b post ↔
      post () () { a with frames := table } { b with frames := table' } := Iff.rfl

/-- Each step answers its own swap store. -/
@[simp] theorem agree_swap {post : SwapStore → SwapStore → Machine → Machine → Prop} :
    Agree swap swap a b post ↔ post a.swap b.swap a b := Iff.rfl

/-- Each machine gets its own swap store. -/
@[simp] theorem agree_setSwap {store store' : SwapStore}
    {post : Unit → Unit → Machine → Machine → Prop} :
    Agree (setSwap store) (setSwap store') a b post ↔
      post () () { a with swap := store } { b with swap := store' } := Iff.rfl

/-- Each machine has the space changed in its own way. -/
@[simp] theorem agree_modifySpace {s : SpaceId} {change change' : AddressSpace → AddressSpace}
    {post : Unit → Unit → Machine → Machine → Prop} :
    Agree (modifySpace s change) (modifySpace s change') a b post ↔
      post () () { a with spaces := a.spaces.modify s change }
        { b with spaces := b.spaces.modify s change' } := Iff.rfl

/-- Each machine gets its own version of the file. -/
@[simp] theorem agree_setFile {f : FileId} {file file' : MemoryFile}
    {post : Unit → Unit → Machine → Machine → Prop} :
    Agree (setFile f file) (setFile f file') a b post ↔
      post () () { a with files := a.files.setIfInBounds f file }
        { b with files := b.files.setIfInBounds f file' } := Iff.rfl

/-! ### Loops -/

section

variable {ε : Type} {steps others : α → Transition (Except ε Unit)}

/-- Steps in order up to the first that is refused. -/
theorem agree_upToFailure (inv : Machine → Machine → Prop) (bad : ε → Machine → Machine → Prop)
    (todo : List α)
    (hstep : ∀ x ∈ todo, ∀ a b, inv a b → Agree (steps x) (others x) a b fun outcome outcome' a b =>
      outcome = outcome' ∧
        match outcome with
        | .ok () => inv a b
        | .error cause => bad cause a b)
    (h : inv a b) :
    Agree (Kernel.upToFailure steps todo) (Kernel.upToFailure others todo) a b
      fun outcome outcome' a b => outcome = outcome' ∧
        match outcome with
        | .ok () => inv a b
        | .error cause => bad cause a b := by
  induction todo generalizing a b with
  | nil => exact ⟨rfl, h⟩
  | cons x rest ih =>
    refine (hstep x List.mem_cons_self a b h).bind ?_
    rintro outcome _ a b ⟨rfl, hafter⟩
    cases outcome with
    | error cause => exact ⟨rfl, hafter⟩
    | ok u => exact ih (fun y hy => hstep y (List.mem_cons_of_mem x hy)) hafter

/-- All steps in order, whether they are refused or not. -/
theorem agree_throughFailures (inv : Machine → Machine → Prop) (todo : List α)
    (hstep : ∀ x ∈ todo, ∀ a b, inv a b → Agree (steps x) (others x) a b fun outcome outcome' a b =>
      outcome = outcome' ∧ inv a b)
    (h : inv a b) :
    Agree (Kernel.throughFailures steps todo) (Kernel.throughFailures others todo) a b
      fun outcome outcome' a b => outcome = outcome' ∧ inv a b := by
  induction todo generalizing a b with
  | nil => exact ⟨rfl, h⟩
  | cons x rest ih =>
    refine (hstep x List.mem_cons_self a b h).bind ?_
    rintro first _ a b ⟨rfl, hafter⟩
    refine (ih (fun y hy => hstep y (List.mem_cons_of_mem x hy)) hafter).bind ?_
    rintro later _ a b ⟨rfl, hend⟩
    cases first with
    | error cause => exact ⟨rfl, hend⟩
    | ok u => exact ⟨rfl, hend⟩

end

end Transition

end DemandPaging
