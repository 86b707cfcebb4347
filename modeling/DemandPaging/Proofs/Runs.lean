import DemandPaging.Boot
import DemandPaging.Proofs.Actions
import Mathlib.Data.List.Induction

/-!
# Runs

A run is a list of moments, oldest first: each is a permitted action with what was answered and the
machine before and after. No action of a run halts, since a halt ends the system.

The machine of a run that began on a fresh one is always in order (`Run.orderly`), and each moment of
the run does one of the things that `Moves` lists (`Run.moves`).
-/

set_option autoImplicit false

namespace DemandPaging

open Spaces Machine

/-- Something that happened. -/
structure Moment where
  /-- What happened. -/
  action : Action
  /-- What was answered. -/
  reply : Reply
  /-- The machine before. -/
  before : Machine
  /-- The machine after. -/
  after : Machine

/-- What happened from `start` on, oldest first, and the machine that it led to. -/
inductive Run (start : Machine) : List Moment → Machine → Prop where
  /-- Nothing has happened yet. -/
  | nil : Run start [] start
  /-- One more permitted action was carried out. -/
  | snoc {moments : List Moment} {before after : Machine} {action : Action} {reply : Reply}
      (hrun : Run start moments before) (hpermitted : action.Permitted before)
      (hstep : action.step before = .ok reply after) :
      Run start (moments ++ [⟨action, reply, before, after⟩]) after

/-- Carry out some actions. There is no answer if one of them is not permitted or halts. -/
def replay (start : Machine) (actions : List Action) : Option (List Moment × Machine) :=
  actions.foldlM (fun (moments, before) action =>
    if action.Permitted before then
      match action.step before with
      | .ok reply after => some (moments ++ [⟨action, reply, before, after⟩], after)
      | .error _ _ => none
    else none) ([], start)

/-- The machine before anything happens: all frames and slots are free, and there are no spaces. -/
structure Machine.Fresh (machine : Machine) : Prop where
  frames : ∃ size placement, machine.frames = .ofSize size placement
  slots : ∃ count, machine.swap.slots = .ofCount count
  spaces : machine.spaces = #[]

/-- A machine that starts up is fresh. -/
theorem Machine.fresh_boot (config : Config) (available : Nat) (device : Block) :
    (boot config available device).Fresh :=
  ⟨⟨_, _, rfl⟩, ⟨_, rfl⟩, rfl⟩

/-- A machine with one frame and two swap slots. -/
def Machine.sample : Machine :=
  .boot {} 1 { name := "swap", kind := .swap, size := 16, disk := .ofSize 16 }

/-- The sample machine has just been started. -/
theorem Machine.fresh_sample : Machine.sample.Fresh := fresh_boot _ _ _

section

variable {start machine : Machine} {moments earlier later : List Moment} {moment : Moment}

/-! ### The first machine -/

/-- At first no page is mapped. -/
theorem Machine.Fresh.mapped? (h : start.Fresh) (s : SpaceId) (p : Nat) :
    mapped? start.spaces s p = none := by simp [Spaces.mapped?, h.spaces]

/-- At first no page has an entry. -/
theorem Machine.Fresh.info? (h : start.Fresh) (s : SpaceId) (p : Nat) :
    info? start.spaces s p = none := by simp [Spaces.info?, h.spaces]

/-- At first there is no space. -/
theorem Machine.Fresh.standing? (h : start.Fresh) (s : SpaceId) :
    standing? start.spaces s = none := by simp [Spaces.standing?, h.spaces]

/-- A machine that was just started is settled, since no page and no slot is in use. -/
theorem Machine.Fresh.settled (h : start.Fresh) : start.Settled := by
  obtain ⟨size, placement, hframes⟩ := h.frames
  obtain ⟨count, hslots⟩ := h.slots
  have hcopy : ∀ s p, copy? start.spaces s p = none := fun s p => by rw [copy?, h.info?]; rfl
  have hframe : ∀ s p, frame? start.spaces s p = none := fun s p => by rw [frame?, h.mapped?]; rfl
  unfold Settled SettledBut
  rw [hframes]
  refine ⟨?_, ?_, ⟨fun r => ?_, fun s p _ hsome => ?_⟩,
    ⟨fun s p info hinfo => ?_, fun s p hmoving => ?_⟩,
    ⟨?_, fun slot => ?_, fun s p _ _ copy _ hc => ?_, fun s p copy hc => ?_⟩, ?_, ?_⟩
  · rw [hframes]
    exact FramePool.accounts_ofSize size placement
  · rw [hframes]
    change (Array.replicate size _).size = (Array.replicate size _).size
    rw [Array.size_replicate, Array.size_replicate]
  · refine iff_of_false List.not_mem_nil ?_
    rintro ⟨p, -, -, hf⟩
    rw [hframe] at hf
    cases hf
  · rw [hframe] at hsome
    cases hsome
  · rw [h.info?] at hinfo
    cases hinfo
  · cases hmoving
  · rw [hslots]
    exact SlotBitmap.sound_ofCount count
  · rw [hslots, ← SlotBitmap.mem_usedSlots, SlotBitmap.usedSlots_ofCount]
    refine iff_of_false List.not_mem_nil ?_
    rintro (⟨s, p, copy, hc, -⟩ | hmem)
    · rw [hcopy] at hc
      cases hc
    · cases hmem
  · rw [hcopy] at hc
    cases hc
  · rw [hcopy] at hc
    cases hc
  · intro s standing hs
    rw [h.standing?] at hs
    cases hs
  · intro s standing hs
    rw [h.standing?] at hs
    cases hs

/-- A machine that was just started is in order. This is where every run begins. -/
theorem Machine.Fresh.orderly (h : start.Fresh) : start.Orderly := by
  have hmapping : ∀ s id, mapping? start.spaces s id = none := fun s id => by
    rw [Spaces.mapping?, h.standing?]
    rfl
  have hsegment : ∀ s p, segment? start.spaces s p = none := fun s p => by
    rw [segment?, h.info?]
    rfl
  refine ⟨h.settled, ⟨fun s standing hs => ?_, fun s id mapping hm => ?_,
    fun s p segment hs => ?_, fun s _ _ _ _ _ _ hm => ?_⟩, fun s p segment hs => ?_⟩
  · rw [h.standing?] at hs
    cases hs
  · rw [hmapping] at hm
    cases hm
  · rw [hsegment] at hs
    cases hs
  · rw [hmapping] at hm
    cases hm
  · rw [hsegment] at hs
    cases hs

/-! ### All later ones -/

/-- The last moment of a run. -/
theorem Run.last (h : Run start (moments ++ [moment]) machine) :
    Run start moments moment.before ∧ moment.action.Permitted moment.before ∧
      moment.action.step moment.before = .ok moment.reply moment.after ∧ machine = moment.after := by
  generalize hall : moments ++ [moment] = all at h
  cases h with
  | nil => simp at hall
  | snoc hrun hpermitted hstep =>
    obtain ⟨rfl, hlast⟩ := List.append_inj' hall rfl
    obtain rfl := List.singleton_inj.mp hlast
    exact ⟨hrun, hpermitted, hstep, rfl⟩

/-- To carry out some actions is a run of these actions. -/
theorem run_of_replay {actions : List Action}
    (h : replay start actions = some (moments, machine)) :
    Run start moments machine ∧ moments.map (·.action) = actions := by
  suffices general : ∀ earlier before, Run start earlier before →
      actions.foldlM (fun (moments, before) action =>
        if action.Permitted before then
          match action.step before with
          | .ok reply after => some (moments ++ [⟨action, reply, before, after⟩], after)
          | .error _ _ => none
        else none) (earlier, before) = some (moments, machine) →
      Run start moments machine ∧ moments.map (·.action) = earlier.map (·.action) ++ actions from
    general [] start .nil h
  clear h
  induction actions with
  | nil =>
    intro earlier before hrun h
    cases h
    exact ⟨hrun, (List.append_nil _).symm⟩
  | cons action actions ih =>
    intro earlier before hrun h
    rw [List.foldlM_cons] at h
    simp only at h
    split at h
    · rename_i hpermitted
      split at h
      · rename_i reply after hstep
        obtain ⟨hrun', hactions⟩ := ih _ after (hrun.snoc hpermitted hstep) h
        refine ⟨hrun', hactions.trans ?_⟩
        rw [List.map_append, List.append_assoc]
        rfl
      · cases h
    · cases h

/-- What can be computed of some actions holds of a run of them. -/
theorem exists_run {actions : List Action} {p : List Moment × Machine → Bool}
    (h : (replay start actions).any p = true) :
    ∃ moments machine, Run start moments machine ∧ moments.map (·.action) = actions ∧
      p (moments, machine) = true := by
  cases hreplay : replay start actions with
  | none =>
    rw [hreplay] at h
    cases h
  | some r =>
    rw [hreplay] at h
    obtain ⟨hrun, hactions⟩ := run_of_replay hreplay
    exact ⟨r.1, r.2, hrun, hactions, h⟩

/-- Carry out some actions, whether they are permitted or not. -/
def Action.steps (actions : List Action) : Transition (List Reply) := actions.mapM Action.step

/-- The first of some actions is carried out, and then the others. -/
theorem step_of_steps {action : Action} {rest : List Action} {replies : List Reply}
    {after : Machine} (h : Action.steps (action :: rest) machine = .ok replies after) :
    ∃ reply middle others, action.step machine = .ok reply middle ∧
      Action.steps rest middle = .ok others after ∧ replies = reply :: others := by
  rw [Action.steps, List.mapM_cons] at h
  obtain ⟨reply, middle, hstep, h⟩ := Transition.ok_of_bind h
  obtain ⟨others, final, hrest, h⟩ := Transition.ok_of_bind h
  cases h
  exact ⟨reply, middle, others, hstep, hrest, rfl⟩

/-- What can be computed of some actions and of more actions after them, permitted or not, holds of a
run of the first and of what is done then. -/
theorem exists_steps {actions more : List Action}
    {p : List Moment × Machine → List Reply × Machine → Bool}
    (h : ((replay start actions).any fun r =>
      match Action.steps more r.2 with
      | .ok replies after => p r (replies, after)
      | .error _ _ => false) = true) :
    ∃ moments machine replies after, Run start moments machine ∧
      moments.map (·.action) = actions ∧ Action.steps more machine = .ok replies after ∧
      p (moments, machine) (replies, after) = true := by
  obtain ⟨moments, machine, hrun, hactions, hp⟩ := exists_run h
  split at hp
  · rename_i replies after hsteps
    exact ⟨moments, machine, replies, after, hrun, hactions, hsteps, hp⟩
  · cases hp

/-- Moments can be cut wherever their actions can, next to a single one. -/
theorem exists_moment {actions : List Action} {action : Action}
    (h : moments.map (·.action) = actions ++ [action]) :
    ∃ earlier moment, moments = earlier ++ [moment] ∧ earlier.map (·.action) = actions ∧
      moment.action = action := by
  obtain ⟨earlier, last, rfl, hearlier, hlast⟩ := List.map_eq_append_iff.mp h
  obtain ⟨moment, rfl, hmoment⟩ := List.map_eq_singleton_iff.mp hlast
  exact ⟨earlier, moment, rfl, hearlier, hmoment⟩

/-- What happens after a run is more of a run. -/
theorem Run.append {middle : Machine} (h : Run start earlier middle)
    (h' : Run middle later machine) : Run start (earlier ++ later) machine := by
  induction h' with
  | nil =>
    rw [List.append_nil]
    exact h
  | snoc _ hpermitted hstep ih =>
    rw [← List.append_assoc]
    exact ih.snoc hpermitted hstep

/-- A run can be cut at any moment. -/
theorem Run.split (h : Run start (earlier ++ later) machine) :
    ∃ middle, Run start earlier middle ∧ Run middle later machine := by
  induction later using List.reverseRecOn generalizing machine with
  | nil =>
    rw [List.append_nil] at h
    exact ⟨machine, h, .nil⟩
  | append_singleton later moment ih =>
    rw [← List.append_assoc] at h
    obtain ⟨hrun, hpermitted, hstep, rfl⟩ := h.last
    obtain ⟨middle, hfirst, hrest⟩ := ih hrun
    exact ⟨middle, hfirst, hrest.snoc hpermitted hstep⟩

/-- A run keeps the machine in order. -/
theorem Run.orderly (h : Run start moments machine) (ho : start.Orderly) : machine.Orderly := by
  induction h with
  | nil => exact ho
  | snoc _ hpermitted hstep ih =>
    exact ((Transition.ensures_step ih _ hpermitted).of_ok hstep).1.of_empty

/-- What the last moment of a run does. -/
theorem Run.moves (h : Run start (moments ++ [moment]) machine) (ho : start.Orderly) :
    moment.before.Orderly ∧ moment.after.Orderly ∧
      Moves moment.action moment.reply moment.before moment.after := by
  obtain ⟨hrun, hpermitted, hstep, -⟩ := h.last
  have hbefore := hrun.orderly ho
  have hafter := (Transition.ensures_step hbefore _ hpermitted).of_ok hstep
  exact ⟨hbefore, hafter.1.of_empty, hafter.2⟩

end

end DemandPaging
