import DemandPaging.Config.Parser
import DemandPaging.Proofs.ExactCopies

/-!
# How far stacks grow

A space that nobody registers pages for, maps files to or grows the stack of by name has only those pages that
faults and copies have added to its stack. The limit is checked of the address that is missing, and then the
page that it is in is added as a whole. So every such page has a byte within the limit (`InStack`), and no
other page ever becomes known (`Run.stack_within`).

If the limit is a number of pages, then every page of the stack lies within it. Otherwise the limit is inside
the lowest page of the stack, and the bytes of that page below it can be read and written too
(`Run.stack_below_limit`).
-/

set_option autoImplicit false

namespace DemandPaging

open Spaces Machine

/-- The pages of a stack that may take `limit` bytes: all below the kernel that have a byte in common with the
`limit` bytes there. -/
def InStack (limit p : Nat) : Prop := pageOf (kernelBase - limit) ≤ p ∧ p < kernelBase

/-- Whether a page belongs to the stack can be computed. -/
instance (limit p : Nat) : Decidable (InStack limit p) := inferInstanceAs (Decidable (_ ∧ _))

/-- An access that makes a stack grow is in one of its pages. -/
theorem inStack_of_isStackAccess {limit address stackPointer : Nat}
    (h : isStackAccess limit address stackPointer = true) : InStack limit (pageOf address) := by
  simp only [isStackAccess, Bool.and_eq_true, decide_eq_true_eq] at h
  simp only [InStack, pageOf, pageSize, kernelBase] at *
  omega

/-- If the limit is a number of pages, the pages of a stack lie within it. -/
theorem InStack.within {limit p : Nat} (h : InStack limit p) (hpages : pageSize ∣ limit) (hp : IsAligned p) :
    kernelBase - limit ≤ p ∧ p + pageSize ≤ kernelBase := by
  obtain ⟨pages, rfl⟩ := hpages
  simp only [InStack, IsAligned, pageOffset, pageOf, pageSize, kernelBase] at *
  omega

/-- Only pages of the stack have become known in space `s`. -/
structure Machine.GrowsWithin (s : SpaceId) (before after : Machine) : Prop where
  stackLimit_eq : after.stackLimit = before.stackLimit
  known : ∀ p, IsAligned p → after.Known s p → before.Known s p ∨ InStack before.stackLimit p

section

variable {m m' m'' : Machine} {s s' : SpaceId} {p p' : Nat} {done : Prop}
  {victim : Option (SpaceId × Nat)}

/-- No page becomes known if nothing happens. -/
theorem Machine.GrowsWithin.refl (m : Machine) : m.GrowsWithin s m := ⟨rfl, fun _ _ h => .inl h⟩

/-- Pages of the stack that become known one after the other are pages of the same stack, since the limit
stays. -/
theorem Machine.GrowsWithin.trans (h : m.GrowsWithin s m') (h' : m'.GrowsWithin s m'') :
    m.GrowsWithin s m'' where
  stackLimit_eq := h'.stackLimit_eq.trans h.stackLimit_eq
  known p hp hknown := by
    rcases h'.known p hp hknown with hbefore | hstack
    · exact h.known p hp hbefore
    · exact .inr (h.stackLimit_eq ▸ hstack)

/-- No page has become known. -/
theorem Machine.GrowsWithin.of_known (hlimit : m'.stackLimit = m.stackLimit)
    (hknown : ∀ p, IsAligned p → m'.Known s p → m.Known s p) : m.GrowsWithin s m' :=
  ⟨hlimit, fun p hp h => .inl (hknown p hp h)⟩

/-- A page with the same entry, mapped or not as before, is as known as before. -/
theorem Machine.Disturbs.known_iff {pages : List (SpaceId × Nat)} (h : m.Disturbs pages m') (hp : IsAligned p)
    (hnot : (s, p) ∉ pages) : m'.Known s p ↔ m.Known s p := by
  have hmapped := h.unmapped_iff hp hnot
  simp only [Known, Option.isSome_iff_ne_none, ne_eq, hmapped, h.info s p hnot]

/-- Whoever makes way was known. -/
theorem Machine.MakesWay.known (h : m.MakesWay done victim m') (hp : IsAligned p)
    (hknown : m'.Known s p) : m.Known s p := by
  by_cases hmem : (s, p) ∈ victim.toList
  · rcases h.fate (s, p) (Option.mem_toList.mp hmem) with hout | ⟨-, hback⟩
    · exact .inl hout.mapped
    · exact .inl hback.mapped
  · exact (h.disturbs.known_iff hp hmem).mp hknown

/-- To bring a page in makes no page known but that one, and that one only if it succeeds. -/
theorem Machine.Admits.known {ε : Type} {outcome : Except ε Unit} (h : m.Admits s p outcome m')
    (hp' : IsAligned p') (hknown : m'.Known s' p') :
    m.Known s' p' ∨ (s' = s ∧ p' = p) ∧ outcome = .ok () := by
  obtain ⟨victim, h⟩ := h
  cases outcome with
  | error cause => exact .inl (h.known hp' hknown)
  | ok u =>
    obtain ⟨middle, hway, hbrought⟩ := h
    by_cases hpage : s' = s ∧ p' = p
    · exact .inr ⟨hpage, rfl⟩
    · have hnot : (s', p') ∉ [(s, p)] := by rwa [List.mem_singleton, Prod.mk.injEq]
      exact .inl (hway.known hp' ((hbrought.known_iff hp' hnot).mp hknown))

end

namespace Transition

variable {machine : Machine} {s t : SpaceId} {α : Type} {act : Nat → Transition α} {piece : Piece}
  {write : Bool}

/-! ### Faults -/

/-- Only a page that is known or is one of the stack is ever brought in. -/
theorem admissible_resolveFault (address stackPointer : Nat) (code : FaultCode) :
    Yields (Kernel.resolveFault t address stackPointer code) machine fun outcome _ => outcome = .ok () →
      machine.Known t (pageOf address) ∨ InStack machine.stackLimit (pageOf address) := by
  have hresolve : ∀ rounds, Yields (Kernel.resolveIn t address stackPointer rounds) machine
      fun outcome _ => outcome = .ok () →
        machine.Known t (pageOf address) ∨ InStack machine.stackLimit (pageOf address) := by
    intro rounds
    induction rounds with
    | zero => exact yields_throw.mpr trivial
    | succ rounds ih =>
      simp only [Kernel.resolveIn, Kernel.supplement, holding_eq, lift_eq, yields_bind, yields_supplement]
      intro space hspace
      refine yields_ite (fun _ => yields_pure.mpr (by simp)) (fun _ => ?_)
      cases hfind : space.supplement.find? (pageOf address) with
      | none =>
        simp only [Kernel.faultWithoutInfo, lift_eq, yields_bind, yields_stackLimit]
        refine yields_ite (fun haccess => ?_) (fun _ => yields_pure.mpr (by simp))
        exact fun _ _ _ _ => .inr (inStack_of_isStackAccess haccess)
      | some info =>
        refine yields_ite (fun _ => ih) (fun _ => ?_)
        refine fun _ _ _ _ => .inl (.inr ?_)
        rw [info?_eq hspace, hfind]
        rfl
  unfold Kernel.resolveFault
  exact yields_ite (fun _ => yields_pure.mpr (by simp)) (fun _ => hresolve faultRounds)

/-- A fault brings in its own page, which is known or one of the stack, or it changes nothing. -/
theorem growsWithin_resolveFault (h : machine.Settled) (s t : SpaceId) (address stackPointer : Nat)
    (code : FaultCode) :
    Yields (Kernel.resolveFault t address stackPointer code) machine fun _ after =>
      machine.GrowsWithin s after := by
  by_cases hunmapped : mapped? machine.spaces t (pageOf address) = none
  · refine (((admits_resolveFault h hunmapped stackPointer code).and
      (admissible_resolveFault address stackPointer code)).and
        (ensures_resolveFault h t address stackPointer code).yields).mono ?_
    rintro outcome after ⟨⟨hadmits, hadmissible⟩, ⟨⟨_, -, hadvance⟩, -⟩, -⟩
    refine ⟨hadvance.stackLimit_eq, fun p hp hknown => ?_⟩
    rcases hadmits.known hp hknown with hbefore | ⟨⟨rfl, rfl⟩, hdone⟩
    · exact .inl hbefore
    · exact hadmissible hdone
  · by_cases hrefused : ¬ IsUser address ∨ address < pageSize ∨ code.present = true
    · rw [Kernel.resolveFault, if_pos hrefused]
      exact yields_pure.mpr (.refl machine)
    · rw [not_or, not_not, not_or, Bool.not_eq_true] at hrefused
      obtain ⟨huser, hge, hpresent⟩ := hrefused
      exact (yields_iff (run_resolveFault h huser (Nat.le_of_not_lt hge) hpresent
        (Option.isSome_iff_ne_none.mpr hunmapped) stackPointer)).mpr (.refl machine)

/-! ### Copies -/

/-- What is done with the frame of a page leaves the tables alone. -/
def LeavesTables (act : Nat → Transition α) : Prop :=
  ∀ frame before, Yields (act frame) before fun _ after =>
    after.spaces = before.spaces ∧ after.stackLimit = before.stackLimit

/-- However many rounds a copy takes for a piece, only its faults make pages known, and these are pages of the
stack. -/
theorem growsWithin_reachIn (hact : LeavesTables act) (h : machine.Settled) (s t : SpaceId)
    (stackPointer rounds : Nat) :
    Yields (Kernel.reachIn t piece stackPointer write act rounds) machine fun _ after =>
      machine.GrowsWithin s after := by
  induction rounds generalizing machine with
  | zero => exact yields_throw.mpr trivial
  | succ rounds ih =>
    refine yields_bind.mpr ((yields_translate write).mono ?_)
    intro outcome met hmet
    cases outcome with
    | error code =>
      obtain rfl : met = machine := hmet
      refine yields_bind.mpr (((growsWithin_resolveFault h s t piece.address stackPointer code).and
        (ensures_resolveFault h t piece.address stackPointer code).yields).mono ?_)
      rintro outcome after ⟨hgrows, hserviced, -⟩
      cases outcome with
      | error cause => exact yields_pure.mpr hgrows
      | ok u => exact (ih hserviced.settled).mono fun _ _ hlast => hgrows.trans hlast
    | ok frame =>
      obtain ⟨entry, hentry, hframe, -, rfl⟩ := hmet
      refine yields_bind.mpr ((yields_withFrame (frame?_touch hentry hframe) (hact frame _)).mono ?_)
      rintro _ after ⟨a, rfl, hspaces, hlimit⟩
      refine yields_pure.mpr (.of_known hlimit fun p _ hknown => ?_)
      rw [Known, hspaces, mapped?_mark, info?_mark] at hknown
      refine hknown.imp_left fun hmapped => ?_
      split at hmapped
      · rwa [Option.isSome_map] at hmapped
      · exact hmapped

/-- To reach a piece leaves the machine settled, and makes only pages of the stack known. -/
theorem growsWithin_reach (hact : LeavesTables act) (hsettled : ∀ frame before, before.Settled →
      Ensures (act frame) before fun _ after => after.Settled) (h : machine.Settled) (s t : SpaceId)
    (start stackPointer : Nat) :
    Yields (Kernel.reach t start piece stackPointer write act) machine fun _ after =>
      after.Settled ∧ machine.GrowsWithin s after := by
  have hreach := @ensures_reach machine {} t α h start piece stackPointer write act
    (fun _ after => after.Settled)
    fun before entry _ hserviced _ _ => hsettled entry.frame.toNat before hserviced.settled
  have hgrows : Yields (Kernel.reach t start piece stackPointer write act) machine fun _ after =>
      machine.GrowsWithin s after := by
    unfold Kernel.reach
    refine yields_ite (fun _ => yields_pure.mpr (.refl machine)) (fun _ => ?_)
    refine yields_ite (fun _ => yields_pure.mpr (.refl machine)) (fun _ => ?_)
    exact growsWithin_reachIn hact h s t stackPointer copyRounds
  refine (hreach.yields.and hgrows).mono ?_
  rintro outcome after ⟨hafter, hgrows⟩
  cases outcome with
  | ok a => exact ⟨hafter, hgrows⟩
  | error cause => exact ⟨hafter.settled, hgrows⟩

/-- A copy to user memory makes only pages of the stack known. -/
theorem growsWithin_copyToUser (h : machine.Settled) (s t : SpaceId) (start : Nat) (data : Bytes)
    (stackPointer : Nat) :
    Yields (Kernel.copyToUser t start data stackPointer) machine fun _ after =>
      machine.GrowsWithin s after := by
  refine Yields.mono (Outcomes.alone.toRules.upToFailure_keeps
    (fun after => after.Settled ∧ machine.GrowsWithin s after) (fun piece before hbefore => ?_) _
    ⟨h, .refl machine⟩) fun _ _ hafter => hafter.2
  have hact : LeavesTables fun frame =>
      writeFrame frame (pageOffset piece.address) (data.window piece.done piece.size) :=
    fun _ _ => (ensures_writeFrame.mpr fun _ _ _ => ⟨rfl, rfl⟩).yields
  refine (growsWithin_reach hact (fun frame before hb => settled_writeFrame hb frame _ _) hbefore.1 s t start
    stackPointer).mono ?_
  exact fun _ _ hafter => ⟨hafter.1, hbefore.2.trans hafter.2⟩

/-- A copy from user memory makes only pages of the stack known. -/
theorem growsWithin_copyFromUser (h : machine.Settled) (s t : SpaceId) (start length stackPointer : Nat) :
    Yields (Kernel.copyFromUser t start length stackPointer) machine fun _ after =>
      machine.GrowsWithin s after := by
  refine Yields.mono (Outcomes.alone.toRules.copyFromUser
    (fun _ _ after => after.Settled ∧ machine.GrowsWithin s after)
    (fun _ _ after => machine.GrowsWithin s after)
    (fun _ piece _ _ before _ hbefore => ?step) ⟨h, .refl machine⟩) ?whole
  case whole =>
    rintro ⟨_, outcome⟩ after hafter
    cases outcome with
    | error cause => exact hafter
    | ok u => exact hafter.2
  case step =>
    have hact : LeavesTables fun frame => readFrame frame (pageOffset piece.address) piece.size :=
      fun _ _ => (ensures_readFrame.mpr fun _ _ _ => ⟨rfl, rfl⟩).yields
    refine (growsWithin_reach hact (fun frame before hb => settled_readFrame hb frame _ _) hbefore.1 s t
      start stackPointer).mono fun outcome after hafter => ?_
    cases outcome with
    | error cause => exact hbefore.2.trans hafter.2
    | ok bytes => exact ⟨hafter.1, hbefore.2.trans hafter.2⟩

/-- To handle a fault makes only pages of the stack known. -/
theorem growsWithin_handleFault (h : machine.Settled) (s t : SpaceId) (address stackPointer : Nat)
    (code : FaultCode) :
    Yields (Kernel.handleFault t address stackPointer code) machine fun _ after =>
      machine.GrowsWithin s after := by
  simp only [Kernel.handleFault, lift_eq, atomically_eq, yields_bind]
  refine (growsWithin_resolveFault h s t address stackPointer code).mono ?_
  rintro outcome after hgrows
  have hsaid : ∀ notices, machine.GrowsWithin s { after with notices } := fun _ =>
    hgrows.trans (.of_known rfl fun _ _ hknown => hknown)
  cases outcome with
  | ok u => exact yields_pure.mpr hgrows
  | error cause =>
    cases cause with
    | unrecoverable address =>
      simp only [yields_bind, yields_space, yields_notify, yields_pure]
      exact fun _ _ => hsaid _
    | fatal cause =>
      simp only [yields_bind, yields_space, yields_notify]
      exact fun _ _ => yields_throw.mpr trivial

/-- The stack of another space grows, and no page of this one becomes known. -/
theorem growsWithin_growStack (h : machine.Settled) {s t : SpaceId} (hne : t ≠ s) {address : Nat}
    (hinfo : info? machine.spaces t (pageOf address) = none) :
    Yields (Kernel.growStack t address) machine fun _ after => machine.GrowsWithin s after := by
  by_cases hmapped : mapped? machine.spaces t (pageOf address) = none
  · have hadmits : Yields (Kernel.growStack t address) machine (machine.Admits t (pageOf address)) := by
      unfold Kernel.growStack
      exact yields_ite (fun _ => yields_pure.mpr (.refl machine _))
        (fun _ => admits_addStackPage h (isAligned_pageOf address) hmapped)
    refine (hadmits.and (ensures_growStack h hinfo).yields).mono ?_
    rintro outcome after ⟨hadmits, ⟨_, -, hadvance⟩, -⟩
    refine .of_known hadvance.stackLimit_eq fun p hp hknown => ?_
    rcases hadmits.known hp hknown with hbefore | ⟨⟨rfl, -⟩, -⟩
    · exact hbefore
    · exact absurd rfl hne
  · obtain ⟨entry, hentry⟩ := Option.ne_none_iff_exists'.mp hmapped
    obtain ⟨space, hspace, -⟩ := Option.bind_eq_some_iff.mp hentry
    have hframe : frame? machine.spaces t (pageOf address) = some entry.frame.toNat := by
      rw [frame?, hentry, Option.map_some]
    have hlive : space.supplement.destroyed = false :=
      h.live.isLive_of_frame? (isAligned_pageOf address) hframe space.standing (standing?_eq hspace)
    have hadded := run_addStackPage hspace hlive (Option.isSome_iff_ne_none.mpr hmapped)
    unfold Kernel.growStack
    exact yields_ite (fun _ => yields_pure.mpr (.refl machine))
      (fun _ => (yields_iff hadded).mpr (.refl machine))

end Transition

/-! ### Actions -/

/-- The call names pages of space `s` to be known: it registers them, maps a file to them, or makes the stack
grow to one of them. -/
def Call.Places (s : SpaceId) : Call → Prop
  | registerPage t .. | registerSegment t .. | mapFile t .. | growStack t _ => t = s
  | _ => False

/-- The action is such a call. -/
def Action.Places (s : SpaceId) : Action → Prop
  | .call c => c.Places s
  | _ => False

/-- Whether a call places pages in a space can be computed. -/
instance (s : SpaceId) : (c : Call) → Decidable (c.Places s)
  | .registerPage .. | .registerSegment .. | .mapFile .. | .growStack .. => inferInstanceAs (Decidable (_ = _))
  | .unmapFile .. | .resolveFault .. | .handleFault .. | .copyFromUser .. | .copyToUser .. | .destroy ..
  | .allocate .. | .allocateFor .. | .bind .. | .unpin .. | .free .. | .freeOwnedBy .. =>
    inferInstanceAs (Decidable False)

/-- Whether an action places pages in a space can be computed. -/
instance (s : SpaceId) : (action : Action) → Decidable (action.Places s)
  | .call c => inferInstanceAs (Decidable (c.Places s))
  | .addSpace _ | .addFile _ | .changeFile .. | .turnDisk .. => inferInstanceAs (Decidable False)

/-- A call that names a window for a page of a space names pages of it. -/
theorem Call.places_of_window {c : Call} {m : Machine} {s : SpaceId} {p : Nat} {segment : Segment}
    (h : c.window m s p = some segment) : c.Places s := by
  cases c with
  | registerPage | registerSegment | mapFile =>
    simp only [Call.window] at h
    split at h
    · exact Eq.symm ‹_›
    · cases h
  | unmapFile | resolveFault | handleFault | growStack | copyFromUser | copyToUser | destroy | allocate
  | allocateFor | bind | unpin | free | freeOwnedBy => cases h

section

variable {m m' : Machine} {s t : SpaceId}

/-- Pages of other spaces were registered. -/
theorem Adds.growsWithin {window : Nat → Option Segment} (h : Adds t window m m')
    (hnone : t = s → ∀ p, window p = none) : m.GrowsWithin s m' := by
  refine .of_known h.stackLimit_eq fun p hp hknown => ?_
  by_contra hbefore
  obtain ⟨rfl, segment, hwindow, -⟩ := h.fresh hknown hbefore
  rw [hnone rfl] at hwindow
  cases hwindow

/-- Pages were forgotten. -/
theorem Forgets.growsWithin {gone : SpaceId → Nat → Prop} {writes : List FileId} (h : Forgets gone writes m m') :
    m.GrowsWithin s m' := by
  refine .of_known h.stackLimit_eq fun p hp hknown => ?_
  have hnot : ¬ gone s p := fun hgone => h.not_known hp hgone hknown
  exact (h.known_iff hp hnot).mp hknown

end

namespace Transition

variable {machine : Machine} {s : SpaceId}

/-- Nobody changes the limit. -/
theorem ensures_outside_stackLimit {action : Action} (hcall : ∀ c, action ≠ .call c) :
    Ensures action.step machine fun _ after => after.stackLimit = machine.stackLimit := by
  cases action with
  | call c => exact absurd rfl (hcall c)
  | addSpace | addFile | changeFile | turnDisk => exact rfl

/-- A call that places no pages in the space itself makes only pages of its stack known. -/
theorem growsWithin_perform (h : machine.Orderly) {c : Call} (hpermitted : c.Permitted machine)
    (hplaces : ¬ c.Places s) :
    Yields (Kernel.perform c) machine fun _ after => machine.GrowsWithin s after := by
  have hwindow : ∀ p, c.window machine s p = none := by
    intro p
    rw [Option.eq_none_iff_forall_ne_some]
    exact fun segment hsegment => hplaces (Call.places_of_window hsegment)
  have hregisters : ∀ hc : c.Registers machine,
      Yields (Kernel.perform c) machine fun _ after => machine.GrowsWithin s after := by
    intro hc
    refine (ensures_registers hc (Call.not_bare c hc hpermitted)).yields.mono ?_
    rintro reply after ⟨t, -, hadds, -⟩
    refine hadds.growsWithin ?_
    rintro rfl
    exact hwindow
  cases c with
  | registerPage | registerSegment => exact hregisters hpermitted.1
  | mapFile t f page =>
    simp only [Kernel.perform, yields_bind, yields_pure]
    refine (ensures_mapFile t f page).yields.mono fun outcome after hafter => ?_
    cases outcome with
    | ok id =>
      obtain ⟨file, -, hmaps⟩ := hafter
      exact hmaps.adds.growsWithin fun heq => absurd heq hplaces
    | error cause =>
      obtain rfl : after = machine := hafter
      exact .refl after
  | unmapFile t id =>
    simp only [Kernel.perform, Kernel.unmapFile, holding_eq, yields_bind, yields_pure]
    refine (ensures_removeMapping h.settled h.mapped t id).yields.mono ?_
    rintro outcome after ⟨-, hafter⟩
    cases hmapping : mapping? machine.spaces t id with
    | none =>
      rw [hmapping] at hafter
      obtain rfl : after = machine := hafter.1
      exact .refl after
    | some mapping =>
      rw [hmapping] at hafter
      obtain ⟨writes, -, hforgets⟩ := hafter.1.forgets
      exact hforgets.growsWithin
  | resolveFault t address stackPointer code =>
    simp only [Kernel.perform, yields_bind, yields_pure]
    exact growsWithin_resolveFault h.settled s t address stackPointer code
  | handleFault t address stackPointer code =>
    simp only [Kernel.perform, yields_bind, yields_pure]
    exact growsWithin_handleFault h.settled s t address stackPointer code
  | growStack t address =>
    simp only [Kernel.perform, yields_bind, yields_pure]
    exact growsWithin_growStack h.settled hplaces hpermitted
  | copyFromUser t start length stackPointer =>
    simp only [Kernel.perform, yields_bind, yields_pure]
    exact growsWithin_copyFromUser h.settled s t start length stackPointer
  | copyToUser t start data stackPointer =>
    simp only [Kernel.perform, yields_bind, yields_pure]
    exact growsWithin_copyToUser h.settled s t start data stackPointer
  | destroy t =>
    simp only [Kernel.perform, yields_bind, yields_pure]
    refine (ensures_destroy h.settled h.mapped t).yields.mono ?_
    rintro _ after ⟨-, -, hdestroys⟩
    obtain ⟨writes, -, hforgets⟩ := hdestroys.forgets
    exact hforgets.growsWithin
  | allocate | allocateFor | bind | unpin | free | freeOwnedBy => exact hpermitted.elim

/-- What one action keeps: whatever it makes known in a space that it names no pages of is of the stack. -/
theorem growsWithin_step (h : machine.Orderly) {action : Action} (hpermitted : action.Permitted machine)
    (hplaces : ¬ action.Places s) :
    Yields action.step machine fun _ after => machine.GrowsWithin s after := by
  cases action with
  | call c => exact growsWithin_perform h hpermitted hplaces
  | addSpace | addFile | changeFile | turnDisk =>
    refine ((ensures_outside (by simp)).and_yields (ensures_outside_stackLimit (by simp)).yields).yields.mono ?_
    rintro reply after ⟨houtside, hlimit⟩
    exact .of_known hlimit fun p _ hknown => houtside.known_iff.mp hknown

end Transition

/-! ### Runs -/

/-- The stack of a space is all that is known of the space, and it stays within the pages that `limit` bytes
below the kernel have a part of. -/
structure Machine.StackWithin (s : SpaceId) (limit : Nat) (machine : Machine) : Prop where
  /-- Every page that is mapped, or was and is moved out, is one of those. -/
  known : ∀ p, IsAligned p → machine.Known s p → InStack limit p
  /-- They lie within the limit, if that is a number of pages. -/
  within : pageSize ∣ limit → ∀ p, IsAligned p → machine.Known s p →
    kernelBase - limit ≤ p ∧ p + pageSize ≤ kernelBase
  /-- Otherwise there is one that may not: the page that the limit is in. -/
  below : ∀ p, IsAligned p → machine.Known s p → p < kernelBase - limit → p = pageOf (kernelBase - limit)
  /-- Nothing can be read or written at any address in another page. -/
  faults : ∀ space address write, machine.spaces[s]? = some space → ¬ InStack limit (pageOf address) →
    (space.directory.translate address write).1 = .error (.notPresent write)

section

variable {config : Config} {available : Nat} {device : Block} {start machine : Machine}
  {moments : List Moment} {s : SpaceId}

/-- What a whole run keeps. -/
theorem Run.growsWithin (horderly : start.Orderly) (h : Run start moments machine)
    (hplaces : ∀ moment ∈ moments, ¬ moment.action.Places s) : start.GrowsWithin s machine := by
  induction h with
  | nil => exact .refl start
  | snoc hrun hpermitted hstep ih =>
    refine (ih fun moment hmem => hplaces moment (List.mem_append_left _ hmem)).trans ?_
    exact Transition.growsWithin_step (hrun.orderly horderly) hpermitted
      (hplaces _ (List.mem_append_right _ (List.mem_singleton.mpr rfl))) _ _ hstep

/-- An access to a page that is not known is answered by a fault. -/
theorem translate_of_not_known {space : AddressSpace} {address : Nat} (hspace : machine.spaces[s]? = some space)
    (hnot : ¬ machine.Known s (pageOf address)) (write : Bool) :
    (space.directory.translate address write).1 = .error (.notPresent write) := by
  have hunmapped : space.directory.find? address = none := by
    rw [← mapped?_eq hspace, ← mapped?_pageOf]
    by_contra hmapped
    exact hnot (.inl (Option.isSome_iff_ne_none.mpr hmapped))
  rw [PageDirectory.translate, hunmapped]

/-- Whatever the configuration, and whatever happens to a space as long as no call names pages of it to be
registered, mapped or added to its stack: no page becomes known but those of a stack of at most
`config.maxStack` bytes, rounded up to the boundary of a page. A page that is mapped stays known until the space
is torn down, so these are all pages that are ever mapped. -/
theorem Run.stack_within (h : Run (Machine.boot config available device) moments machine)
    (hplaces : ∀ moment ∈ moments, ¬ moment.action.Places s) : machine.StackWithin s config.maxStack := by
  have hfresh := Machine.fresh_boot config available device
  have hgrows := h.growsWithin hfresh.orderly hplaces
  have hknown : ∀ p, IsAligned p → machine.Known s p → InStack config.maxStack p := by
    intro p hp hknown
    rcases hgrows.known p hp hknown with hbefore | hstack
    · rw [Known, hfresh.mapped?, hfresh.info?] at hbefore
      simp at hbefore
    · exact hstack
  refine ⟨hknown, fun hpages p hp hafter => (hknown p hp hafter).within hpages hp,
    fun p hp hafter hbelow => ?_, fun space address write hspace hnot => ?_⟩
  · have hstack := hknown p hp hafter
    simp only [InStack, IsAligned, pageOffset, pageOf, pageSize, kernelBase] at *
    omega
  · exact translate_of_not_known hspace (fun hafter => hnot (hknown _ (isAligned_pageOf _) hafter)) write

/-- A stack of two pages where the limit is in the lower one. No fault is resolved below that page. -/
theorem Run.stack_within_sample : ∃ config moments machine,
    Config.parse "-stack=5000" = .ok config ∧
    Run (.boot config 2 { name := "swap", kind := .swap, size := 16, disk := .ofSize 16 }) moments machine ∧
    moments.map (·.reply) = [.done, .done, .done, .faulted (.unrecoverable 0x7fffdfff)] ∧
    machine.Known 0 0x7fffe000 ∧ machine.StackWithin 0 5000 := by
  obtain ⟨moments, machine, h, -, hfacts⟩ := @exists_run
    (.boot { maxStack := 5000 } 2 { name := "swap", kind := .swap, size := 16, disk := .ofSize 16 })
    [.addSpace 1, .call (.resolveFault 0 0x7ffff004 0x7ffff004 (.notPresent false)),
      .call (.copyToUser 0 0x7fffefff #[1, 2] 0x7fffefff),
      .call (.resolveFault 0 0x7fffdfff 0 (.notPresent true))]
    (fun r => decide (r.1.map (·.reply) = [.done, .done, .done, .faulted (.unrecoverable 0x7fffdfff)]) &&
      r.1.all (fun moment => !decide (moment.action.Places 0)) && decide (r.2.Known 0 0x7fffe000))
    (by decide +kernel)
  simp only [Bool.and_eq_true, decide_eq_true_eq, List.all_eq_true, Bool.not_eq_true',
    decide_eq_false_iff_not] at hfacts
  obtain ⟨⟨hreplies, hplaces⟩, hknown⟩ := hfacts
  exact ⟨{ maxStack := 5000 }, moments, machine, by decide +kernel, h, hreplies, hknown,
    Run.stack_within h hplaces⟩

/-- With a limit of 5000 bytes the fault at the limit is resolved, and from then on the bytes below it can be
written: the page begins 3192 bytes further down. -/
theorem Run.stack_below_limit : ∃ config moments machine space frame,
    Config.parse "-stack=5000" = .ok config ∧
    Run (.boot config 1 { name := "swap", kind := .swap, size := 16, disk := .ofSize 16 }) moments machine ∧
    moments.map (·.action) = [.addSpace 1,
      .call (.resolveFault 0 0x7fffec78 0x7fffec78 (.notPresent false)),
      .call (.copyToUser 0 0x7fffe000 #[1] 0x7fffe000)] ∧
    moments.map (·.reply) = [.done, .done, .done] ∧
    (∀ moment ∈ moments, ¬ moment.action.Places 0) ∧
    0x7fffe000 < kernelBase - config.maxStack ∧ (mapped? machine.spaces 0 0x7fffe000).isSome = true ∧
    machine.spaces[0]? = some space ∧ (space.directory.translate 0x7fffe000 true).1 = .ok frame := by
  obtain ⟨moments, machine, h, hactions, hfacts⟩ := @exists_run
    (.boot { maxStack := 5000 } 1 { name := "swap", kind := .swap, size := 16, disk := .ofSize 16 })
    [.addSpace 1, .call (.resolveFault 0 0x7fffec78 0x7fffec78 (.notPresent false)),
      .call (.copyToUser 0 0x7fffe000 #[1] 0x7fffe000)]
    (fun r => decide (r.1.map (·.reply) = [.done, .done, .done]) &&
      r.1.all (fun moment => !decide (moment.action.Places 0)) &&
      (mapped? r.2.spaces 0 0x7fffe000).any (·.writable))
    (by decide +kernel)
  simp only [Bool.and_eq_true, decide_eq_true_eq, List.all_eq_true, Bool.not_eq_true',
    decide_eq_false_iff_not] at hfacts
  obtain ⟨⟨hreplies, hplaces⟩, hmapped⟩ := hfacts
  obtain ⟨entry, hentry, hwritable⟩ := (Option.any_eq_true ..).mp hmapped
  obtain ⟨space, hspace, hfind⟩ := Option.bind_eq_some_iff.mp hentry
  refine ⟨{ maxStack := 5000 }, moments, machine, space, entry.frame.toNat, by decide +kernel, h, hactions,
    hreplies, hplaces, by decide, by rw [hentry, Option.isSome_some], hspace, ?_⟩
  simp only [PageDirectory.translate, hfind, hwritable, Bool.not_true, Bool.and_false, Bool.false_eq_true,
    if_false]

end

end DemandPaging
