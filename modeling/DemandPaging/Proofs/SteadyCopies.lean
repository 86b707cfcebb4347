import DemandPaging.Kernel.UserCopy
import DemandPaging.Proofs.SteadyFaults

/-!
# Copies by a steady machine

A copy to or from user memory leaves a steady machine steady: it resolves faults, marks pages as used,
and stores in frames only while a page is mapped to them, so never in one that an eviction has taken.
-/

set_option autoImplicit false

namespace DemandPaging

open Spaces Machine Transition

section

variable {μ : Type → Type} [Kernel μ] {others : Machine → Machine → Prop} {evicts : Prop}
  {terms : Terms} {m : Machine} {s : SpaceId} {α : Type}
  (O : Outcomes μ others evicts)
  (hallows : ∀ before after, others before after → terms.Allows before after)
  (hidle : evicts → terms.Idle)

/-- A page was used. -/
theorem Spaces.similar_touch (a : Array AddressSpace) (s : SpaceId) (p : Nat) (write : Bool) :
    Similar a (mark a s p (·.touch write)) := by
  have halike : Alike a (mark a s p fun e => e.touch write) := by
    refine alike_mark (fun _ => rfl) fun e hclean => ?_
    simp only [PageTableEntry.touch, Bool.or_eq_false_iff] at hclean
    exact hclean.1
  exact halike.similar

/-- What an access leaves of the page directory. -/
theorem Spaces.similar_translate {a : Array AddressSpace} {s : SpaceId} {space : AddressSpace}
    (hspace : a[s]? = some space) (p : Nat) (write : Bool) :
    Similar a (a.modify s fun space' =>
      { space' with directory := (space.directory.translate p write).2 }) := by
  have hself : (a.modify s fun space' => { space' with directory := space.directory }) = a := by
    rw [modify_directory hspace fun d => d, onDirectory_eq_self fun _ _ => rfl]
  unfold PageDirectory.translate
  cases space.directory.find? p with
  | none => exact hself.symm ▸ .refl a
  | some e =>
    simp only
    split
    · exact hself.symm ▸ .refl a
    · rw [modify_directory hspace fun d => d.modify p (·.touch write)]
      exact similar_touch a s p write

/-- What is stored in a frame that others have not taken leaves a steady machine steady. -/
theorem Transition.steady_writeFrame {frame : Nat} (hs : m.Steady terms [] [])
    (hnot : frame ∉ terms.frames) (start : Nat) (data : Bytes) :
    Yields (writeFrame frame start data) m fun _ after => after.Steady terms [] [] := by
  refine (ensures_writeFrame.mpr fun content hcontent _ => ?_).yields
  refine hs.filled hnot fun f k hf => ?_
  rw [FrameMemory.byte?_setPage (FrameMemory.lt_size_of_page hcontent), if_neg (Ne.symm hf)]

include hallows

/-- An access marks a page as used at most. -/
theorem Outcomes.translate (h : m.Steady terms [] []) (p : Nat) (write : Bool) :
    O.Yields (Kernel.translate s p write) m fun _ after => after.Steady terms [] [] := by
  refine O.bind (O.step hallows fun met hmet => yields_directory.mpr fun space hspace => ?_)
  refine O.bind (O.step hallows fun last hlast => yields_setDirectory.mpr ?_)
  refine O.bind (O.interrupt fun now hnow => O.pure (Steady.allows ?_ (hallows _ _ hnow)))
  have hspace' : last.spaces[s]? = some space := by
    obtain ⟨_, _, rfl⟩ := hlast.devices
    exact hspace
  have hsteady := (h.allows hmet).allows hlast
  exact hsteady.similar rfl rfl (similar_translate hspace' p write) hsteady.untouched

/-- Something is done with the frame of a page if the page is mapped to it. -/
theorem Outcomes.withFrame {act : Nat → Transition α}
    (hact : ∀ frame (before : Machine), frame ∉ terms.frames → before.Steady terms [] [] →
      (act frame).Yields before fun _ after => after.Steady terms [] [])
    (h : m.Steady terms [] []) {p : Nat} (hp : IsAligned p) (frame : Nat) :
    O.Yields (Kernel.withFrame s p frame act) m fun _ after => after.Steady terms [] [] := by
  refine O.bind (O.step hallows fun met hmet => yields_requireFrame (O.holding ?_))
  have hmet' := h.allows hmet
  refine O.bind (O.mono (O.findEntry hallows) fun entry last hlast => ?_)
  have hlast' := hmet'.allows hlast.1
  split
  · rename_i hentry
    rw [hlast.2] at hentry
    have hnot := (hmet'.not_mem_frames (hmet'.recorded s p frame hp hentry)).2
    refine O.bind (O.step hallows fun now hnow => ?_)
    exact (hact frame now hnot (hlast'.allows hnow)).mono fun _ _ hafter => O.pure hafter
  · exact O.pure hlast'

include hidle

/-- One piece is reached, or the fault that it takes is not resolved. -/
theorem Outcomes.reachIn {act : Nat → Transition α}
    (hact : ∀ frame (before : Machine), frame ∉ terms.frames → before.Steady terms [] [] →
      (act frame).Yields before fun _ after => after.Steady terms [] [])
    (piece : Piece) (stackPointer : Nat) (write : Bool) (rounds : Nat) (h : m.Steady terms [] []) :
    O.Yields (Kernel.reachIn s piece stackPointer write act rounds) m fun outcome after =>
      match outcome with
      | .ok _ => after.Steady terms [] []
      | .error cause => after.Steady (terms.afterFault cause) [] [] := by
  induction rounds generalizing m with
  | zero => exact O.atomically fun _ _ => yields_throw.mpr trivial
  | succ rounds ih =>
    refine O.bind (O.mono (O.translate hallows h _ write) fun outcome met hmet => ?_)
    cases outcome with
    | error code =>
      refine O.bind (O.mono (O.resolveFault hallows hmet hidle _ stackPointer code)
        fun outcome after hafter => ?_)
      cases outcome with
      | error cause => exact O.pure hafter.steady
      | ok u => exact ih hafter
    | ok frame =>
      refine O.bind (O.mono (O.withFrame hallows hact hmet (isAligned_pageOf _) frame)
        fun result after hafter => ?_)
      cases result with
      | some a => exact O.pure hafter
      | none => exact ih hafter

/-- To reach a piece leaves the machine steady, and on the terms of its failure if it fails. So does a piece
outside of user memory, for which nothing is done. -/
theorem Outcomes.reach {act : Nat → Transition α}
    (hact : ∀ frame (before : Machine), frame ∉ terms.frames → before.Steady terms [] [] →
      (act frame).Yields before fun _ after => after.Steady terms [] [])
    (start : Nat) (piece : Piece) (stackPointer : Nat) (write : Bool) (h : m.Steady terms [] []) :
    O.Yields (Kernel.reach s start piece stackPointer write act) m fun outcome after =>
      match outcome with
      | .ok _ => after.Steady terms [] []
      | .error cause => after.Steady (terms.afterFault cause) [] [] := by
  rw [Kernel.reach]
  split
  · exact O.pure h
  · split
    · exact O.pure h
    · exact O.reachIn hallows hidle hact piece stackPointer write _ h

/-- Data is stored in user memory, up to the first piece that is not reached. -/
theorem Outcomes.copyToUser (start : Nat) (data : Bytes) (stackPointer : Nat)
    (h : m.Steady terms [] []) :
    O.Yields (Kernel.copyToUser s start data stackPointer) m fun outcome after =>
      match outcome with
      | .ok () => after.Steady terms [] []
      | .error cause => after.Steady (terms.afterFault cause) [] [] := by
  rw [Kernel.copyToUser]
  refine O.mono (O.upToFailure (fun _ after => after.Steady terms [] [])
    (fun cause after => after.Steady (terms.afterFault cause) [] []) ?_ h)
    fun outcome after hafter => by cases outcome <;> exact hafter
  intro _ piece _ before _ hbefore
  refine O.mono (O.reach hallows hidle (fun frame met hnot hmet => steady_writeFrame hmet hnot _ _)
    start piece stackPointer true hbefore) fun outcome after hafter => ?_
  cases outcome <;> exact hafter

/-- User memory is read, up to the first piece that is not reached. -/
theorem Outcomes.copyFromUser (start length stackPointer : Nat) (h : m.Steady terms [] []) :
    O.Yields (Kernel.copyFromUser s start length stackPointer) m fun answer after =>
      match answer.2 with
      | .ok () => after.Steady terms [] []
      | .error cause => after.Steady (terms.afterFault cause) [] [] := by
  refine O.mono (O.toRules.copyFromUser (fun _ _ after => after.Steady terms [] [])
    (fun _ cause after => after.Steady (terms.afterFault cause) [] []) ?_ h)
    fun ⟨_, outcome⟩ after hafter => by cases outcome <;> exact hafter
  intro _ piece _ _ before _ hbefore
  refine O.mono (O.reach hallows hidle (fun frame met hnot hmet => ?_) start piece stackPointer false
    hbefore) fun outcome after hafter => ?_
  · exact (ensures_readFrame.mpr fun _ _ _ => hmet).yields
  · cases outcome <;> exact hafter

end

/-! ### What a copy leaves in memory -/

section

variable {m : Machine} {s : SpaceId} {α : Type} {piece : Piece}

/-- What is done with a piece that was reached is done with the frame that its page is mapped to. -/
theorem Transition.yields_reachIn {act : Nat → Transition α} {post : α → Machine → Prop}
    (hact : ∀ frame before, frame? before.spaces s (pageOf piece.address) = some frame →
      (act frame).Yields before post) (stackPointer : Nat) (write : Bool) (rounds : Nat) :
    (Kernel.reachIn s piece stackPointer write act rounds : Transition _).Yields m
      fun outcome after => ∀ a, outcome = .ok a → post a after := by
  induction rounds generalizing m with
  | zero => exact yields_throw.mpr trivial
  | succ rounds ih =>
    refine yields_bind.mpr fun outcome met _ => ?_
    cases outcome with
    | error code =>
      refine yields_bind.mpr fun outcome after _ => ?_
      cases outcome with
      | error cause => exact yields_pure.mpr (by simp)
      | ok u => exact ih
    | ok frame =>
      refine yields_bind.mpr (yields_bind.mpr (yields_requireFrame ?_))
      have hallows : ∀ a b : Machine, a = b → ({} : Terms).Allows a b := fun a _ heq => heq ▸ .refl {} a
      refine yields_bind.mpr (Transition.Yields.mono (Outcomes.alone.findEntry hallows) ?_)
      rintro _ last ⟨hallowed, rfl⟩
      rw [← hallowed.spaces_eq]
      refine yields_ite (fun hentry => ?_) fun _ => yields_pure.mpr ih
      refine yields_bind.mpr ((hact frame last hentry).mono fun a after hpost => ?_)
      refine yields_pure.mpr (yields_pure.mpr ?_)
      rintro _ ⟨⟩
      exact hpost

/-- The page is mapped to a frame that has these bytes from `start` on. -/
def Machine.Keeps (m : Machine) (s : SpaceId) (p start : Nat) (data : Bytes) : Prop :=
  ∃ frame, frame? m.spaces s p = some frame ∧
    ∀ k < data.size, m.frames.memory.byte? frame (start + k) = data[k]?

/-- What was stored within one page is in the frame that the page is mapped to. -/
theorem Transition.yields_copyToUser {start : Nat} {data : Bytes}
    (hpiece : Piece.all start data.size = [piece]) (stackPointer : Nat) :
    (Kernel.copyToUser s start data stackPointer : Transition _).Yields m fun outcome after =>
      outcome = .ok () → after.Keeps s (pageOf piece.address) (pageOffset piece.address)
        (data.window piece.done piece.size) := by
  rw [Kernel.copyToUser, hpiece, Kernel.upToFailure, Kernel.reach]
  refine yields_bind.mpr ?_
  refine yields_ite (fun _ => yields_pure.mpr (yields_pure.mpr (by simp))) fun _ => ?_
  refine yields_ite (fun _ => yields_pure.mpr (yields_pure.mpr (by simp))) fun _ => ?_
  have hact : ∀ frame before, frame? before.spaces s (pageOf piece.address) = some frame →
      (writeFrame frame (pageOffset piece.address) (data.window piece.done piece.size)).Yields before
        fun _ after => after.Keeps s (pageOf piece.address) (pageOffset piece.address)
          (data.window piece.done piece.size) := by
    intro frame before hframe
    refine (ensures_writeFrame.mpr fun content hcontent hfits => ⟨frame, hframe, fun k hk => ?_⟩).yields
    rw [FrameMemory.byte?_setPage (FrameMemory.lt_size_of_page hcontent), if_pos rfl,
      Page.getElem?_store, if_pos ⟨by omega, by omega⟩, if_pos (by omega), Nat.add_sub_cancel_left]
  refine (yields_reachIn hact stackPointer true copyRounds).mono fun outcome after hafter => ?_
  cases outcome with
  | error cause => exact yields_pure.mpr (by simp)
  | ok u => exact yields_pure.mpr fun _ => hafter () rfl

end

end DemandPaging
