import DemandPaging.Proofs.MarkedUnmappings
import DemandPaging.Proofs.Actions

/-!
# Registered windows are proper

A window gets into the tables only by a registration, and each of these looks at it first: its bytes fit
in the page, a page of a mapped file may be written, and the page is a user page and not the first one
(`Extends`). So all windows are proper (`Segment.Proper`).
-/

set_option autoImplicit false

namespace DemandPaging

open Spaces Machine

/-- A page may have the window: it is a user page, not the first one, and the window is proper. -/
def Suits (p : Nat) (segment : Segment) : Prop :=
  segment.Proper ∧ pageSize ≤ p ∧ IsUser p

/-- Windows that are new suit their pages. -/
def Extends (a b : Array AddressSpace) : Prop :=
  ∀ s p segment, segment? b s p = some segment → segment? a s p = some segment ∨ Suits p segment

section

variable {a b c : Array AddressSpace} {s : SpaceId}

/-- Tables that stay have no new windows. -/
theorem Extends.refl (a : Array AddressSpace) : Extends a a := fun _ _ _ h => .inl h

/-- What suits its page after two changes did so after one of them, or was there before. -/
theorem Extends.trans (h : Extends a b) (h' : Extends b c) : Extends a c := fun s p segment hs =>
  (h' s p segment hs).elim (h s p segment) .inr

/-- An aligned page other than the first one begins a page above zero. -/
theorem pageSize_le_of_aligned {p : Nat} (hp : IsAligned p) (hne : p ≠ 0) : pageSize ≤ p := by
  simp only [IsAligned, pageOffset, pageSize] at *
  omega

/-- A page gets an entry with a window that suits it. -/
theorem extends_put {p : Nat} {segment : Segment} (hs : s < a.size) (hsuits : Suits p segment) :
    Extends a (put a s p (.fileBacked p segment)) := by
  intro s' p' other hother
  rw [segment?, info?_put hs] at hother
  split at hother
  · rename_i heq
    obtain ⟨rfl, rfl⟩ := heq
    cases hother
    exact .inr hsuits
  · exact .inl hother

/-- The windows of a mapped file suit its pages. -/
theorem Maps.extends {f : FileId} {page length id : Nat} {m m' : Machine}
    (h : Maps s f page length id m m') : Extends m.spaces m'.spaces := by
  obtain ⟨-, hne, haligned, hbelow⟩ := h.mappable
  intro s' p segment hsegment
  rcases h.adds.segment_cases hsegment with hold | ⟨rfl, -, hwindow⟩
  · exact .inl hold
  · obtain ⟨i, hi, rfl, rfl⟩ := pageWindow_eq_some.mp hwindow
    refine .inr ⟨⟨Nat.min_le_right _ _, fun _ => rfl⟩, ?_, ?_⟩
    · exact Nat.le_trans (pageSize_le_of_aligned haligned hne) (Nat.le_add_right _ _)
    · have hlast : (i + 1) * pageSize ≤ pageCount length * pageSize :=
        Nat.mul_le_mul_right _ hi
      simp only [IsUser, kernelBase, pageSize] at *
      omega

end

namespace Transition

variable {machine : Machine} {s : SpaceId} {f : FileId} {writable : Bool}

/-- To register a page adds at most its own window, which suits it by the checks before. -/
theorem extends_registerPage (offset page readBytes zeroBytes : Nat) :
    Yields (registerPage s f offset page readBytes zeroBytes writable) machine
      fun _ after => Extends machine.spaces after.spaces := by
  unfold registerPage
  refine yields_ite (fun _ => yields_throw.mpr trivial) (fun haligned => ?_)
  refine yields_ite (fun _ => yields_throw.mpr trivial) (fun hsum => ?_)
  refine yields_ite (fun _ => yields_pure.mpr (.refl _)) (fun hplace => ?_)
  rw [not_not] at haligned hsum
  rw [not_or, not_not] at hplace
  simp only [yields_bind, yields_supplement]
  intro space hspace
  cases hinsert : space.supplement.insert (.fileBacked page
      { file := f, offset, readBytes, zeroBytes, writable, writeBack := false }) with
  | error cause => exact yields_pure.mpr (.refl _)
  | ok table =>
    simp only [yields_bind, yields_setSupplement, yields_pure]
    rw [Supplement.put_of_insert hspace hinsert]
    refine extends_put (Array.getElem?_eq_some_iff.mp hspace).1
      ⟨⟨?_, fun hback => absurd hback Bool.false_ne_true⟩, ?_, hplace.2⟩
    · exact hsum ▸ Nat.le_add_right _ _
    · exact pageSize_le_of_aligned haligned hplace.1

/-- However many pages are registered one by one, the new windows suit their pages. -/
theorem extends_registerFrom (offset page readBytes : Nat) (pages : Nat) :
    ∀ {machine : Machine} (i : Nat),
    Yields (registerFrom s f offset page readBytes writable pages i) machine
      fun _ after => Extends machine.spaces after.spaces := by
  induction pages with
  | zero => exact fun _ => yields_pure.mpr (.refl _)
  | succ pages ih =>
    intro machine i
    simp only [registerFrom, yields_bind]
    refine (extends_registerPage _ _ _ _).mono fun outcome middle hmiddle => ?_
    cases outcome with
    | error cause => exact yields_pure.mpr hmiddle
    | ok u =>
      refine yields_ite (fun _ => ?_) (fun _ => yields_throw.mpr trivial)
      exact (ih (i + 1)).mono fun _ after hafter => hmiddle.trans hafter

/-- To register a segment adds windows that suit their pages, also if it ends early. -/
theorem extends_registerSegment (offset page readBytes zeroBytes : Nat) :
    Yields (registerSegment s f offset page readBytes zeroBytes writable) machine
      fun _ after => Extends machine.spaces after.spaces := by
  rw [registerSegment_eq]
  refine yields_ite (fun _ => yields_throw.mpr trivial) (fun _ => ?_)
  refine yields_ite (fun _ => yields_throw.mpr trivial) (fun _ => ?_)
  exact extends_registerFrom _ _ _ _ 0

/-- A call that registers pages makes the tables larger by windows that suit their pages. -/
theorem extends_registers {c : Call} (hc : c.Registers machine) :
    Yields (Kernel.perform c) machine fun _ after => Extends machine.spaces after.spaces := by
  cases c with
  | registerPage s f offset page readBytes zeroBytes writable =>
    simp only [Kernel.perform, holding_eq, lift_eq, yields_bind, yields_pure]
    exact extends_registerPage _ _ _ _
  | registerSegment s f offset page readBytes zeroBytes writable =>
    simp only [Kernel.perform, holding_eq, lift_eq, yields_bind, yields_pure]
    exact extends_registerSegment _ _ _ _
  | _ => exact hc.elim

end Transition

end DemandPaging
