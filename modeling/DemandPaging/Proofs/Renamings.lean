import DemandPaging.Kernel.Eviction
import DemandPaging.Proofs.Spaces
import Mathlib.Logic.Equiv.Basic

/-!
# Renamed frames

A renaming `σ` gives every frame another number. Frames are named in the entries of page directories,
in the records of frames in use, and by an eviction of its victim; each of these has a `rename`.

A renaming is of use if it keeps to the frames of a pool and these fit in page table entries
(`Renames`). Then the tables take renamed frames as they take others: to map, to unmap, to mark or to
use a page and to rename all frames comes to the same in either order. When a pool hands out another
frame than its twin does, `moved` makes one the name of the other and leaves all frames that are out
with the names they have (`moved_of_ne`).
-/

set_option autoImplicit false

namespace DemandPaging

/-- The renaming keeps to the first `n` frames, and page table entries have room for their numbers. -/
structure Renames (n : Nat) (σ : Equiv.Perm Nat) : Prop where
  small : n ≤ maxFrame + 1
  fixes : ∀ f, n ≤ f → σ f = f

/-- The renaming `σ`, but `f` is called `g`. -/
def moved (σ : Equiv.Perm Nat) (f g : Nat) : Equiv.Perm Nat := (Equiv.swap f (σ.symm g)).trans σ

section

variable {σ τ : Equiv.Perm Nat} {n f g : Nat}

/-- Frames may keep their names. -/
theorem Renames.refl (h : n ≤ maxFrame + 1) : Renames n (Equiv.refl Nat) := ⟨h, fun _ _ => rfl⟩

/-- A renaming keeps within the pool, and outside. -/
theorem Renames.lt_iff (h : Renames n σ) : σ f < n ↔ f < n := by
  constructor
  · intro hlt
    by_contra hge
    rw [h.fixes f (Nat.le_of_not_lt hge)] at hlt
    exact hge hlt
  · intro hlt
    by_contra hge
    have hfixed := σ.injective (h.fixes (σ f) (Nat.le_of_not_lt hge))
    rw [hfixed] at hge
    exact hge hlt

/-- Frames fit in page table entries under any name. -/
theorem Renames.le_maxFrame_iff (h : Renames n σ) : σ f ≤ maxFrame ↔ f ≤ maxFrame := by
  have hsmall := h.small
  by_cases hlt : f < n
  · have hlt' := h.lt_iff.mpr hlt
    omega
  · rw [h.fixes f (Nat.le_of_not_lt hlt)]

/-- The name of a frame in a page table entry survives the entry. -/
theorem Renames.toNat_ofNat (h : Renames n σ) (frame : BitVec 20) :
    (BitVec.ofNat 20 (σ frame.toNat)).toNat = σ frame.toNat := by
  have hle : σ frame.toNat ≤ 0xfffff := h.le_maxFrame_iff.mpr (Nat.le_of_lt_succ frame.isLt)
  rw [BitVec.toNat_ofNat, Nat.mod_eq_of_lt (Nat.lt_succ_of_le hle)]

/-- The frame has the new name. -/
theorem moved_apply (σ : Equiv.Perm Nat) (f g : Nat) : moved σ f g f = g := by
  rw [moved, Equiv.trans_apply, Equiv.swap_apply_left, Equiv.apply_symm_apply]

/-- Other frames keep their names, but for the one that had the name. -/
theorem moved_of_ne {x : Nat} (hf : x ≠ f) (hg : σ x ≠ g) : moved σ f g x = σ x := by
  have hsymm : x ≠ σ.symm g := by
    rintro rfl
    exact hg (σ.apply_symm_apply g)
  rw [moved, Equiv.trans_apply, Equiv.swap_apply_of_ne_of_ne hf hsymm]

/-- The frame that had the name before gets the old name of the other one. -/
theorem moved_symm_apply (σ : Equiv.Perm Nat) (f g : Nat) : moved σ f g (σ.symm g) = σ f := by
  rw [moved, Equiv.trans_apply, Equiv.swap_apply_right]

/-- Within the pool a frame may be called by any name. -/
theorem Renames.moved (h : Renames n σ) (hf : f < n) (hg : g < n) : Renames n (moved σ f g) := by
  refine ⟨h.small, fun x hx => ?_⟩
  have hfixed := h.fixes x hx
  rw [moved_of_ne (by omega) (by omega), hfixed]

/-! ### Entries and records -/

/-- The entry with its frame renamed. -/
def PageTableEntry.rename (σ : Equiv.Perm Nat) (e : PageTableEntry) : PageTableEntry :=
  { e with frame := BitVec.ofNat 20 (σ e.frame.toNat) }

/-- A renamed entry names the renamed frame. -/
theorem Renames.toNat_frame (h : Renames n σ) (e : PageTableEntry) :
    (e.rename σ).frame.toNat = σ e.frame.toNat := h.toNat_ofNat e.frame

/-- The entry for a user page in a renamed frame. -/
theorem Renames.userPage? (h : Renames n σ) (writable : Bool) :
    PageTableEntry.userPage? (σ f) writable =
      (PageTableEntry.userPage? f writable).map (·.rename σ) := by
  unfold PageTableEntry.userPage?
  by_cases hle : f ≤ maxFrame
  · have hlt : f % 2 ^ 20 = f := Nat.mod_eq_of_lt (Nat.lt_succ_of_le hle)
    rw [if_pos (h.le_maxFrame_iff.mpr hle), if_pos hle]
    simp only [Option.map_some, PageTableEntry.rename, PageTableEntry.userPage, BitVec.toNat_ofNat, hlt]
  · rw [if_neg (mt h.le_maxFrame_iff.mp hle), if_neg hle]
    rfl

/-- The record with its frame renamed. -/
def FrameRecord.rename (σ : Equiv.Perm Nat) (r : FrameRecord) : FrameRecord :=
  { r with frame := σ r.frame }

/-- The victim with its frame renamed. -/
def Transit.rename (σ : Equiv.Perm Nat) (transit : Transit) : Transit :=
  { transit with frame := σ transit.frame, entry := transit.entry.map (·.rename σ) }

/-! ### Page directories -/

/-- The directory with all frames renamed. -/
def PageDirectory.rename (σ : Equiv.Perm Nat) (d : PageDirectory) : PageDirectory :=
  { d with entries := d.entries.map fun _ e => e.rename σ }

namespace PageDirectory

/-- A page has an entry in the renamed directory exactly if it has one, and that is renamed. -/
theorem find?_rename (d : PageDirectory) (address : Nat) :
    (d.rename σ).find? address = (d.find? address).map (·.rename σ) := Std.ExtTreeMap.getElem?_map

/-- What changes an entry whatever its frame is changes the renamed one. -/
theorem modify_rename (d : PageDirectory) (address : Nat) {change : PageTableEntry → PageTableEntry}
    (hchange : ∀ e, change (e.rename σ) = (change e).rename σ) :
    (d.rename σ).modify address change = (d.modify address change).rename σ := by
  refine congrArg (PageDirectory.mk · d.refusals) (Std.ExtTreeMap.ext_getElem? fun number => ?_)
  simp only [rename, modify, Std.ExtTreeMap.getElem?_modify, Std.ExtTreeMap.getElem?_map]
  split
  · rw [Option.map_map, Option.map_map]
    exact congrArg (Option.map · _) (funext hchange)
  · rfl

/-- To unmap a page answers the renamed entry and leaves the renamed directory. -/
theorem clear_rename (d : PageDirectory) (address : Nat) :
    (d.rename σ).clear address =
      ((d.clear address).1.map (·.rename σ), (d.clear address).2.rename σ) := by
  refine Prod.ext (d.find?_rename address) ?_
  refine congrArg (PageDirectory.mk · d.refusals) (Std.ExtTreeMap.ext_getElem? fun number => ?_)
  simp only [rename, clear, Std.ExtTreeMap.getElem?_erase, Std.ExtTreeMap.getElem?_map]
  split <;> rfl

/-- An access goes the same way and leaves the same marks. -/
theorem translate_rename (h : Renames n σ) (d : PageDirectory) (address : Nat) (write : Bool) :
    (d.rename σ).translate address write =
      ((d.translate address write).1.map σ, (d.translate address write).2.rename σ) := by
  unfold translate
  rw [find?_rename]
  cases d.find? address with
  | none => rfl
  | some e =>
    simp only [Option.map_some]
    by_cases hdenied : (write && !e.writable) = true
    · rw [if_pos hdenied, if_pos (show (write && !(e.rename σ).writable) = true from hdenied)]
      rfl
    · rw [if_neg hdenied, if_neg (show ¬ (write && !(e.rename σ).writable) = true from hdenied),
        d.modify_rename address fun e => (rfl : (e.rename σ).touch write = (e.touch write).rename σ)]
      exact Prod.ext (congrArg Except.ok (h.toNat_frame e)) rfl

/-- A renamed frame is mapped or turned down as others are. One that is too large for an entry keeps its
name. -/
theorem install_rename (h : Renames n σ) (d : PageDirectory) (page : Nat) (writable : Bool) :
    (d.rename σ).install page (σ f) writable =
      (d.install page f writable).map fun r => (r.1, r.2.rename σ) := by
  unfold install
  by_cases hrefused : 0 < d.refusals
  · rw [if_pos hrefused, if_pos (show 0 < (d.rename σ).refusals from hrefused)]
    rfl
  rw [if_neg hrefused, if_neg (show ¬ 0 < (d.rename σ).refusals from hrefused)]
  by_cases haligned : ¬ IsAligned page
  · rw [if_pos haligned, if_pos haligned]
    rfl
  rw [if_neg haligned, if_neg haligned]
  have hcontains : (d.rename σ).entries.contains (pageNumber page) =
      d.entries.contains (pageNumber page) := Std.ExtTreeMap.contains_map
  rw [hcontains, h.userPage?]
  split
  · rfl
  cases hentry : PageTableEntry.userPage? f writable with
  | none =>
    have hlarge : ¬ f ≤ maxFrame := fun hle => by simp [PageTableEntry.userPage?, hle] at hentry
    have hsmall := h.small
    rw [h.fixes f (by omega)]
    rfl
  | some e =>
    refine congrArg (fun entries => Except.ok (true, PageDirectory.mk entries d.refusals))
      (Std.ExtTreeMap.ext_getElem? fun number => ?_)
    simp only [rename, Std.ExtTreeMap.getElem?_insert, Std.ExtTreeMap.getElem?_map]
    split <;> rfl

end PageDirectory

/-! ### Address spaces -/

/-- The address space with all frames renamed. -/
def AddressSpace.rename (σ : Equiv.Perm Nat) (space : AddressSpace) : AddressSpace :=
  { space with directory := space.directory.rename σ }

/-- A new space has no frames. -/
theorem AddressSpace.rename_ofPid (σ : Equiv.Perm Nat) (pid : Nat) :
    (AddressSpace.ofPid pid).rename σ = .ofPid pid := by
  refine congrArg (fun entries => AddressSpace.mk pid { entries } {})
    (Std.ExtTreeMap.ext_getElem? fun number => ?_)
  rw [Std.ExtTreeMap.getElem?_map]
  rfl

namespace Spaces

/-- The spaces with all frames renamed. -/
def renamed (σ : Equiv.Perm Nat) (spaces : Array AddressSpace) : Array AddressSpace :=
  spaces.map (·.rename σ)

variable {spaces : Array AddressSpace} {s : SpaceId} {p : Nat}

/-- The renamed spaces are the same ones, each renamed. -/
theorem getElem?_renamed : (renamed σ spaces)[s]? = spaces[s]?.map (·.rename σ) := Array.getElem?_map

/-- What changes a space whatever its frames are changes the renamed one. -/
theorem modify_renamed {change other : AddressSpace → AddressSpace}
    (hchange : ∀ space, spaces[s]? = some space → other (space.rename σ) = (change space).rename σ) :
    (renamed σ spaces).modify s other = renamed σ (spaces.modify s change) := by
  refine Array.ext_getElem? fun i => ?_
  simp only [getElem?_renamed, Array.getElem?_modify]
  split
  · subst i
    cases hspace : spaces[s]? with
    | none => rfl
    | some space => exact congrArg some (hchange space hspace)
  · rfl

/-- Renamings that agree on the frames of all pages rename alike. -/
theorem renamed_congr
    (h : ∀ s p e, IsAligned p → mapped? spaces s p = some e → σ e.frame.toNat = τ e.frame.toNat) :
    renamed σ spaces = renamed τ spaces := by
  refine Array.ext_getElem? fun s => ?_
  rw [getElem?_renamed, getElem?_renamed]
  cases hspace : spaces[s]? with
  | none => rfl
  | some space =>
    refine congrArg (fun entries => some { space with
      directory := { space.directory with entries } }) (Std.ExtTreeMap.ext_getElem? fun number => ?_)
    simp only [Std.ExtTreeMap.getElem?_map]
    cases hentry : space.directory.entries[number]? with
    | none => rfl
    | some e =>
      have hnumber : pageNumber (number * pageSize) = number := Nat.mul_div_cancel number (by decide)
      have hmapped : mapped? spaces s (number * pageSize) = some e := by
        rw [mapped?_eq hspace, PageDirectory.find?, hnumber]
        exact hentry
      have hsame := h s (number * pageSize) e (Nat.mul_mod_left number pageSize) hmapped
      simp only [Option.map_some, PageTableEntry.rename, hsame]

end Spaces

end

end DemandPaging
