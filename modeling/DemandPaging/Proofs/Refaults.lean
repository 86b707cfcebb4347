import DemandPaging.Proofs.Runs

/-!
# Faults on mapped pages

A fault may come too late: another access has brought its page in, and the page is mapped by now.
Such a fault changes nothing (`run_resolveFault`), but what is answered depends on the
supplemental page table. A page with an entry is seen to be in memory, and the access goes through. A
page without one, as every page of the stack is while it is in memory, is taken for a new page of the
stack that cannot be added, and so for an invalid access.

The same holds of a fault that is resolved twice, since its page is mapped after the first time
(`Run.resolveFault_mapped`).
-/

set_option autoImplicit false

namespace DemandPaging

open Spaces Machine

/-- What a fault on a mapped page is answered. -/
def lateReply (machine : Machine) (s : SpaceId) (address : Nat) : Except FaultError Unit :=
  if (info? machine.spaces s (pageOf address)).isSome then .ok ()
  else .error (.unrecoverable address)

namespace Transition

variable {α β : Type} {machine after : Machine} {s : SpaceId} {space : AddressSpace} {address : Nat}

/-- The entry of a page is looked up in the directory of its space, and nothing is changed by it. -/
theorem run_findEntry (hspace : machine.spaces[s]? = some space) (page : Nat) :
    (Kernel.findEntry s page : Transition _) machine =
      .ok (mapped? machine.spaces s page) machine := by
  have hdirectory : directory s machine = .ok space.directory machine := by
    rw [directory, run_bind (run_space hspace)]
    rfl
  rw [mapped?_eq hspace, Kernel.findEntry, lift_eq, run_bind hdirectory]
  rfl

/-- A page that is mapped already is not added to a stack. -/
theorem run_addStackPage (hspace : machine.spaces[s]? = some space)
    (hlive : space.supplement.destroyed = false) {page : Nat}
    (hmapped : (mapped? machine.spaces s page).isSome = true) :
    (Kernel.addStackPage s page : Transition _) machine = .ok (.error .alreadyMapped) machine := by
  have hsupplement : (Kernel.supplement s : Transition _) machine = .ok space.supplement machine :=
    run_supplement hspace
  rw [Kernel.addStackPage, run_bind hsupplement, if_neg (Bool.eq_false_iff.mp hlive),
    run_bind (run_findEntry hspace page), if_pos hmapped]
  rfl

/-- A fault on a page without an entry changes nothing if the page is mapped. -/
theorem run_faultWithoutInfo (hspace : machine.spaces[s]? = some space)
    (hlive : space.supplement.destroyed = false)
    (hmapped : (mapped? machine.spaces s (pageOf address)).isSome = true) (stackPointer : Nat) :
    (Kernel.faultWithoutInfo s address stackPointer : Transition _) machine =
      .ok (.error (.unrecoverable address)) machine := by
  have hlimit : stackLimit machine = .ok machine.stackLimit machine := rfl
  rw [Kernel.faultWithoutInfo, lift_eq, run_bind hlimit]
  split
  · rw [run_bind (run_addStackPage hspace hlive hmapped)]
    rfl
  · rfl

/-- A fault on a mapped page changes nothing. Whether it is answered well hangs on the entry of the
page in the supplemental page table. -/
theorem run_resolveFault (h : machine.Settled) (huser : IsUser address)
    (hge : pageSize ≤ address) {code : FaultCode} (hcode : code.present = false)
    (hmapped : (mapped? machine.spaces s (pageOf address)).isSome = true) (stackPointer : Nat) :
    (Kernel.resolveFault s address stackPointer code : Transition _) machine =
      .ok (lateReply machine s address) machine := by
  obtain ⟨entry, hentry⟩ := Option.isSome_iff_exists.mp hmapped
  obtain ⟨space, hspace, -⟩ := Option.bind_eq_some_iff.mp hentry
  have hframe : frame? machine.spaces s (pageOf address) = some entry.frame.toNat := by
    rw [frame?, hentry, Option.map_some]
  have hlive : space.supplement.destroyed = false :=
    h.live.isLive_of_frame? (isAligned_pageOf address) hframe space.standing (standing?_eq hspace)
  have hvalid : ¬ (¬ IsUser address ∨ address < pageSize ∨ code.present = true) := by
    rw [not_or, not_not, not_or, hcode]
    exact ⟨huser, Nat.not_lt.mpr hge, Bool.false_ne_true⟩
  have hrounds : faultRounds = 0xffffffff + 1 := rfl
  have hsupplement : (Kernel.supplement s : Transition _) machine = .ok space.supplement machine :=
    run_supplement hspace
  rw [Kernel.resolveFault, if_neg hvalid, holding_eq, hrounds, Kernel.resolveIn,
    run_bind hsupplement, if_neg (Bool.eq_false_iff.mp hlive), ← info?_eq hspace, lateReply]
  cases hinfo : info? machine.spaces s (pageOf address) with
  | none => exact run_faultWithoutInfo hspace hlive hmapped stackPointer
  | some info =>
    have hfits := h.fits hinfo
    have hresident : info.resident = true := by rw [hfits.resident, hframe, Option.isSome_some]
    simp only [hfits.evicting, Bool.false_eq_true, if_false, Kernel.faultWithInfo, hresident,
      if_true]
    rw [run_bind (run_findEntry hspace _), if_pos hmapped]
    rfl

/-- Only a fault at a user address behind the first page, on a page that is not present, is ever
answered well. -/
theorem valid_of_resolveFault {stackPointer : Nat} {code : FaultCode}
    (h : (Kernel.resolveFault s address stackPointer code : Transition _) machine =
      .ok (.ok ()) after) : IsUser address ∧ pageSize ≤ address ∧ code.present = false := by
  rw [Kernel.resolveFault] at h
  split at h
  · cases h
  · rename_i hvalid
    rw [not_or, not_not, not_or] at hvalid
    exact ⟨hvalid.1, Nat.le_of_not_lt hvalid.2.1, Bool.eq_false_iff.mpr hvalid.2.2⟩

end Transition

/-- After any run, a fault on a mapped page changes nothing, and so does a fault that was resolved
before. Each is answered well exactly if the page has an entry in the supplemental page table; if not,
the access counts as invalid. -/
theorem Run.resolveFault_mapped {start machine : Machine} {moments : List Moment}
    (hfresh : start.Fresh) (h : Run start moments machine) :
    (∀ s address stackPointer code, IsUser address → pageSize ≤ address → code.present = false →
      (mapped? machine.spaces s (pageOf address)).isSome = true →
      (Kernel.resolveFault s address stackPointer code : Transition _) machine =
        .ok (lateReply machine s address) machine) ∧
    ∀ s address stackPointer code after,
      (Kernel.resolveFault s address stackPointer code : Transition _) machine =
        .ok (.ok ()) after →
      (Kernel.resolveFault s address stackPointer code : Transition _) after =
        .ok (lateReply after s address) after := by
  have hs := (h.orderly hfresh.orderly).settled
  refine ⟨fun s address stackPointer code huser hge hcode hmapped =>
    Transition.run_resolveFault hs huser hge hcode hmapped stackPointer,
    fun s address stackPointer code after hrun => ?_⟩
  obtain ⟨huser, hge, hcode⟩ := Transition.valid_of_resolveFault hrun
  obtain ⟨hserviced, hmapped⟩ :=
    (Transition.ensures_resolveFault hs s address stackPointer code).of_ok hrun
  exact Transition.run_resolveFault hserviced.settled huser hge hcode (hmapped rfl) stackPointer

/-- A page of a file is loaded, and the fault that brought it in is resolved once more. -/
theorem resolveFault_mapped_sample : ∃ moments machine, Run .sample moments machine ∧
    moments.map (·.reply) = [.done, .done, .done, .done] ∧
    IsUser 0x8048000 ∧ pageSize ≤ 0x8048000 ∧ (FaultCode.notPresent false).present = false ∧
    (mapped? machine.spaces 0 0x8048000).isSome = true ∧
    (Kernel.resolveFault 0 0x8048000 0 (.notPresent false) : Transition _) machine =
      .ok (.ok ()) machine := by
  obtain ⟨moments, machine, h, -, hfacts⟩ := @exists_run .sample [.addSpace 1,
    .addFile { content := #[7] }, .call (.registerPage 0 0 0 0x8048000 1 4095 false),
    .call (.resolveFault 0 0x8048000 0 (.notPresent false))]
    (fun r => r.1.map (·.reply) = [.done, .done, .done, .done] ∧
      (mapped? r.2.spaces 0 0x8048000).isSome = true ∧ (info? r.2.spaces 0 0x8048000).isSome = true)
    (by decide +kernel)
  obtain ⟨hreplies, hmapped, hinfo⟩ := of_decide_eq_true hfacts
  have hrun := (Run.resolveFault_mapped Machine.fresh_sample h).1 0 0x8048000 0 (.notPresent false)
    (by decide) (by decide) rfl hmapped
  have hreply : lateReply machine 0 0x8048000 = .ok () := if_pos hinfo
  rw [hreply] at hrun
  exact ⟨moments, machine, h, hreplies, by decide, by decide, rfl, hmapped, hrun⟩

/-- A page is added to a stack by a fault, and the same fault is then taken for an invalid access. -/
theorem resolveFault_twice_refused : ∃ moments machine, Run .sample moments machine ∧
    moments.map (·.action) = [.addSpace 1,
      .call (.resolveFault 0 0x7ffff000 0x7ffff000 (.notPresent false)),
      .call (.resolveFault 0 0x7ffff000 0x7ffff000 (.notPresent false))] ∧
    moments.map (·.reply) = [.done, .done, .faulted (.unrecoverable 0x7ffff000)] := by
  obtain ⟨moments, machine, h, hactions, hreplies⟩ := @exists_run .sample [.addSpace 1,
    .call (.resolveFault 0 0x7ffff000 0x7ffff000 (.notPresent false)),
    .call (.resolveFault 0 0x7ffff000 0x7ffff000 (.notPresent false))]
    (fun r => r.1.map (·.reply) = [.done, .done, .faulted (.unrecoverable 0x7ffff000)])
    (by decide +kernel)
  exact ⟨moments, machine, h, hactions, of_decide_eq_true hreplies⟩

end DemandPaging
