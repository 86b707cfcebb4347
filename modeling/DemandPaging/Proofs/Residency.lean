import DemandPaging.Proofs.Runs

/-!
# Residency

Which pages are in memory is kept in three places: the records of the frame table, the page
directories and the supplemental page tables. `Resident` says that they agree, with the pool, frame by
frame and page by page; and after every action of a run they do (`Run.residency`).

The statement is about the tables themselves. It is read off `Settled`, which says the same of the
views.
-/

set_option autoImplicit false

namespace DemandPaging

open Spaces Machine

/-- A mapped page is listed at its own address. -/
theorem PageDirectory.mem_toList {d : PageDirectory} {p : Nat} {e : PageTableEntry} :
    (p, e) ∈ d.toList ↔ IsAligned p ∧ d.find? p = some e := by
  rw [toList, List.mem_map]
  constructor
  · rintro ⟨⟨number, e'⟩, hmem, heq⟩
    obtain ⟨rfl, rfl⟩ := Prod.mk.inj heq
    refine ⟨Nat.mul_mod_left number pageSize, ?_⟩
    rw [find?, pageNumber, Nat.mul_div_cancel number (by decide)]
    exact Std.ExtTreeMap.mem_toList_iff_getElem?_eq_some.mp hmem
  · rintro ⟨hp, hfind⟩
    refine ⟨(pageNumber p, e), Std.ExtTreeMap.mem_toList_iff_getElem?_eq_some.mpr hfind, ?_⟩
    simp only [IsAligned, pageOffset] at hp
    rw [Prod.mk.injEq]
    exact ⟨Nat.div_mul_cancel (Nat.dvd_of_mod_eq_zero hp), rfl⟩

namespace Machine

/-- Page `p` of space `s` is mapped with the entry `e`. -/
def IsMapped (machine : Machine) (s : SpaceId) (p : Nat) (e : PageTableEntry) : Prop :=
  ∃ space, machine.spaces[s]? = some space ∧ (p, e) ∈ space.directory.toList

/-- Page `p` of space `s` has the entry `info` in the supplemental page table. -/
def Describes (machine : Machine) (s : SpaceId) (p : Nat) (info : PageInfo) : Prop :=
  ∃ space, machine.spaces[s]? = some space ∧ space.supplement.find? p = some info

/-- The places where it is kept which pages are in memory agree. -/
structure Resident (machine : Machine) : Prop where
  /-- No frame has two records. -/
  distinct : (machine.frames.records.map (·.frame)).Nodup
  /-- The records are the mapped pages with their frames. -/
  recorded : ∀ frame s p, { frame, owner := s, page := some p } ∈ machine.frames.records ↔
    ∃ e, machine.IsMapped s p e ∧ e.frame.toNat = frame
  /-- Every record is bound to a page. -/
  bound : ∀ record ∈ machine.frames.records, record.page.isSome = true
  /-- As many frames are out of the pool as have records. -/
  counted : machine.frames.size = machine.frames.allocated
  /-- There are that many frames. -/
  fits : machine.frames.allocated ≤ machine.frames.capacity
  /-- No frame is pinned. -/
  unpinned : ∀ frame, machine.frames.pool.isPinned frame = false
  /-- Mapped pages are aligned and lie between the first page and the kernel. -/
  user : ∀ s p e, machine.IsMapped s p e → IsAligned p ∧ pageSize ≤ p ∧ p < kernelBase
  /-- An entry says of its page whether it is mapped. -/
  truthful : ∀ s p info, machine.Describes s p info →
    (info.resident = true ↔ ∃ e, machine.IsMapped s p e)
  /-- A mapped page has no swap slot. -/
  exclusive : ∀ s p info e, machine.Describes s p info → machine.IsMapped s p e → info.copy? = none

variable {machine : Machine} {s : SpaceId} {p : Nat}

/-- A page is mapped if it is aligned and has an entry in the directory of its space. -/
theorem isMapped_iff {e : PageTableEntry} :
    machine.IsMapped s p e ↔ IsAligned p ∧ mapped? machine.spaces s p = some e := by
  simp only [IsMapped, PageDirectory.mem_toList, mapped?, Option.bind_eq_some_iff]
  tauto

/-- The entry of a page is the one in the table of its space. -/
theorem describes_iff {info : PageInfo} :
    machine.Describes s p info ↔ info? machine.spaces s p = some info := by
  simp only [Describes, info?, Option.bind_eq_some_iff]

/-- An aligned page is mapped exactly if it has a frame. -/
theorem exists_isMapped_iff (hp : IsAligned p) :
    (∃ e, machine.IsMapped s p e) ↔ (frame? machine.spaces s p).isSome = true := by
  rw [frame?, Option.isSome_map, Option.isSome_iff_exists]
  exact exists_congr fun e => isMapped_iff.trans (and_iff_right hp)

/-- The tables of a settled machine agree. -/
theorem Settled.toResident (h : machine.Settled) : machine.Resident where
  distinct := (List.nodup_append.mp h.pool.nodup).1
  recorded frame s p := by
    rw [h.tracked.mem_iff]
    constructor
    · rintro ⟨p', hpage, hp, hframe⟩
      obtain rfl := Option.some.inj hpage
      obtain ⟨e, he, hnumber⟩ := Option.map_eq_some_iff.mp hframe
      exact ⟨e, isMapped_iff.mpr ⟨hp, he⟩, hnumber⟩
    · rintro ⟨e, hmaps, rfl⟩
      obtain ⟨hp, he⟩ := isMapped_iff.mp hmaps
      refine ⟨p, rfl, hp, ?_⟩
      rw [frame?, he]
      rfl
  bound record hrecord := by
    obtain ⟨p, hpage, -⟩ := (h.tracked.mem_iff record).mp hrecord
    rw [hpage, Option.isSome_some]
  counted := by
    have hcount := h.pool.allocated_eq
    rw [List.append_nil, List.append_nil, List.length_map] at hcount
    exact hcount.symm
  fits := by
    have := h.pool.allocated_le
    rw [h.capacity] at this
    exact this
  unpinned frame := by
    rw [Bool.eq_false_iff]
    intro hpinned
    exact List.not_mem_nil ((h.pool.isPinned_iff frame).mp hpinned)
  user s p e hmaps := by
    have hp := (isMapped_iff.mp hmaps).1
    exact ⟨hp, h.tracked.user s p hp ((exists_isMapped_iff hp).mp ⟨e, hmaps⟩)⟩
  truthful s p info hinfo := by
    have hfits := h.fits (describes_iff.mp hinfo)
    rw [hfits.resident, exists_isMapped_iff hfits.aligned]
  exclusive s p info e hinfo hmaps := by
    have hfits := h.fits (describes_iff.mp hinfo)
    refine hfits.copy ?_
    rw [hfits.resident]
    exact (exists_isMapped_iff hfits.aligned).mp ⟨e, hmaps⟩

end Machine

/-- After any run the tables agree about which pages are in memory. -/
theorem Run.residency {start machine : Machine} {moments : List Moment} (hfresh : start.Fresh)
    (h : Run start moments machine) : machine.Resident :=
  Machine.Settled.toResident (h.orderly hfresh.orderly).settled

/-- A stack of two pages in one frame: the page that was added first is in swap. -/
theorem residency_sample : ∃ moments machine, Run .sample moments machine ∧ moments.length = 3 ∧
    machine.frames.size = 1 ∧ machine.swap.usedCount = 1 ∧ machine.Resident := by
  obtain ⟨moments, machine, h, -, hfacts⟩ := @exists_run .sample [.addSpace 1,
    .call (.growStack 0 0x7ffff000), .call (.growStack 0 0x7fffe000)]
    (fun r => r.1.length = 3 ∧ r.2.frames.size = 1 ∧ r.2.swap.usedCount = 1) (by decide +kernel)
  obtain ⟨hlength, hsize, hused⟩ := of_decide_eq_true hfacts
  exact ⟨moments, machine, h, hlength, hsize, hused, Run.residency Machine.fresh_sample h⟩

end DemandPaging
