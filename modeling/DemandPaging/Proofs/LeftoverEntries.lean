import DemandPaging.Proofs.FailedEvictions

/-!
# Entries that are left over

A page that never was anywhere but in memory has no entry, and gets an anonymous one when it is about to
leave. If it cannot leave after all, it keeps the entry. So between calls no entry is marked as being on
its way, but there may be anonymous ones; each belongs to a page in memory, and there are none unless
some call failed for want of swap (`History.anonymousEntries`). Nothing else of the tables changes when
an eviction fails.
-/

set_option autoImplicit false

namespace DemandPaging

open Spaces Machine

variable {start machine : Machine} {moments : List Moment}

/-- Between calls nothing is on its way. An anonymous entry belongs to a page that is mapped, and there is
none unless some call failed for want of swap. A call that fails to make room changes no entry, but for
the anonymous one that a mapped page without an entry may have got. -/
theorem History.anonymousEntries (hfresh : start.Fresh) (h : History False start moments machine) :
    (∀ s p info, info? machine.spaces s p = some info → info.evicting = false ∧
      (info.backing = .anonymous → FailedOnSwap moments ∧ info.resident = true ∧
        (mapped? machine.spaces s p).isSome = true)) ∧
    ∀ c reply after, Call.FaultsOrGrows c → c.Performs machine reply after →
      reply.FailsToEvict machine after → ∃ s p,
        (∀ s' p', ¬ (s' = s ∧ p' = p) → info? after.spaces s' p' = info? machine.spaces s' p') ∧
        (info? after.spaces s p = info? machine.spaces s p ∨ info? machine.spaces s p = none ∧
          (mapped? machine.spaces s p).isSome = true ∧
          info? after.spaces s p = some (.anonymous p)) := by
  have htables := (h.steady hfresh).tables
  refine ⟨fun s p info hinfo => ⟨htables.still s p info hinfo (by simp [Terms.since]), fun hback => ?_⟩,
    fun c reply after hc hperforms hfails => ?_⟩
  · obtain ⟨hfailed, hresident, hmapped⟩ := htables.anonymous s p info hinfo (by simp [Terms.since]) hback
    rw [frame?, Option.isSome_map] at hmapped
    exact ⟨hfailed, hresident, hmapped⟩
  · obtain ⟨s, p, hothers, hpage⟩ := (h.reverted hfresh hc hperforms hfails).1.info
    rw [lasting?, Option.isSome_map] at hpage
    exact ⟨s, p, hothers, hpage⟩

/-- A stack is to grow while the swap disk fails. There were no anonymous entries before, and there is one
at most afterwards. -/
theorem anonymousEntries_sample : ∃ moments before after, History False .sample moments before ∧
    (∀ s p info, info? before.spaces s p = some info → info.backing ≠ .anonymous) ∧
    (Call.growStack 1 0x7ffff000).Performs before (.refused (.block .writeError)) after ∧
    ∃ s p, ∀ s' p', ¬ (s' = s ∧ p' = p) → info? after.spaces s' p' = info? before.spaces s' p' := by
  obtain ⟨moments, before, after, h, hdone, -, hperforms, hfails⟩ := exists_failure
  have hc : (Call.growStack 1 0x7ffff000).FaultsOrGrows := trivial
  obtain ⟨hentries, hlater⟩ := History.anonymousEntries Machine.fresh_sample (h.history False)
  obtain ⟨s, p, hothers, -⟩ := hlater _ _ after hc hperforms hfails
  refine ⟨moments, before, after, h.history False, fun s p info hinfo hback => ?_, hperforms, s, p, hothers⟩
  obtain ⟨⟨moment, hmem, cause, hcause, -⟩, -⟩ := (hentries s p info hinfo).2 hback
  rw [hdone moment hmem] at hcause
  cases hcause

/-- The page of the other stack has an anonymous entry then, between calls and while it is in memory. -/
theorem anonymous_left : ∃ moments machine, Run .sample moments machine ∧
    moments.map (·.action) = [.addSpace 1, .call (.growStack 0 0x7ffff000), .addSpace 2,
      .turnDisk false true, .call (.growStack 1 0x7ffff000)] ∧
    info? machine.spaces 0 0x7ffff000 = some (.anonymous 0x7ffff000) := by
  obtain ⟨moments, machine, h, hactions, hfacts⟩ := @exists_run .sample [.addSpace 1,
    .call (.growStack 0 0x7ffff000), .addSpace 2, .turnDisk false true, .call (.growStack 1 0x7ffff000)]
    (fun r => info? r.2.spaces 0 0x7ffff000 = some (.anonymous 0x7ffff000)) (by decide +kernel)
  exact ⟨moments, machine, h, hactions, of_decide_eq_true hfacts⟩

end DemandPaging
