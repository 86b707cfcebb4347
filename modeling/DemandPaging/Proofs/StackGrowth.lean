import DemandPaging.Proofs.FlatMemory
import DemandPaging.Proofs.SwapSlots

/-!
# Stacks that grow over other pages

A page that has an entry but is not mapped has its contents in a swap slot or in a file. To grow a
stack asks only whether the page is mapped; so it goes through at such a page, and a page of zeroes
takes the place of its contents, while its entry still names the slot or the file
(`Run.growStack_described`). At the next eviction the entry gets another slot, and the one that it had
stays in use for ever (`growStack_swapped_lost`).

At a page without an entry, or if it is refused, to grow a stack harms no page that has an entry.
-/

set_option autoImplicit false

namespace DemandPaging

open Spaces Machine

section

variable {m middle m' : Machine} {action : Action} {s s' : SpaceId} {p p' frame k : Nat}
  {entry : PageTableEntry} {b : UInt8} {away : Away}

/-- The page is mapped, all zero, and it has the entry that it had. -/
theorem Grown.page (h : Grown away m s p middle frame entry m') (hp : IsAligned p) :
    mapped? m'.spaces s p = some entry ∧ info? m'.spaces s p = info? m.spaces s p ∧
      ∀ k, k < pageSize → m'.frames.memory.byte? entry.frame.toNat k = some 0 := by
  obtain ⟨pool, notices, -, rfl⟩ := h.after_eq
  refine ⟨h.installed.mapped, info?_map.trans (h.paging.absent s p hp h.unmapped).2, ?_⟩
  rw [h.installed.number]
  exact h.zero

/-- Other pages that were not mapped are left alone. -/
theorem Grown.absent (h : Grown away m s p middle frame entry m') (hp' : IsAligned p')
    (hne : ¬ (s' = s ∧ p' = p)) (hunmapped : mapped? m.spaces s' p' = none) :
    mapped? m'.spaces s' p' = none ∧ info? m'.spaces s' p' = info? m.spaces s' p' := by
  obtain ⟨hmapped, hinfo⟩ := h.paging.absent s' p' hp' hunmapped
  obtain ⟨pool, notices, -, rfl⟩ := h.after_eq
  exact ⟨(h.installed.elsewhere.mapped s' p' hp' hne).trans hmapped, info?_map.trans hinfo⟩

/-- Paging keeps what a page holds, if it is safe in its file. -/
theorem Machine.Paging.holds {n : Nat} (h : Paging n m m') (hn : n ≤ Transition.copyWrites)
    (ho : m.Orderly) (hp : IsAligned p) (hk : k < pageSize) (hsafe : Backed action m m' s p k)
    (hb : m.Holds s p k b) : m'.Holds s p k b := by
  obtain ⟨writes, hlength, hadvance⟩ := h.advance
  exact hadvance.holds s p k b hp hk
    (hsafe.shielded hadvance.files (Nat.le_trans hlength hn) ho) hb

/-- Other pages hold what they held. -/
theorem Grown.holds (h : Grown away m s p middle frame entry m') (ho : m.Orderly)
    (hp' : IsAligned p') (hk : k < pageSize) (hne : ¬ (s' = s ∧ p' = p))
    (hsafe : Backed action m m' s' p' k) (hb : m.Holds s' p' k b) : m'.Holds s' p' k b := by
  obtain ⟨pool, notices, -, rfl⟩ := h.after_eq
  have hmiddle : middle.Holds s' p' k b := h.paging.holds (by decide) ho hp' hk hsafe hb
  have hmapped := h.installed.elsewhere.mapped s' p' hp' hne
  refine hmiddle.congr info?_map (fun hn => hmapped.trans hn) (fun e he => ?_) (fun _ _ => rfl)
    fun _ _ => rfl
  exact ⟨e, hmapped.trans he, rfl, fun hd => hd, rfl⟩

end

section

variable {start before after : Machine} {moments : List Moment} {reply : Reply} {s : SpaceId}
  {address : Nat}

/-- What it takes for a stack to have grown. -/
theorem grown_of_step (h : before.Orderly)
    (hstep : (Action.call (.growStack s address)).step before = .ok reply after) :
    if reply = .done then (pageSize ≤ pageOf address ∧ IsUser (pageOf address)) ∧
      ∃ middle frame entry, Grown {} before s (pageOf address) middle frame entry after
    else Paging 1 before after ∧ after.Settled := by
  have hgrow : Transition.Ensures (Action.call (.growStack s address)).step before
      fun reply after =>
        if reply = .done then (pageSize ≤ pageOf address ∧ IsUser (pageOf address)) ∧
          ∃ middle frame entry, Grown {} before s (pageOf address) middle frame entry after
        else Paging 1 before after ∧ after.Settled := by
    simp only [Action.step, Kernel.perform, Transition.ensures_bind, Transition.ensures_pure]
    refine (Transition.ensures_growStack_any h.settled s address).mono fun outcome after hafter => ?_
    cases outcome with
    | ok u => exact hafter
    | error cause => exact hafter
  exact hgrow.of_ok hstep

/-- A stack that grows where there is no entry, or not at all, leaves the machine in order. -/
theorem orderly_of_growStack (h : before.Orderly)
    (hstep : (Action.call (.growStack s address)).step before = .ok reply after)
    (hbare : reply = .done → info? before.spaces s (pageOf address) = none) : after.Orderly := by
  have hgrown := grown_of_step h hstep
  have hserviced : Serviced {} 1 before after := by
    split at hgrown
    · rename_i hdone
      obtain ⟨huser, middle, frame, entry, hgrown⟩ := hgrown
      exact hgrown.serviced (isAligned_pageOf address) huser (hbare hdone)
    · exact .of_paging hgrown.1 hgrown.2
  have hmoves : after.Settled ∧ Moves (.call (.growStack s address)) reply before after :=
    Transition.moves_of_serviced rfl (fun _ _ => rfl) (fun _ => rfl) hserviced
  exact hmoves.2.orderly h hmoves.1

/-- After any run, a page that has an entry and is not mapped keeps its entry when a stack grows. It
stays unmapped and holds what it held, unless it is itself the page that is added to the stack: then
it has zeroes in their place. If the stack did not grow at a page that has an entry, all swap slots in
use are recorded from then on, and pages go on to hold what they hold and to be read so. -/
theorem Run.growStack_described (hfresh : start.Fresh) (h : Run start moments before)
    (hstep : (Action.call (.growStack s address)).step before = .ok reply after) :
    (∀ s' p info, info? before.spaces s' p = some info → mapped? before.spaces s' p = none →
      info? after.spaces s' p = some info ∧
      if reply = .done ∧ s' = s ∧ p = pageOf address then
        ∃ entry, mapped? after.spaces s' p = some entry ∧
          ∀ k, k < pageSize → after.frames.memory.byte? entry.frame.toNat k = some 0
      else
        mapped? after.spaces s' p = none ∧ ∀ k b, k < pageSize →
          Backed (.call (.growStack s address)) before after s' p k →
          before.Holds s' p k b → after.Holds s' p k b) ∧
    ((reply = .done → info? before.spaces s (pageOf address) = none) →
      ∀ later final, Run after later final → final.KeepsSlots ∧
        ∀ s' p k b, IsAligned p → k < pageSize → (∀ moment ∈ later, moment.Leaves s' p k) →
          after.Holds s' p k b →
          final.Holds s' p k b ∧ ∀ moment ∈ later, moment.ReadsOnly s' p k b) := by
  have ho := h.orderly hfresh.orderly
  have hgrown := grown_of_step ho hstep
  constructor
  · intro s' p info hinfo hunmapped
    have hp := (Machine.Settled.fits ho.settled hinfo).aligned
    by_cases hdone : reply = .done
    · rw [if_pos hdone] at hgrown
      obtain ⟨-, middle, frame, entry, hgrown⟩ := hgrown
      by_cases hsame : s' = s ∧ p = pageOf address
      · obtain ⟨rfl, rfl⟩ := hsame
        obtain ⟨hmapped, hkept, hzero⟩ := hgrown.page hp
        rw [if_pos ⟨hdone, rfl, rfl⟩]
        exact ⟨hkept.trans hinfo, entry, hmapped, hzero⟩
      · obtain ⟨hmapped, hkept⟩ := hgrown.absent hp hsame hunmapped
        rw [if_neg fun hnamed => hsame hnamed.2]
        exact ⟨hkept.trans hinfo, hmapped, fun k b hk hsafe hb =>
          hgrown.holds ho hp hk hsame hsafe hb⟩
    · rw [if_neg hdone] at hgrown
      obtain ⟨hmapped, hkept⟩ := hgrown.1.absent s' p hp hunmapped
      rw [if_neg fun hnamed => hdone hnamed.1]
      exact ⟨hkept.trans hinfo, hmapped, fun k b hk hsafe hb =>
        hgrown.1.holds (by decide) ho hp hk hsafe hb⟩
  · intro hbare later final hlater
    have ho' := orderly_of_growStack ho hstep hbare
    exact ⟨Machine.Settled.keepsSlots (hlater.orderly ho').settled, fun s' p k b hp hk hleaves hb =>
      ⟨hlater.holds ho' hp hk hleaves hb, hlater.readsOnly ho' hp hk hleaves hb⟩⟩

end

/-- The first page of a stack is in swap, and the stack grows by another page. -/
theorem growStack_described_sample : ∃ moments before after, Run .sample moments before ∧
    (Action.call (.growStack 0 0x7fffd000)).step before = .ok .done after ∧
    (info? before.spaces 0 0x7ffff000).isSome = true ∧
    mapped? before.spaces 0 0x7ffff000 = none ∧ before.Holds 0 0x7ffff000 0 1 ∧
    mapped? after.spaces 0 0x7ffff000 = none ∧ after.Holds 0 0x7ffff000 0 1 ∧
    after.KeepsSlots := by
  obtain ⟨moments, before, replies, after, h, -, hsteps, hfacts⟩ := @exists_steps .sample
    [.addSpace 1, .call (.growStack 0 0x7ffff000), .call (.copyToUser 0 0x7ffff000 #[1] 0),
      .call (.growStack 0 0x7fffe000)]
    [.call (.growStack 0 0x7fffd000)]
    (fun r r' =>
      ((flat r.1 0 0x7ffff000).any fun page => page.window.isNone && page.stored 0 = some 1) &&
      decide (r'.1 = [.done] ∧ (info? r.2.spaces 0 0x7ffff000).isSome = true ∧
        mapped? r.2.spaces 0 0x7ffff000 = none ∧ segment? r.2.spaces 0 0x7ffff000 = none ∧
        info? r.2.spaces 0 0x7fffd000 = none)) (by decide +kernel)
  obtain ⟨hflat, hstate⟩ := Bool.and_eq_true_iff.mp hfacts
  obtain ⟨rfl, hsome, hunmapped, hsegment, hnone⟩ := of_decide_eq_true hstate
  obtain ⟨reply, middle, others, hstep, hrest, hreplies⟩ := step_of_steps hsteps
  obtain ⟨rfl, rfl⟩ := List.cons.inj hreplies
  cases hrest
  obtain ⟨info, hinfo⟩ := Option.isSome_iff_exists.mp hsome
  have hholds := h.holds_stored Machine.fresh_sample (by decide) (by decide) hflat
  obtain ⟨hkept, hlater⟩ := Run.growStack_described Machine.fresh_sample h hstep
  obtain ⟨-, hpage⟩ := hkept 0 0x7ffff000 info hinfo hunmapped
  rw [if_neg (by decide)] at hpage
  refine ⟨moments, before, after, h, hstep, hsome, hunmapped, hholds, hpage.1, ?_, ?_⟩
  · refine hpage.2 0 1 (by decide) (fun segment hwindow => ?_) hholds
    rw [hsegment] at hwindow
    cases hwindow
  · exact (hlater (fun _ => hnone) [] after .nil).1

/-- The page of a stack is in swap, and the stack is made to grow there. What the page held is lost,
and once the page is evicted again there is a slot in use that no entry records. -/
theorem growStack_swapped_lost : ∃ moments before middle after, Run .sample moments before ∧
    (info? before.spaces 0 0x7ffff000).isSome = true ∧
    mapped? before.spaces 0 0x7ffff000 = none ∧ before.Holds 0 0x7ffff000 0 1 ∧
    (Action.call (.growStack 0 0x7ffff000)).step before = .ok .done middle ∧
    middle.Holds 0 0x7ffff000 0 0 ∧
    Action.steps [.call (.destroy 1), .addSpace 3, .call (.growStack 2 0x7ffff000)] middle =
      .ok [.done, .done, .done] after ∧ ¬ after.KeepsSlots := by
  obtain ⟨moments, before, replies, after, h, -, hsteps, hfacts⟩ := @exists_steps .sample
    [.addSpace 1, .call (.growStack 0 0x7ffff000), .call (.copyToUser 0 0x7ffff000 #[1] 0),
      .addSpace 2, .call (.growStack 1 0x7ffff000)]
    [.call (.growStack 0 0x7ffff000), .call (.destroy 1), .addSpace 3,
      .call (.growStack 2 0x7ffff000)]
    (fun r r' =>
      ((flat r.1 0 0x7ffff000).any fun page => page.window.isNone && page.stored 0 = some 1) &&
      decide (r'.1 = [.done, .done, .done, .done] ∧
        (info? r.2.spaces 0 0x7ffff000).isSome = true ∧ segment? r.2.spaces 0 0x7ffff000 = none ∧
        r'.2.swap.isUsed 0 = true ∧ 0 ∉ r'.2.recordedSlots)) (by decide +kernel)
  obtain ⟨hflat, hstate⟩ := Bool.and_eq_true_iff.mp hfacts
  obtain ⟨rfl, hsome, hsegment, hused, hunrecorded⟩ := of_decide_eq_true hstate
  obtain ⟨reply, middle, others, hstep, hrest, hreplies⟩ := step_of_steps hsteps
  obtain ⟨rfl, rfl⟩ := List.cons.inj hreplies
  have hgrown := grown_of_step (h.orderly Machine.fresh_sample.orderly) hstep
  rw [if_pos rfl] at hgrown
  obtain ⟨-, reserved, frame, entry, hgrown⟩ := hgrown
  have hpage : pageOf 0x7ffff000 = 0x7ffff000 := rfl
  rw [hpage] at hgrown
  obtain ⟨hmapped, hinfo, hzero⟩ := hgrown.page (by decide)
  refine ⟨moments, before, middle, after, h, hsome, hgrown.unmapped,
    h.holds_stored Machine.fresh_sample (by decide) (by decide) hflat, hstep, ?_, hrest,
    fun hkeeps => hunrecorded ((hkeeps.used_iff 0).mp hused)⟩
  refine (holds_of_mapped hmapped).mpr ⟨hzero 0 (by decide), fun _ segment hwindow => ?_⟩
  have hsegment' : segment? middle.spaces 0 0x7ffff000 = none := by
    rw [segment?, hinfo]
    exact hsegment
  rw [hsegment'] at hwindow
  cases hwindow

end DemandPaging
