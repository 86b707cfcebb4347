import DemandPaging.Proofs.FlatMemory

/-!
# Registrations of mapped pages

A page that is in memory must not be registered, since the entry that it would get says that its
contents are in a file. What is asked is whether the page has an entry already
(`Transition.ensures_registerPage_valid`), and a page of the stack has none while it is in memory: it
is `Bare`. So a page of the stack can be registered, and then it is dropped for the file when it is
evicted unchanged.

As long as no bare page is named, registrations leave all pages alone that are mapped, and later
evictions keep what these hold (`Run.register_keepsMapped`).
-/

set_option autoImplicit false

namespace DemandPaging

open Spaces Machine

namespace Transition

variable {machine : Machine} {s : SpaceId} {page readBytes zeroBytes : Nat}

/-- A user page of a space that was not torn down is registered exactly if it has no entry. Whether it
is mapped is not asked. -/
theorem ensures_registerPage_valid (haligned : IsAligned page)
    (hsum : readBytes + zeroBytes = pageSize) (hpage : page ≠ 0 ∧ IsUser page)
    (hlive : IsLive machine.spaces s) (f : FileId) (offset : Nat) (writable : Bool) :
    Ensures (registerPage s f offset page readBytes zeroBytes writable) machine
      fun outcome _ => outcome = .ok () ↔ info? machine.spaces s page = none := by
  have hvalid : ¬ (page = 0 ∨ ¬ IsUser page) := by
    rw [not_or, not_not]
    exact hpage
  rw [registerPage, if_neg (not_not_intro haligned), if_neg (not_not_intro hsum), if_neg hvalid]
  simp only [ensures_bind, ensures_supplement]
  intro space hspace
  have hdestroyed : space.supplement.destroyed = false :=
    hlive space.standing (standing?_eq hspace)
  rw [info?_eq hspace, Supplement.insert, if_neg (Bool.eq_false_iff.mp hdestroyed),
    Supplement.contains, Std.ExtTreeMap.contains_eq_isSome_getElem?]
  cases hentry : space.supplement.find? page with
  | some info =>
    have hsome : space.supplement.entries[page]?.isSome = true := by
      rw [Supplement.find?] at hentry
      rw [hentry, Option.isSome_some]
    simp only [PageInfo.fileBacked, hsome, if_true, ensures_pure, reduceCtorEq]
  | none =>
    have hnone : space.supplement.entries[page]?.isSome = false := by
      rw [Supplement.find?] at hentry
      rw [hentry, Option.isSome_none]
    simp only [PageInfo.fileBacked, hnone, Bool.false_eq_true, if_false, ensures_bind,
      ensures_setSupplement, ensures_pure]

end Transition

section

variable {start before after : Machine} {moments : List Moment} {reply : Reply}

/-- After any run, a valid page is registered exactly if it has no entry, be it mapped or not. And if
no page is named that is mapped without an entry, a registration leaves every mapped page its frame
and its entry, and what such a page holds is held and read later on. -/
theorem Run.register_keepsMapped (hfresh : start.Fresh) (h : Run start moments before) {c : Call}
    (hc : c.Registers before) (hstep : (Action.call c).step before = .ok reply after) :
    (∀ s f offset page readBytes zeroBytes writable,
      c = .registerPage s f offset page readBytes zeroBytes writable → IsAligned page →
      readBytes + zeroBytes = pageSize → page ≠ 0 ∧ IsUser page → IsLive before.spaces s →
      (reply = .done ↔ info? before.spaces s page = none)) ∧
    ((∀ s p, (c.window before s p).isSome = true → ¬ Bare before.spaces s p) →
      (after.frames = before.frames ∧ after.swap = before.swap ∧ after.files = before.files ∧
        ∀ s p, (mapped? before.spaces s p).isSome = true →
          mapped? after.spaces s p = mapped? before.spaces s p ∧
          info? after.spaces s p = info? before.spaces s p) ∧
      ∀ later final s p k b, Run after later final → IsAligned p → k < pageSize →
        (∀ moment ∈ later, moment.Leaves s p k) → before.Holds s p k b →
        final.Holds s p k b ∧ ∀ moment ∈ later, moment.ReadsOnly s p k b) := by
  have ho := h.orderly hfresh.orderly
  constructor
  · rintro s f offset page readBytes zeroBytes writable rfl haligned hsum hpage hlive
    have hvalid : Transition.Ensures (Action.call (.registerPage s f offset page readBytes zeroBytes
        writable)).step before fun reply _ =>
          (reply = .done ↔ info? before.spaces s page = none) := by
      simp only [Action.step, Kernel.perform, Transition.holding_eq, Transition.lift_eq,
        Transition.ensures_bind, Transition.ensures_pure]
      refine (Transition.ensures_registerPage_valid haligned hsum hpage hlive f offset
        writable).mono fun outcome _ hiff => ?_
      rw [← hiff]
      cases outcome <;> simp [Reply.ofVm]
    exact hvalid.of_ok hstep
  · intro hbare
    obtain ⟨s', -, hadds, -⟩ := (Transition.ensures_registers hc hbare).of_ok hstep
    obtain ⟨hsettled, hm⟩ := (Transition.ensures_register ho.settled hc hbare).of_ok hstep
    have ho' := hm.orderly ho hsettled
    refine ⟨⟨hadds.frames, hadds.swap, hadds.files, fun s p hmapped =>
      ⟨hadds.mapped s p, hadds.info_eq (.inl hmapped)⟩⟩, ?_⟩
    intro later final s p k b hlater hp hk hleaves hb
    have hb' := hadds.holds hb.known hb
    exact ⟨hlater.holds ho' hp hk hleaves hb', hlater.readsOnly ho' hp hk hleaves hb'⟩

end

/-- A page of a file is registered while a page of the stack is in memory; that page goes to swap and
is read again. -/
theorem register_keepsMapped_sample : ∃ moments before after later final,
    Run .sample moments before ∧ Bare before.spaces 0 0x7ffff000 ∧
    (Action.call (.registerPage 0 0 0 0x8048000 1 4095 false)).step before = .ok .done after ∧
    Run after later final ∧ ∃ moment, later.getLast? = some moment ∧
      moment.action = .call (.copyFromUser 0 0x7ffff000 1 0) ∧ moment.reply.data[0]? = some 9 := by
  obtain ⟨all, final, h, hactions, hfacts⟩ := @exists_run .sample
    ([.addSpace 1, .addFile { content := #[7] }, .call (.growStack 0 0x7ffff000),
      .call (.copyToUser 0 0x7ffff000 #[9] 0)] ++
      [.call (.registerPage 0 0 0 0x8048000 1 4095 false)] ++
      [.call (.growStack 0 0x7fffe000), .call (.copyFromUser 0 0x7ffff000 1 0)])
    (fun r =>
      (r.1[4]?.any fun moment => moment.reply = .done ∧ 0 < moment.before.files.size ∧
        Bare moment.before.spaces 0 0x7ffff000 ∧
        mapped? moment.before.spaces 0 0x8048000 = none) &&
      ((flat (r.1.take 4) 0 0x7ffff000).any fun page =>
        page.window.isNone && page.stored 0 = some 9) &&
      ((r.1.drop 5).all fun moment => moment.action.tearsDown 0 = false ∧
        moment.action.stored moment.before 0 0x7ffff000 = none ∧
        segment? moment.before.spaces 0 0x7ffff000 = none) &&
      (r.1.getLast?.any fun moment => 0 < moment.reply.data.size)) (by decide +kernel)
  obtain ⟨opened, later, rfl, hopened, hlater⟩ := List.map_eq_append_iff.mp hactions
  obtain ⟨moments, registration, rfl, hmoments, haction⟩ := exists_moment hopened
  have hbefore : moments.length = 4 := by simpa using congrArg List.length hmoments
  have hread : later.map (·.action) = [.call (.growStack 0 0x7fffe000)] ++
    [.call (.copyFromUser 0 0x7ffff000 1 0)] := hlater
  obtain ⟨earlier, moment, rfl, -, hread⟩ := exists_moment hread
  have hsecond : (moments ++ [registration] ++ (earlier ++ [moment]))[4]? = some registration := by
    simp [hbefore]
  have hrest : (moments ++ [registration] ++ (earlier ++ [moment])).drop 5 =
      earlier ++ [moment] := List.drop_left' (by simp [hbefore])
  have hhead : (moments ++ [registration] ++ (earlier ++ [moment])).take 4 = moments := by
    rw [List.append_assoc, List.take_left' hbefore]
  rw [hsecond, hrest, hhead, ← List.append_assoc, List.getLast?_concat, Bool.and_eq_true,
    Bool.and_eq_true, Bool.and_eq_true] at hfacts
  obtain ⟨⟨⟨hregistered, hflat⟩, hquiet⟩, hsize⟩ := hfacts
  obtain ⟨hdone, hfile, hbare, hunmapped⟩ := of_decide_eq_true hregistered
  simp only [decide_eq_true_eq, List.all_eq_true] at hquiet
  obtain ⟨middle, hfirst, hrun⟩ := h.split
  obtain ⟨hstart, -, hstep, rfl⟩ := hfirst.last
  rw [haction, hdone] at hstep
  have hnamed : ∀ s p, ((Call.registerPage 0 0 0 0x8048000 1 4095 false).window
      registration.before s p).isSome = true → ¬ Bare registration.before.spaces s p := by
    intro s p hsome
    obtain ⟨segment, hsegment⟩ := Option.isSome_iff_exists.mp hsome
    obtain ⟨rfl, hwindow⟩ := (Option.ite_none_right_eq_some ..).mp hsegment
    obtain ⟨i, hi, rfl, -⟩ := pageWindow_eq_some.mp hwindow
    obtain rfl : i = 0 := by omega
    exact not_bare_of_unmapped hunmapped
  have hholds : registration.before.Holds 0 0x7ffff000 0 9 :=
    hstart.holds_stored Machine.fresh_sample (by decide) (by decide) hflat
  have hregisters : (Call.registerPage 0 0 0 0x8048000 1 4095 false).Registers
    registration.before := hfile
  have hkept := ((Run.register_keepsMapped Machine.fresh_sample hstart hregisters hstep).2
    hnamed).2 _ _ 0 0x7ffff000 0 9 hrun (by decide) (by decide)
    (fun m hm => .of_segment? (hquiet m hm).1 (hquiet m hm).2.1 (hquiet m hm).2.2) hholds
  have hlt : 0 < moment.reply.data.size := of_decide_eq_true hsize
  have hx : moment.reply.data[0]? = some moment.reply.data[0] := Array.getElem?_eq_getElem hlt
  refine ⟨moments, _, _, _, final, hstart, hbare, hstep, hrun, moment,
    List.getLast?_concat .., hread, ?_⟩
  rw [hx, hkept.2 moment (by simp) _ _ _ 0 _ hread rfl rfl hx]

/-- A page of a stack went to swap and came back, and it is registered as a page of a file. It is
dropped for the file at its next eviction, and then it holds the byte of the file in place of its
own. -/
theorem register_bare_lost : ∃ moments before after, Run .sample moments before ∧
    Bare before.spaces 0 0x7ffff000 ∧ before.Holds 0 0x7ffff000 0 1 ∧
    Action.steps [.call (.registerPage 0 0 0 0x7ffff000 1 4095 true),
      .call (.resolveFault 1 0x7ffff000 0 (.notPresent false))] before = .ok [.done, .done] after ∧
    after.Holds 0 0x7ffff000 0 5 := by
  obtain ⟨moments, before, replies, after, h, -, hsteps, hfacts⟩ := @exists_steps .sample
    [.addSpace 1, .addFile (.ofBytes #[5]), .call (.growStack 0 0x7ffff000),
      .call (.copyToUser 0 0x7ffff000 #[1] 0), .addSpace 2, .call (.growStack 1 0x7ffff000),
      .call (.resolveFault 0 0x7ffff000 0 (.notPresent false))]
    [.call (.registerPage 0 0 0 0x7ffff000 1 4095 true),
      .call (.resolveFault 1 0x7ffff000 0 (.notPresent false))]
    (fun r r' =>
      ((flat r.1 0 0x7ffff000).any fun page => page.window.isNone && page.stored 0 = some 1) &&
      decide (Bare r.2.spaces 0 0x7ffff000 ∧ r'.1 = [.done, .done] ∧
        mapped? r'.2.spaces 0 0x7ffff000 = none ∧ copy? r'.2.spaces 0 0x7ffff000 = none) &&
      ((segment? r'.2.spaces 0 0x7ffff000).any fun segment =>
        Files.windowByte r'.2.files segment 0 = 5)) (by decide +kernel)
  rw [Bool.and_eq_true, Bool.and_eq_true] at hfacts
  obtain ⟨⟨hflat, hstate⟩, hwindow⟩ := hfacts
  obtain ⟨hbare, rfl, hunmapped, hcopy⟩ := of_decide_eq_true hstate
  obtain ⟨segment, hsegment, hbyte⟩ := (Option.any_eq_true ..).mp hwindow
  refine ⟨moments, before, after, h, hbare,
    h.holds_stored Machine.fresh_sample (by decide) (by decide) hflat, hsteps, ?_⟩
  exact (holds_of_file hunmapped hcopy).mpr ⟨segment, hsegment, of_decide_eq_true hbyte⟩

end DemandPaging
