import DemandPaging.Proofs.Advance
import DemandPaging.Proofs.Steps

/-!
# Registrations

To register file pages adds entries for pages that are in no table yet, and does nothing else.
`Adds s window before after` says so, with `window` the file window that each page may get; all three
operations that register pages register a run of them, whose windows are given by `pageWindow`.

A page that is registered holds the bytes of its window from the start.
-/

set_option autoImplicit false

namespace DemandPaging

open Spaces Machine

/-! ### Runs of pages -/

/-- The window of a page in a run of `pages` pages from `page` on whose `i`-th page has the window
`window i`. -/
def pageWindow (page pages : Nat) (window : Nat → Segment) (p : Nat) : Option Segment :=
  if page ≤ p ∧ (p - page) % pageSize = 0 ∧ (p - page) / pageSize < pages then
    some (window ((p - page) / pageSize))
  else none

/-- A page has a window in a run exactly if it is one of the pages of the run. -/
theorem pageWindow_eq_some {page pages : Nat} {window : Nat → Segment} {p : Nat}
    {segment : Segment} :
    pageWindow page pages window p = some segment ↔
      ∃ i, i < pages ∧ p = page + i * pageSize ∧ window i = segment := by
  unfold pageWindow
  constructor
  · intro h
    split at h
    · rename_i hp
      refine ⟨(p - page) / pageSize, hp.2.2, ?_, Option.some.inj h⟩
      have := Nat.div_add_mod (p - page) pageSize
      rw [hp.2.1, Nat.mul_comm] at this
      omega
    · cases h
  · rintro ⟨i, hi, rfl, rfl⟩
    have hdiff : page + i * pageSize - page = i * pageSize := Nat.add_sub_cancel_left ..
    have hdiv : i * pageSize / pageSize = i := Nat.mul_div_cancel i (by decide)
    rw [hdiff, hdiv, if_pos ⟨Nat.le_add_right .., Nat.mul_mod_left .., hi⟩]

/-- The `i`-th page of a run has the `i`-th window. -/
theorem pageWindow_page {page pages i : Nat} {window : Nat → Segment} (hi : i < pages) :
    pageWindow page pages window (page + i * pageSize) = some (window i) :=
  pageWindow_eq_some.mpr ⟨i, hi, rfl, rfl⟩

/-- The window of the `i`-th page of a segment whose file part has `readBytes` bytes from `offset`
on. -/
def segmentPage (f : FileId) (offset readBytes : Nat) (writable : Bool) (i : Nat) : Segment :=
  let done := min readBytes (i * pageSize)
  let here := min (readBytes - done) pageSize
  { file := f, offset := offset + done, readBytes := here, zeroBytes := pageSize - here, writable,
    writeBack := false }

/-! ### New entries -/

/-- The page is mapped and has no entry in the supplemental page table, as a page of the stack while it
is in memory. -/
def Bare (spaces : Array AddressSpace) (s : SpaceId) (p : Nat) : Prop :=
  (mapped? spaces s p).isSome = true ∧ info? spaces s p = none

/-- Whether a page is bare can be computed. -/
instance (spaces : Array AddressSpace) (s : SpaceId) (p : Nat) : Decidable (Bare spaces s p) :=
  inferInstanceAs (Decidable (_ ∧ _))

/-- A page that is not mapped is not bare. -/
theorem not_bare_of_unmapped {spaces : Array AddressSpace} {s : SpaceId} {p : Nat}
    (h : mapped? spaces s p = none) : ¬ Bare spaces s p := by
  rintro ⟨hmapped, -⟩
  rw [h] at hmapped
  cases hmapped

/-- Pages of one space that were in no table got entries with the windows `window`, and nothing else
has changed but the mappings of the space and what was said. -/
structure Adds (s : SpaceId) (window : Nat → Option Segment) (before after : Machine) : Prop where
  frames : after.frames = before.frames
  swap : after.swap = before.swap
  files : after.files = before.files
  stackLimit_eq : after.stackLimit = before.stackLimit
  mapped : ∀ s' p, mapped? after.spaces s' p = mapped? before.spaces s' p
  info : ∀ s' p, info? after.spaces s' p = info? before.spaces s' p ∨
    s' = s ∧ IsAligned p ∧ ¬ before.Known s p ∧ IsLive before.spaces s ∧
      ∃ segment, window p = some segment ∧ info? after.spaces s p = some (.fileBacked p segment)

section

variable {s : SpaceId} {window : Nat → Option Segment} {m m' m'' : Machine}

/-- Nothing that paging looks at has changed. -/
theorem Adds.of_eq (s : SpaceId) (window : Nat → Option Segment) (hframes : m'.frames = m.frames)
    (hswap : m'.swap = m.swap) (hfiles : m'.files = m.files) (hlimit : m'.stackLimit = m.stackLimit)
    (hmapped : ∀ s p, mapped? m'.spaces s p = mapped? m.spaces s p)
    (hinfo : ∀ s p, info? m'.spaces s p = info? m.spaces s p) : Adds s window m m' where
  frames := hframes
  swap := hswap
  files := hfiles
  stackLimit_eq := hlimit
  mapped := hmapped
  info s' p := .inl (hinfo s' p)

/-- Nothing has been added if nothing happened. -/
theorem Adds.refl (s : SpaceId) (window : Nat → Option Segment) (m : Machine) :
    Adds s window m m := .of_eq s window rfl rfl rfl rfl (fun _ _ => rfl) fun _ _ => rfl

/-- What is added in two steps is added, if the first one leaves the standing of the space. -/
theorem Adds.trans (h : Adds s window m m') (h' : Adds s window m' m'')
    (hstanding : standing? m'.spaces s = standing? m.spaces s) : Adds s window m m'' where
  frames := h'.frames.trans h.frames
  swap := h'.swap.trans h.swap
  files := h'.files.trans h.files
  stackLimit_eq := h'.stackLimit_eq.trans h.stackLimit_eq
  mapped s' p := (h'.mapped s' p).trans (h.mapped s' p)
  info s' p := by
    rcases h'.info s' p with heq' | ⟨rfl, hp, hunknown, hlive, hsegment⟩
    · rcases h.info s' p with heq | ⟨rfl, hp, hunknown, hlive, segment, hwindow, hinfo⟩
      · exact .inl (heq'.trans heq)
      · exact .inr ⟨rfl, hp, hunknown, hlive, segment, hwindow, heq'.trans hinfo⟩
    · rcases h.info s' p with heq | ⟨-, -, -, -, segment, -, hinfo⟩
      · refine .inr ⟨rfl, hp, ?_, ?_, hsegment⟩
        · unfold Known at hunknown ⊢
          rw [← heq, ← h.mapped]
          exact hunknown
        · unfold IsLive at hlive ⊢
          rw [← hstanding]
          exact hlive
      · refine absurd (.inr ?_) hunknown
        rw [hinfo, Option.isSome_some]

/-- A page that has an entry keeps it. -/
theorem Adds.info_eq (h : Adds s window m m') {s' : SpaceId} {p : Nat} (hknown : m.Known s' p) :
    info? m'.spaces s' p = info? m.spaces s' p := by
  rcases h.info s' p with heq | ⟨rfl, -, hunknown, -⟩
  · exact heq
  · exact absurd hknown hunknown

/-- A page that is known stays known. -/
theorem Adds.known (h : Adds s window m m') {s' : SpaceId} {p : Nat} (hknown : m.Known s' p) :
    m'.Known s' p := by
  have heq := h.info_eq hknown
  unfold Known at hknown ⊢
  rw [h.mapped, heq]
  exact hknown

/-- Pages stay in their frames, and no page gets one. -/
theorem Adds.frame (h : Adds s window m m') (s' : SpaceId) (p : Nat) :
    frame? m'.spaces s' p = frame? m.spaces s' p := by rw [frame?, frame?, h.mapped]

/-- No page becomes bare. -/
theorem Adds.bare (h : Adds s window m m') {s' : SpaceId} {p : Nat} (hbare : Bare m'.spaces s' p) :
    Bare m.spaces s' p := by
  obtain ⟨hmapped, hnone⟩ := hbare
  rw [h.mapped] at hmapped
  refine ⟨hmapped, ?_⟩
  rcases h.info s' p with heq | ⟨rfl, -, -, -, segment, -, hinfo⟩
  · rw [← heq, hnone]
  · rw [hinfo] at hnone
    cases hnone

/-- A new entry names no swap slot. -/
theorem Adds.copy (h : Adds s window m m') (s' : SpaceId) (p : Nat) :
    copy? m'.spaces s' p = copy? m.spaces s' p := by
  rcases h.info s' p with heq | ⟨rfl, -, hunknown, -, segment, -, hinfo⟩
  · rw [copy?, copy?, heq]
  · unfold Known at hunknown
    rw [not_or, Option.not_isSome_iff_eq_none, Option.not_isSome_iff_eq_none] at hunknown
    rw [copy?, copy?, hinfo, hunknown.2]
    rfl

/-- A page that is known holds what it held. -/
theorem Adds.holds (h : Adds s window m m') {s' : SpaceId} {p k : Nat} {b : UInt8}
    (hknown : m.Known s' p) (hb : m.Holds s' p k b) : m'.Holds s' p k b := by
  refine hb.congr (h.info_eq hknown) (fun hn => (h.mapped s' p).trans hn) ?_ ?_ ?_
  · intro e he
    exact ⟨e, (h.mapped s' p).trans he, rfl, fun hd => hd, by rw [h.frames]⟩
  · intro copy _
    rw [h.swap]
  · intro segment _
    rw [h.files]

/-- A page that is new has one of the windows and holds its bytes. -/
theorem Adds.fresh (h : Adds s window m m') {s' : SpaceId} {p : Nat} (hknown : m'.Known s' p)
    (hunknown : ¬ m.Known s' p) :
    s' = s ∧ ∃ segment, window p = some segment ∧ segment? m'.spaces s p = some segment ∧
      ∀ k, m'.Holds s p k (Files.windowByte m.files segment k) := by
  rcases h.info s' p with heq | ⟨rfl, -, -, -, segment, hwindow, hinfo⟩
  · unfold Known at hknown hunknown
    rw [h.mapped, heq] at hknown
    exact absurd hknown hunknown
  · have hsegment : segment? m'.spaces s' p = some segment := by
      rw [segment?, hinfo]
      rfl
    refine ⟨rfl, segment, hwindow, hsegment, fun k => ?_⟩
    have hunmapped : mapped? m'.spaces s' p = none := by
      unfold Known at hunknown
      rw [not_or, Option.not_isSome_iff_eq_none] at hunknown
      rw [h.mapped, hunknown.1]
    have hcopy : copy? m'.spaces s' p = none := by
      rw [copy?, hinfo]
      rfl
    rw [holds_of_file hunmapped hcopy]
    exact ⟨segment, hsegment, by rw [h.files]⟩

/-- The machine stays settled if the spaces that were torn down still have nothing. -/
theorem Adds.settled (h : Adds s window m m') {away : Away} (hsettled : m.SettledBut away)
    (hlive : Live m'.spaces) : m'.SettledBut away where
  pool := by
    rw [h.frames]
    exact hsettled.pool
  capacity := by
    rw [h.frames]
    exact hsettled.capacity
  tracked := by
    rw [h.frames]
    refine ⟨fun r => ?_, fun s' p hp => ?_⟩
    · simpa only [h.frame] using hsettled.tracked.mem_iff r
    · simpa only [h.frame] using hsettled.tracked.user s' p hp
  described := by
    refine ⟨fun s' p info hinfo hnot => ?_, fun s' p hmoving => ?_⟩
    · rcases h.info s' p with heq | ⟨rfl, hp, hunknown, -, segment, -, hnew⟩
      · rw [heq] at hinfo
        obtain ⟨hp, hevicting, hresident, hcopy, hback⟩ :=
          hsettled.described.fits s' p info hinfo hnot
        exact ⟨hp, hevicting, by rw [h.frame, hresident], hcopy, hback⟩
      · rw [hnew, Option.some.injEq] at hinfo
        subst hinfo
        refine ⟨hp, rfl, ?_, fun _ => rfl, fun _ _ _ => rfl⟩
        unfold Known at hunknown
        rw [not_or, Option.not_isSome_iff_eq_none] at hunknown
        rw [h.frame, frame?, hunknown.1]
        rfl
    · obtain ⟨info, hinfo, haligned, hevicting, hresident, hunmapped, hcopy, hback⟩ :=
        hsettled.described.departs s' p hmoving
      have hknown : m.Known s' p := .inr (by rw [hinfo, Option.isSome_some])
      exact ⟨info, (h.info_eq hknown).trans hinfo, haligned, hevicting, hresident,
        (h.frame s' p).trans hunmapped, hcopy, hback⟩
  accounted := by
    rw [h.swap]
    exact hsettled.accounted.congr h.copy
  live := hlive

/-- Only a space that was not torn down gets entries. -/
theorem Adds.live (h : Adds s window m m') (hlive : Live m.spaces)
    (hstanding : ∀ s, standing? m'.spaces s = standing? m.spaces s) : Live m'.spaces where
  refusals := by simpa only [hstanding] using hlive.refusals
  destroyed s' standing hs' hd := by
    rw [hstanding] at hs'
    obtain ⟨hmappings, hpages⟩ := hlive.destroyed s' standing hs' hd
    refine ⟨hmappings, fun p => ⟨?_, fun hp => ?_⟩⟩
    · rcases h.info s' p with heq | ⟨rfl, -, -, hlive', -⟩
      · rw [heq]
        exact (hpages p).1
      · rw [hlive' standing hs'] at hd
        cases hd
    · rw [h.frame]
      exact (hpages p).2 hp

end

namespace Supplement

/-- What an insertion that goes through tells of the table, and what it does to it. -/
theorem insert_eq_ok {table table' : Supplement} {info : PageInfo}
    (h : table.insert info = .ok table') :
    table.destroyed = false ∧ table.find? info.page = none ∧
      table' = { table with entries := table.entries.insert info.page info } := by
  unfold Supplement.insert at h
  split at h
  · cases h
  · rename_i hdestroyed
    split at h
    · cases h
    · rename_i hcontains
      refine ⟨Bool.eq_false_iff.mpr hdestroyed, ?_, (Except.ok.inj h).symm⟩
      unfold Supplement.contains at hcontains
      rw [Std.ExtTreeMap.contains_eq_isSome_getElem?] at hcontains
      exact Option.not_isSome_iff_eq_none.mp hcontains

/-- To insert an entry into the table of a space is to put it there. -/
theorem put_of_insert {spaces : Array AddressSpace} {s : SpaceId} {space : AddressSpace}
    {info : PageInfo} {table : Supplement} (hspace : spaces[s]? = some space)
    (h : space.supplement.insert info = .ok table) :
    (spaces.modify s fun space => { space with supplement := table }) =
      put spaces s info.page info := by
  obtain ⟨-, -, rfl⟩ := insert_eq_ok h
  exact modify_supplement hspace fun table =>
    { table with entries := table.entries.insert info.page info }

end Supplement

namespace Transition

variable {machine : Machine} {s : SpaceId}

/-- An entry for a page that is not bare is put into the table. -/
theorem adds_put {space : AddressSpace} {p : Nat} {segment : Segment} {table : Supplement}
    (hspace : machine.spaces[s]? = some space)
    (hinsert : space.supplement.insert (.fileBacked p segment) = .ok table) (hp : IsAligned p)
    (hbare : ¬ Bare machine.spaces s p) {window : Nat → Option Segment}
    (hwindow : window p = some segment) :
    Adds s window machine
      { machine with spaces := put machine.spaces s p (.fileBacked p segment) } := by
  obtain ⟨hdestroyed, hfind, -⟩ := Supplement.insert_eq_ok hinsert
  have hsize : s < machine.spaces.size := (Array.getElem?_eq_some_iff.mp hspace).1
  refine ⟨rfl, rfl, rfl, rfl, fun _ _ => mapped?_put, fun s' p' => ?_⟩
  by_cases hsp : s = s' ∧ p = p'
  · obtain ⟨rfl, rfl⟩ := hsp
    refine .inr ⟨rfl, hp, ?_, ?_, segment, hwindow, ?_⟩
    · have hinfo : info? machine.spaces s p = none := (info?_eq hspace).trans hfind
      rintro (hmapped | hsome)
      · exact hbare ⟨hmapped, hinfo⟩
      · rw [hinfo] at hsome
        cases hsome
    · intro standing hstanding
      rw [standing?_eq hspace, Option.some.injEq] at hstanding
      rw [← hstanding]
      exact hdestroyed
    · rw [info?_put hsize, if_pos ⟨rfl, rfl⟩]
  · left
    rw [info?_put hsize, if_neg hsp]

/-- One page is registered, or nothing happens. -/
theorem ensures_registerPage {page : Nat} (hbare : ¬ Bare machine.spaces s page)
    {f : FileId} {offset readBytes zeroBytes : Nat} {writable : Bool}
    {window : Nat → Option Segment}
    (hwindow : window page =
      some { file := f, offset, readBytes, zeroBytes, writable, writeBack := false }) :
    Ensures (registerPage s f offset page readBytes zeroBytes writable) machine fun _ after =>
      Adds s window machine after ∧
        ∀ s', standing? after.spaces s' = standing? machine.spaces s' := by
  have hrefl : Adds s window machine machine ∧
      ∀ s', standing? machine.spaces s' = standing? machine.spaces s' :=
    ⟨.refl s window machine, fun _ => rfl⟩
  unfold registerPage
  refine ensures_ite (fun _ => rfl) (fun haligned => ?_)
  rw [not_not] at haligned
  refine ensures_ite (fun _ => rfl) (fun _ => ensures_ite (fun _ => hrefl) (fun _ => ?_))
  simp only [ensures_bind, ensures_supplement]
  intro space hspace
  cases hinsert : space.supplement.insert (.fileBacked page
      { file := f, offset, readBytes, zeroBytes, writable, writeBack := false }) with
  | error cause => exact hrefl
  | ok table =>
    simp only [ensures_bind, ensures_setSupplement, ensures_pure]
    rw [Supplement.put_of_insert hspace hinsert]
    exact ⟨adds_put hspace hinsert haligned hbare hwindow, fun _ => standing?_put⟩

/-! ### Segments page by page -/

/-- Register the `i`-th page and all later ones of a segment, `pages` of them. -/
def registerFrom (s : SpaceId) (f : FileId) (offset page readBytes : Nat) (writable : Bool) :
    (pages : Nat) → (i : Nat) → Transition (Except VmError Unit)
  | 0, _ => pure (.ok ())
  | pages + 1, i => do
    let done := min readBytes (i * pageSize)
    let here := min (readBytes - done) pageSize
    match ← registerPage s f (offset + done) (page + i * pageSize) here (pageSize - here)
        writable with
    | .error cause => pure (.error cause)
    | .ok () =>
      if offset + done + here < wordLimit then
        registerFrom s f offset page readBytes writable pages (i + 1)
      else throw .overflow

/-- Two ways to go on are the same if they are on every answer that is given. -/
theorem bind_eq_of_ok {α β : Type} {step : Transition α} {next next' : α → Transition β}
    (h : ∀ a after, step machine = .ok a after → next a after = next' a after) :
    (step >>= next) machine = (step >>= next') machine := by
  change EStateM.bind step next machine = EStateM.bind step next' machine
  rw [EStateM.bind, EStateM.bind]
  cases hstep : step machine with
  | ok a after => exact h a after hstep
  | error halt after => rfl

/-- A page that was registered lies below the kernel. -/
theorem isUser_of_registerPage {f : FileId} {offset page readBytes zeroBytes : Nat} {writable : Bool}
    {after : Machine}
    (h : registerPage s f offset page readBytes zeroBytes writable machine = .ok (.ok ()) after) :
    IsUser page := by
  unfold registerPage at h
  by_contra hpage
  split at h
  · cases h
  · split at h
    · cases h
    · rw [if_pos (.inr hpage)] at h
      cases h

/-- What is left of a segment before its `i`-th page is registered from that page on. Each page takes
its bytes from the two counts together, so the zeroes never fall short of it. -/
theorem registerRest_eq {f : FileId} {offset page readBytes zeroBytes : Nat} {writable : Bool}
    (pages : Nat) : ∀ i, readBytes + zeroBytes = (i + pages) * pageSize →
    registerRest s f writable (offset + min readBytes (i * pageSize)) (page + i * pageSize)
        (readBytes - min readBytes (i * pageSize))
        (zeroBytes - (i * pageSize - min readBytes (i * pageSize))) =
      registerFrom s f offset page readBytes writable pages i := by
  induction pages with
  | zero =>
    intro i hsum
    rw [registerRest, registerFrom, if_pos (by simp only [pageSize] at *; omega)]
  | succ pages ih =>
    intro i hsum
    have hnext := ih (i + 1) (by rw [hsum]; congr 1; omega)
    rw [registerRest, registerFrom, if_neg (by simp only [pageSize] at *; omega)]
    funext machine
    refine bind_eq_of_ok fun outcome after houtcome => ?_
    cases outcome with
    | error cause => rfl
    | ok u =>
      have huser : page + i * pageSize < kernelBase := isUser_of_registerPage houtcome
      have hdone : min readBytes ((i + 1) * pageSize) = min readBytes (i * pageSize) +
          min (readBytes - min readBytes (i * pageSize)) pageSize := by
        simp only [pageSize]
        omega
      have hfilled : pageSize - min (readBytes - min readBytes (i * pageSize)) pageSize ≤
          zeroBytes - (i * pageSize - min readBytes (i * pageSize)) := by
        simp only [pageSize] at *
        omega
      have hzero : zeroBytes - ((i + 1) * pageSize - min readBytes ((i + 1) * pageSize)) =
          zeroBytes - (i * pageSize - min readBytes (i * pageSize)) -
            (pageSize - min (readBytes - min readBytes (i * pageSize)) pageSize) := by
        simp only [pageSize] at *
        omega
      have hpage : page + (i + 1) * pageSize = page + i * pageSize + pageSize := by
        simp only [pageSize]
        omega
      rw [hzero, hpage, hdone, ← Nat.add_assoc, ← Nat.sub_sub] at hnext
      have hword : page + i * pageSize + pageSize < wordLimit :=
        Nat.lt_trans (Nat.add_lt_add_right huser pageSize) (by decide)
      simp only [hfilled, hword, true_and, and_true, hnext]

/-- A segment of whole pages is registered page by page. -/
theorem registerSegment_eq {f : FileId} {offset page readBytes zeroBytes : Nat} {writable : Bool} :
    registerSegment s f offset page readBytes zeroBytes writable =
      if wordLimit ≤ readBytes + zeroBytes then throw .overflow
      else if (readBytes + zeroBytes) % pageSize ≠ 0 then throw .brokenPromise
      else registerFrom s f offset page readBytes writable ((readBytes + zeroBytes) / pageSize) 0 := by
  rw [registerSegment]
  split
  · rfl
  · split
    · rfl
    · rename_i hmultiple
      have hsum : readBytes + zeroBytes = (0 + (readBytes + zeroBytes) / pageSize) * pageSize := by
        have := Nat.div_add_mod (readBytes + zeroBytes) pageSize
        rw [Nat.zero_add, Nat.mul_comm]
        omega
      have : registerRest s f writable (offset + min readBytes (0 * pageSize)) (page + 0 * pageSize)
          _ _ = _ := registerRest_eq _ 0 hsum
      simpa using this

/-- The pages of a segment from the `i`-th on are registered, up to the first that is refused. -/
theorem ensures_registerFrom {f : FileId} {offset page readBytes : Nat} {writable : Bool}
    {total : Nat} (pages : Nat) : ∀ {machine : Machine} (i : Nat), i + pages ≤ total →
    (∀ j, j < total → ¬ Bare machine.spaces s (page + j * pageSize)) →
    Ensures (registerFrom s f offset page readBytes writable pages i) machine fun _ after =>
      Adds s (pageWindow page total (segmentPage f offset readBytes writable)) machine after ∧
        ∀ s', standing? after.spaces s' = standing? machine.spaces s' := by
  induction pages with
  | zero => exact fun _ _ _ => ⟨.refl _ _ _, fun _ => rfl⟩
  | succ pages ih =>
    intro machine i htotal hbare
    have hi : i < total := by omega
    simp only [registerFrom, ensures_bind]
    have hone := @ensures_registerPage machine s _ (hbare i hi) f
      (offset + min readBytes (i * pageSize))
      (min (readBytes - min readBytes (i * pageSize)) pageSize)
      (pageSize - min (readBytes - min readBytes (i * pageSize)) pageSize) writable
      (pageWindow page total (segmentPage f offset readBytes writable)) (pageWindow_page hi)
    refine hone.mono fun outcome middle hmiddle => ?_
    cases outcome with
    | error cause => exact hmiddle
    | ok u =>
      refine ensures_ite (fun _ => ?_) (fun _ => rfl)
      have hrest := @ih middle (i + 1) (by omega) fun j hj hbare' =>
        hbare j hj (hmiddle.1.bare hbare')
      refine hrest.mono fun outcome after hafter => ?_
      refine ⟨hmiddle.1.trans hafter.1 (hmiddle.2 s), fun s' => ?_⟩
      rw [hafter.2, hmiddle.2]

/-- The pages of a segment are registered, up to the first that is refused. -/
theorem ensures_registerSegment {f : FileId} {offset page readBytes zeroBytes : Nat}
    {writable : Bool}
    (hbare : ∀ i, i < (readBytes + zeroBytes) / pageSize →
      ¬ Bare machine.spaces s (page + i * pageSize)) :
    Ensures (registerSegment s f offset page readBytes zeroBytes writable) machine fun _ after =>
      Adds s (pageWindow page ((readBytes + zeroBytes) / pageSize)
        (segmentPage f offset readBytes writable)) machine after ∧
        ∀ s', standing? after.spaces s' = standing? machine.spaces s' := by
  rw [registerSegment_eq]
  refine ensures_ite (fun _ => rfl) (fun _ => ensures_ite (fun _ => rfl) (fun _ => ?_))
  exact ensures_registerFrom _ 0 (Nat.le_of_eq (Nat.zero_add _)) hbare

end Transition

end DemandPaging
