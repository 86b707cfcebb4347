import DemandPaging.Proofs.Persistence

/-!
# Flat memory

To its users, paged memory is flat memory: a page has the bytes that it was registered with, or zeroes
if the stack grew there, and what was stored since lies over them. `flat` keeps such a memory along a
run; it knows nothing of frames, slots and dirty flags.

The machine refines it (`Refines`): a page of flat memory is one that the machine knows, and the
machine holds its bytes, wherever they are at the moment. So what a copy from user memory reads is what
flat memory has (`Run.copyFromUser_flat`).

Pages of mapped files are left out, since others may write the file, and so are private pages of files
that were written in the meantime: a page of theirs may be loaded again at any time.
-/

set_option autoImplicit false

namespace DemandPaging

open Spaces Machine

/-! ### Pages as users see them -/

/-- A page as its user sees it. -/
structure FlatPage where
  /-- The file window that it was registered with. A page of the stack has none. -/
  window : Option Segment
  /-- What was stored since. -/
  stored : Nat → Option UInt8

/-- A byte of a page: the one that was stored last, or else that of the window, or else zero. -/
def FlatPage.byte (page : FlatPage) (files : Array MemoryFile) (k : Nat) : UInt8 :=
  (page.stored k).getD <|
    match page.window with
    | some segment => Files.windowByte files segment k
    | none => 0

/-- The page belongs to the stack, or to a private window in a file that was not written. -/
def FlatPage.Undisturbed (page : FlatPage) (moments : List Moment) : Prop :=
  ∀ segment, page.window = some segment → segment.writeBack = false ∧
    ∀ moment ∈ moments, Files.Spared moment.before.files moment.after.files segment.file

/-- Pages by space and address. -/
abbrev FlatMemory := SpaceId → Nat → Option FlatPage

/-- Whether a page is known can be computed. -/
instance (machine : Machine) (s : SpaceId) (p : Nat) : Decidable (machine.Known s p) :=
  inferInstanceAs (Decidable (_ ∨ _))

/-- The page is one of a mapped file. -/
def FlatPage.isShared (page : FlatPage) : Bool := page.window.any (·.writeBack)

/-- What a moment does to flat memory. Pages of a space that is torn down go, and pages of mapped files
go with their mapping; no other page ever goes. A page that comes has the window that the action names
for it. Then bytes are stored. -/
def Moment.onFlat (moment : Moment) (memory : FlatMemory) : FlatMemory := fun s p =>
  let stays (page : FlatPage) : Bool :=
    !moment.action.tearsDown s && (!page.isShared || moment.after.Known s p)
  let comes : Option FlatPage :=
    if moment.after.Known s p then
      some { window := moment.action.window moment.before s p, stored := fun _ => none }
    else none
  ((memory s p).filter stays <|> comes).map fun page => { page with
    stored := fun k => moment.action.stored moment.before s (p + k) <|> page.stored k }

/-- Flat memory after some moments. -/
def flat (moments : List Moment) : FlatMemory :=
  moments.foldl (fun memory moment => moment.onFlat memory) fun _ _ => none

/-- One more moment does to flat memory what it does. -/
theorem flat_append (moments : List Moment) (moment : Moment) :
    flat (moments ++ [moment]) = moment.onFlat (flat moments) := by
  rw [flat, List.foldl_append]
  rfl

section

variable {moments : List Moment} {moment : Moment} {s : SpaceId} {p k : Nat} {page : FlatPage}

/-- Only the bytes of the window matter. -/
theorem FlatPage.byte_congr {files files' : Array MemoryFile}
    (h : ∀ segment, page.window = some segment →
      Files.windowByte files' segment k = Files.windowByte files segment k) :
    page.byte files' k = page.byte files k := by
  unfold FlatPage.byte
  cases hwindow : page.window with
  | none => rfl
  | some segment => simp only [h segment hwindow]

/-- A page that was not disturbed over all moments was not disturbed before the last one. -/
theorem FlatPage.Undisturbed.init (h : page.Undisturbed (moments ++ [moment])) :
    page.Undisturbed moments := fun segment hwindow =>
  ⟨(h segment hwindow).1, fun m hm => (h segment hwindow).2 m (List.mem_append_left _ hm)⟩

/-- The last moment spared the file of a page that was not disturbed. -/
theorem FlatPage.Undisturbed.last (h : page.Undisturbed (moments ++ [moment])) {segment : Segment}
    (hwindow : page.window = some segment) : segment.writeBack = false ∧
      Files.Spared moment.before.files moment.after.files segment.file :=
  ⟨(h segment hwindow).1,
    (h segment hwindow).2 moment (List.mem_append_right _ (List.mem_singleton.mpr rfl))⟩

/-! ### One moment -/

variable {action : Action} {reply : Reply} {m m' : Machine}

/-- A page that is new has the window that the action names for it and its bytes, but for what is
stored. -/
theorem Moves.fresh (h : Moves action reply m m') (hp : IsAligned p) (hbefore : ¬ m.Known s p)
    (hafter : m'.Known s p) :
    segment? m'.spaces s p = action.window m s p ∧ ∀ k, k < pageSize →
      m'.Holds s p k ((action.stored m s (p + k)).getD <|
        match action.window m s p with
        | some segment => Files.windowByte m'.files segment k
        | none => 0) := by
  cases h with
  | paged writes _ hwindow _ hadvance =>
    rw [hwindow s p, hadvance.segment, segment?_eq_none_of_not_known hbefore]
    exact ⟨rfl, fun k hk => hadvance.fresh s p k hp hk hafter hbefore⟩
  | registered s' hstored _ _ hadds _ =>
    obtain ⟨rfl, segment, hwindow, hsegment, hholds⟩ := hadds.fresh hafter hbefore
    rw [hwindow, hstored, hadds.files]
    exact ⟨hsegment, fun k _ => hholds k⟩
  | mapped s' f page id file haction _ hfile hmaps =>
    obtain ⟨rfl, segment, hwindow, hsegment, hholds⟩ := hmaps.adds.fresh hafter hbefore
    have hnamed : action.window m s p = some segment := by
      subst haction
      change (if s = s then _ else none) = _
      rw [if_pos rfl, hfile, Option.bind_some, hwindow]
    subst haction
    rw [hnamed, hmaps.adds.files]
    exact ⟨hsegment, fun k _ => hholds k⟩
  | unmapped s' id mapping _ hunmaps _ =>
    obtain ⟨writes, -, hforgets⟩ := hunmaps.forgets
    have hnot := fun hgone => hforgets.not_known hp hgone hafter
    exact absurd ((hforgets.known_iff hp hnot).mp hafter) hbefore
  | destroyed s' _ hdestroys =>
    obtain ⟨writes, -, hforgets⟩ := hdestroys.forgets
    have hnot := fun hgone => hforgets.not_known hp hgone hafter
    exact absurd ((hforgets.known_iff hp hnot).mp hafter) hbefore
  | refused _ _ _ heq =>
    subst heq
    exact absurd hafter hbefore
  | outside _ houtside => exact absurd (houtside.known_iff.mp hafter) hbefore

/-- A space that is torn down has no pages. -/
theorem Moves.not_known (h : Moves action reply m m') (hp : IsAligned p)
    (hdown : action.tearsDown s = true) : ¬ m'.Known s p := by
  have hno : action.tearsDown s = false → ¬ m'.Known s p := by
    intro hlive
    rw [hdown] at hlive
    cases hlive
  cases h with
  | paged writes _ _ hlive _ => exact hno (hlive s)
  | registered s' _ hlive _ _ _ => exact hno (hlive s)
  | mapped s' f page id file haction _ _ _ => exact hno (by rw [haction]; rfl)
  | unmapped s' id mapping haction _ _ => exact hno (by rw [haction]; rfl)
  | destroyed s' haction hdestroys =>
    subst haction
    obtain ⟨writes, -, hforgets⟩ := hdestroys.forgets
    exact hforgets.not_known hp (of_decide_eq_true hdown)
  | refused _ hlive _ _ => exact hno (hlive s)
  | outside hcall _ =>
    cases action with
    | call c => exact absurd rfl (hcall c)
    | addSpace | addFile | changeFile | turnDisk => exact hno rfl

/-! ### All moments -/

/-- The machine knows the pages of flat memory, with their windows, and holds their bytes. -/
structure Refines (machine : Machine) (moments : List Moment) : Prop where
  known : ∀ s p, IsAligned p → ((flat moments s p).isSome = true ↔ machine.Known s p)
  window : ∀ s p page, IsAligned p → flat moments s p = some page →
    segment? machine.spaces s p = page.window
  holds : ∀ s p page k, IsAligned p → k < pageSize → flat moments s p = some page →
    page.Undisturbed moments → machine.Holds s p k (page.byte machine.files k)

/-- Flat memory has the pages that the machine knows after the moment. -/
theorem Refines.flat_eq (h : Refines moment.before moments) (ho : moment.before.Orderly)
    (hm : Moves moment.action moment.reply moment.before moment.after) (hp : IsAligned p) :
    flat (moments ++ [moment]) s p =
      if moment.after.Known s p then
        let page := (flat moments s p).getD
          { window := moment.action.window moment.before s p, stored := fun _ => none }
        some { page with
          stored := fun k => moment.action.stored moment.before s (p + k) <|> page.stored k }
      else none := by
  rw [flat_append, Moment.onFlat]
  by_cases hafter : moment.after.Known s p
  · have hlive : moment.action.tearsDown s = false := by
      rw [← Bool.not_eq_true]
      intro hdown
      exact hm.not_known hp hdown hafter
    simp only [hlive, hafter]
    cases flat moments s p with
    | none => simp
    | some old => simp [Option.filter]
  · have hgone : ∀ old, flat moments s p = some old → moment.action.tearsDown s = false →
        old.isShared = true := by
      intro old hold hlive
      by_contra hshared
      rw [Bool.not_eq_true] at hshared
      refine hafter (hm.known ho hp hlive (fun segment hsegment => ?_) ?_)
      · rw [h.window s p old hp hold] at hsegment
        rw [FlatPage.isShared, hsegment] at hshared
        exact hshared
      · rw [← h.known s p hp, hold, Option.isSome_some]
    simp only [hafter]
    cases hold : flat moments s p with
    | none => simp
    | some old => simpa using hgone old hold

/-- A page of flat memory after a moment was there before, or is new. -/
theorem Refines.cases (h : Refines moment.before moments) (ho : moment.before.Orderly)
    (hm : Moves moment.action moment.reply moment.before moment.after) (hp : IsAligned p)
    (hpage : flat (moments ++ [moment]) s p = some page) :
    (∃ old, flat moments s p = some old ∧ moment.before.Known s p ∧ moment.after.Known s p ∧
      page.window = old.window ∧ ∀ files k,
      page.byte files k = (moment.action.stored moment.before s (p + k)).getD (old.byte files k)) ∨
    ¬ moment.before.Known s p ∧ moment.after.Known s p ∧
      page.window = moment.action.window moment.before s p ∧ ∀ files k,
      page.byte files k = (moment.action.stored moment.before s (p + k)).getD
        (match moment.action.window moment.before s p with
          | some segment => Files.windowByte files segment k
          | none => 0) := by
  have hbefore := h.known s p hp
  rw [h.flat_eq ho hm hp] at hpage
  split at hpage
  · rename_i hafter
    rw [Option.some.injEq] at hpage
    subst hpage
    cases hold : flat moments s p with
    | some old =>
      rw [hold] at hbefore
      refine .inl ⟨old, rfl, hbefore.mp rfl, hafter, rfl, fun files k => ?_⟩
      simp only [FlatPage.byte, Option.getD_some]
      cases moment.action.stored moment.before s (p + k) <;> rfl
    | none =>
      rw [hold] at hbefore
      refine .inr ⟨fun hk => ?_, hafter, rfl, fun files k => ?_⟩
      · cases hbefore.mpr hk
      · simp only [FlatPage.byte, Option.getD_none]
        cases moment.action.stored moment.before s (p + k) <;> rfl
  · cases hpage

/-- What is private before a moment is left alone by it, if the page is undisturbed. -/
theorem Refines.spared (h : Refines moment.before moments) {old : FlatPage} (hp : IsAligned p)
    (hold : flat moments s p = some old) (hwindow : page.window = old.window)
    (hundisturbed : page.Undisturbed (moments ++ [moment])) :
    ∀ segment, segment? moment.before.spaces s p = some segment → segment.writeBack = false ∧
      Files.Spared moment.before.files moment.after.files segment.file := by
  intro segment hsegment
  exact hundisturbed.last (hwindow.trans ((h.window s p old hp hold).symm.trans hsegment))

/-- An undisturbed page has the same bytes after a moment as before, but for what is stored. -/
theorem Refines.byte_eq (h : Refines moment.before moments) (ho : moment.before.Orderly)
    {old : FlatPage} (hp : IsAligned p) (hold : flat moments s p = some old)
    (hwindow : page.window = old.window) (hundisturbed : page.Undisturbed (moments ++ [moment])) :
    old.byte moment.after.files k = old.byte moment.before.files k := by
  refine FlatPage.byte_congr fun segment hw => ?_
  have hsegment := (h.window s p old hp hold).trans hw
  exact (h.spared hp hold hwindow hundisturbed segment hsegment).2.windowByte
    (ho.backed s p segment hsegment) k

/-- An undisturbed page is held before the moment. -/
theorem Refines.held (h : Refines moment.before moments) {old : FlatPage} (hp : IsAligned p)
    (hk : k < pageSize) (hold : flat moments s p = some old) (hwindow : page.window = old.window)
    (hundisturbed : page.Undisturbed (moments ++ [moment])) :
    moment.before.Holds s p k (old.byte moment.before.files k) :=
  h.holds s p old k hp hk hold fun segment hw => hundisturbed.init segment (hwindow.trans hw)

/-- A machine that refines flat memory before a moment does so after it. -/
theorem Refines.step (h : Refines moment.before moments) (ho : moment.before.Orderly)
    (hm : Moves moment.action moment.reply moment.before moment.after) :
    Refines moment.after (moments ++ [moment]) := by
  refine ⟨fun s p hp => ?_, fun s p page hp hpage => ?_, fun s p page k hp hk hpage hun => ?_⟩
  · rw [h.flat_eq ho hm hp]
    split
    · exact iff_of_true rfl ‹_›
    · exact iff_of_false (fun hs => by cases hs) ‹_›
  · rcases h.cases ho hm hp hpage with ⟨old, hold, hbefore, hafter, hwindow, -⟩ |
      ⟨hbefore, hafter, hwindow, -⟩
    · rw [hm.segment hp hbefore hafter, h.window s p old hp hold, hwindow]
    · rw [(hm.fresh hp hbefore hafter).1, hwindow]
  · rcases h.cases ho hm hp hpage with ⟨old, hold, hbefore, hafter, hwindow, hbyte⟩ |
      ⟨hbefore, hafter, -, hbyte⟩
    · rw [hbyte, h.byte_eq ho hp hold hwindow hun]
      exact hm.holds ho hp hk hafter (backed_of_spared (h.spared hp hold hwindow hun))
        (h.held hp hk hold hwindow hun)
    · rw [hbyte]
      exact (hm.fresh hp hbefore hafter).2 k hk

/-- The machine of a run refines flat memory. -/
theorem Run.refines {start machine : Machine} (hfresh : start.Fresh)
    (h : Run start moments machine) : Refines machine moments := by
  induction h with
  | nil =>
    refine ⟨fun s p _ => ?_, fun s p page _ hpage => ?_, fun s p page k _ _ hpage => ?_⟩
    · refine iff_of_false (fun hs => by cases hs) ?_
      unfold Known
      rw [hfresh.mapped?, hfresh.info?]
      simp
    · cases hpage
    · cases hpage
  | snoc hrun hpermitted hstep ih =>
    obtain ⟨ho, -, hm⟩ := (hrun.snoc hpermitted hstep).moves hfresh.orderly
    exact Refines.step ih ho hm

/-- A page without a file window holds what was stored in it last. -/
theorem Run.holds_stored {start machine : Machine} (hfresh : start.Fresh)
    (h : Run start moments machine) (hp : IsAligned p) (hk : k < pageSize) {b : UInt8}
    (hpage : ((flat moments s p).any fun page =>
      page.window.isNone && page.stored k = some b) = true) : machine.Holds s p k b := by
  obtain ⟨page, hflat, hb⟩ := (Option.any_eq_true ..).mp hpage
  obtain ⟨hnone, hstored⟩ := Bool.and_eq_true_iff.mp hb
  rw [Option.isNone_iff_eq_none] at hnone
  have hholds := (h.refines hfresh).holds s p page k hp hk hflat fun segment hwindow => by
    rw [hnone] at hwindow
    cases hwindow
  rwa [FlatPage.byte, of_decide_eq_true hstored, Option.getD_some] at hholds

/-- Every byte that a copy from user memory reads is of a page of flat memory, and it is the byte that
flat memory has there, if the page belongs to the stack or is a private page of a file that was not
written. -/
theorem Run.copyFromUser_flat {start machine : Machine} (hfresh : start.Fresh)
    (h : Run start (moments ++ [moment]) machine) {address length stackPointer : Nat}
    (haction : moment.action = .call (.copyFromUser s address length stackPointer))
    {i : Nat} {x : UInt8} (hx : moment.reply.data[i]? = some x) :
    ∃ page, flat (moments ++ [moment]) s (pageOf (address + i)) = some page ∧
      (page.Undisturbed (moments ++ [moment]) →
        x = page.byte machine.files (pageOffset (address + i))) := by
  obtain ⟨hrun, -, -, rfl⟩ := h.last
  have href := hrun.refines hfresh
  obtain ⟨ho, -, hm⟩ := h.moves hfresh.orderly
  obtain ⟨hknown, hnew, hheld⟩ := h.reads hfresh.orderly haction hx
  have hp := isAligned_pageOf (address + i)
  have hk : pageOffset (address + i) < pageSize := Nat.mod_lt _ (by decide)
  obtain ⟨page, hpage⟩ :=
    Option.isSome_iff_exists.mp (((href.step ho hm).known _ _ hp).mpr hknown)
  refine ⟨page, hpage, fun hun => ?_⟩
  have hstored : moment.action.stored moment.before = nothing := by
    rw [haction]
    rfl
  have hwindow : moment.action.window moment.before s (pageOf (address + i)) = none := by
    rw [haction]
    rfl
  rcases href.cases ho hm hp hpage with ⟨old, hold, -, -, hsame, hbyte⟩ | ⟨hbefore, -, -, hbyte⟩
  · rw [hbyte, hstored, Option.getD_none, href.byte_eq ho hp hold hsame hun]
    exact hheld (backed_of_spared (href.spared hp hold hsame hun)) _
      (href.held hp hk hold hsame hun)
  · rw [hbyte, hstored, hwindow]
    exact hnew hbefore

end

/-- Two bytes are stored in a page of a stack, the page goes to swap, and the first byte is read. -/
theorem copyFromUser_flat_sample : ∃ moments moment machine,
    Run .sample (moments ++ [moment]) machine ∧
      moment.action = .call (.copyFromUser 0 0x7ffff004 2 0) ∧
      moment.reply.data[0]? = some 7 := by
  obtain ⟨all, machine, h, hactions, hfacts⟩ := @exists_run .sample ([.addSpace 1,
    .call (.growStack 0 0x7ffff000), .call (.copyToUser 0 0x7ffff004 #[7, 8] 0),
    .call (.growStack 0 0x7fffe000)] ++ [.call (.copyFromUser 0 0x7ffff004 2 0)])
    (fun r => (r.1.getLast?.any fun moment => 0 < moment.reply.data.size) &&
      (flat r.1 0 0x7ffff000).any fun page => page.window.isNone ∧ page.stored 4 = some 7)
    (by decide +kernel)
  obtain ⟨moments, moment, rfl, -, haction⟩ := exists_moment hactions
  simp only [List.getLast?_concat, Option.any_some, Bool.and_eq_true, decide_eq_true_eq] at hfacts
  obtain ⟨hsize, hflat⟩ := hfacts
  have hx : moment.reply.data[0]? = some moment.reply.data[0] := Array.getElem?_eq_getElem hsize
  obtain ⟨page, hpage, hread⟩ := Run.copyFromUser_flat Machine.fresh_sample h haction hx
  have haddress : pageOf (0x7ffff004 + 0) = 0x7ffff000 := rfl
  rw [haddress] at hpage
  rw [hpage, Option.any_some, decide_eq_true_eq] at hflat
  refine ⟨moments, moment, machine, h, haction, ?_⟩
  rw [hx, hread, FlatPage.byte]
  · have hoffset : pageOffset (0x7ffff004 + 0) = 4 := rfl
    rw [hoffset, hflat.2, Option.getD_some]
  · intro segment hwindow
    rw [hwindow] at hflat
    cases hflat.1

end DemandPaging
