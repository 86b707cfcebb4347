import DemandPaging.Proofs.AnsweredFaults
import DemandPaging.Proofs.ConfinedFaults
import DemandPaging.Proofs.LastingContents
import DemandPaging.Proofs.Rounds

/-!
# Exact copies

A copy breaks off at a page boundary or before its first byte (`CopyEnds`), whatever it meets on the way.
What was copied until then is all that it did: user memory holds afterwards what it held before, with the
bytes that were stored laid over it (`Machine.Overlaid`), and what was read is what was there.

While later pieces are reached, a page that was stored in may be moved out. If it was not, it still counts as
changed. A fault marks no page as unchanged but the one that it brings in (`Machine.KeepsDirty`).
-/

set_option autoImplicit false

namespace DemandPaging

open Spaces Machine

/-! ### Pages that count as changed -/

/-- If the page is mapped, then it counts as changed. -/
def Machine.Dirtied (s : SpaceId) (p : Nat) (machine : Machine) : Prop :=
  ∀ entry, mapped? machine.spaces s p = some entry → entry.dirty = true

/-- Every other page that counted as changed still does, unless it was moved out. -/
def Machine.KeepsDirty (s : SpaceId) (p : Nat) (before after : Machine) : Prop :=
  ∀ s' p', IsAligned p' → ¬ (s' = s ∧ p' = p) → before.Dirtied s' p' → after.Dirtied s' p'

section

variable {m m' m'' : Machine} {s : SpaceId} {p : Nat} {pages : List (SpaceId × Nat)}
  {done : Prop} {victim : Option (SpaceId × Nat)}

/-- Whether a page counts as changed is among what lasts of its entry. -/
theorem Machine.Dirtied.of_lasting (h : m.Dirtied s p)
    (heq : lasting? m'.spaces s p = lasting? m.spaces s p) : m'.Dirtied s p := by
  intro entry hentry
  rw [lasting?, lasting?, hentry, Option.map_some] at heq
  obtain ⟨old, hold, hsame⟩ := Option.map_eq_some_iff.mp heq.symm
  have hdirty : old.dirty = entry.dirty := congrArg (·.2.2) hsame
  rw [← hdirty]
  exact h old hold

/-- A page that makes way is moved out, or put back with its marks. -/
theorem Machine.Dirtied.makesWay (h : m.Dirtied s p) (hway : m.MakesWay done victim m')
    (hp : IsAligned p) : m'.Dirtied s p := by
  by_cases hmem : (s, p) ∈ victim.toList
  · rcases hway.fate (s, p) (Option.mem_toList.mp hmem) with hout | ⟨-, hback⟩
    · intro entry hentry
      have hnone : mapped? m'.spaces s p = none := hout.unmapped
      rw [hnone] at hentry
      cases hentry
    · exact h.of_lasting hback.lasting
  · exact h.of_lasting (hway.disturbs.lasting s p hp hmem)

/-- A machine that does not move on keeps its marks. -/
theorem Machine.KeepsDirty.refl (m : Machine) : m.KeepsDirty s p m := fun _ _ _ _ h => h

/-- Marks that are kept twice are kept. -/
theorem Machine.KeepsDirty.trans (h : m.KeepsDirty s p m') (h' : m'.KeepsDirty s p m'') :
    m.KeepsDirty s p m'' := fun s' p' hp hother hd => h' s' p' hp hother (h s' p' hp hother hd)

/-- To bring a page in keeps the marks of the others. -/
theorem Machine.Admits.keepsDirty {ε : Type} {outcome : Except ε Unit} (h : m.Admits s p outcome m') :
    m.KeepsDirty s p m' := by
  intro s' p' hp hother hd
  obtain ⟨victim, h⟩ := h
  cases outcome with
  | error cause => exact hd.makesWay h hp
  | ok u =>
    obtain ⟨middle, hway, hbrought⟩ := h
    refine (hd.makesWay hway hp).of_lasting (hbrought.lasting s' p' hp ?_)
    rwa [List.mem_singleton, Prod.mk.injEq]

/-- An access sets the marks of its own page only. -/
theorem Machine.keepsDirty_touch (hp : IsAligned p) {write : Bool}
    (hspaces : m'.spaces = mark m.spaces s p (·.touch write)) : m.KeepsDirty s p m' := by
  intro s' p' hp' hother hd entry hentry
  rw [hspaces, mapped?_mark, if_neg] at hentry
  · exact hd entry hentry
  · rintro ⟨rfl, hnumber⟩
    exact hother ⟨rfl, ((pageNumber_inj hp hp').mp hnumber).symm⟩

/-- An access that writes marks its page as changed. -/
theorem Machine.dirtied_touch (hspaces : m'.spaces = mark m.spaces s p (·.touch true)) :
    m'.Dirtied s p := by
  intro entry hentry
  rw [hspaces, mapped?_mark, if_pos ⟨rfl, rfl⟩] at hentry
  obtain ⟨old, -, rfl⟩ := Option.map_eq_some_iff.mp hentry
  exact Bool.or_true _

end

/-! ### Where a copy ends -/

/-- A copy of `length` bytes at `start` breaks off after `d` bytes: it lacks at least one, and the next one is
the first of the range or of a page. If an access is to blame, it is the one to that byte. -/
structure BreaksOff (start length d : Nat) (cause : FaultError) : Prop where
  lt : d < length
  boundary : d = 0 ∨ IsAligned (start + d)
  blame : ∀ address, cause = .unrecoverable address → address = start + d

/-- How a copy of `length` bytes at `start` ends when `d` of them were copied. -/
def CopyEnds (start length d : Nat) : Except FaultError Unit → Prop
  | .ok () => d = length
  | .error cause => BreaksOff start length d cause

namespace Piece

variable {start length i : Nat} {done rest : List Piece} {piece : Piece}

/-- A piece begins where the ones before it end, and if there are any, at the beginning of a page. -/
theorem address_of_split (h : all start length = done ++ piece :: rest) :
    piece.address = start + total done ∧ total done < length ∧
      (total done = 0 ∨ IsAligned piece.address) := by
  obtain ⟨hlt, hpiece, -⟩ := eq_of_split h
  have hdone : total done = (ofRange start length done.length).done := hpiece ▸ total_eq_done h
  have hsize := size_pos hlt
  have hfit := done_add_size_le hlt
  have haddress := address_eq start length done.length
  rw [hpiece]
  refine ⟨haddress.trans (by rw [hdone]), by omega, ?_⟩
  rw [hdone]
  simp only [ofRange, IsAligned, pageOf, pageOffset, pageSize]
  omega

/-- The pages of the pieces before a piece are other pages, and it lies in its page. -/
theorem pageOf_of_split (h : all start length = done ++ piece :: rest) :
    (∀ i, i < total done → pageOf (start + i) ≠ pageOf piece.address) ∧
      ∀ i, total done ≤ i → i < total (done ++ [piece]) → pageOf (start + i) = pageOf piece.address := by
  obtain ⟨haddress, -, haligned⟩ := address_of_split h
  obtain ⟨hlt, hpiece, -⟩ := eq_of_split h
  have hinside : piece.address + piece.size ≤ pageOf piece.address + pageSize :=
    hpiece ▸ address_add_size_le hlt
  refine ⟨fun i hi => ?_, fun i hge hi => ?_⟩
  · simp only [IsAligned, pageOf, pageOffset, pageSize] at *
    omega
  · rw [total_append] at hi
    simp only [pageOf, pageSize] at *
    omega

end Piece

/-- Some first pieces of a range lie in user memory. -/
def Piece.Within (start : Nat) (pieces : List Piece) : Prop :=
  total pieces = 0 ∨ start + total pieces ≤ kernelBase

namespace Transition

variable {machine : Machine} {s : SpaceId} {α : Type} {act : Nat → Transition α} {piece : Piece}
  {write : Bool}

/-! ### Reaching a piece -/

/-- However many rounds are taken, a copy fails for a reason that lies in the page it wants. -/
theorem blames_reachIn (stackPointer rounds : Nat) :
    Yields (Kernel.reachIn s piece stackPointer write act rounds) machine fun outcome _ =>
      Blames piece.address outcome := by
  induction rounds generalizing machine with
  | zero => exact yields_throw.mpr trivial
  | succ rounds ih =>
    refine yields_bind.mpr fun outcome _ _ => ?_
    cases outcome with
    | error code =>
      refine yields_bind.mpr ((blames_resolveFault _ _ code).mono fun outcome _ hblames => ?_)
      cases outcome with
      | error cause =>
        refine yields_pure.mpr ?_
        rintro address ⟨⟩
        exact hblames address rfl
      | ok u => exact ih
    | ok frame =>
      refine yields_bind.mpr fun found _ _ => ?_
      cases found with
      | some a => exact yields_pure.mpr (blames_ok _ a)
      | none => exact ih

/-- If a piece is not reached, the copy breaks off in front of it. -/
theorem breaksOff_reach {start length : Nat} {done rest : List Piece}
    (hall : Piece.all start length = done ++ piece :: rest) (hwithin : Piece.Within start done)
    (stackPointer : Nat) :
    Yields (Kernel.reach s start piece stackPointer write act) machine fun outcome _ =>
      match outcome with
      | .ok _ => Piece.Within start (done ++ [piece])
      | .error cause => BreaksOff start length (Piece.total done) cause := by
  obtain ⟨haddress, hlt, haligned⟩ := Piece.address_of_split hall
  have hbreaks : ∀ cause, (∀ address, cause = .unrecoverable address → address = piece.address) →
      BreaksOff start length (Piece.total done) cause := fun cause hblame =>
    ⟨hlt, haddress ▸ haligned, fun address heq => haddress ▸ hblame address heq⟩
  unfold Kernel.reach
  refine yields_ite (fun hbeyond => yields_pure.mpr ?_) (fun _ => ?_)
  · -- nothing was copied yet, for behind user memory there are no pieces that are reached
    refine hbreaks _ ?_
    rintro _ ⟨⟩
    have hnone : Piece.total done = 0 := by
      rcases hwithin with hnone | hwithin
      · exact hnone
      · simp only [wordLimit, kernelBase] at *
        omega
    rw [haddress, hnone, Nat.add_zero]
  · refine yields_ite (fun _ => yields_pure.mpr ?_) (fun huser => ?_)
    · refine hbreaks _ ?_
      rintro _ ⟨⟩
      rfl
    · refine (blames_reachIn stackPointer copyRounds).mono fun outcome _ hblames => ?_
      cases outcome with
      | error cause =>
        refine hbreaks cause fun address heq => ?_
        exact hblames address (congrArg Except.error heq)
      | ok a =>
        right
        obtain ⟨hpiece, hsize, -⟩ := Piece.eq_of_split hall
        have hinside : piece.address + piece.size ≤ pageOf piece.address + pageSize :=
          hsize ▸ Piece.address_add_size_le hpiece
        rw [Piece.total_append]
        simp only [IsUser, kernelBase, pageOf, pageSize] at *
        omega

/-- A fault on a page that is not mapped, or on an access that is forbidden, keeps the marks of other
pages. -/
theorem keepsDirty_resolveFault (h : machine.Settled) {address : Nat} {code : FaultCode}
    (hmissing : mapped? machine.spaces s (pageOf address) = none ∨ code.present = true)
    (stackPointer : Nat) :
    Yields (Kernel.resolveFault s address stackPointer code) machine fun _ after =>
      machine.KeepsDirty s (pageOf address) after := by
  rcases hmissing with hunmapped | hpresent
  · exact (admits_resolveFault h hunmapped stackPointer code).mono fun _ _ hadmits => hadmits.keepsDirty
  · exact (yields_iff (run_resolveFault_present hpresent address stackPointer)).mpr (.refl machine)

/-- An access is refused only if the page is not mapped, or the access is forbidden. -/
theorem yields_translate_refused (p : Nat) (write : Bool) :
    Yields (Kernel.translate s p write) machine fun outcome _ => ∀ code, outcome = .error code →
      mapped? machine.spaces s p = none ∨ code.present = true := by
  cases hentry : mapped? machine.spaces s p with
  | none => exact fun _ _ _ _ _ => .inl rfl
  | some entry =>
    refine (yields_translate_mapped hentry write).mono ?_
    rintro _ _ hrefused code rfl
    exact .inr hrefused.2

/-- To reach a piece keeps the marks of other pages, and to write it marks its own. -/
theorem keepsDirty_reachIn (hact : ∀ frame before, Yields (act frame) before fun _ after => before.Aside after)
    (h : machine.Settled) (stackPointer rounds : Nat) :
    Yields (Kernel.reachIn s piece stackPointer true act rounds) machine fun outcome after =>
      machine.KeepsDirty s (pageOf piece.address) after ∧
        ∀ a, outcome = .ok a → after.Dirtied s (pageOf piece.address) := by
  induction rounds generalizing machine with
  | zero => exact yields_throw.mpr trivial
  | succ rounds ih =>
    refine yields_bind.mpr (((yields_translate true).and (yields_translate_refused _ true)).mono ?_)
    rintro outcome met ⟨hmet, hmissing⟩
    cases outcome with
    | error code =>
      obtain rfl : met = machine := hmet
      refine yields_bind.mpr (((keepsDirty_resolveFault h (hmissing code rfl) stackPointer).and
        (ensures_resolveFault h s piece.address stackPointer code).yields).mono ?_)
      rintro outcome after ⟨hkeeps, hserviced, -⟩
      cases outcome with
      | error cause => exact yields_pure.mpr ⟨hkeeps, nofun⟩
      | ok u =>
        refine (ih hserviced.settled).mono ?_
        rintro outcome last ⟨hlast, hdirtied⟩
        exact ⟨hkeeps.trans hlast, hdirtied⟩
    | ok frame =>
      obtain ⟨entry, hentry, hframe, -, rfl⟩ := hmet
      refine yields_bind.mpr ((yields_withFrame (frame?_touch hentry hframe) (hact frame _)).mono ?_)
      rintro _ after ⟨a, rfl, hafter⟩
      exact yields_pure.mpr ⟨keepsDirty_touch (isAligned_pageOf _) hafter.spaces_eq,
        fun _ _ => dirtied_touch hafter.spaces_eq⟩

/-- A write to a piece marks its page, and no other page loses its mark over it. -/
theorem keepsDirty_reach (hact : ∀ frame before, Yields (act frame) before fun _ after => before.Aside after)
    (h : machine.Settled) (start stackPointer : Nat) :
    Yields (Kernel.reach s start piece stackPointer true act) machine fun outcome after =>
      machine.KeepsDirty s (pageOf piece.address) after ∧
        ∀ a, outcome = .ok a → after.Dirtied s (pageOf piece.address) := by
  unfold Kernel.reach
  refine yields_ite (fun _ => yields_pure.mpr ⟨.refl machine, nofun⟩) (fun _ => ?_)
  refine yields_ite (fun _ => yields_pure.mpr ⟨.refl machine, nofun⟩) (fun _ => ?_)
  exact keepsDirty_reachIn hact h stackPointer copyRounds

/-! ### Whole copies -/

/-- A copy to user memory ends after what was stored, and the pages that it stored in count as changed. -/
theorem ends_copyToUser (h : machine.Settled) (s : SpaceId) (start : Nat) (data : Bytes)
    (stackPointer : Nat) :
    Ensures (Kernel.copyToUser s start data stackPointer) machine fun outcome after =>
      CopyEnds start data.size (copied s start data stackPointer machine) outcome ∧
      ∀ i, i < copied s start data stackPointer machine → after.Dirtied s (pageOf (start + i)) := by
  have hloop := @ensures_upToFailure Piece machine FaultError (storePiece s start data stackPointer)
    (fun done after => after.Settled ∧ Piece.Within start done ∧
      ∀ i, i < Piece.total done → after.Dirtied s (pageOf (start + i)))
    (fun done cause after => BreaksOff start data.size (Piece.total done) cause ∧
      ∀ i, i < Piece.total done → after.Dirtied s (pageOf (start + i)))
    (Piece.all start data.size) ?_ ?_
  · refine hloop.mono fun outcome after hafter => ?_
    cases outcome with
    | error cause => exact hafter
    | ok u =>
      obtain ⟨⟨-, -, hdirtied⟩, hserved⟩ := hafter
      rw [copied, hserved]
      exact ⟨Piece.total_all _ _, hdirtied⟩
  · rintro done piece rest before hall ⟨hsettled, hwithin, hdirtied⟩
    obtain ⟨hothers, hown⟩ := Piece.pageOf_of_split hall
    have hreach := ensures_reach hsettled start piece stackPointer true (s := s)
      (fun frame => writeFrame frame (pageOffset piece.address)
        (data.window piece.done piece.size))
      fun _ _ _ hserviced _ _ => settled_writeFrame hserviced.settled _ _ _
    refine ((hreach.and_yields (breaksOff_reach hall hwithin stackPointer)).and_yields (keepsDirty_reach
      (fun frame before => aside_writeFrame frame _ _ before) hsettled start stackPointer)).mono ?_
    rintro outcome after ⟨⟨hafter, hends⟩, hkeeps, hpage⟩
    -- the pages that were stored in before keep their marks
    have hold : ∀ i, i < Piece.total done → after.Dirtied s (pageOf (start + i)) := fun i hi =>
      hkeeps s _ (isAligned_pageOf _) (fun heq => hothers i hi heq.2) (hdirtied i hi)
    cases outcome with
    | error cause => exact ⟨hends, hold⟩
    | ok u =>
      refine ⟨hafter, hends, fun i hi => ?_⟩
      by_cases hlt : i < Piece.total done
      · exact hold i hlt
      · rw [hown i (Nat.le_of_not_lt hlt) hi]
        exact hpage u rfl
  · exact ⟨h, .inl rfl, fun i hi => absurd hi (Nat.not_lt_zero i)⟩

/-- A copy from user memory ends after what was read. -/
theorem ends_copyFromUser (h : machine.Settled) (s : SpaceId) (start length stackPointer : Nat) :
    Ensures (Kernel.copyFromUser s start length stackPointer) machine fun result _ =>
      CopyEnds start length result.1.size result.2 := by
  refine Ensures.mono (ensuring.copyFromUser (fun done data before => data.size = Piece.total done ∧
    before.Settled ∧ Piece.Within start done) (fun data cause _ => BreaksOff start length data.size cause)
    ?step ⟨rfl, h, .inl rfl⟩) ?whole
  case whole =>
    intro answer after hafter
    obtain ⟨data, outcome⟩ := answer
    cases outcome with
    | error cause => exact hafter
    | ok u => exact hafter.1.trans (Piece.total_all start length)
  case step =>
    rintro done piece rest data before hall ⟨hsize, hsettled, hwithin⟩
    have hreach := @ensures_reach before {} s Bytes hsettled start piece stackPointer false
      (fun frame => readFrame frame (pageOffset piece.address) piece.size)
      (fun bytes after => bytes.size = piece.size ∧ after.Settled) ?_
    · refine (hreach.and_yields (breaksOff_reach hall hwithin stackPointer)).mono ?_
      rintro outcome after ⟨hafter, hends⟩
      cases outcome with
      | error cause =>
        show BreaksOff start length data.size cause
        rw [hsize]
        exact hends
      | ok bytes =>
        refine ⟨?_, hafter.2, hends⟩
        rw [Array.size_append, hsize, hafter.1, Piece.total_append]
    · intro before' entry _ hserviced _ _
      rw [ensures_readFrame]
      intro content hcontent hfits
      refine ⟨?_, hserviced.settled⟩
      rw [Page.size_window]
      omega

end Transition

/-! ### What is found afterwards -/

/-- Page `p` of space `s` holds `b` at place `k`, or nobody knows the page and `b` is zero. -/
def Machine.Presents (s : SpaceId) (p k : Nat) (b : UInt8) (machine : Machine) : Prop :=
  (machine.Known s p → machine.Holds s p k b) ∧ (¬ machine.Known s p → b = 0)

/-- User memory has changed by what was stored and by nothing else: no page is lost, and wherever contents
last, a page holds what it held, or zeroes if it is new, with the stored bytes laid over it. -/
structure Machine.Overlaid (moments : List Moment) (stored : SpaceId → Nat → Option UInt8)
    (before after : Machine) : Prop where
  known : ∀ s p, IsAligned p → before.Known s p → after.Known s p
  reached : ∀ s p k b, IsAligned p → k < pageSize → stored s (p + k) = some b → after.Known s p
  contents : ∀ s p k, IsAligned p → k < pageSize → after.Known s p → Lasting moments before s p k →
    ∃ b, before.Presents s p k b ∧ after.Holds s p k ((stored s (p + k)).getD b)

/-- A copy of `data` to user memory was exact: the first `d` bytes were stored. -/
structure Machine.StoresExactly (moments : List Moment) (s : SpaceId) (address : Nat) (data : Bytes) (d : Nat)
    (before : Machine) (outcome : Except FaultError Unit) (after : Machine) : Prop where
  ends : CopyEnds address data.size d outcome
  overlaid : before.Overlaid moments (stores s address data d) after
  dirtied : ∀ i, i < d → after.Dirtied s (pageOf (address + i))

/-- A copy of `length` bytes from user memory was exact: the bytes that were read are the first ones of the
range, in order, and nothing has changed. They are all that is handed out, so whoever wants them in a buffer
has the rest of it as before. -/
structure Machine.ReadsExactly (moments : List Moment) (s : SpaceId) (address length : Nat) (before : Machine)
    (data : Bytes) (outcome : Except FaultError Unit) (after : Machine) : Prop where
  ends : CopyEnds address length data.size outcome
  overlaid : before.Overlaid moments nothing after
  known : ∀ i, i < data.size → after.Known s (pageOf (address + i))
  read : ∀ i x, data[i]? = some x →
    Lasting moments before s (pageOf (address + i)) (pageOffset (address + i)) →
      before.Presents s (pageOf (address + i)) (pageOffset (address + i)) x

section

variable {start machine after : Machine} {moments : List Moment} {s : SpaceId} {address stackPointer : Nat}
  {data : Bytes} {outcome : Except FaultError Unit} {c : Call} {reply : Reply} {writes : List FileId}

/-- A call that only pages and stores changes user memory by what it stores. -/
theorem Run.overlaid (hfresh : start.Fresh) (h : Run start moments machine)
    (hall : Run start (moments ++ [⟨.call c, reply, machine, after⟩]) after)
    (hadvance : Advance writes (c.stored machine) machine after) :
    machine.Overlaid moments (c.stored machine) after := by
  refine ⟨hadvance.known, hadvance.stored_known, fun s p k hp hk hafter hlasting => ?_⟩
  by_cases hbefore : machine.Known s p
  · obtain ⟨b, hb⟩ := h.exists_holds hfresh hp hk hbefore hlasting
    exact ⟨b, ⟨fun _ => hb, fun hnot => absurd hbefore hnot⟩,
      hall.holds_last hfresh rfl hp hk hafter hlasting hb⟩
  · exact ⟨0, ⟨fun hknown => absurd hknown hbefore, fun _ => rfl⟩,
      hadvance.fresh s p k hp hk hafter hbefore⟩

/-- After any run, a copy to user memory is exact. -/
theorem Run.stores_exactly (hfresh : start.Fresh) (h : Run start moments machine)
    (hcopy : (Kernel.copyToUser s address data stackPointer : Transition _) machine = .ok outcome after) :
    machine.StoresExactly moments s address data (Transition.copied s address data stackPointer machine)
      outcome after := by
  have hsettled : machine.Settled := (h.orderly hfresh.orderly).settled
  obtain ⟨⟨_, -, hadvance⟩, -, -⟩ :=
    (Transition.ensures_copyToUser hsettled s address data stackPointer).of_ok hcopy
  obtain ⟨hends, hdirtied⟩ :=
    (Transition.ends_copyToUser hsettled s address data stackPointer).of_ok hcopy
  exact ⟨hends, h.overlaid hfresh (h.copyToUser hcopy) hadvance, hdirtied⟩

/-- After any run, a copy from user memory is exact. -/
theorem Run.reads_exactly (hfresh : start.Fresh) (h : Run start moments machine) {length : Nat}
    (hcopy : (Kernel.copyFromUser s address length stackPointer : Transition _) machine =
      .ok (data, outcome) after) :
    machine.ReadsExactly moments s address length data outcome after := by
  have ho := h.orderly hfresh.orderly
  have hsettled : machine.Settled := ho.settled
  have hall : Run start (moments ++ [⟨.call (.copyFromUser s address length stackPointer),
      .ofRead (data, outcome), machine, after⟩]) after := by
    apply h.snoc
    · trivial
    · show (Kernel.perform (.copyFromUser s address length stackPointer) : Transition _) machine = _
      rw [Kernel.perform, Transition.run_bind hcopy]
      rfl
  obtain ⟨⟨writes, hlength, hadvance, hreads⟩, -⟩ :=
    (Transition.ensures_copyFromUser hsettled s address length stackPointer).of_ok hcopy
  refine ⟨(Transition.ends_copyFromUser hsettled s address length stackPointer).of_ok hcopy,
    h.overlaid hfresh hall hadvance, fun i hi => ?_, fun i x hx hlasting => ?_⟩
  · exact (hreads i data[i] (Array.getElem?_eq_getElem hi)).1
  · obtain ⟨-, hblank, hread⟩ := hreads i x hx
    refine ⟨fun hknown => ?_, hblank⟩
    -- what the page held was safe from the writes of the copy, so it was read
    have hk : pageOffset (address + i) < pageSize := Nat.mod_lt _ (by decide)
    obtain ⟨b, hb⟩ := h.exists_holds hfresh (isAligned_pageOf _) hk hknown hlasting
    have hbacked : Backed (.call (.copyFromUser s address length stackPointer)) machine after s
        (pageOf (address + i)) (pageOffset (address + i)) :=
      hall.backed hfresh hlasting fun hcall => absurd rfl (hcall _)
    rw [hread b (hbacked.shielded hadvance.files hlength ho) hb]
    exact hb

/-- After any run, user copies are exact up to the byte that they fail at. -/
theorem Run.copies_exact (hfresh : start.Fresh) (h : Run start moments machine) (s : SpaceId)
    (address stackPointer : Nat) :
    (∀ data outcome after,
      (Kernel.copyToUser s address data stackPointer : Transition _) machine = .ok outcome after →
        ∃ d, machine.StoresExactly moments s address data d outcome after) ∧
    ∀ length data outcome after,
      (Kernel.copyFromUser s address length stackPointer : Transition _) machine =
        .ok (data, outcome) after →
        machine.ReadsExactly moments s address length data outcome after := by
  constructor
  · intro data outcome after hcopy
    exact ⟨_, h.stores_exactly hfresh hcopy⟩
  · intro length data outcome after hcopy
    exact h.reads_exactly hfresh hcopy

/-- A stack of two pages in one frame. A copy over the border between them moves the first page out to come to
the second one, and the first one holds what was stored in it. A copy from the end of the stack breaks off
where user memory ends. -/
theorem copies_exact_sample : ∃ moments machine stored data final, Run .sample moments machine ∧
    (Kernel.copyToUser 0 0x7fffeffe #[1, 2, 3, 4] 0 : Transition _) machine = .ok (.ok ()) stored ∧
    mapped? stored.spaces 0 0x7fffe000 = none ∧ stored.Holds 0 0x7fffe000 0xffe 1 ∧
    (Kernel.copyFromUser 0 0x7ffffffe 4 0 : Transition _) machine =
      .ok (data, .error (.unrecoverable 0x80000000)) final ∧ data.size = 2 := by
  obtain ⟨moments, machine, hrun, -, hfacts⟩ := @exists_run .sample
    [.addSpace 1, .call (.growStack 0 0x7fffe000), .call (.growStack 0 0x7ffff000)]
    (fun r => decide (segment? r.2.spaces 0 0x7fffe000 = none) &&
      ((Kernel.copyToUser 0 0x7fffeffe #[1, 2, 3, 4] 0 : Transition _).check r.2 fun outcome after =>
        decide (outcome = .ok () ∧ mapped? after.spaces 0 0x7fffe000 = none)) &&
      (Kernel.copyFromUser 0 0x7ffffffe 4 0 : Transition _).check r.2 fun result _ =>
        decide (result.2 = .error (.unrecoverable 0x80000000))) (by decide +kernel)
  obtain ⟨hfacts, hread⟩ := (Bool.and_eq_true _ _).mp hfacts
  obtain ⟨hnone, hstore⟩ := (Bool.and_eq_true _ _).mp hfacts
  obtain ⟨outcome, stored, hstore, hfacts⟩ := Transition.exists_of_check hstore
  obtain ⟨rfl, haway⟩ := of_decide_eq_true hfacts
  obtain ⟨⟨data, outcome⟩, final, hread, hfacts⟩ := Transition.exists_of_check hread
  obtain rfl : outcome = .error (.unrecoverable 0x80000000) := of_decide_eq_true hfacts
  have hexact := hrun.copies_exact Machine.fresh_sample 0
  refine ⟨moments, machine, stored, data, final, hrun, hstore, haway, ?_, hread, ?_⟩
  · obtain ⟨d, hstored⟩ := (hexact 0x7fffeffe 0).1 _ _ _ hstore
    obtain rfl : d = 4 := hstored.ends
    have hknown : stored.Known 0 0x7fffe000 :=
      hstored.overlaid.reached 0 0x7fffe000 0xffe 1 (by decide) (by decide) rfl
    have hlasting : Lasting moments machine 0 0x7fffe000 0xffe := by
      intro segment hsegment
      rw [of_decide_eq_true hnone] at hsegment
      cases hsegment
    obtain ⟨b, -, hholds⟩ :=
      hstored.overlaid.contents 0 0x7fffe000 0xffe (by decide) (by decide) hknown hlasting
    exact hholds
  · have hblame := ((hexact 0x7ffffffe 0).2 _ _ _ _ hread).ends.blame 0x80000000 rfl
    omega

end

end DemandPaging
