import DemandPaging.Proofs.Shortages

/-!
# Write protection

Whether a page may be written is settled when it comes: a page of a file is writable if it was registered
so, and pages of the stack and of mapped files always are (`mayWrite`). The mark in the page directory
says that whenever the page is mapped, and so does the mark of a swap copy, however often the page was
moved (`WriteProtected.mapped`, `WriteProtected.parked`).

So nothing is ever stored in a page that must not be written. A copy to user memory stores only in frames
of pages that are mapped as writable (`Transition.storePiece_writable`). When it comes to a page that must
not be written, the page is brought in if need be, and then the copy is refused
(`Transition.storePiece_denied`); only a fatal fault gets in the way of that.

`Run.writeProtected` is all of this for the machine of a run.
-/

set_option autoImplicit false

namespace DemandPaging

open Spaces Machine

/-- The page must not be written. -/
def FlatPage.IsReadOnly (page : FlatPage) : Prop := mayWrite page.window = false

/-- Whether a page must not be written can be computed. -/
instance (page : FlatPage) : Decidable page.IsReadOnly := inferInstanceAs (Decidable (_ = _))

/-- A page must not be written if it has a window that says so. -/
theorem FlatPage.isReadOnly_iff {page : FlatPage} : page.IsReadOnly ↔
    ∃ segment, page.window = some segment ∧ segment.writable = false := by
  unfold IsReadOnly mayWrite
  cases page.window with
  | none => simp
  | some segment => simp

namespace Files

variable {f : FileId} {files : Array MemoryFile}

/-- A file to which nothing happens is spared. -/
theorem Spared.refl (f : FileId) (files : Array MemoryFile) : Spared files files f :=
  fun file hfile => ⟨file, hfile, rfl, rfl⟩

/-- A file that is spared twice is spared. -/
theorem Spared.trans {middle after : Array MemoryFile} (h : Spared files middle f)
    (h' : Spared middle after f) : Spared files after f := by
  intro file hfile
  obtain ⟨file', hfile', hcontent, hwrites⟩ := h file hfile
  obtain ⟨file'', hfile'', hcontent', hwrites'⟩ := h' file' hfile'
  exact ⟨file'', hfile'', hcontent'.trans hcontent, hwrites'.trans hwrites⟩

/-- A file is left alone by a read, and by what is written to other files. -/
theorem spared_serve {call : FileCall} (h : ∀ offset data, call ≠ .write f offset data) :
    Spared files (serve files call) f := by
  intro file hfile
  cases call with
  | read g offset n =>
    have hread : (file.read offset n).2.content = file.content ∧
        (file.read offset n).2.writes = file.writes := by
      unfold MemoryFile.read
      split <;> exact ⟨rfl, rfl⟩
    rw [serve, Array.getElem?_modify, hfile]
    split
    · exact ⟨_, rfl, hread⟩
    · exact ⟨_, rfl, rfl, rfl⟩
  | write g offset data =>
    have hne : g ≠ f := by
      rintro rfl
      exact h offset data rfl
    refine ⟨file, ?_, rfl, rfl⟩
    rw [serve, Array.getElem?_modify, if_neg hne, hfile]

/-- A file that no call writes is left alone. -/
theorem spared_serveAll {calls : List FileCall} (h : ∀ offset data, .write f offset data ∉ calls) :
    Spared files (serveAll files calls) f := by
  induction calls generalizing files with
  | nil => exact .refl f files
  | cons call rest ih =>
    refine Spared.trans (spared_serve fun offset data heq => h offset data ?_)
      (ih fun offset data hmem => h offset data (List.mem_cons_of_mem _ hmem))
    rw [heq]
    exact List.mem_cons_self

end Files

namespace Transition

section

variable {α ε : Type} {machine middle after : Machine}

/-! ### Loops -/

/-- Steps that went through are out of the way of those after them. -/
theorem upToFailure_append {step : α → Transition (Except ε Unit)} {done : List α} (rest : List α)
    (h : Kernel.upToFailure step done machine = .ok (.ok ()) middle) :
    Kernel.upToFailure step (done ++ rest) machine = Kernel.upToFailure step rest middle := by
  induction done generalizing machine with
  | nil =>
    cases h
    rfl
  | cons a done ih =>
    rw [Kernel.upToFailure] at h
    obtain ⟨outcome, next, hstep, h⟩ := ok_of_bind h
    rw [List.cons_append, Kernel.upToFailure, run_bind hstep]
    cases outcome with
    | error cause => cases h
    | ok u => exact ih h

end

/-! ### What is stored -/

section

variable {machine : Machine} {changed : SpaceId → Nat → Prop} {s : SpaceId} {start : Nat} {data : Bytes}

/-- No page that must not be written counts as changed. -/
theorem clean_of_marked {machine : Machine} {s : SpaceId} {p : Nat} {entry : PageTableEntry}
    (hmarked : Marked changed machine.spaces) (hp : IsAligned p)
    (hentry : mapped? machine.spaces s p = some entry) (hforbidden : entry.writable = false) :
    entry.dirty = false := by
  have hwindow := ((hmarked s p hp).writable entry hentry).symm.trans hforbidden
  rw [← Bool.not_eq_true]
  intro hdirty
  cases hsegment : segment? machine.spaces s p with
  | none =>
    rw [hsegment] at hwindow
    cases hwindow
  | some segment =>
    rw [hsegment] at hwindow
    exact hmarked.not_changed hp hsegment hwindow
      ((hmarked s p hp).dirty entry hentry hdirty (by rw [hsegment]; rfl))

/-- What a piece of a copy does if it goes through: after some paging, its bytes are stored in the frame
of its page, which is mapped as writable. Pages that must not be written keep their bytes and do not count
as changed. -/
structure Stored (s : SpaceId) (data : Bytes) (piece : Piece) (before after : Machine) : Prop where
  store : ∃ ready entry content, Serviced {} copyRounds before ready ∧
    mapped? ready.spaces s (pageOf piece.address) = some entry ∧ entry.writable = true ∧
    ready.frames.memory.page entry.frame.toNat = .ok content ∧
    after = { ready with frames := { ready.frames with
      memory := ready.frames.memory.setPage entry.frame.toNat
        (content.store (pageOffset piece.address) (data.window piece.done piece.size)) } } ∧
    ∀ s' q other k, IsAligned q → mapped? ready.spaces s' q = some other → other.writable = false →
      after.frames.memory.byte? other.frame.toNat k = ready.frames.memory.byte? other.frame.toNat k
  clean : ∀ s' q other, IsAligned q → mapped? after.spaces s' q = some other →
    other.writable = false → other.dirty = false

/-- A piece is stored in a page that may be written, or not at all. -/
theorem storePiece_writable (h : machine.Settled) (hmarked : Marked changed machine.spaces)
    (start : Nat) (data : Bytes) (stackPointer : Nat) (piece : Piece) :
    Yields (storePiece s start data stackPointer piece) machine fun outcome after =>
      match outcome with
      | .ok () => Stored s data piece machine after
      | .error _ => Serviced {} copyRounds machine after := by
  have hp := isAligned_pageOf piece.address
  have hreach := @ensures_reach machine {} s Unit h start piece stackPointer true
    (fun frame => writeFrame frame (pageOffset piece.address) (data.window piece.done piece.size))
    (fun _ after => ∃ ready entry content, Serviced {} copyRounds machine ready ∧
      mapped? ready.spaces s (pageOf piece.address) = some entry ∧
      ready.frames.memory.page entry.frame.toNat = .ok content ∧
      after = { ready with frames := { ready.frames with
        memory := ready.frames.memory.setPage entry.frame.toNat
          (content.store (pageOffset piece.address) (data.window piece.done piece.size)) } })
    fun ready entry _ hserviced hentry _ => ensures_writeFrame.mpr fun content hcontent _ =>
      ⟨ready, entry, content, hserviced, hentry, hcontent, rfl⟩
  refine (hreach.and_yields (upholds_reach (fun frame before => aside_writeFrame frame _ _ before)
    h hmarked start stackPointer)).yields.mono fun outcome after hafter => ?_
  cases outcome with
  | error cause => exact hafter.1
  | ok u =>
    obtain ⟨⟨ready, entry, content, hserviced, hentry, hcontent, rfl⟩, hreached⟩ := hafter
    have hmarks : Marked (fun s' q => changed s' q ∨ s' = s ∧ q = pageOf piece.address) ready.spaces :=
      (hreached.stored hp (fun _ _ => .inl) (.inr ⟨rfl, rfl⟩) fun _ _ _ h => h).marked
    -- the page was found writable, and its mark has not changed since
    obtain ⟨found, first, -, hfirst, hallowed, -, hspaces⟩ := hreached
    have hwritable : entry.writable = true := by
      have htouched : mapped? ready.spaces s (pageOf piece.address) = some (first.touch true) := by
        rw [show ready.spaces = _ from hspaces, mapped?_mark, hfirst]
        simp
      obtain rfl := Option.some.inj (hentry.symm.trans htouched)
      exact hallowed rfl
    refine ⟨⟨ready, entry, content, hserviced, hentry, hwritable, hcontent, rfl, ?_⟩, ?_⟩
    · intro s' q other k hq hother hforbidden
      rw [FrameMemory.byte?_setPage (FrameMemory.lt_size_of_page hcontent), if_neg]
      intro heq
      have hframe : frame? ready.spaces s' q = some entry.frame.toNat := by
        rw [frame?, hother, Option.map_some, heq]
      have hframe' : frame? ready.spaces s (pageOf piece.address) = some entry.frame.toNat := by
        rw [frame?, hentry, Option.map_some]
      obtain ⟨rfl, rfl⟩ := Coherent.frame_inj hserviced.settled hp hq hframe' hframe
      obtain rfl := Option.some.inj (hentry.symm.trans hother)
      rw [hwritable] at hforbidden
      cases hforbidden
    · intro s' q other hq hother hforbidden
      exact clean_of_marked hmarks hq hother hforbidden

/-! ### What is denied -/

/-- The access to a page is denied: the access itself is blamed, or the page was not mapped and the fault
that was to bring it in was fatal. -/
def Denied (machine : Machine) (s : SpaceId) (address stackPointer : Nat)
    (outcome : Except FaultError Unit) (after : Machine) : Prop :=
  outcome = .error (.unrecoverable address) ∨
    mapped? machine.spaces s (pageOf address) = none ∧ ∃ cause, outcome = .error (.fatal cause) ∧
      (Kernel.resolveFault s address stackPointer (.notPresent true) : Transition _) machine =
        .ok (.error (.fatal cause)) after

/-- What is known of every answer of a user access is what it answers. -/
theorem run_translate {p : Nat} {write : Bool} (hs : s < machine.spaces.size)
    {outcome : Except FaultCode Nat} {after : Machine}
    (h : Ensures (Kernel.translate s p write) machine fun x m => x = outcome ∧ m = after) :
    (Kernel.translate s p write : Transition _) machine = .ok outcome after := by
  have hspace := Array.getElem?_eq_getElem hs
  have hdirectory : directory s machine = .ok machine.spaces[s].directory machine := by
    rw [directory, run_bind (run_space hspace)]
    rfl
  have hrun : ∃ x m, (Kernel.translate s p write : Transition _) machine = .ok x m := by
    rw [Kernel.translate, lift_eq, run_bind hdirectory]
    exact ⟨_, _, rfl⟩
  obtain ⟨x, m, hrun⟩ := hrun
  obtain ⟨rfl, rfl⟩ := h.of_ok hrun
  exact hrun

section

variable {α : Type} {act : Nat → Transition α} {piece : Piece}

/-- An access that is refused is a fault first. -/
theorem reachIn_of_refused {write : Bool} {code : FaultCode}
    (h : (Kernel.translate s (pageOf piece.address) write : Transition _) machine =
      .ok (.error code) machine) (stackPointer rounds : Nat) :
    (Kernel.reachIn s piece stackPointer write act (rounds + 1) : Transition _) machine =
      (do match ← Kernel.resolveFault s piece.address stackPointer code with
          | .error cause => pure (.error cause)
          | .ok () => Kernel.reachIn s piece stackPointer write act rounds : Transition _) machine := by
  rw [Kernel.reachIn]
  exact run_bind h _

/-- A page that is mapped and must not be written denies it. -/
theorem reachIn_of_forbidden {entry : PageTableEntry}
    (hentry : mapped? machine.spaces s (pageOf piece.address) = some entry)
    (hforbidden : entry.writable = false) (stackPointer rounds : Nat) :
    (Kernel.reachIn s piece stackPointer true act (rounds + 1) : Transition _) machine =
      .ok (.error (.unrecoverable piece.address)) machine := by
  have htranslate : (Kernel.translate s (pageOf piece.address) true : Transition _) machine =
      .ok (.error (.protection true)) machine := by
    refine run_translate (lt_size_of_mapped? hentry) (ensures_translate.mpr fun _ _ => ?_)
    simp only [hentry, hforbidden, Bool.not_false, Bool.and_true, if_true, and_self]
  have hrefused : (Kernel.resolveFault s piece.address stackPointer (.protection true) :
      Transition _) machine = .ok (.error (.unrecoverable piece.address)) machine := by
    rw [Kernel.resolveFault, if_pos (.inr (.inr rfl))]
    rfl
  rw [reachIn_of_refused htranslate, run_bind hrefused]
  rfl

end

/-- To store a piece in a page that must not be written is denied, unless the fault that is to bring the
page in halts. -/
theorem storePiece_denied (h : machine.Settled) (hmarked : Marked changed machine.spaces) {piece : Piece}
    {segment : Segment} (hsegment : segment? machine.spaces s (pageOf piece.address) = some segment)
    (hreadOnly : segment.writable = false) (start : Nat) (data : Bytes) (stackPointer : Nat) :
    (∃ outcome after, storePiece s start data stackPointer piece machine = .ok outcome after ∧
      Denied machine s piece.address stackPointer outcome after) ∨
    ∃ halt after, storePiece s start data stackPointer piece machine = .error halt after ∧
      (Kernel.resolveFault s piece.address stackPointer (.notPresent true) : Transition _) machine =
        .error halt after := by
  have hp := isAligned_pageOf piece.address
  obtain ⟨info, hinfo, -⟩ := Option.bind_eq_some_iff.mp hsegment
  have huser : IsUser piece.address := by
    obtain ⟨-, hpage⟩ := (hmarked s _ hp).user (.inl (by rw [hsegment]; rfl))
    simp only [IsUser, pageOf, kernelBase, pageSize] at *
    omega
  have hword : ¬ wordLimit ≤ piece.address := by
    simp only [IsUser, kernelBase, wordLimit] at *
    omega
  -- wherever the page is mapped with the same window, the access is denied
  have hforbidden : ∀ {after : Machine} {changed entry} (rounds : Nat), Marked changed after.spaces →
      segment? after.spaces s (pageOf piece.address) = some segment →
      mapped? after.spaces s (pageOf piece.address) = some entry →
      (Kernel.reachIn s piece stackPointer true (fun frame => writeFrame frame
        (pageOffset piece.address) (data.window piece.done piece.size)) (rounds + 1) : Transition _)
        after = .ok (.error (.unrecoverable piece.address)) after := by
    intro after changed entry rounds hmarks hwindow hentry
    refine reachIn_of_forbidden hentry ?_ stackPointer rounds
    rw [(hmarks s _ hp).writable entry hentry, hwindow, mayWrite, Option.all_some, hreadOnly]
  have hrounds : copyRounds = 0xfffffffe + 1 + 1 := rfl
  rw [storePiece, Kernel.reach, if_neg hword, if_neg (not_not_intro huser), hrounds]
  cases hentry : mapped? machine.spaces s (pageOf piece.address) with
  | some entry => exact .inl ⟨_, _, hforbidden _ hmarked hsegment hentry, .inl rfl⟩
  | none =>
    have htranslate : (Kernel.translate s (pageOf piece.address) true : Transition _) machine =
        .ok (.error (.notPresent true)) machine := by
      refine run_translate (lt_size_of_info? hinfo) (ensures_translate.mpr fun _ _ => ?_)
      simp only [hentry, and_self]
    rw [reachIn_of_refused htranslate]
    cases hfault : (Kernel.resolveFault s piece.address stackPointer (.notPresent true) :
        Transition _) machine with
    | error halt after => exact .inr ⟨halt, after, run_bind_error hfault _, rfl⟩
    | ok outcome after =>
      rw [run_bind hfault]
      refine .inl ?_
      cases outcome with
      | error cause =>
        refine ⟨_, _, rfl, ?_⟩
        cases cause with
        | unrecoverable a => exact .inl (by rw [blames_resolveFault _ _ _ _ _ hfault a rfl])
        | fatal cause => exact .inr ⟨hentry, cause, rfl, hfault⟩
      | ok u =>
        have hupholds := upholds_resolveFault h hmarked piece.address stackPointer _ _ _ hfault
        obtain ⟨hserviced, hmapped⟩ :=
          (ensures_resolveFault h s piece.address stackPointer _).of_ok hfault
        obtain ⟨entry, hentry'⟩ := Option.isSome_iff_exists.mp (hmapped rfl)
        obtain ⟨_, -, hadvance⟩ := hserviced.advance
        refine ⟨_, _, hforbidden _ hupholds.marked ?_ hentry', .inl rfl⟩
        rw [hadvance.segment, hsegment]

end

end Transition

/-! ### Along a run -/

section

variable {start machine : Machine} {moments : List Moment} {s : SpaceId} {p first stackPointer : Nat}
  {page : FlatPage} {data : Bytes}

/-- The machine knows the window of a page that must not be written. -/
theorem Run.readOnly (hfresh : start.Fresh) (h : Run start moments machine) (hp : IsAligned p)
    (hflat : flat moments s p = some page) (hreadOnly : page.IsReadOnly) :
    ∃ segment, page.window = some segment ∧ segment.writable = false ∧
      segment? machine.spaces s p = some segment := by
  obtain ⟨segment, hwindow, hforbidden⟩ := FlatPage.isReadOnly_iff.mp hreadOnly
  exact ⟨segment, hwindow, hforbidden, ((h.refines hfresh).window s p page hp hflat).trans hwindow⟩

/-- The mark of a mapped page says whether the page may be written. -/
theorem Run.writable_mapped (hfresh : start.Fresh) (h : Run start moments machine) (hp : IsAligned p)
    {entry : PageTableEntry} (hentry : mapped? machine.spaces s p = some entry) :
    ∃ page, flat moments s p = some page ∧ entry.writable = mayWrite page.window := by
  have hrefines := h.refines hfresh
  have hknown : machine.Known s p := .inl (by rw [hentry]; rfl)
  obtain ⟨page, hflat⟩ := Option.isSome_iff_exists.mp ((hrefines.known s p hp).mpr hknown)
  refine ⟨page, hflat, ?_⟩
  rw [(h.marked hfresh s p hp).writable entry hentry, hrefines.window s p page hp hflat]

/-- The mark of a swap copy says whether the page may be written. -/
theorem Run.writable_parked (hfresh : start.Fresh) (h : Run start moments machine) {copy : SwapCopy}
    (hcopy : copy? machine.spaces s p = some copy) :
    ∃ page, flat moments s p = some page ∧ copy.writable = mayWrite page.window := by
  have hrefines := h.refines hfresh
  obtain ⟨info, hinfo, -⟩ := Option.bind_eq_some_iff.mp hcopy
  have hp := (Settled.fits (h.orderly hfresh.orderly).settled hinfo).aligned
  have hknown : machine.Known s p := .inr (by rw [hinfo]; rfl)
  obtain ⟨page, hflat⟩ := Option.isSome_iff_exists.mp ((hrefines.known s p hp).mpr hknown)
  refine ⟨page, hflat, ?_⟩
  rw [(h.marked hfresh s p hp).parked copy hcopy, hrefines.window s p page hp hflat]

/-- Nobody has stored in a page that must not be written. -/
theorem Run.not_changed (hfresh : start.Fresh) (h : Run start moments machine) (hp : IsAligned p)
    (hflat : flat moments s p = some page) (hreadOnly : page.IsReadOnly) : ¬ Changed moments s p := by
  obtain ⟨segment, -, hforbidden, hsegment⟩ := h.readOnly hfresh hp hflat hreadOnly
  exact (h.marked hfresh).not_changed hp hsegment hforbidden

/-- A copy that reaches a page that must not be written does not go through. -/
theorem Run.copyToUser_ne_ok (hfresh : start.Fresh) (h : Run start moments machine)
    {outcome : Except FaultError Unit} {after : Machine}
    (hcopy : (Kernel.copyToUser s first data stackPointer : Transition _) machine = .ok outcome after)
    {i : Nat} (hi : i < data.size) (hflat : flat moments s (pageOf (first + i)) = some page)
    (hreadOnly : page.IsReadOnly) : outcome ≠ .ok () := by
  rintro rfl
  have hp := isAligned_pageOf (first + i)
  have hsettled := (h.orderly hfresh.orderly).settled
  obtain ⟨segment, -, hforbidden, hsegment⟩ := h.readOnly hfresh hp hflat hreadOnly
  obtain ⟨⟨_, -, hadvance⟩, -, hall⟩ :=
    (Transition.ensures_copyToUser hsettled s first data stackPointer).of_ok hcopy
  have hupholds := Transition.upholds_copyToUser hsettled (h.marked hfresh) first data stackPointer _ _
    hcopy
  have hstored : StoredIn (stores s first data
      (Transition.copied s first data stackPointer machine)) s (pageOf (first + i)) := by
    refine ⟨pageOffset (first + i), Nat.mod_lt _ (by decide), ?_⟩
    rw [pageOf_add_pageOffset, hall rfl, stores, if_pos ⟨rfl, by omega, by omega⟩,
      Nat.add_sub_cancel_left, Array.getElem?_eq_getElem hi, Option.isSome_some]
  exact hupholds.marked.not_changed hp ((hadvance.segment s _).trans hsegment) hforbidden (.inr hstored)

/-- A run with one more copy. -/
theorem Run.copyToUser (h : Run start moments machine) {outcome : Except FaultError Unit} {after : Machine}
    (hcopy : (Kernel.copyToUser s first data stackPointer : Transition _) machine = .ok outcome after) :
    Run start (moments ++ [⟨.call (.copyToUser s first data stackPointer), .ofFault outcome, machine,
      after⟩]) after := by
  apply h.snoc
  · trivial
  · show (Kernel.perform (.copyToUser s first data stackPointer) : Transition _) machine = _
    rw [Kernel.perform, Transition.run_bind hcopy]
    rfl

/-- A page that must not be written holds after a copy what it held, unless its file was written for a
changed page of a mapping. -/
theorem Run.holds_readOnly (hfresh : start.Fresh) (h : Run start moments machine)
    {outcome : Except FaultError Unit} {after : Machine} {s' : SpaceId}
    (hcopy : (Kernel.copyToUser s first data stackPointer : Transition _) machine = .ok outcome after)
    (hp : IsAligned p) (hflat : flat moments s' p = some page) (hreadOnly : page.IsReadOnly)
    {segment : Segment} (hwindow : page.window = some segment) {k : Nat} {b : UInt8} (hk : k < pageSize)
    (hb : machine.Holds s' p k b) :
    after.Holds s' p k b ∨ ∃ offset bytes, (FileCall.write segment.file offset bytes).Due
      (fun s' q => Changed moments s' q ∨ StoredIn (stores s first data
        (Transition.copied s first data stackPointer machine)) s' q) machine.spaces := by
  have hrun := h.copyToUser hcopy
  obtain ⟨ho, -, hm⟩ := hrun.moves hfresh.orderly
  obtain ⟨segment', hwindow', hforbidden, hsegment⟩ := h.readOnly hfresh hp hflat hreadOnly
  obtain rfl := Option.some.inj (hwindow.symm.trans hwindow')
  have hprivate : ∀ other, segment? machine.spaces s' p = some other → other.writeBack = false := by
    intro other hother
    obtain rfl := Option.some.inj (hsegment.symm.trans hother)
    rw [← Bool.not_eq_true]
    intro hback
    rw [((h.marked hfresh s' p hp).proper _ hsegment).shared hback] at hforbidden
    cases hforbidden
  have hknown : after.Known s' p := hm.known ho hp rfl hprivate hb.known
  -- nothing is stored in the page, for then it would be a changed page that must not be written
  have hunchanged : ¬ StoredIn (stores s first data
      (Transition.copied s first data stackPointer machine)) s' p := by
    intro hstored
    refine (hrun.marked hfresh).not_changed hp ((hm.segment hp hb.known hknown).trans hsegment) hforbidden ?_
    exact ((h.refines hfresh).changed_iff ho hm hp hknown).mpr (.inr hstored)
  have hnone : stores s first data (Transition.copied s first data stackPointer machine) s' (p + k) =
      none := by
    rw [← Option.not_isSome_iff_eq_none]
    exact fun hsome => hunchanged ⟨k, hk, hsome⟩
  obtain ⟨calls, hfiles, hdue⟩ := (hrun.savesChanged hfresh).written moments _ [] _ rfl rfl
  by_cases hwritten : ∃ offset bytes, FileCall.write segment.file offset bytes ∈ calls
  · obtain ⟨offset, bytes, hmem⟩ := hwritten
    exact .inr ⟨offset, bytes, hdue _ hmem⟩
  · have hspared : Files.Spared machine.files after.files segment.file := by
      rw [show after.files = _ from hfiles]
      exact Files.spared_serveAll fun offset bytes hmem => hwritten ⟨offset, bytes, hmem⟩
    have hsafe : Backed (.call (.copyToUser s first data stackPointer)) machine after s' p k :=
      backed_of_spared fun other hother =>
        ⟨hprivate other hother, Option.some.inj (hsegment.symm.trans hother) ▸ hspared⟩
    have hholds := hm.holds ho hp hk hknown hsafe hb
    rw [show (Action.call (.copyToUser s first data stackPointer)).stored machine s' (p + k) = none
      from hnone] at hholds
    exact .inl hholds

/-- A copy that has come to a page that must not be written is denied, unless the fault that is to bring
the page in halts. With frame numbers that fit in entries it halts only because a counter of transfers is
exhausted. -/
theorem Run.copyToUser_denied (hfresh : start.Fresh) (h : Run start moments machine)
    {done rest : List Piece} {piece : Piece} {middle : Machine}
    (hwhole : Piece.all first data.size = done ++ piece :: rest)
    (hdone : Kernel.upToFailure (Transition.storePiece s first data stackPointer) done machine =
      .ok (.ok ()) middle)
    (hflat : flat moments s (pageOf piece.address) = some page) (hreadOnly : page.IsReadOnly) :
    (∃ outcome after,
      (Kernel.copyToUser s first data stackPointer : Transition _) machine = .ok outcome after ∧
      Transition.Denied middle s piece.address stackPointer outcome after) ∨
    ∃ halt after,
      (Kernel.copyToUser s first data stackPointer : Transition _) machine = .error halt after ∧
      (start.frames.capacity ≤ maxFrame + 1 → halt = .overflow ∧ after.Exhausted) := by
  have hp := isAligned_pageOf piece.address
  have ho := h.orderly hfresh.orderly
  obtain ⟨segment, -, hforbidden, hsegment⟩ := h.readOnly hfresh hp hflat hreadOnly
  obtain ⟨⟨_, -, hadvance⟩, hsettled, -⟩ :=
    (Transition.ensures_storePieces ho.settled hwhole stackPointer).of_ok hdone
  obtain ⟨-, hupholds, -⟩ :=
    (Transition.upholds_storePieces ho.settled (h.marked hfresh) hwhole stackPointer).of_ok hdone
  have hsegment' : segment? middle.spaces s (pageOf piece.address) = some segment :=
    (hadvance.segment s _).trans hsegment
  have hcopy : (Kernel.copyToUser s first data stackPointer : Transition _) machine =
      Kernel.upToFailure (Transition.storePiece s first data stackPointer) (piece :: rest) middle := by
    rw [← Transition.upToFailure_append _ hdone, ← hwhole]
    rfl
  rw [hcopy, Kernel.upToFailure]
  rcases Transition.storePiece_denied hsettled hupholds.marked hsegment' hforbidden first data
    stackPointer with ⟨outcome, after, hpiece, hdenied⟩ | ⟨halt, after, hpiece, hfault⟩
  · refine .inl ⟨outcome, after, ?_, hdenied⟩
    rw [Transition.run_bind hpiece]
    rcases hdenied with rfl | ⟨-, cause, rfl, -⟩
    · rfl
    · rfl
  · refine .inr ⟨halt, after, Transition.run_bind_error hpiece _, fun hsmall => ?_⟩
    obtain ⟨info, hinfo, -⟩ := Option.bind_eq_some_iff.mp hsegment'
    have hable : middle.Able := by
      obtain ⟨hs, σ, other, htwin⟩ := h.twin hfresh hsmall
      obtain ⟨_, other', -, σ', htwin'⟩ :=
        (htwin.storePieces hs s first data stackPointer done).of_ok hdone
      refine ⟨hsettled, fun s' q window hwindow => ?_, fun s' q window hwindow => ?_, ?_⟩
      · obtain ⟨info, hinfo, -⟩ := Option.bind_eq_some_iff.mp hwindow
        exact ((hupholds.marked s' q (Settled.fits hsettled hinfo).aligned).proper _ hwindow).fits
      · rw [hadvance.files.size_eq]
        exact ho.backed s' q window (hupholds.segment s' q window hwindow)
      · exact Nat.le_trans (Nat.le_of_eq htwin'.frames.size) hsmall
    exact (Transition.answers_resolveFault hable (lt_size_of_info? hinfo) piece.address stackPointer
      _).of_error hfault

/-- Write protection in the machine of a run that began at `start`. -/
structure WriteProtected (start : Machine) (moments : List Moment) (machine : Machine) : Prop where
  /-- The mark of a mapped page says whether the page may be written, as it was created. -/
  mapped : ∀ s p entry, IsAligned p → mapped? machine.spaces s p = some entry →
    ∃ page, flat moments s p = some page ∧ entry.writable = mayWrite page.window
  /-- So does the mark of a swap copy. -/
  parked : ∀ s p copy, copy? machine.spaces s p = some copy →
    ∃ page, flat moments s p = some page ∧ copy.writable = mayWrite page.window
  /-- Pages of mapped files may be written. -/
  shared : ∀ s p page segment, IsAligned p → flat moments s p = some page →
    page.window = some segment → segment.writeBack = true → segment.writable = true
  /-- A page that must not be written does not count as changed while it is mapped. -/
  clean : ∀ s p page entry, IsAligned p → flat moments s p = some page → page.IsReadOnly →
    mapped? machine.spaces s p = some entry → entry.dirty = false
  /-- Nothing was ever stored in it. -/
  unstored : ∀ s p page k, IsAligned p → flat moments s p = some page → page.IsReadOnly →
    k < pageSize → page.stored k = none
  /-- What a copy stores piece by piece goes to pages that may be written. -/
  stored : ∀ s first data stackPointer done piece rest middle outcome after,
    Piece.all first data.size = done ++ piece :: rest →
    Kernel.upToFailure (Transition.storePiece s first data stackPointer) done machine =
      .ok (.ok ()) middle →
    Transition.storePiece s first data stackPointer piece middle = .ok outcome after →
    match outcome with
    | .ok () => Transition.Stored s data piece middle after
    | .error _ => Serviced {} copyRounds middle after
  /-- A page that must not be written holds after a copy what it held, unless its file was written for a
  changed page of a mapping. -/
  kept : ∀ s first data stackPointer outcome after,
    (Kernel.copyToUser s first data stackPointer : Transition _) machine = .ok outcome after →
    ∀ s' p page segment k b, IsAligned p → flat moments s' p = some page → page.IsReadOnly →
      page.window = some segment → k < pageSize → machine.Holds s' p k b →
      after.Holds s' p k b ∨ ∃ offset bytes, (FileCall.write segment.file offset bytes).Due
        (fun s' q => Changed moments s' q ∨ StoredIn (stores s first data
          (Transition.copied s first data stackPointer machine)) s' q) machine.spaces
  /-- A copy to a range with such a page does not go through. -/
  fails : ∀ s first data stackPointer outcome after i page,
    (Kernel.copyToUser s first data stackPointer : Transition _) machine = .ok outcome after →
    i < data.size → flat moments s (pageOf (first + i)) = some page → page.IsReadOnly →
    outcome ≠ .ok ()
  /-- A copy that has come to such a page is denied, unless the fault that is to bring the page in halts,
  and with frame numbers that fit in entries that is only for an exhausted counter. -/
  denied : ∀ s first data stackPointer done piece rest middle page,
    Piece.all first data.size = done ++ piece :: rest →
    Kernel.upToFailure (Transition.storePiece s first data stackPointer) done machine =
      .ok (.ok ()) middle →
    flat moments s (pageOf piece.address) = some page → page.IsReadOnly →
    (∃ outcome after,
      (Kernel.copyToUser s first data stackPointer : Transition _) machine = .ok outcome after ∧
      Transition.Denied middle s piece.address stackPointer outcome after) ∨
    ∃ halt after,
      (Kernel.copyToUser s first data stackPointer : Transition _) machine = .error halt after ∧
      (start.frames.capacity ≤ maxFrame + 1 → halt = .overflow ∧ after.Exhausted)

/-- Along a run pages are as writable as they were created, and no copy stores in one that is not. -/
theorem Run.writeProtected (hfresh : start.Fresh) (h : Run start moments machine) :
    WriteProtected start moments machine where
  mapped _ _ _ hp hentry := h.writable_mapped hfresh hp hentry
  parked _ _ _ hcopy := h.writable_parked hfresh hcopy
  shared s p page segment hp hflat hwindow :=
    ((h.marked hfresh s p hp).proper segment
      (((h.refines hfresh).window s p page hp hflat).trans hwindow)).shared
  clean s p page entry hp hflat hreadOnly hentry := by
    obtain ⟨page', hflat', hwritable⟩ := h.writable_mapped hfresh hp hentry
    obtain rfl := Option.some.inj (hflat.symm.trans hflat')
    exact Transition.clean_of_marked (h.marked hfresh) hp hentry (hwritable.trans hreadOnly)
  unstored s p page k hp hflat hreadOnly hk := by
    rw [← Option.not_isSome_iff_eq_none]
    exact fun hstored => h.not_changed hfresh hp hflat hreadOnly ⟨page, hflat, k, hk, hstored⟩
  stored s first data stackPointer done piece rest middle outcome after hwhole hdone hpiece := by
    obtain ⟨hsettled, hupholds, -⟩ := (Transition.upholds_storePieces
      (h.orderly hfresh.orderly).settled (h.marked hfresh) hwhole stackPointer).of_ok hdone
    exact Transition.storePiece_writable hsettled hupholds.marked first data stackPointer piece _ _ hpiece
  kept _ _ _ _ _ _ hcopy _ _ _ _ _ _ hp hflat hreadOnly hwindow hk hb :=
    h.holds_readOnly hfresh hcopy hp hflat hreadOnly hwindow hk hb
  fails _ _ _ _ _ _ _ _ hcopy hi hflat hreadOnly := h.copyToUser_ne_ok hfresh hcopy hi hflat hreadOnly
  denied _ _ _ _ _ _ _ _ _ hwhole hdone hflat hreadOnly :=
    h.copyToUser_denied hfresh hwhole hdone hflat hreadOnly

end

/-- A page of a file that must not be written is loaded into the only frame, and a copy that has come to
it is denied. -/
theorem writeProtected_sample : ∃ moments machine entry after, Run .sample moments machine ∧
    mapped? machine.spaces 0 0x10000 = some entry ∧ entry.writable = false ∧
    (Kernel.copyToUser 0 0x10001 #[9] 0 : Transition _) machine =
      .ok (.error (.unrecoverable 0x10001)) after := by
  obtain ⟨moments, machine, h, -, hfacts⟩ := @exists_run .sample
    [.addSpace 1, .addFile (.ofBytes #[1, 2, 3]),
      .call (.registerPage 0 0 0 0x10000 3 4093 false), .call (.growStack 0 0x7ffff000),
      .call (.copyFromUser 0 0x10000 3 0)]
    (fun r => (mapped? r.2.spaces 0 0x10000).isSome = true ∧
      ((flat r.1 0 0x10000).any fun page => page.IsReadOnly) = true ∧
      (match (Kernel.copyToUser 0 0x10001 #[9] 0 : Transition _) r.2 with
        | .ok _ _ => true
        | .error _ _ => false) = true) (by decide +kernel)
  obtain ⟨hmapped, hflat, hanswers⟩ := of_decide_eq_true hfacts
  obtain ⟨entry, hentry⟩ := Option.isSome_iff_exists.mp hmapped
  obtain ⟨page, hflat, hreadOnly⟩ := (Option.any_eq_true ..).mp hflat
  have hprotected := Run.writeProtected Machine.fresh_sample h
  obtain ⟨page', hflat', hwritable⟩ := hprotected.mapped 0 0x10000 entry (by decide) hentry
  obtain rfl := Option.some.inj (hflat.symm.trans hflat')
  have hreadOnly := of_decide_eq_true hreadOnly
  rcases hprotected.denied 0 0x10001 #[9] 0 [] ⟨0x10001, 0, 1⟩ [] machine page rfl rfl hflat
    hreadOnly with ⟨outcome, after, hcopy, rfl | ⟨hnone, -⟩⟩ | ⟨halt, after, hcopy, -⟩
  · exact ⟨moments, machine, entry, after, h, hentry, hwritable.trans hreadOnly, hcopy⟩
  · rw [show mapped? machine.spaces 0 (pageOf 0x10001) = some entry from hentry] at hnone
    cases hnone
  · rw [hcopy] at hanswers
    cases hanswers

end DemandPaging
