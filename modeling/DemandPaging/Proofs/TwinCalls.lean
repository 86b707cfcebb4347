import DemandPaging.Proofs.Histories
import DemandPaging.Proofs.MarkedEvictions
import DemandPaging.Proofs.TwinFaults

/-!
# Calls on twins

Whatever is asked of twins, they answer alike and stay twins. Most operations need no new renaming, since
only a fault brings pages in. What a teardown gives back are the same frames under their names in each,
in the order of the records.

The operations are followed on the left machine as a steady one. That is what makes the frames that its
page directories name frames that are out.
-/

set_option autoImplicit false

namespace DemandPaging

open Spaces Transition

section

variable {sizes : Sizes} {σ : Equiv.Perm Nat} {stale : Option Nat} {a b : Machine} {s : SpaceId}
  {p frame : Nat}

namespace Machine.Twin

/-! ### Registering -/

/-- To register a page looks at tables only, which are the same. -/
theorem registerPage (h : a.Twin sizes σ stale b) (s : SpaceId) (f : FileId)
    (offset page readBytes zeroBytes : Nat) (writable : Bool) :
    Agree (Transition.registerPage s f offset page readBytes zeroBytes writable)
      (Transition.registerPage s f offset page readBytes zeroBytes writable) a b (Same sizes σ stale) := by
  refine agree_ite (fun _ => agree_throw _) fun _ => agree_ite (fun _ => agree_throw _) fun _ => ?_
  refine agree_ite (fun _ => ⟨rfl, h⟩) fun _ => agree_bind (h.agree_supplement fun space _ => ?_)
  split
  · exact ⟨rfl, h⟩
  · refine (h.setSupplement s _).bind ?_
    rintro _ _ a b ⟨-, h⟩
    exact ⟨rfl, h⟩

/-- Pages are registered one by one in both machines, up to the same failure. -/
theorem registerFrom (h : a.Twin sizes σ stale b) (s : SpaceId) (f : FileId)
    (offset page readBytes : Nat) (writable : Bool) (pages i : Nat) :
    Agree (Transition.registerFrom s f offset page readBytes writable pages i)
      (Transition.registerFrom s f offset page readBytes writable pages i) a b (Same sizes σ stale) := by
  induction pages generalizing a b i with
  | zero => exact ⟨rfl, h⟩
  | succ pages ih =>
    refine (h.registerPage s f _ _ _ _ writable).bind ?_
    rintro outcome _ a b ⟨rfl, h⟩
    cases outcome with
    | error cause => exact ⟨rfl, h⟩
    | ok u => exact agree_ite (fun _ => ih h (i + 1)) fun _ => agree_throw .overflow

/-- A segment is registered in both machines, as far as its pages are. -/
theorem registerSegment (h : a.Twin sizes σ stale b) (s : SpaceId) (f : FileId)
    (offset page readBytes zeroBytes : Nat) (writable : Bool) :
    Agree (Transition.registerSegment s f offset page readBytes zeroBytes writable)
      (Transition.registerSegment s f offset page readBytes zeroBytes writable) a b
      (Same sizes σ stale) := by
  rw [registerSegment_eq]
  exact agree_ite (fun _ => agree_throw _) fun _ => agree_ite (fun _ => agree_throw _) fun _ =>
    h.registerFrom s f offset page readBytes writable _ 0

/-! ### Mapping files -/

/-- A page is unused in both machines or in none, since an entry is renamed and not lost. -/
theorem requireUnused (h : a.Twin sizes σ stale b) (s : SpaceId) (page : Nat) :
    Agree (Kernel.requireUnused s page) (Kernel.requireUnused s page) a b (Same sizes σ stale) := by
  refine agree_bind (h.agree_supplement fun space _ => agree_ite (fun _ => ⟨rfl, h⟩) fun _ => ?_)
  refine (h.findEntry s page).bind ?_
  rintro e _ a b ⟨rfl, h⟩
  rw [Option.isSome_map]
  exact agree_ite (fun _ => ⟨rfl, h⟩) fun _ => ⟨rfl, h⟩

/-- The pages of a file are registered one by one in both machines. -/
theorem registerMapped (h : a.Twin sizes σ stale b) (s : SpaceId) (f : FileId)
    (length page pages i : Nat) :
    Agree (Transition.registerMapped s f length page pages i)
      (Transition.registerMapped s f length page pages i) a b (Same sizes σ stale) := by
  induction pages generalizing a b i with
  | zero => exact ⟨rfl, h⟩
  | succ pages ih =>
    refine agree_bind (h.agree_supplement fun space _ => ?_)
    split
    · exact ⟨rfl, h⟩
    · refine (h.setSupplement s _).bind ?_
      rintro _ _ a b ⟨-, h⟩
      exact ih h (i + 1)

/-- A mapping gets the same number in both machines. -/
theorem addMapping (h : a.Twin sizes σ stale b) (s : SpaceId) (mapping : Mapping) :
    Agree (Transition.addMapping s mapping) (Transition.addMapping s mapping) a b (Same sizes σ stale) := by
  refine agree_bind (h.agree_supplement fun space _ => agree_bind (agree_ofExcept ?_))
  refine corresponds_refl fun added _ => (h.setSupplement s added.2).bind ?_
  rintro _ _ a b ⟨-, h⟩
  exact agree_bind (h.agree_space fun _ _ => ⟨rfl, h.said _ _⟩)

/-- A file is mapped in both machines or refused for the same reason. -/
theorem mapFile (h : a.Twin sizes σ stale b) (s : SpaceId) (f : FileId) (page : Nat) :
    Agree (Kernel.mapFile s f page) (Kernel.mapFile s f page) a b (Same sizes σ stale) := by
  refine agree_bind (h.agree_file fun file => agree_ite (fun _ => ⟨rfl, h⟩) fun _ => ?_)
  refine agree_bind (h.agree_supplement fun space _ => agree_ite (fun _ => ⟨rfl, h⟩) fun _ => ?_)
  refine (agree_upToFailure (fun a b => a.Twin sizes σ stale b)
    (fun _ a b => a.Twin sizes σ stale b) _ (fun q _ a b h => ?_) h).bind ?_
  · refine (h.requireUnused s q).mono ?_
    rintro outcome _ a b ⟨rfl, h⟩
    cases outcome <;> exact ⟨rfl, h⟩
  rintro outcome _ a b ⟨rfl, hchecked⟩
  cases outcome with
  | error cause => exact ⟨rfl, hchecked⟩
  | ok u =>
    refine (registerMapped hchecked s f file.size page _ 0).bind ?_
    rintro outcome _ a b ⟨rfl, h⟩
    cases outcome with
    | error cause => exact ⟨rfl, h⟩
    | ok u =>
      refine (h.addMapping s _).bind ?_
      rintro id _ a b ⟨rfl, h⟩
      exact ⟨rfl, h⟩

/-! ### Unmapping files -/

/-- A mapping is taken off both lists. -/
theorem takeMapping (h : a.Twin sizes σ stale b) (s : SpaceId) (id : Nat) :
    Agree (Transition.takeMapping s id) (Transition.takeMapping s id) a b (Same sizes σ stale) := by
  refine agree_bind (h.agree_supplement fun space _ => ?_)
  cases space.supplement.takeMapping id with
  | none => exact ⟨rfl, h⟩
  | some taken =>
    refine (h.setSupplement s taken.2).bind ?_
    rintro _ _ a b ⟨-, h⟩
    exact ⟨rfl, h⟩

/-- A page is forgotten. -/
theorem forget (h : a.Twin sizes σ stale b) (s : SpaceId) (page : Nat) (copy : Option SwapCopy) :
    Agree (Transition.forget s page copy) (Transition.forget s page copy) a b fun e e' a' b' =>
      e' = e.map (·.rename σ) ∧ a'.Twin sizes σ stale b' ∧ a'.frames = a.frames := by
  have hboth : Agree (Transition.forget s page copy) (Transition.forget s page copy) a b fun e e' a b =>
      e' = e.map (·.rename σ) ∧ a.Twin sizes σ stale b := by
    refine agree_bind (h.agree_supplement fun space _ => ?_)
    refine (h.setSupplement s _).bind ?_
    rintro _ _ a b ⟨-, h⟩
    refine (h.clear s page).bind ?_
    rintro e _ a b ⟨rfl, h⟩
    cases copy with
    | none => exact ⟨rfl, h⟩
    | some copy =>
      refine (h.releaseSlot copy.slot).bind ?_
      rintro _ _ a b ⟨-, h⟩
      exact ⟨rfl, h⟩
  refine (hboth.left yields_forget).mono ?_
  rintro e _ a' b' ⟨⟨rfl, h'⟩, -, slots, rfl⟩
  exact ⟨rfl, h', rfl⟩

/-- A changed page is saved, and its frame is given back. -/
theorem saveAndFree (h : a.Twin sizes σ none b) (hout : a.frames.pool.isAllocated frame = true)
    (info : PageInfo) (e : Option PageTableEntry) :
    Agree (Kernel.saveAndFree frame info e) (Kernel.saveAndFree (σ frame) info (e.map (·.rename σ))) a b
      (Same sizes σ none) := by
  have hback : ∀ {a b : Machine} {saved : Except FileError Unit}, a.Twin sizes σ none b →
      a.frames.pool.isAllocated frame = true →
      Agree (do Kernel.free frame; pure (saved.mapError VmError.file))
        (do Kernel.free (σ frame); pure (saved.mapError VmError.file)) a b (Same sizes σ none) := by
    intro a b saved h hout
    refine (h.free hout).bind ?_
    rintro _ _ a b ⟨-, h⟩
    exact ⟨rfl, h⟩
  unfold Kernel.saveAndFree
  cases info.segment? with
  | none => exact hback h hout
  | some segment =>
    cases e with
    | none => exact hback h hout
    | some e =>
      refine agree_ite (fun _ => ?_) fun _ => hback h hout
      refine ((h.writeBack hout (by simp) segment).left (yields_writeBack segment)).bind ?_
      rintro saved _ a' b' ⟨⟨rfl, h'⟩, data, -, rfl⟩
      exact hback h' hout

/-- A frame that was pinned is out. -/
theorem isAllocated_of_pinIfBacking {machine : Machine} (frame : Nat) (owner : SpaceId) (page : Nat) :
    (Transition.pinIfBacking frame owner page).Yields machine fun backs after =>
      backs = true → after.frames.pool.isAllocated frame = true := by
  refine yields_bind.mpr (yields_frames.mpr (yields_bind.mpr (yields_ofExcept.mpr fun result hresult =>
    yields_bind.mpr (yields_setFrames.mpr (yields_pure.mpr ?_)))))
  obtain ⟨backs, table⟩ := result
  rintro rfl
  obtain ⟨-, pool, hpool, rfl⟩ := FrameTable.exists_of_pinIfBacking hresult
  exact FramePool.isAllocated_of_setPinned hpool

/-- One page of a mapping is unmapped. -/
theorem unmapPageIn (h : a.Twin sizes σ none b) (s : SpaceId) (page rounds : Nat) :
    Agree (Kernel.unmapPageIn s page rounds) (Kernel.unmapPageIn s page rounds) a b
      (Same sizes σ none) := by
  induction rounds generalizing a b with
  | zero => exact agree_throw .blocked
  | succ rounds ih =>
    refine agree_bind (h.agree_supplement fun space _ => ?_)
    cases space.supplement.find? page with
    | none => exact ⟨rfl, h⟩
    | some info =>
      refine agree_ite (fun _ => ih h) fun _ => ?_
      refine (h.findEntry s page).bind ?_
      rintro e _ a b ⟨rfl, h⟩
      have hframe : ((e.map (·.rename σ)).map (·.frame.toNat)) = (e.map (·.frame.toNat)).map σ := by
        cases e with
        | none => rfl
        | some e => exact congrArg some (h.frames.renames.toNat_frame e)
      have hnamed : (if info.resident = true then (e.map (·.rename σ)).map (·.frame.toNat) else none) =
          (if info.resident = true then e.map (·.frame.toNat) else none).map σ := by
        rw [hframe]
        split <;> rfl
      dsimp only
      rw [hnamed]
      cases if info.resident = true then e.map (·.frame.toNat) else none with
      | none =>
        refine (h.forget s page info.copy?).bind ?_
        rintro e _ a b ⟨-, h, -⟩
        exact ⟨rfl, h⟩
      | some frame =>
        refine ((h.pinIfBacking frame s page).left (isAllocated_of_pinIfBacking frame s page)).bind ?_
        rintro backs _ a' b' ⟨⟨rfl, h'⟩, hout⟩
        refine agree_ite (fun hbacks => ?_) fun _ => ih h'
        refine (h'.forget s page info.copy?).bind ?_
        rintro e _ a b ⟨rfl, h, hframes⟩
        exact h.saveAndFree (hframes ▸ hout hbacks) info e

/-- A mapping is removed from both machines, page by page. -/
theorem removeMapping (h : a.Twin sizes σ none b) (s : SpaceId) (id : Nat) :
    Agree (Kernel.removeMapping s id) (Kernel.removeMapping s id) a b (Same sizes σ none) := by
  refine (h.takeMapping s id).bind ?_
  rintro taken _ a b ⟨rfl, h⟩
  cases taken with
  | none => exact ⟨rfl, h⟩
  | some mapping =>
    refine (agree_throughFailures (fun a b => a.Twin sizes σ none b) _
      (fun page _ a b h => h.unmapPageIn s page unmapRounds) h).bind ?_
    rintro outcome _ a b ⟨rfl, h⟩
    exact agree_bind (agree_space h fun _ _ => ⟨rfl, Twin.said h _ _⟩)

/-! ### Teardown -/

/-- The same slots are given back. -/
theorem releaseCopies (h : a.Twin sizes σ stale b) (infos : List PageInfo) :
    Agree (Transition.releaseCopies infos) (Transition.releaseCopies infos) a b (Same sizes σ stale) := by
  induction infos generalizing a b with
  | nil => exact ⟨rfl, h⟩
  | cons info rest ih =>
    rw [Transition.releaseCopies]
    cases info.copy? with
    | none => exact ih h
    | some copy => exact (h.releaseSlot copy.slot).bind fun _ _ _ _ h => ih h.2

/-- The entries of a space are dropped in both machines, with the same slots. -/
theorem dropEntries (h : a.Twin sizes σ stale b) (s : SpaceId) :
    Agree (Transition.dropEntries s) (Transition.dropEntries s) a b (Same sizes σ stale) :=
  agree_bind (h.agree_supplement fun _ _ =>
    (h.setSupplement s _).bind fun _ _ _ _ h => h.2.releaseCopies _)

/-- The pages of some frames are unmapped. -/
theorem clearPages (h : a.Twin sizes σ stale b) (records : List FrameRecord) :
    Agree (Transition.clearPages records) (Transition.clearPages (records.map (·.rename σ))) a b
      (Same sizes σ stale) := by
  induction records generalizing a b with
  | nil => exact ⟨rfl, h⟩
  | cons record rest ih =>
    obtain ⟨frame, owner, page⟩ := record
    rw [List.map_cons, Transition.clearPages, Transition.clearPages]
    cases page with
    | none => exact ih h
    | some page => exact (h.clear owner page).bind fun _ _ _ _ h => ih h.2

/-- The frames of a space are given back, in the order of their records. -/
theorem freeOwnedBy (h : a.Twin sizes σ stale b) (hs : a.Steady {} [] []) (s : SpaceId) :
    Agree (Transition.freeOwnedBy s) (Transition.freeOwnedBy s) a b fun gone gone' a b =>
      gone' = gone.map (·.rename σ) ∧ a.Twin sizes σ stale b := by
  obtain ⟨table, htable, -⟩ := FrameTable.freeOwnedBy_eq_ok hs.pool s
  obtain ⟨table', htable', ht⟩ := h.frames.freeOwnedBy htable
  refine agree_bind (agree_frames.mpr (agree_bind (agree_ofExcept ?_)))
  rw [htable, htable']
  refine ((h.withFrames ht).clearPages _).bind ?_
  rintro _ _ a b ⟨-, h⟩
  exact ⟨rfl, h⟩

/-- All mappings of a list are removed from both machines. -/
theorem removeMappings (h : a.Twin sizes σ none b) (s : SpaceId) (ids : List Nat) :
    Agree (Kernel.removeMappings s ids) (Kernel.removeMappings s ids) a b (Same sizes σ none) := by
  induction ids generalizing a b with
  | nil => exact ⟨rfl, h⟩
  | cons id rest ih =>
    refine (h.removeMapping s id).bind ?_
    rintro outcome _ a b ⟨rfl, h⟩
    cases outcome with
    | ok u => exact ih h
    | error cause => exact agree_bind (h.agree_space fun _ _ => ih (h.said _ _))

/-- An address space is torn down. -/
theorem destroy (h : a.Twin sizes σ none b) (hs : a.Steady {} [] []) (s : SpaceId) :
    Agree (Kernel.destroy s) (Kernel.destroy s) a b (Same sizes σ none) := by
  refine agree_bind (h.agree_supplement fun space _ => agree_ite (fun _ => ⟨rfl, h⟩) fun _ => ?_)
  have hremove := Outcomes.alone.removeMappings (s := s) (Terms.allows_of_eq {}) hs
    (fun _ => Terms.idle_default) space.supplement.mappingIds
  refine ((h.removeMappings s _).left hremove).bind ?_
  rintro _ _ a b ⟨⟨-, h⟩, hs⟩
  refine ((h.dropEntries s).left hs.dropEntries).bind ?_
  rintro _ _ a b ⟨⟨-, h⟩, hs, -⟩
  refine (h.freeOwnedBy hs s).bind ?_
  rintro gone _ a b ⟨rfl, h⟩
  exact agree_bind (h.agree_space fun _ _ => ⟨rfl, h.said _ _⟩)

/-! ### Copies -/

section

variable {α : Type} {act : Nat → Transition α}
  (hact : ∀ {σ : Equiv.Perm Nat} {a b : Machine} {frame : Nat}, a.Twin sizes σ none b →
    a.frames.pool.isAllocated frame = true →
      Agree (act frame) (act (σ frame)) a b (Same sizes σ none))

include hact

/-- Something is done with the frame of a page if the page is still there. -/
theorem withFrame (h : a.Twin sizes σ none b) (hs : a.Steady {} [] []) {page : Nat}
    (hp : IsAligned page) (s : SpaceId) (frame : Nat) :
    Agree (Kernel.withFrame s page frame act) (Kernel.withFrame s page (σ frame) act) a b
      (Same sizes σ none) := by
  refine agree_bind (h.agree_requireFrame ?_)
  have hentry : Yields (Kernel.findEntry s page) a fun e after =>
      after = a ∧ e = mapped? a.spaces s page := (ensures_findEntry.mpr fun _ _ => ⟨rfl, rfl⟩).yields
  refine ((h.findEntry s page).left hentry).bind ?_
  rintro e _ a' b' ⟨⟨rfl, h'⟩, rfl, rfl⟩
  have hsame : ((mapped? a'.spaces s page).map (·.rename σ)).map (·.frame.toNat) = some (σ frame) ↔
      (mapped? a'.spaces s page).map (·.frame.toNat) = some frame := by
    cases mapped? a'.spaces s page with
    | none => simp
    | some e =>
      simp only [Option.map_some, h'.frames.renames.toNat_frame, Option.some.injEq, σ.injective.eq_iff]
  by_cases hmapped : (mapped? a'.spaces s page).map (·.frame.toNat) = some frame
  · rw [if_pos hmapped, if_pos (hsame.mpr hmapped)]
    have hrecord := hs.recorded s page frame hp hmapped
    have hout := (hs.pool.isAllocated_iff frame).mpr
      (List.mem_append_left _ (List.mem_map_of_mem (f := FrameRecord.frame) hrecord))
    refine (hact h' hout).bind ?_
    rintro x _ a b ⟨rfl, h⟩
    exact ⟨rfl, h⟩
  · rw [if_neg hmapped, if_neg (mt hsame.mp hmapped)]
    exact ⟨rfl, h'⟩

/-- A piece of a range is reached by both, after the same faults, or by neither. -/
theorem reachIn (h : a.Twin sizes σ none b) (hs : a.Steady {} [] []) (s : SpaceId) (piece : Piece)
    (sp : Nat) (write : Bool) (rounds : Nat)
    (hsteady : ∀ frame (before : Machine), before.Steady {} [] [] →
      (act frame).Yields before fun _ after => after.Steady {} [] []) :
    Agree (Kernel.reachIn s piece sp write act rounds) (Kernel.reachIn s piece sp write act rounds) a b
      (Machine.Paired sizes) := by
  induction rounds generalizing σ a b with
  | zero => exact agree_throw .blocked
  | succ rounds ih =>
    have htranslate := Outcomes.alone.translate (s := s) (Terms.allows_of_eq {}) hs
      (pageOf piece.address) write
    refine ((h.translate s (pageOf piece.address) write).left htranslate).bind ?_
    rintro outcome _ a b ⟨⟨rfl, h⟩, hs⟩
    cases outcome with
    | error code =>
      have hresolve := Outcomes.alone.resolveFault (s := s) (Terms.allows_of_eq {}) hs
        (fun _ => Terms.idle_default) piece.address sp code
      refine ((h.resolveFault hs s piece.address sp code).left hresolve).bind ?_
      rintro outcome _ a b ⟨⟨rfl, σ, h⟩, hs⟩
      cases outcome with
      | error cause => exact ⟨rfl, σ, h⟩
      | ok u => exact ih h hs
    | ok frame =>
      have hwith := Outcomes.alone.withFrame (s := s) (Terms.allows_of_eq {})
        (fun frame before _ => hsteady frame before) hs (isAligned_pageOf piece.address) frame
      refine ((withFrame hact h hs (isAligned_pageOf piece.address) s frame).left hwith).bind ?_
      rintro result _ a b ⟨⟨rfl, h⟩, hs⟩
      cases result with
      | some x => exact ⟨rfl, σ, h⟩
      | none => exact ih h hs

/-- A piece is reached in both machines, if what is done with the frame does the same to twins. -/
theorem reach (h : a.Twin sizes σ none b) (hs : a.Steady {} [] []) (s : SpaceId) (start : Nat)
    (piece : Piece) (sp : Nat) (write : Bool)
    (hsteady : ∀ frame (before : Machine), before.Steady {} [] [] →
      (act frame).Yields before fun _ after => after.Steady {} [] []) :
    Agree (Kernel.reach s start piece sp write act) (Kernel.reach s start piece sp write act) a b
      (Machine.Paired sizes) :=
  agree_ite (fun _ => ⟨rfl, σ, h⟩) fun _ => agree_ite (fun _ => ⟨rfl, σ, h⟩) fun _ =>
    reachIn hact h hs s piece sp write copyRounds hsteady

end

/-- Twins take the same pieces of some data. -/
theorem storePieces (h : a.Twin sizes σ none b) (hs : a.Steady {} [] []) (s : SpaceId) (start : Nat)
    (data : Bytes) (sp : Nat) (pieces : List Piece) :
    Agree (Kernel.upToFailure (Transition.storePiece s start data sp) pieces)
      (Kernel.upToFailure (Transition.storePiece s start data sp) pieces) a b
      (Machine.Paired sizes) := by
  refine (agree_upToFailure (fun a b => (∃ σ, a.Twin sizes σ none b) ∧ a.Steady {} [] [])
    (fun _ a b => ∃ σ, a.Twin sizes σ none b) _ ?_ ⟨⟨σ, h⟩, hs⟩).mono ?_
  · rintro piece - a b ⟨⟨σ, h⟩, hs⟩
    have hkeeps : ∀ frame (before : Machine), before.Steady {} [] [] →
        (Transition.writeFrame frame (pageOffset piece.address)
          (data.window piece.done piece.size)).Yields before fun _ after => after.Steady {} [] [] :=
      fun frame before hbefore => steady_writeFrame hbefore List.not_mem_nil _ _
    have hsteady := Outcomes.alone.reach (s := s) (Terms.allows_of_eq {}) (fun _ => Terms.idle_default)
      (fun frame before _ => hkeeps frame before) start piece sp true hs
    refine ((reach (fun h hout => h.writeFrame hout (by simp) _ _) h hs s start piece sp true
      hkeeps).left hsteady).mono ?_
    rintro outcome _ a b ⟨⟨rfl, hpaired⟩, hs⟩
    cases outcome with
    | error cause => exact ⟨rfl, hpaired⟩
    | ok u => exact ⟨rfl, hpaired, hs⟩
  · rintro outcome _ a b ⟨rfl, hafter⟩
    cases outcome with
    | error cause => exact ⟨rfl, hafter⟩
    | ok u => exact ⟨rfl, hafter.1⟩

/-- Twins take the same data. -/
theorem copyToUser (h : a.Twin sizes σ none b) (hs : a.Steady {} [] []) (s : SpaceId) (start : Nat)
    (data : Bytes) (sp : Nat) :
    Agree (Kernel.copyToUser s start data sp) (Kernel.copyToUser s start data sp) a b
      (Machine.Paired sizes) := h.storePieces hs s start data sp _

/-- Twins have the same data. -/
theorem copyFromUser (h : a.Twin sizes σ none b) (hs : a.Steady {} [] []) (s : SpaceId)
    (start length sp : Nat) :
    Agree (Kernel.copyFromUser s start length sp) (Kernel.copyFromUser s start length sp) a b
      (Machine.Paired sizes) := by
  suffices general : ∀ pieces data (σ : Equiv.Perm Nat) (a b : Machine), a.Twin sizes σ none b →
      a.Steady {} [] [] → Agree (Kernel.copyPieces s start sp pieces data)
        (Kernel.copyPieces s start sp pieces data) a b (Machine.Paired sizes) from
    general _ _ σ a b h hs
  intro pieces
  induction pieces with
  | nil => exact fun data σ a b h _ => ⟨rfl, σ, h⟩
  | cons piece rest ih =>
    intro data σ a b h hs
    have hkeeps : ∀ frame (before : Machine), before.Steady {} [] [] →
        (Transition.readFrame frame (pageOffset piece.address) piece.size).Yields before
          fun _ after => after.Steady {} [] [] :=
      fun frame before hbefore => (ensures_readFrame.mpr fun _ _ _ => hbefore).yields
    have hsteady := Outcomes.alone.reach (s := s) (Terms.allows_of_eq {}) (fun _ => Terms.idle_default)
      (fun frame before _ => hkeeps frame before) start piece sp false hs
    refine ((reach (fun h hout => h.readFrame hout (by simp) _ _) h hs s start piece sp false
      hkeeps).left hsteady).bind ?_
    rintro outcome _ a b ⟨⟨rfl, σ, h⟩, hs⟩
    cases outcome with
    | error cause => exact ⟨rfl, σ, h⟩
    | ok bytes => exact ih _ σ a b h hs

end Machine.Twin

end

end DemandPaging
