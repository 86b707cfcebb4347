import DemandPaging.Proofs.SteadyFaults
import DemandPaging.Proofs.Twins

/-!
# Evictions of twins

Twins that move a page out move the same page out. The clock sees the same list of frames under other
names, and looks at the same marks; so the victims are the same, as they are moved to the same slot or
written to the same file. When a twin is handed a frame by its pool the other one is handed some frame
too, and the renaming changes with it (`Machine.Twin.allocateFor`).
-/

set_option autoImplicit false

namespace DemandPaging

open Spaces Transition

section

variable {sizes : Sizes} {σ : Equiv.Perm Nat} {stale : Option Nat} {a b : Machine} {s : SpaceId}
  {p frame : Nat}

namespace Machine.Twin

/-! ### Transfers -/

/-- A slot is in use for both machines or for none. -/
theorem agree_requireUsed (h : a.Twin sizes σ stale b) {slot : Nat}
    {post : Unit → Unit → Machine → Machine → Prop} (hpost : post () () a b) :
    Agree (requireUsed slot) (requireUsed slot) a b post := by
  refine agree_bind (agree_swap.mpr ?_)
  rw [h.swap]
  exact agree_ite (fun _ => hpost) fun _ => agree_throw .brokenPromise

/-- Whether a window fits on a page has nothing to do with machines. -/
theorem agree_requireWindow {segment : Segment} {post : Unit → Unit → Machine → Machine → Prop}
    (hpost : post () () a b) : Agree (requireWindow segment) (requireWindow segment) a b post :=
  agree_ite (fun _ => hpost) fun _ => agree_throw .outOfBounds

/-- One part of a frame is written to a slot. -/
theorem writePart (h : a.Twin sizes σ stale b) (hout : a.frames.pool.isAllocated frame = true)
    (hstale : stale ≠ some frame) (slot : Nat) (k : Fin sectorsPerPage) :
    Agree (Transition.writePart slot frame k) (Transition.writePart slot (σ frame) k) a b
      fun outcome outcome' a' b' => outcome = outcome' ∧ a'.Twin sizes σ stale b' ∧
        a'.frames = a.frames := by
  refine agree_bind (agree_swap.mpr (agree_bind (h.agree_page hout hstale fun content _ => ?_)))
  rw [h.swap]
  refine agree_bind (agree_ofExcept (corresponds_refl fun result hresult => ?_))
  unfold SwapStore.writePart at hresult
  cases hdisk : a.swap.device.writeDisk (SwapStore.sectorOf slot k) (content.sector k) with
  | error halt => simp only [hdisk, reduceCtorEq] at hresult
  | ok written =>
    simp only [hdisk, Except.ok.injEq] at hresult
    subst hresult
    exact ⟨rfl, h.withSwap rfl rfl (Block.size_of_writeDisk hdisk), rfl⟩

/-- One part of a slot is read over a frame whose bytes are of no account. -/
theorem readPart (h : a.Twin sizes σ (some frame) b) (slot : Nat) (k : Fin sectorsPerPage) :
    Agree (Transition.readPart slot frame k) (Transition.readPart slot (σ frame) k) a b
      (Same sizes σ (some frame)) := by
  refine agree_bind (agree_swap.mpr (agree_bind (h.agree_page_exists frame fun content content' => ?_)))
  rw [h.swap]
  unfold SwapStore.readPart
  cases hdisk : a.swap.device.readDisk (SwapStore.sectorOf slot k) with
  | error halt => exact rfl
  | ok read =>
    obtain ⟨outcome, device⟩ := read
    have hread : Machine.Twin sizes σ (some frame) { a with swap := { a.swap with device } }
        { b with swap := { a.swap with device } } := h.withSwap rfl rfl (Block.size_of_readDisk hdisk)
    cases outcome with
    | error cause => exact ⟨rfl, hread⟩
    | ok sector =>
      exact ⟨rfl, hread.withFrames (hread.frames.setPage (fun _ _ hs => hs) fun hne => absurd rfl hne)⟩

/-- A frame that is out is written to a slot. -/
theorem writeSlot (h : a.Twin sizes σ stale b) (hout : a.frames.pool.isAllocated frame = true)
    (hstale : stale ≠ some frame) (slot : Nat) :
    Agree (Kernel.writeSlot slot frame) (Kernel.writeSlot slot (σ frame)) a b (Same sizes σ stale) := by
  refine agree_bind (h.agree_requireFrame (agree_bind (h.agree_requireUsed ?_)))
  refine (agree_upToFailure (fun a' b' => a'.Twin sizes σ stale b' ∧ a'.frames = a.frames)
    (fun _ a' b' => a'.Twin sizes σ stale b') SwapStore.parts (fun k _ a' b' hinv => ?_)
    ⟨h, rfl⟩).bind ?_
  · obtain ⟨h', hframes⟩ := hinv
    refine agree_bind (agree_swap.mpr ?_)
    rw [h'.swap]
    cases a'.swap.refuseWrite? slot k with
    | some cause => exact ⟨rfl, h'⟩
    | none =>
      refine (h'.writePart (hframes ▸ hout) hstale slot k).mono ?_
      rintro outcome _ a'' b'' ⟨rfl, h'', hframes'⟩
      cases outcome with
      | error cause => exact ⟨rfl, h''⟩
      | ok u => exact ⟨rfl, h'', hframes'.trans hframes⟩
  · rintro outcome _ a' b' ⟨rfl, hafter⟩
    cases outcome with
    | error cause => exact ⟨rfl, hafter⟩
    | ok u => exact ⟨rfl, hafter.1.said _ _⟩

/-- The bytes of a frame are the same after all, so they are of account again. -/
theorem settle (h : a.Twin sizes σ (some frame) b) (hbytes : ∀ k, k < pageSize →
    b.frames.memory.byte? (σ frame) k = a.frames.memory.byte? frame k) : a.Twin sizes σ none b := by
  refine { h with frames := { h.frames with bytes := fun f hf _ k => ?_ } }
  by_cases hframe : frame = f
  · subst f
    by_cases hk : k < pageSize
    · exact hbytes k hk
    · rw [FrameMemory.byte?_eq_none (Nat.le_of_not_lt hk), FrameMemory.byte?_eq_none (Nat.le_of_not_lt hk)]
  · exact h.frames.bytes f hf (fun heq => hframe (Option.some.inj heq)) k

/-- A slot is read over a frame. The bytes of the frame are of account again once all of it was read. -/
theorem readSlot (h : a.Twin sizes σ (some frame) b) (slot : Nat) :
    Agree (Kernel.readSlot slot frame) (Kernel.readSlot slot (σ frame)) a b fun outcome outcome' a b =>
      outcome = outcome' ∧ a.Twin sizes σ (if outcome = .ok () then none else some frame) b := by
  have hboth : Agree (Kernel.readSlot slot frame) (Kernel.readSlot slot (σ frame)) a b
      (Same sizes σ (some frame)) := by
    refine agree_bind (h.agree_requireFrame (agree_bind (h.agree_requireUsed ?_)))
    refine (agree_upToFailure (fun a b => a.Twin sizes σ (some frame) b)
      (fun _ a b => a.Twin sizes σ (some frame) b) SwapStore.parts (fun k _ a b h => ?_) h).bind ?_
    · refine agree_bind (agree_swap.mpr ?_)
      rw [h.swap]
      cases a.swap.refuseRead? slot k with
      | some cause => exact ⟨rfl, h⟩
      | none =>
        refine (h.readPart slot k).mono ?_
        rintro outcome _ a b ⟨rfl, h⟩
        cases outcome <;> exact ⟨rfl, h⟩
    · rintro outcome _ a b ⟨rfl, hafter⟩
      cases outcome with
      | error cause => exact ⟨rfl, hafter⟩
      | ok u => exact ⟨rfl, Twin.said hafter _ _⟩
  refine (hboth.yields (ensures_readSlot slot frame).yields (ensures_readSlot slot (σ frame)).yields).mono ?_
  rintro outcome _ a' b' ⟨⟨rfl, h'⟩, ⟨device, memory, notices, rfl, -, -, -, hread⟩,
    device', memory', notices', rfl, -, -, -, hread'⟩
  refine ⟨rfl, ?_⟩
  split
  · rename_i hok
    refine h'.settle fun k hk => ?_
    rw [hread hok k hk, hread' hok k hk, h.swap]
  · exact h'

/-- The file part of a frame that is out is written back. -/
theorem writeBack (h : a.Twin sizes σ stale b) (hout : a.frames.pool.isAllocated frame = true)
    (hstale : stale ≠ some frame) (segment : Segment) :
    Agree (Kernel.writeBack frame segment) (Kernel.writeBack (σ frame) segment) a b
      (Same sizes σ stale) := by
  refine agree_bind (agree_requireWindow (agree_bind (h.agree_page hout hstale fun content _ => ?_)))
  refine (h.writeFile _ _ _).bind ?_
  rintro outcome _ a b ⟨rfl, h⟩
  cases outcome <;> exact ⟨rfl, h⟩

/-- A frame whose bytes are of no account is filled from a file. -/
theorem fillFrame (h : a.Twin sizes σ (some frame) b) (segment : Segment) (data : Bytes) :
    Agree (Transition.fillFrame frame segment data) (Transition.fillFrame (σ frame) segment data) a b
      (Same sizes σ (some frame)) :=
  agree_bind (h.agree_page_exists frame fun _ _ =>
    h.setPage frame (fun _ _ hs => hs) fun hne => absurd rfl hne)

/-- A window is read into a frame. The bytes of the frame are of account again if all of it was read. -/
theorem readIn (h : a.Twin sizes σ (some frame) b) (segment : Segment) :
    Agree (Kernel.readIn frame segment) (Kernel.readIn (σ frame) segment) a b fun outcome outcome' a b =>
      outcome = outcome' ∧ a.Twin sizes σ
        (if outcome.toOption = some segment.readBytes then none else some frame) b := by
  have hboth : Agree (Kernel.readIn frame segment) (Kernel.readIn (σ frame) segment) a b
      (Same sizes σ (some frame)) := by
    refine agree_bind (agree_requireWindow ?_)
    refine (h.readFile _ _ _).bind ?_
    rintro outcome _ a b ⟨rfl, h⟩
    cases outcome with
    | error cause =>
      refine (h.fillFrame segment #[]).bind ?_
      rintro _ _ a b ⟨-, h⟩
      exact ⟨rfl, h⟩
    | ok data =>
      refine (h.fillFrame segment data).bind ?_
      rintro _ _ a b ⟨-, h⟩
      exact ⟨rfl, h⟩
  refine (hboth.yields (ensures_readIn a.spaces frame segment).yields
    (ensures_readIn a.spaces (σ frame) segment).yields).mono ?_
  rintro outcome _ a' b' ⟨⟨rfl, h'⟩, ⟨files, memory, rfl, -, -, -, hread⟩,
    files', memory', rfl, -, -, -, hread'⟩
  refine ⟨rfl, ?_⟩
  split
  · rename_i hall
    refine h'.settle fun k hk => ?_
    have hfiles : files' = files := h'.files
    rw [hread hall k hk, hread' hall k hk, hfiles]
  · exact h'

/-! ### Choosing a victim -/

/-- The mark of a page is looked at and cleared. -/
theorem testAndClear (h : a.Twin sizes σ stale b) {table table' : FrameTable}
    (ht : table.Twin sizes.frames σ stale table') (index : Nat) :
    Agree ((Kernel.candidates table).testAndClear index) ((Kernel.candidates table').testAndClear index)
      a b (Same sizes σ stale) := by
  unfold Kernel.candidates
  dsimp only
  rw [ht.getElem?]
  cases table.records[index]? with
  | none => exact ⟨rfl, h⟩
  | some r =>
    obtain ⟨frame, owner, page⟩ := r
    cases page with
    | none => exact ⟨rfl, h⟩
    | some page =>
      refine (h.findEntry owner page).bind ?_
      rintro e _ a b ⟨rfl, h⟩
      have hmark : (e.map (·.rename σ)).any (·.accessed) = e.any (·.accessed) := by cases e <;> rfl
      rw [hmark]
      refine agree_ite (fun _ => ?_) fun _ => ⟨rfl, h⟩
      refine (h.setAccessed owner page false).bind ?_
      rintro _ _ a b ⟨-, h⟩
      exact ⟨rfl, h⟩

/-- The clock hand goes round. -/
theorem sweep (h : a.Twin sizes σ stale b) {table table' : FrameTable}
    (ht : table.Twin sizes.frames σ stale table') (visits : List Nat) (fallback : Option Nat) :
    Agree (SecondChance.sweep (Kernel.candidates table) visits fallback)
      (SecondChance.sweep (Kernel.candidates table') visits fallback) a b (Same sizes σ stale) := by
  induction visits generalizing a b fallback with
  | nil => exact ⟨rfl, h⟩
  | cons index rest ih =>
    have heligible : (Kernel.candidates (m := Transition) table').eligible index =
        (Kernel.candidates (m := Transition) table).eligible index := ht.isEligible index
    rw [SecondChance.sweep, SecondChance.sweep, heligible]
    refine agree_ite (fun _ => ?_) fun _ => ih h fallback
    refine (h.testAndClear ht index).bind ?_
    rintro accessed _ a b ⟨rfl, h⟩
    exact agree_ite (fun _ => ih h _) fun _ => ⟨rfl, h⟩

/-- The record that the clock chose is taken out. -/
theorem takeVictim (h : a.Twin sizes σ stale b) (choice : Option Nat) (clock : SecondChance) :
    Agree (Transition.takeVictim choice clock) (Transition.takeVictim choice clock) a b
      fun outcome outcome' a b => outcome' = outcome.map (·.rename σ) ∧ a.Twin sizes σ stale b := by
  refine agree_bind (agree_frames.mpr ?_)
  have ht : FrameTable.Twin sizes.frames σ stale { a.frames with clock } { b.frames with clock } :=
    h.frames.withRecords h.frames.records rfl
  have hchoice : choice.bind (b.frames.records[·]?) =
      (choice.bind (a.frames.records[·]?)).map (·.rename σ) := by
    cases choice with
    | none => rfl
    | some index => exact h.frames.getElem? index
  dsimp only
  rw [hchoice]
  cases choice.bind (a.frames.records[·]?) with
  | none => exact ⟨rfl, h.withFrames ht⟩
  | some victim => exact ⟨rfl, h.withFrames (ht.removeAt clock.hand)⟩

/-- The clock chooses the same victim. -/
theorem chooseVictim (h : a.Twin sizes σ stale b) :
    Agree Kernel.chooseVictim Kernel.chooseVictim a b fun outcome outcome' a b =>
      outcome' = outcome.map (·.rename σ) ∧ a.Twin sizes σ stale b := by
  refine agree_bind (agree_frames.mpr (agree_bind ?_))
  have hsize : b.frames.size = a.frames.size := by
    rw [FrameTable.size, FrameTable.size, h.frames.records, List.length_map]
  unfold SecondChance.select
  rw [h.frames.clock]
  change Agree (SecondChance.sweep _ (a.frames.clock.visits a.frames.size) none >>= _)
    (SecondChance.sweep _ (a.frames.clock.visits b.frames.size) none >>= _) a b _
  rw [hsize]
  refine (h.sweep h.frames _ none).bind ?_
  rintro choice _ a b ⟨rfl, h⟩
  cases choice with
  | none => exact h.takeVictim none _
  | some index => exact h.takeVictim (some index) _

/-! ### Moving a victim out -/

/-- The victim is taken out of both machines under its name in each. -/
theorem detach (h : a.Twin sizes σ stale b) (victim : FrameRecord) :
    Agree (Transition.detach victim) (Transition.detach (victim.rename σ)) a b
      fun transit transit' a b => transit' = transit.rename σ ∧ transit.frame = victim.frame ∧
        a.Twin sizes σ stale b := by
  obtain ⟨frame, owner, page⟩ := victim
  cases page with
  | none => exact agree_throw .brokenPromise
  | some page =>
    refine (h.clear owner page).bind ?_
    rintro e _ a b ⟨rfl, h⟩
    cases e with
    | none => exact ⟨rfl, rfl, h⟩
    | some e =>
      refine agree_bind (h.agree_supplement fun space _ => ?_)
      cases space.supplement.findOrAnonymous page with
      | none => exact ⟨rfl, rfl, h⟩
      | some found =>
        obtain ⟨info, table⟩ := found
        refine (h.setSupplement owner _).bind ?_
        rintro _ _ a b ⟨-, h⟩
        exact ⟨rfl, rfl, h⟩

/-- Both machines release the page of the victim. Its frame is filled with zeroes, whatever was in it. -/
theorem finish (h : a.Twin sizes σ none b) (transit : Transit) (copy : Option SwapCopy) :
    Agree (Transition.finish transit copy) (Transition.finish (transit.rename σ) copy) a b
      (Same sizes σ none) := by
  unfold Transition.finish Transit.rename
  dsimp only
  refine (h.zero transit.frame fun _ _ => by simp).bind ?_
  rintro _ _ a b ⟨-, h⟩
  have hsay : ∀ {a b : Machine}, a.Twin sizes σ none b →
      Agree (do notify (.evicted (← space transit.owner).pid transit.page transit.frame
          (copy.map (·.slot))))
        (do notify (.evicted (← space transit.owner).pid transit.page (σ transit.frame)
          (copy.map (·.slot)))) a b (Same sizes σ none) := fun h =>
    agree_bind (h.agree_space fun _ _ => ⟨rfl, h.said _ _⟩)
  refine agree_ite (fun _ => hsay h) fun _ => ?_
  refine agree_bind (h.agree_supplement fun space _ => ?_)
  cases space.supplement.find? transit.page <;> cases copy
  · exact hsay h
  · exact (h.releaseSlot _).bind fun _ _ _ _ h => hsay h.2
  · exact (h.modifyInfo transit.owner transit.page _).bind fun _ _ _ _ h => hsay h.2
  · exact (h.modifyInfo transit.owner transit.page _).bind fun _ _ _ _ h => hsay h.2

/-- Both machines put the victim back, under its name in each. -/
theorem restore (h : a.Twin sizes σ stale b) (transit : Transit) :
    Agree (Transition.restore transit) (Transition.restore (transit.rename σ)) a b
      (Same sizes σ stale) := by
  have hput : ∀ {a b : Machine}, a.Twin sizes σ stale b →
      Agree (do
          Transition.modifyInfo transit.owner transit.page ({ · with evicting := false })
          let table ← Transition.frames
          setFrames (← Transition.ofExcept (table.insert
            { frame := transit.frame, owner := transit.owner, page := some transit.page } false)))
        (do
          Transition.modifyInfo transit.owner transit.page ({ · with evicting := false })
          let table ← Transition.frames
          setFrames (← Transition.ofExcept (table.insert
            { frame := σ transit.frame, owner := transit.owner, page := some transit.page } false)))
        a b (Same sizes σ stale) := by
    intro a b h
    refine (h.modifyInfo transit.owner transit.page _).bind ?_
    rintro _ _ a b ⟨-, h⟩
    exact agree_bind (agree_frames.mpr (agree_bind (agree_ofExcept
      ((h.frames.insert _ false).mono fun _ _ ht => ⟨rfl, h.withFrames ht⟩))))
  unfold Transition.restore
  cases hentry : transit.entry with
  | none =>
    simp only [Transit.rename, hentry]
    exact hput h
  | some e =>
    simp only [Transit.rename, hentry]
    refine (h.install transit.owner transit.page transit.frame e.writable).bind ?_
    rintro _ _ a b ⟨-, h⟩
    refine (h.setDirty transit.owner transit.page e.dirty).bind ?_
    rintro _ _ a b ⟨-, h⟩
    exact (h.setAccessed transit.owner transit.page e.accessed).bind fun _ _ _ _ h => hput h.2

/-- The same slot is claimed, and the frame goes to it from where it is in each machine. -/
theorem swapOut (h : a.Twin sizes σ stale b) (hout : a.frames.pool.isAllocated frame = true)
    (hstale : stale ≠ some frame) :
    Agree (Kernel.swapOut frame) (Kernel.swapOut (σ frame)) a b (Same sizes σ stale) := by
  have hkept : Transition.allocateSlot.Yields a fun _ after => after.frames = a.frames :=
    yields_allocateSlot.mpr fun _ _ _ => rfl
  refine (h.allocateSlot.left hkept).bind ?_
  rintro slot _ a' b' ⟨⟨rfl, h⟩, hframes⟩
  cases slot with
  | none => exact ⟨rfl, h⟩
  | some slot =>
    refine (h.writeSlot (hframes ▸ hout) hstale slot).bind ?_
    rintro outcome _ a b ⟨rfl, h⟩
    cases outcome with
    | ok u => exact ⟨rfl, h⟩
    | error cause =>
      refine (h.releaseSlot slot).bind ?_
      rintro _ _ a b ⟨-, h⟩
      exact ⟨rfl, h⟩

/-- The contents of the victim go where its plan says, which is the same for both machines. -/
theorem writeOut (h : a.Twin sizes σ stale b) {transit : Transit}
    (hout : a.frames.pool.isAllocated transit.frame = true) (hstale : stale ≠ some transit.frame) :
    Agree (Kernel.writeOut transit) (Kernel.writeOut (transit.rename σ)) a b (Same sizes σ stale) := by
  unfold Kernel.writeOut
  simp only [Transit.rename]
  cases transit.plan with
  | swap writable =>
    refine (h.swapOut hout hstale).bind ?_
    rintro outcome _ a b ⟨rfl, h⟩
    cases outcome <;> exact ⟨rfl, h⟩
  | file segment =>
    refine (h.writeBack hout hstale segment).bind ?_
    rintro outcome _ a b ⟨rfl, h⟩
    cases outcome <;> exact ⟨rfl, h⟩
  | keep | discard => exact ⟨rfl, h⟩

/-- To unmap a page leaves the frames alone. -/
theorem frames_of_detach {machine : Machine} (victim : FrameRecord) :
    (Transition.detach victim).Yields machine fun _ after => after.frames = machine.frames := by
  obtain ⟨frame, s, page⟩ := victim
  cases page with
  | none => exact yields_throw.mpr trivial
  | some p =>
    refine ensures_parted.yields.mono ?_
    rintro transit after ⟨_, _, _, rfl, rfl, -⟩
    rfl

/-- A victim is moved out of its frame, or put back. -/
theorem migrate (h : a.Twin sizes σ none b) {victim : FrameRecord}
    (hout : a.frames.pool.isAllocated victim.frame = true) :
    Agree (Kernel.migrate victim) (Kernel.migrate (victim.rename σ)) a b (Same sizes σ none) := by
  refine ((h.detach victim).left (frames_of_detach victim)).bind ?_
  rintro transit _ a' b' ⟨⟨rfl, hframe, h⟩, hframes⟩
  refine (h.writeOut (by rw [hframes, hframe]; exact hout) (by simp)).bind ?_
  rintro outcome _ a b ⟨rfl, h⟩
  cases outcome with
  | error cause =>
    refine (h.restore transit).bind ?_
    rintro _ _ a b ⟨-, h⟩
    exact ⟨rfl, h⟩
  | ok copy =>
    refine (h.finish transit copy).bind ?_
    rintro _ _ a b ⟨-, h⟩
    exact ⟨rfl, h⟩

end Machine.Twin

/-! ### Frames that are handed out -/

/-- The machines are twins, and frame `f` of one is frame `g` of the other. -/
def Machine.TwinAt (sizes : Sizes) (f g : Nat) (stale : Option Nat) (a b : Machine) : Prop :=
  ∃ σ : Equiv.Perm Nat, σ f = g ∧ a.Twin sizes σ stale b

namespace Machine.Twin

variable {terms : Terms}

/-- Both pools hand out a frame or have none. The frames become one under a renaming that leaves all
frames that are in use with the names they have. -/
theorem alloc (h : a.Twin sizes σ none b) (hs : a.Steady terms [] []) :
    (a.frames.pool.alloc = .ok (none, a.frames.pool) ∧ b.frames.pool.alloc = .ok (none, b.frames.pool)) ∨
      ∃ f g pool pool', a.frames.pool.alloc = .ok (some f, pool) ∧
        b.frames.pool.alloc = .ok (some g, pool') ∧
        Machine.TwinAt sizes f g (some f) { a with frames := { a.frames with pool } }
          { b with frames := { b.frames with pool := pool' } } := by
  have hrecord : ∀ r ∈ a.frames.records, r.frame ∈ a.frames.records.map (·.frame) ++ ([] ++ terms.frames) :=
    fun r hr => List.mem_append_left _ (List.mem_map_of_mem hr)
  rcases h.frames.alloc hs.pool hrecord with hnone | ⟨f, g, pool, pool', halloc, halloc', hsame, ht⟩
  · exact .inl hnone
  refine .inr ⟨f, g, pool, pool', halloc, halloc', moved σ f g, moved_apply σ f g, { h with
    frames := ht
    spaces := h.spaces.trans (renamed_congr fun s p e hp hmapped => (hsame _ ?_).symm) }⟩
  have hframe : frame? a.spaces s p = some e.frame.toNat := by rw [frame?, hmapped, Option.map_some]
  exact hrecord _ (hs.recorded s p _ hp hframe)

/-- The pools are asked once more. -/
theorem lookAgain (h : a.Twin sizes σ none b) (hs : a.Steady terms [] []) :
    Agree Transition.lookAgain Transition.lookAgain a b fun outcome outcome' a' b' =>
      match outcome, outcome' with
      | .error cause, .error cause' => cause' = cause ∧ a' = a ∧ b' = b
      | .ok none, .ok none => a' = a ∧ b' = b
      | .ok (some f), .ok (some g) => a'.TwinAt sizes f g (some f) b'
      | _, _ => False := by
  refine agree_bind (agree_frames.mpr ?_)
  rcases h.alloc hs with ⟨hnone, hnone'⟩ | ⟨f, g, pool, pool', halloc, halloc', hat⟩
  · rw [hnone, hnone']
    refine agree_bind (agree_ofExcept ?_)
    have hempty : b.frames.records.isEmpty = a.frames.records.isEmpty := by
      rw [h.frames.records, List.isEmpty_map]
    change match (if a.frames.records.isEmpty = true then Except.error VmError.outOfFrames else .ok none),
      (if b.frames.records.isEmpty = true then Except.error VmError.outOfFrames else .ok none) with
      | .error cause, .error cause' => cause' = cause ∧ a = a ∧ b = b
      | .ok none, .ok none => a = a ∧ b = b
      | .ok (some f), .ok (some g) => a.TwinAt sizes f g (some f) b
      | _, _ => False
    rw [hempty]
    cases a.frames.records.isEmpty
    · exact ⟨rfl, rfl⟩
    · exact ⟨rfl, rfl, rfl⟩
  · rw [halloc, halloc']
    exact hat

/-- Both find a frame, or the same victim, or neither does. -/
theorem findSource (h : a.Twin sizes σ none b) (hs : a.Steady terms [] []) :
    Agree Kernel.findSource Kernel.findSource a b fun outcome outcome' a b =>
      match outcome, outcome' with
      | .error cause, .error cause' => cause' = cause ∧ a.Twin sizes σ none b
      | .ok (.pool f), .ok (.pool g) => a.TwinAt sizes f g (some f) b
      | .ok (.page victim), .ok (.page victim') => victim' = victim.rename σ ∧
          a.frames.pool.isAllocated victim.frame = true ∧ a.Twin sizes σ none b
      | _, _ => False := by
  refine (h.lookAgain hs).bind ?_
  rintro (cause | (_ | f)) (cause' | (_ | g)) a' b' hlook
  · obtain ⟨rfl, rfl, rfl⟩ := hlook
    exact ⟨rfl, h⟩
  · exact hlook.elim
  · exact hlook.elim
  · exact hlook.elim
  · obtain ⟨rfl, rfl⟩ := hlook
    have hchosen := @Outcomes.chooseVictim _ _ _ _ a' Outcomes.alone fun _ _ heq => heq ▸ .refl _
    refine (h.chooseVictim.left hchosen).bind ?_
    rintro outcome _ a b ⟨⟨rfl, h⟩, hpicked⟩
    cases outcome with
    | error cause => exact ⟨rfl, h⟩
    | ok victim =>
      refine ⟨rfl, ?_, h⟩
      have haccounts := hpicked.accounts _ _ hs.pool
      refine (haccounts.isAllocated_iff _).mpr (List.mem_append_left _ (List.mem_map_of_mem ?_))
      exact hpicked.records.mem_iff.mp List.mem_cons_self
  · exact hlook.elim
  · exact hlook.elim
  · exact hlook.elim
  · exact hlook

/-- Both evict the same page, or neither does. -/
theorem evict (h : a.Twin sizes σ none b) (hs : a.Steady terms [] []) :
    Agree Kernel.evict Kernel.evict a b fun outcome outcome' a b =>
      match outcome, outcome' with
      | .error cause, .error cause' => cause' = cause ∧ a.Twin sizes σ none b
      | .ok (f, clean), .ok (g, clean') => clean' = clean ∧
          a.TwinAt sizes f g (if clean = true then none else some f) b
      | _, _ => False := by
  refine (h.findSource hs).bind ?_
  rintro (cause | (f | victim)) (cause' | (g | victim')) a b hsource
  · exact hsource
  · exact hsource.elim
  · exact hsource.elim
  · exact hsource.elim
  · exact ⟨rfl, hsource⟩
  · exact hsource.elim
  · exact hsource.elim
  · exact hsource.elim
  · obtain ⟨rfl, hout, h⟩ := hsource
    refine (h.migrate hout).bind ?_
    rintro outcome _ a b ⟨rfl, h⟩
    cases outcome with
    | error cause => exact ⟨rfl, h⟩
    | ok u => exact ⟨rfl, σ, rfl, h⟩

/-- Both tables record a frame from their pools, or neither pool has one. -/
theorem allocFree (h : a.Twin sizes σ none b) (hs : a.Steady terms [] []) (s : SpaceId)
    (page : Option Nat) :
    Agree (Transition.allocFree s page) (Transition.allocFree s page) a b fun f g a' b' =>
      match f, g with
      | none, none => a' = a ∧ b' = b
      | some f, some g => a'.TwinAt sizes f g (some f) b'
      | _, _ => False := by
  refine agree_bind (agree_frames.mpr (agree_bind (agree_ofExcept ?_)))
  unfold FrameTable.allocFree
  rcases h.alloc hs with ⟨hnone, hnone'⟩ | ⟨f, g, pool, pool', halloc, halloc', σ', rfl, h'⟩
  · rw [hnone, hnone']
    exact ⟨rfl, rfl⟩
  · rw [halloc, halloc']
    dsimp only
    rcases (h'.frames.insert { frame := f, owner := s, page } page.isSome).cases with
      ⟨halt, hinsert, hinsert'⟩ | ⟨table, table', hinsert, hinsert', ht⟩
    · simp only [FrameRecord.rename] at hinsert'
      rw [hinsert, hinsert']
      exact rfl
    · simp only [FrameRecord.rename] at hinsert'
      rw [hinsert, hinsert']
      exact ⟨σ', rfl, h'.withFrames ht⟩

/-- A frame that is handed over is all zero in both if that was asked for. -/
theorem handOver (clean : Bool) (h : a.Twin sizes σ (if clean = true then none else some frame) b)
    (s : SpaceId) (page : Option Nat) (zeroed : Bool) :
    Agree (Kernel.handOver s page zeroed clean frame) (Kernel.handOver s page zeroed clean (σ frame)) a b
      (Same sizes σ (if zeroed = true then none else some frame)) := by
  have hsay : ∀ {a b : Machine} {stale : Option Nat}, a.Twin sizes σ stale b →
      Agree (do notify (.allocated (← space s).pid frame page))
        (do notify (.allocated (← space s).pid (σ frame) page)) a b (Same sizes σ stale) := fun h =>
    agree_bind (h.agree_space fun _ _ => ⟨rfl, h.said _ _⟩)
  unfold Kernel.handOver
  cases zeroed <;> cases clean
  · exact hsay h
  · exact hsay (h.mono fun _ _ _ => by simp)
  · refine (h.zero frame fun g hg heq => hg (Option.some.inj heq).symm).bind ?_
    rintro _ _ a b ⟨-, h⟩
    exact hsay h
  · exact hsay h

/-- Both hand a frame to a page, or neither does. -/
theorem allocateFor (h : a.Twin sizes σ none b) (hs : a.Steady {} [] []) (s : SpaceId) (page : Nat)
    (zeroed : Bool) :
    Agree (Kernel.allocateFor s page zeroed) (Kernel.allocateFor s page zeroed) a b
      fun outcome outcome' a b =>
        match outcome, outcome' with
        | .error cause, .error cause' => cause' = cause ∧ a.Twin sizes σ none b
        | .ok f, .ok g => a.TwinAt sizes f g (if zeroed = true then none else some f) b
        | _, _ => False := by
  refine (h.allocFree hs s (some page)).bind ?_
  rintro (_ | f) (_ | g) a' b' hfree
  · obtain ⟨rfl, rfl⟩ := hfree
    refine (h.evict hs).bind ?_
    rintro (cause | ⟨f, clean⟩) (cause' | ⟨g, clean'⟩) a b hevict
    · exact hevict
    · exact hevict.elim
    · exact hevict.elim
    · obtain ⟨rfl, σ', rfl, h⟩ := hevict
      refine (h.record f s (some page)).bind ?_
      rintro _ _ a b ⟨-, h⟩
      refine (h.handOver _ s (some page) zeroed).bind ?_
      rintro _ _ a b ⟨-, h⟩
      exact ⟨σ', rfl, h⟩
  · exact hfree.elim
  · exact hfree.elim
  · obtain ⟨σ', rfl, h⟩ := hfree
    refine (handOver false h s (some page) zeroed).bind ?_
    rintro _ _ a b ⟨-, h⟩
    exact ⟨σ', rfl, h⟩

end Machine.Twin

end

end DemandPaging
