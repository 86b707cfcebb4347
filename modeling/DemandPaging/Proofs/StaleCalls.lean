import DemandPaging.Proofs.Replays
import DemandPaging.Proofs.StaleEvictions

/-!
# The frame table asked directly

Callers may use the frame table without the care that the memory manager takes: they may bind a frame to any
page, name frames that are not in use any more or never were, and map, unmap and mark pages as they like.
A `TableAction` is one thing that they may do, and `Machine.Strayed start actions machine` says that the
machine is what some of them have made of `start`.

No such call halts, unless a counter of sector transfers is exhausted, and no frame is lost or counted twice
(`Machine.Conserves`): the records name different frames, all of them out of the pool, and no other frame is
out. A call that names a frame without a record changes nothing.
-/

set_option autoImplicit false

namespace DemandPaging

open Spaces Machine

/-- What may be done by those who use the frame table directly, and beside it. -/
inductive TableAction where
  /-- A call of the frame table, or something from outside. -/
  | act (action : Action)
  /-- Map a page. -/
  | map (s : SpaceId) (page frame : Nat) (writable : Bool)
  /-- Unmap a page. -/
  | unmap (s : SpaceId) (page : Nat)
  /-- Set or clear the accessed flag of a page. -/
  | setAccessed (s : SpaceId) (page : Nat) (on : Bool)
  /-- Set or clear the dirty flag of a page. -/
  | setDirty (s : SpaceId) (page : Nat) (on : Bool)

/-- The call is one of the frame table. It names pages by their first address and a space that there is;
frames it may name as it likes. -/
def Call.OfTable (machine : Machine) : Call → Prop
  | allocate s _ | freeOwnedBy s => s < machine.spaces.size
  | allocateFor s page _ => s < machine.spaces.size ∧ IsAligned page
  | bind _ page => IsAligned page
  | unpin _ | free _ => True
  | registerPage .. | registerSegment .. | mapFile .. | unmapFile .. | resolveFault .. | handleFault ..
  | growStack .. | copyFromUser .. | copyToUser .. | destroy .. => False

/-- Whether a call is one of the frame table can be computed. -/
instance (machine : Machine) : (c : Call) → Decidable (c.OfTable machine)
  | .allocate .. | .freeOwnedBy .. => inferInstanceAs (Decidable (_ < _))
  | .allocateFor .. => inferInstanceAs (Decidable (_ ∧ _))
  | .bind .. => inferInstanceAs (Decidable (_ = _))
  | .unpin _ | .free _ => inferInstanceAs (Decidable True)
  | .registerPage .. | .registerSegment .. | .mapFile .. | .unmapFile .. | .resolveFault ..
  | .handleFault .. | .growStack .. | .copyFromUser .. | .copyToUser .. | .destroy .. =>
    inferInstanceAs (Decidable False)

namespace TableAction

/-- Carry out an action. -/
def step : TableAction → Transition Unit
  | act action => do
    let _ ← action.step
    pure ()
  | map s page frame writable => do
    let _ ← Transition.install s page frame writable
    pure ()
  | unmap s page => do
    let _ ← Transition.clear s page
    pure ()
  | setAccessed s page on => Transition.setAccessed s page on
  | setDirty s page on => Transition.setDirty s page on

/-- A space that is named exists, a page that is named for a frame is aligned, and the number of a frame to
which a page is mapped fits in an entry. -/
def Permitted (machine : Machine) : TableAction → Prop
  | act (.call c) => c.OfTable machine
  | act _ => True
  | map s page frame _ => s < machine.spaces.size ∧ IsAligned page ∧ frame ≤ maxFrame
  | unmap s _ => s < machine.spaces.size
  | setAccessed .. | setDirty .. => True

/-- Whether an action on a frame table is permitted can be computed, so actions can be replayed. -/
instance (machine : Machine) : (action : TableAction) → Decidable (action.Permitted machine)
  | act (.call c) => inferInstanceAs (Decidable (c.OfTable machine))
  | act (.addSpace _) | act (.addFile _) | act (.changeFile ..) | act (.turnDisk ..) =>
    inferInstanceAs (Decidable True)
  | map .. => inferInstanceAs (Decidable (_ ∧ _))
  | unmap .. => inferInstanceAs (Decidable (_ < _))
  | setAccessed .. | setDirty .. => inferInstanceAs (Decidable True)

end TableAction

/-- The machine that permitted actions, oldest first, have made of `start`. -/
inductive Machine.Strayed (start : Machine) : List TableAction → Machine → Prop where
  /-- Nothing has happened yet. -/
  | nil : Strayed start [] start
  /-- One more action was carried out. -/
  | snoc {actions : List TableAction} {before after : Machine} {action : TableAction}
      (h : Strayed start actions before) (hpermitted : action.Permitted before)
      (hstep : action.step before = .ok () after) : Strayed start (actions ++ [action]) after

/-- Carry out some actions. There is no answer if one of them is not permitted or halts. -/
def TableAction.replay (start : Machine) (actions : List TableAction) : Option Machine :=
  actions.foldlM (fun before action =>
    if action.Permitted before then
      match action.step before with
      | .ok _ after => some after
      | .error _ _ => none
    else none) start

/-- All frames are free and all swap slots are. Spaces, files and the device may be any, but windows fit in a
page and are in files. -/
structure Machine.Unhanded (machine : Machine) (frames : Nat) : Prop where
  frames : ∃ placement, machine.frames = .ofSize frames placement
  slots : ∃ count, machine.swap.slots = .ofCount count
  windows : ∀ s p segment, segment? machine.spaces s p = some segment →
    segment.readBytes ≤ pageSize ∧ segment.file < machine.files.size

/-- No frame is lost and none is counted twice, and nothing that callers may do next halts. -/
structure Machine.Conserves (machine : Machine) : Prop where
  /-- Records name different frames. -/
  nodup : (machine.frames.records.map (·.frame)).Nodup
  /-- Their frames are out of the pool. -/
  allocated : ∀ record ∈ machine.frames.records, machine.frames.pool.isAllocated record.frame = true
  /-- No other frame is. -/
  size_eq : machine.frames.size = machine.frames.allocated
  le_capacity : machine.frames.allocated ≤ machine.frames.capacity
  /-- Whatever is done next does not halt, unless a counter of transfers is exhausted. -/
  answers : ∀ action : TableAction, action.Permitted machine →
    Transition.Answers action.step machine fun _ _ => True
  /-- To bind a frame without a record does nothing. -/
  bind_unknown : ∀ frame page, machine.frames.record? frame = none →
    (TableAction.act (.call (.bind frame page))).step machine =
      .ok () { machine with notices := machine.notices.push (.bindUnknown frame) }
  /-- Neither does it to unpin one. -/
  unpin_unknown : ∀ frame, machine.frames.record? frame = none →
    (TableAction.act (.call (.unpin frame))).step machine = .ok () machine
  /-- Nor to give one back. -/
  free_unknown : ∀ frame, machine.frames.record? frame = none →
    (TableAction.act (.call (.free frame))).step machine =
      .ok () { machine with notices := machine.notices.push (.freeUnknown frame) }

/-- A frame without a record has no place in the list. -/
theorem FrameTable.position?_eq_none {table : FrameTable} {frame : Nat} (h : table.record? frame = none) :
    table.position? frame = none := by
  rw [record?, List.find?_eq_none] at h
  rw [position?, List.findIdx?_eq_none_iff]
  exact fun r hr => by simpa using h r hr

namespace Machine.Balanced

variable {m m' : Machine} {count : Nat} {s : SpaceId} {frame : Nat}

/-- A machine whose frames and slots are all free is balanced. -/
theorem of_unhanded {frames : Nat} (h : m.Unhanded frames) (hsmall : frames ≤ maxFrame + 1) :
    m.Balanced m.spaces.size [] := by
  obtain ⟨⟨placement, hframes⟩, ⟨slots, hslots⟩, hwindows⟩ := h
  have hmemory : m.frames.memory.size = frames := by
    rw [hframes]
    exact Array.size_replicate
  have hcapacity : m.frames.pool.capacity = frames := by
    rw [hframes]
    exact Array.size_replicate
  have hrecords : m.frames.records = [] := by rw [hframes]; rfl
  constructor
  case pool =>
    rw [hrecords, hframes]
    exact ⟨[], FramePool.accounts_ofSize frames placement⟩
  case capacity => exact hcapacity.trans hmemory.symm
  case small => exact hmemory.symm ▸ hsmall
  case spaces => rfl
  case owner =>
    rw [hrecords]
    exact nofun
  case aligned =>
    rw [hrecords]
    exact nofun
  case sound => exact hslots ▸ SlotBitmap.sound_ofCount slots
  case windows => exact hwindows

/-- Something was done from outside. -/
theorem outside (h : m.Balanced count []) (ho : Outside m m') : m'.Balanced m'.spaces.size [] := by
  have hle : ∀ s, s < count → s < m'.spaces.size := by
    intro s hs
    rw [← h.spaces, lt_size_iff] at hs
    rw [lt_size_iff]
    rcases ho.standing s with hsame | ⟨hnone, -⟩
    · rw [hsame]
      exact hs
    · rw [hnone] at hs
      cases hs
  constructor
  case pool => exact ho.frames ▸ h.pool
  case capacity => exact ho.frames ▸ h.capacity
  case small => exact ho.frames ▸ h.small
  case spaces => rfl
  case owner =>
    rw [ho.frames]
    exact fun r hr => hle _ (h.owner r hr)
  case aligned => exact ho.frames ▸ h.aligned
  case sound => exact ho.slots ▸ h.sound
  case windows =>
    intro s p segment hsegment
    rw [segment?, ho.info] at hsegment
    obtain ⟨hfits, hlt⟩ := h.windows s p segment hsegment
    exact ⟨hfits, Nat.lt_of_lt_of_le hlt ho.files⟩

end Machine.Balanced

namespace Transition

variable {machine : Machine} {count : Nat} {s : SpaceId} {frame : Nat} {page : Option Nat}

/-! ### Frames are handed out -/

/-- A free frame is recorded, if there is one. -/
theorem answers_allocFree (h : machine.Balanced count []) (hs : s < count)
    (hpage : ∀ p, page = some p → IsAligned p) :
    Answers (allocFree s page) machine fun frame? after =>
      after.Balanced count [] ∧ ∀ frame ∈ frame?, frame < after.frames.memory.size := by
  obtain ⟨frame?, pool, halloc, hasked⟩ := h.alloc
  cases frame? with
  | none =>
    simp only [allocFree, answers_bind, answers_frames, FrameTable.allocFree, halloc, ofExcept,
      answers_pure, answers_setFrames]
    exact ⟨hasked, nofun⟩
  | some frame =>
    obtain ⟨table, hinsert, hmem, hinserted⟩ := hasked.insert hs hpage page.isSome
    simp only [allocFree, answers_bind, answers_frames, FrameTable.allocFree, halloc, hinsert, ofExcept,
      answers_pure, answers_setFrames]
    refine ⟨hinserted, fun frame' hframe' => ?_⟩
    obtain rfl := Option.some.inj hframe'
    exact hinserted.lt_size (List.mem_append_left _ hmem)

/-- A frame that an eviction has made free is recorded. -/
theorem answers_record (h : machine.Balanced count [frame]) (hs : s < count)
    (hpage : ∀ p, page = some p → IsAligned p) :
    Answers (record frame s page) machine fun _ after =>
      after.Balanced count [] ∧ frame < after.frames.memory.size := by
  obtain ⟨table, hinsert, hmem, hinserted⟩ := h.insert hs hpage page.isSome
  simp only [record, answers_bind, answers_frames, hinsert, ofExcept, answers_pure, answers_setFrames]
  exact ⟨hinserted, hinserted.lt_size (List.mem_append_left _ hmem)⟩

/-- A frame is handed over. -/
theorem answers_handOver (h : machine.Balanced count []) (hs : s < count)
    (hframe : frame < machine.frames.memory.size) (zeroed clean : Bool) :
    Answers (Kernel.handOver s page zeroed clean frame) machine fun _ after =>
      after.Balanced count [] := by
  simp only [Kernel.handOver, holding_eq, lift_eq]
  split
  · have hblank := h.setPage frame Page.blank
    obtain ⟨space, hspace⟩ := hblank.getElem?_space hs
    rw [answers_bind]
    refine (finishes_zero hframe ?_).answers
    rw [answers_bind]
    refine (answers_space hspace).mpr ?_
    exact answers_notify.mpr (hblank.said _)
  · obtain ⟨space, hspace⟩ := h.getElem?_space hs
    rw [answers_bind]
    refine (answers_space hspace).mpr ?_
    exact answers_notify.mpr (h.said _)

/-- A space asks for a frame and gets one, or an eviction for it was refused. -/
theorem answers_allocateRecord (h : machine.Balanced count []) (hs : s < count)
    (hpage : ∀ p, page = some p → IsAligned p) (zeroed : Bool) :
    Answers (Kernel.allocateRecord s page zeroed) machine fun _ after => after.Balanced count [] := by
  simp only [Kernel.allocateRecord, holding_eq, lift_eq, answers_bind]
  refine (answers_allocFree h hs hpage).mono ?_
  rintro found middle ⟨hmiddle, hlt⟩
  cases found with
  | some frame =>
    simp only [answers_bind, answers_pure]
    exact answers_handOver hmiddle hs (hlt frame rfl) zeroed false
  | none =>
    simp only [answers_bind]
    refine (answers_evict_balanced hmiddle).mono fun outcome evicted hevicted => ?_
    cases outcome with
    | error cause => exact hevicted
    | ok result =>
      obtain ⟨frame, clean⟩ := result
      simp only [answers_bind, answers_pure]
      refine (answers_record hevicted hs hpage).mono ?_
      rintro _ recorded ⟨hrecorded, hframe⟩
      exact answers_handOver hrecorded hs hframe zeroed clean

/-! ### Frames that may be stale -/

/-- A frame is bound to a page, if it has a record. -/
theorem answers_bind_stale (h : machine.Balanced count []) (frame : Nat) {p : Nat} (hp : IsAligned p) :
    Answers (bind frame p) machine fun _ after => after.Balanced count [] := by
  simp only [bind, answers_bind, answers_frames]
  cases hindex : machine.frames.position? frame with
  | none => exact answers_notify.mpr (h.said _)
  | some index =>
    obtain ⟨front, record, rear, hsplit, -, rfl⟩ := FrameTable.exists_split hindex
    have hmodify : (front ++ record :: rear).modify front.length ({ · with page := some p }) =
        front ++ { record with page := some p } :: rear :=
      List.modifyTailIdx_add _ 0 front (record :: rear)
    have hbound : machine.frames.bind frame p =
        { machine.frames with records := front ++ { record with page := some p } :: rear } := by
      simp only [FrameTable.bind, hindex, hsplit, hmodify]
    rw [answers_setFrames, hbound]
    obtain ⟨pinned, hpool⟩ := h.pool
    refine h.reshelve ⟨pinned, ?_⟩ rfl rfl fun r hr => ?_
    · rw [hsplit] at hpool
      simpa using hpool
    · rcases List.mem_append.mp hr with hr | hr
      · have hmem : r ∈ machine.frames.records := hsplit ▸ List.mem_append_left _ hr
        exact ⟨h.owner r hmem, h.aligned r hmem⟩
      · rcases List.mem_cons.mp hr with rfl | hr
        · have hmem : record ∈ machine.frames.records := by simp [hsplit]
          exact ⟨h.owner record hmem, fun q hq => Option.some.inj hq ▸ hp⟩
        · have hmem : r ∈ machine.frames.records := by simp [hsplit, hr]
          exact ⟨h.owner r hmem, h.aligned r hmem⟩

/-- A frame is unpinned, if it has a record. -/
theorem answers_unpin_stale (h : machine.Balanced count []) (frame : Nat) :
    Answers (unpin frame) machine fun _ after => after.Balanced count [] := by
  simp only [unpin, answers_bind, answers_frames, FrameTable.unpin]
  cases hindex : machine.frames.position? frame with
  | none => exact h
  | some index =>
    obtain ⟨front, record, rear, hsplit, rfl, -⟩ := FrameTable.exists_split hindex
    have hmem : record ∈ machine.frames.records := by simp [hsplit]
    obtain ⟨pinned, hpool⟩ := h.pool
    obtain ⟨pool, hset⟩ :=
      hpool.exists_setPinned (List.mem_append_left _ (List.mem_map_of_mem hmem)) false
    obtain ⟨hcapacity, -, haccounts⟩ := hpool.setPinned hset
    simp only [hset, ofExcept, answers_pure, answers_setFrames]
    exact h.reshelve ⟨_, haccounts⟩ hcapacity rfl fun r hr => ⟨h.owner r hr, h.aligned r hr⟩

/-- A frame is given back, if it has a record. -/
theorem answers_free_stale (h : machine.Balanced count []) (frame : Nat) :
    Answers (free frame) machine fun _ after => after.Balanced count [] := by
  simp only [free, answers_bind, answers_frames]
  cases hindex : machine.frames.position? frame with
  | none => exact answers_notify.mpr (h.said _)
  | some index =>
    obtain ⟨front, record, rear, hsplit, rfl, rfl⟩ := FrameTable.exists_split hindex
    obtain ⟨pinned, hpool⟩ := h.pool
    have hout : machine.frames.pool.Accounts (record.frame :: (front ++ rear).map (·.frame)) pinned := by
      refine hpool.perm ?_ fun _ => Iff.rfl
      rw [List.append_nil, hsplit]
      exact List.perm_middle.map _
    obtain ⟨pool, hdealloc, hcapacity, haccounts⟩ := hout.dealloc
    have hremoved := FrameTable.records_removeAt hsplit
    simp only [FrameTable.free, hindex, hdealloc, ofExcept, answers_bind, answers_pure, answers_setFrames]
    rw [← List.append_nil ((front ++ rear).map _), ← hremoved] at haccounts
    refine h.reshelve ⟨_, haccounts⟩ hcapacity rfl fun r hr => ?_
    have hmem : r ∈ machine.frames.records := by
      rw [hremoved] at hr
      rw [hsplit]
      simp only [List.mem_append, List.mem_cons] at hr ⊢
      tauto
    exact ⟨h.owner r hmem, h.aligned r hmem⟩

/-- All frames of a space are given back, and their pages are unmapped. -/
theorem answers_freeOwnedBy (h : machine.Balanced count []) (s : SpaceId) :
    Answers (freeOwnedBy s) machine fun _ after => after.Balanced count [] := by
  obtain ⟨pinned, hpool⟩ := h.pool
  obtain ⟨table, pinned', htable, hrecords, hmemory, hcapacity, -, haccounts⟩ :=
    FrameTable.exists_freeOwnedBy hpool s
  have hdropped : Balanced count [] { machine with frames := table } := by
    refine h.reshelve ⟨pinned', haccounts⟩ hcapacity hmemory fun r hr => ?_
    rw [hrecords] at hr
    have hmem := List.mem_of_mem_filter hr
    exact ⟨h.owner r hmem, h.aligned r hmem⟩
  simp only [freeOwnedBy, answers_bind, answers_frames, htable, ofExcept, answers_pure, answers_setFrames]
  refine ((finishes_clearPages _ fun r hr => ?_).answers.ensures
    (ensures_clearPages _ fun r hr => h.aligned r (List.mem_of_mem_filter hr))).mono ?_
  · exact h.spaces.symm ▸ h.owner r (List.mem_of_mem_filter hr)
  · rintro _ _ ⟨hsize, spaces, rfl, hinfo, -⟩
    exact hdropped.within (within_of_info hsize hinfo)

/-- A frame without a record is neither bound nor unpinned nor given back. -/
theorem run_unknown (h : machine.frames.record? frame = none) (p : Nat) :
    bind frame p machine = .ok () { machine with notices := machine.notices.push (.bindUnknown frame) } ∧
      unpin frame machine = .ok () machine ∧
      free frame machine =
        .ok () { machine with notices := machine.notices.push (.freeUnknown frame) } := by
  have hnone := FrameTable.position?_eq_none h
  have hframes : frames machine = .ok machine.frames machine := rfl
  refine ⟨?_, ?_, ?_⟩
  · rw [bind, run_bind hframes, hnone]
    rfl
  · rw [unpin, run_bind hframes, FrameTable.unpin, hnone]
    rfl
  · rw [free, run_bind hframes, hnone]
    rfl

/-! ### What is kept -/

/-- A call of the frame table loses no frame. -/
theorem answers_perform_stale (h : machine.Balanced count []) {c : Call} (hc : c.OfTable machine) :
    Answers (Kernel.perform c) machine fun _ after => after.Balanced count [] := by
  cases c with
  | allocate s zeroed =>
    simp only [Kernel.perform, Kernel.allocate, answers_bind, answers_pure]
    exact answers_allocateRecord h (h.spaces ▸ hc) (by simp) zeroed
  | allocateFor s p zeroed =>
    simp only [Kernel.perform, Kernel.allocateFor, answers_bind, answers_pure]
    exact answers_allocateRecord h (h.spaces ▸ hc.1) (fun q hq => Option.some.inj hq ▸ hc.2) zeroed
  | bind frame p =>
    simp only [Kernel.perform, Kernel.bindPage, holding_eq, lift_eq, answers_bind, answers_pure]
    exact answers_bind_stale h frame hc
  | unpin frame =>
    simp only [Kernel.perform, Kernel.unpin, holding_eq, lift_eq, answers_bind, answers_pure]
    exact answers_unpin_stale h frame
  | free frame =>
    simp only [Kernel.perform, Kernel.free, holding_eq, lift_eq, answers_bind, answers_pure]
    exact answers_free_stale h frame
  | freeOwnedBy s =>
    simp only [Kernel.perform, Kernel.freeOwnedBy, holding_eq, lift_eq, answers_bind, answers_pure]
    exact answers_freeOwnedBy h s
  | registerPage | registerSegment | mapFile | unmapFile | resolveFault | handleFault | growStack
  | copyFromUser | copyToUser | destroy => exact hc.elim

/-- Neither does what is done from outside. -/
theorem answers_outside (h : machine.Balanced count []) {action : Action}
    (hcall : ∀ c, action ≠ .call c) :
    Answers action.step machine fun _ after => after.Balanced after.spaces.size [] := by
  have hends : Finishes action.step machine fun _ _ => True := by
    cases action with
    | call c => exact absurd rfl (hcall c)
    | addSpace | addFile | changeFile | turnDisk => exact ⟨_, _, rfl, trivial⟩
  exact (hends.answers.ensures (ensures_outside hcall)).mono fun _ _ hafter => h.outside hafter.2

/-- What one permitted action keeps: every frame that is out has one record. -/
theorem answers_step (h : machine.Balanced count []) {action : TableAction}
    (hpermitted : action.Permitted machine) :
    Answers action.step machine fun _ after => after.Balanced after.spaces.size [] := by
  have hsize : ∀ {after : Machine}, after.Balanced count [] → after.Balanced after.spaces.size [] :=
    fun hafter => hafter.spaces.symm ▸ hafter
  cases action with
  | act action =>
    simp only [TableAction.step, answers_bind, answers_pure]
    cases action with
    | call c => exact (answers_perform_stale h hpermitted).mono fun _ _ hafter => hsize hafter
    | addSpace | addFile | changeFile | turnDisk => exact answers_outside h (by simp)
  | map s page frame writable =>
    obtain ⟨hs, hp, hframe⟩ := hpermitted
    simp only [TableAction.step, answers_bind, answers_pure]
    refine (answers_install hs hp hframe writable).mono ?_
    rintro _ _ ⟨spaces, rfl, hwithin⟩
    exact hsize (h.within hwithin)
  | unmap s page =>
    simp only [TableAction.step, answers_bind, answers_pure]
    refine (finishes_clear hpermitted).answers.mono ?_
    rintro _ _ ⟨-, rfl⟩
    exact hsize (h.within (within_onDirectory _))
  | setAccessed s page on =>
    rw [TableAction.step, answers_setAccessed]
    exact hsize (h.within (within_onDirectory _))
  | setDirty s page on =>
    rw [TableAction.step, answers_setDirty]
    exact hsize (h.within (within_onDirectory _))

end Transition

namespace Machine

variable {start machine : Machine} {frames : Nat} {actions : List TableAction} {count frame : Nat}

/-- In a balanced machine no frame is lost and none is counted twice. -/
theorem Balanced.conserves (h : machine.Balanced count []) : machine.Conserves where
  nodup := by
    obtain ⟨pinned, hpool⟩ := h.pool
    simpa using hpool.nodup
  allocated record hrecord := by
    obtain ⟨pinned, hpool⟩ := h.pool
    exact (hpool.isAllocated_iff _).mpr (List.mem_append_left _ (List.mem_map_of_mem hrecord))
  size_eq := by
    obtain ⟨pinned, hpool⟩ := h.pool
    rw [FrameTable.allocated, hpool.allocated_eq, List.append_nil, List.length_map, FrameTable.size]
  le_capacity := by
    obtain ⟨pinned, hpool⟩ := h.pool
    rw [FrameTable.capacity, ← h.capacity]
    exact hpool.allocated_le
  answers action hpermitted := (Transition.answers_step h hpermitted).mono fun _ _ _ => trivial
  bind_unknown frame page hunknown :=
    Transition.run_bind (Transition.run_bind (Transition.run_unknown hunknown page).1
      fun _ => pure Reply.done) fun _ => pure ()
  unpin_unknown frame hunknown :=
    Transition.run_bind (Transition.run_bind (Transition.run_unknown hunknown 0).2.1
      fun _ => pure Reply.done) fun _ => pure ()
  free_unknown frame hunknown :=
    Transition.run_bind (Transition.run_bind (Transition.run_unknown hunknown 0).2.2
      fun _ => pure Reply.done) fun _ => pure ()

/-- After any permitted actions the machine is balanced. -/
theorem Strayed.balanced (h : Strayed start actions machine) (hstart : start.Unhanded frames)
    (hsmall : frames ≤ maxFrame + 1) : machine.Balanced machine.spaces.size [] := by
  induction h with
  | nil => exact .of_unhanded hstart hsmall
  | snoc _ hpermitted hstep ih => exact (Transition.answers_step ih hpermitted).of_ok hstep

/-- A machine that actions lead to by evaluation is one that they lead to. -/
theorem strayed_of_replay (h : TableAction.replay start actions = some machine) :
    Strayed start actions machine := by
  refine of_foldlM .nil (fun earlier action before after hearlier hlast => ?_) h
  split at hlast
  · rename_i hpermitted
    split at hlast
    · rename_i middle hstep
      cases hlast
      exact hearlier.snoc hpermitted hstep
    · cases hlast
  · cases hlast

/-- Whatever callers do with a frame table of at most `2 ^ 20` frames, no frame is lost, none is counted
twice, and nothing that they may do next halts but for an exhausted counter of transfers. -/
theorem Strayed.keepsFrames (h : Strayed start actions machine) (hstart : start.Unhanded frames)
    (hsmall : frames ≤ maxFrame + 1) : machine.Conserves :=
  (h.balanced hstart hsmall).conserves

/-- The only frame is bound to a page that is not mapped and is evicted; it is bound to two pages, and frames
that were never out are named; then its page, mapped and written, cannot be saved. -/
def strays : List TableAction :=
  [.act (.addSpace 1), .act (.call (.allocateFor 0 0x4000 true)), .act (.call (.unpin 0)),
    .act (.call (.allocate 0 false)), .act (.call (.bind 0 0x5000)), .act (.call (.bind 0 0x6000)),
    .act (.call (.bind 5 0x5000)), .act (.call (.unpin 7)), .act (.call (.free 9)),
    .map 0 0x6000 0 true, .setDirty 0 0x6000 true, .act (.turnDisk false true),
    .act (.call (.allocate 0 false))]

/-- On the sample machine these actions end with one record, and no frame is lost on the way. -/
theorem keepsFrames_strays : ∃ machine, Strayed sample strays machine ∧
    machine.frames.records = [⟨0, 0, some 0x6000⟩] ∧ machine.Conserves := by
  have hreplay : (TableAction.replay sample strays).any
      (fun machine => machine.frames.records = [⟨0, 0, some 0x6000⟩]) = true := by decide +kernel
  obtain ⟨machine, hmachine, hrecords⟩ := Option.any_eq_true _ _ |>.mp hreplay
  have hstrayed := strayed_of_replay hmachine
  have hstart : sample.Unhanded 1 :=
    ⟨⟨_, rfl⟩, ⟨_, rfl⟩, fun s p segment hsegment => by cases hsegment⟩
  exact ⟨machine, hstrayed, of_decide_eq_true hrecords, hstrayed.keepsFrames hstart (by decide)⟩

end Machine

end DemandPaging
