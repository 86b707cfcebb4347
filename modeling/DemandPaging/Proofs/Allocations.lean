import DemandPaging.Kernel.Allocation
import DemandPaging.Proofs.Evictions

/-!
# Frames for pages

What is ensured when a frame is handed out for a page and when it is taken back. `Reserved away s p
frame` is the state in between: the frame has a record for the page and is pinned, and the page is
not mapped to it yet. Loading fills the frame in that state; then the page is mapped and the frame
unpinned, or the frame goes back to the pool, and the machine is settled again.
-/

set_option autoImplicit false

namespace DemandPaging

open Spaces Machine

/-- A frame is recorded and pinned for a page that is not mapped to it. -/
def Reserved (away : Away) (s : SpaceId) (p frame : Nat) (machine : Machine) : Prop :=
  ∃ front rear, machine.frames.records = front ++ { frame, owner := s, page := some p } :: rear ∧
    Coherent away (front ++ rear) [frame] [frame] machine

section

variable {away : Away} {m m' : Machine} {s : SpaceId} {p frame : Nat}

/-- The contents of frames, the disk, the files and what was said do not matter. -/
theorem Reserved.congr (h : Reserved away s p frame m)
    (hrecords : m'.frames.records = m.frames.records) (hpool : m'.frames.pool = m.frames.pool)
    (hsize : m'.frames.memory.size = m.frames.memory.size) (hspaces : m'.spaces = m.spaces)
    (hslots : m'.swap.slots = m.swap.slots) : Reserved away s p frame m' := by
  obtain ⟨front, rear, hsplit, hcoherent⟩ := h
  exact ⟨front, rear, hrecords.trans hsplit, hcoherent.congr hpool hsize hspaces hslots⟩

/-- A reserved frame has a record. -/
theorem Reserved.mem (h : Reserved away s p frame m) :
    frame ∈ m.frames.records.map (·.frame) := by
  obtain ⟨front, rear, hsplit, -⟩ := h
  simp [hsplit]

/-- No page is mapped to a reserved frame. -/
theorem Reserved.frame?_ne (h : Reserved away s p frame m) {s' : SpaceId} {p' : Nat}
    (hp : IsAligned p') : frame? m.spaces s' p' ≠ some frame := by
  obtain ⟨front, rear, -, hcoherent⟩ := h
  exact hcoherent.frame?_ne List.mem_cons_self hp

/-- A reserved frame may be filled with anything. -/
theorem Reserved.paging (h : Reserved away s p frame m) (hspaces : m'.spaces = m.spaces)
    (hlimit : m'.stackLimit = m.stackLimit)
    (hfiles : Files.Written [] m.spaces m.files m'.files)
    (hmemory : ∀ f k, f ≠ frame → m'.frames.memory.byte? f k = m.frames.memory.byte? f k)
    (hdisk : m'.swap.device.disk = m.swap.device.disk) : Paging 0 m m' := by
  refine .of_spaces hspaces hlimit hfiles ?_ ?_
  · intro s' p' f k hp hf
    refine hmemory f k ?_
    rintro rfl
    exact h.frame?_ne hp hf
  · intro s' p' copy k _ _
    rw [hdisk]

end

namespace Transition

variable {machine : Machine} {away : Away} {s : SpaceId} {p frame : Nat}

/-- A frame that is out is recorded for a page and pinned. -/
theorem ensures_insert {bound : List FrameRecord} {pool : FramePool}
    (hrecords : machine.frames.records = bound)
    (hcoherent : Coherent away bound [frame] []
      { machine with frames := { machine.frames with pool } }) :
    match ({ machine.frames with pool } : FrameTable).insert { frame, owner := s, page := some p }
      true with
    | .ok table => table.memory = machine.frames.memory ∧
      Reserved away s p frame { machine with frames := table }
    | .error halt => halt.isDoubleRelease = false := by
  unfold FrameTable.insert
  cases hpool : pool.setPinned frame true with
  | error halt =>
    exact FramePool.not_isDoubleRelease_of_setPinned hpool
  | ok pool' =>
    obtain ⟨hcapacity, -, haccounts⟩ := hcoherent.pool.setPinned hpool
    refine ⟨rfl, bound, [], by rw [hrecords], ?_⟩
    rw [List.append_nil]
    exact hcoherent.setPool haccounts hcapacity rfl rfl rfl

/-- A free frame is taken for a page, if there is one. -/
theorem ensures_allocFree (h : machine.SettledBut away) :
    Ensures (allocFree s (some p)) machine fun outcome after => Paging 0 machine after ∧
      match outcome with
      | some frame => Reserved away s p frame after
      | none => after.SettledBut away := by
  simp only [allocFree, ensures_bind, ensures_frames, ensures_ofExcept, ensures_setFrames,
    ensures_pure, FrameTable.allocFree]
  have hpaging : ∀ table : FrameTable, table.memory = machine.frames.memory →
      Paging 0 machine { machine with frames := table } := fun table hmemory =>
    .of_spaces rfl rfl (.refl _ _) (fun _ _ _ _ _ _ => by rw [hmemory]) fun _ _ _ _ _ _ => rfl
  cases halloc : machine.frames.pool.alloc with
  | error halt =>
    refine ⟨fun a => by simp, ?_⟩
    rintro _ ⟨⟩
    exact FramePool.not_isDoubleRelease_of_alloc halloc
  | ok result =>
    obtain ⟨found, pool⟩ := result
    obtain ⟨hcapacity, hfound⟩ := h.pool.alloc halloc
    cases found with
    | none =>
      refine ⟨?_, fun halt herr => by cases herr⟩
      rintro _ ⟨⟩
      exact ⟨hpaging _ rfl, Coherent.setPool h hfound hcapacity rfl rfl rfl⟩
    | some frame =>
      have hcoherent : Coherent away machine.frames.records [frame] []
          { machine with frames := { machine.frames with pool } } := by
        refine Coherent.setPool h (hfound.2.perm ?_ fun _ => Iff.rfl) hcapacity rfl rfl rfl
        exact List.perm_middle.symm
      have hinsert := @ensures_insert machine away s p frame _ pool rfl hcoherent
      simp only [Option.isSome_some]
      cases htable : ({ machine.frames with pool } : FrameTable).insert
          { frame, owner := s, page := some p } true with
      | error halt =>
        rw [htable] at hinsert
        refine ⟨fun a => by simp, ?_⟩
        rintro _ ⟨⟩
        exact hinsert
      | ok table =>
        rw [htable] at hinsert
        refine ⟨?_, fun halt herr => by cases herr⟩
        rintro _ ⟨⟩
        exact ⟨hpaging table hinsert.1, hinsert.2⟩

/-- A frame that an eviction has made free is recorded for a page. -/
theorem ensures_record (h : Coherent away machine.frames.records [frame] [] machine) :
    Ensures (record frame s (some p)) machine fun _ after => Paging 0 machine after ∧
      after.frames.memory = machine.frames.memory ∧ Reserved away s p frame after := by
  simp only [record, ensures_bind, ensures_frames, ensures_ofExcept, ensures_setFrames,
    Option.isSome_some]
  have hinsert := @ensures_insert machine away s p frame _ machine.frames.pool rfl h
  change match machine.frames.insert { frame, owner := s, page := some p } true with
    | .ok table => _
    | .error halt => _ at hinsert
  cases htable : machine.frames.insert { frame, owner := s, page := some p } true with
  | error halt =>
    rw [htable] at hinsert
    refine ⟨fun a => by simp, ?_⟩
    rintro _ ⟨⟩
    exact hinsert
  | ok table =>
    rw [htable] at hinsert
    refine ⟨?_, fun halt herr => by cases herr⟩
    rintro _ ⟨⟩
    refine ⟨?_, hinsert⟩
    exact .of_spaces rfl rfl (.refl _ _) (fun _ _ _ _ _ _ => by rw [hinsert.1])
      fun _ _ _ _ _ _ => rfl

/-- A frame is zero when it is handed over, if that was asked for. -/
theorem ensures_handOver (h : Reserved away s p frame machine) (zeroed clean : Bool)
    (hclean : clean = true → ∀ k, k < pageSize → machine.frames.memory.byte? frame k = some 0) :
    Ensures (Kernel.handOver s (some p) zeroed clean frame) machine fun _ after =>
      Paging 0 machine after ∧ Reserved away s p frame after ∧
        (zeroed = true → ∀ k, k < pageSize → after.frames.memory.byte? frame k = some 0) := by
  simp only [Kernel.handOver, holding_eq, lift_eq]
  refine ensures_ite (fun _ => ?_) (fun hnot => ?_)
  · simp only [ensures_bind, ensures_zero, ensures_space, ensures_notify]
    intro content hcontent _ _
    have hlt := FrameMemory.lt_size_of_page hcontent
    refine ⟨h.paging rfl rfl (.refl _ _) ?_ rfl, h.congr rfl rfl FrameMemory.size_setPage rfl rfl,
      ?_⟩
    · intro f k hf
      rw [FrameMemory.byte?_setPage hlt, if_neg (Ne.symm hf)]
    · intro _ k hk
      rw [FrameMemory.byte?_setPage hlt, if_pos rfl, Page.getElem?_blank, if_pos hk]
  · simp only [ensures_bind, ensures_space, ensures_notify]
    intro _ _
    refine ⟨h.paging rfl rfl (.refl _ _) (fun _ _ _ => rfl) rfl, h.congr rfl rfl rfl rfl rfl, ?_⟩
    intro hzeroed
    refine hclean ?_
    cases clean <;> simp_all

/-- A frame for a page, perhaps after an eviction. -/
theorem ensures_allocateFor (h : machine.SettledBut away) (s : SpaceId) (p : Nat) (zeroed : Bool) :
    Ensures (Kernel.allocateFor s p zeroed) machine fun outcome after => Paging 1 machine after ∧
      match outcome with
      | .ok frame => Reserved away s p frame after ∧
        (zeroed = true → ∀ k, k < pageSize → after.frames.memory.byte? frame k = some 0)
      | .error _ => after.SettledBut away := by
  simp only [Kernel.allocateFor, Kernel.allocateRecord, holding_eq, lift_eq, ensures_bind]
  refine (ensures_allocFree h).mono fun found middle hmiddle => ?_
  cases found with
  | some frame =>
    simp only [ensures_bind, ensures_pure]
    refine (ensures_handOver hmiddle.2 zeroed false fun hc => by cases hc).mono ?_
    rintro _ after ⟨hpaging, hreserved, hzero⟩
    exact ⟨(hmiddle.1.trans hpaging).mono (Nat.zero_le _), hreserved, hzero⟩
  | none =>
    simp only [ensures_bind]
    refine (ensures_evict hmiddle.2).mono fun outcome evicted hevicted => ?_
    cases outcome with
    | error cause =>
      rw [ensures_pure]
      exact ⟨hmiddle.1.trans hevicted.1, hevicted.2⟩
    | ok result =>
      obtain ⟨frame, clean⟩ := result
      simp only [ensures_bind, ensures_pure]
      refine (ensures_record hevicted.2.1).mono ?_
      rintro _ recorded ⟨hpaging, hmemory, hreserved⟩
      refine (ensures_handOver hreserved zeroed clean ?_).mono ?_
      · rw [hmemory]
        exact hevicted.2.2
      · rintro _ after ⟨hpaging', hreserved', hzero⟩
        exact ⟨(((hmiddle.1.trans hevicted.1).trans hpaging).trans hpaging'), hreserved', hzero⟩

/-- A reserved frame goes back to the pool. -/
theorem ensures_free (h : Reserved away s p frame machine) :
    Ensures (free frame) machine fun _ after =>
      (∃ frames, after = { machine with frames } ∧ frames.memory = machine.frames.memory) ∧
        after.SettledBut away := by
  obtain ⟨front, rear, hrecords, hcoherent⟩ := h
  have hmem : (⟨frame, s, some p⟩ : FrameRecord) ∈ machine.frames.records := by simp [hrecords]
  obtain ⟨index, hindex⟩ := Option.isSome_iff_exists.mp (FrameTable.position?_isSome hmem)
  change machine.frames.position? frame = some index at hindex
  have hdealloc : machine.frames.pool.Accounts
      (frame :: ((front ++ rear).map (·.frame) ++ away.frames)) [frame] :=
    hcoherent.pool.perm List.perm_middle fun _ => Iff.rfl
  obtain ⟨pool, hpool, hcapacity, haccounts⟩ := hdealloc.dealloc
  have hnot : frame ∉ (front ++ rear).map (·.frame) := fun hmem =>
    (List.nodup_cons.mp hdealloc.nodup).1 (List.mem_append_left _ hmem)
  have hlength := FrameTable.position?_eq_length hindex hrecords hnot
  have hremoved := FrameTable.records_removeAt hrecords
  rw [← hlength] at hremoved
  simp only [free, ensures_bind, ensures_frames]
  rw [hindex]
  simp only [ensures_bind, ensures_ofExcept, ensures_setFrames, FrameTable.free, hindex, hpool]
  refine ⟨?_, fun halt herr => by cases herr⟩
  rintro _ ⟨⟩
  refine ⟨⟨_, rfl, rfl⟩, ?_⟩
  change Coherent away (machine.frames.removeAt index).records [] [] _
  rw [hremoved]
  refine hcoherent.setPool (haccounts.perm (List.Perm.refl _) ?_) hcapacity rfl rfl rfl
  intro f
  simp

/-- A frame with a record is open to evictions again. -/
theorem ensures_unpin_recorded {record : FrameRecord} (h : record ∈ machine.frames.records) :
    Ensures (unpin record.frame) machine fun _ after => ∃ pool,
      machine.frames.pool.setPinned record.frame false = .ok pool ∧
        after = { machine with frames := { machine.frames with pool } } := by
  simp only [unpin, ensures_bind, ensures_frames, ensures_ofExcept, ensures_setFrames,
    FrameTable.unpin]
  obtain ⟨index, hindex⟩ := Option.isSome_iff_exists.mp (FrameTable.position?_isSome h)
  rw [hindex]
  cases hpool : machine.frames.pool.setPinned record.frame false with
  | error halt =>
    refine ⟨fun a => by simp, ?_⟩
    rintro _ ⟨⟩
    exact FramePool.not_isDoubleRelease_of_setPinned hpool
  | ok pool =>
    refine ⟨?_, fun halt => by simp⟩
    rintro _ ⟨⟩
    exact ⟨pool, rfl, rfl⟩

/-- Once its frame is not pinned any more, the page that was just mapped is like all others. -/
theorem settled_of_unpinned (h : Coherent away machine.frames.records [] [frame] machine)
    {pool : FramePool} (hpool : machine.frames.pool.setPinned frame false = .ok pool) :
    ({ machine with frames := { machine.frames with pool } } : Machine).SettledBut away := by
  obtain ⟨hcapacity, -, haccounts⟩ := h.pool.setPinned hpool
  refine h.setPool (haccounts.perm (List.Perm.refl _) ?_) hcapacity rfl rfl rfl
  intro f
  simp

/-- A frame whose page is mapped by now is open to evictions again. -/
theorem ensures_unpin (h : Coherent away machine.frames.records [] [frame] machine)
    (hmem : frame ∈ machine.frames.records.map (·.frame)) :
    Ensures (unpin frame) machine fun _ after =>
      (∃ pool, after = { machine with frames := { machine.frames with pool } }) ∧
      after.SettledBut away := by
  obtain ⟨record, hrecord, rfl⟩ := List.mem_map.mp hmem
  refine (ensures_unpin_recorded hrecord).mono ?_
  rintro _ _ ⟨pool, hpool, rfl⟩
  exact ⟨⟨pool, rfl⟩, settled_of_unpinned h hpool⟩

end Transition

end DemandPaging
