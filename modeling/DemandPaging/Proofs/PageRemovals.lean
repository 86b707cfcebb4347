import DemandPaging.Proofs.CompleteTeardowns
import DemandPaging.Proofs.FiledPages

/-!
# Pages that are removed

When a mapping is removed, each of its pages goes: its entry, its mapping, and its frame with the record of
it. A page that was changed is written to its file before, and the file may refuse it or store only some of
it; the page goes all the same. `Machine.Removes` says this of some pages one after the other, each with the
cause for which its write failed, if it did. That write meets the file as others have left it, at a moment
when the pages before are forgotten and those behind are not (`FindsShort`).

A page is removed whatever calls have spoiled before, as long as the machine is steady and its pages are
filed (`Woven.finishes_unmapPage_steady`).
-/

set_option autoImplicit false

namespace DemandPaging

open Spaces Machine Transition

/-! ### What becomes of pages -/

/-- To turn switches of files is allowed if no byte must stay. -/
theorem Machine.Turned.allowed {m m' : Machine} (h : Turned m m') {terms : Terms}
    (hnone : terms.bytes = none) : terms.Allows m m' := by
  obtain ⟨files, rfl, -⟩ := h
  exact Devices.allowed ⟨files, m.swap.device, rfl⟩ hnone

/-- The file of a window exists, and it falls short of it for this cause, if there is one. -/
def Machine.FallsShort (machine : Machine) (segment : Segment) (cause : Option FileError) : Prop :=
  ∃ file, machine.files[segment.file]? = some file ∧
    file.shortfall? segment.offset segment.readBytes = cause

/-- What was done for the sake of a window: if the frame was changed, then it was written to the file as
others had left it, and it is there unless the file fell short; if not, there was nothing to fail. -/
structure Machine.WritesBack (others : Machine → Machine → Prop) (segment : Segment) (frame : Nat)
    (dirty : Bool) (cause : Option FileError) (before after : Machine) : Prop where
  comes : Comes others before after
  files : after.files.size = before.files.size
  outside : Files.AgreeOutside segment before.files after.files
  changed : dirty = true →
    (∃ prior met, Idles others before prior ∧ others prior met ∧ met.FallsShort segment cause) ∧
    (cause = none → ∀ k, k < segment.readBytes →
      before.frames.memory.byte? frame k = some (Files.windowByte after.files segment k))
  clean : dirty = false → cause = none

/-- Pages of a space have neither an entry nor a frame any more. All others have what they had. -/
structure Machine.Loses (s : SpaceId) (gone : List Nat) (before after : Machine) : Prop where
  info : ∀ s' q, info? after.spaces s' q =
    if s' = s ∧ q ∈ gone then none else info? before.spaces s' q
  mapped : ∀ s' q, IsAligned q → mapped? after.spaces s' q =
    if s' = s ∧ q ∈ gone then none else mapped? before.spaces s' q

/-- While others work, the file is found in this condition, right after they have done something. Of all
pages just those in `gone` have been forgotten then, and the frame is still out. -/
structure FindsShort (others : Machine → Machine → Prop) (s : SpaceId) (gone : List Nat) (frame : Nat)
    (segment : Segment) (cause : Option FileError) (start met : Machine) : Prop where
  comes : ∃ prior, Comes others start prior ∧ others prior met
  loses : start.Loses s gone met
  out : met.frames.pool.isAllocated frame = true
  short : met.FallsShort segment cause

/-- What became of the contents of a page when the pages `gone` had been forgotten: if it was changed, then
it was written to its file as the file was found, and it is there unless the file fell short; if not, there
was nothing to fail. -/
structure Machine.SavesPage (others : Machine → Machine → Prop) (s : SpaceId) (gone : List Nat) (p : Nat)
    (cause : Option FileError) (before after : Machine) : Prop where
  changed : ∀ segment entry, segment? before.spaces s p = some segment →
    mapped? before.spaces s p = some entry → entry.dirty = true →
    (∃ met, FindsShort others s gone entry.frame.toNat segment cause before met) ∧
      (cause = none → ∀ k, k < segment.readBytes → before.frames.memory.byte? entry.frame.toNat k =
        some (Files.windowByte after.files segment k))
  clean : (∀ entry, mapped? before.spaces s p = some entry → entry.dirty = false) → cause = none

/-- Pages of a space were removed in this order, each with the cause for which its write failed, if it did.
Nothing else has changed but the files. -/
structure Machine.Removes (others : Machine → Machine → Prop) (s : SpaceId)
    (removed : List (Nat × Option FileError)) (before after : Machine) : Prop where
  comes : Comes others before after
  loses : before.Loses s (removed.map (·.1)) after
  records : ∀ r, r ∈ after.frames.records ↔ r ∈ before.frames.records ∧
    ¬ (r.owner = s ∧ ∃ p ∈ removed.map (·.1), r.page = some p)
  memory : after.frames.memory = before.frames.memory
  swap : after.swap = before.swap
  files : after.files.size = before.files.size
  outside : ∀ other k, k < other.readBytes → (∀ p ∈ removed.map (·.1), ∀ segment,
    segment? before.spaces s p = some segment → ¬ segment.Covers other k) →
      Files.windowByte after.files other k = Files.windowByte before.files other k
  saved : ∀ i p cause, removed[i]? = some (p, cause) →
    before.SavesPage others s ((removed.take (i + 1)).map (·.1)) p cause after

section

variable {others : Machine → Machine → Prop} {s : SpaceId} {p : Nat} {gone gone' : List Nat}
  {removed removed' : List (Nat × Option FileError)} {m m' m'' : Machine}

/-- What a space has lost twice is gone, with both lists of pages. -/
theorem Machine.Loses.trans (h : m.Loses s gone m') (h' : m'.Loses s gone' m'') :
    m.Loses s (gone ++ gone') m'' where
  info s' q := by
    rw [h'.info, h.info]
    grind
  mapped s' q hq := by
    rw [h'.mapped s' q hq, h.mapped s' q hq]
    grind

/-- Windows of pages that are still there are what they were. -/
theorem Machine.Loses.segment_eq (h : m.Loses s gone m') (hp : p ∉ gone) :
    segment? m'.spaces s p = segment? m.spaces s p := by
  rw [segment?, segment?, h.info, if_neg fun hin => hp hin.2]

/-- No page was removed, and nothing was changed that pages and their contents depend on. -/
theorem Machine.removes_none (hcomes : Comes others m m')
    (hinfo : ∀ s q, info? m'.spaces s q = info? m.spaces s q)
    (hmapped : ∀ s q, mapped? m'.spaces s q = mapped? m.spaces s q) (hframes : m'.frames = m.frames)
    (hswap : m'.swap = m.swap) (hfiles : Files.Written [] m.spaces m.files m'.files) :
    m.Removes others s [] m' where
  comes := hcomes
  loses := ⟨fun s' q => by simp [hinfo], fun s' q _ => by simp [hmapped]⟩
  records r := by simp [hframes]
  memory := by rw [hframes]
  swap := hswap
  files := hfiles.size_eq
  outside _ k _ _ := hfiles.windowByte List.not_mem_nil k
  saved _ _ _ hsome := by cases hsome

/-- What was saved of a page that was there is saved also after more was removed, if that was elsewhere in
the files. -/
theorem Machine.SavesPage.later {cause : Option FileError} (h : m.SavesPage others s gone p cause m')
    (hwindow : ∀ segment k, segment? m.spaces s p = some segment → k < segment.readBytes →
      Files.windowByte m''.files segment k = Files.windowByte m'.files segment k) :
    m.SavesPage others s gone p cause m'' where
  changed segment entry hsegment hentry hdirty := by
    obtain ⟨hfinds, hbytes⟩ := h.changed segment entry hsegment hentry hdirty
    refine ⟨hfinds, fun hnone k hk => ?_⟩
    rw [hwindow segment k hsegment hk, hbytes hnone k hk]
  clean := h.clean

/-- What is saved of a page that is still there is saved of the page that was there before. -/
theorem Machine.SavesPage.earlier {cause : Option FileError} (h : m'.SavesPage others s gone' p cause m'')
    (hremoves : m.Removes others s removed m') (hp : IsAligned p) (hnot : p ∉ removed.map (·.1)) :
    m.SavesPage others s (removed.map (·.1) ++ gone') p cause m'' := by
  obtain ⟨hchanged, hclean⟩ := h
  have hmapped : mapped? m'.spaces s p = mapped? m.spaces s p := by
    rw [hremoves.loses.mapped s p hp, if_neg fun hin => hnot hin.2]
  rw [hremoves.loses.segment_eq hnot, hmapped] at hchanged
  refine ⟨fun segment entry hsegment hentry hdirty => ?_, hmapped ▸ hclean⟩
  obtain ⟨⟨met, ⟨prior, hcomes, hmet⟩, hloses, hout, hshort⟩, hbytes⟩ :=
    hchanged segment entry hsegment hentry hdirty
  exact ⟨⟨met, ⟨prior, hremoves.comes.trans hcomes, hmet⟩, hremoves.loses.trans hloses, hout, hshort⟩,
    hremoves.memory ▸ hbytes⟩

/-- Other pages are removed afterwards, and their windows are elsewhere in the files. -/
theorem Machine.Removes.append (h : m.Removes others s removed m')
    (h' : m'.Removes others s removed' m'')
    (hnew : ∀ p ∈ removed'.map (·.1), p ∉ removed.map (·.1) ∧ IsAligned p)
    (hapart : ∀ q ∈ removed.map (·.1), ∀ p ∈ removed'.map (·.1), ∀ other segment k,
      segment? m.spaces s q = some other → segment? m.spaces s p = some segment →
        k < other.readBytes → ¬ segment.Covers other k) :
    m.Removes others s (removed ++ removed') m'' where
  comes := h.comes.trans h'.comes
  loses := by
    rw [List.map_append]
    exact h.loses.trans h'.loses
  records r := by
    rw [h'.records, h.records, List.map_append]
    grind
  memory := h'.memory.trans h.memory
  swap := h'.swap.trans h.swap
  files := h'.files.trans h.files
  outside other k hk hout := by
    rw [List.map_append] at hout
    rw [h'.outside other k hk, h.outside other k hk]
    · exact fun p hp => hout p (List.mem_append_left _ hp)
    · intro p hp segment hsegment
      rw [h.loses.segment_eq (hnew p hp).1] at hsegment
      exact hout p (List.mem_append_right _ hp) segment hsegment
  saved i p cause hsome := by
    by_cases hi : i < removed.length
    · -- what is written afterwards is elsewhere
      rw [List.getElem?_append_left hi] at hsome
      rw [List.take_append_of_le_length hi]
      refine (h.saved i p cause hsome).later fun segment k hsegment hk => ?_
      refine h'.outside segment k hk fun q hq other hother => ?_
      rw [h.loses.segment_eq (hnew q hq).1] at hother
      have hp := List.mem_map_of_mem (f := (·.1)) (List.mem_of_getElem? hsome)
      exact hapart p hp q hq segment other k hsegment hother hk
    · rw [List.getElem?_append_right (Nat.le_of_not_lt hi)] at hsome
      have htake : ((removed ++ removed').take (i + 1)).map (·.1) =
          removed.map (·.1) ++ (removed'.take (i - removed.length + 1)).map (·.1) := by
        have hlength : i + 1 = removed.length + (i - removed.length + 1) := by omega
        rw [hlength, List.take_length_add_append, List.map_append]
      rw [htake]
      have hp := List.mem_map_of_mem (f := (·.1)) (List.mem_of_getElem? hsome)
      exact (h'.saved _ p cause hsome).earlier h (hnew p hp).2 (hnew p hp).1

/-- One page was forgotten. -/
theorem Machine.loses_page (hp : IsAligned p) (hspaces : m'.spaces = unmap (drop m.spaces s p) s p) :
    m.Loses s [p] m' where
  info s' q := by
    rw [hspaces, info?_unmap, info?_drop]
    simp [eq_comm]
  mapped s' q hq := by
    rw [hspaces, mapped?_unmap, mapped?_drop]
    simp only [List.mem_singleton]
    refine if_congr ?_ rfl rfl
    rw [eq_comm (a := s)]
    refine and_congr_right fun _ => ?_
    rw [pageNumber_inj hp hq, eq_comm]

/-- One page was removed. -/
theorem Machine.removes_page (hp : IsAligned p) {cause : Option FileError} (hcomes : Comes others m m')
    (hspaces : m'.spaces = unmap (drop m.spaces s p) s p)
    (hrecords : ∀ r, r ∈ m'.frames.records ↔
      r ∈ m.frames.records ∧ ¬ (r.owner = s ∧ r.page = some p))
    (hmemory : m'.frames.memory = m.frames.memory) (hswap : m'.swap = m.swap)
    (hsize : m'.files.size = m.files.size)
    (hout : ∀ segment, segment? m.spaces s p = some segment → Files.AgreeOutside segment m.files m'.files)
    (hsegment : (segment? m.spaces s p).isSome = true) (hsaves : m.SavesPage others s [p] p cause m') :
    m.Removes others s [(p, cause)] m' where
  comes := hcomes
  loses := loses_page hp hspaces
  records r := by simpa using hrecords r
  memory := hmemory
  swap := hswap
  files := hsize
  outside other k hk hother := by
    obtain ⟨segment, hfound⟩ := Option.isSome_iff_exists.mp hsegment
    exact hout segment hfound other k hk (hother p (List.mem_singleton.mpr rfl) segment hfound)
  saved i q cause' hsome := by
    rw [List.getElem?_singleton] at hsome
    split at hsome
    · rename_i hi
      obtain ⟨rfl, rfl⟩ := Prod.mk.inj (Option.some.inj hsome)
      rw [hi]
      exact hsaves
    · cases hsome

end

/-! ### Steps that answer -/

namespace Transition

variable {α : Type} {step : Transition α} {terms : Terms} {m : Machine} {s : SpaceId} {p frame : Nat}

/-- A step that answers does what holds of its answers. -/
theorem Finishes.and_yields {post other : α → Machine → Prop} (h : Finishes step m post)
    (h' : Yields step m other) : Finishes step m fun a after => post a after ∧ other a after := by
  obtain ⟨a, after, hrun, hpost⟩ := h
  exact ⟨a, after, hrun, hpost, h' a after hrun⟩

/-- A frame that a page is mapped to can be pinned. -/
theorem finishes_pinIfBacking_steady (h : m.Steady terms [] []) (hp : IsAligned p)
    (hframe : frame? m.spaces s p = some frame) :
    Finishes (pinIfBacking frame s p) m fun backs after => backs = true ∧
      after.Held terms s p frame ∧ ∃ pool, after = { m with frames := { m.frames with pool } } := by
  have hmem := List.mem_map_of_mem (f := (·.frame)) (h.recorded s p frame hp hframe)
  obtain ⟨pool, hpool⟩ := h.pool.exists_setPinned (List.mem_append_left _ hmem) true
  have hends : Finishes (pinIfBacking frame s p) m fun _ after =>
      ∃ pool, after = { m with frames := { m.frames with pool } } := by
    simp only [pinIfBacking, finishes_bind, finishes_frames, finishes_ofExcept, finishes_setFrames,
      finishes_pure, FrameTable.pinIfBacking]
    split
    · change m.frames.pool.setPinned frame true = .ok pool at hpool
      rw [hpool]
      exact ⟨_, rfl, pool, rfl⟩
    · exact ⟨_, rfl, m.frames.pool, rfl⟩
  refine (hends.and_yields (h.pinIfBacking hp hframe)).mono ?_
  rintro backs after ⟨hafter, hbacks, hheld, -⟩
  exact ⟨hbacks, hheld, hafter⟩

/-- A page that is mapped to a pinned frame can be forgotten. -/
theorem finishes_forget_held (h : m.Held terms s p frame) (hs : s < m.spaces.size)
    (hunlisted : Unlisted m.spaces s p) :
    Finishes (forget s p none) m fun entry after => entry = mapped? m.spaces s p ∧
      after = { m with spaces := unmap (drop m.spaces s p) s p } ∧ after.Granted terms s p frame := by
  have hends : Finishes (forget s p none) m fun _ after =>
      after = { m with spaces := unmap (drop m.spaces s p) s p } := finishes_forget hs rfl
  refine (hends.and_yields (h.forget hunlisted)).mono ?_
  rintro entry after ⟨hafter, hentry, hgranted, -⟩
  exact ⟨hentry, hafter, hgranted⟩

/-- A frame that nothing is mapped to any more can be given back, and its record goes. -/
theorem finishes_free_granted (h : m.Granted terms s p frame) :
    Finishes (free frame) m fun _ after => ∃ frames, after = { m with frames } ∧
      frames.memory = m.frames.memory ∧
      ∀ r, r ∈ frames.records ↔ r ∈ m.frames.records ∧ r.frame ≠ frame := by
  obtain ⟨front, rear, pool, hsplit, hsome, hfree, hrecords, hother, -⟩ := h.exists_free
  obtain ⟨index, hposition⟩ := Option.isSome_iff_exists.mp hsome
  rw [free, finishes_bind, finishes_frames]
  simp only [hposition, hfree, finishes_bind, finishes_ofExcept, finishes_setFrames, Except.ok.injEq,
    exists_eq_left']
  refine ⟨_, rfl, rfl, fun r => ?_⟩
  rw [hrecords, hsplit]
  constructor
  · intro hr
    exact ⟨List.mem_append.mpr ((List.mem_append.mp hr).imp_right (List.mem_cons_of_mem _)), hother r hr⟩
  · rintro ⟨hr, hne⟩
    refine List.mem_append.mpr ((List.mem_append.mp hr).imp_right fun hin => ?_)
    refine (List.mem_cons.mp hin).resolve_left ?_
    rintro rfl
    exact hne rfl

end Transition

namespace Woven

variable {others : Machine → Machine → Prop} {machine : Machine} {s : SpaceId} {p frame : Nat}
  {segment : Segment} {terms : Terms}

/-- An operation that answers does what holds of its answers. -/
theorem Finishes.and_yields {α : Type} {work : Woven others α} {post other : α → Machine → Prop}
    (h : Finishes work machine post) (h' : (Outcomes.woven others).Yields work machine other) :
    Finishes work machine fun a after => post a after ∧ other a after := by
  intro result hresult
  obtain ⟨a, after, rfl, hpost⟩ := h result hresult
  exact ⟨a, after, rfl, hpost, h' a after hresult⟩

/-- A page of a mapped file is written back if it was changed, and the answer tells whether bytes are
missing. -/
theorem finishes_save_writesBack (hturn : ∀ a b, others a b → Turned a b) {spaces : Array AddressSpace}
    (hsegment : segment? spaces s p = some segment) (hback : segment.writeBack = true)
    (hfits : segment.readBytes ≤ pageSize) (hfile : segment.file < machine.files.size)
    (hframe : frame < machine.frames.memory.size) (entry : PageTableEntry) :
    Finishes (if entry.dirty then Kernel.writeBack frame segment else pure (.ok ()) :
      Woven others (Except FileError Unit)) machine fun saved after => ∃ cause files,
        saved = refusedFor cause ∧ after = { machine with files } ∧
          machine.WritesBack others segment frame entry.dirty cause after := by
  split
  · rename_i hdirty
    refine (finishes_writeBack_met hturn hfits hfile hframe).mono ?_
    rintro saved _ ⟨prior, met, file, data, hprior, hmet, hold, rfl, hsize, hbytes, rfl⟩
    have hidle := hprior.met hturn hmet
    obtain ⟨files, rfl, hturned⟩ := id hidle.turned
    obtain ⟨writes, -, hwritten, hout, hstored⟩ :=
      Files.written_write hsegment hback hold (Nat.le_of_eq hsize)
    refine ⟨_, _, rfl, rfl, ?_, ?_, ?_, fun _ =>
      ⟨⟨_, _, hprior, hmet, file, hold, rfl⟩, fun hnone k hk => ?_⟩, ?_⟩
    · exact hidle.comes.keep
        (sameSwitches_setIfInBounds hold (file.switches_write segment.offset data))
    · exact Array.size_setIfInBounds.trans hturned.size_eq
    · intro other k hk hother
      rw [hout other k hk hother, hturned.windowByte List.not_mem_nil]
    · have htakes := MemoryFile.shortfall?_eq_none_iff.mp hnone
      rw [← hsize] at htakes
      rw [hstored htakes.write k (hsize.symm ▸ hk), hbytes k hk]
    · rw [hdirty]
      simp
  · rename_i hclean
    rw [finishes_pure]
    exact ⟨none, machine.files, rfl, rfl, .refl, rfl, fun _ _ _ _ => rfl,
      fun hdirty => absurd hdirty hclean, fun _ => rfl⟩

/-- A frame that nothing is mapped to any more is written back if need be, and it is given back whether
that works or not. -/
theorem finishes_saveAndFree_granted (hturn : ∀ a b, others a b → Turned a b)
    (hbytes : terms.bytes = none) (h : machine.Granted terms s p frame)
    (hframe : frame < machine.frames.memory.size) {spaces : Array AddressSpace}
    (hsegment : segment? spaces s p = some segment) (hback : segment.writeBack = true)
    (hfits : segment.readBytes ≤ pageSize) (hfile : segment.file < machine.files.size)
    {info : PageInfo} (hinfo : info.segment? = some segment) (entry : PageTableEntry) :
    Finishes (Kernel.saveAndFree frame info (some entry) : Woven others _) machine fun outcome after =>
      ∃ cause frames files, outcome = refusedFor (cause.map .file) ∧
        after = { machine with frames, files } ∧
        machine.WritesBack others segment frame entry.dirty cause after ∧
        frames.memory = machine.frames.memory ∧
        ∀ r, r ∈ frames.records ↔ r ∈ machine.frames.records ∧ r.frame ≠ frame := by
  rw [saveAndFree_eq hinfo, finishes_bind]
  refine (finishes_save_writesBack hturn hsegment hback hfits hfile hframe entry).mono ?_
  rintro _ _ ⟨cause, files, rfl, rfl, hwrites⟩
  simp only [Kernel.free, holding_eq, lift_eq, finishes_bind, finishes_atomically, finishes_pure]
  intro met hmet
  have hidle := idles_of hturn hmet
  obtain ⟨files', rfl, hturned⟩ := hidle.turned
  have hgranted : Machine.Granted terms s p frame { machine with files := files' } :=
    h.fills (Terms.Allows.fills (Devices.allowed ⟨files', machine.swap.device, rfl⟩ hbytes) frame)
  refine (Transition.finishes_free_granted hgranted).mono ?_
  rintro _ _ ⟨frames, rfl, hmemory, hrecords⟩
  refine ⟨cause, frames, files', ?_, rfl, ?_, hmemory, hrecords⟩
  · cases cause <;> rfl
  · refine ⟨(hwrites.comes.met hmet).keep (sameSwitches_of_files rfl), hturned.size_eq.trans hwrites.files,
      fun other k hk hother => ?_, fun hdirty => ?_, hwrites.clean⟩
    · rw [hturned.windowByte List.not_mem_nil, hwrites.outside other k hk hother]
    · obtain ⟨hmeets, hsaved⟩ := hwrites.changed hdirty
      refine ⟨hmeets, fun hnone k hk => ?_⟩
      rw [hturned.windowByte List.not_mem_nil]
      exact hsaved hnone k hk

/-- A page of a mapped file that is in no frame is removed when it is forgotten. -/
theorem removes_unmapped (h : machine.Steady terms [] []) (hcareful : terms.careful)
    (hsegment : segment? machine.spaces s p = some segment) (hback : segment.writeBack = true)
    (hnone : mapped? machine.spaces s p = none) {files : Array MemoryFile}
    (hidle : Idles others machine { machine with files }) :
    machine.Removes others s [(p, none)]
      { machine with spaces := unmap (drop machine.spaces s p) s p, files } := by
  obtain ⟨info, hinfo, hinfoSegment⟩ := Option.bind_eq_some_iff.mp hsegment
  obtain ⟨_, heq, hwritten⟩ := hidle.turned
  cases heq
  refine removes_page (h.tables.aligned s p info hinfo) (hidle.comes.keep (sameSwitches_of_files rfl)) rfl
    (fun r => ?_) rfl rfl hwritten.size_eq
    (fun _ _ other k _ _ => hwritten.windowByte List.not_mem_nil k) (by rw [hsegment, Option.isSome_some]) ?_
  · refine ⟨fun hr => ⟨hr, fun hof => ?_⟩, fun hr => hr.1⟩
    refine h.not_backed hcareful hinfo ⟨segment, hsegment, hback⟩ ?_ hr hof.1 hof.2
    rw [hnone, Option.map_none, ite_self]
  · refine ⟨fun _ entry _ hmapped => ?_, fun _ => rfl⟩
    rw [hnone] at hmapped
    cases hmapped

/-- A page of a mapped file that was in a frame is removed when it was saved or not and the frame was given
back. -/
theorem removes_saved (hturn : ∀ a b, others a b → Turned a b) (h : machine.Steady terms [] [])
    (hcareful : terms.careful) (hsegment : segment? machine.spaces s p = some segment)
    {entry : PageTableEntry} (hentry : mapped? machine.spaces s p = some entry) {pool : FramePool} {files files' : Array MemoryFile}
    (hfiles : Files.Written [] machine.spaces machine.files files) {granted : Machine}
    (heq : granted = { machine with
      frames := { machine.frames with pool }
      spaces := unmap (drop machine.spaces s p) s p
      files })
    (hcomes : Comes others machine granted) (hgranted : granted.Granted terms s p entry.frame.toNat)
    {cause : Option FileError} {frames : FrameTable}
    (hwrites : granted.WritesBack others segment entry.frame.toNat entry.dirty cause
      { granted with frames, files := files' })
    (hmemory : frames.memory = granted.frames.memory)
    (hrecords : ∀ r, r ∈ frames.records ↔ r ∈ granted.frames.records ∧ r.frame ≠ entry.frame.toNat) :
    machine.Removes others s [(p, cause)] { granted with frames, files := files' } := by
  subst heq
  have hp := hgranted.aligned
  have hframe : frame? machine.spaces s p = some entry.frame.toNat := by
    rw [frame?, hentry, Option.map_some]
  have hrecord := h.recorded s p _ hp hframe
  refine removes_page hp (hcomes.trans hwrites.comes) rfl (fun r => ?_) hmemory rfl
    (hwrites.files.trans hfiles.size_eq) (fun other hother q k hk hout => ?_)
    (by rw [hsegment, Option.isSome_some]) ⟨fun other entry' hother hentry' hdirty => ?_, fun hclean => ?_⟩
  · rw [hrecords]
    refine and_congr_right fun hr => not_congr ⟨fun hsame => ?_, fun hof => ?_⟩
    · rw [h.record_inj hr hrecord hsame]
      exact ⟨rfl, rfl⟩
    · exact h.eq_of_mapped hcareful hframe hr hof.1 hof.2 List.not_mem_nil
  · obtain rfl := Option.some.inj (hsegment.symm.trans hother)
    exact (hwrites.outside q k hk hout).trans (hfiles.windowByte List.not_mem_nil k)
  · obtain rfl := Option.some.inj (hsegment.symm.trans hother)
    obtain rfl := Option.some.inj (hentry.symm.trans hentry')
    obtain ⟨⟨prior, met, hprior, hmet, hshort⟩, hsaved⟩ := hwrites.changed hdirty
    obtain ⟨_, rfl, -⟩ := (hprior.met hturn hmet).turned
    refine ⟨⟨_, ⟨prior, hcomes.trans hprior.comes, hmet⟩, loses_page hp rfl, ?_, hshort⟩, hsaved⟩
    exact (hgranted.steady.pool.isAllocated_iff _).mpr
      (List.mem_append_left _ (List.mem_map_of_mem hgranted.mem))
  · exact hwrites.clean (hclean entry hentry)

/-- One page of a mapping that is listed no more is removed, whatever calls have spoiled. The answer is the
cause for which its write failed, if it did. -/
theorem finishes_unmapPage_steady (hturn : ∀ a b, others a b → Turned a b)
    (h : machine.Steady terms [] []) (hidle : terms.Idle) (hcareful : terms.careful)
    (hfiled : machine.Filed)
    (hsized : ∀ r ∈ machine.frames.records, r.frame < machine.frames.memory.size)
    (hunlisted : Unlisted machine.spaces s p) (hsegment : segment? machine.spaces s p = some segment)
    (hback : segment.writeBack = true) :
    Finishes (Kernel.unmapPage s p : Woven others _) machine fun outcome after => ∃ cause,
      outcome = refusedFor (cause.map .file) ∧ machine.Removes others s [(p, cause)] after := by
  obtain ⟨info, hinfo, hinfoSegment⟩ := Option.bind_eq_some_iff.mp hsegment
  obtain ⟨space, hspace, -⟩ := Option.bind_eq_some_iff.mp hinfo
  have hs : s < machine.spaces.size := (Array.getElem?_eq_some_iff.mp hspace).1
  have hp : IsAligned p := h.tables.aligned s p info hinfo
  have hevicting : info.evicting = false := h.tables.still s p info hinfo (by rw [hidle.page]; simp)
  obtain ⟨hcopy, hfits, hfile⟩ := hfiled s p info hinfo segment hinfoSegment hback
  refine finishes_unmapPage_once hturn hinfo hevicting (fun hentry met hidle' => ?_) fun entry hentry => ?_
  · obtain ⟨files, rfl, -⟩ := id hidle'.turned
    rw [hcopy]
    exact Transition.finishes_forget hs
      ⟨none, rfl, removes_unmapped h hcareful hsegment hback hentry hidle'⟩
  · have hframe : frame? machine.spaces s p = some entry.frame.toNat := by
      rw [frame?, hentry, Option.map_some]
    have hrecord := h.recorded s p _ hp hframe
    -- an entry that says otherwise would lie
    have hresident : info.resident = true := by
      rw [← Bool.not_eq_false]
      intro hres
      exact absurd ((h.honest hcareful s p).truthful info segment _ hinfo hinfoSegment hback hres hframe)
        List.not_mem_nil
    refine ⟨hresident, fun met hidle' => ?_⟩
    obtain ⟨files, rfl, hfiles⟩ := hidle'.turned
    have hsteady : Machine.Steady terms [] [] { machine with files } :=
      h.allows (hidle'.turned.allowed hidle.bytes)
    refine (Transition.finishes_pinIfBacking_steady hsteady hp hframe).mono ?_
    rintro _ _ ⟨rfl, hheld, pool, rfl⟩
    refine ⟨rfl, fun met' hmet' => ?_⟩
    obtain ⟨files', rfl, hfiles'⟩ := hturn _ _ hmet'
    rw [hcopy]
    have hall : Files.Written [] machine.spaces machine.files files' :=
      hfiles.trans hfiles' fun _ _ _ hs => hs
    have hheld' := hheld.fills (((hturn _ _ hmet').allowed hidle.bytes).fills entry.frame.toNat)
    refine (Transition.finishes_forget_held hheld' hs hunlisted).mono ?_
    rintro _ granted ⟨rfl, heq, hgranted⟩
    have hpinned : Comes others machine
        { machine with frames := { machine.frames with pool }, files } :=
      hidle'.comes.keep (sameSwitches_of_files rfl)
    have hcomes : Comes others machine granted := by
      rw [heq]
      exact (hpinned.met hmet').keep (sameSwitches_of_files rfl)
    change (Kernel.saveAndFree entry.frame.toNat info (mapped? machine.spaces s p) :
      Woven others _).Finishes _ _
    rw [hentry]
    refine (finishes_saveAndFree_granted hturn hidle.bytes hgranted ?_ hsegment hback hfits ?_
      hinfoSegment entry).mono ?_
    · rw [heq]
      exact hsized _ hrecord
    · rw [heq]
      exact hall.size_eq.symm ▸ hfile
    · rintro _ _ ⟨cause, frames, files'', rfl, rfl, hwrites, hmemory, hrecords⟩
      exact ⟨cause, rfl, removes_saved hturn h hcareful hsegment hentry hall heq hcomes hgranted hwrites hmemory
        hrecords⟩

end Woven

end DemandPaging
