import DemandPaging.Proofs.Allocations
import DemandPaging.Proofs.Mappings

/-!
# Unmapping

To unmap the pages of a mapping is to forget them, after those that were changed are written to the
file. `Forgets gone writes before after` says that nothing is known any more of the pages `gone`, and
that all other pages are where they were; `writes` are the files that were written, one for each
write, and only in the windows of pages that are gone.

A page that is written back holds its bytes in the file afterwards (`ensures_unmapPage`). The windows
of a mapping share no byte, so unmapping its other pages does not change them again, and if no page
was refused the file has the bytes of all of them (`ensures_removeMapping`).
-/

set_option autoImplicit false

namespace DemandPaging

open Spaces Machine

/-! ### Forgetting pages -/

/-- Nothing is known any more of the pages `gone`, and the other pages are where they were. -/
structure Forgets (gone : SpaceId → Nat → Prop) (writes : List FileId) (before after : Machine) :
    Prop where
  stackLimit_eq : after.stackLimit = before.stackLimit
  memory : after.frames.memory = before.frames.memory
  disk : after.swap.device.disk = before.swap.device.disk
  mapped : ∀ s p, IsAligned p → ¬ gone s p → mapped? after.spaces s p = mapped? before.spaces s p
  info : ∀ s p, ¬ gone s p → info? after.spaces s p = info? before.spaces s p
  unmapped : ∀ s p, IsAligned p → gone s p → mapped? after.spaces s p = none
  dropped : ∀ s p, gone s p → info? after.spaces s p = none
  files : Files.Written writes before.spaces before.files after.files
  window : ∀ other k, k < other.readBytes →
    (∀ s p segment, gone s p → segment? before.spaces s p = some segment →
      segment.writeBack = true → ¬ segment.Covers other k) →
    Files.windowByte after.files other k = Files.windowByte before.files other k

section

variable {gone gone' : SpaceId → Nat → Prop} {writes writes' : List FileId} {m m' m'' : Machine}

/-- Nothing that paging looks at has changed. -/
theorem Forgets.of_eq (hlimit : m'.stackLimit = m.stackLimit)
    (hmemory : m'.frames.memory = m.frames.memory)
    (hdisk : m'.swap.device.disk = m.swap.device.disk) (hfiles : m'.files = m.files)
    (hmapped : ∀ s p, mapped? m'.spaces s p = mapped? m.spaces s p)
    (hinfo : ∀ s p, info? m'.spaces s p = info? m.spaces s p) :
    Forgets (fun _ _ => False) [] m m' where
  stackLimit_eq := hlimit
  memory := hmemory
  disk := hdisk
  mapped s p _ _ := hmapped s p
  info s p _ := hinfo s p
  unmapped _ _ _ h := h.elim
  dropped _ _ h := h.elim
  files := by
    rw [hfiles]
    exact .refl _ _
  window _ _ _ _ := by rw [hfiles]

/-- No page need be forgotten. -/
theorem Forgets.refl (m : Machine) : Forgets (fun _ _ => False) [] m m :=
  .of_eq rfl rfl rfl rfl (fun _ _ => rfl) fun _ _ => rfl

/-- What was said does not matter. -/
theorem Forgets.notices (h : Forgets gone writes m m') (notices : Array Notice) :
    Forgets gone writes m { m' with notices } :=
  ⟨h.stackLimit_eq, h.memory, h.disk, h.mapped, h.info, h.unmapped, h.dropped, h.files, h.window⟩

/-- The same pages, said in another way. -/
theorem Forgets.congr (h : Forgets gone writes m m') (hgone : ∀ s p, gone' s p ↔ gone s p) :
    Forgets gone' writes m m' := by
  obtain rfl : gone' = gone := by
    funext s p
    exact propext (hgone s p)
  exact h

/-- A page that has a window afterwards is not gone and had it before. -/
theorem Forgets.segment (h : Forgets gone writes m m') {s : SpaceId} {p : Nat} {segment : Segment}
    (hsegment : segment? m'.spaces s p = some segment) :
    ¬ gone s p ∧ segment? m.spaces s p = some segment := by
  have hnot : ¬ gone s p := by
    intro hgone
    rw [segment?, h.dropped s p hgone] at hsegment
    cases hsegment
  refine ⟨hnot, ?_⟩
  rw [← hsegment, segment?, segment?, h.info s p hnot]

/-- A page that is not gone has the window that it had. -/
theorem Forgets.segment_eq (h : Forgets gone writes m m') {s : SpaceId} {p : Nat}
    (hnot : ¬ gone s p) : segment? m'.spaces s p = segment? m.spaces s p := by
  rw [segment?, segment?, h.info s p hnot]

/-- What is forgotten in two steps is forgotten, and the files of both were written. -/
theorem Forgets.trans (h : Forgets gone writes m m') (h' : Forgets gone' writes' m' m'') :
    Forgets (fun s p => gone s p ∨ gone' s p) (writes ++ writes') m m'' where
  stackLimit_eq := h'.stackLimit_eq.trans h.stackLimit_eq
  memory := h'.memory.trans h.memory
  disk := h'.disk.trans h.disk
  mapped s p hp hnot := by
    rw [not_or] at hnot
    rw [h'.mapped s p hp hnot.2, h.mapped s p hp hnot.1]
  info s p hnot := by
    rw [not_or] at hnot
    rw [h'.info s p hnot.2, h.info s p hnot.1]
  unmapped s p hp hgone := by
    by_cases hgone' : gone' s p
    · exact h'.unmapped s p hp hgone'
    · rw [h'.mapped s p hp hgone']
      exact h.unmapped s p hp (hgone.resolve_right hgone')
  dropped s p hgone := by
    by_cases hgone' : gone' s p
    · exact h'.dropped s p hgone'
    · rw [h'.info s p hgone']
      exact h.dropped s p (hgone.resolve_right hgone')
  files := h.files.trans h'.files fun s p segment hsegment => (h.segment hsegment).2
  window other k hk hout := by
    rw [h'.window other k hk, h.window other k hk]
    · intro s p segment hgone
      exact hout s p segment (.inl hgone)
    · intro s p segment hgone hsegment
      exact hout s p segment (.inr hgone) (h.segment hsegment).2

/-- A page that is not gone is known if it was known. -/
theorem Forgets.known_iff (h : Forgets gone writes m m') {s : SpaceId} {p : Nat} (hp : IsAligned p)
    (hnot : ¬ gone s p) : m'.Known s p ↔ m.Known s p := by
  unfold Known
  rw [h.mapped s p hp hnot, h.info s p hnot]

/-- Nothing is known of a page that is gone. -/
theorem Forgets.not_known (h : Forgets gone writes m m') {s : SpaceId} {p : Nat} (hp : IsAligned p)
    (hgone : gone s p) : ¬ m'.Known s p := by
  unfold Known
  rw [h.unmapped s p hp hgone, h.dropped s p hgone]
  simp

/-- A page that is not gone holds what it held if its window has the same byte. -/
theorem Forgets.holds (h : Forgets gone writes m m') {s : SpaceId} {p k : Nat} {b : UInt8}
    (hp : IsAligned p) (hnot : ¬ gone s p)
    (hwindow : ∀ segment, segment? m.spaces s p = some segment →
      Files.windowByte m'.files segment k = Files.windowByte m.files segment k)
    (hb : m.Holds s p k b) : m'.Holds s p k b := by
  refine hb.congr (h.info s p hnot) (fun hn => (h.mapped s p hp hnot).trans hn) ?_ ?_ hwindow
  · intro e he
    exact ⟨e, (h.mapped s p hp hnot).trans he, rfl, fun hd => hd, by rw [h.memory]⟩
  · intro copy _
    rw [h.disk]

end

namespace Transition

variable {machine : Machine} {away : Away} {s : SpaceId} {p : Nat}

/-! ### One page -/

/-- The page that is unmapped. -/
abbrev only (s : SpaceId) (p : Nat) : SpaceId → Nat → Prop := fun s' p' => s' = s ∧ p' = p

/-- A page is forgotten, and its slot is given back. -/
theorem ensures_forget {claimed : List Nat}
    (haccounted : Accounted claimed machine.spaces machine.swap.slots)
    {copy : Option SwapCopy} (hcopy : copy? machine.spaces s p = copy) (hp : IsAligned p) :
    Ensures (forget s p copy) machine fun entry after => entry = mapped? machine.spaces s p ∧
      ∃ slots, after = { machine with
        spaces := unmap (drop machine.spaces s p) s p, swap := { machine.swap with slots } } ∧
        Accounted claimed (unmap (drop machine.spaces s p) s p) slots := by
  have helse : Elsewhere machine.spaces (unmap (drop machine.spaces s p) s p) s p :=
    elsewhere_drop.trans (elsewhere_unmap hp)
  have hnone : copy? (unmap (drop machine.spaces s p) s p) s p = none := by
    rw [copy?, info?_unmap, info?_drop, if_pos ⟨rfl, rfl⟩]
    rfl
  simp only [forget, ensures_bind, ensures_supplement, ensures_setSupplement, ensures_clear]
  intro space hspace
  rw [modify_supplement hspace fun table => table.erase p]
  intro _ _
  cases copy with
  | none =>
    refine ⟨mapped?_drop, machine.swap.slots, rfl, ?_⟩
    exact haccounted.keep helse (hnone.trans hcopy.symm)
  | some copy =>
    simp only [ensures_bind]
    refine ensures_releaseSlot haccounted.sound ?_ fun slots hsound hused => ?_
    · exact haccounted.isUsed hcopy
    · refine ⟨mapped?_drop, slots, rfl, ?_⟩
      exact haccounted.lose helse hcopy hnone hsound hused

/-- A frame that backs a mapped page is pinned. -/
theorem ensures_pinIfBacking (h : machine.SettledBut away) (hp : IsAligned p) {frame : Nat}
    (hframe : frame? machine.spaces s p = some frame) :
    Ensures (Kernel.pinIfBacking frame s p) machine fun backs after => backs = true ∧
      ∃ pool, after = { machine with frames := { machine.frames with pool } } ∧
        Coherent away machine.frames.records [] [frame] after := by
  have hmem := h.tracked.mem_of_frame? hp hframe
  have hnodup : (machine.frames.records.map (·.frame)).Nodup := (List.nodup_append.mp h.pool.nodup).1
  have hbacking := FrameTable.isBacking_of_mem hnodup hmem
  simp only [Kernel.pinIfBacking, holding_eq, lift_eq, pinIfBacking, ensures_bind, ensures_frames,
    ensures_ofExcept, ensures_setFrames, ensures_pure, FrameTable.pinIfBacking, hbacking, if_true]
  cases hpool : machine.frames.pool.setPinned frame true with
  | error halt =>
    refine ⟨fun a => by simp, ?_⟩
    rintro _ ⟨⟩
    exact FramePool.not_isDoubleRelease_of_setPinned hpool
  | ok pool =>
    refine ⟨?_, fun halt => by simp⟩
    rintro _ ⟨⟩
    obtain ⟨hcapacity, -, haccounts⟩ := h.pool.setPinned hpool
    refine ⟨rfl, pool, rfl, h.setPool (haccounts.perm (List.Perm.refl _) ?_) hcapacity rfl rfl rfl⟩
    intro f
    simp

end Transition

section

variable {away : Away} {m : Machine} {s : SpaceId} {p frame : Nat} {slots : SlotBitmap}

/-- A page that is mapped to a pinned frame is forgotten; the frame keeps its record. -/
theorem Coherent.forgotten (h : Coherent away m.frames.records [] [frame] m) (hp : IsAligned p)
    (hframe : frame? m.spaces s p = some frame)
    (haccounted : Accounted away.slots (unmap (drop m.spaces s p) s p) slots) :
    Reserved away s p frame { m with
      spaces := unmap (drop m.spaces s p) s p, swap := { m.swap with slots } } := by
  have helse : Elsewhere m.spaces (unmap (drop m.spaces s p) s p) s p :=
    elsewhere_drop.trans (elsewhere_unmap hp)
  have hnone : frame? (unmap (drop m.spaces s p) s p) s p = none := by
    rw [frame?, mapped?_unmap, if_pos ⟨rfl, rfl⟩, Option.map_none]
  obtain ⟨front, rear, hsplit⟩ := List.append_of_mem (h.tracked.mem_of_frame? hp hframe)
  have hnodup := h.nodup
  have htracked := h.tracked
  rw [hsplit] at hnodup htracked
  refine ⟨front, rear, hsplit, ?_, h.capacity, ?_, ?_, haccounted, ?_⟩
  · have hpool := h.pool
    rw [hsplit] at hpool
    refine hpool.perm ?_ fun _ => Iff.rfl
    have hperm := FrameTable.perm_frames front rear ⟨frame, s, some p⟩
    simpa using hperm.append_right away.frames
  · exact htracked.remove hnodup helse hframe hnone
  · refine h.described.update helse (h.described.ne_of_frame? hframe) fun info hinfo => ?_
    rw [info?_unmap, info?_drop, if_pos ⟨rfl, rfl⟩] at hinfo
    cases hinfo
  · exact h.live.update helse (h.live.isLive_of_frame? hp hframe)

/-- A page that is not mapped is forgotten. -/
theorem Machine.SettledBut.forgotten (h : m.SettledBut away) (hp : IsAligned p)
    (hnot : away.page ≠ some (s, p)) (hunmapped : mapped? m.spaces s p = none)
    (hlive : IsLive m.spaces s)
    (haccounted : Accounted away.slots (unmap (drop m.spaces s p) s p) slots) :
    SettledBut away
      { m with spaces := unmap (drop m.spaces s p) s p, swap := { m.swap with slots } } := by
  have helse : Elsewhere m.spaces (unmap (drop m.spaces s p) s p) s p :=
    elsewhere_drop.trans (elsewhere_unmap hp)
  have hnone : frame? (unmap (drop m.spaces s p) s p) s p = frame? m.spaces s p := by
    rw [frame?, frame?, mapped?_unmap, if_pos ⟨rfl, rfl⟩, hunmapped]
  refine ⟨h.pool, h.capacity, h.tracked.keep helse hnone, ?_, haccounted, ?_⟩
  · refine h.described.update helse hnot fun info hinfo => ?_
    rw [info?_unmap, info?_drop, if_pos ⟨rfl, rfl⟩] at hinfo
    cases hinfo
  · exact h.live.update helse hlive

/-- To forget a page and to write its window is to forget the page. -/
theorem Forgets.of_forget {writes : List FileId} {m' : Machine} (hp : IsAligned p)
    (hlimit : m'.stackLimit = m.stackLimit) (hmemory : m'.frames.memory = m.frames.memory)
    (hdisk : m'.swap.device.disk = m.swap.device.disk)
    (hspaces : m'.spaces = unmap (drop m.spaces s p) s p)
    (hfiles : Files.Written writes m.spaces m.files m'.files)
    (hwindow : ∀ other k, k < other.readBytes → (∀ segment, segment? m.spaces s p = some segment →
      segment.writeBack = true → ¬ segment.Covers other k) →
      Files.windowByte m'.files other k = Files.windowByte m.files other k) :
    Forgets (Transition.only s p) writes m m' := by
  have helse : Elsewhere m.spaces m'.spaces s p := by
    rw [hspaces]
    exact elsewhere_drop.trans (elsewhere_unmap hp)
  refine ⟨hlimit, hmemory, hdisk, helse.mapped, helse.info, ?_, ?_, hfiles, ?_⟩
  · rintro _ _ - ⟨rfl, rfl⟩
    rw [hspaces, mapped?_unmap, if_pos ⟨rfl, rfl⟩]
  · rintro _ _ ⟨rfl, rfl⟩
    rw [hspaces, info?_unmap, info?_drop, if_pos ⟨rfl, rfl⟩]
  · intro other k hk hout
    exact hwindow other k hk fun segment => hout s p segment ⟨rfl, rfl⟩

end

/-- The pages `gone` had their bytes in their files when they went. -/
def Saves (gone : SpaceId → Nat → Prop) (before after : Machine) : Prop :=
  ∀ s p segment k b, gone s p → segment? before.spaces s p = some segment → k < segment.readBytes →
    before.Holds s p k b → Files.windowByte after.files segment k = b

namespace Transition

variable {machine : Machine} {away : Away} {s : SpaceId} {p frame : Nat}

/-- A page of a mapped file that was changed is written back. -/
theorem ensures_save {spaces : Array AddressSpace} {segment : Segment}
    (hsegment : segment? spaces s p = some segment) (hback : segment.writeBack = true)
    (frame : Nat) (entry : PageTableEntry) :
    Ensures (if entry.dirty then Kernel.writeBack frame segment else pure (.ok ())) machine
      fun saved after => ∃ files writes, after = { machine with files } ∧ writes.length ≤ 1 ∧
        Files.Written writes spaces machine.files files ∧
        Files.AgreeOutside segment machine.files files ∧
        (saved = .ok () → ∀ k b, k < segment.readBytes →
          machine.frames.memory.byte? frame k = some b →
          (entry.dirty = false → Files.windowByte machine.files segment k = b) →
          Files.windowByte files segment k = b) := by
  refine ensures_ite (fun _ => ?_) (fun hclean => ?_)
  · refine (ensures_writeBack hsegment hback frame).mono ?_
    rintro saved _ ⟨files, writes, rfl, hlength, hwritten, hout, hstored⟩
    refine ⟨files, writes, rfl, hlength, hwritten, hout, fun hok k b hk hbyte _ => ?_⟩
    have := hstored hok k hk
    rw [hbyte, Option.some.injEq] at this
    exact this.symm
  · refine ⟨machine.files, [], rfl, Nat.zero_le _, .refl _ _, fun _ _ _ _ => rfl, ?_⟩
    intro _ k b _ _ hbyte
    exact hbyte (Bool.eq_false_iff.mpr hclean)

/-- What was saved or not, the frame goes back to the pool. -/
theorem saveAndFree_eq {info : PageInfo} {segment : Segment}
    (hinfo : info.segment? = some segment) (frame : Nat) (entry : PageTableEntry) :
    (Kernel.saveAndFree frame info (some entry) : Transition (Except VmError Unit)) =
      (if entry.dirty then Kernel.writeBack frame segment else pure (.ok ())) >>= fun saved =>
        Kernel.free frame >>= fun _ => pure (saved.mapError .file) := by
  simp only [Kernel.saveAndFree, hinfo]
  split <;> rfl

/-- A page of a mapped file that was changed is written back, and its frame goes back to the pool. -/
theorem ensures_saveAndFree (h : Reserved away s p frame machine) {spaces : Array AddressSpace}
    {segment : Segment} (hsegment : segment? spaces s p = some segment)
    (hback : segment.writeBack = true) {info : PageInfo} (hinfo : info.segment? = some segment)
    (entry : PageTableEntry) :
    Ensures (Kernel.saveAndFree frame info (some entry)) machine fun outcome after =>
      (∃ frames files writes, after = { machine with frames, files } ∧
        frames.memory = machine.frames.memory ∧ writes.length ≤ 1 ∧
        Files.Written writes spaces machine.files files ∧
        Files.AgreeOutside segment machine.files files ∧
        (outcome = .ok () → ∀ k b, k < segment.readBytes →
          machine.frames.memory.byte? frame k = some b →
          (entry.dirty = false → Files.windowByte machine.files segment k = b) →
          Files.windowByte files segment k = b)) ∧
      after.SettledBut away := by
  rw [saveAndFree_eq hinfo, ensures_bind]
  refine (ensures_save hsegment hback frame entry).mono ?_
  rintro saved _ ⟨files, writes, rfl, hlength, hwritten, hout, hsaved⟩
  have hreserved : Reserved away s p frame { machine with files } := h.congr rfl rfl rfl rfl rfl
  simp only [Kernel.free, holding_eq, lift_eq, ensures_bind]
  refine (ensures_free hreserved).mono ?_
  rintro _ _ ⟨⟨frames, rfl, hmemory⟩, hsettled⟩
  refine ⟨⟨frames, files, writes, rfl, hmemory, hlength, hwritten, hout, fun hok => ?_⟩, hsettled⟩
  cases saved with
  | error cause => cases hok
  | ok u => exact hsaved rfl

/-- A page of a mapped file is unmapped. If that is not refused, its bytes are in the file. -/
theorem ensures_unmapPage (h : machine.SettledBut away) {segment : Segment}
    (hsegment : segment? machine.spaces s p = some segment) (hback : segment.writeBack = true) :
    Ensures (Kernel.unmapPage s p) machine fun outcome after =>
      (∃ writes, writes.length ≤ 1 ∧ Forgets (only s p) writes machine after) ∧
      (∀ s, standing? after.spaces s = standing? machine.spaces s) ∧ after.SettledBut away ∧
      (outcome = .ok () → Saves (only s p) machine after) := by
  unfold Kernel.unmapPage
  generalize unmapRounds = rounds
  cases rounds with
  | zero => exact rfl
  | succ rounds =>
    obtain ⟨info, hinfo, hinfoSegment⟩ := Option.bind_eq_some_iff.mp hsegment
    have hnot := h.described.ne_of_back hsegment hback
    have hfits := h.described.fits s p info hinfo hnot
    have hcopy : copy? machine.spaces s p = info.copy? := by rw [copy?, hinfo, Option.bind_some]
    have hcopyNone : info.copy? = none := hfits.back segment hinfoSegment hback
    have hstanding : ∀ s', standing? (unmap (drop machine.spaces s p) s p) s' =
        standing? machine.spaces s' := fun s' => standing?_unmap.trans standing?_drop
    simp only [Kernel.unmapPageIn, holding_eq, ensures_bind, ensures_kernelSupplement]
    intro space hspace
    rw [← info?_eq hspace, hinfo]
    simp only [hfits.evicting, Bool.false_eq_true, if_false, ensures_bind, ensures_findEntry]
    intro _ _
    cases hentry : mapped? machine.spaces s p with
    | none =>
      have hresident : info.resident = false := by
        rw [hfits.resident, frame?, hentry]
        rfl
      simp only [hresident, Bool.false_eq_true, if_false, ensures_bind, lift_eq]
      refine (ensures_forget h.accounted hcopy hfits.aligned).mono ?_
      rintro entry _ ⟨-, slots, rfl, haccounted⟩
      rw [ensures_pure]
      refine ⟨⟨[], Nat.zero_le _, ?_⟩, hstanding, ?_, fun _ => ?_⟩
      · exact .of_forget hfits.aligned rfl rfl rfl rfl (.refl _ _) fun _ _ _ _ => rfl
      · exact h.forgotten hfits.aligned hnot hentry (h.live.isLive_of_info? hinfo) haccounted
      · rintro _ _ other k b ⟨rfl, rfl⟩ hother _ hb
        rw [hsegment, Option.some.injEq] at hother
        subst hother
        rw [holds_of_file hentry (hcopy.trans hcopyNone)] at hb
        obtain ⟨other, hother, hbyte⟩ := hb
        rw [hsegment, Option.some.injEq] at hother
        subst hother
        exact hbyte
    | some entry =>
      have hframe : frame? machine.spaces s p = some entry.frame.toNat := by
        rw [frame?, hentry, Option.map_some]
      have hresident : info.resident = true := by rw [hfits.resident, hframe, Option.isSome_some]
      simp only [hresident, if_true, Option.map_some, ensures_bind]
      refine (ensures_pinIfBacking h hfits.aligned hframe).mono ?_
      rintro _ _ ⟨rfl, pool, rfl, hpinned⟩
      simp only [if_true, lift_eq, ensures_bind]
      refine (ensures_forget hpinned.accounted hcopy hfits.aligned).mono ?_
      rintro _ _ ⟨rfl, slots, rfl, haccounted⟩
      have hreserved := Coherent.forgotten
        (m := { machine with frames := { machine.frames with pool } }) hpinned hfits.aligned hframe
        haccounted
      rw [hentry]
      refine (ensures_saveAndFree hreserved hsegment hback hinfoSegment entry).mono ?_
      rintro outcome _ ⟨⟨frames, files, writes, rfl, hmemory, hlength, hwritten, hout, hsaved⟩,
        hsettled⟩
      refine ⟨⟨writes, hlength, ?_⟩, hstanding, hsettled, fun hok => ?_⟩
      · refine .of_forget hfits.aligned rfl hmemory rfl rfl hwritten fun other k hk hother => ?_
        exact hout other k hk (hother segment hsegment hback)
      · rintro _ _ other k b ⟨rfl, rfl⟩ hother hk hb
        rw [hsegment, Option.some.injEq] at hother
        subst hother
        rw [holds_of_mapped hentry] at hb
        exact hsaved hok k b hk hb.1 fun hclean => hb.2 hclean segment hsegment

/-! ### All pages of a mapping -/

/-- Some pages of a space. -/
abbrev among (s : SpaceId) (pages : List Nat) : SpaceId → Nat → Prop :=
  fun s' p => s' = s ∧ p ∈ pages

/-- Pages of mapped files whose windows share no byte are unmapped one after the other. -/
theorem ensures_unmapPages (h : machine.SettledBut away) {pages : List Nat} (hnodup : pages.Nodup)
    (hback : ∀ p ∈ pages, ∃ segment, segment? machine.spaces s p = some segment ∧
      segment.writeBack = true)
    (hapart : ∀ p ∈ pages, ∀ q ∈ pages, ∀ segment other k, segment? machine.spaces s p = some segment →
      segment? machine.spaces s q = some other → k < other.readBytes → segment.Covers other k →
      p = q) :
    Ensures (Kernel.throughFailures (Kernel.unmapPage s) pages) machine fun outcome after =>
      ((∃ writes, writes.length ≤ pages.length ∧ Forgets (among s pages) writes machine after) ∧
        (∀ s, standing? after.spaces s = standing? machine.spaces s) ∧ after.SettledBut away) ∧
      (outcome = .ok () → Saves (among s pages) machine after) := by
  refine @ensures_throughFailures Nat machine VmError (Kernel.unmapPage s)
    (fun done after =>
      (∃ writes, writes.length ≤ done.length ∧ Forgets (among s done) writes machine after) ∧
        (∀ s, standing? after.spaces s = standing? machine.spaces s) ∧ after.SettledBut away)
    (fun done after => Saves (among s done) machine after) pages ?_ ?_ ?_
  · rintro done p rest before hpages ⟨⟨writes, hlength, hforgets⟩, hstanding, hsettled⟩
    have hp : p ∈ pages := by simp [hpages]
    have hdone : ∀ q ∈ done, q ∈ pages ∧ q ≠ p := by
      intro q hq
      refine ⟨by simp [hpages, hq], ?_⟩
      rintro rfl
      rw [hpages] at hnodup
      exact (List.nodup_append.mp hnodup).2.2 q hq q List.mem_cons_self rfl
    have hnot : ¬ among s done s p := fun hmem => (hdone p hmem.2).2 rfl
    obtain ⟨segment, hsegment, hwriteBack⟩ := hback p hp
    refine (ensures_unmapPage hsettled ((hforgets.segment_eq hnot).trans hsegment) hwriteBack).mono ?_
    rintro outcome after ⟨⟨writes', hlength', hforgets'⟩, hstanding', hsettled', hsaves⟩
    refine ⟨⟨⟨writes ++ writes', ?_, ?_⟩, fun s' => (hstanding' s').trans (hstanding s'), hsettled'⟩,
      fun hok hgood => ?_⟩
    · rw [List.length_append, List.length_append, List.length_singleton]
      exact Nat.add_le_add hlength hlength'
    · refine (hforgets.trans hforgets').congr fun s' p' => ?_
      simp only [among, only, List.mem_append, List.mem_singleton, and_or_left]
    · rintro s' q other k b ⟨rfl, hq⟩ hother hk hb
      rw [List.mem_append, List.mem_singleton] at hq
      rcases hq with hq | rfl
      · -- a page that went before keeps its bytes in the file
        rw [hforgets'.window other k hk, hgood s' q other k b ⟨rfl, hq⟩ hother hk hb]
        rintro _ _ segment' ⟨rfl, rfl⟩ hsegment' _ hcovers
        have hsegment'' := (hforgets.segment hsegment').2
        exact (hdone q hq).2
          (hapart _ hp q (hdone q hq).1 segment' other k hsegment'' hother hk hcovers).symm
      · rw [hsegment, Option.some.injEq] at hother
        subst hother
        refine hsaves hok s' q segment k b ⟨rfl, rfl⟩ ((hforgets.segment_eq hnot).trans hsegment) hk ?_
        refine hforgets.holds (h.described.isAligned hsegment) hnot (fun other hother => ?_) hb
        rw [hsegment, Option.some.injEq] at hother
        subst hother
        refine hforgets.window segment k hk ?_
        rintro _ q' segment' ⟨rfl, hq'⟩ hsegment' _ hcovers
        exact (hdone q' hq').2
          (hapart q' (hdone q' hq').1 q hp segment' segment k hsegment' hsegment hk hcovers)
  · refine ⟨⟨[], Nat.zero_le _, ?_⟩, fun _ => rfl, h⟩
    exact (Forgets.refl machine).congr fun s' p' => by simp
  · rintro s' p' segment k b ⟨-, hmem⟩
    cases hmem

end Transition

/-- A mapping was removed with all its pages. -/
structure Unmaps (s : SpaceId) (id : Nat) (mapping : Mapping) (before after : Machine) : Prop where
  live : mapping? before.spaces s id = some mapping
  forgets : ∃ writes, writes.length ≤ mapping.pages ∧
    Forgets (Transition.among s (pageRange mapping.page mapping.pages)) writes before after
  standing : ∀ standing, standing? before.spaces s = some standing →
    standing? after.spaces s = some { standing with mappings := standing.mappings.erase id }
  others : ∀ s', s' ≠ s → standing? after.spaces s' = standing? before.spaces s'

section

variable {s : SpaceId} {id : Nat} {mapping : Mapping} {m m' : Machine}

/-- The live mappings afterwards. -/
theorem Unmaps.mapping? (h : Unmaps s id mapping m m') (s' : SpaceId) (id' : Nat) :
    mapping? m'.spaces s' id' =
      if s' = s ∧ id' = id then none else mapping? m.spaces s' id' := by
  by_cases hs : s' = s
  · subst hs
    obtain ⟨standing, hstanding, -⟩ := Option.bind_eq_some_iff.mp h.live
    rw [Spaces.mapping?, Spaces.mapping?, hstanding, h.standing standing hstanding,
      Option.bind_some, Option.bind_some, Std.ExtTreeMap.getElem?_erase]
    by_cases hid : id = id'
    · subst hid
      simp
    · simp [hid, Ne.symm hid]
  · rw [mapping?_congr (h.others s' hs), if_neg fun hsi => hs hsi.1]

/-- No number is given out again. -/
theorem Unmaps.next? (h : Unmaps s id mapping m m') (s' : SpaceId) :
    next? m'.spaces s' = next? m.spaces s' := by
  by_cases hs : s' = s
  · subst hs
    obtain ⟨standing, hstanding, -⟩ := Option.bind_eq_some_iff.mp h.live
    rw [Spaces.next?, Spaces.next?, hstanding, h.standing standing hstanding]
    rfl
  · exact next?_congr (h.others s' hs)

/-- The mapping shared no page with others, so those have all their windows. -/
theorem Unmaps.mapped (h : Unmaps s id mapping m m') (hm : Mapped m.spaces) : Mapped m'.spaces := by
  obtain ⟨writes, -, hforgets⟩ := h.forgets
  -- pages of other mappings are not gone
  have hkept : ∀ s' id' other i, Spaces.mapping? m.spaces s' id' = some other →
      ¬ (s' = s ∧ id' = id) → i < other.pages →
      ¬ Transition.among s (pageRange mapping.page mapping.pages) s' (other.page + i * pageSize) := by
    rintro s' id' other i hother hne hi ⟨rfl, hmem⟩
    obtain ⟨j, hj, heq⟩ := mem_pageRange.mp hmem
    exact hne ⟨rfl, hm.disjoint s' id id' mapping other j i h.live hother hj hi heq.symm⟩
  refine ⟨fun s' standing' hs' => ?_, fun s' id' other hother => ?_,
    fun s' p segment hsegment hback => ?_, fun s' id₁ id₂ mapping₁ mapping₂ i₁ i₂ h₁ h₂ => ?_⟩
  · by_cases hs : s' = s
    · subst hs
      obtain ⟨standing, hstanding, -⟩ := Option.bind_eq_some_iff.mp h.live
      rw [h.standing standing hstanding, Option.some.injEq] at hs'
      subst hs'
      obtain ⟨hnext, hids⟩ := hm.numbered s' standing hstanding
      refine ⟨hnext, fun id' other hother => ?_⟩
      rw [Std.ExtTreeMap.getElem?_erase] at hother
      split at hother
      · cases hother
      · exact hids id' other hother
    · rw [h.others s' hs] at hs'
      exact hm.numbered s' standing' hs'
  · rw [h.mapping?] at hother
    split at hother
    · cases hother
    · rename_i hne
      obtain ⟨length, hpages, hmappable, hwindows⟩ := hm.windows s' id' other hother
      refine ⟨length, hpages, hmappable, fun i hi => ?_⟩
      rw [hforgets.segment_eq (hkept s' id' other i hother hne hi)]
      exact hwindows i hi
  · obtain ⟨hnot, hsegment'⟩ := hforgets.segment hsegment
    obtain ⟨id', other, i, hother, hi, rfl⟩ := hm.owned s' p segment hsegment' hback
    refine ⟨id', other, i, ?_, hi, rfl⟩
    rw [h.mapping?, if_neg]
    · exact hother
    · rintro ⟨rfl, rfl⟩
      rw [h.live, Option.some.injEq] at hother
      subst hother
      exact hnot ⟨rfl, mem_pageRange.mpr ⟨i, hi, rfl⟩⟩
  · rw [h.mapping?] at h₁ h₂
    split at h₁
    · cases h₁
    · split at h₂
      · cases h₂
      · exact hm.disjoint s' id₁ id₂ mapping₁ mapping₂ i₁ i₂ h₁ h₂

end

namespace Transition

variable {machine : Machine} {away : Away} {s : SpaceId}

/-- The spaces without a mapping. -/
def unlisted (spaces : Array AddressSpace) (s : SpaceId) (id : Nat) : Array AddressSpace :=
  onSupplement spaces s fun table => { table with mappings := table.mappings.erase id }

/-- Pages stay mapped when their mapping is taken off the list. -/
theorem mapped?_unlisted {spaces : Array AddressSpace} {id : Nat} {s' : SpaceId} {p : Nat} :
    mapped? (unlisted spaces s id) s' p = mapped? spaces s' p := mapped?_onSupplement

/-- Pages keep their entries when their mapping is taken off the list. -/
theorem info?_unlisted {spaces : Array AddressSpace} {id : Nat} {s' : SpaceId} {p : Nat} :
    info? (unlisted spaces s id) s' p = info? spaces s' p :=
  info?_onSupplement_entries fun _ => rfl

/-- Pages keep their windows when their mapping is taken off the list. -/
theorem segment?_unlisted {spaces : Array AddressSpace} {id : Nat} {s' : SpaceId} {p : Nat} :
    segment? (unlisted spaces s id) s' p = segment? spaces s' p :=
  segment?_onSupplement_entries fun _ => rfl

/-- The space has the mapping no more, and is otherwise as it was. -/
theorem standing?_unlisted {spaces : Array AddressSpace} {id : Nat} {standing : Standing}
    (h : standing? spaces s = some standing) :
    standing? (unlisted spaces s id) s =
      some { standing with mappings := standing.mappings.erase id } := by
  obtain ⟨space, hspace, rfl⟩ := Option.map_eq_some_iff.mp h
  rw [unlisted, standing?_onSupplement, if_pos rfl, hspace]
  rfl

/-- The other spaces have all their mappings. -/
theorem standing?_unlisted_of_ne {spaces : Array AddressSpace} {id : Nat} {s' : SpaceId}
    (h : s' ≠ s) : standing? (unlisted spaces s id) s' = standing? spaces s' := by
  rw [unlisted, standing?_onSupplement, if_neg (Ne.symm h)]

/-- Taking a mapping off the list changes nothing but the list. -/
theorem settled_unlisted (h : machine.SettledBut away) {id : Nat} {mapping : Mapping}
    (hmapping : mapping? machine.spaces s id = some mapping) :
    SettledBut away { machine with spaces := unlisted machine.spaces s id } := by
  have hadds : Adds s (fun _ => none) machine
      { machine with spaces := unlisted machine.spaces s id } :=
    .of_eq s _ rfl rfl rfl rfl (fun _ _ => mapped?_unlisted) fun _ _ => info?_unlisted
  obtain ⟨standing, hstanding, hlisted⟩ := Option.bind_eq_some_iff.mp hmapping
  refine hadds.settled h ⟨fun s' standing' hs' => ?_, fun s' standing' hs' hd => ?_⟩
  · by_cases hs : s' = s
    · subst hs
      rw [standing?_unlisted hstanding, Option.some.injEq] at hs'
      subst hs'
      exact h.live.refusals s' standing hstanding
    · rw [standing?_unlisted_of_ne hs] at hs'
      exact h.live.refusals s' standing' hs'
  · by_cases hs : s' = s
    · subst hs
      rw [standing?_unlisted hstanding, Option.some.injEq] at hs'
      subst hs'
      -- a space that was torn down has no mapping
      rw [(h.live.destroyed s' standing hstanding hd).1] at hlisted
      simp at hlisted
    · rw [standing?_unlisted_of_ne hs] at hs'
      simpa only [info?_unlisted, frame?, mapped?_unlisted] using
        h.live.destroyed s' standing' hs' hd

/-- A mapping is taken off the list, if it is there. -/
theorem ensures_takeMapping {id : Nat} :
    Ensures (takeMapping s id) machine fun taken after => taken = mapping? machine.spaces s id ∧
      (taken = none → after = machine) ∧
      (taken.isSome = true → after = { machine with spaces := unlisted machine.spaces s id }) := by
  simp only [takeMapping, ensures_bind, ensures_supplement]
  intro space hspace
  rw [Supplement.takeMapping, mapping?_eq hspace]
  cases space.supplement.mappings[id]? with
  | none => exact ⟨rfl, fun _ => rfl, by simp⟩
  | some mapping =>
    simp only [Option.map_some, ensures_bind, ensures_setSupplement, ensures_pure]
    rw [modify_supplement hspace fun table => { table with mappings := table.mappings.erase id }]
    exact ⟨trivial, by simp, fun _ => rfl⟩

/-- A mapping is removed, if it is there. If no page of it is refused, the bytes of all of them are in
the file. -/
theorem ensures_removeMapping (h : machine.SettledBut away) (hm : Mapped machine.spaces)
    (s : SpaceId) (id : Nat) :
    Ensures (Kernel.removeMapping s id) machine fun outcome after => after.SettledBut away ∧
      match mapping? machine.spaces s id with
      | none => after = machine ∧ outcome ≠ .ok ()
      | some mapping => Unmaps s id mapping machine after ∧ (outcome = .ok () →
          Saves (among s (pageRange mapping.page mapping.pages)) machine after) := by
  simp only [Kernel.removeMapping, holding_eq, lift_eq, ensures_bind]
  refine ensures_takeMapping.mono ?_
  rintro taken taking ⟨rfl, hnone, hsome⟩
  cases hmapping : mapping? machine.spaces s id with
  | none =>
    obtain rfl := hnone hmapping
    exact ⟨h, rfl, by simp⟩
  | some mapping =>
    obtain rfl := hsome (by rw [hmapping]; rfl)
    have hsettled := settled_unlisted h hmapping
    obtain ⟨length, hpages, hmappable, hwindows⟩ := hm.windows s id mapping hmapping
    simp only [ensures_bind]
    refine (ensures_unmapPages hsettled (nodup_pageRange mapping.page mapping.pages) ?_ ?_).mono ?_
    · intro p hp
      obtain ⟨segment, hseg, hback, -⟩ := hm.window hmapping hp
      exact ⟨segment, segment?_unlisted.trans hseg, hback⟩
    · intro p hp q hq segment other k hseg hother hk hcovers
      obtain ⟨i, hi, rfl⟩ := mem_pageRange.mp hp
      obtain ⟨j, hj, rfl⟩ := mem_pageRange.mp hq
      rw [segment?_unlisted, hwindows i hi, Option.some.injEq] at hseg
      rw [segment?_unlisted, hwindows j hj, Option.some.injEq] at hother
      subst hseg hother
      rw [eq_of_mappedSegment hk hcovers.2.1 hcovers.2.2]
    · rintro outcome after ⟨⟨⟨writes, hlength, hforgets⟩, hstanding, hsettled'⟩, hsaves⟩
      simp only [ensures_space, ensures_notify, ensures_pure]
      intro _ _
      have hlisted : Forgets (fun _ _ => False) [] machine
          { machine with spaces := unlisted machine.spaces s id } :=
        .of_eq rfl rfl rfl rfl (fun _ _ => mapped?_unlisted) fun _ _ => info?_unlisted
      refine ⟨Coherent.congr hsettled' rfl rfl rfl rfl, ⟨hmapping, ⟨writes, ?_, ?_⟩, ?_, ?_⟩, ?_⟩
      · rw [length_pageRange] at hlength
        exact hlength
      · have htotal := hlisted.trans hforgets
        rw [List.nil_append] at htotal
        exact (htotal.congr fun s' p => by rw [false_or]).notices _
      · intro standing hs
        exact (hstanding s).trans (standing?_unlisted hs)
      · intro s' hne
        exact (hstanding s').trans (standing?_unlisted_of_ne hne)
      · intro hok s' p segment k b hgone hseg hk hb
        refine hsaves hok s' p segment k b hgone (segment?_unlisted.trans hseg) hk ?_
        have hp := h.described.isAligned hseg
        exact hlisted.holds hp (fun hf => hf) (fun _ _ => rfl) hb

end Transition

end DemandPaging
