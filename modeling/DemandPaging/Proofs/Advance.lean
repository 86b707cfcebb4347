import DemandPaging.Proofs.Coherence
import DemandPaging.Proofs.Contents

/-!
# Paging keeps contents

`Machine.Advance writes stored before after` says that `after` may come about from `before` by moving
pages in and out, by growing stacks, and by storing bytes in user memory: `writes` are the files that
were written on the way, one for each write, and `stored s a` is the last byte stored at address `a`
of space `s`, if there was one. Every page that was known still is, and holds what it held before with
the stored bytes laid over it; a page that is new holds zeroes and the stored bytes.

There is one reservation. Writing changed pages of mapped files back changes what other pages hold
whose window overlaps; so a page keeps its contents only as far as it is `Shielded`: a private file
page if its file was not written, and a page of a mapped file if no other such page has the same byte.

The relation composes (`Advance.trans`), so what an operation does to contents follows from what its
parts do.
-/

set_option autoImplicit false

namespace DemandPaging

open Spaces

/-- Byte `k` of the window `other` lies in the window. -/
def Segment.Covers (segment other : Segment) (k : Nat) : Prop :=
  other.file = segment.file ∧ segment.offset ≤ other.offset + k ∧
    other.offset + k < segment.offset + segment.readBytes

namespace Files

/-- The files after the writes `writes`, one file named for each write. A file that was not written
has its old content, and a write makes a file longer only where some mapped window reaches past its
end. -/
structure Written (writes : List FileId) (spaces : Array AddressSpace)
    (before after : Array MemoryFile) : Prop where
  size_eq : after.size = before.size
  file : ∀ f file, before[f]? = some file → ∃ file', after[f]? = some file' ∧
    file'.writes = file.writes + .ofNat (writes.count f) ∧
    (f ∉ writes → file'.content = file.content) ∧
    (file'.size = file.size ∨ ∃ s p segment, segment? spaces s p = some segment ∧
      segment.writeBack = true ∧ segment.file = f ∧
      file.size < segment.offset + segment.readBytes)

/-- No write, no change. -/
theorem Written.refl (spaces : Array AddressSpace) (files : Array MemoryFile) :
    Written [] spaces files files where
  size_eq := rfl
  file _ file h := ⟨file, h, by simp, fun _ => rfl, .inl rfl⟩

/-- Writes after writes are writes, provided that no window was new in between. -/
theorem Written.trans {writes writes' : List FileId} {spaces spaces' : Array AddressSpace}
    {files files' files'' : Array MemoryFile} (h : Written writes spaces files files')
    (h' : Written writes' spaces' files' files'')
    (hsegment : ∀ s p segment, segment? spaces' s p = some segment →
      segment? spaces s p = some segment) :
    Written (writes ++ writes') spaces files files'' where
  size_eq := h'.size_eq.trans h.size_eq
  file f file hf := by
    obtain ⟨file', hf', hw', hc', hs'⟩ := h.file f file hf
    obtain ⟨file'', hf'', hw'', hc'', hs''⟩ := h'.file f file' hf'
    refine ⟨file'', hf'', ?_, ?_, ?_⟩
    · rw [hw'', hw', List.count_append, UInt64.ofNat_add, UInt64.add_assoc]
    · intro hnot
      rw [List.mem_append, not_or] at hnot
      exact (hc'' hnot.2).trans (hc' hnot.1)
    · rcases hs' with hs' | hs'
      · rcases hs'' with hs'' | ⟨s, p, segment, hseg, hrest⟩
        · exact .inl (hs''.trans hs')
        · rw [hs'] at hrest
          exact .inr ⟨s, p, segment, hsegment s p segment hseg, hrest⟩
      · exact .inr hs'

/-- Windows of a file that was not written have the same bytes as before. -/
theorem Written.windowByte {writes : List FileId} {spaces : Array AddressSpace}
    {files files' : Array MemoryFile} (h : Written writes spaces files files') {segment : Segment}
    (hnot : segment.file ∉ writes) (k : Nat) :
    windowByte files' segment k = windowByte files segment k := by
  unfold Files.windowByte
  cases hf : files[segment.file]? with
  | none =>
    have hge : files.size ≤ segment.file := Array.getElem?_eq_none_iff.mp hf
    rw [Array.getElem?_eq_none (h.size_eq ▸ hge)]
  | some file =>
    obtain ⟨file', hf', -, hc, -⟩ := h.file _ file hf
    rw [hf', Option.bind_some, Option.bind_some, hc hnot]

/-- A file that is replaced by itself. -/
theorem setIfInBounds_self {files : Array MemoryFile} {f : FileId} {file : MemoryFile}
    (hf : files[f]? = some file) : files.setIfInBounds f file = files := by
  apply Array.ext_getElem?
  intro i
  rw [Array.getElem?_setIfInBounds]
  split
  · subst i
    have hlt : f < files.size := (Array.getElem?_eq_some_iff.mp hf).1
    rw [if_pos hlt, hf]
  · rfl

/-- Reading a file changes no file. -/
theorem written_read (spaces : Array AddressSpace) {files : Array MemoryFile} {f : FileId}
    {file : MemoryFile} (hf : files[f]? = some file) (offset n : Nat) :
    Written [] spaces files (files.setIfInBounds f (file.read offset n).2) where
  size_eq := Array.size_setIfInBounds
  file f' file' hf' := by
    have hread : (file.read offset n).2.content = file.content ∧
        (file.read offset n).2.writes = file.writes := by
      unfold MemoryFile.read
      split <;> exact ⟨rfl, rfl⟩
    rw [Array.getElem?_setIfInBounds]
    split
    · subst f'
      have hlt : f < files.size := (Array.getElem?_eq_some_iff.mp hf).1
      rw [hf, Option.some.injEq] at hf'
      subst hf'
      refine ⟨_, if_pos hlt, by simp [hread.2], fun _ => hread.1, .inl ?_⟩
      rw [MemoryFile.size, MemoryFile.size, hread.1]
    · exact ⟨file', hf', by simp, fun _ => rfl, .inl rfl⟩

/-- The windows in a file after some bytes of it were replaced. -/
theorem windowByte_overlay {files : Array MemoryFile} {f : FileId} {file file' : MemoryFile}
    {start : Nat} {data : Bytes} (hf : files[f]? = some file)
    (hcontent : file'.content = file.content.overlay start data) (segment : Segment) {k : Nat}
    (hk : k < segment.readBytes) :
    windowByte (files.setIfInBounds f file') segment k =
      if segment.file = f ∧ start ≤ segment.offset + k ∧ segment.offset + k < start + data.size then
        data[segment.offset + k - start]?.getD 0
      else windowByte files segment k := by
  have hlt : f < files.size := (Array.getElem?_eq_some_iff.mp hf).1
  simp only [windowByte, if_pos hk, Array.getElem?_setIfInBounds]
  by_cases hfile : f = segment.file
  · subst hfile
    simp only [if_pos, hlt, hf, Option.bind_some, hcontent, true_and]
    exact Bytes.getD_overlay _ _ _ _
  · rw [if_neg hfile, if_neg fun h => hfile h.1.symm]

/-- Outside of a window the bytes of the file are the same as before. -/
def AgreeOutside (segment : Segment) (before after : Array MemoryFile) : Prop :=
  ∀ other k, k < other.readBytes → ¬ segment.Covers other k →
    windowByte after other k = windowByte before other k

/-- A write to a file window that answers the number of bytes that it was given has stored them all. -/
theorem windowByte_write {files : Array MemoryFile} {segment : Segment} {file : MemoryFile}
    (hf : files[segment.file]? = some file) {data : Bytes} (hsize : data.size ≤ segment.readBytes)
    (hok : (file.write segment.offset data).1 = .ok data.size) {k : Nat} (hk : k < data.size) :
    windowByte (files.setIfInBounds segment.file (file.write segment.offset data).2) segment k =
      data[k]?.getD 0 := by
  unfold MemoryFile.write at hok ⊢
  cases hrefuse : file.refuseWrite? segment.offset data.size with
  | some cause => simp only [hrefuse, reduceCtorEq] at hok
  | none =>
    simp only [hrefuse, Except.ok.injEq] at hok ⊢
    rw [Bytes.size_window] at hok
    have hend : segment.offset + k <
        segment.offset + (data.window 0 (file.accepted data.size)).size := by
      rw [Bytes.size_window]
      omega
    rw [windowByte_overlay hf rfl segment (by omega), if_pos ⟨rfl, by omega, hend⟩,
      Nat.add_sub_cancel_left, Bytes.getElem?_window, Nat.zero_add, if_pos (by omega)]

/-- What a write to a file window does: it is one write to the file or none at all, it stays within
the window, and if it answers the number of bytes that it was given, all of them are stored. -/
theorem written_write {spaces : Array AddressSpace} {files : Array MemoryFile} {s : SpaceId}
    {p : Nat} {segment : Segment} (hsegment : segment? spaces s p = some segment)
    (hback : segment.writeBack = true) {file : MemoryFile}
    (hf : files[segment.file]? = some file) {data : Bytes} (hsize : data.size ≤ segment.readBytes) :
    ∃ writes : List FileId, writes.length ≤ 1 ∧
      Written writes spaces files
        (files.setIfInBounds segment.file (file.write segment.offset data).2) ∧
      AgreeOutside segment files
        (files.setIfInBounds segment.file (file.write segment.offset data).2) ∧
      ((file.write segment.offset data).1 = .ok data.size → ∀ k, k < data.size →
        windowByte (files.setIfInBounds segment.file (file.write segment.offset data).2) segment k =
          data[k]?.getD 0) := by
  have hlt : segment.file < files.size := (Array.getElem?_eq_some_iff.mp hf).1
  unfold MemoryFile.write
  cases hrefuse : file.refuseWrite? segment.offset data.size with
  | some cause =>
    refine ⟨[], Nat.zero_le _, ?_, ?_, ?_⟩
    · rw [setIfInBounds_self hf]
      exact .refl _ _
    · intro other k _ _
      rw [setIfInBounds_self hf]
    · intro hok
      cases hok
  | none =>
    set stored := data.window 0 (file.accepted data.size) with hstored
    have hstoredSize : stored.size ≤ data.size := by
      rw [hstored, Bytes.size_window]
      omega
    set file' : MemoryFile := { file with
      content := file.content.overlay segment.offset stored, writes := file.writes + 1 } with hfile'
    have hcontent : file'.content = file.content.overlay segment.offset stored := rfl
    refine ⟨[segment.file], Nat.le_refl _, ⟨?_, ?_⟩, ?_, ?_⟩
    · exact Array.size_setIfInBounds
    · intro f' old hold
      rw [Array.getElem?_setIfInBounds]
      by_cases hfile : segment.file = f'
      · subst hfile
        rw [hf, Option.some.injEq] at hold
        subst hold
        refine ⟨file', by rw [if_pos rfl, if_pos hlt], by simp [hfile'], ?_, ?_⟩
        · intro hnot
          exact absurd (List.mem_singleton.mpr rfl) hnot
        · rw [MemoryFile.size, MemoryFile.size, hcontent, Bytes.size_overlay]
          by_cases hgrow : segment.offset + stored.size ≤ file.content.size
          · exact .inl (Nat.max_eq_left hgrow)
          · refine .inr ⟨s, p, segment, hsegment, hback, rfl, ?_⟩
            omega
      · rw [if_neg hfile]
        refine ⟨old, hold, ?_, fun _ => rfl, .inl rfl⟩
        simp [hfile]
    · intro other k hk hout
      rw [windowByte_overlay hf hcontent other hk, if_neg]
      rintro ⟨hsame, hge, hle⟩
      exact hout ⟨hsame, hge, by omega⟩
    · have hbytes := @windowByte_write files segment file hf data hsize
      rw [MemoryFile.write, hrefuse] at hbytes
      exact fun hok k hk => hbytes hok hk

end Files

namespace Machine

/-- What page `p` of space `s` has at place `k` is safe from the writes `writes`. -/
def Shielded (writes : List FileId) (spaces : Array AddressSpace) (s : SpaceId) (p k : Nat) : Prop :=
  ∀ segment, segment? spaces s p = some segment →
    if segment.writeBack = true then
      k < segment.readBytes ∧ ∀ s' p' other, segment? spaces s' p' = some other →
        other.writeBack = true → other.Covers segment k → s' = s ∧ p' = p
    else segment.file ∉ writes

/-- A byte stays shielded if windows stay and there are fewer writes. -/
theorem Shielded.congr {writes writes' : List FileId} {spaces spaces' : Array AddressSpace}
    {s : SpaceId} {p k : Nat} (h : Shielded writes spaces s p k)
    (hsegment : ∀ s p, segment? spaces' s p = segment? spaces s p)
    (hwrites : ∀ f ∈ writes', f ∈ writes) : Shielded writes' spaces' s p k := by
  intro segment hseg
  rw [hsegment] at hseg
  have := h segment hseg
  split at this
  · rename_i hb
    rw [if_pos hb]
    simpa only [hsegment] using this
  · rename_i hb
    rw [if_neg hb]
    exact fun hmem => this (hwrites _ hmem)

/-- A page without a file window is safe. -/
theorem shielded_of_segment? {writes : List FileId} {spaces : Array AddressSpace} {s : SpaceId}
    {p k : Nat} (h : segment? spaces s p = none) : Shielded writes spaces s p k := by
  intro segment hseg
  rw [h] at hseg
  cases hseg

/-- What paging, growth and stores by users may do. -/
structure Advance (writes : List FileId) (stored : SpaceId → Nat → Option UInt8)
    (before after : Machine) : Prop where
  stackLimit_eq : after.stackLimit = before.stackLimit
  standing : ∀ s, standing? after.spaces s = standing? before.spaces s
  segment : ∀ s p, segment? after.spaces s p = segment? before.spaces s p
  known : ∀ s p, IsAligned p → before.Known s p → after.Known s p
  stored_known : ∀ s p k b, IsAligned p → k < pageSize → stored s (p + k) = some b → after.Known s p
  fresh : ∀ s p k, IsAligned p → k < pageSize → after.Known s p → ¬ before.Known s p →
    after.Holds s p k ((stored s (p + k)).getD 0)
  holds : ∀ s p k b, IsAligned p → k < pageSize → Shielded writes before.spaces s p k →
    before.Holds s p k b → after.Holds s p k ((stored s (p + k)).getD b)
  files : Files.Written writes before.spaces before.files after.files

/-- Nothing is stored. -/
abbrev nothing : SpaceId → Nat → Option UInt8 := fun _ _ => none

/-- A machine that does nothing advances. -/
theorem Advance.refl (machine : Machine) : Advance [] nothing machine machine where
  stackLimit_eq := rfl
  standing _ := rfl
  segment _ _ := rfl
  known _ _ _ h := h
  stored_known _ _ _ _ _ _ h := by cases h
  fresh _ _ _ _ _ h hnot := absurd h hnot
  holds _ _ _ _ _ _ _ h := h
  files := .refl _ _

/-- A page without an entry of any kind has no file window. -/
theorem segment?_eq_none_of_not_known {machine : Machine} {s : SpaceId} {p : Nat}
    (h : ¬ machine.Known s p) : segment? machine.spaces s p = none := by
  simp only [Known, not_or, Option.not_isSome_iff_eq_none] at h
  simp [segment?, h.2]

/-- A page that has a window is known. -/
theorem known_of_segment? {machine : Machine} {s : SpaceId} {p : Nat} {segment : Segment}
    (h : segment? machine.spaces s p = some segment) : machine.Known s p := by
  by_contra hunknown
  rw [segment?_eq_none_of_not_known hunknown] at h
  cases h

/-- One advance after another: the writes add up, and what was stored last counts. -/
theorem Advance.trans {writes writes' : List FileId} {stored stored' : SpaceId → Nat → Option UInt8}
    {m m' m'' : Machine} (h : Advance writes stored m m') (h' : Advance writes' stored' m' m'') :
    Advance (writes ++ writes') (fun s a => stored' s a <|> stored s a) m m'' where
  stackLimit_eq := h'.stackLimit_eq.trans h.stackLimit_eq
  standing s := (h'.standing s).trans (h.standing s)
  segment s p := (h'.segment s p).trans (h.segment s p)
  known s p hp hk := h'.known s p hp (h.known s p hp hk)
  stored_known s p k b hp hk hb := by
    cases hs : stored' s (p + k) with
    | some b' => exact h'.stored_known s p k b' hp hk hs
    | none =>
      rw [hs] at hb
      exact h'.known s p hp (h.stored_known s p k b hp hk hb)
  fresh s p k hp hk hafter hbefore := by
    by_cases hmid : m'.Known s p
    · have hnone : segment? m'.spaces s p = none := by
        rw [h.segment, segment?_eq_none_of_not_known hbefore]
      have := h'.holds s p k _ hp hk (shielded_of_segment? hnone) (h.fresh s p k hp hk hmid hbefore)
      cases hs : stored' s (p + k) <;> simpa [hs] using this
    · have := h'.fresh s p k hp hk hafter hmid
      have hnone : stored s (p + k) = none := by
        by_contra hne
        obtain ⟨b, hb⟩ := Option.ne_none_iff_exists'.mp hne
        exact hmid (h.stored_known s p k b hp hk hb)
      simpa [hnone] using this
  holds s p k b hp hk hshield hb := by
    have hmid := h.holds s p k b hp hk
      (hshield.congr (fun _ _ => rfl) fun f hf => List.mem_append_left _ hf) hb
    have := h'.holds s p k _ hp hk
      (hshield.congr h.segment fun f hf => List.mem_append_right _ hf) hmid
    cases hs : stored' s (p + k) <;> simpa [hs] using this
  files := h.files.trans h'.files fun s p _ hsegment => (h.segment s p).symm.trans hsegment

/-- Paging after paging is paging. -/
theorem Advance.trans_nothing {writes writes' : List FileId} {m m' m'' : Machine}
    (h : Advance writes nothing m m') (h' : Advance writes' nothing m' m'') :
    Advance (writes ++ writes') nothing m m'' := h.trans h'

/-! ### Single changes -/

section

variable {writes : List FileId} {m m' : Machine} {s : SpaceId} {p k : Nat} {b : UInt8}

/-- A page holds what it held if its entry, its frame, its slot and its window have not changed. More
flags may be set than before. -/
theorem Holds.congr (h : m.Holds s p k b) (hinfo : info? m'.spaces s p = info? m.spaces s p)
    (hunmapped : mapped? m.spaces s p = none → mapped? m'.spaces s p = none)
    (hmapped : ∀ e, mapped? m.spaces s p = some e → ∃ e', mapped? m'.spaces s p = some e' ∧
      e'.frame = e.frame ∧ (e'.dirty = false → e.dirty = false) ∧
      m'.frames.memory.byte? e.frame.toNat k = m.frames.memory.byte? e.frame.toNat k)
    (hslot : ∀ copy, copy? m.spaces s p = some copy →
      m'.swap.device.disk.slotByte copy.slot k = m.swap.device.disk.slotByte copy.slot k)
    (hwindow : ∀ segment, segment? m.spaces s p = some segment →
      Files.windowByte m'.files segment k = Files.windowByte m.files segment k) :
    m'.Holds s p k b := by
  have hsegment : segment? m'.spaces s p = segment? m.spaces s p := by
    rw [segment?, segment?, hinfo]
  have hcopy : copy? m'.spaces s p = copy? m.spaces s p := by rw [copy?, copy?, hinfo]
  cases hentry : mapped? m.spaces s p with
  | some e =>
    obtain ⟨e', he', hframe, hdirty, hbyte⟩ := hmapped e hentry
    rw [holds_of_mapped hentry] at h
    rw [holds_of_mapped he', hframe, hbyte, hsegment]
    refine ⟨h.1, fun hclean segment hseg => ?_⟩
    rw [hwindow segment hseg]
    exact h.2 (hdirty hclean) segment hseg
  | none =>
    have hentry' := hunmapped hentry
    cases hc : copy? m.spaces s p with
    | some copy =>
      rw [holds_of_copy hentry hc] at h
      rw [holds_of_copy hentry' (hcopy.trans hc), hslot copy hc]
      exact h
    | none =>
      rw [holds_of_file hentry hc] at h
      rw [holds_of_file hentry' (hcopy.trans hc), hsegment]
      obtain ⟨segment, hseg, hbyte⟩ := h
      exact ⟨segment, hseg, (hwindow segment hseg).trans hbyte⟩

/-- Setting flags of mapped pages is paging. -/
theorem Advance.of_alike (hlike : Alike m.spaces m'.spaces) (hlimit : m'.stackLimit = m.stackLimit)
    (hmemory : m'.frames.memory = m.frames.memory)
    (hdisk : m'.swap.device.disk = m.swap.device.disk) (hfiles : m'.files = m.files) :
    Advance [] nothing m m' where
  stackLimit_eq := hlimit
  standing := hlike.standing
  segment := hlike.segment
  known s p _ hknown := by
    rcases hknown with hm | hi
    · obtain ⟨e, he⟩ := Option.isSome_iff_exists.mp hm
      obtain ⟨e', he', -⟩ := hlike.mapped s p e he
      exact .inl (by rw [he', Option.isSome_some])
    · exact .inr (by rw [hlike.info, hi])
  stored_known s p k b _ _ hb := by cases hb
  fresh s p k _ _ hafter hbefore := by
    refine absurd ?_ hbefore
    rcases hafter with hm | hi
    · cases he : mapped? m.spaces s p with
      | none =>
        rw [hlike.unmapped s p he] at hm
        cases hm
      | some e => exact .inl (by rw [he, Option.isSome_some])
    · exact .inr (by rw [← hlike.info, hi])
  holds s p k b _ _ _ hb := by
    refine hb.congr (hlike.info s p) (hlike.unmapped s p) ?_ ?_ ?_
    · intro e he
      obtain ⟨e', he', hframe, hdirty⟩ := hlike.mapped s p e he
      exact ⟨e', he', hframe, hdirty, by rw [hmemory]⟩
    · intro copy _
      rw [hdisk]
    · intro segment _
      rw [hfiles]
  files := by
    rw [hfiles]
    exact .refl _ _

/-- A change at one page that leaves all other pages their frames, slots and windows. -/
theorem Advance.of_page (hp : IsAligned p) (hlimit : m'.stackLimit = m.stackLimit)
    (he : Elsewhere m.spaces m'.spaces s p)
    (hfiles : Files.Written writes m.spaces m.files m'.files)
    (hmemory : ∀ s' p' frame k, IsAligned p' → ¬ (s' = s ∧ p' = p) →
      frame? m.spaces s' p' = some frame →
      m'.frames.memory.byte? frame k = m.frames.memory.byte? frame k)
    (hdisk : ∀ s' p' copy k, ¬ (s' = s ∧ p' = p) → copy? m.spaces s' p' = some copy →
      k < pageSize → m'.swap.device.disk.slotByte copy.slot k =
        m.swap.device.disk.slotByte copy.slot k)
    (hwindow : ∀ s' p' segment k, ¬ (s' = s ∧ p' = p) →
      segment? m.spaces s' p' = some segment → Shielded writes m.spaces s' p' k →
      Files.windowByte m'.files segment k = Files.windowByte m.files segment k)
    (hsegment : segment? m'.spaces s p = segment? m.spaces s p)
    (hknown : m.Known s p → m'.Known s p)
    (hfresh : m'.Known s p → ¬ m.Known s p → ∀ k, k < pageSize → m'.Holds s p k 0)
    (hholds : ∀ k b, k < pageSize → Shielded writes m.spaces s p k → m.Holds s p k b →
      m'.Holds s p k b) :
    Advance writes nothing m m' where
  stackLimit_eq := hlimit
  standing := he.standing
  segment s' p' := by
    by_cases hsp : s' = s ∧ p' = p
    · rw [hsp.1, hsp.2, hsegment]
    · exact he.segment hsp
  known s' p' hp' h := by
    by_cases hsp : s' = s ∧ p' = p
    · obtain ⟨rfl, rfl⟩ := hsp
      exact hknown h
    · unfold Known at h ⊢
      rw [he.mapped s' p' hp' hsp, he.info s' p' hsp]
      exact h
  stored_known s p k b _ _ hb := by cases hb
  fresh s' p' k hp' hk hafter hbefore := by
    by_cases hsp : s' = s ∧ p' = p
    · obtain ⟨rfl, rfl⟩ := hsp
      exact hfresh hafter hbefore k hk
    · unfold Known at hafter hbefore
      rw [he.mapped s' p' hp' hsp, he.info s' p' hsp] at hafter
      exact absurd hafter hbefore
  holds s' p' k b hp' hk hshield hb := by
    by_cases hsp : s' = s ∧ p' = p
    · obtain ⟨rfl, rfl⟩ := hsp
      exact hholds k b hk hshield hb
    · have hentry := he.mapped s' p' hp' hsp
      refine hb.congr (he.info s' p' hsp) (fun hn => hentry.trans hn) ?_ ?_ ?_
      · intro e hmapped
        refine ⟨e, hentry.trans hmapped, rfl, fun hd => hd, ?_⟩
        refine hmemory s' p' e.frame.toNat k hp' hsp ?_
        rw [frame?, hmapped, Option.map_some]
      · intro copy hcopy
        exact hdisk s' p' copy k hsp hcopy hk
      · intro segment hseg
        exact hwindow s' p' segment k hsp hseg hshield
  files := hfiles

/-- Frames that back no page and slots that no page has may be filled with anything. -/
theorem Advance.of_spaces (hspaces : m'.spaces = m.spaces) (hlimit : m'.stackLimit = m.stackLimit)
    (hfiles : Files.Written [] m.spaces m.files m'.files)
    (hmemory : ∀ s p frame k, IsAligned p → frame? m.spaces s p = some frame →
      m'.frames.memory.byte? frame k = m.frames.memory.byte? frame k)
    (hdisk : ∀ s p copy k, copy? m.spaces s p = some copy → k < pageSize →
      m'.swap.device.disk.slotByte copy.slot k = m.swap.device.disk.slotByte copy.slot k) :
    Advance [] nothing m m' where
  stackLimit_eq := hlimit
  standing s := by rw [hspaces]
  segment s p := by rw [hspaces]
  known s p _ h := by
    unfold Known at h ⊢
    rw [hspaces]
    exact h
  stored_known s p k b _ _ hb := by cases hb
  fresh s p k _ _ hafter hbefore := by
    unfold Known at hafter hbefore
    rw [hspaces] at hafter
    exact absurd hafter hbefore
  holds s p k b hp hk _ hb := by
    refine hb.congr (by rw [hspaces]) (fun hn => by rw [hspaces, hn]) ?_ ?_ ?_
    · intro e hmapped
      refine ⟨e, by rw [hspaces, hmapped], rfl, fun hd => hd, ?_⟩
      exact hmemory s p e.frame.toNat k hp (by rw [frame?, hmapped, Option.map_some])
    · intro copy hcopy
      exact hdisk s p copy k hcopy hk
    · intro segment _
      exact hfiles.windowByte List.not_mem_nil k
  files := hfiles

/-- The windows of safe pages keep their bytes when the window of another page of a mapped file is
written. -/
theorem windowByte_of_shielded {spaces : Array AddressSpace} {files files' : Array MemoryFile}
    {segment : Segment} (hsegment : segment? spaces s p = some segment)
    (hback : segment.writeBack = true)
    (hwritten : Files.Written writes spaces files files')
    (hout : Files.AgreeOutside segment files files')
    {s' : SpaceId} {p' : Nat} {other : Segment} (hsp : ¬ (s' = s ∧ p' = p))
    (hother : segment? spaces s' p' = some other) (hshield : Shielded writes spaces s' p' k) :
    Files.windowByte files' other k = Files.windowByte files other k := by
  have hsafe := hshield other hother
  by_cases hb : other.writeBack = true
  · rw [if_pos hb] at hsafe
    obtain ⟨hk, halone⟩ := hsafe
    refine hout other k hk ?_
    intro hcovers
    obtain ⟨rfl, rfl⟩ := halone s p segment hsegment hback hcovers
    exact hsp ⟨rfl, rfl⟩
  · rw [if_neg hb] at hsafe
    exact hwritten.windowByte hsafe k

end

/-! ### Pages on the move -/

/-- Pages were moved out, with at most `n` writes to files. Pages that were not mapped were left
alone. -/
structure Paging (n : Nat) (before after : Machine) : Prop where
  advance : ∃ writes, writes.length ≤ n ∧ Advance writes nothing before after
  absent : ∀ s p, IsAligned p → mapped? before.spaces s p = none →
    mapped? after.spaces s p = none ∧ info? after.spaces s p = info? before.spaces s p

/-- A machine that moves no page only pages. -/
theorem Paging.refl (m : Machine) : Paging 0 m m where
  advance := ⟨[], Nat.le_refl _, .refl m⟩
  absent _ _ _ h := ⟨h, rfl⟩

/-- Moving pages twice takes as many writes as both times together. -/
theorem Paging.trans {n n' : Nat} {m m' m'' : Machine} (h : Paging n m m')
    (h' : Paging n' m' m'') : Paging (n + n') m m'' where
  advance := by
    obtain ⟨writes, hlength, hadvance⟩ := h.advance
    obtain ⟨writes', hlength', hadvance'⟩ := h'.advance
    refine ⟨writes ++ writes', ?_, hadvance.trans_nothing hadvance'⟩
    rw [List.length_append]
    exact Nat.add_le_add hlength hlength'
  absent s p hp hnone := by
    obtain ⟨hmapped, hinfo⟩ := h.absent s p hp hnone
    obtain ⟨hmapped', hinfo'⟩ := h'.absent s p hp hmapped
    exact ⟨hmapped', hinfo'.trans hinfo⟩

/-- More writes may be allowed for. -/
theorem Paging.mono {n n' : Nat} {m m' : Machine} (h : Paging n m m') (hle : n ≤ n') :
    Paging n' m m' where
  advance := by
    obtain ⟨writes, hlength, hadvance⟩ := h.advance
    exact ⟨writes, Nat.le_trans hlength hle, hadvance⟩
  absent := h.absent

/-- No space changes its standing when pages are moved. -/
theorem Paging.standing {n : Nat} {m m' : Machine} (h : Paging n m m') (s : SpaceId) :
    standing? m'.spaces s = standing? m.spaces s := by
  obtain ⟨_, -, hadvance⟩ := h.advance
  exact hadvance.standing s

/-- To mark pages, with all contents as they are, is a way of moving none. -/
theorem Paging.of_alike {m m' : Machine} (hlike : Alike m.spaces m'.spaces)
    (hlimit : m'.stackLimit = m.stackLimit) (hmemory : m'.frames.memory = m.frames.memory)
    (hdisk : m'.swap.device.disk = m.swap.device.disk) (hfiles : m'.files = m.files) :
    Paging 0 m m' where
  advance := ⟨[], Nat.le_refl _, .of_alike hlike hlimit hmemory hdisk hfiles⟩
  absent s p _ hnone := ⟨hlike.unmapped s p hnone, hlike.info s p⟩

/-- Frames, slots and files may change behind the pages, as long as every page still finds its own. -/
theorem Paging.of_spaces {m m' : Machine} (hspaces : m'.spaces = m.spaces)
    (hlimit : m'.stackLimit = m.stackLimit)
    (hfiles : Files.Written [] m.spaces m.files m'.files)
    (hmemory : ∀ s p frame k, IsAligned p → frame? m.spaces s p = some frame →
      m'.frames.memory.byte? frame k = m.frames.memory.byte? frame k)
    (hdisk : ∀ s p copy k, copy? m.spaces s p = some copy → k < pageSize →
      m'.swap.device.disk.slotByte copy.slot k = m.swap.device.disk.slotByte copy.slot k) :
    Paging 0 m m' where
  advance := ⟨[], Nat.le_refl _, .of_spaces hspaces hlimit hfiles hmemory hdisk⟩
  absent s p _ hnone := by
    rw [hspaces]
    exact ⟨hnone, rfl⟩

end Machine

end DemandPaging
