import DemandPaging.Proofs.Mappings
import DemandPaging.Proofs.Outcomes

/-!
# Steadiness

A page may be registered while it is mapped, and a stack page may be added where there is an entry. The
parts of the machine do not agree then, and `Coherent` is lost. `Steady` is what no call can spoil,
whatever pages it names: the frames that are out are those that have a record or that an eviction has
taken; whatever is mapped has a record; and no entry is marked between calls, and the page of an
anonymous one is mapped.

Under `careful` terms, when no stack page is ever added where a mapped file belongs, the machine is
`Honest` besides: whatever has a record is mapped. The other terms say whether there may be anonymous
entries, and what an eviction has on its way that nobody else may touch.

Each kind of change has a lemma here, and the operations are followed by these lemmas alone.
-/

set_option autoImplicit false

namespace DemandPaging

open Spaces Machine

/-! ### Terms -/

/-- Nothing has changed but files and devices. -/
def Machine.Devices (before after : Machine) : Prop :=
  ∃ files device, after = { before with files, swap := { before.swap with device } }

/-- Files and devices may stay as they are. -/
theorem Machine.Devices.refl (m : Machine) : m.Devices m := ⟨m.files, m.swap.device, rfl⟩

/-- Files and devices may be changed again. -/
theorem Machine.Devices.trans {m m' m'' : Machine} (h : m.Devices m') (h' : m'.Devices m'') :
    m.Devices m'' := by
  obtain ⟨_, _, rfl⟩ := h
  obtain ⟨files, device, rfl⟩ := h'
  exact ⟨files, device, rfl⟩

/-- A page did not fit into swap, or the swap device failed. -/
def VmError.OfSwap (cause : VmError) : Prop := cause = .swapFull ∨ ∃ e, cause = .block e

/-- On which terms a machine is looked at. -/
structure Terms where
  /-- No stack page is added where a mapped file belongs. -/
  careful : Prop := False
  /-- Evictions that failed may have left anonymous entries. -/
  leftover : Prop := True
  /-- The page that an eviction has on its way. -/
  page : Option (SpaceId × Nat) := none
  /-- The frames that it has taken. -/
  frames : List Nat := []
  /-- The bytes of these frames and those of all slots, if they must stay as they are. -/
  bytes : Option ((Nat → Nat → Option UInt8) × (Nat → Nat → UInt8)) := none

namespace Terms

/-- Nothing is on its way. -/
structure Idle (terms : Terms) : Prop where
  page : terms.page = none
  frames : terms.frames = []
  bytes : terms.bytes = none

/-- An eviction has a page on its way. -/
def moving (terms : Terms) (s : SpaceId) (p : Nat) : Terms := { terms with page := some (s, p) }

/-- There may be anonymous entries if the failure is one of swap. -/
def excusing (terms : Terms) (cause : VmError) : Terms :=
  { terms with leftover := terms.leftover ∨ cause.OfSwap }

/-- The bytes that must stay as they are. -/
def Untouched (terms : Terms) (machine : Machine) : Prop :=
  ∀ inFrame inSlot, terms.bytes = some (inFrame, inSlot) →
    (∀ f ∈ terms.frames, ∀ k, machine.frames.memory.byte? f k = inFrame f k) ∧
      ∀ slot k, machine.swap.device.disk.slotByte slot k = inSlot slot k

/-- If no bytes must stay, none is missing. -/
theorem untouched_of_none {terms : Terms} (h : terms.bytes = none) (machine : Machine) :
    terms.Untouched machine := by
  intro _ _ hbytes
  rw [h] at hbytes
  cases hbytes

/-- Others have changed files and devices at most, and no byte of a slot that must stay. -/
structure Allows (terms : Terms) (before after : Machine) : Prop where
  devices : before.Devices after
  bytes : terms.bytes.isSome = true → ∀ slot k,
    after.swap.device.disk.slotByte slot k = before.swap.device.disk.slotByte slot k

/-- Others leave the spaces alone on any terms. -/
theorem Allows.spaces_eq {terms : Terms} {before after : Machine} (h : terms.Allows before after) :
    after.spaces = before.spaces := by
  obtain ⟨⟨_, _, rfl⟩, -⟩ := h
  rfl

/-- Others may do nothing. -/
theorem Allows.refl (terms : Terms) (m : Machine) : terms.Allows m m := ⟨.refl m, fun _ _ _ => rfl⟩

/-- What others may do twice they may do. -/
theorem Allows.trans {terms : Terms} {m m' m'' : Machine} (h : terms.Allows m m')
    (h' : terms.Allows m' m'') : terms.Allows m m'' :=
  ⟨h.devices.trans h'.devices, fun hsome slot k => (h'.bytes hsome slot k).trans (h.bytes hsome slot k)⟩

end Terms

/-- Others may change files and devices at will if no byte must stay. -/
theorem Machine.Devices.allowed {before after : Machine} (h : before.Devices after) {terms : Terms}
    (hnone : terms.bytes = none) : terms.Allows before after :=
  ⟨h, fun hsome => by rw [hnone] at hsome; cases hsome⟩

/-! ### Tables -/

namespace Spaces

variable {a b : Array AddressSpace} {s : SpaceId} {p : Nat}

/-- Entries, standings and frames are the same. -/
structure Similar (a b : Array AddressSpace) : Prop where
  info : ∀ s p, info? b s p = info? a s p
  standing : ∀ s, standing? b s = standing? a s
  frame : ∀ s p, frame? b s p = frame? a s p

/-- Tables are similar to themselves. -/
theorem Similar.refl (a : Array AddressSpace) : Similar a a :=
  ⟨fun _ _ => rfl, fun _ => rfl, fun _ _ => rfl⟩

/-- Tables that are alike are similar. -/
theorem Alike.similar (h : Alike a b) : Similar a b := ⟨h.info, h.standing, h.frame⟩

/-- Similar tables have the same windows. -/
theorem Similar.segment (h : Similar a b) (s : SpaceId) (p : Nat) :
    segment? b s p = segment? a s p := by rw [segment?, segment?, h.info]

/-- The pages of a mapping have the windows of a file. -/
def Whole (spaces : Array AddressSpace) (s : SpaceId) (mapping : Mapping) : Prop :=
  ∃ length, mapping.pages = pageCount length ∧ ∀ i, i < mapping.pages →
    segment? spaces s (mapping.page + i * pageSize) = some (mappedSegment mapping.file length i)

/-- Only the windows of the pages matter. -/
theorem Whole.congr {mapping : Mapping} (h : Whole a s mapping)
    (hsegment : ∀ p ∈ pageRange mapping.page mapping.pages, segment? b s p = segment? a s p) :
    Whole b s mapping := by
  obtain ⟨length, hpages, hwindows⟩ := h
  exact ⟨length, hpages, fun i hi =>
    (hsegment _ (mem_pageRange.mpr ⟨i, hi, rfl⟩)).trans (hwindows i hi)⟩

/-- What holds of the tables of all spaces. -/
structure Tables (terms : Terms) (spaces : Array AddressSpace) : Prop where
  /-- No directory turns a mapping down. -/
  refusals : ∀ s standing, standing? spaces s = some standing → standing.refusals = 0
  /-- A space that was torn down has no entries. -/
  torn : ∀ s p info, info? spaces s p = some info → ¬ TornDown spaces s
  aligned : ∀ s p info, info? spaces s p = some info → IsAligned p
  /-- An entry is marked only while its page is on its way. -/
  still : ∀ s p info, info? spaces s p = some info → terms.page ≠ some (s, p) → info.evicting = false
  /-- A page with an anonymous entry is mapped unless it is on its way. -/
  anonymous : ∀ s p info, info? spaces s p = some info → terms.page ≠ some (s, p) →
    info.backing = .anonymous → terms.leftover ∧ info.resident = true ∧
      (frame? spaces s p).isSome = true
  /-- The pages of a live mapping belong to its file. -/
  whole : ∀ s id mapping, mapping? spaces s id = some mapping → Whole spaces s mapping
  /-- No page belongs to two mappings. -/
  disjoint : ∀ s id id' mapping mapping' p, mapping? spaces s id = some mapping →
    mapping? spaces s id' = some mapping' → p ∈ pageRange mapping.page mapping.pages →
      p ∈ pageRange mapping'.page mapping'.pages → id' = id

/-- What holds of the entry of a page. -/
structure Entry (terms : Terms) (spaces : Array AddressSpace) (s : SpaceId) (p : Nat)
    (info : PageInfo) : Prop where
  live : ¬ TornDown spaces s
  still : terms.page ≠ some (s, p) → info.evicting = false
  anonymous : terms.page ≠ some (s, p) → info.backing = .anonymous →
    terms.leftover ∧ info.resident = true ∧ (frame? spaces s p).isSome = true

/-- What is said of a page is true: it is mapped to the frames whose records name it, but for pinned
frames; and if it belongs to a mapped file and is said to be out of memory, then it is, unless it was
just loaded. -/
structure Honest (pinned : List Nat) (records : List FrameRecord) (spaces : Array AddressSpace)
    (s : SpaceId) (p : Nat) : Prop where
  mapped : ∀ r ∈ records, r.owner = s → r.page = some p → r.frame ∉ pinned →
    frame? spaces s p = some r.frame
  truthful : ∀ info segment frame, info? spaces s p = some info → info.segment? = some segment →
    segment.writeBack = true → info.resident = false → frame? spaces s p = some frame → frame ∈ pinned

section

variable {terms : Terms} {pinned pinned' : List Nat} {records records' : List FrameRecord}

/-- The pages of a live mapping belong to mapped files. -/
theorem Tables.windows (h : Tables terms a) (s : SpaceId) (id : Nat) (mapping : Mapping) (p : Nat)
    (hmapping : mapping? a s id = some mapping) (hmem : p ∈ pageRange mapping.page mapping.pages) :
    ∃ segment, segment? a s p = some segment ∧ segment.writeBack = true := by
  obtain ⟨length, -, hwindows⟩ := h.whole s id mapping hmapping
  obtain ⟨i, hi, rfl⟩ := mem_pageRange.mp hmem
  exact ⟨_, hwindows i hi, rfl⟩

/-- What holds of the tables holds of similar ones. -/
theorem Tables.similar (h : Tables terms a) (hs : Similar a b) : Tables terms b where
  refusals := by simpa only [hs.standing] using h.refusals
  torn := by simpa only [hs.info, TornDown, hs.standing] using h.torn
  aligned := by simpa only [hs.info] using h.aligned
  still := by simpa only [hs.info] using h.still
  anonymous := by simpa only [hs.info, hs.frame] using h.anonymous
  whole := by simpa only [mapping?_congr (hs.standing _), Whole, hs.segment] using h.whole
  disjoint := by simpa only [mapping?_congr (hs.standing _)] using h.disjoint

/-- What is said truly of a page is said truly in similar tables. -/
theorem Honest.similar (h : Honest pinned records a s p) (hs : Similar a b) :
    Honest pinned records b s p where
  mapped := by simpa only [hs.frame] using h.mapped
  truthful := by simpa only [hs.info, hs.frame] using h.truthful

/-- Only one page was changed, and its window if it belongs to no mapping. -/
theorem Tables.update {page : Option (SpaceId × Nat)} (h : Tables terms a) (he : Elsewhere a b s p)
    (hp : IsAligned p) (hentry : ∀ info, info? b s p = some info → Entry { terms with page } b s p info)
    (hpage : ∀ s' p', ¬ (s' = s ∧ p' = p) → page ≠ some (s', p') → terms.page ≠ some (s', p'))
    (hsegment : segment? b s p = segment? a s p ∨
      ∀ id mapping, mapping? a s id = some mapping → p ∉ pageRange mapping.page mapping.pages) :
    Tables { terms with page } b where
  refusals := by simpa only [he.standing] using h.refusals
  torn s' p' info hinfo := by
    by_cases hsp : s' = s ∧ p' = p
    · obtain ⟨rfl, rfl⟩ := hsp
      exact (hentry info hinfo).live
    · rw [he.info s' p' hsp] at hinfo
      rw [TornDown, he.standing]
      exact h.torn s' p' info hinfo
  aligned s' p' info hinfo := by
    by_cases hsp : s' = s ∧ p' = p
    · exact hsp.2 ▸ hp
    · exact h.aligned s' p' info ((he.info s' p' hsp).symm.trans hinfo)
  still s' p' info hinfo hnot := by
    by_cases hsp : s' = s ∧ p' = p
    · obtain ⟨rfl, rfl⟩ := hsp
      exact (hentry info hinfo).still hnot
    · exact h.still s' p' info ((he.info s' p' hsp).symm.trans hinfo) (hpage s' p' hsp hnot)
  anonymous s' p' info hinfo hnot hanonymous := by
    by_cases hsp : s' = s ∧ p' = p
    · obtain ⟨rfl, rfl⟩ := hsp
      exact (hentry info hinfo).anonymous hnot hanonymous
    · have hinfo' := (he.info s' p' hsp).symm.trans hinfo
      rw [he.frame (h.aligned s' p' info hinfo') hsp]
      exact h.anonymous s' p' info hinfo' (hpage s' p' hsp hnot) hanonymous
  whole s' id mapping hmapping := by
    rw [mapping?_congr (he.standing s')] at hmapping
    refine (h.whole s' id mapping hmapping).congr fun p' hmem => ?_
    by_cases hsp : s' = s ∧ p' = p
    · obtain ⟨rfl, rfl⟩ := hsp
      exact hsegment.resolve_right fun hnone => hnone id mapping hmapping hmem
    · exact he.segment hsp
  disjoint s' := by simpa only [mapping?_congr (he.standing s')] using h.disjoint s'

end

end Spaces

/-! ### The whole machine -/

/-- What no call can spoil, on the terms `terms`, while the frames `loose` are out without a record and
the frames `pinned` are pinned. -/
structure Machine.Steady (terms : Terms) (loose pinned : List Nat) (m : Machine) : Prop where
  pool : m.frames.pool.Accounts (m.frames.records.map (·.frame) ++ (loose ++ terms.frames)) pinned
  bound : ∀ r ∈ m.frames.records, ∃ p, r.page = some p ∧ IsAligned p
  recorded : ∀ s p frame, IsAligned p → frame? m.spaces s p = some frame →
    { frame, owner := s, page := some p } ∈ m.frames.records
  tables : Tables terms m.spaces
  honest : terms.careful → ∀ s p, Honest pinned m.frames.records m.spaces s p
  untouched : terms.Untouched m

section

variable {terms : Terms} {loose pinned : List Nat} {m m' : Machine} {s : SpaceId} {p frame : Nat}

/-- Nothing has changed but flags, devices, files and what was said. -/
theorem Machine.Steady.similar (h : m.Steady terms loose pinned) (hpool : m'.frames.pool = m.frames.pool)
    (hrecords : m'.frames.records = m.frames.records) (hs : Similar m.spaces m'.spaces)
    (huntouched : terms.Untouched m') : m'.Steady terms loose pinned where
  pool := by
    rw [hpool, hrecords]
    exact h.pool
  bound := hrecords ▸ h.bound
  recorded s p frame hp hframe := by
    rw [hrecords]
    exact h.recorded s p frame hp ((hs.frame s p).symm.trans hframe)
  tables := h.tables.similar hs
  honest hcareful s p := hrecords ▸ (h.honest hcareful s p).similar hs
  untouched := huntouched

/-- No eviction has taken a frame that has a record. -/
theorem Machine.Steady.not_mem_frames (h : m.Steady terms loose pinned)
    {record : FrameRecord} (hr : record ∈ m.frames.records) :
    record.frame ∉ loose ∧ record.frame ∉ terms.frames := by
  have hdisjoint := (List.nodup_append.mp h.pool.nodup).2.2 record.frame (List.mem_map_of_mem hr)
  exact ⟨fun hl => hdisjoint _ (List.mem_append_left _ hl) rfl,
    fun hf => hdisjoint _ (List.mem_append_right _ hf) rfl⟩

/-- A frame that is out without a record is mapped nowhere. -/
theorem Machine.Steady.unmapped (h : m.Steady terms loose pinned) (hout : frame ∈ loose ++ terms.frames)
    (hp : IsAligned p) : frame? m.spaces s p ≠ some frame := by
  intro hframe
  have hnot := h.not_mem_frames (h.recorded s p frame hp hframe)
  exact (List.mem_append.mp hout).elim hnot.1 hnot.2

/-- Two records of one frame are the same. -/
theorem Machine.Steady.record_inj (h : m.Steady terms loose pinned) {r r' : FrameRecord}
    (hr : r ∈ m.frames.records) (hr' : r' ∈ m.frames.records) (hframe : r.frame = r'.frame) : r = r' :=
  List.inj_on_of_nodup_map (List.nodup_append.mp h.pool.nodup).1 hr hr' hframe

/-- Only one page and its frames were changed: records of the page may have come and gone, and other
frames are pinned if they were. -/
theorem Machine.Steady.update {loose' pinned' : List Nat} (h : m.Steady terms loose pinned)
    (page : Option (SpaceId × Nat)) (he : Elsewhere m.spaces m'.spaces s p) (hp : IsAligned p)
    (hpage : ∀ s' p', ¬ (s' = s ∧ p' = p) → page ≠ some (s', p') → terms.page ≠ some (s', p'))
    (hpool : m'.frames.pool.Accounts
      (m'.frames.records.map (·.frame) ++ (loose' ++ terms.frames)) pinned')
    (hrecords : ∀ r, ¬ (r.owner = s ∧ r.page = some p) →
      (r ∈ m'.frames.records ↔ r ∈ m.frames.records))
    (hpinned : ∀ r ∈ m.frames.records, ¬ (r.owner = s ∧ r.page = some p) → r.frame ∈ pinned →
      r.frame ∈ pinned')
    (hframe : ∀ frame, frame? m'.spaces s p = some frame →
      { frame, owner := s, page := some p } ∈ m'.frames.records)
    (hentry : ∀ info, info? m'.spaces s p = some info →
      Entry { terms with page } m'.spaces s p info)
    (hsegment : segment? m'.spaces s p = segment? m.spaces s p ∨
      ∀ id mapping, mapping? m.spaces s id = some mapping → p ∉ pageRange mapping.page mapping.pages)
    (hhonest : terms.careful → Honest pinned' m'.frames.records m'.spaces s p)
    (huntouched : terms.Untouched m') : m'.Steady { terms with page } loose' pinned' := by
  have htables := h.tables.update he hp hentry hpage hsegment
  refine ⟨hpool, fun r hr => ?_, fun s' p' frame hp' hframe' => ?_, htables, fun hcareful s' p' => ?_,
    huntouched⟩
  · by_cases hsp : r.owner = s ∧ r.page = some p
    · exact ⟨p, hsp.2, hp⟩
    · exact h.bound r ((hrecords r hsp).mp hr)
  · by_cases hsp : s' = s ∧ p' = p
    · obtain ⟨rfl, rfl⟩ := hsp
      exact hframe frame hframe'
    · rw [he.frame hp' hsp] at hframe'
      refine (hrecords _ ?_).mpr (h.recorded s' p' frame hp' hframe')
      rintro ⟨hs, hpage'⟩
      exact hsp ⟨hs, Option.some.inj hpage'⟩
  · by_cases hsp : s' = s ∧ p' = p
    · obtain ⟨rfl, rfl⟩ := hsp
      exact hhonest hcareful
    · have hother : ∀ r : FrameRecord, r.owner = s' → r.page = some p' →
          ¬ (r.owner = s ∧ r.page = some p) := fun r howner hrpage hr =>
        hsp ⟨howner.symm.trans hr.1, Option.some.inj (hrpage.symm.trans hr.2)⟩
      have hold := h.honest hcareful s' p'
      refine ⟨fun r hr howner hrpage hnot => ?_, fun info segment frame hinfo hseg hback hres hf => ?_⟩
      · have hr' := (hrecords r (hother r howner hrpage)).mp hr
        obtain ⟨q, hq, hq'⟩ := h.bound r hr'
        rw [he.frame (Option.some.inj (hrpage.symm.trans hq) ▸ hq') hsp]
        exact hold.mapped r hr' howner hrpage fun hin =>
          hnot (hpinned r hr' (hother r howner hrpage) hin)
      · have hp' := htables.aligned s' p' info hinfo
        rw [he.info s' p' hsp] at hinfo
        rw [he.frame hp' hsp] at hf
        exact hpinned _ (h.recorded s' p' frame hp' hf) (hother _ rfl rfl)
          (hold.truthful info segment frame hinfo hseg hback hres hf)

/-- The machine stays steady while others change devices and files. -/
theorem Machine.Steady.allows (h : m.Steady terms loose pinned) (ha : terms.Allows m m') :
    m'.Steady terms loose pinned := by
  obtain ⟨⟨files, device, rfl⟩, hbytes⟩ := ha
  refine h.similar rfl rfl (.refl _) fun inFrame inSlot hsome => ?_
  obtain ⟨hframes, hslots⟩ := h.untouched inFrame inSlot hsome
  refine ⟨hframes, fun slot k => ?_⟩
  rw [hbytes (by rw [hsome, Option.isSome_some]), hslots]

/-- Something was said, and slots were claimed or given back. -/
theorem Machine.Steady.said (h : m.Steady terms loose pinned) (slots : SlotBitmap)
    (notices : Array Notice) :
    Machine.Steady terms loose pinned { m with swap := { m.swap with slots }, notices } :=
  h.similar rfl rfl (.refl _) h.untouched

/-- There may be anonymous entries for another reason. -/
theorem Machine.Steady.leaving (h : m.Steady terms loose pinned) {leftover : Prop}
    (hleft : terms.leftover → leftover) : m.Steady { terms with leftover } loose pinned :=
  ⟨h.pool, h.bound, h.recorded, { h.tables with
    anonymous := fun s p info hinfo hnot hanonymous =>
      (h.tables.anonymous s p info hinfo hnot hanonymous).imp_left hleft }, h.honest, h.untouched⟩

/-- A failure that is excused leaves a machine steady as it was. -/
theorem Machine.Steady.excusing (h : m.Steady terms loose pinned) (cause : VmError) :
    m.Steady (terms.excusing cause) loose pinned := h.leaving .inl

/-- A failure that is none of swap excuses nothing. -/
theorem Machine.Steady.of_excusing {cause : VmError} (h : m.Steady (terms.excusing cause) loose pinned)
    (hswap : ¬ cause.OfSwap) : m.Steady terms loose pinned := h.leaving fun hleft =>
  hleft.resolve_right hswap

/-- The contents of a frame were changed that an eviction has not taken. -/
theorem Machine.Steady.filled (h : m.Steady terms loose pinned) {memory : FrameMemory}
    (hnot : frame ∉ terms.frames)
    (hothers : ∀ f k, f ≠ frame → memory.byte? f k = m.frames.memory.byte? f k) :
    Machine.Steady terms loose pinned { m with frames := { m.frames with memory } } := by
  refine h.similar rfl rfl (.refl _) fun inFrame inSlot hsome => ?_
  obtain ⟨hframes, hslots⟩ := h.untouched inFrame inSlot hsome
  refine ⟨fun f hf k => ?_, hslots⟩
  rw [← hframes f hf k]
  refine hothers f k ?_
  rintro rfl
  exact hnot hf

end

end DemandPaging
