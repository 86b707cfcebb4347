import DemandPaging.Proofs.DestroyedSpaces
import DemandPaging.Proofs.FramesInFlight
import DemandPaging.Proofs.PageRemovals

/-!
# Mappings that are removed

To unmap a file always comes to an end, whatever calls came before and whichever of its pages cannot be
saved. `Machine.Unmapped` says what it comes to: all pages of the mapping are gone and their frames are free,
what their file took is in it, the first failure is answered, and nothing else has changed.

The pages are removed one after the other, also after a failure. What the removal of one keeps is
`Machine.Removes` and that the machine is steady, and a page that is still there has its window elsewhere in
the file.
-/

set_option autoImplicit false

namespace DemandPaging

open Spaces Machine

/-! ### What unmapping comes to -/

/-- The file that `space` has mapped under the number `id` was unmapped in space `s`. `finds i frame segment
cause` says that the file of the `i`-th page was found to fall short of its window for this cause, if at
all. -/
structure Machine.Unmapped (finds : Nat → Nat → Segment → Option FileError → Prop) (s : SpaceId) (id : Nat)
    (space : AddressSpace) (mapping : Mapping) (outcome : Except VmError Unit) (before after : Machine) :
    Prop where
  /-- No page of the mapping has an entry or is mapped. -/
  gone : ∀ p ∈ pageRange mapping.page mapping.pages,
    (∀ info, ¬ after.Describes s p info) ∧ ∀ entry, ¬ after.IsMapped s p entry
  /-- The frames that its pages were mapped to are free, not pinned, and have no record. -/
  freed : ∀ p entry, p ∈ pageRange mapping.page mapping.pages → before.IsMapped s p entry →
    after.frames.pool.isAllocated entry.frame.toNat = false ∧
    after.frames.pool.isPinned entry.frame.toNat = false ∧
    ∀ r ∈ after.frames.records, r.frame ≠ entry.frame.toNat
  /-- The number is not that of a mapping any more, and other numbers are what they were. -/
  unlisted : ∃ left, after.spaces[s]? = some left ∧
    left.supplement.mappings = space.supplement.mappings.erase id
  /-- To unmap the file again is refused and does nothing. -/
  again : (Kernel.unmapFile s id : Transition _) after = .ok (.error .invalidMapping) after
  /-- Of each page of the mapping there is a cause for which its file fell short, if it was changed and the
  file did; the bytes of a changed page are in the file otherwise. The cause of the lowest page that has one
  is answered. -/
  saved : ∃ cause : Nat → Option FileError,
    outcome = refusedFor (((List.range mapping.pages).findSome? cause).map .file) ∧
    ∀ i, i < mapping.pages → ∃ info segment, before.Describes s (mapping.page + i * pageSize) info ∧
      info.segment? = some segment ∧ segment.file = mapping.file ∧
      (∀ entry, before.IsMapped s (mapping.page + i * pageSize) entry → entry.dirty = true →
        finds i entry.frame.toNat segment (cause i) ∧
        (cause i = none → ∀ k, k < segment.readBytes → before.frames.memory.byte? entry.frame.toNat k =
          some (Files.windowByte after.files segment k))) ∧
      ((∀ entry, before.IsMapped s (mapping.page + i * pageSize) entry → entry.dirty = false) →
        cause i = none)
  /-- All other pages have the entries and frames that they had. -/
  others : ∀ s' q, ¬ (s' = s ∧ q ∈ pageRange mapping.page mapping.pages) →
    (∀ info, after.Describes s' q info ↔ before.Describes s' q info) ∧
      ∀ entry, after.IsMapped s' q entry ↔ before.IsMapped s' q entry
  /-- The records that are gone are those of its pages. -/
  records : ∀ r, r ∈ after.frames.records ↔ r ∈ before.frames.records ∧
    ¬ (r.owner = s ∧ ∃ p ∈ pageRange mapping.page mapping.pages, r.page = some p)
  /-- All frames and slots have the contents that they had. -/
  memory : after.frames.memory = before.frames.memory
  swap : after.swap = before.swap

/-- The file of a mapping is found to fall short of a window for this cause, if at all, when the pages up to
the `i`-th have been forgotten and no other page. -/
def Machine.Found (others : Machine → Machine → Prop) (s : SpaceId) (mapping : Mapping) (start : Machine)
    (i frame : Nat) (segment : Segment) (cause : Option FileError) : Prop :=
  ∃ met, FindsShort others s (pageRange mapping.page (i + 1)) frame segment cause start met

/-- What was tried is known by its numbers. -/
theorem exists_causes {α ρ : Type} {tried : List (α × Option ρ)} {count : Nat} {nth : Nat → α}
    (h : tried.map (·.1) = (List.range count).map nth) :
    ∃ cause : Nat → Option ρ, tried = (List.range count).map fun i => (nth i, cause i) := by
  refine ⟨fun i => tried[i]?.bind (·.2), List.ext_getElem? fun i => ?_⟩
  have hfirst := congrArg (·[i]?) h
  by_cases hi : i < count
  · simp only [List.getElem?_map, List.getElem?_range hi, Option.map_some] at hfirst ⊢
    obtain ⟨x, hx, hnth⟩ := Option.map_eq_some_iff.mp hfirst
    rw [hx, Option.bind_some, ← hnth]
  · have hnone : (List.range count)[i]? = none :=
      List.getElem?_eq_none (by rw [List.length_range]; exact Nat.le_of_not_lt hi)
    simp only [List.getElem?_map, hnone, Option.map_none, Option.map_eq_none_iff] at hfirst ⊢
    exact hfirst

/-! ### All pages of a mapping -/

section

variable {others : Machine → Machine → Prop} {terms : Terms} {machine m m' : Machine} {s : SpaceId}
  {removed : List (Nat × Option FileError)}

/-- What is left is filed. -/
theorem Machine.Removes.filed (h : m.Removes others s removed m') (hfiled : m.Filed) : m'.Filed := by
  intro s' p info hinfo
  rw [h.loses.info] at hinfo
  split at hinfo
  · cases hinfo
  · rw [h.files]
    exact hfiled s' p info hinfo

/-- Whether a file falls short depends on the switches alone. -/
theorem Machine.FallsShort.of_sameSwitches {segment : Segment} {cause : Option FileError}
    (h : m'.FallsShort segment cause) (hsame : SameSwitches m m') : m.FallsShort segment cause := by
  obtain ⟨file', hfile', hshort⟩ := h
  have hswitches := hsame segment.file
  rw [hfile'] at hswitches
  obtain ⟨file, hfile, hsame⟩ := Option.map_eq_some_iff.mp hswitches.symm
  refine ⟨file, hfile, ?_⟩
  rw [MemoryFile.shortfall?_congr hsame, hshort]

/-- The windows of two pages of a mapping have no byte of the file in common. -/
theorem Spaces.Whole.apart {spaces : Array AddressSpace} {mapping : Mapping} (h : Whole spaces s mapping)
    {p q : Nat} (hp : p ∈ pageRange mapping.page mapping.pages)
    (hq : q ∈ pageRange mapping.page mapping.pages) (hne : p ≠ q) {segment other : Segment}
    (hsegment : segment? spaces s p = some segment) (hother : segment? spaces s q = some other) {k : Nat}
    (hk : k < other.readBytes) : ¬ segment.Covers other k := by
  obtain ⟨length, -, hwindows⟩ := h
  obtain ⟨i, hi, rfl⟩ := mem_pageRange.mp hp
  obtain ⟨j, hj, rfl⟩ := mem_pageRange.mp hq
  obtain rfl := Option.some.inj ((hwindows i hi).symm.trans hsegment)
  obtain rfl := Option.some.inj ((hwindows j hj).symm.trans hother)
  rintro ⟨-, hge, hlt⟩
  rw [eq_of_mappedSegment hk hge hlt] at hne
  exact hne rfl

namespace Woven

/-- The pages of a mapping that is listed no more are removed. -/
theorem finishes_unmapPages_steady (hturn : ∀ a b, others a b → Turned a b)
    (h : machine.Steady terms [] []) (hidle : terms.Idle) (hcareful : terms.careful)
    (hfiled : machine.Filed)
    (hsized : ∀ r ∈ machine.frames.records, r.frame < machine.frames.memory.size) {mapping : Mapping}
    (hwhole : Whole machine.spaces s mapping)
    (hunlisted : ∀ p ∈ pageRange mapping.page mapping.pages, Unlisted machine.spaces s p) :
    Finishes (Kernel.throughFailures (Kernel.unmapPage s) (pageRange mapping.page mapping.pages) :
      Woven others _) machine fun outcome after => ∃ removed,
        removed.map (·.1) = pageRange mapping.page mapping.pages ∧
        (machine.Removes others s removed after ∧ after.Steady terms [] [] ∧
          ∀ s', standing? after.spaces s' = standing? machine.spaces s') ∧
        outcome = refusedFor ((removed.findSome? (·.2)).map .file) := by
  have hallows : ∀ before after, others before after → terms.Allows before after := by
    intro before after hab
    exact (hturn before after hab).allowed hidle.bytes
  refine (finishing others).throughFailures_first VmError.file (fun removed after =>
    machine.Removes others s removed after ∧ after.Steady terms [] [] ∧
      ∀ s', standing? after.spaces s' = standing? machine.spaces s') ?_ ⟨?_, h, fun _ => rfl⟩
  · rintro tried p rest before hpages ⟨hremoves, hsteady, hstanding⟩
    have hin : ∀ q ∈ tried.map (·.1), q ∈ pageRange mapping.page mapping.pages := fun q hq =>
      hpages ▸ List.mem_append_left _ hq
    have hp : p ∈ pageRange mapping.page mapping.pages :=
      hpages ▸ List.mem_append_right _ List.mem_cons_self
    have hnodup := nodup_pageRange mapping.page mapping.pages
    rw [hpages] at hnodup
    have hnew : ∀ q ∈ tried.map (·.1), q ≠ p := fun q hq =>
      (List.nodup_append.mp hnodup).2.2 q hq p List.mem_cons_self
    have hnot : p ∉ tried.map (·.1) := fun hmem => hnew p hmem rfl
    obtain ⟨length, -, hwindows⟩ := id hwhole
    obtain ⟨i, hi, hpage⟩ := mem_pageRange.mp hp
    have hsegment : segment? machine.spaces s p = some (mappedSegment mapping.file length i) := by
      rw [hpage]
      exact hwindows i hi
    have hbefore := (hremoves.loses.segment_eq hnot).trans hsegment
    have hunlisted' : Unlisted before.spaces s p := by
      intro id' mapping' hmapping'
      exact hunlisted p hp id' mapping' ((mapping?_congr (hstanding s) id').symm.trans hmapping')
    have hone := finishes_unmapPage_steady hturn hsteady hidle hcareful (hremoves.filed hfiled) ?_
      hunlisted' hbefore rfl
    · refine (hone.and_yields ((Outcomes.woven others).unmapPageIn hallows hsteady (fun _ => hidle)
        hunlisted' ⟨_, hbefore, rfl⟩ _)).mono ?_
      rintro _ after ⟨⟨refusal, rfl, hremoved⟩, hsteady', helse⟩
      refine ⟨refusal, rfl, hremoves.append hremoved ?_ ?_, hsteady', fun s' =>
        (helse.standing s').trans (hstanding s')⟩
      · intro q hq
        obtain rfl := List.mem_singleton.mp hq
        obtain ⟨info, hinfo, -⟩ := Option.bind_eq_some_iff.mp hsegment
        exact ⟨hnot, h.tables.aligned s q info hinfo⟩
      · intro q hq p' hp' other segment k hother hsegment' hk
        obtain rfl := List.mem_singleton.mp hp'
        exact hwhole.apart hp (hin q hq) (hnew q hq).symm hsegment' hother hk
    · intro r hr
      rw [hremoves.memory]
      exact hsized r ((hremoves.records r).mp hr).1
  · exact removes_none .refl (fun _ _ => rfl) (fun _ _ => rfl) rfl rfl (.refl _ _)

/-- A live mapping is removed. -/
theorem finishes_removeMapping_steady (hturn : ∀ a b, others a b → Turned a b)
    (h : machine.Steady terms [] []) (hidle : terms.Idle) (hcareful : terms.careful)
    (hfiled : machine.Filed)
    (hsized : ∀ r ∈ machine.frames.records, r.frame < machine.frames.memory.size) {id : Nat}
    {mapping : Mapping} (hmapping : mapping? machine.spaces s id = some mapping) :
    Finishes (Kernel.removeMapping s id : Woven others _) machine fun outcome after => ∃ removed,
      removed.map (·.1) = pageRange mapping.page mapping.pages ∧
      machine.Removes others s removed after ∧ after.Steady terms [] [] ∧
      (∀ s', standing? after.spaces s' = standing? (Transition.unlisted machine.spaces s id) s') ∧
      outcome = refusedFor ((removed.findSome? (·.2)).map .file) := by
  obtain ⟨standing, hstanding, -⟩ := Option.bind_eq_some_iff.mp hmapping
  have hwhole := h.tables.whole s id mapping hmapping
  have haligned : ∀ p ∈ pageRange mapping.page mapping.pages, IsAligned p := by
    intro p hp
    obtain ⟨segment, hsegment, -⟩ := h.tables.windows s id mapping p hmapping hp
    obtain ⟨info, hinfo, -⟩ := Option.bind_eq_some_iff.mp hsegment
    exact h.tables.aligned s p info hinfo
  simp only [Kernel.removeMapping, holding_eq, lift_eq, finishes_bind, finishes_atomically]
  intro met hmet
  have hidle' := idles_of hturn hmet
  obtain ⟨files, rfl, hfiles⟩ := hidle'.turned
  refine Transition.finishes_takeMapping hmapping ?_
  have hmet' : Machine.Steady terms [] [] { machine with files } :=
    h.allows (hidle'.turned.allowed hidle.bytes)
  have hlisted : machine.Removes others s []
      { machine with spaces := Transition.unlisted machine.spaces s id, files } :=
    removes_none (hidle'.comes.keep (sameSwitches_of_files rfl)) (fun _ _ => Transition.info?_unlisted)
      (fun _ _ => Transition.mapped?_unlisted) rfl rfl hfiles
  simp only [finishes_bind]
  refine (finishes_unmapPages_steady hturn (hmet'.unlisted hmapping) hidle hcareful (hlisted.filed hfiled)
    hsized (hwhole.congr fun _ _ => Transition.segment?_unlisted) fun p hp id' mapping' hmapping' hp' => ?_).mono
    ?_
  · obtain ⟨hold, hne⟩ := of_mapping?_unlisted hmapping hmapping'
    exact hne ⟨rfl, h.tables.disjoint s id id' mapping mapping' p hmapping hold hp hp'⟩
  rintro _ after ⟨removed, hpages, ⟨hremoves, hsteady, hstandings⟩, rfl⟩
  have hs : s < after.spaces.size :=
    lt_size_of_standing? ((hstandings s).trans (Transition.standing?_unlisted hstanding))
  refine finishes_notify hturn hs (.unmapped · id) fun met notices hidle'' => ?_
  obtain ⟨files', rfl, hfiles'⟩ := hidle''.turned
  have hsaid : after.Removes others s [] { after with files := files', notices } :=
    removes_none (hidle''.comes.keep (sameSwitches_of_files rfl)) (fun _ _ => rfl) (fun _ _ => rfl) rfl rfl
      hfiles'
  have hall := (hlisted.append hremoves (fun p hp => ⟨List.not_mem_nil, haligned p (hpages ▸ hp)⟩)
    fun _ hq => absurd hq List.not_mem_nil).append hsaid (fun _ hp => absurd hp List.not_mem_nil)
    fun _ _ _ hp => absurd hp List.not_mem_nil
  rw [List.nil_append, List.append_nil] at hall
  refine finishes_pure.mpr ⟨removed, hpages, hall, ?_, hstandings, rfl⟩
  have hafter : Machine.Steady terms [] [] { after with files := files' } :=
    hsteady.allows (hidle''.turned.allowed hidle.bytes)
  exact hafter.said _ _

end Woven

/-! ### The whole call -/

/-- To unmap what is not mapped is refused and does nothing. -/
theorem Transition.run_unmapFile_refused {machine : Machine} {s : SpaceId} {id : Nat} {space : AddressSpace}
    (hspace : machine.spaces[s]? = some space) (hnone : space.supplement.mappings[id]? = none) :
    (Kernel.unmapFile s id : Transition _) machine = .ok (.error .invalidMapping) machine := by
  have htake : takeMapping s id machine = .ok none machine := by
    rw [takeMapping, run_bind (run_supplement hspace), Supplement.takeMapping, hnone]
    rfl
  rw [Kernel.unmapFile, holding_eq, Kernel.removeMapping, holding_eq, lift_eq, run_bind htake]
  rfl

/-- When all pages of a mapping that was listed were removed, the file is unmapped. -/
theorem Machine.Removes.unmapped {after : Machine} {id : Nat} {space : AddressSpace} {mapping : Mapping}
    (h : machine.Steady terms [] []) (hspace : machine.spaces[s]? = some space)
    (hmapping : space.supplement.mappings[id]? = some mapping) (hidle : terms.Idle)
    (hremoves : machine.Removes others s removed after)
    (hpages : removed.map (·.1) = pageRange mapping.page mapping.pages) (hafter : after.Steady terms [] [])
    (hstanding : standing? after.spaces s = standing? (Transition.unlisted machine.spaces s id) s) :
    machine.Unmapped (machine.Found others s mapping) s id space mapping
      (refusedFor ((removed.findSome? (·.2)).map .file)) after := by
  have hlisted := (mapping?_eq hspace id).trans hmapping
  have hinfo := hremoves.loses.info
  have hmapped := hremoves.loses.mapped
  have hrecords := hremoves.records
  rw [hpages] at hinfo hmapped hrecords
  rw [Transition.standing?_unlisted (standing?_eq hspace)] at hstanding
  obtain ⟨left, hleft, heq⟩ := Option.map_eq_some_iff.mp hstanding
  have hmappings : left.supplement.mappings = space.supplement.mappings.erase id :=
    congrArg Standing.mappings heq
  refine ⟨fun p hp => ⟨fun info hdescribes => ?_, fun entry hmaps => ?_⟩, fun p entry hp hmaps => ?_,
    ⟨left, hleft, hmappings⟩, Transition.run_unmapFile_refused hleft ?_, ?_, fun s' q hother =>
      ⟨fun info => ?_, fun entry => ?_⟩, hrecords, hremoves.memory, hremoves.swap⟩
  · rw [describes_iff, hinfo, if_pos ⟨rfl, hp⟩] at hdescribes
    cases hdescribes
  · obtain ⟨haligned, hentry⟩ := isMapped_iff.mp hmaps
    rw [hmapped s p haligned, if_pos ⟨rfl, hp⟩] at hentry
    cases hentry
  · obtain ⟨haligned, hentry⟩ := isMapped_iff.mp hmaps
    have hrecord := h.recorded s p entry.frame.toNat haligned (by rw [frame?, hentry, Option.map_some])
    have hnone : ∀ r ∈ after.frames.records, r.frame ≠ entry.frame.toNat := by
      intro r hr hframe
      obtain ⟨hr, hkept⟩ := (hrecords r).mp hr
      obtain rfl := h.record_inj hr hrecord hframe
      exact hkept ⟨rfl, p, hp, rfl⟩
    refine ⟨?_, ?_, hnone⟩
    · rw [← Bool.not_eq_true, hafter.pool.isAllocated_iff, hidle.frames, List.append_nil, List.append_nil]
      intro hmem
      obtain ⟨r, hr, hframe⟩ := List.mem_map.mp hmem
      exact hnone r hr hframe
    · rw [← Bool.not_eq_true, hafter.pool.isPinned_iff]
      exact List.not_mem_nil
  · rw [hmappings]
    simp
  · obtain ⟨cause, rfl⟩ := exists_causes hpages
    refine ⟨cause, by rw [List.findSome?_map]; rfl, fun i hi => ?_⟩
    obtain ⟨length, -, hwindows⟩ := h.tables.whole s id mapping hlisted
    have hsegment := hwindows i hi
    obtain ⟨info, hdescribed, hinfoSegment⟩ := Option.bind_eq_some_iff.mp hsegment
    have haligned := h.tables.aligned s _ info hdescribed
    have hsome : ((List.range mapping.pages).map fun i => (mapping.page + i * pageSize, cause i))[i]? =
        some (mapping.page + i * pageSize, cause i) := by
      rw [List.getElem?_map, List.getElem?_range hi, Option.map_some]
    obtain ⟨hchanged, hclean⟩ := hremoves.saved i _ _ hsome
    have hgone : (((List.range mapping.pages).map fun i =>
        (mapping.page + i * pageSize, cause i)).take (i + 1)).map (·.1) = pageRange mapping.page (i + 1) := by
      rw [List.map_take, hpages, pageRange, pageRange, ← List.map_take, List.take_range,
        Nat.min_eq_left hi]
    rw [hgone] at hchanged
    refine ⟨info, _, describes_iff.mpr hdescribed, hinfoSegment, rfl, fun entry hmaps hdirty => ?_,
      fun hall => ?_⟩
    · exact hchanged _ entry hsegment (isMapped_iff.mp hmaps).2 hdirty
    · exact hclean fun entry hentry => hall entry (isMapped_iff.mpr ⟨haligned, hentry⟩)
  · rw [describes_iff, describes_iff, hinfo, if_neg hother]
  · rw [isMapped_iff, isMapped_iff]
    refine and_congr_right fun haligned => ?_
    rw [hmapped s' q haligned, if_neg hother]

end

/-- Whatever public calls came before, as long as no stack page was added where a mapped file belongs, and
whatever was done to files and devices meanwhile: to unmap a file always comes to an end. All of its pages
are gone then, saved or not, and the first failure is answered. This is so if nothing comes in between, and
also if others turn the switches of files while it goes on. -/
theorem Chronicle.unmapFile_complete {start machine : Machine} {moments : List Moment}
    (hfresh : start.Fresh) (h : Chronicle True start moments machine) {s : SpaceId} {id : Nat}
    {space : AddressSpace} {mapping : Mapping} (hspace : machine.spaces[s]? = some space)
    (hmapping : space.supplement.mappings[id]? = some mapping) :
    (∃ outcome after, (Kernel.unmapFile s id : Transition _) machine = .ok outcome after ∧
      machine.Unmapped (fun _ _ segment cause => machine.FallsShort segment cause) s id space mapping
        outcome after) ∧
    ∀ others : Machine → Machine → Prop, (∀ a b, others a b → Turned a b) →
      ∀ result, (Kernel.unmapFile s id : Woven others _) machine result → ∃ outcome after,
        result = .ok outcome after ∧
          machine.Unmapped (machine.Found others s mapping) s id space mapping outcome after := by
  have hsteady := h.steady hfresh
  have hidle := Terms.idle_since True moments
  have hsized : ∀ r ∈ machine.frames.records, r.frame < machine.frames.memory.size := by
    intro r hr
    rw [h.size_memory hfresh]
    exact hsteady.pool.lt_capacity (List.mem_append_left _ (List.mem_map_of_mem hr))
  have hlisted := (mapping?_eq hspace id).trans hmapping
  have hwoven : ∀ others : Machine → Machine → Prop, (∀ a b, others a b → Turned a b) →
      ∀ result, (Kernel.unmapFile s id : Woven others _) machine result → ∃ outcome after,
        result = .ok outcome after ∧
          machine.Unmapped (machine.Found others s mapping) s id space mapping outcome after := by
    intro others hturn result hresult
    obtain ⟨outcome, after, rfl, removed, hpages, hremoves, hafter, hstanding, rfl⟩ :=
      Woven.finishes_removeMapping_steady hturn hsteady hidle trivial (h.filed hfresh) hsized hlisted result
        hresult
    exact ⟨_, after, rfl, hremoves.unmapped hsteady hspace hmapping hidle hpages hafter (hstanding s)⟩
  refine ⟨?_, hwoven⟩
  obtain ⟨outcome, after, hrun, hunmapped⟩ := hwoven Eq
    (by rintro a _ rfl; exact turned_refl a) _ ((Woven.admission fun _ => rfl).removeMapping id machine)
  refine ⟨outcome, after, hrun, { hunmapped with saved := ?_ }⟩
  obtain ⟨cause, houtcome, hsaved⟩ := hunmapped.saved
  refine ⟨cause, houtcome, fun i hi => ?_⟩
  obtain ⟨info, segment, hdescribed, hsegment, hfile, hchanged, hclean⟩ := hsaved i hi
  refine ⟨info, segment, hdescribed, hsegment, hfile, fun entry hmaps hdirty => ?_, hclean⟩
  -- nobody turns a switch, so the file is found as it is now
  obtain ⟨⟨met, ⟨prior, hcomes, rfl⟩, -, -, hshort⟩, hbytes⟩ := hchanged entry hmaps hdirty
  exact ⟨hshort.of_sameSwitches hcomes.sameSwitches, hbytes⟩

/-- A file is mapped at two pages, of which one was changed, and the file stores only one byte at a time: all
of the mapping is gone, and it is answered that there was no room. -/
theorem Chronicle.unmapFile_complete_sample : ∃ moments machine space mapping after,
    Run .sample moments machine ∧ machine.spaces[0]? = some space ∧
    space.supplement.mappings[0]? = some mapping ∧ mapping.pages = 2 ∧
    (Kernel.unmapFile 0 0 : Transition _) machine = .ok (.error (.file .noSpace)) after ∧
    machine.Unmapped (fun _ _ segment cause => machine.FallsShort segment cause) 0 0 space mapping
      (.error (.file .noSpace)) after := by
  obtain ⟨moments, machine, h, -, hfacts⟩ := @exists_run .sample
    [.addSpace 1, .addFile (.ofBytes (Array.replicate 4098 7)), .call (.mapFile 0 0 0x10000),
      .call (.copyToUser 0 0x11000 #[9, 9] 0),
      .changeFile 0 { MemoryFile.ofBytes (Array.replicate 4098 7) with writeCap := 1 }]
    (fun r => (r.2.spaces[0]?.any fun space : AddressSpace =>
      space.supplement.mappings[0]?.any fun mapping : Mapping => decide (mapping.pages = 2)) &&
        (Kernel.unmapFile 0 0 : Transition _).check r.2 fun outcome _ =>
          decide (outcome = .error (.file .noSpace))) (by decide +kernel)
  obtain ⟨hmappings, hfacts⟩ := (Bool.and_eq_true ..).mp hfacts
  obtain ⟨space, hspace, hmappings⟩ := (Option.any_eq_true ..).mp hmappings
  obtain ⟨mapping, hmapping, hpages⟩ := (Option.any_eq_true ..).mp hmappings
  obtain ⟨_, after, hrun, hfacts⟩ := Transition.exists_of_check hfacts
  obtain rfl := of_decide_eq_true hfacts
  obtain ⟨⟨outcome, after', hrun', hunmapped⟩, -⟩ :=
    Chronicle.unmapFile_complete fresh_sample (h.chronicle True) hspace hmapping
  obtain ⟨rfl, rfl⟩ := EStateM.Result.ok.inj (hrun.symm.trans hrun')
  exact ⟨moments, machine, space, mapping, after, h, hspace, hmapping, of_decide_eq_true hpages, hrun,
    hunmapped⟩

end DemandPaging
