import DemandPaging.Kernel.Mapping
import DemandPaging.Proofs.Registrations

/-!
# Mappings

`Mapped` says that the live mappings of all spaces and the windows of pages of mapped files agree:
each page of a live mapping has its window, each such window is the one of a page of a live mapping,
and mappings share no page. `mapFile` adds a mapping with all its pages or changes nothing.
-/

set_option autoImplicit false

namespace DemandPaging

open Spaces Machine

/-! ### The pages of a mapping -/

/-- The pages of a range follow one another from the first one on. -/
theorem mem_pageRange {page pages p : Nat} :
    p ∈ pageRange page pages ↔ ∃ i, i < pages ∧ p = page + i * pageSize := by
  simp only [pageRange, List.mem_map, List.mem_range]
  constructor
  · rintro ⟨i, hi, rfl⟩
    exact ⟨i, hi, rfl⟩
  · rintro ⟨i, hi, rfl⟩
    exact ⟨i, hi, rfl⟩

/-- A range has as many pages as were asked for. -/
theorem length_pageRange (page pages : Nat) : (pageRange page pages).length = pages := by
  rw [pageRange, List.length_map, List.length_range]

/-- No page comes twice in a range. -/
theorem nodup_pageRange (page pages : Nat) : (pageRange page pages).Nodup := by
  refine List.Nodup.map ?_ List.nodup_range
  intro i j hij
  have hpos : 0 < pageSize := by decide
  exact Nat.eq_of_mul_eq_mul_right hpos (Nat.add_left_cancel hij)

/-- With the first page of a range all the others are aligned. -/
theorem isAligned_page {page : Nat} (hp : IsAligned page) (i : Nat) :
    IsAligned (page + i * pageSize) := by
  simp only [IsAligned, pageOffset, pageSize] at *
  omega

/-- A file can only be mapped below the kernel, so a mapping has so many pages at most. -/
theorem IsMappable.pageCount_le {length page : Nat} (h : IsMappable length page) :
    pageCount length ≤ kernelBase / pageSize := by
  have := h.2.2.2
  simp only [kernelBase, pageSize] at *
  omega

/-- The windows of a mapped file cover the file. -/
theorem exists_mappedSegment {f : FileId} {length j : Nat} (hj : j < length) :
    j / pageSize < pageCount length ∧
      (mappedSegment f length (j / pageSize)).offset + j % pageSize = j ∧
      j % pageSize < (mappedSegment f length (j / pageSize)).readBytes := by
  simp only [pageCount, mappedSegment, pageSize]
  omega

/-- The windows of a mapped file end where the file ends. -/
theorem mappedSegment_le {f : FileId} {length i : Nat} (hi : i < pageCount length) :
    (mappedSegment f length i).offset + (mappedSegment f length i).readBytes ≤ length := by
  simp only [pageCount, mappedSegment, pageSize] at *
  omega

/-- Different windows of a mapped file share no byte. -/
theorem eq_of_mappedSegment {f : FileId} {length i j k : Nat}
    (hk : k < (mappedSegment f length i).readBytes)
    (hge : (mappedSegment f length j).offset ≤ (mappedSegment f length i).offset + k)
    (hlt : (mappedSegment f length i).offset + k <
      (mappedSegment f length j).offset + (mappedSegment f length j).readBytes) : j = i := by
  simp only [mappedSegment, pageSize] at *
  omega

/-! ### Mappings and windows -/

/-- The live mappings and the windows of pages of mapped files agree. -/
structure Mapped (spaces : Array AddressSpace) : Prop where
  numbered : ∀ s standing, standing? spaces s = some standing →
    standing.nextMapping ≤ maxMappingId ∧
      ∀ id mapping, standing.mappings[id]? = some mapping → id < standing.nextMapping
  windows : ∀ s id mapping, mapping? spaces s id = some mapping → ∃ length,
    mapping.pages = pageCount length ∧ IsMappable length mapping.page ∧
      ∀ i, i < mapping.pages → segment? spaces s (mapping.page + i * pageSize) =
        some (mappedSegment mapping.file length i)
  owned : ∀ s p segment, segment? spaces s p = some segment → segment.writeBack = true →
    ∃ id mapping i, mapping? spaces s id = some mapping ∧ i < mapping.pages ∧
      p = mapping.page + i * pageSize
  disjoint : ∀ s id id' mapping mapping' i i', mapping? spaces s id = some mapping →
    mapping? spaces s id' = some mapping' → i < mapping.pages → i' < mapping'.pages →
      mapping.page + i * pageSize = mapping'.page + i' * pageSize → id' = id

section

variable {a b : Array AddressSpace}

/-- The next number is told by the standing of the space. -/
theorem next?_congr {s : SpaceId} (h : standing? b s = standing? a s) : next? b s = next? a s := by
  rw [next?, next?, h]

/-- The live mappings are told by the standing of the space. -/
theorem mapping?_congr {s : SpaceId} (h : standing? b s = standing? a s) (id : Nat) :
    mapping? b s id = mapping? a s id := by rw [mapping?, mapping?, h]

/-- Only standings and windows matter. -/
theorem Mapped.congr (h : Mapped a) (hstanding : ∀ s, standing? b s = standing? a s)
    (hsegment : ∀ s p, segment? b s p = segment? a s p) : Mapped b where
  numbered := by simpa only [hstanding] using h.numbered
  windows := by simpa only [mapping?_congr (hstanding _), hsegment] using h.windows
  owned := by simpa only [mapping?_congr (hstanding _), hsegment] using h.owned
  disjoint := by simpa only [mapping?_congr (hstanding _)] using h.disjoint

/-- A page of a live mapping has a window of its file. -/
theorem Mapped.window (h : Mapped a) {s : SpaceId} {id : Nat} {mapping : Mapping}
    (hmapping : mapping? a s id = some mapping) {p : Nat}
    (hp : p ∈ pageRange mapping.page mapping.pages) :
    ∃ segment, segment? a s p = some segment ∧ segment.writeBack = true ∧
      segment.file = mapping.file := by
  obtain ⟨length, -, -, hwindows⟩ := h.windows s id mapping hmapping
  obtain ⟨i, hi, rfl⟩ := mem_pageRange.mp hp
  exact ⟨_, hwindows i hi, rfl, rfl⟩

/-- No directory holds more mappings than numbers were given out. -/
theorem Mapped.length_keys_le (h : Mapped a) {s : SpaceId} {standing : Standing}
    (hstanding : standing? a s = some standing) :
    standing.mappings.keys.length ≤ maxMappingId := by
  obtain ⟨hnext, hids⟩ := h.numbered s standing hstanding
  have hsub : standing.mappings.keys.Subperm (List.range standing.nextMapping) := by
    refine (Std.ExtTreeMap.nodup_keys).subperm fun id hid => ?_
    rw [Std.ExtTreeMap.mem_keys] at hid
    obtain ⟨mapping, hmapping⟩ := Option.isSome_iff_exists.mp
      (Std.ExtTreeMap.isSome_getElem?_iff_mem.mpr hid)
    exact List.mem_range.mpr (hids id mapping hmapping)
  have hlength := hsub.length_le
  rw [List.length_range] at hlength
  exact Nat.le_trans hlength hnext

end

section

variable {s : SpaceId} {window : Nat → Option Segment} {m m' : Machine}

/-- A page that has a window keeps it when pages are added. -/
theorem Adds.segment (h : Adds s window m m') {s' : SpaceId} {p : Nat} {segment : Segment}
    (hsegment : segment? m.spaces s' p = some segment) : segment? m'.spaces s' p = some segment := by
  rw [← hsegment, segment?, segment?, h.info_eq (known_of_segment? hsegment)]

/-- A window is an old one or one of those that were added. -/
theorem Adds.segment_cases (h : Adds s window m m') {s' : SpaceId} {p : Nat} {segment : Segment}
    (hsegment : segment? m'.spaces s' p = some segment) :
    segment? m.spaces s' p = some segment ∨
      s' = s ∧ ¬ m.Known s p ∧ window p = some segment := by
  rcases h.info s' p with heq | ⟨rfl, -, hunknown, -, segment', hwindow, hinfo⟩
  · left
    rw [← hsegment, segment?, segment?, heq]
  · right
    rw [segment?, hinfo] at hsegment
    cases hsegment
    exact ⟨rfl, hunknown, hwindow⟩

/-- Registering private pages does not touch mappings. -/
theorem Mapped.adds (h : Mapped m.spaces) (ha : Adds s window m m')
    (hstanding : ∀ s, standing? m'.spaces s = standing? m.spaces s)
    (hprivate : ∀ p segment, window p = some segment → segment.writeBack = false) :
    Mapped m'.spaces where
  numbered := by simpa only [hstanding] using h.numbered
  windows s' id mapping hmapping := by
    rw [mapping?_congr (hstanding s')] at hmapping
    obtain ⟨length, hpages, hmappable, hwindows⟩ := h.windows s' id mapping hmapping
    exact ⟨length, hpages, hmappable, fun i hi => ha.segment (hwindows i hi)⟩
  owned s' p segment hsegment hback := by
    rcases ha.segment_cases hsegment with hold | ⟨-, -, hwindow⟩
    · simpa only [mapping?_congr (hstanding _)] using h.owned s' p segment hold hback
    · rw [hprivate p segment hwindow] at hback
      cases hback
  disjoint := by simpa only [mapping?_congr (hstanding _)] using h.disjoint

end

/-! ### Adding a mapping -/

/-- All of a file of `length` bytes was mapped at `page`, under the number `id`. -/
structure Maps (s : SpaceId) (f : FileId) (page length id : Nat) (before after : Machine) : Prop where
  mappable : IsMappable length page
  adds : Adds s (pageWindow page (pageCount length) (mappedSegment f length)) before after
  fresh : ∀ i, i < pageCount length → ¬ before.Known s (page + i * pageSize)
  window : ∀ i, i < pageCount length →
    segment? after.spaces s (page + i * pageSize) = some (mappedSegment f length i)
  standing : ∃ standing, standing? before.spaces s = some standing ∧ standing.destroyed = false ∧
    standing.nextMapping = id ∧ id < maxMappingId ∧
    standing? after.spaces s = some { standing with
      mappings := standing.mappings.insert id { file := f, page, pages := pageCount length }
      nextMapping := id + 1 }
  others : ∀ s', s' ≠ s → standing? after.spaces s' = standing? before.spaces s'

section

variable {s : SpaceId} {f : FileId} {page length id : Nat} {m m' : Machine}

/-- The live mappings afterwards. -/
theorem Maps.mapping? (h : Maps s f page length id m m') (s' : SpaceId) (id' : Nat) :
    mapping? m'.spaces s' id' =
      if s' = s ∧ id' = id then some { file := f, page, pages := pageCount length }
      else mapping? m.spaces s' id' := by
  by_cases hs : s' = s
  · subst hs
    obtain ⟨standing, hbefore, -, -, -, hafter⟩ := h.standing
    rw [Spaces.mapping?, Spaces.mapping?, hbefore, hafter, Option.bind_some, Option.bind_some,
      Std.ExtTreeMap.getElem?_insert]
    by_cases hid : id = id'
    · subst hid
      simp
    · simp [hid, Ne.symm hid]
  · rw [mapping?_congr (h.others s' hs), if_neg fun hsi => hs hsi.1]

/-- No mapping had the new number. -/
theorem Maps.mapping?_eq_none (h : Maps s f page length id m m') (hm : Mapped m.spaces) :
    Spaces.mapping? m.spaces s id = none := by
  obtain ⟨standing, hbefore, -, hid, -, -⟩ := h.standing
  rw [Spaces.mapping?, hbefore, Option.bind_some]
  by_contra hne
  obtain ⟨mapping, hmapping⟩ := Option.ne_none_iff_exists'.mp hne
  have := (hm.numbered s standing hbefore).2 id mapping hmapping
  omega

/-- A page of a live mapping is none of the pages that were added. -/
theorem Maps.ne_page (h : Maps s f page length id m m') (hm : Mapped m.spaces) {id' i i' : Nat}
    {mapping : Mapping} (hmapping : Spaces.mapping? m.spaces s id' = some mapping)
    (hi : i < mapping.pages) (hi' : i' < pageCount length) :
    mapping.page + i * pageSize ≠ page + i' * pageSize := by
  intro heq
  obtain ⟨length', -, -, hwindows⟩ := hm.windows s id' mapping hmapping
  have hwindow := hwindows i hi
  rw [heq] at hwindow
  exact h.fresh i' hi' (known_of_segment? hwindow)

/-- A file that is mapped adds a mapping to well-formed ones: its number is new, its pages belong to no other,
and each of them has its window. -/
theorem Maps.mapped (h : Maps s f page length id m m') (hm : Mapped m.spaces) :
    Mapped m'.spaces where
  numbered s' standing' hs' := by
    by_cases hs : s' = s
    · subst hs
      obtain ⟨standing, hbefore, -, hid, hlt, hafter⟩ := h.standing
      rw [hafter, Option.some.injEq] at hs'
      subst hs'
      refine ⟨hlt, fun id' mapping hmapping => ?_⟩
      rw [Std.ExtTreeMap.getElem?_insert] at hmapping
      split at hmapping
      · rename_i heq
        have : id = id' := Std.LawfulEqCmp.eq_of_compare heq
        exact this ▸ Nat.lt_succ_self _
      · have := (hm.numbered s' standing hbefore).2 id' mapping hmapping
        exact Nat.lt_succ_of_lt (hid ▸ this)
    · rw [h.others s' hs] at hs'
      exact hm.numbered s' standing' hs'
  windows s' id' mapping hmapping := by
    rw [h.mapping?] at hmapping
    split at hmapping
    · rename_i hsi
      obtain ⟨rfl, rfl⟩ := hsi
      cases hmapping
      exact ⟨length, rfl, h.mappable, h.window⟩
    · obtain ⟨length', hpages, hmappable, hwindows⟩ := hm.windows s' id' mapping hmapping
      exact ⟨length', hpages, hmappable, fun i hi => h.adds.segment (hwindows i hi)⟩
  owned s' p segment hsegment hback := by
    rcases h.adds.segment_cases hsegment with hold | ⟨rfl, -, hwindow⟩
    · obtain ⟨id', mapping, i, hmapping, hi, hp⟩ := hm.owned s' p segment hold hback
      refine ⟨id', mapping, i, ?_, hi, hp⟩
      rw [h.mapping?, if_neg]
      · exact hmapping
      · rintro ⟨rfl, rfl⟩
        rw [h.mapping?_eq_none hm] at hmapping
        cases hmapping
    · obtain ⟨i, hi, hp, -⟩ := pageWindow_eq_some.mp hwindow
      refine ⟨id, { file := f, page, pages := pageCount length }, i, ?_, hi, hp⟩
      rw [h.mapping?, if_pos ⟨rfl, rfl⟩]
  disjoint s' id₁ id₂ mapping₁ mapping₂ i₁ i₂ h₁ h₂ hi₁ hi₂ heq := by
    rw [h.mapping?] at h₁ h₂
    split at h₁
    · rename_i hsi₁
      obtain ⟨rfl, rfl⟩ := hsi₁
      split at h₂
      · rename_i hsi₂
        exact hsi₂.2
      · cases h₁
        exact absurd heq.symm (h.ne_page hm h₂ hi₂ hi₁)
    · split at h₂
      · rename_i hsi₂
        obtain ⟨rfl, rfl⟩ := hsi₂
        cases h₂
        exact absurd heq (h.ne_page hm h₁ hi₁ hi₂)
      · exact hm.disjoint s' id₁ id₂ mapping₁ mapping₂ i₁ i₂ h₁ h₂ hi₁ hi₂ heq

/-- A machine stays settled when a file is mapped, since no page of the range was known. -/
theorem Maps.settled (h : Maps s f page length id m m') {away : Away}
    (hsettled : m.SettledBut away) : m'.SettledBut away := by
  obtain ⟨standing, hbefore, hlive, -, -, hafter⟩ := h.standing
  refine h.adds.settled hsettled ⟨fun s' standing' hs' => ?_, fun s' standing' hs' hd => ?_⟩
  · by_cases hs : s' = s
    · subst hs
      rw [hafter, Option.some.injEq] at hs'
      subst hs'
      exact hsettled.live.refusals s' standing hbefore
    · rw [h.others s' hs] at hs'
      exact hsettled.live.refusals s' standing' hs'
  · by_cases hs : s' = s
    · subst hs
      rw [hafter, Option.some.injEq] at hs'
      subst hs'
      rw [hlive] at hd
      cases hd
    · rw [h.others s' hs] at hs'
      obtain ⟨hmappings, hpages⟩ := hsettled.live.destroyed s' standing' hs' hd
      refine ⟨hmappings, fun p => ⟨?_, fun hp => ?_⟩⟩
      · rcases h.adds.info s' p with heq | ⟨rfl, -⟩
        · rw [heq]
          exact (hpages p).1
        · exact absurd rfl hs
      · rw [h.adds.frame]
        exact (hpages p).2 hp

end

namespace Transition

variable {machine : Machine} {s : SpaceId}

/-- A page is only taken if nothing is known of it. -/
theorem ensures_requireUnused {p : Nat} :
    Ensures (Kernel.requireUnused s p) machine fun outcome after => after = machine ∧
      (outcome = .ok () → ¬ machine.Known s p) := by
  simp only [Kernel.requireUnused, lift_eq, ensures_bind, ensures_supplement]
  intro space hspace
  refine ensures_ite (fun _ => ⟨rfl, by simp⟩) (fun hcontains => ?_)
  simp only [ensures_bind, ensures_findEntry]
  intro _ _
  refine ensures_ite (fun _ => ⟨rfl, by simp⟩) (fun hmapped => ⟨rfl, fun _ hknown => ?_⟩)
  rcases hknown with hm | hi
  · exact hmapped hm
  · apply hcontains
    rw [Supplement.contains, Std.ExtTreeMap.contains_eq_isSome_getElem?]
    rw [info?_eq hspace] at hi
    exact hi

/-- The pages of a mapped file from the `i`-th on are registered. None is refused, since nothing is
known of them. -/
theorem ensures_registerMapped {f : FileId} {length page total : Nat} (hp : IsAligned page)
    (pages : Nat) : ∀ {machine : Machine} (i : Nat), i + pages = total →
    IsLive machine.spaces s → (∀ j, j < total → mapped? machine.spaces s (page + j * pageSize) = none) →
    (∀ j, i ≤ j → j < total → info? machine.spaces s (page + j * pageSize) = none) →
    Ensures (registerMapped s f length page pages i) machine fun outcome after => outcome = .ok () ∧
      Adds s (pageWindow page total (mappedSegment f length)) machine after ∧
      (∀ s', standing? after.spaces s' = standing? machine.spaces s') ∧
      ∀ j, i ≤ j → j < total →
        segment? after.spaces s (page + j * pageSize) = some (mappedSegment f length j) := by
  induction pages with
  | zero =>
    intro machine i htotal _ _ _
    exact ⟨rfl, .refl _ _ _, fun _ => rfl, fun j hij hj => by omega⟩
  | succ pages ih =>
    intro machine i htotal hlive hunmapped hnone
    have hi : i < total := by omega
    simp only [registerMapped, ensures_bind, ensures_supplement]
    intro space hspace
    have hdestroyed : space.supplement.destroyed = false := hlive _ (standing?_eq hspace)
    have hfind : space.supplement.find? (page + i * pageSize) = none := by
      rw [← info?_eq hspace]
      exact hnone i (Nat.le_refl i) hi
    cases hinsert : space.supplement.insert
        (.fileBacked (page + i * pageSize) (mappedSegment f length i)) with
    | error cause =>
      have hcontains : space.supplement.contains (page + i * pageSize) = false := by
        rw [Supplement.contains, Std.ExtTreeMap.contains_eq_isSome_getElem?]
        exact Option.not_isSome_iff_eq_none.mpr hfind |> Bool.eq_false_iff.mpr
      simp [Supplement.insert, hdestroyed, PageInfo.fileBacked, hcontains] at hinsert
    | ok table =>
      simp only [ensures_bind, ensures_setSupplement]
      rw [Supplement.put_of_insert hspace hinsert]
      have hadds := adds_put hspace hinsert (isAligned_page hp i) (not_bare_of_unmapped (hunmapped i hi))
        (pageWindow_page hi)
      have hsize : s < machine.spaces.size := (Array.getElem?_eq_some_iff.mp hspace).1
      have hinfo : ∀ p, info? (put machine.spaces s (page + i * pageSize)
          (.fileBacked (page + i * pageSize) (mappedSegment f length i))) s p =
          if page + i * pageSize = p then
            some (.fileBacked (page + i * pageSize) (mappedSegment f length i))
          else info? machine.spaces s p := by
        intro p
        rw [info?_put hsize]
        simp only [true_and]
      have hrest := @ih { machine with
        spaces := put machine.spaces s (page + i * pageSize)
          (.fileBacked (page + i * pageSize) (mappedSegment f length i)) } (i + 1) (by omega) ?_ ?_ ?_
      · refine hrest.mono ?_
        rintro outcome after ⟨hok, hadds', hstanding, hwindows⟩
        refine ⟨hok, hadds.trans hadds' standing?_put, fun s' => ?_, fun j hij hj => ?_⟩
        · exact (hstanding s').trans standing?_put
        · rcases Nat.eq_or_lt_of_le hij with rfl | hlt
          · refine hadds'.segment ?_
            rw [segment?, hinfo, if_pos rfl]
            rfl
          · exact hwindows j hlt hj
      · intro standing hstanding
        exact hlive standing (standing?_put.symm.trans hstanding)
      · intro j hj
        exact mapped?_put.trans (hunmapped j hj)
      · intro j hij hj
        rw [hinfo, if_neg]
        · exact hnone j (by omega) hj
        · simp only [pageSize]
          omega

/-- A mapping is added under the next number. -/
theorem ensures_addMapping {mapping : Mapping} :
    Ensures (addMapping s mapping) machine fun id after =>
      ∃ standing notices, standing? machine.spaces s = some standing ∧ standing.nextMapping = id ∧
        id < maxMappingId ∧
        after = { machine with
          spaces := onSupplement machine.spaces s fun table =>
            { table with mappings := table.mappings.insert id mapping, nextMapping := id + 1 }
          notices } := by
  simp only [addMapping, ensures_bind, ensures_supplement, ensures_ofExcept]
  intro space hspace
  unfold Supplement.addMapping
  split
  · rename_i hlt
    refine ⟨?_, fun halt => by simp⟩
    rintro _ ⟨⟩
    simp only [ensures_setSupplement, ensures_space, ensures_notify, ensures_pure]
    have hspaces := modify_supplement hspace fun table =>
      { table with
        mappings := table.mappings.insert space.supplement.nextMapping mapping
        nextMapping := space.supplement.nextMapping + 1 }
    rw [hspaces]
    intro _ _
    exact ⟨space.standing, _, standing?_eq hspace, rfl, hlt, rfl⟩
  · refine ⟨fun a => by simp, ?_⟩
    rintro _ ⟨⟩
    rfl

/-- All of a file is mapped, or nothing happens. -/
theorem ensures_mapFile (s : SpaceId) (f : FileId) (page : Nat) :
    Ensures (Kernel.mapFile s f page) machine fun outcome after =>
      match outcome with
      | .ok id => ∃ file, machine.files[f]? = some file ∧ Maps s f page file.size id machine after
      | .error _ => after = machine := by
  simp only [Kernel.mapFile, lift_eq, holding_eq, ensures_bind, ensures_file]
  intro file hfile
  refine ensures_ite (fun _ => rfl) (fun hmappable => ?_)
  rw [not_not] at hmappable
  simp only [Kernel.addFilePages, lift_eq, ensures_bind, ensures_supplement]
  intro space hspace
  refine ensures_ite (fun _ => rfl) (fun hdestroyed => ?_)
  have hlive : IsLive machine.spaces s := by
    intro standing hstanding
    rw [standing?_eq hspace, Option.some.injEq] at hstanding
    rw [← hstanding]
    exact Bool.eq_false_iff.mpr hdestroyed
  -- every page that was looked at is not known
  have hunused := @ensures_upToFailure Nat machine VmError (Kernel.requireUnused s)
    (fun done after => after = machine ∧ ∀ p ∈ done, ¬ machine.Known s p)
    (fun _ _ after => after = machine) (pageRange page (pageCount file.size)) ?_
    ⟨rfl, fun p hp => by cases hp⟩
  · simp only [ensures_bind]
    refine hunused.mono fun outcome checked hchecked => ?_
    cases outcome with
    | error cause => exact hchecked
    | ok u =>
      obtain ⟨⟨rfl, hunknown⟩, -⟩ := hchecked
      have hfresh : ∀ i, i < pageCount file.size → ¬ checked.Known s (page + i * pageSize) :=
        fun i hi => hunknown _ (mem_pageRange.mpr ⟨i, hi, rfl⟩)
      have hnone : ∀ i, i < pageCount file.size →
          mapped? checked.spaces s (page + i * pageSize) = none ∧
            info? checked.spaces s (page + i * pageSize) = none := by
        intro i hi
        have := hfresh i hi
        unfold Known at this
        rwa [not_or, Option.not_isSome_iff_eq_none, Option.not_isSome_iff_eq_none] at this
      simp only [ensures_bind]
      have hregister := @ensures_registerMapped s f file.size page (pageCount file.size)
        hmappable.2.2.1 _ checked 0 (Nat.zero_add _) hlive (fun i hi => (hnone i hi).1)
        fun i _ hi => (hnone i hi).2
      refine hregister.mono ?_
      rintro outcome added ⟨rfl, hadds, hstanding, hwindows⟩
      simp only [ensures_bind]
      refine ensures_addMapping.mono ?_
      rintro id after ⟨standing, notices, hs, hid, hlt, rfl⟩
      rw [ensures_pure]
      have hs' := (hstanding s).symm.trans hs
      refine ⟨file, hfile, hmappable, ?_, hfresh, ?_, ?_, ?_⟩
      · refine hadds.trans ?_ (hstanding s)
        exact .of_eq s _ rfl rfl rfl rfl (fun _ _ => mapped?_onSupplement) fun _ _ =>
          info?_onSupplement_entries fun _ => rfl
      · intro i hi
        refine (segment?_onSupplement_entries ?_).trans (hwindows i (Nat.zero_le i) hi)
        exact fun _ => rfl
      · refine ⟨standing, hs', hlive standing hs', hid, hlt, ?_⟩
        rw [standing?_onSupplement, if_pos rfl]
        rw [standing?, Option.map_eq_some_iff] at hs
        obtain ⟨space', hspace', rfl⟩ := hs
        rw [hspace']
        rfl
      · intro s' hne
        rw [standing?_onSupplement, if_neg (Ne.symm hne)]
        exact hstanding s'
  · rintro done p rest before hwhole ⟨rfl, hdone⟩
    refine ensures_requireUnused.mono ?_
    rintro outcome after ⟨rfl, hok⟩
    cases outcome with
    | error cause => rfl
    | ok u =>
      refine ⟨rfl, fun p' hp' => ?_⟩
      rcases List.mem_append.mp hp' with hp' | hp'
      · exact hdone p' hp'
      · rw [List.mem_singleton.mp hp']
        exact hok rfl

end Transition

end DemandPaging
