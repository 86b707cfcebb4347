import DemandPaging.Proofs.FlatMemory

/-!
# Durability of mapped files

What is stored in a mapping is in the file when the mapping is removed, if the removal reports no
failure. While the mapping lives, its pages hold the bytes of the file at the time of mapping with
the stored bytes laid over them, no matter how often they went to the file and came back, and whether
they were written short or not at all (`Carries`). This needs that the mapping is the only one of its
file and that nobody else writes the file.

A mapping that is gone does not come back, since its number is never given out again (`Retired`).
-/

set_option autoImplicit false

namespace DemandPaging

open Spaces Machine

/-- Mapping `id` of space `s` is live, it is the only one of its file, and its pages hold `bytes`. -/
structure Carries (s : SpaceId) (f : FileId) (page id length : Nat) (bytes : Nat → UInt8)
    (machine : Machine) : Prop where
  listed : mapping? machine.spaces s id = some { file := f, page, pages := pageCount length }
  aligned : IsAligned page
  window : ∀ i, i < pageCount length →
    segment? machine.spaces s (page + i * pageSize) = some (mappedSegment f length i)
  sole : ∀ s' p segment, segment? machine.spaces s' p = some segment → segment.writeBack = true →
    segment.file = f → s' = s ∧ ∃ i, i < pageCount length ∧ p = page + i * pageSize
  file : ∃ file, machine.files[f]? = some file ∧ file.size = length
  holds : ∀ j, j < length →
    machine.Holds s (page + j / pageSize * pageSize) (j % pageSize) (bytes j)

/-- Mapping `id` of space `s` is gone, and its number was given out. -/
def Retired (s : SpaceId) (id : Nat) (machine : Machine) : Prop :=
  mapping? machine.spaces s id = none ∧ ∃ n, next? machine.spaces s = some n ∧ id < n

/-- The moment maps the file. -/
def Moment.Opens (moment : Moment) (f : FileId) : Prop :=
  ∃ s page id, moment.action = .call (.mapFile s f page) ∧ moment.reply = .mapping id

section

variable {s : SpaceId} {f : FileId} {page id length : Nat} {bytes : Nat → UInt8} {m m' : Machine}
  {action : Action} {reply : Reply}

/-! ### A live mapping -/

/-- The place of a byte of the file in the pages of the mapping. -/
theorem page_add_mod (page j : Nat) : page + j / pageSize * pageSize + j % pageSize = page + j := by
  rw [Nat.add_assoc, Nat.div_add_mod']

/-- The pages of the mapping are safe, since no other page may write the same byte of the file. -/
theorem Carries.shielded (h : Carries s f page id length bytes m) (writes : List FileId) {j : Nat}
    (hj : j < length) :
    Shielded writes m.spaces s (page + j / pageSize * pageSize) (j % pageSize) := by
  obtain ⟨hi, -, hk⟩ := exists_mappedSegment (f := f) hj
  intro segment hsegment
  rw [h.window _ hi, Option.some.injEq] at hsegment
  subst hsegment
  have hback : (mappedSegment f length (j / pageSize)).writeBack = true := rfl
  rw [if_pos hback]
  refine ⟨hk, fun s' p other hother hback hcovers => ?_⟩
  obtain ⟨rfl, i, hi', rfl⟩ := h.sole s' p other hother hback hcovers.1.symm
  rw [h.window i hi', Option.some.injEq] at hother
  subst hother
  rw [eq_of_mappedSegment hk hcovers.2.1 hcovers.2.2]
  exact ⟨rfl, rfl⟩

/-- No write makes the file longer, since the windows of the mapping end where the file ends. -/
theorem Carries.file_of_written (h : Carries s f page id length bytes m) {writes : List FileId}
    (hwritten : Files.Written writes m.spaces m.files m'.files) :
    ∃ file, m'.files[f]? = some file ∧ file.size = length := by
  obtain ⟨file, hfile, hsize⟩ := h.file
  obtain ⟨file', hfile', -, -, hsize'⟩ := hwritten.file f file hfile
  refine ⟨file', hfile', ?_⟩
  rcases hsize' with hsame | ⟨s', p, segment, hsegment, hback, hf, hlt⟩
  · exact hsame.trans hsize
  · obtain ⟨rfl, i, hi, rfl⟩ := h.sole s' p segment hsegment hback hf
    rw [h.window i hi, Option.some.injEq] at hsegment
    subst hsegment
    have := mappedSegment_le (f := f) hi
    omega

/-- Every page of the mapping is known, since it has a window. -/
theorem Carries.known (h : Carries s f page id length bytes m) {i : Nat} (hi : i < pageCount length) :
    m.Known s (page + i * pageSize) := known_of_segment? (h.window i hi)

/-- The windows of a mapping have the bytes of the file. -/
theorem windowByte_mappedSegment {files : Array MemoryFile} {file : MemoryFile}
    (hfile : files[f]? = some file) {j : Nat} (hj : j < length) :
    Files.windowByte files (mappedSegment f length (j / pageSize)) (j % pageSize) =
      file.content[j]?.getD 0 := by
  obtain ⟨-, hoffset, hk⟩ := exists_mappedSegment (f := f) hj
  have hf : (mappedSegment f length (j / pageSize)).file = f := rfl
  rw [Files.windowByte, if_pos hk, hf, hfile, Option.bind_some, hoffset]

/-- A mapping that was just made has the bytes of the file. -/
theorem Maps.carries {file : MemoryFile} (h : Maps s f page file.size id m m') (hm : Mapped m.spaces)
    (hfile : m.files[f]? = some file)
    (hnone : ∀ s' id' other, Spaces.mapping? m.spaces s' id' = some other → other.file ≠ f) :
    Carries s f page id file.size (fun j => file.content[j]?.getD 0) m' where
  listed := by rw [h.mapping?, if_pos ⟨rfl, rfl⟩]
  aligned := h.mappable.2.2.1
  window := h.window
  sole s' p segment hsegment hback hf := by
    rcases h.adds.segment_cases hsegment with hold | ⟨rfl, -, hw⟩
    · obtain ⟨id', other, i, hother, hi, rfl⟩ := hm.owned s' p segment hold hback
      obtain ⟨length, -, -, hwindows⟩ := hm.windows s' id' other hother
      rw [hwindows i hi, Option.some.injEq] at hold
      subst hold
      exact absurd hf (hnone s' id' other hother)
    · obtain ⟨i, hi, hp, -⟩ := pageWindow_eq_some.mp hw
      exact ⟨rfl, i, hi, hp⟩
  file := ⟨file, by rw [h.adds.files, hfile], rfl⟩
  holds j hj := by
    obtain ⟨hi, -, -⟩ := exists_mappedSegment (f := f) hj
    have hknown := known_of_segment? (h.window _ hi)
    obtain ⟨-, segment, hw, -, hholds⟩ := h.adds.fresh hknown (h.fresh _ hi)
    rw [pageWindow_page hi, Option.some.injEq] at hw
    subst hw
    have := hholds (j % pageSize)
    rwa [windowByte_mappedSegment hfile hj] at this

/-- Paging moves the pages of the mapping and keeps their bytes, but for what is stored. -/
theorem Carries.advance (h : Carries s f page id length bytes m) {writes : List FileId}
    {stored : SpaceId → Nat → Option UInt8} (ha : Advance writes stored m m') :
    Carries s f page id length (fun j => (stored s (page + j)).getD (bytes j)) m' where
  listed := by rw [mapping?_congr (ha.standing s), h.listed]
  aligned := h.aligned
  window i hi := by rw [ha.segment, h.window i hi]
  sole s' p segment hsegment := h.sole s' p segment ((ha.segment s' p).symm.trans hsegment)
  file := h.file_of_written ha.files
  holds j hj := by
    have hk : j % pageSize < pageSize := Nat.mod_lt _ (by decide)
    have hbyte := ha.holds s _ _ _ (isAligned_page h.aligned _) hk (h.shielded writes hj)
      (h.holds j hj)
    rwa [page_add_mod] at hbyte

/-- Pages that are added elsewhere leave the mapping alone, unless they are of the same file. -/
theorem Carries.adds (h : Carries s f page id length bytes m) {s' : SpaceId}
    {window : Nat → Option Segment} (ha : Adds s' window m m')
    (hmapping : mapping? m'.spaces s id = mapping? m.spaces s id)
    (hwindow : ∀ p segment, window p = some segment → segment.writeBack = true →
      segment.file ≠ f) : Carries s f page id length bytes m' where
  listed := hmapping.trans h.listed
  aligned := h.aligned
  window i hi := ha.segment (h.window i hi)
  sole s'' p segment hsegment hback hf := by
    rcases ha.segment_cases hsegment with hold | ⟨-, -, hw⟩
    · exact h.sole s'' p segment hold hback hf
    · exact absurd hf (hwindow p segment hw hback)
  file := by
    rw [ha.files]
    exact h.file
  holds j hj := ha.holds (h.known (exists_mappedSegment (f := f) hj).1) (h.holds j hj)

/-- Pages that are forgotten elsewhere leave the mapping alone. -/
theorem Carries.forgets (h : Carries s f page id length bytes m) {gone : SpaceId → Nat → Prop}
    {writes : List FileId} (hf : Forgets gone writes m m')
    (hmapping : mapping? m'.spaces s id = mapping? m.spaces s id)
    (hnot : ∀ i, i < pageCount length → ¬ gone s (page + i * pageSize)) :
    Carries s f page id length bytes m' where
  listed := hmapping.trans h.listed
  aligned := h.aligned
  window i hi := by rw [hf.segment_eq (hnot i hi), h.window i hi]
  sole s' p segment hsegment := h.sole s' p segment (hf.segment hsegment).2
  file := h.file_of_written hf.files
  holds j hj := by
    obtain ⟨hi, -, hk⟩ := exists_mappedSegment (f := f) hj
    refine hf.holds (isAligned_page h.aligned _) (hnot _ hi) (fun segment hsegment => ?_)
      (h.holds j hj)
    rw [h.window _ hi, Option.some.injEq] at hsegment
    subst hsegment
    refine hf.window _ _ hk fun s' p other hgone hother hback hcovers => ?_
    obtain ⟨rfl, i, hi', rfl⟩ := h.sole s' p other hother hback hcovers.1.symm
    exact hnot i hi' hgone

/-- What is done from outside leaves the mapping alone if the file is not written. -/
theorem Carries.outside (h : Carries s f page id length bytes m) (ho : Outside m m')
    (hspared : Files.Spared m.files m'.files f) : Carries s f page id length bytes m' where
  listed := (ho.mapping? s id).trans h.listed
  aligned := h.aligned
  window i hi := (ho.segment s _).trans (h.window i hi)
  sole s' p segment hsegment := h.sole s' p segment ((ho.segment s' p).symm.trans hsegment)
  file := by
    obtain ⟨file, hfile, hsize⟩ := h.file
    obtain ⟨file', hfile', hcontent, -⟩ := hspared file hfile
    exact ⟨file', hfile', by rw [MemoryFile.size, hcontent, ← hsize, MemoryFile.size]⟩
  holds j hj := by
    obtain ⟨hi, -, -⟩ := exists_mappedSegment (f := f) hj
    obtain ⟨file, hfile, -⟩ := h.file
    have hlt : f < m.files.size := (Array.getElem?_eq_some_iff.mp hfile).1
    refine (h.holds j hj).congr (ho.info s _) (fun hn => (ho.mapped s _).trans hn) ?_ ?_ ?_
    · intro e he
      exact ⟨e, (ho.mapped s _).trans he, rfl, fun hd => hd, by rw [ho.frames]⟩
    · intro copy _
      exact ho.disk copy.slot _
    · intro segment hsegment
      rw [h.window _ hi, Option.some.injEq] at hsegment
      subst hsegment
      exact hspared.windowByte hlt _

/-- An action leaves the mapping alone but for what is stored, or removes it. -/
theorem Moves.carries (h : Moves action reply m m') (ho : m.Orderly)
    (hc : Carries s f page id length bytes m)
    (honce : ∀ s' page' id', action = .call (.mapFile s' f page') → reply ≠ .mapping id')
    (hspared : (∀ c, action ≠ .call c) → Files.Spared m.files m'.files f) :
    Carries s f page id length (fun j => (action.stored m s (page + j)).getD (bytes j)) m' ∨
      Retired s id m' := by
  -- the number of the mapping was given out
  have hnumber : ∃ n, next? m.spaces s = some n ∧ id < n := by
    obtain ⟨standing, hstanding, hlisted⟩ := Option.bind_eq_some_iff.mp hc.listed
    refine ⟨standing.nextMapping, ?_, (ho.mapped.numbered s standing hstanding).2 id _ hlisted⟩
    rw [next?, hstanding, Option.map_some]
  cases h with
  | paged writes _ _ _ hadvance => exact .inl (hc.advance hadvance)
  | registered s' hstored _ hprivate hadds hstanding =>
    rw [hstored]
    refine .inl (hc.adds hadds (mapping?_congr (hstanding s) id) fun p segment hw hback => ?_)
    rw [(hprivate p segment hw).1] at hback
    cases hback
  | mapped s' f' page' id' file haction hreply _ hmaps =>
    have hne : f' ≠ f := by
      rintro rfl
      exact honce s' page' id' haction hreply
    subst haction
    refine .inl (hc.adds hmaps.adds ?_ fun p segment hw _ => ?_)
    · rw [hmaps.mapping?, if_neg]
      rintro ⟨rfl, rfl⟩
      have hlisted := hc.listed
      rw [hmaps.mapping?_eq_none ho.mapped] at hlisted
      cases hlisted
    · obtain ⟨i, -, -, rfl⟩ := pageWindow_eq_some.mp hw
      exact hne
  | unmapped s' id' mapping haction hunmaps _ =>
    subst haction
    by_cases hsame : s = s' ∧ id = id'
    · obtain ⟨rfl, rfl⟩ := hsame
      refine .inr ⟨?_, ?_⟩
      · rw [hunmaps.mapping?, if_pos ⟨rfl, rfl⟩]
      · rw [hunmaps.next?]
        exact hnumber
    · obtain ⟨writes, -, hforgets⟩ := hunmaps.forgets
      refine .inl (hc.forgets hforgets ?_ fun i hi hgone => ?_)
      · rw [hunmaps.mapping?, if_neg hsame]
      · obtain ⟨rfl, hmem⟩ := hgone
        obtain ⟨i', hi', heq⟩ := mem_pageRange.mp hmem
        refine hsame ⟨rfl, ?_⟩
        exact ho.mapped.disjoint s id' id mapping _ i' i hunmaps.live hc.listed hi' hi heq.symm
  | destroyed s' haction hdestroys =>
    subst haction
    by_cases hsame : s = s'
    · subst hsame
      refine .inr ⟨hdestroys.unlisted id, ?_⟩
      rw [hdestroys.next?]
      exact hnumber
    · obtain ⟨writes, -, hforgets⟩ := hdestroys.forgets
      refine .inl (hc.forgets hforgets ?_ fun i _ hgone => hsame hgone)
      rw [hdestroys.mapping?, if_neg hsame]
  | refused hstored _ _ heq =>
    subst heq
    rw [hstored]
    exact .inl hc
  | outside hcall houtside =>
    rw [(Action.eq_none_of_outside hcall).1]
    exact .inl (hc.outside houtside (hspared hcall))

/-- A mapping that is gone stays away. -/
theorem Moves.retired (h : Moves action reply m m') (hr : Retired s id m) : Retired s id m' := by
  obtain ⟨hnone, n, hnext, hlt⟩ := hr
  have hstays : standing? m'.spaces s = standing? m.spaces s → Retired s id m' := by
    intro hstanding
    exact ⟨(mapping?_congr hstanding id).trans hnone, n, (next?_congr hstanding).trans hnext, hlt⟩
  cases h with
  | paged writes _ _ _ hadvance => exact hstays (hadvance.standing s)
  | registered s' _ _ _ _ hstanding => exact hstays (hstanding s)
  | mapped s' f' page' id' file _ _ _ hmaps =>
    by_cases hs : s = s'
    · subst hs
      obtain ⟨standing, hbefore, -, hid, -, hafter⟩ := hmaps.standing
      rw [next?, hbefore, Option.map_some, Option.some.injEq] at hnext
      refine ⟨?_, id' + 1, ?_, by omega⟩
      · rw [hmaps.mapping?, if_neg]
        · exact hnone
        · rintro ⟨-, rfl⟩
          omega
      · rw [next?, hafter]
        rfl
    · exact hstays (hmaps.others s hs)
  | unmapped s' id' mapping _ hunmaps _ =>
    refine ⟨?_, n, (hunmaps.next? s).trans hnext, hlt⟩
    rw [hunmaps.mapping?, hnone, ite_self]
  | destroyed s' _ hdestroys =>
    refine ⟨?_, n, (hdestroys.next? s).trans hnext, hlt⟩
    rw [hdestroys.mapping?, hnone, ite_self]
  | refused _ _ _ heq =>
    subst heq
    exact ⟨hnone, n, hnext, hlt⟩
  | outside _ houtside =>
    exact ⟨(houtside.mapping? s id).trans hnone, n, houtside.next? hnext, hlt⟩

/-- A live mapping was live before the action or made by it. -/
theorem Moves.listed (h : Moves action reply m m') {mapping : Mapping}
    (hlisted : mapping? m'.spaces s id = some mapping) :
    mapping? m.spaces s id = some mapping ∨
      ∃ page, action = .call (.mapFile s mapping.file page) ∧ reply = .mapping id := by
  cases h with
  | paged writes _ _ _ hadvance =>
    exact .inl ((mapping?_congr (hadvance.standing s) id).symm.trans hlisted)
  | registered s' _ _ _ _ hstanding =>
    exact .inl ((mapping?_congr (hstanding s) id).symm.trans hlisted)
  | mapped s' f' page' id' file haction hreply _ hmaps =>
    rw [hmaps.mapping?] at hlisted
    split at hlisted
    · rename_i hsame
      obtain ⟨rfl, rfl⟩ := hsame
      cases hlisted
      exact .inr ⟨page', haction, hreply⟩
    · exact .inl hlisted
  | unmapped s' id' mapping' _ hunmaps _ =>
    rw [hunmaps.mapping?] at hlisted
    split at hlisted
    · cases hlisted
    · exact .inl hlisted
  | destroyed s' _ hdestroys =>
    rw [hdestroys.mapping?] at hlisted
    split at hlisted
    · cases hlisted
    · exact .inl hlisted
  | refused _ _ _ heq =>
    subst heq
    exact .inl hlisted
  | outside _ houtside => exact .inl ((houtside.mapping? s id).symm.trans hlisted)

end

/-! ### Runs -/

/-- The byte that was stored last at an address of a space. -/
def lastStored (moments : List Moment) (s : SpaceId) (a : Nat) : Option UInt8 :=
  moments.foldl (fun last moment => moment.action.stored moment.before s a <|> last) none

/-- What was stored last is what the last moment stored there, if it stored anything. -/
theorem lastStored_append (moments : List Moment) (moment : Moment) (s : SpaceId) (a : Nat) :
    lastStored (moments ++ [moment]) s a =
      (moment.action.stored moment.before s a <|> lastStored moments s a) := by
  rw [lastStored, List.foldl_append]
  rfl

section

variable {start machine : Machine} {moments : List Moment} {s : SpaceId} {f : FileId}
  {page id length : Nat} {bytes : Nat → UInt8}

/-- Along a run the mapping has the bytes that it had with the stored ones laid over them, until it is
removed. -/
theorem Run.carries (h : Run start moments machine) (ho : start.Orderly)
    (hc : Carries s f page id length bytes start)
    (honce : ∀ moment ∈ moments, ¬ moment.Opens f)
    (hspared : ∀ moment ∈ moments, (∀ c, moment.action ≠ .call c) →
      Files.Spared moment.before.files moment.after.files f) :
    Carries s f page id length (fun j => (lastStored moments s (page + j)).getD (bytes j)) machine ∨
      Retired s id machine := by
  induction h with
  | nil => exact .inl hc
  | @snoc moments before after action reply hrun hpermitted hstep ih =>
    obtain ⟨hbefore, -, hm⟩ := (hrun.snoc hpermitted hstep).moves ho
    have hlast : (⟨action, reply, before, after⟩ : Moment) ∈
        moments ++ [⟨action, reply, before, after⟩] :=
      List.mem_append_right _ (List.mem_singleton.mpr rfl)
    have hcase := ih (fun moment hmem => honce moment (List.mem_append_left _ hmem))
      fun moment hmem => hspared moment (List.mem_append_left _ hmem)
    rcases hcase with hcarries | hretired
    · have hnext := Moves.carries hm hbefore hcarries
        (fun s' page' id' haction hreply => honce _ hlast ⟨s', page', id', haction, hreply⟩)
        (hspared _ hlast)
      refine hnext.imp_left fun hafter => ?_
      convert hafter using 2 with j
      rw [lastStored_append]
      cases action.stored before s (page + j) <;> rfl
    · exact .inr (Moves.retired hm hretired)

/-- If the removal of a mapping reports no failure, the file has the bytes of the mapping. -/
theorem Carries.removed (h : Carries s f page id length bytes start) (ho : start.Orderly)
    {reply : Reply}
    (hstep : (Action.call (.unmapFile s id)).step start = .ok reply machine)
    (hdone : reply = .done) :
    ∃ file, machine.files[f]? = some file ∧ file.size = length ∧
      ∀ j, j < length → file.content[j]?.getD 0 = bytes j := by
  have hremoved : Transition.Ensures (Action.call (.unmapFile s id)).step start fun reply after =>
      reply = .done → (∃ writes, Files.Written writes start.spaces start.files after.files) ∧
        Saves (Transition.among s (pageRange page (pageCount length))) start after := by
    simp only [Action.step, Kernel.perform, Kernel.unmapFile, Transition.holding_eq,
      Transition.ensures_bind, Transition.ensures_pure]
    refine (Transition.ensures_removeMapping ho.settled ho.mapped s id).mono ?_
    rintro outcome after ⟨-, hafter⟩ hdone
    rw [h.listed] at hafter
    obtain ⟨hunmaps, hsaves⟩ := hafter
    obtain ⟨writes, -, hforgets⟩ := hunmaps.forgets
    refine ⟨⟨writes, hforgets.files⟩, hsaves ?_⟩
    cases outcome with
    | ok u => rfl
    | error cause => cases hdone
  obtain ⟨⟨writes, hwritten⟩, hsaves⟩ := hremoved.of_ok hstep hdone
  obtain ⟨file, hfile, hsize⟩ := h.file_of_written hwritten
  refine ⟨file, hfile, hsize, fun j hj => ?_⟩
  obtain ⟨hi, -, hk⟩ := exists_mappedSegment (f := f) hj
  rw [← windowByte_mappedSegment hfile hj]
  refine hsaves s _ _ _ _ ⟨rfl, ?_⟩ (h.window _ hi) hk (h.holds j hj)
  exact mem_pageRange.mpr ⟨_, hi, rfl⟩

/-- What it takes to map a file. -/
theorem maps_of_step {reply : Reply}
    (hstep : (Action.call (.mapFile s f page)).step start = .ok reply machine)
    (hreply : reply = .mapping id) :
    ∃ file, start.files[f]? = some file ∧ Maps s f page file.size id start machine := by
  have hmapped : Transition.Ensures (Action.call (.mapFile s f page)).step start
      fun reply after => reply = .mapping id →
        ∃ file, start.files[f]? = some file ∧ Maps s f page file.size id start after := by
    simp only [Action.step, Kernel.perform, Transition.ensures_bind, Transition.ensures_pure]
    refine (Transition.ensures_mapFile s f page).mono fun outcome after hafter hreply => ?_
    cases outcome with
    | ok id' =>
      cases hreply
      exact hafter
    | error cause => cases hreply
  exact hmapped.of_ok hstep hreply

end

end DemandPaging
