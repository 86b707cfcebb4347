import DemandPaging.Proofs.FiledPages
import DemandPaging.Proofs.NewEntries

/-!
# Files that are mapped whole

To map a file is to cut it into windows (`Windows`) and to give each page of a range one of them. The range
is looked at before the first entry is made. So either all of the file is mapped, which is when the space
admits it (`AddressSpace.Admits`), or nothing at all has happened (`Transition.mapFile_whole`).

The number that is answered is new. This needs all that may have happened before, which is why it is said of
chronicles (`Machine.Unanswered`).
-/

set_option autoImplicit false

namespace DemandPaging

open Spaces Machine

/-- The window has byte `j` of its file. -/
def Segment.Has (segment : Segment) (j : Nat) : Prop :=
  segment.offset ≤ j ∧ j < segment.offset + segment.readBytes

/-- A file of `length` bytes may be mapped at `page`: the range is the user's, the space is live, and none of
the pages has an entry or is mapped. -/
structure AddressSpace.Admits (space : AddressSpace) (length page : Nat) : Prop where
  mappable : IsMappable length page
  live : space.isDestroyed = false
  unregistered : ∀ i, i < pageCount length → space.supplement.find? (page + i * pageSize) = none
  unmapped : ∀ i, i < pageCount length → space.directory.find? (page + i * pageSize) = none

/-- Whether a space admits a mapping can be computed. -/
instance (space : AddressSpace) (length page : Nat) : Decidable (space.Admits length page) :=
  decidable_of_iff (IsMappable length page ∧ space.isDestroyed = false ∧
      (∀ i, i < pageCount length → space.supplement.find? (page + i * pageSize) = none) ∧
      ∀ i, i < pageCount length → space.directory.find? (page + i * pageSize) = none)
    ⟨fun ⟨h, h', h'', h'''⟩ => ⟨h, h', h'', h'''⟩,
      fun ⟨h, h', h'', h'''⟩ => ⟨h, h', h'', h'''⟩⟩

/-- The windows are a file of `length` bytes, cut at the ends of pages: they may be written, changes go back
to the file, and each byte of the file is in one of them. -/
structure Windows (f : FileId) (length : Nat) (segment : Nat → Segment) : Prop where
  source : ∀ i, (segment i).file = f ∧ (segment i).writable = true ∧ (segment i).writeBack = true
  fills : ∀ i, (segment i).offset = i * pageSize ∧
    (segment i).readBytes + (segment i).zeroBytes = pageSize
  covers : ∀ j, (∃ i, i < pageCount length ∧ (segment i).Has j) ↔ j < length
  disjoint : ∀ i i' j, (segment i).Has j → (segment i').Has j → i = i'

/-- A file of `length` bytes was mapped at `page` under the number `id`: so many entries are new, and the
mapping is listed. -/
structure Supplement.Maps (f : FileId) (length page id : Nat) (table table' : Supplement) : Prop where
  entries : ∃ segment, Windows f length segment ∧
    Supplement.Gains page segment (pageCount length) table table'
  mappings : table'.mappings = table.mappings.insert id { file := f, page, pages := pageCount length }
  next : table'.nextMapping = id + 1
  live : table'.destroyed = false

/-- The machine after it has said one thing more. -/
def Machine.saying (machine : Machine) (notice : Notice) : Machine :=
  { machine with notices := machine.notices.push notice }

/-- However the machine came about, the number was never answered for a mapping of the space. -/
def Machine.Unanswered (s : SpaceId) (id : Nat) (machine : Machine) : Prop :=
  ∀ start moments, start.Fresh → Chronicle False start moments machine → ∀ moment ∈ moments,
    ∀ f page, moment.action = .call (.mapFile s f page) → moment.reply ≠ .mapping id

/-! ### Windows -/

/-- The windows of a mapping are its file, cut at the ends of pages. -/
theorem windows_mappedSegment (f : FileId) (length : Nat) : Windows f length (mappedSegment f length) where
  source _ := ⟨rfl, rfl, rfl⟩
  fills i := ⟨rfl, by simp only [mappedSegment]; omega⟩
  covers j := by
    constructor
    · rintro ⟨i, hi, -, hlt⟩
      exact Nat.lt_of_lt_of_le hlt (mappedSegment_le hi)
    · intro hj
      obtain ⟨hi, hoffset, hlt⟩ := exists_mappedSegment (f := f) hj
      exact ⟨j / pageSize, hi, by omega, by omega⟩
  disjoint i i' j hi hi' := by
    obtain ⟨hge, hlt⟩ := hi
    obtain ⟨hge', hlt'⟩ := hi'
    have hsum : (mappedSegment f length i').offset + (j - (mappedSegment f length i').offset) = j := by
      omega
    refine @eq_of_mappedSegment f length i' i (j - (mappedSegment f length i').offset) (by omega) ?_ ?_
    · rw [hsum]
      exact hge
    · rw [hsum]
      exact hlt

/-! ### The range is looked at -/

namespace Transition

variable {machine : Machine} {s : SpaceId} {space : AddressSpace} {f : FileId} {length page : Nat}

/-- A file that exists is found, and looking it up changes nothing. -/
theorem run_file {file : MemoryFile} (hfile : machine.files[f]? = some file) :
    Transition.file f machine = .ok file machine := by
  have hget : (get : Transition Machine) machine = .ok machine machine := rfl
  rw [Transition.file, run_bind hget, hfile]
  rfl

/-- To look at a page changes nothing. It is fine if nothing is known of it. -/
theorem run_requireUnused (hspace : machine.spaces[s]? = some space) (p : Nat) :
    ∃ outcome, (Kernel.requireUnused s p : Transition _) machine = .ok outcome machine ∧
      (outcome = .ok () ↔ space.supplement.find? p = none ∧ space.directory.find? p = none) := by
  rw [Kernel.requireUnused, lift_eq, run_bind (run_supplement hspace), Supplement.contains,
    Std.ExtTreeMap.contains_eq_isSome_getElem?]
  change ∃ outcome, (if (space.supplement.find? p).isSome = true then _ else _ : Transition _) machine = _ ∧ _
  cases space.supplement.find? p with
  | some info => exact ⟨.error .alreadyRegistered, rfl, by simp⟩
  | none =>
    rw [Option.isSome_none, if_neg Bool.false_ne_true, run_bind (run_findEntry hspace p),
      mapped?_eq hspace]
    cases space.directory.find? p with
    | some entry => exact ⟨.error .alreadyMapped, rfl, by simp⟩
    | none => exact ⟨.ok (), rfl, by simp⟩

/-- If steps that change nothing are carried out up to the first refusal, then nothing has changed, and it is
answered whether all were fine. -/
theorem run_upToFailure {α ε : Type} {step : α → Transition (Except ε Unit)} {fine : α → Prop}
    (hstep : ∀ a, ∃ outcome, step a machine = .ok outcome machine ∧ (outcome = .ok () ↔ fine a))
    (todo : List α) :
    ∃ outcome, Kernel.upToFailure step todo machine = .ok outcome machine ∧
      (outcome = .ok () ↔ ∀ a ∈ todo, fine a) := by
  induction todo with
  | nil => exact ⟨.ok (), rfl, by simp⟩
  | cons a rest ih =>
    obtain ⟨first, hrun, hfirst⟩ := hstep a
    rw [Kernel.upToFailure, run_bind hrun]
    cases first with
    | error cause =>
      refine ⟨.error cause, rfl, iff_of_false (by simp) fun hall => ?_⟩
      have hfine := hfirst.mpr (hall a List.mem_cons_self)
      cases hfine
    | ok u =>
      obtain ⟨outcome, hrest, hiff⟩ := ih
      refine ⟨outcome, hrest, hiff.trans ?_⟩
      rw [List.forall_mem_cons, and_iff_right (hfirst.mp rfl)]

/-! ### The range is registered -/

/-- The pages from the `i`-th on get their entries, since the space is live and they have none. -/
theorem gains_registerMapped (hspace : machine.spaces[s]? = some space)
    (hlive : space.supplement.destroyed = false) {total : Nat}
    (hfree : ∀ i, i < total → space.supplement.find? (page + i * pageSize) = none) (pages : Nat) :
    ∀ (i : Nat) (table : Supplement), i + pages = total →
    Supplement.Gains page (mappedSegment f length) i space.supplement table →
    table.OnlyEntries space.supplement →
    ∃ table', registerMapped s f length page pages i (machine.withTable s table) =
        .ok (.ok ()) (machine.withTable s table') ∧
      Supplement.Gains page (mappedSegment f length) total space.supplement table' ∧
      table'.OnlyEntries space.supplement := by
  induction pages with
  | zero =>
    intro i table htotal hgains hrest
    rw [Nat.add_zero] at htotal
    exact ⟨table, rfl, htotal ▸ hgains, hrest⟩
  | succ pages ih =>
    intro i table htotal hgains hrest
    have hdestroyed : table.destroyed = false := hrest.2.2.trans hlive
    have hnone := hfree i (by omega)
    have hfind : table.find? (page + i * pageSize) = none :=
      (hgains.find?_next (Nat.le_refl i)).trans hnone
    have hinsert := @Supplement.insert_of_free table
      (.fileBacked (page + i * pageSize) (mappedSegment f length i)) hdestroyed hfind
    obtain ⟨table', hrun, hgains', hrest'⟩ := ih (i + 1) _ (by omega) (hgains.insert hnone) hrest
    refine ⟨table', ?_, hgains', hrest'⟩
    rw [← @withTable_withTable machine s table] at hrun
    rw [registerMapped, run_bind (run_supplement (space_withTable hspace table)), hinsert]
    exact hrun

/-- A mapping gets the next number unless all have been given out. -/
theorem run_addMapping (hspace : machine.spaces[s]? = some space)
    (hnumber : space.supplement.nextMapping < maxMappingId) (mapping : Mapping) :
    addMapping s mapping machine = .ok space.supplement.nextMapping
      ((machine.withTable s { space.supplement with
        mappings := space.supplement.mappings.insert space.supplement.nextMapping mapping
        nextMapping := space.supplement.nextMapping + 1 }).saying
          (.mapped space.pid space.supplement.nextMapping mapping.page mapping.pages)) := by
  rw [addMapping, run_bind (run_supplement hspace), Supplement.addMapping, if_pos hnumber]
  exact run_bind (run_space (space_withTable hspace _)) _

/-! ### All of a file -/

/-- The range is fine, and it remains to list the mapping once all pages have their entries. -/
theorem run_addFilePages_registered (hspace : machine.spaces[s]? = some space)
    (hadmits : space.Admits length page) :
    ∃ table, (Kernel.addFilePages s f length page : Transition _) machine =
        (addMapping s { file := f, page, pages := pageCount length } >>= fun id => pure (.ok id))
          (machine.withTable s table) ∧
      Supplement.Gains page (mappedSegment f length) (pageCount length) space.supplement table ∧
      table.OnlyEntries space.supplement := by
  obtain ⟨-, hlive, hfree, hunmapped⟩ := hadmits
  obtain ⟨outcome, hchecked, hfine⟩ := run_upToFailure (run_requireUnused hspace)
    (pageRange page (pageCount length))
  obtain rfl : outcome = .ok () := hfine.mpr fun p hp => by
    obtain ⟨i, hi, rfl⟩ := mem_pageRange.mp hp
    exact ⟨hfree i hi, hunmapped i hi⟩
  rw [AddressSpace.isDestroyed] at hlive
  have hnew : Supplement.Gains page (mappedSegment f length) 0 space.supplement space.supplement :=
    .refl _ _ _
  obtain ⟨table, hregistered, hgains, honly⟩ :=
    gains_registerMapped hspace hlive hfree _ 0 _ (Nat.zero_add _) hnew ⟨rfl, rfl, rfl⟩
  rw [withTable_self hspace] at hregistered
  refine ⟨table, ?_, hgains, honly⟩
  rw [Kernel.addFilePages, lift_eq, run_bind (run_supplement hspace),
    if_neg (Bool.eq_false_iff.mp hlive), run_bind hchecked]
  exact run_bind hregistered _

/-- The range is fine, and all of the file is mapped. -/
theorem run_addFilePages (hspace : machine.spaces[s]? = some space)
    (hnumber : space.supplement.nextMapping < maxMappingId) (hadmits : space.Admits length page) :
    ∃ table, (Kernel.addFilePages s f length page : Transition _) machine =
        .ok (.ok space.supplement.nextMapping) ((machine.withTable s table).saying
          (.mapped space.pid space.supplement.nextMapping page (pageCount length))) ∧
      space.supplement.Maps f length page space.supplement.nextMapping table := by
  obtain ⟨table, hrun, hgains, hmappings, hnext, hdestroyed⟩ :=
    run_addFilePages_registered (f := f) hspace hadmits
  have hadded := run_addMapping (space_withTable hspace table) (hnext.symm ▸ hnumber)
    { file := f, page, pages := pageCount length }
  rw [withTable_withTable] at hadded
  simp only [hmappings, hnext] at hadded
  refine ⟨{ table with
      mappings := space.supplement.mappings.insert space.supplement.nextMapping
        { file := f, page, pages := pageCount length }
      nextMapping := space.supplement.nextMapping + 1 }, ?_,
    ⟨⟨_, windows_mappedSegment f length, hgains.added, hgains.kept, hgains.size⟩, rfl, rfl,
      hdestroyed.trans hadmits.live⟩⟩
  rw [hrun]
  exact run_bind hadded _

/-- The range is not fine, and nothing happens. -/
theorem run_addFilePages_refused (hspace : machine.spaces[s]? = some space)
    (hmappable : IsMappable length page) (hnot : ¬ space.Admits length page) :
    ∃ cause, (Kernel.addFilePages s f length page : Transition _) machine =
      .ok (.error cause) machine := by
  rw [Kernel.addFilePages, lift_eq, run_bind (run_supplement hspace)]
  by_cases hlive : space.supplement.destroyed = true
  · rw [if_pos hlive]
    exact ⟨.destroyed, rfl⟩
  · rw [if_neg hlive]
    obtain ⟨outcome, hchecked, hfine⟩ := run_upToFailure (run_requireUnused hspace)
      (pageRange page (pageCount length))
    rw [run_bind hchecked]
    cases outcome with
    | error cause => exact ⟨cause, rfl⟩
    | ok u =>
      have hunknown : ∀ i, i < pageCount length → space.supplement.find? (page + i * pageSize) = none ∧
          space.directory.find? (page + i * pageSize) = none :=
        fun i hi => hfine.mp rfl _ (mem_pageRange.mpr ⟨i, hi, rfl⟩)
      exact absurd ⟨hmappable, Bool.eq_false_iff.mpr hlive, fun i hi => (hunknown i hi).1,
        fun i hi => (hunknown i hi).2⟩ hnot

/-- A number that is next was not answered before. -/
theorem unanswered_next (hspace : machine.spaces[s]? = some space) :
    machine.Unanswered s space.supplement.nextMapping := by
  intro start moments hfresh hchronicle moment hmem f page haction hreply
  obtain ⟨n, hn, hlt⟩ := hchronicle.lt_next hmem haction hreply
  rw [next?, standing?_eq hspace, Option.map_some, Option.some.injEq] at hn
  exact absurd (hn.symm ▸ hlt) (Nat.lt_irrefl _)

/-- If the space admits the file, all of it is mapped under a number that was never answered before. If not,
the file is refused and nothing has happened. -/
theorem mapFile_whole {file : MemoryFile} (hspace : machine.spaces[s]? = some space)
    (hfile : machine.files[f]? = some file) (hnumber : space.supplement.nextMapping < maxMappingId)
    (page : Nat) :
    (space.Admits file.size page → ∃ id table,
      (Kernel.mapFile s f page : Transition _) machine = .ok (.ok id)
        ((machine.withTable s table).saying (.mapped space.pid id page (pageCount file.size))) ∧
      space.supplement.Maps f file.size page id table ∧ machine.Unanswered s id) ∧
    (¬ space.Admits file.size page → ∃ cause,
      (Kernel.mapFile s f page : Transition _) machine = .ok (.error cause) machine) := by
  rw [Kernel.mapFile, lift_eq, run_bind (run_file hfile)]
  constructor
  · intro hadmits
    rw [if_neg (not_not.mpr hadmits.mappable), holding_eq, holding_eq]
    obtain ⟨table, hrun, hmaps⟩ := run_addFilePages (f := f) hspace hnumber hadmits
    exact ⟨_, table, hrun, hmaps, unanswered_next hspace⟩
  · intro hnot
    by_cases hmappable : IsMappable file.size page
    · rw [if_neg (not_not.mpr hmappable), holding_eq, holding_eq]
      exact run_addFilePages_refused hspace hmappable hnot
    · rw [if_pos hmappable]
      exact ⟨.invalidMapping, rfl⟩

/-- A file of two pages is mapped a second time: not where it is mapped already, but elsewhere. -/
theorem mapFile_whole_sample : ∃ moments machine space file id table cause,
    Run .sample moments machine ∧ machine.spaces[0]? = some space ∧ machine.files[0]? = some file ∧
      space.supplement.nextMapping < maxMappingId ∧ file.size = 5000 ∧
      (space.Admits file.size 0x20000 ∧
        (Kernel.mapFile 0 0 0x20000 : Transition _) machine = .ok (.ok id)
          ((machine.withTable 0 table).saying (.mapped space.pid id 0x20000 2)) ∧
        space.supplement.Maps 0 5000 0x20000 id table ∧
        ∀ moment ∈ moments, ∀ f page, moment.action = .call (.mapFile 0 f page) →
          moment.reply ≠ .mapping id) ∧
      (¬ space.Admits file.size 0x10000 ∧
        (Kernel.mapFile 0 0 0x10000 : Transition _) machine = .ok (.error cause) machine) := by
  obtain ⟨moments, machine, h, -, hfacts⟩ := @exists_run .sample
    [.addSpace 1, .addFile (.ofBytes (Array.replicate 5000 7)), .call (.mapFile 0 0 0x10000)]
    (fun r => r.2.spaces[0]?.any fun space : AddressSpace => r.2.files[0]?.any fun file : MemoryFile =>
      decide (space.supplement.nextMapping < maxMappingId ∧ file.size = 5000 ∧
        space.Admits 5000 0x20000 ∧ ¬ space.Admits 5000 0x10000)) (by decide +kernel)
  obtain ⟨space, hspace, hfacts⟩ := (Option.any_eq_true ..).mp hfacts
  obtain ⟨file, hfile, hfacts⟩ := (Option.any_eq_true ..).mp hfacts
  obtain ⟨hnumber, hsize, hadmits, hnot⟩ := of_decide_eq_true hfacts
  obtain ⟨id, table, hrun, hmaps, hunanswered⟩ :=
    (mapFile_whole hspace hfile hnumber 0x20000).1 (hsize.symm ▸ hadmits)
  obtain ⟨cause, hrefused⟩ := (mapFile_whole hspace hfile hnumber 0x10000).2 (hsize.symm ▸ hnot)
  rw [hsize] at hrun hmaps
  exact ⟨moments, machine, space, file, id, table, cause, h, hspace, hfile, hnumber, hsize,
    ⟨hsize.symm ▸ hadmits, hrun, hmaps,
      hunanswered .sample moments fresh_sample (h.chronicle False)⟩, hsize.symm ▸ hnot, hrefused⟩

end Transition

end DemandPaging
