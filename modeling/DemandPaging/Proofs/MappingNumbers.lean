import DemandPaging.Proofs.DestroyedSpaces
import DemandPaging.Proofs.Durability
import DemandPaging.Proofs.MappedFiles

/-!
# Numbers of mappings

The mappings of a space are numbered in the order in which they were made, from zero on, whatever else
happens to the space (`Run.mappingNumbers_eq`). So no number is given out twice, but a number that was given
out is never free again either: a file that the space admits is mapped under the number of the mappings
before it, and when all numbers have been given out the system halts over it (`Run.mapFile_numbered`).

It takes no more than one page to get there. To map a file and to unmap it leaves everything as it was but the
next number (`Run.exists_round`), so whoever maps and unmaps often enough halts the system
(`Run.exists_exhausted`).
-/

set_option autoImplicit false

namespace DemandPaging

open Spaces Machine

/-- The number that was answered at this moment for a mapping of the space, if one was made. -/
def Moment.number? (s : SpaceId) (moment : Moment) : Option Nat :=
  match moment.action, moment.reply with
  | .call (.mapFile s' _ _), .mapping id => if s' = s then some id else none
  | _, _ => none

/-- The numbers that were answered for mappings of a space, oldest first. -/
def mappingNumbers (s : SpaceId) (moments : List Moment) : List Nat := moments.filterMap (·.number? s)

/-- A file is mapped into the space, or a mapping of the space is removed. -/
def Action.MapsOrUnmaps (s : SpaceId) : Action → Prop
  | .call (.mapFile s' _ _) | .call (.unmapFile s' _) => s' = s
  | _ => False

/-- Space `s` admits the file `f` of `length` bytes at `page`, and the mapping will get the number `n`. No
window reaches beyond the end of the file, so whatever is written back leaves it as long as it is. -/
structure Machine.Offers (s : SpaceId) (f : FileId) (page length n : Nat) (machine : Machine) : Prop where
  file : ∃ file, machine.files[f]? = some file ∧ file.size = length
  standing : ∃ standing, standing? machine.spaces s = some standing ∧ standing.destroyed = false ∧
    standing.nextMapping = n
  mappable : IsMappable length page
  unknown : ∀ i, i < pageCount length → ¬ machine.Known s (page + i * pageSize)
  within : ∀ s' p segment, segment? machine.spaces s' p = some segment → segment.file = f →
    segment.offset + segment.readBytes ≤ length

section

variable {start machine after : Machine} {moments : List Moment} {s : SpaceId} {f : FileId}
  {page length n : Nat}

/-! ### Numbers in order -/

/-- A number that was answered was the next one. -/
theorem number?_eq_some {moment : Moment} {id : Nat}
    (hstep : moment.action.step moment.before = .ok moment.reply moment.after)
    (hnumber : moment.number? s = some id) :
    next? moment.before.spaces s = some id ∧ next? moment.after.spaces s = some (id + 1) := by
  unfold Moment.number? at hnumber
  split at hnumber
  · rename_i s' f page id' haction hreply
    split at hnumber
    · subst s'
      cases hnumber
      rw [haction] at hstep
      obtain ⟨file, -, hmaps⟩ := maps_of_step hstep hreply
      obtain ⟨standing, hbefore, -, hid, -, hafter⟩ := hmaps.standing
      rw [next?, next?, hbefore, hafter]
      exact ⟨congrArg some hid, rfl⟩
    · cases hnumber
  · cases hnumber

/-- Where no number is answered, the next one stays what it was. A space that was not there yet has made no
mapping, and neither has one that is new. -/
theorem Moves.next?_eq {moment : Moment}
    (h : Moves moment.action moment.reply moment.before moment.after) (hnumber : moment.number? s = none) :
    (next? moment.after.spaces s).getD 0 = (next? moment.before.spaces s).getD 0 := by
  cases h with
  | paged _ _ _ _ hadvance => rw [next?_congr (hadvance.standing s)]
  | registered _ _ _ _ _ hstanding => rw [next?_congr (hstanding s)]
  | mapped s' f page id file haction hreply _ hmaps =>
    have hne : s ≠ s' := by
      rintro rfl
      simp [Moment.number?, haction, hreply] at hnumber
    rw [next?_congr (hmaps.others s hne)]
  | unmapped s' id mapping _ hunmaps _ => rw [hunmaps.next?]
  | destroyed s' _ hdestroys => rw [hdestroys.next?]
  | refused _ _ _ heq => rw [heq]
  | outside _ houtside =>
    rcases houtside.standing s with hsame | ⟨hnone, pid, hnew⟩
    · rw [next?_congr hsame]
    · rw [next?, next?, hnone, hnew]
      rfl

/-- The numbers that were answered for a space are all up to the next one, in order. -/
theorem Run.mappingNumbers_eq (hfresh : start.Fresh) (h : Run start moments machine) (s : SpaceId) :
    mappingNumbers s moments = List.range ((next? machine.spaces s).getD 0) := by
  induction h with
  | nil =>
    rw [next?, hfresh.standing?]
    rfl
  | @snoc moments before after action reply hrun hpermitted hstep ih =>
    have hmoves := ((hrun.snoc hpermitted hstep).moves hfresh.orderly).2.2
    rw [mappingNumbers, List.filterMap_append]
    change mappingNumbers s moments ++ _ = _
    rw [ih]
    cases hnumber : Moment.number? s ⟨action, reply, before, after⟩ with
    | none =>
      rw [List.filterMap_cons_none hnumber, List.filterMap_nil, List.append_nil]
      rw [← hmoves.next?_eq hnumber]
    | some id =>
      obtain ⟨hbefore, hafter⟩ := number?_eq_some hstep hnumber
      rw [List.filterMap_cons_some hnumber, List.filterMap_nil]
      dsimp only at hbefore hafter
      rw [hbefore, hafter, Option.getD_some, Option.getD_some, List.range_succ]

/-! ### The next number -/

namespace Transition

variable {space : AddressSpace} {file : MemoryFile}

/-- A file that the space admits is mapped under the next number. -/
theorem run_mapFile (hspace : machine.spaces[s]? = some space) (hfile : machine.files[f]? = some file)
    (hadmits : space.Admits file.size page) (hnumber : space.supplement.nextMapping < maxMappingId) :
    ∃ after, (Kernel.mapFile s f page : Transition _) machine =
      .ok (.ok space.supplement.nextMapping) after := by
  obtain ⟨table, hrun, -⟩ := run_addFilePages (f := f) hspace hnumber hadmits
  rw [Kernel.mapFile, lift_eq, run_bind (run_file hfile), if_neg (not_not.mpr hadmits.mappable),
    holding_eq, holding_eq]
  exact ⟨_, hrun⟩

/-- If there is no next number, the system halts. By then the pages have their entries. -/
theorem run_mapFile_exhausted (hspace : machine.spaces[s]? = some space)
    (hfile : machine.files[f]? = some file) (hadmits : space.Admits file.size page)
    (hnumber : maxMappingId ≤ space.supplement.nextMapping) :
    ∃ after, (Kernel.mapFile s f page : Transition _) machine = .error .overflow after := by
  obtain ⟨table, hrun, -, -, hnext, -⟩ := run_addFilePages_registered (f := f) hspace hadmits
  have hfull : ¬ table.nextMapping < maxMappingId := Nat.not_lt.mpr (hnext.symm ▸ hnumber)
  have hhalts : addMapping s { file := f, page, pages := pageCount file.size }
      (machine.withTable s table) = .error .overflow (machine.withTable s table) := by
    rw [addMapping, run_bind (run_supplement (space_withTable hspace table)), Supplement.addMapping,
      if_neg hfull]
    rfl
  rw [Kernel.mapFile, lift_eq, run_bind (run_file hfile), if_neg (not_not.mpr hadmits.mappable),
    holding_eq, holding_eq, hrun]
  exact ⟨_, run_bind_error hhalts _⟩

end Transition

/-- The numbers that a space gave out are distinct, and a file that it admits is mapped under the number of
mappings before it, for as long as there are numbers. When all have been given out, the system halts. -/
theorem Run.mapFile_numbered (hfresh : start.Fresh) (h : Run start moments machine) {space : AddressSpace}
    (hspace : machine.spaces[s]? = some space) :
    mappingNumbers s moments = List.range (mappingNumbers s moments).length ∧
    (mappingNumbers s moments).Nodup ∧
    ∀ f file page, machine.files[f]? = some file → space.Admits file.size page →
      ((mappingNumbers s moments).length < maxMappingId → ∃ after,
        (Kernel.mapFile s f page : Transition _) machine =
          .ok (.ok (mappingNumbers s moments).length) after) ∧
      (maxMappingId ≤ (mappingNumbers s moments).length → ∃ after,
        (Kernel.mapFile s f page : Transition _) machine = .error .overflow after) := by
  have hnumbers := h.mappingNumbers_eq hfresh s
  rw [next?, standing?_eq hspace, Option.map_some, Option.getD_some] at hnumbers
  change mappingNumbers s moments = List.range space.supplement.nextMapping at hnumbers
  rw [hnumbers, List.length_range]
  exact ⟨rfl, List.nodup_range, fun f file page hfile hadmits =>
    ⟨Transition.run_mapFile hspace hfile hadmits, Transition.run_mapFile_exhausted hspace hfile hadmits⟩⟩

/-- A file is mapped, unmapped and mapped again: the numbers are 0 and 1, and the next mapping gets 2. -/
theorem Run.mapFile_numbered_sample : ∃ moments machine space file, Run .sample moments machine ∧
    machine.spaces[0]? = some space ∧ machine.files[0]? = some file ∧
    mappingNumbers 0 moments = [0, 1] ∧ space.Admits file.size 0x20000 ∧
    ∃ after, (Kernel.mapFile 0 0 0x20000 : Transition _) machine = .ok (.ok 2) after := by
  obtain ⟨moments, machine, h, -, hfacts⟩ := @exists_run .sample
    [.addSpace 1, .addFile (.ofBytes #[7]), .call (.mapFile 0 0 0x10000), .call (.unmapFile 0 0),
      .call (.mapFile 0 0 0x10000)]
    (fun r => decide (mappingNumbers 0 r.1 = [0, 1]) &&
      r.2.spaces[0]?.any fun space : AddressSpace => r.2.files[0]?.any fun file : MemoryFile =>
        decide (space.Admits file.size 0x20000)) (by decide +kernel)
  obtain ⟨hnumbers, hfacts⟩ := (Bool.and_eq_true _ _).mp hfacts
  obtain ⟨space, hspace, hfacts⟩ := (Option.any_eq_true ..).mp hfacts
  obtain ⟨file, hfile, hfacts⟩ := (Option.any_eq_true ..).mp hfacts
  have hnumbers := of_decide_eq_true hnumbers
  have hadmits := of_decide_eq_true hfacts
  obtain ⟨-, -, hnext⟩ := Run.mapFile_numbered Machine.fresh_sample h hspace
  have hmapped := (hnext 0 file 0x20000 hfile hadmits).1
  rw [hnumbers] at hmapped
  exact ⟨moments, machine, space, file, h, hspace, hfile, hnumbers, hadmits, hmapped (by decide)⟩

/-! ### All numbers -/

namespace Machine.Offers

/-- A space that is new and has nobody beside it can take any file. -/
theorem of_new {pid : Nat} {file : MemoryFile} (hspaces : machine.spaces = #[.ofPid pid])
    (hfile : machine.files[f]? = some file) (hmappable : IsMappable file.size page) :
    machine.Offers 0 f page file.size 0 := by
  have hinfo : ∀ s p, info? machine.spaces s p = none := by
    intro s p
    rw [hspaces]
    cases s <;> rfl
  refine ⟨⟨file, hfile, rfl⟩, ⟨(AddressSpace.ofPid pid).standing, ?_, rfl, rfl⟩, hmappable, fun i _ => ?_,
    fun s p segment hsegment => ?_⟩
  · rw [standing?, hspaces]
    rfl
  · rw [Known, hinfo, mapped?, hspaces]
    rintro (hmapped | hsome)
    · cases hmapped
    · cases hsome
  · rw [segment?, hinfo] at hsegment
    cases hsegment

/-- What is offered is admitted. -/
theorem admits (h : machine.Offers s f page length n) : ∃ space file, machine.spaces[s]? = some space ∧
    machine.files[f]? = some file ∧ space.Admits file.size page ∧ space.supplement.nextMapping = n := by
  obtain ⟨standing, hstanding, hlive, hnext⟩ := h.standing
  obtain ⟨space, hspace, rfl⟩ := Option.map_eq_some_iff.mp hstanding
  obtain ⟨file, hfile, hsize⟩ := h.file
  refine ⟨space, file, hspace, hfile, ⟨hsize.symm ▸ h.mappable, hlive, fun i hi => ?_, fun i hi => ?_⟩, hnext⟩
  · have hunknown := h.unknown i (hsize ▸ hi)
    rw [Known, info?_eq hspace] at hunknown
    exact Option.not_isSome_iff_eq_none.mp fun hsome => hunknown (.inr hsome)
  · have hunknown := h.unknown i (hsize ▸ hi)
    rw [Known, mapped?_eq hspace] at hunknown
    exact Option.not_isSome_iff_eq_none.mp fun hsome => hunknown (.inl hsome)

/-- A file that was mapped and unmapped is offered as before, but for the number. -/
theorem round {mapped : Machine} (h : machine.Offers s f page length n)
    (hmaps : Maps s f page length n machine mapped)
    (hunmaps : Unmaps s n { file := f, page, pages := pageCount length } mapped after) :
    after.Offers s f page length (n + 1) := by
  obtain ⟨writes, -, hforgets⟩ := hunmaps.forgets
  -- the windows of the mapping end with the file, so no window did reach beyond its end meanwhile
  have hwithin : ∀ s' p segment, segment? mapped.spaces s' p = some segment → segment.file = f →
      segment.offset + segment.readBytes ≤ length := by
    intro s' p segment hsegment hf
    rcases hmaps.adds.segment_cases hsegment with hold | ⟨-, -, hwindow⟩
    · exact h.within s' p segment hold hf
    · obtain ⟨i, hi, -, rfl⟩ := pageWindow_eq_some.mp hwindow
      exact mappedSegment_le hi
  refine ⟨?_, ?_, h.mappable, fun i hi hknown => ?_, fun s' p segment hsegment hf => ?_⟩
  · obtain ⟨file, hfile, hsize⟩ := h.file
    rw [← hmaps.adds.files] at hfile
    obtain ⟨file', hfile', -, -, hsize'⟩ := hforgets.files.file f file hfile
    refine ⟨file', hfile', ?_⟩
    rcases hsize' with hsame | ⟨s', p, segment, hsegment, -, hf, hlt⟩
    · exact hsame.trans hsize
    · have hend := hwithin s' p segment hsegment hf
      omega
  · obtain ⟨standing, -, hlive, -, -, hafter⟩ := hmaps.standing
    exact ⟨_, hunmaps.standing _ hafter, hlive, rfl⟩
  · exact hforgets.not_known (isAligned_page h.mappable.2.2.1 i)
      ⟨rfl, mem_pageRange.mpr ⟨i, hi, rfl⟩⟩ hknown
  · exact hwithin s' p segment (hforgets.segment hsegment).2 hf

end Machine.Offers

/-- To map a file and to unmap it again uses up a number and changes nothing else that matters. -/
theorem Run.exists_round (hfresh : start.Fresh) (h : Run start moments machine)
    (hoffers : machine.Offers s f page length n) (hnumber : n < maxMappingId) :
    ∃ later after, Run start (moments ++ later) after ∧ (∀ moment ∈ later, moment.action.MapsOrUnmaps s) ∧
      after.Offers s f page length (n + 1) := by
  obtain ⟨space, file, hspace, hfile, hadmits, rfl⟩ := hoffers.admits
  obtain ⟨file', hfile', rfl⟩ := hoffers.file
  obtain rfl := Option.some.inj (hfile.symm.trans hfile')
  -- the file is mapped
  obtain ⟨mapped, hmap⟩ := Transition.run_mapFile hspace hfile hadmits hnumber
  have hfirst : (Action.call (.mapFile s f page)).step machine =
      .ok (.mapping space.supplement.nextMapping) mapped := Transition.run_bind hmap _
  have hpermitted : (Action.call (.mapFile s f page)).Permitted machine := trivial
  have hmapped := h.snoc hpermitted hfirst
  obtain ⟨file', hfile', hmaps⟩ := maps_of_step hfirst rfl
  obtain rfl := Option.some.inj (hfile.symm.trans hfile')
  -- it is unmapped again
  have hlisted : mapping? mapped.spaces s space.supplement.nextMapping =
      some { file := f, page, pages := pageCount file.size } := by
    rw [hmaps.mapping?, if_pos ⟨rfl, rfl⟩]
  have hturned : ∀ a b : Machine, a = b → Turned a b := fun a _ heq => heq ▸ turned_refl a
  obtain ⟨outcome, after, hunmap, -, hunmaps, -⟩ := Woven.finishes_removeMapping hturned
    (hmapped.orderly hfresh.orderly) hlisted _
    ((Woven.admission fun _ => rfl).removeMapping space.supplement.nextMapping mapped)
  have hsecond : (Action.call (.unmapFile s space.supplement.nextMapping)).step mapped =
      .ok (.ofVm outcome) after := Transition.run_bind hunmap _
  have hpermitted' : (Action.call (.unmapFile s space.supplement.nextMapping)).Permitted mapped := trivial
  have hunmapped := hmapped.snoc hpermitted' hsecond
  rw [List.append_assoc] at hunmapped
  refine ⟨_, after, hunmapped, fun moment hmem => ?_, hoffers.round hmaps hunmaps⟩
  rcases List.mem_append.mp hmem with hmem | hmem
  · rw [List.mem_singleton.mp hmem]
    rfl
  · rw [List.mem_singleton.mp hmem]
    rfl

/-- A space that admits a file can be made to give out numbers, one after another. -/
theorem Run.exists_rounds (hfresh : start.Fresh) (h : Run start moments machine)
    (hoffers : machine.Offers s f page length n) (rounds : Nat) (hnumber : n + rounds ≤ maxMappingId) :
    ∃ later after, Run start (moments ++ later) after ∧ (∀ moment ∈ later, moment.action.MapsOrUnmaps s) ∧
      after.Offers s f page length (n + rounds) := by
  induction rounds with
  | zero =>
    refine ⟨[], machine, ?_, fun moment hmem => absurd hmem List.not_mem_nil, hoffers⟩
    rw [List.append_nil]
    exact h
  | succ rounds ih =>
    obtain ⟨earlier, before, hrun, hearlier, hbefore⟩ := ih (by omega)
    obtain ⟨later, after, hrun', hlater, hafter⟩ := hrun.exists_round hfresh hbefore (by omega)
    rw [List.append_assoc] at hrun'
    refine ⟨earlier ++ later, after, hrun', fun moment hmem => ?_, hafter⟩
    exact (List.mem_append.mp hmem).elim (hearlier moment) (hlater moment)

/-- Whoever maps and unmaps a file often enough halts the system with a file that the space admits. -/
theorem Run.exists_exhausted (hfresh : start.Fresh) (h : Run start moments machine)
    (hoffers : machine.Offers s f page length n) :
    ∃ later before space file, Run start (moments ++ later) before ∧
      (∀ moment ∈ later, moment.action.MapsOrUnmaps s) ∧ before.spaces[s]? = some space ∧
      before.files[f]? = some file ∧ space.Admits file.size page ∧
      ∃ after, (Kernel.mapFile s f page : Transition _) before = .error .overflow after := by
  have hle : n ≤ maxMappingId := by
    obtain ⟨standing, hstanding, -, rfl⟩ := hoffers.standing
    exact ((h.orderly hfresh.orderly).mapped.numbered s standing hstanding).1
  obtain ⟨later, before, hrun, hlater, hbefore⟩ :=
    h.exists_rounds hfresh hoffers (maxMappingId - n) (by omega)
  obtain ⟨space, file, hspace, hfile, hadmits, hnext⟩ := hbefore.admits
  exact ⟨later, before, space, file, hrun, hlater, hspace, hfile, hadmits,
    Transition.run_mapFile_exhausted hspace hfile hadmits (by omega)⟩

/-- The sample machine with one process and a file of one byte. -/
def Machine.populated : Machine :=
  { Machine.sample with spaces := #[.ofPid 1], files := #[.ofBytes #[7]] }

/-- The populated machine comes about by two permitted actions. -/
theorem run_populated : ∃ moments, Run .sample moments .populated ∧
    moments.map (·.action) = [.addSpace 1, .addFile (.ofBytes #[7])] := by
  have hspace : (Action.addSpace 1).step .sample =
      .ok .done { Machine.sample with spaces := #[.ofPid 1] } := rfl
  have hfile : (Action.addFile (.ofBytes #[7])).step { Machine.sample with spaces := #[.ofPid 1] } =
      .ok .done .populated := rfl
  have hpermitted : (Action.addSpace 1).Permitted .sample := trivial
  have hpermitted' : (Action.addFile (.ofBytes #[7])).Permitted
      { Machine.sample with spaces := #[.ofPid 1] } := trivial
  exact ⟨_, (Run.nil.snoc hpermitted hspace).snoc hpermitted' hfile, rfl⟩

/-- A space into which a file of one byte is mapped and unmapped so often that there are no numbers left: it
admits the file once more, and the system halts. -/
theorem mapFile_exhausted_sample : ∃ moments later machine space file,
    Run .sample (moments ++ later) machine ∧ moments.map (·.action) = [.addSpace 1, .addFile (.ofBytes #[7])] ∧
    (∀ moment ∈ later, moment.action.MapsOrUnmaps 0) ∧ machine.spaces[0]? = some space ∧
    machine.files[0]? = some file ∧ space.Admits file.size 0x10000 ∧
    ∃ after, (Kernel.mapFile 0 0 0x10000 : Transition _) machine = .error .overflow after := by
  obtain ⟨moments, hrun, hactions⟩ := run_populated
  have hmappable : IsMappable (MemoryFile.ofBytes #[7]).size 0x10000 := by decide
  have hoffers : Machine.populated.Offers 0 0 0x10000 (MemoryFile.ofBytes #[7]).size 0 :=
    .of_new rfl rfl hmappable
  obtain ⟨later, machine, space, file, hrun', hlater, hexhausted⟩ :=
    hrun.exists_exhausted Machine.fresh_sample hoffers
  exact ⟨moments, later, machine, space, file, hrun', hactions, hlater, hexhausted⟩

end

end DemandPaging
