import DemandPaging.Proofs.WriteProtection

/-!
# Contents that last

What a page holds is more than what its frame has at the moment: it is what the page will be found to have
whenever it is moved out and comes back. Paging alone changes that only where a file has more than one use.
A page that was loaded from a file and not changed is dropped, and when it is loaded again it has what the
file has by then.

A file has one use at a time (`UsedOnce`) if it is mapped once and not registered besides, or not mapped at
all. If that was so all along, and nobody else wrote the file (`Undisputed`), then every page that is known
holds something at each place that is in the file (`Run.exists_holds`), and a call keeps it but for what it
stores (`Run.holds_last`).
-/

set_option autoImplicit false

namespace DemandPaging

open Spaces Machine

/-! ### Files with one use -/

/-- If the file is mapped, then it is mapped once, and no page has a private window of it. -/
def Spaces.UsedOnce (spaces : Array AddressSpace) (f : FileId) : Prop :=
  ∀ s id mapping, mapping? spaces s id = some mapping → mapping.file = f →
    (∀ s' id' mapping', mapping? spaces s' id' = some mapping' → mapping'.file = f → s' = s ∧ id' = id) ∧
    ∀ s' p segment, segment? spaces s' p = some segment → segment.file = f → segment.writeBack = true

/-- The file has one use and had one all along, and nobody wrote it but through a mapping. -/
structure Undisputed (moments : List Moment) (machine : Machine) (f : FileId) : Prop where
  now : UsedOnce machine.spaces f
  earlier : ∀ moment ∈ moments, UsedOnce moment.before.spaces f
  spared : ∀ moment ∈ moments, (∀ c, moment.action ≠ .call c) →
    Files.Spared moment.before.files moment.after.files f

/-- Paging alone does not change what is at place `k` of a page: the page has no window, or its file is
undisputed, and the place is in the file if the page is one of a mapping. -/
def Lasting (moments : List Moment) (machine : Machine) (s : SpaceId) (p k : Nat) : Prop :=
  ∀ segment, segment? machine.spaces s p = some segment → Undisputed moments machine segment.file ∧
    (segment.writeBack = true → k < segment.readBytes)

section

variable {spaces : Array AddressSpace} {f : FileId} {s : SpaceId} {p k : Nat} {segment : Segment}

/-- No two pages of a file with one use have the same byte of it. -/
theorem Spaces.UsedOnce.shielded (h : UsedOnce spaces f) (hm : Mapped spaces)
    (hsegment : segment? spaces s p = some segment) (hfile : segment.file = f)
    (hback : segment.writeBack = true) (hk : k < segment.readBytes) : Shielded [] spaces s p k := by
  obtain ⟨id, mapping, i, hmapping, hi, rfl⟩ := hm.owned s p segment hsegment hback
  obtain ⟨length, -, -, hwindows⟩ := hm.windows s id mapping hmapping
  obtain rfl : mappedSegment mapping.file length i = segment :=
    Option.some.inj ((hwindows i hi).symm.trans hsegment)
  intro segment hsame
  obtain rfl := Option.some.inj (hsegment.symm.trans hsame)
  rw [if_pos hback]
  refine ⟨hk, fun s' p' other hother hback' hcovers => ?_⟩
  obtain ⟨hwhose, hge, hlt⟩ := hcovers
  -- the other page is one of a mapping too, and there is only one
  obtain ⟨id', mapping', j, hmapping', hj, rfl⟩ := hm.owned s' p' other hother hback'
  have hfile' : mapping'.file = f := by
    obtain ⟨length', -, -, hwindows'⟩ := hm.windows s' id' mapping' hmapping'
    obtain rfl := Option.some.inj ((hwindows' j hj).symm.trans hother)
    exact hwhose.symm.trans hfile
  obtain ⟨rfl, rfl⟩ := (h s id mapping hmapping hfile).1 s' id' mapping' hmapping' hfile'
  obtain rfl := Option.some.inj (hmapping.symm.trans hmapping')
  obtain rfl : mappedSegment mapping.file length j = other :=
    Option.some.inj ((hwindows j hj).symm.trans hother)
  rw [eq_of_mappedSegment hk hge hlt]
  exact ⟨rfl, rfl⟩

/-- A file that a private page has a window of is not mapped. -/
theorem Spaces.UsedOnce.not_mapped (h : UsedOnce spaces f) (hm : Mapped spaces)
    (hsegment : segment? spaces s p = some segment) (hfile : segment.file = f)
    (hprivate : segment.writeBack = false) {s' : SpaceId} {p' : Nat} {other : Segment}
    (hother : segment? spaces s' p' = some other) (hback : other.writeBack = true) : other.file ≠ f := by
  intro heq
  obtain ⟨id, mapping, i, hmapping, hi, rfl⟩ := hm.owned s' p' other hother hback
  obtain ⟨length, -, -, hwindows⟩ := hm.windows s' id mapping hmapping
  obtain rfl : mappedSegment mapping.file length i = other :=
    Option.some.inj ((hwindows i hi).symm.trans hother)
  have hshared := (h s' id mapping hmapping heq).2 s p segment hsegment hfile
  rw [hprivate] at hshared
  cases hshared

end

/-! ### One more moment -/

section

variable {start machine : Machine} {moments : List Moment} {moment : Moment} {s : SpaceId} {p k : Nat}
  {b : UInt8}

/-- The file was undisputed before the last moment, and spared by it. -/
theorem Undisputed.last {f : FileId} (h : Undisputed (moments ++ [moment]) machine f) :
    Undisputed moments moment.before f ∧ ((∀ c, moment.action ≠ .call c) →
      Files.Spared moment.before.files moment.after.files f) := by
  have hmem : moment ∈ moments ++ [moment] := List.mem_append_right _ (List.mem_singleton.mpr rfl)
  exact ⟨⟨h.earlier moment hmem, fun m hm => h.earlier m (List.mem_append_left _ hm),
    fun m hm => h.spared m (List.mem_append_left _ hm)⟩, h.spared moment hmem⟩

/-- A file that is not mapped is not written but from outside. -/
theorem Run.spared (hfresh : start.Fresh) (h : Run start (moments ++ [moment]) machine) {f : FileId}
    (houtside : (∀ c, moment.action ≠ .call c) → Files.Spared moment.before.files moment.after.files f)
    (hnot : ∀ s' p' other, segment? moment.before.spaces s' p' = some other → other.writeBack = true →
      other.file ≠ f) : Files.Spared moment.before.files moment.after.files f := by
  by_cases hcall : ∃ c, moment.action = .call c
  · obtain ⟨c, haction⟩ := hcall
    obtain ⟨calls, hfiles, hdue⟩ := (h.savesChanged hfresh).written moments moment [] c rfl haction
    rw [hfiles]
    refine Files.spared_serveAll fun offset data hmem => ?_
    obtain ⟨s', p', other, -, hother, hback, -, hwhose, -⟩ := hdue _ hmem
    exact hnot s' p' other hother hback hwhose.symm
  · exact houtside (not_exists.mp hcall)

/-- What lasts is safe in its file, if nobody else writes that. -/
theorem Run.backed (hfresh : start.Fresh) (h : Run start (moments ++ [moment]) machine)
    (hlasting : Lasting moments moment.before s p k)
    (houtside : (∀ c, moment.action ≠ .call c) → ∀ segment,
      segment? moment.before.spaces s p = some segment →
        Files.Spared moment.before.files moment.after.files segment.file) :
    Backed moment.action moment.before moment.after s p k := by
  have hm : Mapped moment.before.spaces := (h.moves hfresh.orderly).1.mapped
  intro segment hsegment
  obtain ⟨hundisputed, hplace⟩ := hlasting segment hsegment
  by_cases hback : segment.writeBack = true
  · rw [if_pos hback]
    exact ⟨hundisputed.now.shielded hm hsegment rfl hback (hplace hback),
      fun hcall => houtside hcall segment hsegment⟩
  · rw [if_neg hback]
    refine h.spared hfresh (fun hcall => houtside hcall segment hsegment) fun s' p' other hother hback' => ?_
    exact hundisputed.now.not_mapped hm hsegment rfl (Bool.eq_false_iff.mpr hback) hother hback'

/-- What lasts is held after a call as before, but for what is stored. -/
theorem Run.holds_last (hfresh : start.Fresh) (h : Run start (moments ++ [moment]) machine) {c : Call}
    (haction : moment.action = .call c) (hp : IsAligned p) (hk : k < pageSize)
    (hafter : moment.after.Known s p) (hlasting : Lasting moments moment.before s p k)
    (hb : moment.before.Holds s p k b) :
    moment.after.Holds s p k ((moment.action.stored moment.before s (p + k)).getD b) := by
  obtain ⟨ho, -, hm⟩ := h.moves hfresh.orderly
  exact hm.holds ho hp hk hafter (h.backed hfresh hlasting fun hcall => absurd haction (hcall c)) hb

/-- Wherever it lasts, a page that is known holds something. -/
theorem Run.exists_holds (hfresh : start.Fresh) (h : Run start moments machine) (hp : IsAligned p)
    (hk : k < pageSize) (hknown : machine.Known s p) (hlasting : Lasting moments machine s p k) :
    ∃ b, machine.Holds s p k b := by
  induction h with
  | nil =>
    rw [Known, hfresh.mapped?, hfresh.info?] at hknown
    rcases hknown with hnone | hnone <;> cases hnone
  | @snoc moments before after action reply hrun hpermitted hstep ih =>
    have hall := hrun.snoc hpermitted hstep
    obtain ⟨ho, -, hm⟩ := hall.moves hfresh.orderly
    by_cases hbefore : before.Known s p
    · -- the page has had its window since it came
      have hsame := hm.segment hp hbefore hknown
      have hlast : Lasting moments before s p k := fun segment hsegment =>
        (hlasting segment (hsame.trans hsegment)).imp_left fun hundisputed => hundisputed.last.1
      obtain ⟨b, hb⟩ := ih hbefore hlast
      refine ⟨_, hm.holds ho hp hk hknown (hall.backed hfresh hlast fun hcall segment hsegment => ?_) hb⟩
      exact (hlasting segment (hsame.trans hsegment)).1.last.2 hcall
    · exact ⟨_, (hm.fresh hp hbefore hknown).2 k hk⟩

end

end DemandPaging
