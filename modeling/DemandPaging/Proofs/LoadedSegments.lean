import DemandPaging.Proofs.NewEntries
import DemandPaging.Proofs.Runs

/-!
# Segments of executables

To register a segment of `readBytes` bytes of a file and `zeroBytes` zeroes is to cut it into pages. Each
page has a window that fills it, and the windows one after the other are the segment (`Tiles`). Pages are
registered in order up to the first one that is refused, and `AddressSpace.Refuses` says which pages are
refused and why.

`registerSegment_cuts` says all of this of the counters that the registration moves along: what is left of
the zeroes never falls short of a page, and nothing else in the table changes.
-/

set_option autoImplicit false

namespace DemandPaging

open Machine

/-- What a window takes from a file with this content: bytes of the file, then zeroes. -/
def Segment.bytes (segment : Segment) (content : Bytes) : List UInt8 :=
  (content.window segment.offset segment.readBytes).toList ++ List.replicate segment.zeroBytes 0

/-- Why a page of a file cannot be registered. -/
inductive AddressSpace.Refuses (space : AddressSpace) (page : Nat) : VmError → Prop
  /-- It is the null page, or not the user's. -/
  | outside (h : page = 0 ∨ ¬ IsUser page) : Refuses space page .invalidMapping
  /-- The space was torn down. -/
  | destroyed (hplace : ¬ (page = 0 ∨ ¬ IsUser page)) (h : space.isDestroyed = true) :
      Refuses space page .destroyed
  /-- It has an entry. -/
  | taken (hplace : ¬ (page = 0 ∨ ¬ IsUser page)) (hlive : space.isDestroyed = false)
      (h : (space.supplement.find? page).isSome = true) : Refuses space page .alreadyRegistered

/-- The windows fill one page each, and one after the other they are `readBytes` bytes of the file from
`offset` on and then `zeroBytes` zeroes. -/
structure Tiles (f : FileId) (offset readBytes zeroBytes : Nat) (writable : Bool) (pages : Nat)
    (segment : Nat → Segment) : Prop where
  source : ∀ i, (segment i).file = f ∧ (segment i).writable = writable ∧ (segment i).writeBack = false
  fills : ∀ i, (segment i).readBytes + (segment i).zeroBytes = pageSize
  bytes : ∀ content : Bytes, (List.range pages).flatMap (fun i => (segment i).bytes content) =
    (content.window offset readBytes).toList ++ List.replicate zeroBytes 0

/-- What registering a segment of so many pages answers, and the table that it leaves. -/
structure Loads (space : AddressSpace) (page pages : Nat) (segment : Nat → Segment)
    (outcome : Except VmError Unit) (table : Supplement) : Prop where
  /-- The pages before the first one that is refused are registered, and nothing else changes. -/
  registered : ∃ count, count ≤ pages ∧
    (∀ i, i < count → ∀ cause, ¬ space.Refuses (page + i * pageSize) cause) ∧
    Supplement.Gains page segment count space.supplement table ∧
    ((count = pages ∧ outcome = .ok ()) ∨
      (count < pages ∧ ∃ cause, space.Refuses (page + count * pageSize) cause ∧ outcome = .error cause))
  /-- Only entries change. -/
  rest : table.OnlyEntries space.supplement

/-! ### Windows -/

/-- The bytes of a window are those of a piece of the list. -/
theorem toList_window (content : Bytes) (start n : Nat) :
    (content.window start n).toList = (content.toList.drop start).take n := by
  simp [Bytes.window]

/-- The first `r` bytes of a list, filled up with zeroes to `m` and then to `n` more. -/
theorem take_fill_append (l : List UInt8) (r m n : Nat) :
    l.take (min r m) ++ List.replicate (m - min r m) 0 ++
        ((l.drop (min r m)).take (min (r - min r m) n) ++
          List.replicate (n - min (r - min r m) n) 0) =
      l.take (min r (m + n)) ++ List.replicate (m + n - min r (m + n)) 0 := by
  by_cases hr : r ≤ m
  · -- the list ended before: only zeroes are added
    have hmin : min r m = r := Nat.min_eq_left hr
    have hmin' : min r (m + n) = r := Nat.min_eq_left (by omega)
    have hsub : m + n - r = m - r + n := by omega
    rw [hmin, hmin', Nat.sub_self, Nat.zero_min, List.take_zero, List.nil_append, Nat.sub_zero,
      List.append_assoc, List.replicate_append_replicate, hsub]
  · -- no zeroes yet: what follows in the list follows
    have hmin : min r m = m := Nat.min_eq_right (by omega)
    have hmin' : min r (m + n) = m + min (r - m) n := by omega
    have hsub : m + n - (m + min (r - m) n) = n - min (r - m) n := by omega
    rw [hmin, hmin', Nat.sub_self, List.replicate_zero, List.append_nil, List.take_add,
      List.append_assoc, hsub]

/-- The windows of the first pages of a segment, one after the other. -/
theorem flatMap_segmentPage (f : FileId) (offset readBytes : Nat) (writable : Bool) (content : Bytes)
    (pages : Nat) :
    (List.range pages).flatMap (fun i => (segmentPage f offset readBytes writable i).bytes content) =
      (content.window offset (min readBytes (pages * pageSize))).toList ++
        List.replicate (pages * pageSize - min readBytes (pages * pageSize)) 0 := by
  induction pages with
  | zero => simp [Bytes.window]
  | succ pages ih =>
    rw [List.range_succ, List.flatMap_append, ih]
    simp only [List.flatMap_cons, List.flatMap_nil, List.append_nil, Segment.bytes, segmentPage,
      toList_window]
    rw [← List.drop_drop, take_fill_append, Nat.succ_mul]

/-- The windows of the pages of a segment are its tiles. -/
theorem tiles_segmentPage {f : FileId} {offset readBytes zeroBytes : Nat} {writable : Bool}
    (hwhole : (readBytes + zeroBytes) % pageSize = 0) :
    Tiles f offset readBytes zeroBytes writable ((readBytes + zeroBytes) / pageSize)
      (segmentPage f offset readBytes writable) where
  source _ := ⟨rfl, rfl, rfl⟩
  fills i := by
    simp only [segmentPage]
    omega
  bytes content := by
    have hpages : (readBytes + zeroBytes) / pageSize * pageSize = readBytes + zeroBytes := by
      have := Nat.div_add_mod (readBytes + zeroBytes) pageSize
      rw [Nat.mul_comm]
      omega
    rw [flatMap_segmentPage, hpages, Nat.min_eq_left (Nat.le_add_right ..), Nat.add_sub_cancel_left]

/-! ### Pages one by one -/

/-- A page that has not got its entry yet is refused as before. -/
theorem Supplement.Gains.refuses_iff {space : AddressSpace} {page count : Nat} {segment : Nat → Segment}
    {table : Supplement} (h : Gains page segment count space.supplement table)
    (hrest : table.OnlyEntries space.supplement) (cause : VmError) :
    { space with supplement := table }.Refuses (page + count * pageSize) cause ↔
      space.Refuses (page + count * pageSize) cause := by
  have hfind := h.find?_next (Nat.le_refl count)
  have hdestroyed : table.destroyed = space.supplement.destroyed := hrest.2.2
  constructor
  · intro hrefuses
    cases hrefuses with
    | outside h => exact .outside h
    | destroyed hplace h => exact .destroyed hplace (hdestroyed.symm.trans h)
    | taken hplace hlive h => exact .taken hplace (hdestroyed.symm.trans hlive) (hfind ▸ h)
  · intro hrefuses
    cases hrefuses with
    | outside h => exact .outside h
    | destroyed hplace h => exact .destroyed hplace (hdestroyed.trans h)
    | taken hplace hlive h => exact .taken hplace (hdestroyed.trans hlive) (hfind.symm ▸ h)

namespace Transition

variable {machine : Machine} {s : SpaceId} {space : AddressSpace}

section Page

variable {f : FileId} {offset page readBytes zeroBytes : Nat} {writable : Bool}

/-- A page that is refused is not registered. -/
theorem run_registerPage_refused {cause : VmError} (hspace : machine.spaces[s]? = some space)
    (hpage : IsAligned page) (hsum : readBytes + zeroBytes = pageSize) (h : space.Refuses page cause) :
    registerPage s f offset page readBytes zeroBytes writable machine = .ok (.error cause) machine := by
  rw [registerPage, if_neg (not_not.mpr hpage), if_neg (not_not.mpr hsum)]
  cases h with
  | outside h =>
    rw [if_pos h]
    rfl
  | destroyed hplace h =>
    rw [if_neg hplace, run_bind (run_supplement hspace), Supplement.insert_eq]
    simp only [AddressSpace.isDestroyed] at h
    simp only [h, ↓reduceIte]
    rfl
  | taken hplace hlive h =>
    rw [if_neg hplace, run_bind (run_supplement hspace), Supplement.insert_eq]
    simp only [AddressSpace.isDestroyed] at hlive
    simp only [PageInfo.fileBacked, hlive, h, Bool.false_eq_true, ↓reduceIte]
    rfl

/-- A page that is not refused gets an entry. -/
theorem run_registerPage_ok (hspace : machine.spaces[s]? = some space)
    (hpage : IsAligned page) (hsum : readBytes + zeroBytes = pageSize)
    (h : ∀ cause, ¬ space.Refuses page cause) :
    space.supplement.find? page = none ∧
    registerPage s f offset page readBytes zeroBytes writable machine =
      .ok (.ok ()) (machine.withTable s { space.supplement with
        entries := space.supplement.entries.insert page (.fileBacked page
          { file := f, offset, readBytes, zeroBytes, writable, writeBack := false }) }) := by
  have hplace : ¬ (page = 0 ∨ ¬ IsUser page) := fun hplace => h _ (.outside hplace)
  have hlive : space.supplement.destroyed = false :=
    Bool.eq_false_iff.mpr fun hdestroyed => h _ (.destroyed hplace hdestroyed)
  have hfree : space.supplement.find? page = none :=
    Option.not_isSome_iff_eq_none.mp fun htaken => h _ (.taken hplace hlive htaken)
  refine ⟨hfree, ?_⟩
  rw [registerPage, if_neg (not_not.mpr hpage), if_neg (not_not.mpr hsum), if_neg hplace,
    run_bind (run_supplement hspace), Supplement.insert_eq]
  simp only [PageInfo.fileBacked, hlive, hfree, Option.isSome_none, Bool.false_eq_true, ↓reduceIte]
  rfl

end Page

variable {f : FileId} {offset page readBytes zeroBytes total : Nat} {writable : Bool}

/-- The pages from the `i`-th on are registered, up to the first that is refused. -/
theorem loads_registerFrom (hspace : machine.spaces[s]? = some space) (hpage : IsAligned page)
    (hoffset : offset + readBytes < wordLimit) (pages : Nat) :
    ∀ (i : Nat) (table : Supplement), i + pages = total →
    Supplement.Gains page (segmentPage f offset readBytes writable) i space.supplement table →
    table.OnlyEntries space.supplement →
    (∀ j, j < i → ∀ cause, ¬ space.Refuses (page + j * pageSize) cause) →
    ∃ outcome table', registerFrom s f offset page readBytes writable pages i (machine.withTable s table) =
        .ok outcome (machine.withTable s table') ∧
      Loads space page total (segmentPage f offset readBytes writable) outcome table' := by
  induction pages with
  | zero =>
    intro i table htotal hgains hrest haccepted
    rw [Nat.add_zero] at htotal
    subst htotal
    exact ⟨.ok (), table, rfl, ⟨i, Nat.le_refl i, haccepted, hgains, .inl ⟨rfl, rfl⟩⟩, hrest⟩
  | succ pages ih =>
    intro i table htotal hgains hrest haccepted
    have hspace' := space_withTable hspace table
    have hpage' := isAligned_page hpage i
    have hsum : (segmentPage f offset readBytes writable i).readBytes +
        (segmentPage f offset readBytes writable i).zeroBytes = pageSize := by
      simp only [segmentPage]
      omega
    have hrefuses := hgains.refuses_iff hrest
    simp only [registerFrom]
    by_cases hrefused : ∃ cause, space.Refuses (page + i * pageSize) cause
    · obtain ⟨cause, hcause⟩ := hrefused
      refine ⟨.error cause, table, ?_, ⟨i, by omega, haccepted, hgains, .inr ⟨by omega, cause, hcause, rfl⟩⟩,
        hrest⟩
      exact run_bind (run_registerPage_refused hspace' hpage' hsum ((hrefuses cause).mpr hcause)) _
    · have hno : ∀ cause, ¬ space.Refuses (page + i * pageSize) cause :=
        fun cause h => hrefused ⟨cause, h⟩
      obtain ⟨hfree, hrun⟩ := run_registerPage_ok hspace' hpage' hsum fun cause h =>
        hno cause ((hrefuses cause).mp h)
      have hgains' := hgains.insert ((hgains.find?_next (Nat.le_refl i)).symm.trans hfree)
      obtain ⟨outcome, table', hrest', hloads⟩ := ih (i + 1) _ (by omega) hgains' hrest fun j hj =>
        (Nat.lt_succ_iff_lt_or_eq.mp hj).elim (haccepted j) fun heq => heq ▸ hno
      refine ⟨outcome, table', ?_, hloads⟩
      have hword : offset + min readBytes (i * pageSize) +
          min (readBytes - min readBytes (i * pageSize)) pageSize < wordLimit := by
        omega
      refine (run_bind hrun _).trans ?_
      rw [withTable_withTable]
      simp only [hword, ↓reduceIte]
      exact hrest'

/-- A segment of whole pages that ends below the end of the file offsets is cut into pages. If its counts
have a sum, it is registered up to the first page that is refused; if not, nothing happens at all. -/
theorem registerSegment_cuts (hspace : machine.spaces[s]? = some space) (hpage : IsAligned page)
    (hwhole : (readBytes + zeroBytes) % pageSize = 0) (hoffset : offset + readBytes < wordLimit) :
    if readBytes + zeroBytes < wordLimit then
      ∃ outcome table segment,
        registerSegment s f offset page readBytes zeroBytes writable machine =
          .ok outcome (machine.withTable s table) ∧
        Tiles f offset readBytes zeroBytes writable ((readBytes + zeroBytes) / pageSize) segment ∧
        Loads space page ((readBytes + zeroBytes) / pageSize) segment outcome table
    else
      registerSegment s f offset page readBytes zeroBytes writable machine = .error .overflow machine := by
  rw [registerSegment_eq]
  split
  case isFalse hsum =>
    rw [if_pos (Nat.le_of_not_lt hsum)]
    rfl
  case isTrue hsum =>
    rw [if_neg (Nat.not_le_of_lt hsum), if_neg (not_not.mpr hwhole)]
    have hgains : Supplement.Gains page (segmentPage f offset readBytes writable) 0 space.supplement
        space.supplement := .refl _ _ _
    obtain ⟨outcome, table, hrun, hloads⟩ := loads_registerFrom hspace hpage hoffset _ 0 _
      (Nat.zero_add _) hgains ⟨rfl, rfl, rfl⟩ fun j hj => absurd hj (Nat.not_lt_zero j)
    rw [withTable_self hspace] at hrun
    exact ⟨outcome, table, _, hrun, tiles_segmentPage hwhole, hloads⟩

/-- A segment of two pages, of which the second one has 1904 bytes of the file and 2192 zeroes. -/
theorem registerSegment_cuts_sample : ∃ machine space,
    machine.spaces[0]? = some space ∧ IsAligned 0x8048000 ∧ (6000 + 2192) % pageSize = 0 ∧
      100 + 6000 < wordLimit ∧
      ∃ outcome table segment,
        registerSegment 0 0 100 0x8048000 6000 2192 false machine =
          .ok outcome (machine.withTable 0 table) ∧
        Tiles 0 100 6000 2192 false 2 segment ∧ Loads space 0x8048000 2 segment outcome table := by
  have h := @registerSegment_cuts { sample with spaces := #[.ofPid 1] } 0 (.ofPid 1) 0 100 0x8048000 6000
    2192 false rfl (by decide) (by decide) (by decide)
  rw [if_pos (by decide)] at h
  exact ⟨_, _, rfl, by decide, by decide, by decide, h⟩

end Transition

end DemandPaging
