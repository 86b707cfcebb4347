import DemandPaging.Proofs.Frames
import DemandPaging.Proofs.Slots
import DemandPaging.Proofs.Spaces

/-!
# Coherence

The memory manager keeps the same facts in several places: a mapped page has an entry in its page
directory, a record in the frame table and perhaps an entry in the supplemental page table, and its
frame is out of the pool; a page in swap has an entry that names its slot, and the slot is in use.
`Coherent` says that these places agree.

While a page is on its way, they need not agree about it. So `Coherent away bound loose pinned`
names the records `bound` whose pages are mapped, the frames `loose` that are out for another
reason, and the frames `pinned`; and `away` is what an eviction that was interrupted has on its way,
which calls that come in between leave alone. Between calls all records are bound and no frame is
loose or pinned (`SettledBut`), and if no eviction is under way, nothing is away (`Settled`).

Each part of the invariant has a lemma for the changes that a page can go through: it is mapped or
unmapped, its entry changes, it gets a swap slot or gives it back. `Elsewhere a b s p` says that `b`
differs from `a` at most at the one page.
-/

set_option autoImplicit false

namespace DemandPaging

namespace Spaces

variable {a b c : Array AddressSpace} {s : SpaceId} {p : Nat}

/-! ### Changes at one page -/

/-- Nothing but page `p` of space `s` has changed. -/
structure Elsewhere (a b : Array AddressSpace) (s : SpaceId) (p : Nat) : Prop where
  mapped : ∀ s' p', IsAligned p' → ¬ (s' = s ∧ p' = p) → mapped? b s' p' = mapped? a s' p'
  info : ∀ s' p', ¬ (s' = s ∧ p' = p) → info? b s' p' = info? a s' p'
  standing : ∀ s', standing? b s' = standing? a s'

/-- Nothing has changed, so nothing has elsewhere. -/
theorem Elsewhere.refl (a : Array AddressSpace) (s : SpaceId) (p : Nat) : Elsewhere a a s p :=
  ⟨fun _ _ _ _ => rfl, fun _ _ _ => rfl, fun _ => rfl⟩

/-- Two changes at one page are one change at that page. -/
theorem Elsewhere.trans (h : Elsewhere a b s p) (h' : Elsewhere b c s p) : Elsewhere a c s p where
  mapped s' p' hp hne := (h'.mapped s' p' hp hne).trans (h.mapped s' p' hp hne)
  info s' p' hne := (h'.info s' p' hne).trans (h.info s' p' hne)
  standing s' := (h'.standing s').trans (h.standing s')

/-- Any other page is in the frame that it was in. -/
theorem Elsewhere.frame (h : Elsewhere a b s p) {s' : SpaceId} {p' : Nat} (hp : IsAligned p')
    (hne : ¬ (s' = s ∧ p' = p)) : frame? b s' p' = frame? a s' p' := by
  rw [frame?, frame?, h.mapped s' p' hp hne]

/-- Any other page has the window that it had. -/
theorem Elsewhere.segment (h : Elsewhere a b s p) {s' : SpaceId} {p' : Nat}
    (hne : ¬ (s' = s ∧ p' = p)) : segment? b s' p' = segment? a s' p' := by
  rw [segment?, segment?, h.info s' p' hne]

/-- Any other page has the swap copy that it had. -/
theorem Elsewhere.copy (h : Elsewhere a b s p) {s' : SpaceId} {p' : Nat}
    (hne : ¬ (s' = s ∧ p' = p)) : copy? b s' p' = copy? a s' p' := by
  rw [copy?, copy?, h.info s' p' hne]

/-- Two pages that differ do so whichever comes first. -/
theorem not_same {s' : SpaceId} {p' : Nat} (hne : ¬ (s' = s ∧ p' = p)) : ¬ (s = s' ∧ p = p') := by
  rintro ⟨rfl, rfl⟩
  exact hne ⟨rfl, rfl⟩

/-- Aligned addresses that differ are in different pages of a directory. -/
theorem not_samePage {s' : SpaceId} {p' : Nat} (hp : IsAligned p) (hp' : IsAligned p')
    (hne : ¬ (s' = s ∧ p' = p)) : ¬ (s = s' ∧ pageNumber p = pageNumber p') := by
  rintro ⟨rfl, hnumber⟩
  exact hne ⟨rfl, ((pageNumber_inj hp hp').mp hnumber).symm⟩

/-- To map a page is a change at that page. -/
theorem elsewhere_map {e : PageTableEntry} (hp : IsAligned p) (hs : s < a.size) :
    Elsewhere a (map a s p e) s p where
  mapped s' p' hp' hne := by
    rw [mapped?_map hs, if_neg (not_samePage hp hp' hne)]
  info s' p' _ := info?_map
  standing s' := standing?_map

/-- To unmap a page is a change at that page. -/
theorem elsewhere_unmap (hp : IsAligned p) : Elsewhere a (unmap a s p) s p where
  mapped s' p' hp' hne := by
    rw [mapped?_unmap, if_neg (not_samePage hp hp' hne)]
  info s' p' _ := info?_unmap
  standing s' := standing?_unmap

/-- To mark a mapped page is a change at that page. -/
theorem elsewhere_mark {f : PageTableEntry → PageTableEntry} (hp : IsAligned p) :
    Elsewhere a (mark a s p f) s p where
  mapped s' p' hp' hne := by
    rw [mapped?_mark, if_neg (not_samePage hp hp' hne)]
  info s' p' _ := info?_mark
  standing s' := standing?_mark

/-- To put the entry of a page is a change at that page. -/
theorem elsewhere_put {i : PageInfo} (hs : s < a.size) : Elsewhere a (put a s p i) s p where
  mapped s' p' _ _ := mapped?_put
  info s' p' hne := by
    rw [info?_put hs, if_neg (not_same hne)]
  standing s' := standing?_put

/-- To change the entry of a page is a change at that page. -/
theorem elsewhere_amend {f : PageInfo → PageInfo} : Elsewhere a (amend a s p f) s p where
  mapped s' p' _ _ := mapped?_amend
  info s' p' hne := by
    rw [info?_amend, if_neg (not_same hne)]
  standing s' := standing?_amend

/-- To drop the entry of a page is a change at that page. -/
theorem elsewhere_drop : Elsewhere a (drop a s p) s p where
  mapped s' p' _ _ := mapped?_drop
  info s' p' hne := by
    rw [info?_drop, if_neg (not_same hne)]
  standing s' := standing?_drop

/-! ### Changes of flags -/

/-- Nothing but flags in page directories has changed, and no dirty flag was cleared. -/
structure Alike (a b : Array AddressSpace) : Prop where
  info : ∀ s p, info? b s p = info? a s p
  standing : ∀ s, standing? b s = standing? a s
  unmapped : ∀ s p, mapped? a s p = none → mapped? b s p = none
  mapped : ∀ s p e, mapped? a s p = some e → ∃ e', mapped? b s p = some e' ∧
    e'.frame = e.frame ∧ (e'.dirty = false → e.dirty = false)

/-- Spaces are like themselves. -/
theorem Alike.refl (a : Array AddressSpace) : Alike a a :=
  ⟨fun _ _ => rfl, fun _ => rfl, fun _ _ h => h, fun _ _ e h => ⟨e, h, rfl, fun hd => hd⟩⟩

/-- Spaces that went through alike ones are still alike. -/
theorem Alike.trans (h : Alike a b) (h' : Alike b c) : Alike a c where
  info s p := (h'.info s p).trans (h.info s p)
  standing s := (h'.standing s).trans (h.standing s)
  unmapped s p hn := h'.unmapped s p (h.unmapped s p hn)
  mapped s p e he := by
    obtain ⟨e', he', hframe', hdirty'⟩ := h.mapped s p e he
    obtain ⟨e'', he'', hframe'', hdirty''⟩ := h'.mapped s p e' he'
    exact ⟨e'', he'', hframe''.trans hframe', fun hd => hdirty' (hdirty'' hd)⟩

/-- Marks may be set as long as the frame is kept and no page becomes clean. -/
theorem alike_mark {f : PageTableEntry → PageTableEntry} (hframe : ∀ e, (f e).frame = e.frame)
    (hdirty : ∀ e, (f e).dirty = false → e.dirty = false) : Alike a (mark a s p f) where
  info s' p' := info?_mark
  standing s' := standing?_mark
  unmapped s' p' hn := by
    rw [mapped?_mark, hn]
    simp
  mapped s' p' e he := by
    rw [mapped?_mark, he]
    split
    · exact ⟨f e, rfl, hframe e, hdirty e⟩
    · exact ⟨e, rfl, rfl, fun hd => hd⟩

/-- Every page is in the frame that it was in. -/
theorem Alike.frame (h : Alike a b) (s : SpaceId) (p : Nat) : frame? b s p = frame? a s p := by
  rw [frame?, frame?]
  cases ha : mapped? a s p with
  | none => rw [h.unmapped s p ha]
  | some e =>
    obtain ⟨e', he', hframe, -⟩ := h.mapped s p e ha
    rw [he', Option.map_some, Option.map_some, hframe]

/-- Every page has the window that it had. -/
theorem Alike.segment (h : Alike a b) (s : SpaceId) (p : Nat) :
    segment? b s p = segment? a s p := by rw [segment?, segment?, h.info]

/-- Every page has the swap copy that it had. -/
theorem Alike.copy (h : Alike a b) (s : SpaceId) (p : Nat) : copy? b s p = copy? a s p := by
  rw [copy?, copy?, h.info]

/-! ### Records and mapped pages -/

/-- The records `bound` stand for the mapped pages, and these are user pages. -/
structure Tracked (spaces : Array AddressSpace) (bound : List FrameRecord) : Prop where
  mem_iff : ∀ r, r ∈ bound ↔
    ∃ p, r.page = some p ∧ IsAligned p ∧ frame? spaces r.owner p = some r.frame
  user : ∀ s p, IsAligned p → (frame? spaces s p).isSome = true → pageSize ≤ p ∧ IsUser p

section

variable {bound bound' : List FrameRecord}

/-- The records describe alike spaces just as well. -/
theorem Tracked.alike (h : Tracked a bound) (hlike : Alike a b) : Tracked b bound where
  mem_iff r := by simpa only [hlike.frame] using h.mem_iff r
  user s p := by simpa only [hlike.frame] using h.user s p

/-- The order of the records does not matter. -/
theorem Tracked.congr (h : Tracked a bound) (hbound : ∀ r, r ∈ bound' ↔ r ∈ bound) :
    Tracked a bound' := ⟨fun r => (hbound r).trans (h.mem_iff r), h.user⟩

/-- A mapped page has a record. -/
theorem Tracked.mem_of_frame? (h : Tracked a bound) {frame : Nat} (hp : IsAligned p)
    (hframe : frame? a s p = some frame) : { frame, owner := s, page := some p } ∈ bound :=
  (h.mem_iff _).mpr ⟨p, rfl, hp, hframe⟩

/-- A page keeps its frame. -/
theorem Tracked.keep (h : Tracked a bound) (he : Elsewhere a b s p)
    (hframe : frame? b s p = frame? a s p) : Tracked b bound := by
  have heq : ∀ s' p', IsAligned p' → frame? b s' p' = frame? a s' p' := by
    intro s' p' hp'
    by_cases hsp : s' = s ∧ p' = p
    · rw [hsp.1, hsp.2, hframe]
    · exact he.frame hp' hsp
  refine ⟨fun r => (h.mem_iff r).trans ?_, fun s' p' hp' => ?_⟩
  · refine exists_congr fun p' => and_congr_right fun _ => and_congr_right fun hp' => ?_
    rw [heq _ _ hp']
  · rw [heq s' p' hp']
    exact h.user s' p' hp'

/-- A page is unmapped and its record leaves. -/
theorem Tracked.unmap (h : Tracked a bound) (he : Elsewhere a b s p) {frame : Nat}
    (hframe : frame? a s p = some frame) (hnone : frame? b s p = none)
    (hbound : ∀ r, r ∈ bound' ↔ r ∈ bound ∧ r ≠ { frame, owner := s, page := some p }) :
    Tracked b bound' where
  mem_iff r := by
    rw [hbound, h.mem_iff]
    constructor
    · rintro ⟨⟨p', hpage, hp', hf⟩, hne⟩
      refine ⟨p', hpage, hp', ?_⟩
      rw [he.frame hp' ?_]
      · exact hf
      · rintro ⟨howner, rfl⟩
        rw [howner, hframe, Option.some.injEq] at hf
        apply hne
        cases r
        simp_all
    · rintro ⟨p', hpage, hp', hf⟩
      have hsp : ¬ (r.owner = s ∧ p' = p) := by
        rintro ⟨howner, rfl⟩
        rw [howner, hnone] at hf
        cases hf
      rw [he.frame hp' hsp] at hf
      refine ⟨⟨p', hpage, hp', hf⟩, ?_⟩
      rintro rfl
      exact hsp ⟨rfl, (Option.some.inj hpage).symm⟩
  user s' p' hp' hsome := by
    have hsp : ¬ (s' = s ∧ p' = p) := by
      rintro ⟨rfl, rfl⟩
      rw [hnone] at hsome
      cases hsome
    rw [he.frame hp' hsp] at hsome
    exact h.user s' p' hp' hsome

/-- The page of a record is unmapped and the record is taken out. -/
theorem Tracked.remove {front rear : List FrameRecord} {frame : Nat}
    (h : Tracked a (front ++ ⟨frame, s, some p⟩ :: rear))
    (hnodup : (front ++ ⟨frame, s, some p⟩ :: rear : List FrameRecord).Nodup)
    (he : Elsewhere a b s p) (hframe : frame? a s p = some frame) (hnone : frame? b s p = none) :
    Tracked b (front ++ rear) := by
  refine h.unmap he hframe hnone fun r => ?_
  have hnot := (List.nodup_cons.mp (List.nodup_middle.mp hnodup)).1
  rw [List.perm_middle.mem_iff, List.mem_cons]
  constructor
  · intro hr
    refine ⟨.inr hr, ?_⟩
    rintro rfl
    exact hnot hr
  · rintro ⟨hr, hne⟩
    exact hr.resolve_left hne

/-- A page is mapped and its record comes in. -/
theorem Tracked.map (h : Tracked a bound) (he : Elsewhere a b s p) {frame : Nat}
    (hnone : frame? a s p = none) (hframe : frame? b s p = some frame) (hp : IsAligned p)
    (huser : pageSize ≤ p ∧ IsUser p)
    (hbound : ∀ r, r ∈ bound' ↔ r ∈ bound ∨ r = { frame, owner := s, page := some p }) :
    Tracked b bound' where
  mem_iff r := by
    rw [hbound, h.mem_iff]
    constructor
    · rintro (⟨p', hpage, hp', hf⟩ | rfl)
      · refine ⟨p', hpage, hp', ?_⟩
        rw [he.frame hp' ?_]
        · exact hf
        · rintro ⟨howner, rfl⟩
          rw [howner, hnone] at hf
          cases hf
      · exact ⟨p, rfl, hp, hframe⟩
    · rintro ⟨p', hpage, hp', hf⟩
      by_cases hsp : r.owner = s ∧ p' = p
      · right
        rw [hsp.1, hsp.2, hframe, Option.some.injEq] at hf
        cases r
        simp_all
      · left
        rw [he.frame hp' hsp] at hf
        exact ⟨p', hpage, hp', hf⟩
  user s' p' hp' hsome := by
    by_cases hsp : s' = s ∧ p' = p
    · rw [hsp.2]
      exact huser
    · rw [he.frame hp' hsp] at hsome
      exact h.user s' p' hp' hsome

end

/-! ### Entries and mapped pages -/

/-- An entry says the truth about its page, and pages of mapped files are never in swap. -/
structure Fits (spaces : Array AddressSpace) (s : SpaceId) (p : Nat) (info : PageInfo) : Prop where
  aligned : IsAligned p
  evicting : info.evicting = false
  resident : info.resident = (frame? spaces s p).isSome
  copy : info.resident = true → info.copy? = none
  back : ∀ segment, info.segment? = some segment → segment.writeBack = true → info.copy? = none

/-- A page in swap is not in memory. -/
theorem Fits.resident_eq_false {info : PageInfo} (h : Fits a s p info) {copy : SwapCopy}
    (hcopy : info.copy? = some copy) : info.resident = false := by
  rw [Bool.eq_false_iff]
  intro hresident
  have hnone := h.copy hresident
  rw [hcopy] at hnone
  cases hnone

/-- A page that is not in memory is not mapped. -/
theorem Fits.unmapped {info : PageInfo} (h : Fits a s p info) (hresident : info.resident = false) :
    mapped? a s p = none := by
  have hframe := h.resident
  rw [hresident, eq_comm, Option.isSome_eq_false_iff, Option.isNone_iff_eq_none, frame?,
    Option.map_eq_none_iff] at hframe
  exact hframe

/-- The entry of a private page or a page of a stack that an eviction moves out: it is marked, and
the page is neither mapped nor in swap. -/
structure Departs (spaces : Array AddressSpace) (s : SpaceId) (p : Nat) (info : PageInfo) :
    Prop where
  aligned : IsAligned p
  evicting : info.evicting = true
  resident : info.resident = true
  unmapped : frame? spaces s p = none
  copy : info.copy? = none
  back : ∀ segment, info.segment? = some segment → segment.writeBack = false

/-- All entries say the truth, but for the one of the page that is moved out, if there is one. -/
structure Described (moving : Option (SpaceId × Nat)) (spaces : Array AddressSpace) : Prop where
  fits : ∀ s p info, info? spaces s p = some info → moving ≠ some (s, p) → Fits spaces s p info
  departs : ∀ s p, moving = some (s, p) →
    ∃ info, info? spaces s p = some info ∧ Departs spaces s p info

section

variable {moving : Option (SpaceId × Nat)} {info : PageInfo}

/-- Only the entries and the frames of pages matter. -/
theorem Described.congr (h : Described moving a) (hinfo : ∀ s p, info? b s p = info? a s p)
    (hframe : ∀ s p, frame? b s p = frame? a s p) : Described moving b := by
  refine ⟨fun s p info hsome hnot => ?_, fun s p hmoving => ?_⟩
  · rw [hinfo] at hsome
    obtain ⟨haligned, hevicting, hresident, hcopy, hback⟩ := h.fits s p info hsome hnot
    exact ⟨haligned, hevicting, by rw [hframe, hresident], hcopy, hback⟩
  · obtain ⟨info, hsome, haligned, hevicting, hresident, hunmapped, hcopy, hback⟩ :=
      h.departs s p hmoving
    exact ⟨info, (hinfo s p).trans hsome, haligned, hevicting, hresident,
      (hframe s p).trans hunmapped, hcopy, hback⟩

/-- The entries describe alike spaces just as well. -/
theorem Described.alike (h : Described moving a) (hlike : Alike a b) : Described moving b :=
  h.congr hlike.info hlike.frame

/-- After a change at one page it is enough to look at that page, if it is not on its way. -/
theorem Described.update (h : Described moving a) (he : Elsewhere a b s p)
    (hnot : moving ≠ some (s, p))
    (hfits : ∀ info, info? b s p = some info → Fits b s p info) : Described moving b := by
  refine ⟨fun s' p' info hinfo hnot' => ?_, fun s' p' hmoving => ?_⟩
  · by_cases hsp : s' = s ∧ p' = p
    · obtain ⟨rfl, rfl⟩ := hsp
      exact hfits info hinfo
    · rw [he.info s' p' hsp] at hinfo
      obtain ⟨haligned, hevicting, hresident, hcopy, hback⟩ := h.fits s' p' info hinfo hnot'
      exact ⟨haligned, hevicting, by rw [he.frame haligned hsp, hresident], hcopy, hback⟩
  · have hsp : ¬ (s' = s ∧ p' = p) := by
      rintro ⟨rfl, rfl⟩
      exact hnot hmoving
    obtain ⟨info, hinfo, haligned, hevicting, hresident, hunmapped, hcopy, hback⟩ :=
      h.departs s' p' hmoving
    exact ⟨info, (he.info s' p' hsp).trans hinfo, haligned, hevicting, hresident,
      (he.frame haligned hsp).trans hunmapped, hcopy, hback⟩

/-- A page is to be moved out. -/
theorem Described.depart (h : Described none a) (he : Elsewhere a b s p)
    (hinfo : info? b s p = some info) (hdeparts : Departs b s p info) :
    Described (some (s, p)) b := by
  refine ⟨fun s' p' info' hinfo' hnot => ?_, fun s' p' hmoving => ?_⟩
  · have hsp : ¬ (s' = s ∧ p' = p) := by
      rintro ⟨rfl, rfl⟩
      exact hnot rfl
    rw [he.info s' p' hsp] at hinfo'
    obtain ⟨haligned, hevicting, hresident, hcopy, hback⟩ := h.fits s' p' info' hinfo' nofun
    exact ⟨haligned, hevicting, by rw [he.frame haligned hsp, hresident], hcopy, hback⟩
  · obtain ⟨rfl, rfl⟩ := Prod.mk.inj (Option.some.inj hmoving)
    exact ⟨info, hinfo, hdeparts⟩

/-- The page that was to be moved out is where it belongs. -/
theorem Described.arrive (h : Described (some (s, p)) a) (he : Elsewhere a b s p)
    (hfits : ∀ info, info? b s p = some info → Fits b s p info) : Described none b := by
  refine ⟨fun s' p' info hinfo _ => ?_, nofun⟩
  by_cases hsp : s' = s ∧ p' = p
  · obtain ⟨rfl, rfl⟩ := hsp
    exact hfits info hinfo
  · have hne : some (s, p) ≠ some (s', p') := by
      rintro ⟨⟩
      exact hsp ⟨rfl, rfl⟩
    rw [he.info s' p' hsp] at hinfo
    obtain ⟨haligned, hevicting, hresident, hcopy, hback⟩ := h.fits s' p' info hinfo hne
    exact ⟨haligned, hevicting, by rw [he.frame haligned hsp, hresident], hcopy, hback⟩

/-- A page that is moved out is marked. -/
theorem Described.ne_of_evicting (h : Described moving a) (hinfo : info? a s p = some info)
    (hevicting : info.evicting = false) : moving ≠ some (s, p) := by
  intro hmoving
  obtain ⟨info', hinfo', hdeparts⟩ := h.departs s p hmoving
  obtain rfl := Option.some.inj (hinfo.symm.trans hinfo')
  rw [hdeparts.evicting] at hevicting
  cases hevicting

/-- A page that is moved out has an entry. -/
theorem Described.ne_of_info? (h : Described moving a) (hinfo : info? a s p = none) :
    moving ≠ some (s, p) := by
  intro hmoving
  obtain ⟨info, hsome, -⟩ := h.departs s p hmoving
  rw [hinfo] at hsome
  cases hsome

/-- A page that is moved out is not mapped. -/
theorem Described.ne_of_frame? (h : Described moving a) {frame : Nat}
    (hframe : frame? a s p = some frame) : moving ≠ some (s, p) := by
  intro hmoving
  obtain ⟨info, -, hdeparts⟩ := h.departs s p hmoving
  rw [hdeparts.unmapped] at hframe
  cases hframe

/-- A page that is moved out is not in swap yet. -/
theorem Described.ne_of_copy? (h : Described moving a) {copy : SwapCopy}
    (hcopy : copy? a s p = some copy) : moving ≠ some (s, p) := by
  intro hmoving
  obtain ⟨info, hinfo, hdeparts⟩ := h.departs s p hmoving
  rw [copy?, hinfo, Option.bind_some, hdeparts.copy] at hcopy
  cases hcopy

/-- A page of a mapped file is not meant to be moved out. -/
theorem Described.ne_of_back (h : Described moving a) {segment : Segment}
    (hsegment : segment? a s p = some segment) (hback : segment.writeBack = true) :
    moving ≠ some (s, p) := by
  intro hmoving
  obtain ⟨info, hinfo, hdeparts⟩ := h.departs s p hmoving
  rw [segment?, hinfo] at hsegment
  rw [hdeparts.back segment hsegment] at hback
  cases hback

/-- A mapped page has no swap copy. -/
theorem Described.copy?_eq_none (h : Described moving a) {frame : Nat}
    (hframe : frame? a s p = some frame) : copy? a s p = none := by
  rw [copy?]
  cases hinfo : info? a s p with
  | none => rfl
  | some info =>
    have hfits := h.fits s p info hinfo (h.ne_of_frame? hframe)
    have hresident : info.resident = true := by rw [hfits.resident, hframe, Option.isSome_some]
    exact hfits.copy hresident

/-- A page with a window is aligned. -/
theorem Described.isAligned (h : Described moving a) {segment : Segment}
    (hsegment : segment? a s p = some segment) : IsAligned p := by
  obtain ⟨info, hinfo, -⟩ := Option.bind_eq_some_iff.mp hsegment
  by_cases hmoving : moving = some (s, p)
  · obtain ⟨info', -, hdeparts⟩ := h.departs s p hmoving
    exact hdeparts.aligned
  · exact (h.fits s p info hinfo hmoving).aligned

end

/-! ### Entries and swap slots -/

/-- The slots in use are the ones that entries name, each named once, and those that were claimed
for pages on their way. -/
structure Accounted (claimed : List Nat) (spaces : Array AddressSpace) (slots : SlotBitmap) :
    Prop where
  sound : slots.Sound
  isUsed_iff : ∀ slot, slots.isUsed slot = true ↔
    (∃ s p copy, copy? spaces s p = some copy ∧ copy.slot = slot) ∨ slot ∈ claimed
  inj : ∀ s p s' p' copy copy', copy? spaces s p = some copy → copy? spaces s' p' = some copy' →
    copy.slot = copy'.slot → s' = s ∧ p' = p
  apart : ∀ s p copy, copy? spaces s p = some copy → copy.slot ∉ claimed

section

variable {slots slots' : SlotBitmap} {claimed : List Nat} {copy : SwapCopy}

/-- The slot of a page is in use. -/
theorem Accounted.isUsed (h : Accounted claimed a slots) (hcopy : copy? a s p = some copy) :
    slots.isUsed copy.slot = true :=
  (h.isUsed_iff copy.slot).mpr (.inl ⟨s, p, copy, hcopy, rfl⟩)

/-- Slots are accounted for by the swap copies alone. -/
theorem Accounted.congr (h : Accounted claimed a slots) (hcopy : ∀ s p, copy? b s p = copy? a s p) :
    Accounted claimed b slots where
  sound := h.sound
  isUsed_iff := by simpa only [hcopy] using h.isUsed_iff
  inj := by simpa only [hcopy] using h.inj
  apart := by simpa only [hcopy] using h.apart

/-- The slots are those of alike spaces just as well. -/
theorem Accounted.alike (h : Accounted claimed a slots) (hlike : Alike a b) :
    Accounted claimed b slots :=
  h.congr hlike.copy

/-- A page keeps its slot, or goes on having none. -/
theorem Accounted.keep (h : Accounted claimed a slots) (he : Elsewhere a b s p)
    (hcopy : copy? b s p = copy? a s p) : Accounted claimed b slots := by
  refine h.congr fun s' p' => ?_
  by_cases hsp : s' = s ∧ p' = p
  · rw [hsp.1, hsp.2, hcopy]
  · exact he.copy hsp

/-- The slots in use are the same. -/
theorem Accounted.of_isUsed (h : Accounted claimed a slots) (hsound : slots'.Sound)
    (hused : ∀ slot, slots'.isUsed slot = slots.isUsed slot) : Accounted claimed a slots' where
  sound := hsound
  isUsed_iff slot := (hused slot).symm ▸ h.isUsed_iff slot
  inj := h.inj
  apart := h.apart

/-- A slot that is free was not claimed. -/
theorem Accounted.not_mem (h : Accounted claimed a slots) {slot : Nat}
    (hfree : slots.isUsed slot = false) : slot ∉ claimed := by
  intro hmem
  rw [(h.isUsed_iff slot).mpr (.inr hmem)] at hfree
  cases hfree

/-- A slot that was free is claimed. -/
theorem Accounted.claim (h : Accounted claimed a slots) {slot : Nat} (hsound : slots'.Sound)
    (hfree : slots.isUsed slot = false)
    (hused : ∀ x, slots'.isUsed x = (slots.isUsed x || decide (x = slot))) :
    Accounted (slot :: claimed) a slots' where
  sound := hsound
  isUsed_iff x := by
    rw [hused, Bool.or_eq_true, decide_eq_true_eq, h.isUsed_iff, List.mem_cons, or_assoc,
      @or_comm (x = slot)]
  inj := h.inj
  apart s p copy hcopy := by
    rw [List.mem_cons, not_or]
    refine ⟨fun heq => ?_, h.apart s p copy hcopy⟩
    rw [← heq, h.isUsed hcopy] at hfree
    cases hfree

/-- A slot that was claimed is free again. -/
theorem Accounted.unclaim {slot : Nat} (h : Accounted (slot :: claimed) a slots)
    (hnot : slot ∉ claimed) (hsound : slots'.Sound)
    (hused : ∀ x, slots'.isUsed x = (slots.isUsed x && decide (x ≠ slot))) :
    Accounted claimed a slots' where
  sound := hsound
  isUsed_iff x := by
    rw [hused, Bool.and_eq_true, decide_eq_true_eq, h.isUsed_iff, List.mem_cons]
    constructor
    · rintro ⟨hcopy | rfl | hmem, hne⟩
      · exact .inl hcopy
      · exact absurd rfl hne
      · exact .inr hmem
    · rintro (⟨s, p, copy, hcopy, rfl⟩ | hmem)
      · refine ⟨.inl ⟨s, p, copy, hcopy, rfl⟩, fun heq => ?_⟩
        exact h.apart s p copy hcopy (heq ▸ List.mem_cons_self)
      · refine ⟨.inr (.inr hmem), ?_⟩
        rintro rfl
        exact hnot hmem
  inj := h.inj
  apart s p copy hcopy hmem := h.apart s p copy hcopy (List.mem_cons_of_mem _ hmem)

/-- A page gets the slot that was claimed for it. -/
theorem Accounted.gain (h : Accounted (copy.slot :: claimed) a slots) (hnot : copy.slot ∉ claimed)
    (he : Elsewhere a b s p) (hnone : copy? a s p = none) (hcopy : copy? b s p = some copy) :
    Accounted claimed b slots := by
  -- a page with a slot is this one, or it had the slot before
  have hcases : ∀ s' p' copy', copy? b s' p' = some copy' →
      (s' = s ∧ p' = p ∧ copy' = copy) ∨ copy? a s' p' = some copy' := by
    intro s' p' copy' hcopy'
    by_cases hsp : s' = s ∧ p' = p
    · rw [hsp.1, hsp.2, hcopy, Option.some.injEq] at hcopy'
      exact .inl ⟨hsp.1, hsp.2, hcopy'.symm⟩
    · rw [he.copy hsp] at hcopy'
      exact .inr hcopy'
  have hother : ∀ s' p' copy', copy? a s' p' = some copy' → copy'.slot ≠ copy.slot := by
    intro s' p' copy' hcopy' heq
    exact h.apart s' p' copy' hcopy' (heq ▸ List.mem_cons_self)
  refine ⟨h.sound, fun slot => ?_, fun s₁ p₁ s₂ p₂ copy₁ copy₂ h₁ h₂ hslot => ?_,
    fun s' p' copy' hcopy' hmem => ?_⟩
  · rw [h.isUsed_iff, List.mem_cons]
    constructor
    · rintro (⟨s', p', copy', hcopy', rfl⟩ | rfl | hmem)
      · refine .inl ⟨s', p', copy', ?_, rfl⟩
        rw [he.copy ?_]
        · exact hcopy'
        · rintro ⟨rfl, rfl⟩
          rw [hnone] at hcopy'
          cases hcopy'
      · exact .inl ⟨s, p, copy, hcopy, rfl⟩
      · exact .inr hmem
    · rintro (⟨s', p', copy', hcopy', rfl⟩ | hmem)
      · rcases hcases s' p' copy' hcopy' with ⟨-, -, rfl⟩ | hold
        · exact .inr (.inl rfl)
        · exact .inl ⟨s', p', copy', hold, rfl⟩
      · exact .inr (.inr hmem)
  · rcases hcases s₁ p₁ copy₁ h₁ with ⟨rfl, rfl, rfl⟩ | hold₁ <;>
      rcases hcases s₂ p₂ copy₂ h₂ with ⟨rfl, rfl, rfl⟩ | hold₂
    · exact ⟨rfl, rfl⟩
    · exact absurd hslot.symm (hother s₂ p₂ copy₂ hold₂)
    · exact absurd hslot (hother s₁ p₁ copy₁ hold₁)
    · exact h.inj s₁ p₁ s₂ p₂ copy₁ copy₂ hold₁ hold₂ hslot
  · rcases hcases s' p' copy' hcopy' with ⟨-, -, rfl⟩ | hold
    · exact hnot hmem
    · exact h.apart s' p' copy' hold (List.mem_cons_of_mem _ hmem)

/-- A page gives its slot back. -/
theorem Accounted.lose (h : Accounted claimed a slots) (he : Elsewhere a b s p)
    (hcopy : copy? a s p = some copy) (hnone : copy? b s p = none) (hsound : slots'.Sound)
    (hused : ∀ slot, slots'.isUsed slot = (slots.isUsed slot && decide (slot ≠ copy.slot))) :
    Accounted claimed b slots' := by
  -- a page that still has a slot had it before
  have hother : ∀ s' p' copy', copy? b s' p' = some copy' →
      ¬ (s' = s ∧ p' = p) ∧ copy? a s' p' = some copy' := by
    intro s' p' copy' hcopy'
    have hsp : ¬ (s' = s ∧ p' = p) := by
      rintro ⟨rfl, rfl⟩
      rw [hnone] at hcopy'
      cases hcopy'
    rw [he.copy hsp] at hcopy'
    exact ⟨hsp, hcopy'⟩
  refine ⟨hsound, fun slot => ?_, fun s₁ p₁ s₂ p₂ copy₁ copy₂ h₁ h₂ => ?_,
    fun s' p' copy' hcopy' => h.apart s' p' copy' (hother s' p' copy' hcopy').2⟩
  · rw [hused, Bool.and_eq_true, decide_eq_true_eq, h.isUsed_iff]
    constructor
    · rintro ⟨⟨s', p', copy', hcopy', rfl⟩ | hmem, hne⟩
      · refine .inl ⟨s', p', copy', ?_, rfl⟩
        rw [he.copy ?_]
        · exact hcopy'
        · rintro ⟨rfl, rfl⟩
          rw [hcopy, Option.some.injEq] at hcopy'
          subst hcopy'
          exact hne rfl
      · exact .inr hmem
    · rintro (⟨s', p', copy', hcopy', rfl⟩ | hmem)
      · obtain ⟨hsp, hold⟩ := hother s' p' copy' hcopy'
        refine ⟨.inl ⟨s', p', copy', hold, rfl⟩, fun heq => ?_⟩
        exact hsp (h.inj s p s' p' copy copy' hcopy hold heq.symm)
      · refine ⟨.inr hmem, ?_⟩
        rintro rfl
        exact h.apart s p copy hcopy hmem
  · exact h.inj s₁ p₁ s₂ p₂ copy₁ copy₂ (hother s₁ p₁ copy₁ h₁).2 (hother s₂ p₂ copy₂ h₂).2

end

/-! ### Torn down spaces -/

/-- No directory turns a mapping down, and a space that was torn down has no pages or mappings. -/
structure Live (spaces : Array AddressSpace) : Prop where
  refusals : ∀ s standing, standing? spaces s = some standing → standing.refusals = 0
  destroyed : ∀ s standing, standing? spaces s = some standing → standing.destroyed = true →
    standing.mappings = ∅ ∧ ∀ p, info? spaces s p = none ∧ (IsAligned p → frame? spaces s p = none)

/-- A space that was torn down. -/
def TornDown (spaces : Array AddressSpace) (s : SpaceId) : Prop :=
  ∃ standing, standing? spaces s = some standing ∧ standing.destroyed = true

/-- Whether a space was torn down, as something to compute. -/
theorem tornDown_iff :
    TornDown a s ↔ (standing? a s).any (·.destroyed) = true := by
  simp [TornDown, Option.any_eq_true]

/-- Whether a space was torn down can be computed. -/
instance : Decidable (TornDown a s) := decidable_of_iff _ tornDown_iff.symm

/-- Whether a space was torn down depends on its standing alone. -/
theorem TornDown.congr (h : TornDown a s) (hstanding : standing? b s = standing? a s) :
    TornDown b s := by
  unfold TornDown
  rw [hstanding]
  exact h

/-- A space of which it is not known that it was torn down. -/
def IsLive (spaces : Array AddressSpace) (s : SpaceId) : Prop :=
  ∀ standing, standing? spaces s = some standing → standing.destroyed = false

/-- What is asked of spaces, torn down or not, holds of alike ones. -/
theorem Live.alike (h : Live a) (hlike : Alike a b) : Live b where
  refusals := by simpa only [hlike.standing] using h.refusals
  destroyed := by simpa only [hlike.standing, hlike.info, hlike.frame] using h.destroyed

/-- A change at a page of a space that was not torn down takes nothing from what is asked of spaces. -/
theorem Live.update (h : Live a) (he : Elsewhere a b s p) (hlive : IsLive a s) : Live b where
  refusals := by simpa only [he.standing] using h.refusals
  destroyed s' standing hs' hd := by
    rw [he.standing] at hs'
    have hne : s' ≠ s := by
      rintro rfl
      rw [hlive standing hs'] at hd
      cases hd
    obtain ⟨hmappings, hpages⟩ := h.destroyed s' standing hs' hd
    refine ⟨hmappings, fun p' => ?_⟩
    have hsp : ¬ (s' = s ∧ p' = p) := fun hsp => hne hsp.1
    rw [he.info s' p' hsp]
    exact ⟨(hpages p').1, fun hp' => by rw [he.frame hp' hsp]; exact (hpages p').2 hp'⟩

/-- A space that lives was not torn down. -/
theorem IsLive.not_tornDown (h : IsLive a s) : ¬ TornDown a s := by
  rintro ⟨standing, hstanding, hd⟩
  rw [h standing hstanding] at hd
  cases hd

/-- A space that was torn down has no entries and no mapped pages. -/
theorem Live.gone (h : Live a) (htorn : TornDown a s) (p : Nat) :
    info? a s p = none ∧ (IsAligned p → frame? a s p = none) := by
  obtain ⟨standing, hstanding, hd⟩ := htorn
  exact (h.destroyed s standing hstanding hd).2 p

/-- A space with a mapped page was not torn down. -/
theorem Live.isLive_of_frame? (h : Live a) {frame : Nat} (hp : IsAligned p)
    (hframe : frame? a s p = some frame) : IsLive a s := by
  intro standing hs
  cases hd : standing.destroyed with
  | false => rfl
  | true =>
    have := ((h.destroyed s standing hs hd).2 p).2 hp
    rw [hframe] at this
    cases this

/-- A space with an entry was not torn down. -/
theorem Live.isLive_of_info? (h : Live a) {info : PageInfo} (hinfo : info? a s p = some info) :
    IsLive a s := by
  intro standing hs
  cases hd : standing.destroyed with
  | false => rfl
  | true =>
    have := ((h.destroyed s standing hs hd).2 p).1
    rw [hinfo] at this
    cases this

end Spaces

/-! ### The whole machine -/

open Spaces

/-- What an eviction has on its way while other work comes in between. -/
structure Away where
  /-- The page that is moved out, as long as somebody wants it. -/
  page : Option (SpaceId × Nat) := none
  /-- The frame that it is moved out of. -/
  frames : List Nat := []
  /-- The slot that was claimed for it. -/
  slots : List Nat := []

/-- The parts of the machine agree, with the pages of the records `bound` mapped and the frames
`loose` out for another reason, and with what is `away`. -/
structure Coherent (away : Away) (bound : List FrameRecord) (loose pinned : List Nat)
    (machine : Machine) : Prop where
  pool : machine.frames.pool.Accounts (bound.map (·.frame) ++ (loose ++ away.frames)) pinned
  capacity : machine.frames.pool.capacity = machine.frames.memory.size
  tracked : Tracked machine.spaces bound
  described : Described away.page machine.spaces
  accounted : Accounted away.slots machine.spaces machine.swap.slots
  live : Live machine.spaces

/-- Nothing is on its way but what is `away`: every record is bound, and no other frame is out. -/
def Machine.SettledBut (away : Away) (machine : Machine) : Prop :=
  Coherent away machine.frames.records [] [] machine

/-- Nothing is on its way. -/
def Machine.Settled (machine : Machine) : Prop := machine.SettledBut {}

/-- If nothing is on its way, all entries say the truth. -/
theorem Machine.Settled.fits {machine : Machine} (h : machine.Settled) {s : SpaceId} {p : Nat}
    {info : PageInfo} (hinfo : info? machine.spaces s p = some info) :
    Fits machine.spaces s p info := h.described.fits s p info hinfo nofun

section

variable {away : Away} {bound : List FrameRecord} {loose pinned : List Nat} {m m' : Machine}

/-- The contents of frames, the disk, the files, the clock and what was said do not matter. -/
theorem Coherent.congr (h : Coherent away bound loose pinned m)
    (hpool : m'.frames.pool = m.frames.pool)
    (hsize : m'.frames.memory.size = m.frames.memory.size) (hspaces : m'.spaces = m.spaces)
    (hslots : m'.swap.slots = m.swap.slots) : Coherent away bound loose pinned m' where
  pool := hpool ▸ h.pool
  capacity := by rw [hpool, hsize, h.capacity]
  tracked := hspaces ▸ h.tracked
  described := hspaces ▸ h.described
  accounted := by
    rw [hspaces, hslots]
    exact h.accounted
  live := hspaces ▸ h.live

/-- The pool has changed and nothing else that matters. -/
theorem Coherent.setPool {loose' pinned' : List Nat} (h : Coherent away bound loose pinned m)
    (hpool : m'.frames.pool.Accounts (bound.map (·.frame) ++ (loose' ++ away.frames)) pinned')
    (hcapacity : m'.frames.pool.capacity = m.frames.pool.capacity)
    (hsize : m'.frames.memory.size = m.frames.memory.size) (hspaces : m'.spaces = m.spaces)
    (hslots : m'.swap.slots = m.swap.slots) : Coherent away bound loose' pinned' m' where
  pool := hpool
  capacity := by rw [hcapacity, hsize, h.capacity]
  tracked := hspaces ▸ h.tracked
  described := hspaces ▸ h.described
  accounted := by
    rw [hspaces, hslots]
    exact h.accounted
  live := hspaces ▸ h.live

/-- Nor do the flags of mapped pages. -/
theorem Coherent.alike (h : Coherent away bound loose pinned m)
    (hpool : m'.frames.pool = m.frames.pool)
    (hsize : m'.frames.memory.size = m.frames.memory.size) (hspaces : Alike m.spaces m'.spaces)
    (hslots : m'.swap.slots = m.swap.slots) : Coherent away bound loose pinned m' where
  pool := hpool ▸ h.pool
  capacity := by rw [hpool, hsize, h.capacity]
  tracked := h.tracked.alike hspaces
  described := h.described.alike hspaces
  accounted := hslots ▸ h.accounted.alike hspaces
  live := h.live.alike hspaces

/-- No record is bound twice. -/
theorem Coherent.nodup (h : Coherent away bound loose pinned m) : bound.Nodup :=
  (List.nodup_append.mp h.pool.nodup).1.of_map _

/-- Different pages have different frames. -/
theorem Coherent.frame_inj (h : Coherent away bound loose pinned m) {s s' : SpaceId}
    {p p' frame : Nat} (hp : IsAligned p) (hp' : IsAligned p')
    (hframe : frame? m.spaces s p = some frame) (hframe' : frame? m.spaces s' p' = some frame) :
    s' = s ∧ p' = p := by
  have hnodup : (bound.map (·.frame)).Nodup := (List.nodup_append.mp h.pool.nodup).1
  have hmem := h.tracked.mem_of_frame? hp hframe
  have hmem' := h.tracked.mem_of_frame? hp' hframe'
  have heq := List.inj_on_of_nodup_map hnodup hmem' hmem rfl
  simpa using heq

/-- No page is mapped to a frame that is loose or away. -/
theorem Coherent.frame?_ne (h : Coherent away bound loose pinned m) {frame : Nat}
    (hloose : frame ∈ loose ++ away.frames) {s : SpaceId} {p : Nat} (hp : IsAligned p) :
    frame? m.spaces s p ≠ some frame := by
  intro hframe
  have hmem := h.tracked.mem_of_frame? hp hframe
  have hdisjoint := (List.nodup_append.mp h.pool.nodup).2.2
  exact hdisjoint frame (List.mem_map_of_mem hmem) frame hloose rfl

end

end DemandPaging
