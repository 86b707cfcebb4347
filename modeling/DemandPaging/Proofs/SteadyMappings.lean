import DemandPaging.Proofs.SteadyFaults
import DemandPaging.Proofs.Mappings

/-!
# Registrations by a steady machine

To register pages and to map files leaves a steady machine steady. A page may be registered that is
mapped already, as long as it is not to belong to a mapped file. What is registered had no entry, so it
belonged to no mapping.
-/

set_option autoImplicit false

namespace DemandPaging

open Spaces Machine Transition

/-- The page belongs to no live mapping. -/
def Spaces.Unlisted (spaces : Array AddressSpace) (s : SpaceId) (p : Nat) : Prop :=
  ∀ id mapping, mapping? spaces s id = some mapping → p ∉ pageRange mapping.page mapping.pages

/-- Mappings were listed or taken off the list at most, entries were dropped, and spaces are new. -/
structure Spaces.Relisted (a b : Array AddressSpace) : Prop where
  info : ∀ s p info, info? b s p = some info → info? a s p = some info
  frame : ∀ s p info, info? b s p = some info → IsAligned p → frame? b s p = frame? a s p
  refusals : ∀ s standing, standing? b s = some standing →
    standing.refusals = 0 ∨ ∃ old, standing? a s = some old ∧ standing.refusals = old.refusals
  torn : ∀ s p info, info? b s p = some info → TornDown b s → TornDown a s

section

variable {terms : Terms} {m m' : Machine} {s : SpaceId} {p frame : Nat}

/-- The lists of mappings are as they should be. -/
theorem Spaces.Tables.relist {a b : Array AddressSpace} (h : Tables terms a) (hr : Relisted a b)
    (hwhole : ∀ s id mapping, mapping? b s id = some mapping → Whole b s mapping)
    (hdisjoint : ∀ s id id' mapping mapping' p, mapping? b s id = some mapping →
      mapping? b s id' = some mapping' → p ∈ pageRange mapping.page mapping.pages →
        p ∈ pageRange mapping'.page mapping'.pages → id' = id) : Tables terms b where
  refusals s standing hs := by
    rcases hr.refusals s standing hs with hnone | ⟨old, hold, heq⟩
    · exact hnone
    · exact heq.trans (h.refusals s old hold)
  torn s p info hinfo htorn := h.torn s p info (hr.info s p info hinfo) (hr.torn s p info hinfo htorn)
  aligned s p info hinfo := h.aligned s p info (hr.info s p info hinfo)
  still s p info hinfo := h.still s p info (hr.info s p info hinfo)
  anonymous s p info hinfo := by
    have hold := hr.info s p info hinfo
    rw [hr.frame s p info hinfo (h.aligned s p info hold)]
    exact h.anonymous s p info hold
  whole := hwhole
  disjoint := hdisjoint

/-- Nothing was unmapped, and the lists of mappings are as they should be. -/
theorem Machine.Steady.relist (h : m.Steady terms [] []) {spaces : Array AddressSpace}
    (hframe : ∀ s p, frame? spaces s p = frame? m.spaces s p)
    (hinfo : ∀ s p info, info? spaces s p = some info → info? m.spaces s p = some info)
    (htables : Tables terms spaces) : Machine.Steady terms [] [] { m with spaces } where
  pool := h.pool
  bound := h.bound
  recorded s p frame hp hf := h.recorded s p frame hp ((hframe s p).symm.trans hf)
  tables := htables
  honest hcareful s p := by
    obtain ⟨hmapped, htruthful⟩ := h.honest hcareful s p
    refine ⟨fun r hr howner hpage hnot => (hframe s p).trans (hmapped r hr howner hpage hnot), ?_⟩
    intro info segment frame hi hsegment hback hres hf
    exact htruthful info segment frame (hinfo s p info hi) hsegment hback hres
      ((hframe s p).symm.trans hf)
  untouched := h.untouched

/-! ### Pages that are registered -/

/-- A page gets a window of a file. It had no entry, so it belongs to no mapping. -/
theorem Machine.Steady.register (h : m.Steady terms [] []) {space : AddressSpace}
    (hspace : m.spaces[s]? = some space) (hp : IsAligned p) {segment : Segment} {table : Supplement}
    (hinsert : space.supplement.insert (.fileBacked p segment) = .ok table)
    (hunmapped : segment.writeBack = true → mapped? m.spaces s p = none) :
    Machine.Steady terms [] [] { m with spaces := put m.spaces s p (.fileBacked p segment) } ∧
      info? m.spaces s p = none ∧ Unlisted m.spaces s p := by
  obtain ⟨hdestroyed, hfind, -⟩ := Supplement.insert_eq_ok hinsert
  have hlt : s < m.spaces.size := (Array.getElem?_eq_some_iff.mp hspace).1
  have hnone : info? m.spaces s p = none := (info?_eq hspace).trans hfind
  have hunlisted : Unlisted m.spaces s p := by
    intro id mapping hmapping hmem
    obtain ⟨_, hsegment, -⟩ := h.tables.windows s id mapping p hmapping hmem
    rw [segment?, hnone] at hsegment
    cases hsegment
  have hinfo : info? (put m.spaces s p (.fileBacked p segment)) s p = some (.fileBacked p segment) := by
    rw [info?_put hlt, if_pos ⟨rfl, rfl⟩]
  have hframe : frame? (put m.spaces s p (.fileBacked p segment)) s p = frame? m.spaces s p := by
    rw [frame?, frame?, mapped?_put]
  refine ⟨?_, hnone, hunlisted⟩
  refine h.update terms.page (elsewhere_put hlt) hp (fun _ _ _ hne => hne) h.pool (fun _ _ => Iff.rfl)
    (fun _ _ _ hin => hin) (fun f hf => h.recorded s p f hp (hframe.symm.trans hf)) (fun info hi => ?_)
    (.inr hunlisted) (fun hcareful => ⟨fun r hr howner hpage hnot => ?_, ?_⟩) h.untouched
  · obtain rfl := Option.some.inj (hinfo.symm.trans hi)
    refine ⟨fun htorn => ?_, fun _ => rfl, fun _ hback => by cases hback⟩
    obtain ⟨standing, hstanding, hd⟩ := htorn.congr standing?_put.symm
    obtain rfl := Option.some.inj ((standing?_eq hspace).symm.trans hstanding)
    exact Bool.false_ne_true (hdestroyed.symm.trans hd)
  · exact hframe.trans ((h.honest hcareful s p).mapped r hr howner hpage hnot)
  · intro info window frame hi hsegment hback _ hf
    obtain rfl := Option.some.inj (hinfo.symm.trans hi)
    obtain rfl : segment = window := Option.some.inj hsegment
    rw [hframe, frame?, hunmapped hback] at hf
    cases hf

/-- One page is registered, or nothing happens. -/
theorem Machine.Steady.registerPage (h : m.Steady terms [] []) (f : FileId)
    (offset page readBytes zeroBytes : Nat) (writable : Bool) :
    (Transition.registerPage s f offset page readBytes zeroBytes writable).Yields m fun _ after =>
      after.Steady terms [] [] := by
  refine yields_ite (fun _ => yields_throw.mpr trivial) fun haligned => ?_
  refine yields_ite (fun _ => yields_throw.mpr trivial) fun _ => ?_
  refine yields_ite (fun _ => yields_pure.mpr h) fun _ => ?_
  refine yields_bind.mpr (yields_supplement.mpr fun space hspace => ?_)
  split
  · exact yields_pure.mpr h
  · rename_i table hinsert
    refine yields_bind.mpr (yields_setSupplement.mpr (yields_pure.mpr ?_))
    rw [Supplement.put_of_insert hspace hinsert]
    exact (h.register hspace (not_not.mp haligned) hinsert (by simp)).1

/-- The pages of a segment are registered, up to the first that is refused. -/
theorem Machine.Steady.registerSegment (h : m.Steady terms [] []) (f : FileId)
    (offset page readBytes zeroBytes : Nat) (writable : Bool) :
    (Transition.registerSegment s f offset page readBytes zeroBytes writable).Yields m fun _ after =>
      after.Steady terms [] [] := by
  suffices general : ∀ pages i (before : Machine), before.Steady terms [] [] →
      (registerFrom s f offset page readBytes writable pages i).Yields before fun _ after =>
        after.Steady terms [] [] by
    rw [registerSegment_eq]
    refine yields_ite (fun _ => yields_throw.mpr trivial) fun _ => ?_
    exact yields_ite (fun _ => yields_throw.mpr trivial) fun _ => general _ _ m h
  intro pages
  induction pages with
  | zero => exact fun i before hbefore => yields_pure.mpr hbefore
  | succ pages ih =>
    intro i before hbefore
    refine yields_bind.mpr ((hbefore.registerPage f _ _ _ _ writable).mono fun outcome after hafter => ?_)
    cases outcome with
    | error cause => exact yields_pure.mpr hafter
    | ok u => exact yields_ite (fun _ => ih (i + 1) after hafter) fun _ => yields_throw.mpr trivial

/-! ### Files that are mapped -/

/-- The pages of a mapped file are registered from the `i`-th on, up to the first that is refused. -/
theorem Machine.Steady.registerMapped {page : Nat} (hpage : IsAligned page) (f : FileId) (length : Nat)
    (pages : Nat) : ∀ {m : Machine} (i : Nat), m.Steady terms [] [] →
    (∀ j, i ≤ j → j < i + pages → mapped? m.spaces s (page + j * pageSize) = none) →
    (Transition.registerMapped s f length page pages i).Yields m fun outcome after =>
      after.Steady terms [] [] ∧ (∀ s', standing? after.spaces s' = standing? m.spaces s') ∧
        (∀ p segment, segment? m.spaces s p = some segment → segment? after.spaces s p = some segment) ∧
        (outcome = .ok () → ∀ j, i ≤ j → j < i + pages → Unlisted m.spaces s (page + j * pageSize) ∧
          segment? after.spaces s (page + j * pageSize) = some (mappedSegment f length j)) := by
  induction pages with
  | zero =>
    exact fun i h _ => yields_pure.mpr ⟨h, fun _ => rfl, fun _ _ hsegment => hsegment,
      fun _ j hij hj => absurd hj (Nat.not_lt.mpr hij)⟩
  | succ pages ih =>
    intro m i h hunmapped
    refine yields_bind.mpr (yields_supplement.mpr fun space hspace => ?_)
    split
    · exact yields_pure.mpr ⟨h, fun _ => rfl, fun _ _ hsegment => hsegment, by simp⟩
    · rename_i table hinsert
      refine yields_bind.mpr (yields_setSupplement.mpr ?_)
      rw [Supplement.put_of_insert hspace hinsert]
      obtain ⟨hsteady, hnone, hunlisted⟩ := h.register hspace (isAligned_page hpage i) hinsert
        fun _ => hunmapped i (Nat.le_refl i) (by omega)
      have hlt : s < m.spaces.size := (Array.getElem?_eq_some_iff.mp hspace).1
      have hkeeps : ∀ p segment, segment? m.spaces s p = some segment →
          segment? (put m.spaces s (page + i * pageSize) (.fileBacked (page + i * pageSize)
            (mappedSegment f length i))) s p = some segment := by
        intro p segment hsegment
        rw [segment?, info?_put hlt, if_neg]
        · exact hsegment
        · rintro ⟨-, rfl⟩
          rw [segment?, hnone] at hsegment
          cases hsegment
      refine (ih (i + 1) hsteady fun j hij hj => ?_).mono ?_
      · exact mapped?_put.trans (hunmapped j (by omega) (by omega))
      · rintro outcome after ⟨hafter, hstanding, hsegments, hdone⟩
        refine ⟨hafter, fun s' => (hstanding s').trans standing?_put,
          fun p segment hsegment => hsegments p segment (hkeeps p segment hsegment),
          fun hok j hij hj => ?_⟩
        rcases Nat.eq_or_lt_of_le hij with rfl | hlt'
        · refine ⟨hunlisted, hsegments _ _ ?_⟩
          change segment? (put m.spaces s (page + i * pageSize) _) s _ = _
          rw [segment?, info?_put hlt, if_pos ⟨rfl, rfl⟩]
          rfl
        · obtain ⟨hunlisted', hsegment⟩ := hdone hok j hlt' (by omega)
          exact ⟨fun id mapping hmapping => hunlisted' id mapping
            ((mapping?_congr standing?_put id).trans hmapping), hsegment⟩

/-- A mapping is listed whose pages have their windows and belong to no other one. -/
theorem Machine.Steady.addMapping (h : m.Steady terms [] []) {mapping : Mapping}
    (hwhole : Whole m.spaces s mapping)
    (hpages : ∀ p ∈ pageRange mapping.page mapping.pages, Unlisted m.spaces s p) :
    (Transition.addMapping s mapping).Yields m fun _ after => after.Steady terms [] [] := by
  refine ensures_addMapping.yields.mono ?_
  rintro new _ ⟨standing, notices, hstanding, rfl, -, rfl⟩
  set spaces := onSupplement m.spaces s fun table =>
    { table with
      mappings := table.mappings.insert standing.nextMapping mapping
      nextMapping := standing.nextMapping + 1 } with hspaces
  have hframe : ∀ s p, frame? spaces s p = frame? m.spaces s p := fun _ _ => by
    rw [frame?, frame?, hspaces, mapped?_onSupplement]
  have hinfo : ∀ s p, info? spaces s p = info? m.spaces s p := fun _ _ =>
    info?_onSupplement_entries fun _ => rfl
  have hsame : ∀ s', standing? spaces s' = if s = s' then some { standing with
      mappings := standing.mappings.insert standing.nextMapping mapping
      nextMapping := standing.nextMapping + 1 } else standing? m.spaces s' := by
    intro s'
    rw [hspaces, standing?_onSupplement]
    split
    · subst s'
      obtain ⟨space, hspace, rfl⟩ := Option.map_eq_some_iff.mp hstanding
      rw [hspace]
      rfl
    · rfl
  -- what is listed is the new mapping, or it was listed before
  have hlisted : ∀ s' id mapping', mapping? spaces s' id = some mapping' →
      s' = s ∧ id = standing.nextMapping ∧ mapping' = mapping ∨
        mapping? m.spaces s' id = some mapping' := by
    intro s' id mapping' hmapping
    rw [Spaces.mapping?, hsame] at hmapping
    split at hmapping
    · subst s'
      rw [Option.bind_some, Std.ExtTreeMap.getElem?_insert] at hmapping
      split at hmapping
      · rename_i hid
        exact .inl ⟨rfl, (Std.LawfulEqCmp.eq_of_compare hid).symm, (Option.some.inj hmapping).symm⟩
      · right
        rw [Spaces.mapping?, hstanding]
        exact hmapping
    · exact .inr hmapping
  have hrelisted : Relisted m.spaces spaces := by
    refine ⟨fun s p info hi => (hinfo s p).symm.trans hi, fun s p _ _ _ => hframe s p, fun s' new hs => ?_,
      fun s' _ _ _ htorn => ?_⟩
    · rw [hsame] at hs
      split at hs
      · subst s'
        obtain rfl := Option.some.inj hs
        exact .inr ⟨standing, hstanding, rfl⟩
      · exact .inr ⟨new, hs, rfl⟩
    · obtain ⟨new, hs, hd⟩ := htorn
      rw [hsame] at hs
      split at hs
      · subst s'
        obtain rfl := Option.some.inj hs
        exact ⟨standing, hstanding, hd⟩
      · exact ⟨new, hs, hd⟩
  refine Steady.said (h.relist hframe hrelisted.info (h.tables.relist hrelisted ?_ ?_)) m.swap.slots _
  · intro s' id mapping' hmapping
    refine Whole.congr (a := m.spaces) ?_ fun p _ => by rw [segment?, segment?, hinfo]
    rcases hlisted s' id mapping' hmapping with ⟨rfl, -, rfl⟩ | hold
    · exact hwhole
    · exact h.tables.whole s' id mapping' hold
  · intro s' id id' mapping' mapping'' p hmapping hmapping' hp hp'
    rcases hlisted s' id mapping' hmapping with ⟨rfl, rfl, rfl⟩ | hold
    · rcases hlisted s' id' mapping'' hmapping' with ⟨-, rfl, -⟩ | hold'
      · rfl
      · exact absurd hp' (hpages p hp id' mapping'' hold')
    · rcases hlisted s' id' mapping'' hmapping' with ⟨rfl, rfl, rfl⟩ | hold'
      · exact absurd hp (hpages p hp' id mapping' hold)
      · exact h.tables.disjoint s' id id' mapping' mapping'' p hold hold' hp hp'

variable {μ : Type → Type} [Kernel μ] {others : Machine → Machine → Prop} {evicts : Prop}
  (O : Outcomes μ others evicts)
  (hallows : ∀ before after, others before after → terms.Allows before after)

include hallows

/-- Pages are looked at that nothing should be known of. -/
theorem Outcomes.requireUnused (page : Nat) :
    O.Yields (Kernel.requireUnused s page) m fun outcome after => terms.Allows m after ∧
      (outcome = .ok () → mapped? m.spaces s page = none) := by
  refine O.bind (O.step hallows fun met hmet => yields_supplement.mpr fun space _ => ?_)
  split
  · exact O.pure ⟨hmet, by simp⟩
  · refine O.bind (O.mono (O.findEntry hallows) fun entry last hlast => ?_)
    obtain ⟨hlast, rfl⟩ := hlast
    split
    · exact O.pure ⟨hmet.trans hlast, by simp⟩
    · rename_i hnone
      rw [hmet.spaces_eq, Option.not_isSome_iff_eq_none] at hnone
      exact O.pure ⟨hmet.trans hlast, fun _ => hnone⟩

/-- All of a file is mapped, or some of its pages are registered, or nothing happens. -/
theorem Outcomes.mapFile (h : m.Steady terms [] []) (f : FileId) (page : Nat) :
    O.Yields (Kernel.mapFile s f page) m fun _ after => after.Steady terms [] [] := by
  refine O.bind (O.step hallows fun met hmet => (ensures_file.mpr fun file _ => ?_).yields)
  have hmet' := h.allows hmet
  dsimp only
  split
  · exact O.pure hmet'
  rename_i hmappable
  have hpage : IsAligned page := (not_not.mp hmappable).2.2.1
  refine O.holding (O.holding (O.bind (O.step hallows fun last hlast => ?_)))
  refine yields_supplement.mpr fun space _ => ?_
  have hlast' := hmet'.allows hlast
  split
  · exact O.pure hlast'
  refine O.bind (O.mono (O.upToFailure (fun done after => terms.Allows last after ∧
    ∀ p ∈ done, mapped? last.spaces s p = none) (fun _ after => terms.Allows last after) ?_
    ⟨.refl terms last, fun _ hp => absurd hp List.not_mem_nil⟩) fun outcome checked hchecked => ?_)
  · rintro done p rest before - ⟨hbefore, hunmapped⟩
    refine O.mono (O.requireUnused hallows p) fun outcome after hafter => ?_
    cases outcome with
    | error cause => exact hbefore.trans hafter.1
    | ok u =>
      refine ⟨hbefore.trans hafter.1, fun q hq => ?_⟩
      rcases List.mem_append.mp hq with hq | hq
      · exact hunmapped q hq
      · rw [List.mem_singleton.mp hq, ← hbefore.spaces_eq]
        exact hafter.2 rfl
  cases outcome with
  | error cause => exact O.pure (hlast'.allows hchecked)
  | ok u =>
    obtain ⟨hchecked, hunmapped⟩ := hchecked
    refine O.bind (O.step hallows fun now hnow => ?_)
    have hsame := (hchecked.trans hnow).spaces_eq
    refine (Steady.registerMapped hpage f file.size _ 0 ((hlast'.allows hchecked).allows hnow)
      fun j _ hj => ?_).mono fun outcome registered hregistered => ?_
    · rw [hsame]
      exact hunmapped _ (mem_pageRange.mpr ⟨j, by omega, rfl⟩)
    · obtain ⟨hsteady, hstanding, -, hdone⟩ := hregistered
      cases outcome with
      | error cause => exact O.pure hsteady
      | ok u =>
        refine O.bind (O.step hallows fun ready hready => ?_)
        have hdone' : ∀ j, j < pageCount file.size → Unlisted last.spaces s (page + j * pageSize) ∧
            segment? registered.spaces s (page + j * pageSize) = some (mappedSegment f file.size j) := by
          intro j hj
          rw [← hsame]
          exact hdone rfl j (Nat.zero_le j) ((Nat.zero_add _).symm ▸ hj)
        refine ((hsteady.allows hready).addMapping ⟨file.size, rfl, fun j hj => ?_⟩ fun p hp => ?_).mono
          fun id after hafter => O.pure hafter
        · rw [hready.spaces_eq]
          exact (hdone' j hj).2
        · obtain ⟨j, hj, rfl⟩ := mem_pageRange.mp hp
          rw [hready.spaces_eq]
          refine fun id mapping hmapping => (hdone' j hj).1 id mapping ?_
          rw [← hsame]
          exact (mapping?_congr (hstanding s) id).symm.trans hmapping

end

end DemandPaging
