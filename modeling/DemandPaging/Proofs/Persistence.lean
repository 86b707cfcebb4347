import DemandPaging.Proofs.Runs

/-!
# Pages that are left alone

What a page holds stays the same until somebody stores something there, whatever happens to other
pages and wherever its contents are meanwhile (`Run.holds`), and it is what a copy from user memory
reads (`Run.readsOnly`).

Two things from outside of the page can change what it holds. A page of a private file window may be
loaded from its file again, and so the file has to be left alone; and the file of a mapped page is
written whenever a page of it is evicted, and so the page must not share its bytes with another
mapping. `Backed` says that neither happens.
-/

set_option autoImplicit false

namespace DemandPaging

open Spaces Machine

/-! ### Files that are left alone -/

/-- The file was not written: its contents and the count of its writes have not changed. -/
def Files.Spared (before after : Array MemoryFile) (f : FileId) : Prop :=
  ∀ file, before[f]? = some file → ∃ file', after[f]? = some file' ∧
    file'.content = file.content ∧ file'.writes = file.writes

namespace Files

variable {before after : Array MemoryFile} {f : FileId}

/-- Windows of a file that was not written have the same bytes as before. -/
theorem Spared.windowByte {segment : Segment} (h : Spared before after segment.file)
    (hlt : segment.file < before.size) (k : Nat) :
    windowByte after segment k = windowByte before segment k := by
  have hfile := Array.getElem?_eq_getElem hlt
  obtain ⟨file', hfile', hcontent, -⟩ := h _ hfile
  unfold Files.windowByte
  rw [hfile, hfile', Option.bind_some, Option.bind_some, hcontent]

/-- A file whose count of writes is the same was not written, if there were not so many writes that
the count went round. -/
theorem Written.not_mem {writes : List FileId} {spaces : Array AddressSpace}
    (h : Written writes spaces before after) (hlength : writes.length < UInt64.size)
    (hspared : Spared before after f) (hlt : f < before.size) : f ∉ writes := by
  have hfile := Array.getElem?_eq_getElem hlt
  obtain ⟨file', hfile', hwrites, -⟩ := h.file f _ hfile
  obtain ⟨file'', hfile'', -, hsame⟩ := hspared _ hfile
  rw [hfile', Option.some.injEq] at hfile''
  subst hfile''
  rw [hsame] at hwrites
  have hcount : writes.count f < UInt64.size :=
    Nat.lt_of_le_of_lt List.count_le_length hlength
  have hnat := congrArg UInt64.toNat hwrites
  rw [UInt64.toNat_add, UInt64.toNat_ofNat_of_lt' hcount] at hnat
  have hbound := before[f].writes.toNat_lt_size
  rw [UInt64.size] at hbound hcount
  rw [← List.count_eq_zero]
  omega

end Files

/-! ### One action -/

/-- What is at place `k` of a page is safe in its file, if it has one: a private window has a file that
is not written; and no other mapped page has the same byte of a mapped file, and nobody writes that
file but through its mappings. -/
def Backed (action : Action) (before after : Machine) (s : SpaceId) (p k : Nat) : Prop :=
  ∀ segment, segment? before.spaces s p = some segment →
    if segment.writeBack = true then
      Shielded [] before.spaces s p k ∧
        ((∀ c, action ≠ .call c) → Files.Spared before.files after.files segment.file)
    else Files.Spared before.files after.files segment.file

section

variable {action : Action} {reply : Reply} {m m' : Machine} {s : SpaceId} {p k : Nat} {b : UInt8}

/-- Pages of private windows in files that were not written are safe. -/
theorem backed_of_spared (h : ∀ segment, segment? m.spaces s p = some segment →
    segment.writeBack = false ∧ Files.Spared m.files m'.files segment.file) :
    Backed action m m' s p k := by
  intro segment hsegment
  obtain ⟨hback, hspared⟩ := h segment hsegment
  rw [if_neg (Bool.eq_false_iff.mp hback)]
  exact hspared

/-- A page that is safe in its file is safe from what was written. -/
theorem Backed.shielded (h : Backed action m m' s p k) {writes : List FileId}
    (hwritten : Files.Written writes m.spaces m.files m'.files)
    (hlength : writes.length ≤ Transition.copyWrites) (ho : m.Orderly) :
    Shielded writes m.spaces s p k := by
  intro segment hsegment
  have hsafe := h segment hsegment
  by_cases hback : segment.writeBack = true
  · rw [if_pos hback] at hsafe ⊢
    have halone := hsafe.1 segment hsegment
    rwa [if_pos hback] at halone
  · rw [if_neg hback] at hsafe ⊢
    have hbound : writes.length < UInt64.size := Nat.lt_of_le_of_lt hlength (by decide)
    exact hwritten.not_mem hbound hsafe (ho.backed s p segment hsegment)

/-- What is done from outside leaves the window of a safe page alone. -/
theorem Backed.spared (h : Backed action m m' s p k) (hcall : ∀ c, action ≠ .call c)
    {segment : Segment} (hsegment : segment? m.spaces s p = some segment) :
    Files.Spared m.files m'.files segment.file := by
  have hsafe := h segment hsegment
  split at hsafe
  · exact hsafe.2 hcall
  · exact hsafe

/-- A page that holds something is known. -/
theorem Machine.Holds.known (h : m.Holds s p k b) : m.Known s p := by
  cases hmapped : mapped? m.spaces s p with
  | some e => exact .inl (by rw [hmapped, Option.isSome_some])
  | none =>
    cases hinfo : info? m.spaces s p with
    | some info => exact .inr (by rw [hinfo, Option.isSome_some])
    | none =>
      rw [holds_of_file hmapped (by rw [copy?, hinfo]; rfl), segment?, hinfo] at h
      obtain ⟨segment, hnone, -⟩ := h
      cases hnone

/-- Only calls name windows and store anything. -/
theorem Action.eq_none_of_outside (hcall : ∀ c, action ≠ .call c) :
    action.stored m = nothing ∧ action.window m = fun _ _ => none := by
  cases action with
  | call c => exact absurd rfl (hcall c)
  | addSpace | addFile | changeFile | turnDisk => exact ⟨rfl, rfl⟩

/-- What goes on outside makes no page known or unknown. -/
theorem Outside.known_iff (h : Outside m m') : m'.Known s p ↔ m.Known s p := by
  unfold Known
  rw [h.mapped, h.info]

/-- A page that was not forgotten keeps what it held, if it is safe in its file. -/
theorem Forgets.keeps {gone : SpaceId → Nat → Prop} {writes : List FileId}
    (h : Forgets gone writes m m') (ho : m.Orderly) (hp : IsAligned p) (hafter : m'.Known s p)
    (hsafe : Backed action m m' s p k) (hb : m.Holds s p k b) : m'.Holds s p k b := by
  have hnot : ¬ gone s p := fun hgone => h.not_known hp hgone hafter
  refine h.holds hp hnot (fun segment hsegment => ?_) hb
  have hseg := hsafe segment hsegment
  by_cases hback : segment.writeBack = true
  · rw [if_pos hback] at hseg
    have halone := hseg.1 segment hsegment
    rw [if_pos hback] at halone
    refine h.window segment k halone.1 fun s' p' other hgone hother hback' hcovers => ?_
    obtain ⟨rfl, rfl⟩ := halone.2 s' p' other hother hback' hcovers
    exact hnot hgone
  · rw [if_neg hback] at hseg
    exact hseg.windowByte (ho.backed s p segment hsegment) k

/-- A page that an action leaves known keeps its window. -/
theorem Moves.segment (h : Moves action reply m m') (hp : IsAligned p) (hbefore : m.Known s p)
    (hafter : m'.Known s p) : segment? m'.spaces s p = segment? m.spaces s p := by
  cases h with
  | paged writes _ _ _ hadvance => exact hadvance.segment s p
  | registered s' _ _ _ hadds _ => rw [segment?, segment?, hadds.info_eq hbefore]
  | mapped s' f page id file _ _ _ hmaps => rw [segment?, segment?, hmaps.adds.info_eq hbefore]
  | unmapped s' id mapping _ hunmaps _ =>
    obtain ⟨writes, -, hforgets⟩ := hunmaps.forgets
    exact hforgets.segment_eq fun hgone => hforgets.not_known hp hgone hafter
  | destroyed s' _ hdestroys =>
    obtain ⟨writes, -, hforgets⟩ := hdestroys.forgets
    exact hforgets.segment_eq fun hgone => hforgets.not_known hp hgone hafter
  | refused _ _ _ heq => rw [heq]
  | outside _ houtside => exact houtside.segment s p

/-- A page that an action leaves known keeps what it held, but for what is stored, if it is safe in its
file. -/
theorem Moves.holds (h : Moves action reply m m') (ho : m.Orderly) (hp : IsAligned p)
    (hk : k < pageSize) (hafter : m'.Known s p) (hsafe : Backed action m m' s p k)
    (hb : m.Holds s p k b) : m'.Holds s p k ((action.stored m s (p + k)).getD b) := by
  cases h with
  | paged writes hlength _ _ hadvance =>
    exact hadvance.holds s p k b hp hk (hsafe.shielded hadvance.files hlength ho) hb
  | registered s' hstored _ _ hadds _ =>
    rw [hstored]
    exact hadds.holds hb.known hb
  | mapped s' f page id file haction _ _ hmaps =>
    subst haction
    exact hmaps.adds.holds hb.known hb
  | unmapped s' id mapping haction hunmaps _ =>
    subst haction
    obtain ⟨writes, -, hforgets⟩ := hunmaps.forgets
    exact hforgets.keeps ho hp hafter hsafe hb
  | destroyed s' haction hdestroys =>
    subst haction
    obtain ⟨writes, -, hforgets⟩ := hdestroys.forgets
    exact hforgets.keeps ho hp hafter hsafe hb
  | refused hstored _ _ heq =>
    subst heq
    rw [hstored]
    exact hb
  | outside hcall houtside =>
    rw [(Action.eq_none_of_outside hcall).1]
    refine hb.congr (houtside.info s p) (fun hn => (houtside.mapped s p).trans hn) ?_ ?_ ?_
    · intro e he
      exact ⟨e, (houtside.mapped s p).trans he, rfl, fun hd => hd, by rw [houtside.frames]⟩
    · intro copy _
      exact houtside.disk copy.slot k
    · intro segment hsegment
      exact (hsafe.spared hcall hsegment).windowByte (ho.backed s p segment hsegment) k

/-- Only tearing its space down or removing its mapping makes a page go. -/
theorem Moves.known (h : Moves action reply m m') (ho : m.Orderly) (hp : IsAligned p)
    (hlive : action.tearsDown s = false)
    (hprivate : ∀ segment, segment? m.spaces s p = some segment → segment.writeBack = false)
    (hbefore : m.Known s p) : m'.Known s p := by
  cases h with
  | paged writes _ _ _ hadvance => exact hadvance.known s p hp hbefore
  | registered s' _ _ _ hadds _ => exact hadds.known hbefore
  | mapped s' f page id file _ _ _ hmaps => exact hmaps.adds.known hbefore
  | unmapped s' id mapping _ hunmaps _ =>
    obtain ⟨writes, -, hforgets⟩ := hunmaps.forgets
    refine (hforgets.known_iff hp ?_).mpr hbefore
    rintro ⟨rfl, hmem⟩
    obtain ⟨segment, hsegment, hback, -⟩ := ho.mapped.window hunmaps.live hmem
    rw [hprivate segment hsegment] at hback
    cases hback
  | destroyed s' haction hdestroys =>
    subst haction
    obtain ⟨writes, -, hforgets⟩ := hdestroys.forgets
    exact (hforgets.known_iff hp (of_decide_eq_false hlive)).mpr hbefore
  | refused _ _ _ heq =>
    subst heq
    exact hbefore
  | outside _ houtside => exact houtside.known_iff.mpr hbefore

end

/-! ### All actions -/

/-- The moment leaves place `k` of a page alone: the space is not torn down, the page is not unmapped
with its file, nothing is stored there, and what is there is safe in the file. -/
structure Moment.Leaves (moment : Moment) (s : SpaceId) (p k : Nat) : Prop where
  live : moment.action.tearsDown s = false
  stays : ∀ segment, segment? moment.before.spaces s p = some segment →
    segment.writeBack = true → moment.after.Known s p
  kept : moment.action.stored moment.before s (p + k) = none
  safe : Backed moment.action moment.before moment.after s p k

/-- What was read of user memory. -/
def Reply.data : Reply → Bytes
  | .read data _ => data
  | _ => #[]

/-- If place `k` of a page is read at the moment, then as `b`. -/
def Moment.ReadsOnly (moment : Moment) (s : SpaceId) (p k : Nat) (b : UInt8) : Prop :=
  ∀ address length stackPointer i x,
    moment.action = .call (.copyFromUser s address length stackPointer) →
    p = pageOf (address + i) → k = pageOffset (address + i) →
    moment.reply.data[i]? = some x → x = b

section

variable {start machine : Machine} {moments : List Moment} {moment : Moment} {s : SpaceId}
  {p k : Nat} {b : UInt8}

/-- A page without a file window is left alone where nothing is stored. -/
theorem Moment.Leaves.of_segment? (hlive : moment.action.tearsDown s = false)
    (hkept : moment.action.stored moment.before s (p + k) = none)
    (hsegment : segment? moment.before.spaces s p = none) : moment.Leaves s p k := by
  refine ⟨hlive, fun segment hsome => ?_, hkept, fun segment hsome => ?_⟩
  · rw [hsegment] at hsome
    cases hsome
  · rw [hsegment] at hsome
    cases hsome

/-- What a moment leaves alone is held after it as before. -/
theorem Moment.Leaves.holds (h : moment.Leaves s p k)
    (hm : Moves moment.action moment.reply moment.before moment.after)
    (ho : moment.before.Orderly) (hp : IsAligned p) (hk : k < pageSize)
    (hb : moment.before.Holds s p k b) : moment.after.Holds s p k b := by
  have hafter : moment.after.Known s p := by
    by_cases hshared : ∃ segment, segment? moment.before.spaces s p = some segment ∧
        segment.writeBack = true
    · obtain ⟨segment, hsegment, hback⟩ := hshared
      exact h.stays segment hsegment hback
    · refine hm.known ho hp h.live (fun segment hsegment => ?_) hb.known
      exact Bool.eq_false_iff.mpr fun hback => hshared ⟨segment, hsegment, hback⟩
  have hholds := hm.holds ho hp hk hafter h.safe hb
  rwa [h.kept] at hholds

/-- What a run leaves alone is held at its end as at its start. -/
theorem Run.holds (h : Run start moments machine) (ho : start.Orderly) (hp : IsAligned p)
    (hk : k < pageSize) (hleaves : ∀ moment ∈ moments, moment.Leaves s p k)
    (hb : start.Holds s p k b) : machine.Holds s p k b := by
  induction h with
  | nil => exact hb
  | snoc hrun hpermitted hstep ih =>
    obtain ⟨hbefore, -, hm⟩ := (hrun.snoc hpermitted hstep).moves ho
    have hlast := hleaves _ (List.mem_append_right _ (List.mem_singleton.mpr rfl))
    exact hlast.holds hm hbefore hp hk
      (ih fun moment hmem => hleaves moment (List.mem_append_left _ hmem))

/-- What a copy from user memory reads: bytes of known pages, each the byte that the page held, if it
is safe in its file, or zero if the page was not known before. -/
theorem Run.reads (h : Run start (moments ++ [moment]) machine) (ho : start.Orderly)
    {address length stackPointer : Nat}
    (haction : moment.action = .call (.copyFromUser s address length stackPointer))
    {i : Nat} {x : UInt8} (hx : moment.reply.data[i]? = some x) :
    moment.after.Known s (pageOf (address + i)) ∧
      (¬ moment.before.Known s (pageOf (address + i)) → x = 0) ∧
      (Backed moment.action moment.before moment.after s (pageOf (address + i))
        (pageOffset (address + i)) → ∀ b,
        moment.before.Holds s (pageOf (address + i)) (pageOffset (address + i)) b → x = b) := by
  obtain ⟨hrun, -, hstep, -⟩ := h.last
  have hbefore := hrun.orderly ho
  have hperform : Transition.Ensures moment.action.step moment.before fun reply after =>
      ∃ writes, writes.length ≤ Transition.copyWrites ∧
        Advance writes nothing moment.before after ∧
        Reads writes moment.before after s address reply.data := by
    rw [haction]
    simp only [Action.step, Kernel.perform, Transition.ensures_bind, Transition.ensures_pure]
    refine (Transition.ensures_copyFromUser hbefore.settled s address length stackPointer).mono ?_
    rintro ⟨data, outcome⟩ after ⟨hwrites, -⟩
    cases outcome <;> exact hwrites
  obtain ⟨writes, hlength, hadvance, hreads⟩ := hperform.of_ok hstep
  obtain ⟨hknown, hnew, hheld⟩ := hreads i x hx
  exact ⟨hknown, hnew, fun hsafe b hb =>
    hheld b (hsafe.shielded hadvance.files hlength hbefore) hb⟩

/-- What a run leaves alone is read as it was held at the start, whenever it is read. -/
theorem Run.readsOnly (h : Run start moments machine) (ho : start.Orderly) (hp : IsAligned p)
    (hk : k < pageSize) (hleaves : ∀ moment ∈ moments, moment.Leaves s p k)
    (hb : start.Holds s p k b) : ∀ moment ∈ moments, moment.ReadsOnly s p k b := by
  intro moment hmem
  obtain ⟨earlier, later, rfl⟩ := List.append_of_mem hmem
  rw [List.append_cons] at h
  obtain ⟨middle, hfirst, -⟩ := h.split
  have hearlier := fun m hm => hleaves m (List.mem_append_left _ hm)
  rintro address length stackPointer i x haction rfl rfl hx
  obtain ⟨-, -, hread⟩ := hfirst.reads ho haction hx
  exact hread (hleaves moment hmem).safe b (hfirst.last.1.holds ho hp hk hearlier hb)

end

end DemandPaging
