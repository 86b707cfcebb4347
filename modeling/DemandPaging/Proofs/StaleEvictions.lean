import DemandPaging.Proofs.AnsweredEvictions

/-!
# Evictions of pages that are not mapped

Callers may bind several frames to one page, bind a frame to a page that is not mapped, or map and unmap
pages as they like. Then records say little about mappings. What still holds is `Machine.Balanced`: every
frame that is out has one record, or is listed as loose.

An eviction in a balanced machine answers, whatever page its victim is bound to: a victim that is not mapped
is discarded, and a page that could not be saved is recorded again even if it cannot be mapped again. So no
frame is lost and none is handed out twice (`Machine.Balanced.evict`).
-/

set_option autoImplicit false

namespace DemandPaging

open Spaces Machine

/-- The spaces are as many as before, and no page has got a new window. -/
structure Spaces.Within (before after : Array AddressSpace) : Prop where
  size_eq : after.size = before.size
  segment : ∀ s p segment, segment? after s p = some segment → segment? before s p = some segment

namespace Spaces

variable {a b c : Array AddressSpace} {s : SpaceId} {p : Nat}

/-- Spaces that stay have no new windows. -/
theorem Within.refl (a : Array AddressSpace) : Within a a := ⟨rfl, fun _ _ _ h => h⟩

/-- What has no new windows twice has none. -/
theorem Within.trans (h : Within a b) (h' : Within b c) : Within a c :=
  ⟨h'.size_eq.trans h.size_eq, fun s p segment hsegment => h.segment s p segment
    (h'.segment s p segment hsegment)⟩

/-- Page directories have nothing to do with windows. -/
theorem within_onDirectory (f : PageDirectory → PageDirectory) : Within a (onDirectory a s f) := by
  refine ⟨size_onDirectory, fun s' p' segment hsegment => ?_⟩
  rwa [segment?, info?_onDirectory] at hsegment

/-- If no entry changes, no window is new. -/
theorem within_of_info (hsize : b.size = a.size) (hinfo : ∀ s p, info? b s p = info? a s p) :
    Within a b := by
  refine ⟨hsize, fun s' p' segment hsegment => ?_⟩
  rwa [segment?, hinfo] at hsegment

/-- The entry of a page changes, but not its window. -/
theorem within_amend {f : PageInfo → PageInfo} (hf : ∀ info, (f info).segment? = info.segment?) :
    Within a (amend a s p f) := by
  refine ⟨size_onSupplement, fun s' p' segment hsegment => ?_⟩
  rw [segment?, info?_amend] at hsegment
  split at hsegment
  · rw [segment?]
    cases hinfo : info? a s' p' with
    | none =>
      rw [hinfo] at hsegment
      cases hsegment
    | some info =>
      rw [hinfo] at hsegment
      exact (hf info).symm.trans hsegment
  · exact hsegment

/-- An entry that was made for an eviction has no window. -/
theorem within_entered {info : PageInfo} (h : Transition.Entered a s p info b) : Within a b := by
  cases h with
  | found => exact .refl a
  | made hs =>
    refine ⟨size_onSupplement, fun s' p' segment hsegment => ?_⟩
    rw [segment?, info?_put hs] at hsegment
    split at hsegment
    · cases hsegment
    · exact hsegment

end Spaces

/-- Every frame that is out has one record or is `loose`, and no other frame has. There are `count` spaces,
every record is of one of them and bound to an aligned page if to any, and windows fit in a page and are in
files. -/
structure Machine.Balanced (count : Nat) (loose : List Nat) (machine : Machine) : Prop where
  pool : ∃ pinned, machine.frames.pool.Accounts (machine.frames.records.map (·.frame) ++ loose) pinned
  capacity : machine.frames.pool.capacity = machine.frames.memory.size
  small : machine.frames.memory.size ≤ maxFrame + 1
  spaces : machine.spaces.size = count
  owner : ∀ r ∈ machine.frames.records, r.owner < count
  aligned : ∀ r ∈ machine.frames.records, ∀ p, r.page = some p → IsAligned p
  sound : machine.swap.slots.Sound
  windows : ∀ s p segment, segment? machine.spaces s p = some segment →
    segment.readBytes ≤ pageSize ∧ segment.file < machine.files.size

/-- A machine with the same equipment has as many files. -/
theorem Machine.SameEquipment.files_le {m m' : Machine} (h : m.SameEquipment m') :
    m.files.size ≤ m'.files.size := by
  by_contra hlt
  have hfile := Array.getElem?_eq_getElem (Nat.lt_of_not_le hlt)
  obtain ⟨file', hfile', -⟩ := h.files m'.files.size _ hfile
  rw [Array.getElem?_eq_none (Nat.le_refl _)] at hfile'
  cases hfile'

namespace Machine.Balanced

variable {m m' : Machine} {count : Nat} {loose : List Nat} {s : SpaceId} {p frame : Nat}

/-- Nothing was done to the frames. -/
theorem change (h : m.Balanced count loose) (hframes : m'.frames = m.frames)
    (hwithin : Within m.spaces m'.spaces) (hsound : m'.swap.slots.Sound)
    (hfiles : m.files.size ≤ m'.files.size) : m'.Balanced count loose where
  pool := hframes ▸ h.pool
  capacity := hframes ▸ h.capacity
  small := hframes ▸ h.small
  spaces := hwithin.size_eq.trans h.spaces
  owner := hframes ▸ h.owner
  aligned := hframes ▸ h.aligned
  sound := hsound
  windows s p segment hsegment := by
    obtain ⟨hfits, hlt⟩ := h.windows s p segment (hwithin.segment s p segment hsegment)
    exact ⟨hfits, Nat.lt_of_lt_of_le hlt hfiles⟩

/-- Only page directories and entries were changed. -/
theorem within (h : m.Balanced count loose) {spaces : Array AddressSpace} (hwithin : Within m.spaces spaces) :
    Balanced count loose { m with spaces } :=
  h.change rfl hwithin h.sound (Nat.le_refl _)

/-- Something was said. -/
theorem said (h : m.Balanced count loose) (notices : Array Notice) :
    Balanced count loose { m with notices } :=
  h.change rfl (.refl _) h.sound (Nat.le_refl _)

/-- The contents of a frame were replaced. -/
theorem setPage (h : m.Balanced count loose) (frame : Nat) (content : Page) :
    Balanced count loose { m with frames := { m.frames with
      memory := m.frames.memory.setPage frame content } } where
  pool := h.pool
  capacity := h.capacity.trans FrameMemory.size_setPage.symm
  small := FrameMemory.size_setPage.symm ▸ h.small
  spaces := h.spaces
  owner := h.owner
  aligned := h.aligned
  sound := h.sound
  windows := h.windows

/-- Frames were moved between the pool, the records and those that are loose. -/
theorem reshelve {loose' : List Nat} (h : m.Balanced count loose) {frames : FrameTable}
    (hpool : ∃ pinned, frames.pool.Accounts (frames.records.map (·.frame) ++ loose') pinned)
    (hcapacity : frames.pool.capacity = m.frames.pool.capacity) (hmemory : frames.memory = m.frames.memory)
    (hrecords : ∀ r ∈ frames.records, r.owner < count ∧ ∀ p, r.page = some p → IsAligned p) :
    Balanced count loose' { m with frames } where
  pool := hpool
  capacity := hcapacity.trans (h.capacity.trans (congrArg (·.size) hmemory.symm))
  small := hmemory.symm ▸ h.small
  spaces := h.spaces
  owner r hr := (hrecords r hr).1
  aligned r hr := (hrecords r hr).2
  sound := h.sound
  windows := h.windows

/-- A frame that is out exists. -/
theorem lt_size (h : m.Balanced count loose)
    (hout : frame ∈ m.frames.records.map (·.frame) ++ loose) : frame < m.frames.memory.size := by
  obtain ⟨pinned, hpool⟩ := h.pool
  exact h.capacity ▸ hpool.lt_capacity hout

/-- A balanced machine has all the spaces that it counts. -/
theorem getElem?_space (h : m.Balanced count loose) (hs : s < count) :
    ∃ space, m.spaces[s]? = some space :=
  ⟨_, Array.getElem?_eq_getElem (h.spaces.symm ▸ hs)⟩

/-- A loose frame is recorded. -/
theorem insert (h : m.Balanced count [frame]) (hs : s < count) {page : Option Nat}
    (hpage : ∀ p, page = some p → IsAligned p) (on : Bool) :
    ∃ table, m.frames.insert { frame, owner := s, page } on = .ok table ∧
      frame ∈ table.records.map (·.frame) ∧ Balanced count [] { m with frames := table } := by
  obtain ⟨pinned, hpool⟩ := h.pool
  obtain ⟨pool, hset⟩ := hpool.exists_setPinned (List.mem_append_right _ List.mem_cons_self) on
  obtain ⟨hcapacity, -, haccounts⟩ := hpool.setPinned hset
  refine ⟨{ m.frames with pool, records := m.frames.records ++ [⟨frame, s, page⟩] }, ?_, ?_, ?_⟩
  · rw [FrameTable.insert, hset]
  · simp
  · have hframes : (m.frames.records ++ [(⟨frame, s, page⟩ : FrameRecord)]).map (·.frame) ++ [] =
        m.frames.records.map (·.frame) ++ [frame] := by simp
    refine h.reshelve ⟨_, hframes.symm ▸ haccounts⟩ hcapacity rfl ?_
    · intro r hr
      rcases List.mem_append.mp hr with hr | hr
      · exact ⟨h.owner r hr, h.aligned r hr⟩
      · obtain rfl := List.mem_singleton.mp hr
        exact ⟨hs, hpage⟩

/-- The pool is asked for a frame: there is none, or one that is loose then. -/
theorem alloc (h : m.Balanced count []) :
    ∃ frame? pool, m.frames.pool.alloc = .ok (frame?, pool) ∧
      Balanced count frame?.toList { m with frames := { m.frames with pool } } := by
  obtain ⟨pinned, hpool⟩ := h.pool
  have hrecords : ∀ r ∈ m.frames.records, r.owner < count ∧ ∀ p, r.page = some p → IsAligned p :=
    fun r hr => ⟨h.owner r hr, h.aligned r hr⟩
  rcases hpool.alloc_cases with ⟨-, halloc⟩ | ⟨-, frame, pool, halloc⟩
  · exact ⟨none, _, halloc, h.reshelve ⟨pinned, hpool⟩ rfl rfl hrecords⟩
  · obtain ⟨hcapacity, -, haccounts⟩ := hpool.alloc halloc
    refine ⟨some frame, pool, halloc, h.reshelve ⟨pinned, ?_⟩ hcapacity rfl hrecords⟩
    refine haccounts.perm ?_ fun _ => Iff.rfl
    rw [List.append_nil]
    exact (List.perm_append_singleton _ _).symm

end Machine.Balanced

/-- An aligned page can be mapped to a frame whose number fits in an entry, unless the directory refuses. -/
theorem PageDirectory.answers_install (d : PageDirectory) {page frame : Nat} (hp : IsAligned page)
    (hframe : frame ≤ maxFrame) (writable : Bool) :
    ∃ result, d.install page frame writable = .ok result := by
  by_cases hrefusals : 0 < d.refusals
  · exact ⟨_, if_pos hrefusals⟩
  · exact d.exists_install (by omega) hp hframe writable

namespace Transition

variable {machine : Machine} {count : Nat} {s : SpaceId} {p frame : Nat}

/-! ### A victim leaves the table -/

/-- The clock hand goes round, whatever may be evicted. -/
theorem answers_visits {table : FrameTable} (visits : List Nat) (fallback : Option Nat)
    (howners : ∀ r ∈ table.records, r.owner < machine.spaces.size) :
    Answers (SecondChance.sweep (Kernel.candidates table) visits fallback) machine
      fun _ after => after.spaces.size = machine.spaces.size := by
  induction visits generalizing fallback machine with
  | nil => exact rfl
  | cons index rest ih =>
    rw [SecondChance.sweep]
    refine answers_ite (fun _ => ?_) (fun _ => ih fallback howners)
    rw [answers_bind]
    refine (answers_testAndClear index howners).mono fun accessed after hsize => ?_
    refine answers_ite (fun _ => ?_) (fun _ => hsize)
    refine (ih _ fun r hr => hsize ▸ howners r hr).mono fun _ final hfinal => ?_
    exact hfinal.trans hsize

/-- A victim is bound to an aligned page, and its frame is loose once it was taken out of the table. -/
structure Taken (count : Nat) (victim : FrameRecord) (after : Machine) : Prop where
  owner : victim.owner < count
  bound : ∃ p, victim.page = some p ∧ IsAligned p
  balanced : after.Balanced count [victim.frame]

/-- The record of a frame is taken out of the table. -/
theorem taken_removeAt (h : machine.Balanced count []) {index : Nat} {victim : FrameRecord}
    (hvictim : machine.frames.records[index]? = some victim) (hbound : victim.page.isSome = true) :
    Taken count victim { machine with
      frames := { machine.frames with clock := { hand := index } }.removeAt index } := by
  obtain ⟨front, rear, hsplit, hlength⟩ := FrameTable.exists_split_of_getElem? hvictim
  have hmem : victim ∈ machine.frames.records := List.mem_of_getElem? hvictim
  obtain ⟨p, hp⟩ := Option.isSome_iff_exists.mp hbound
  have hrecords : (FrameTable.removeAt { machine.frames with clock := { hand := index } } index).records =
      front ++ rear := by
    rw [← hlength]
    exact FrameTable.records_removeAt hsplit
  obtain ⟨pinned, hpool⟩ := h.pool
  refine ⟨h.owner victim hmem, ⟨p, hp, h.aligned victim hmem p hp⟩, ?_⟩
  refine h.reshelve ⟨pinned, ?_⟩ rfl rfl fun r hr => ?_
  · rw [hrecords]
    refine hpool.perm ?_ fun _ => Iff.rfl
    rw [hsplit, List.append_nil]
    exact FrameTable.perm_frames front rear victim
  · have hr' : r ∈ machine.frames.records := by
      rw [hrecords, List.mem_append] at hr
      rw [hsplit, List.mem_append, List.mem_cons]
      tauto
    exact ⟨h.owner r hr', h.aligned r hr'⟩

/-- The clock chooses a victim, or there is none. -/
theorem answers_chooseVictim_balanced (h : machine.Balanced count []) :
    Answers Kernel.chooseVictim machine fun outcome after =>
      match outcome with
      | .ok victim => Taken count victim after
      | .error _ => after.Balanced count [] := by
  have howners : ∀ r ∈ machine.frames.records, r.owner < machine.spaces.size := h.spaces.symm ▸ h.owner
  simp only [Kernel.chooseVictim, SecondChance.select, lift_eq, answers_bind, answers_frames]
  refine ((answers_visits _ none howners).ensures (ensures_sweep machine.frames _ none nofun)).mono ?_
  rintro choice _ ⟨hsize, ⟨spaces, rfl, hlike⟩, hchoice⟩
  have hmarked : Balanced count [] { machine with spaces } := h.within (within_of_info hsize hlike.info)
  have hclock : ∀ clock,
      Balanced count [] { machine with spaces, frames := { machine.frames with clock } } :=
    fun clock => hmarked.reshelve hmarked.pool rfl rfl fun r hr => ⟨h.owner r hr, h.aligned r hr⟩
  cases choice with
  | none =>
    simp only [takeVictim, answers_pure, answers_bind, answers_frames, Option.bind_none, answers_setFrames]
    exact hclock _
  | some index =>
    simp only [takeVictim, answers_pure, answers_bind, answers_frames, Option.bind_some]
    cases hvictim : machine.frames.records[index]? with
    | none =>
      simp only [answers_bind, answers_setFrames, answers_pure]
      exact hclock _
    | some victim =>
      simp only [answers_bind, answers_setFrames, answers_pure]
      have heligible := hchoice index rfl
      rw [FrameTable.isEligible, hvictim, Option.any_some, Bool.and_eq_true] at heligible
      exact taken_removeAt hmarked hvictim heligible.1

/-- A frame comes from the pool, or there is a victim, or neither. -/
theorem answers_findSource_balanced (h : machine.Balanced count []) :
    Answers Kernel.findSource machine fun outcome after =>
      match outcome with
      | .ok (.pool frame) => after.Balanced count [frame]
      | .ok (.page victim) => Taken count victim after
      | .error _ => after.Balanced count [] := by
  obtain ⟨frame?, pool, halloc, hasked⟩ := h.alloc
  simp only [Kernel.findSource, lookAgain, lift_eq, answers_bind, answers_frames, halloc, ofExcept,
    answers_pure, answers_setFrames]
  cases frame? with
  | some frame => exact hasked
  | none =>
    by_cases hempty : machine.frames.records.isEmpty = true
    · simp only [hempty, if_true, answers_pure]
      exact hasked
    · simp only [hempty, if_false, answers_pure, Bool.false_eq_true, answers_bind]
      refine (answers_chooseVictim_balanced hasked).mono fun outcome after hafter => ?_
      cases outcome with
      | error cause => exact hafter
      | ok victim => exact hafter

/-! ### Its page goes out -/

/-- What may be planned for a page: to discard it, or to save it by what its entry says. -/
inductive Planned (spaces : Array AddressSpace) (s : SpaceId) (p : Nat) : Plan → Prop
  | discard : Planned spaces s p .discard
  | saved (entry : PageTableEntry) (info : PageInfo)
      (hinfo : info? spaces s p = some { info with evicting := true }) :
      Planned spaces s p (.ofEntry entry info)

/-- A victim is detached, mapped or not. -/
theorem answers_detach (h : machine.Balanced count [frame]) (hs : s < count) :
    Answers (detach { frame, owner := s, page := some p }) machine fun transit after =>
      ∃ entry plan, transit = { frame, owner := s, page := p, entry, plan } ∧
        Planned after.spaces s p plan ∧ after.Balanced count [frame] := by
  have hs' : s < machine.spaces.size := h.spaces.symm ▸ hs
  refine (finishes_parted hs').answers.mono ?_
  rintro transit after ⟨entry, plan, spaces, rfl, rfl, hparted⟩
  have hcleared : Within machine.spaces (unmap machine.spaces s p) := within_onDirectory _
  refine ⟨entry, plan, rfl, ?_⟩
  cases hparted with
  | absent => exact ⟨.discard, h.within hcleared⟩
  | unwanted => exact ⟨.discard, h.within hcleared⟩
  | marked _ _ hentered =>
    exact ⟨.saved _ _ (hentered.info?_amend _),
      h.within ((hcleared.trans (within_entered hentered)).trans (within_amend fun _ => rfl))⟩

/-- The page is saved as planned, or it could not be. -/
theorem answers_writeOut_balanced (h : machine.Balanced count [frame]) {entry : Option PageTableEntry}
    {plan : Plan} (hplan : Planned machine.spaces s p plan) :
    Answers (Kernel.writeOut { frame, owner := s, page := p, entry, plan }) machine fun _ after =>
      after.Balanced count [frame] ∧ after.spaces = machine.spaces := by
  have hframe := h.lt_size (List.mem_append_right _ List.mem_cons_self)
  cases hplan with
  | discard => exact ⟨h, rfl⟩
  | saved e info hinfo =>
    have hsegment : segment? machine.spaces s p = info.segment? := by
      rw [segment?, hinfo]
      rfl
    refine ((answers_writeOut h.sound hframe fun segment hwindow =>
      h.windows s p segment (hsegment.trans hwindow)).ensures (ensures_writeOut h.sound hsegment)).mono ?_
    rintro outcome after ⟨⟨hsame, -⟩, writes, hsaved⟩
    refine ⟨h.change hsaved.frames_eq ?_ hsaved.sound hsame.files_le, hsaved.spaces_eq⟩
    rw [hsaved.spaces_eq]
    exact .refl _

/-- A page that was saved has left its frame. -/
theorem Released.balanced {copy : Option SwapCopy} {after : Machine} {loose : List Nat}
    (hreleased : Released machine s p frame copy after) (h : machine.Balanced count loose) :
    after.Balanced count loose := by
  have hwithin : Within machine.spaces after.spaces := by
    rw [hreleased.spaces_eq]
    exact within_amend fun info => info.segment?_saved copy
  constructor
  case pool =>
    rw [hreleased.pool_eq, hreleased.records_eq]
    exact h.pool
  case capacity =>
    rw [hreleased.pool_eq, hreleased.memory_eq, FrameMemory.size_setPage]
    exact h.capacity
  case small =>
    rw [hreleased.memory_eq, FrameMemory.size_setPage]
    exact h.small
  case spaces => exact hwithin.size_eq.trans h.spaces
  case owner => exact hreleased.records_eq ▸ h.owner
  case aligned => exact hreleased.records_eq ▸ h.aligned
  case sound => exact hreleased.swap_eq ▸ h.sound
  case windows =>
    intro s' p' segment hsegment
    rw [hreleased.files_eq]
    exact h.windows s' p' segment (hwithin.segment s' p' segment hsegment)

/-- The frame of a victim is cleared. -/
theorem answers_finish (h : machine.Balanced count [frame]) (hs : s < count)
    {entry : Option PageTableEntry} {plan : Plan} (hplan : Planned machine.spaces s p plan)
    (copy : Option SwapCopy) :
    Answers (finish { frame, owner := s, page := p, entry, plan } copy) machine fun _ after =>
      after.Balanced count [frame] := by
  have hframe := h.lt_size (List.mem_append_right _ List.mem_cons_self)
  cases hplan with
  | discard =>
    have hblank := h.setPage frame Page.blank
    obtain ⟨space, hspace⟩ := hblank.getElem?_space hs
    simp only [finish, if_true, answers_bind]
    refine (finishes_zero hframe ?_).answers
    refine (answers_space hspace).mpr ?_
    simp only [answers_notify]
    exact hblank.said _
  | saved e info hinfo =>
    refine (finishes_finish copy (Plan.ofEntry_ne_discard e info) hframe hinfo).answers.mono ?_
    intro _ after hreleased
    exact hreleased.balanced h

/-- The page directory of a space is replaced. -/
@[simp] theorem answers_setDirectory {d : PageDirectory} {post : Unit → Machine → Prop} :
    Answers (setDirectory s d) machine post ↔
      post () { machine with
        spaces := machine.spaces.modify s fun space => { space with directory := d } } := answers_iff rfl

/-- A mapping is made, or the page directory refuses, and either way no window is new. -/
theorem answers_install (hs : s < machine.spaces.size) (hp : IsAligned p) (hframe : frame ≤ maxFrame)
    (writable : Bool) :
    Answers (install s p frame writable) machine fun _ after =>
      ∃ spaces, after = { machine with spaces } ∧ Within machine.spaces spaces := by
  have hspace := Array.getElem?_eq_getElem hs
  obtain ⟨⟨done, d⟩, hinstall⟩ := machine.spaces[s].directory.answers_install hp hframe writable
  rw [install, answers_bind]
  refine (finishes_directory hspace ?_).answers
  simp only [hinstall, ofExcept, answers_bind, answers_pure]
  refine answers_setDirectory.mpr ⟨_, rfl, ?_⟩
  rw [modify_directory hspace fun _ => d]
  exact within_onDirectory _

/-- The dirty mark of a page is set, if the page is mapped. -/
@[simp] theorem answers_setDirty {on : Bool} {post : Unit → Machine → Prop} :
    Answers (setDirty s p on) machine post ↔
      post () { machine with
        spaces := mark machine.spaces s p fun e => { e with dirty := on } } := answers_iff rfl

/-- The entry of a page in the table is changed. -/
@[simp] theorem answers_modifyInfo {f : PageInfo → PageInfo} {post : Unit → Machine → Prop} :
    Answers (modifyInfo s p f) machine post ↔
      post () { machine with spaces := amend machine.spaces s p f } := answers_iff rfl

/-- A victim whose page could not be saved is recorded again, whether it can be mapped or not. -/
theorem answers_restore (h : machine.Balanced count [frame]) (hs : s < count) (hp : IsAligned p)
    (entry : Option PageTableEntry) (plan : Plan) :
    Answers (restore { frame, owner := s, page := p, entry, plan }) machine fun _ after =>
      after.Balanced count [] := by
  -- the record comes back on any machine that the mapping may have left
  have hrecorded : ∀ spaces, Within machine.spaces spaces →
      ∃ table, machine.frames.insert { frame, owner := s, page := some p } false = .ok table ∧
        Balanced count [] { machine with
          frames := table, spaces := amend spaces s p ({ · with evicting := false }) } := by
    intro spaces hwithin
    have hamended := h.within (hwithin.trans (within_amend (s := s) (p := p)
      (f := ({ · with evicting := false })) fun _ => rfl))
    obtain ⟨table, hinsert, -, hinserted⟩ :=
      hamended.insert hs (fun q hq => Option.some.inj hq ▸ hp) false
    exact ⟨table, hinsert, hinserted⟩
  cases entry with
  | none =>
    obtain ⟨table, hinsert, hinserted⟩ := hrecorded _ (.refl _)
    simp only [restore, answers_bind, answers_pure, answers_modifyInfo, answers_frames, hinsert, ofExcept,
      answers_setFrames]
    exact hinserted
  | some entry =>
    have hsmall := h.small
    have hframe := h.lt_size (List.mem_append_right _ List.mem_cons_self)
    simp only [restore, answers_bind]
    refine (answers_install (h.spaces.symm ▸ hs) hp (by omega) entry.writable).mono ?_
    rintro _ _ ⟨spaces, rfl, hwithin⟩
    obtain ⟨table, hinsert, hinserted⟩ :=
      hrecorded _ ((hwithin.trans (within_onDirectory _)).trans (within_onDirectory _))
    simp only [answers_setDirty, answers_setAccessed, answers_modifyInfo, answers_frames, hinsert, ofExcept,
      answers_pure, answers_setFrames]
    exact hinserted

/-- A victim is moved out and its frame is loose, or it is back. -/
theorem answers_migrate_balanced {victim : FrameRecord} (h : Taken count victim machine) :
    Answers (Kernel.migrate victim) machine fun outcome after =>
      match outcome with
      | .ok () => after.Balanced count [victim.frame]
      | .error _ => after.Balanced count [] := by
  obtain ⟨frame, s, page⟩ := victim
  obtain ⟨hs, ⟨p, hbound, hp⟩, hbalanced⟩ := h
  obtain rfl : page = some p := hbound
  simp only [Kernel.migrate, holding_eq, lift_eq, answers_bind]
  refine (answers_detach hbalanced hs).mono ?_
  rintro transit detached ⟨entry, plan, rfl, hplan, hdetached⟩
  refine (answers_writeOut_balanced hdetached hplan).mono ?_
  rintro outcome written ⟨hwritten, hspaces⟩
  cases outcome with
  | error cause =>
    simp only [answers_bind, answers_pure]
    exact answers_restore hwritten hs hp entry plan
  | ok copy =>
    simp only [answers_bind, answers_pure]
    exact answers_finish hwritten hs (hspaces ▸ hplan) copy

/-- A frame is made free and is loose then, or the eviction is refused and nothing is. -/
theorem answers_evict_balanced (h : machine.Balanced count []) :
    Answers Kernel.evict machine fun outcome after =>
      match outcome with
      | .ok (frame, _) => after.Balanced count [frame]
      | .error _ => after.Balanced count [] := by
  simp only [Kernel.evict, holding_eq, answers_bind]
  refine (answers_findSource_balanced h).mono fun outcome middle hmiddle => ?_
  cases outcome with
  | error cause => exact hmiddle
  | ok source =>
    cases source with
    | pool frame => exact hmiddle
    | page victim =>
      simp only [answers_bind]
      refine (answers_migrate_balanced hmiddle).mono fun outcome after hafter => ?_
      cases outcome with
      | error cause => exact hafter
      | ok u => exact hafter

end Transition

end DemandPaging
