import DemandPaging.Kernel.Fault
import DemandPaging.Proofs.Allocations

/-!
# Faults

What is ensured when a fault is resolved, or a stack grown (`Serviced`): the machine is settled again,
and every page holds what it held; a page that is new holds zeroes.

The three ways to bring a page in end alike. The page is mapped to a frame that was reserved for it
(`Installed`), and `Reserved.mapped` says what follows from that. `Reserved.swappedIn`,
`Reserved.loadedIn` and `Reserved.added` are what it comes to for a page from swap, for one from a
file and for a new one.
-/

set_option autoImplicit false

namespace DemandPaging

open Spaces Machine

/-- Pages were moved, with at most `n` writes to files, and nothing is on its way any more. -/
structure Serviced (away : Away) (n : Nat) (before after : Machine) : Prop where
  advance : ∃ writes, writes.length ≤ n ∧ Advance writes nothing before after
  settled : after.SettledBut away

section

variable {away : Away} {m m' m'' : Machine} {s : SpaceId} {p frame n n' : Nat}

/-- A settled machine that does not move on has been serviced. -/
theorem Serviced.refl (h : m.SettledBut away) : Serviced away 0 m m :=
  ⟨⟨[], Nat.le_refl _, .refl m⟩, h⟩

/-- Paging that ends in a settled machine is a service. -/
theorem Serviced.of_paging (h : Paging n m m') (hsettled : m'.SettledBut away) :
    Serviced away n m m' :=
  ⟨h.advance, hsettled⟩

/-- More writes may be allowed for. -/
theorem Serviced.mono (h : Serviced away n m m') (hle : n ≤ n') : Serviced away n' m m' := by
  obtain ⟨writes, hlength, hadvance⟩ := h.advance
  exact ⟨⟨writes, Nat.le_trans hlength hle, hadvance⟩, h.settled⟩

/-- The writes of two services add up. -/
theorem Serviced.trans (h : Serviced away n m m') (h' : Serviced away n' m' m'') :
    Serviced away (n + n') m m'' := by
  obtain ⟨writes, hlength, hadvance⟩ := h.advance
  obtain ⟨writes', hlength', hadvance'⟩ := h'.advance
  refine ⟨⟨writes ++ writes', ?_, hadvance.trans_nothing hadvance'⟩, h'.settled⟩
  rw [List.length_append]
  exact Nat.add_le_add hlength hlength'

/-- A page is mapped to `frame`, and of the frames only that one was filled. -/
structure Installed (before : Machine) (s : SpaceId) (p frame : Nat) (entry : PageTableEntry)
    (after : Machine) : Prop where
  elsewhere : Elsewhere before.spaces after.spaces s p
  mapped : mapped? after.spaces s p = some entry
  number : entry.frame.toNat = frame
  records_eq : after.frames.records = before.frames.records
  pool_eq : after.frames.pool = before.frames.pool
  size_eq : after.frames.memory.size = before.frames.memory.size
  limit_eq : after.stackLimit = before.stackLimit
  written : Files.Written [] before.spaces before.files after.files
  memory : ∀ f k, f ≠ frame → after.frames.memory.byte? f k = before.frames.memory.byte? f k
  disk_eq : after.swap.device.disk = before.swap.device.disk

/-- The page stays mapped as long as its space is left alone. -/
theorem Installed.isSome {entry : PageTableEntry} (h : Installed m s p frame entry m')
    (hspaces : m''.spaces = m'.spaces) : (mapped? m''.spaces s p).isSome = true := by
  rw [hspaces, h.mapped, Option.isSome_some]

/-- A page is mapped to the frame that was reserved for it. If its entry fits and the slots are
accounted for, the machine is coherent; and if the page holds what it held, or zeroes if it is new,
this is paging. -/
theorem Reserved.mapped (h : Reserved away s p frame m) {entry : PageTableEntry}
    (hi : Installed m s p frame entry m') (hp : IsAligned p) (huser : pageSize ≤ p ∧ IsUser p)
    (hlive : IsLive m.spaces s) (hunmapped : mapped? m.spaces s p = none)
    (hnot : away.page ≠ some (s, p))
    (hfits : ∀ info, info? m'.spaces s p = some info → Fits m'.spaces s p info)
    (haccounted : Accounted away.slots m'.spaces m'.swap.slots)
    (hsegment : segment? m'.spaces s p = segment? m.spaces s p)
    (hfresh : ¬ m.Known s p → ∀ k, k < pageSize → m'.Holds s p k 0)
    (hholds : ∀ k b, k < pageSize → m.Holds s p k b → m'.Holds s p k b) :
    Coherent away m'.frames.records [] [frame] m' ∧ Advance [] nothing m m' := by
  have hframe : frame? m'.spaces s p = some frame := by
    rw [frame?, hi.mapped, Option.map_some, hi.number]
  constructor
  · obtain ⟨front, rear, hsplit, hcoherent⟩ := h
    rw [hi.records_eq, hsplit]
    refine ⟨?_, ?_, ?_, ?_, haccounted, ?_⟩
    · rw [hi.pool_eq]
      refine hcoherent.pool.perm ?_ fun _ => Iff.rfl
      have hperm := FrameTable.perm_frames front rear ⟨frame, s, some p⟩
      simpa using (hperm.append_right away.frames).symm
    · rw [hi.pool_eq, hi.size_eq, hcoherent.capacity]
    · refine hcoherent.tracked.map hi.elsewhere ?_ hframe hp huser fun r => ?_
      · rw [frame?, hunmapped, Option.map_none]
      · rw [List.perm_middle.mem_iff, List.mem_cons, or_comm]
    · exact hcoherent.described.update hi.elsewhere hnot hfits
    · exact hcoherent.live.update hi.elsewhere hlive
  · refine .of_page hp hi.limit_eq hi.elsewhere hi.written ?_ ?_ ?_ hsegment ?_ ?_ ?_
    · intro s' p' f k hp' _ hf
      refine hi.memory f k ?_
      rintro rfl
      exact h.frame?_ne hp' hf
    · intro s' p' copy k _ _ _
      rw [hi.disk_eq]
    · intro s' p' segment k _ _ _
      exact hi.written.windowByte List.not_mem_nil k
    · intro _
      exact .inl (by rw [hi.mapped, Option.isSome_some])
    · intro _ hunknown
      exact hfresh hunknown
    · intro k b hk _
      exact hholds k b hk

end

namespace PageInfo

/-- A page that came back from swap keeps its entry if it has a file. -/
theorem movedIn?_of_segment? {info : PageInfo} {segment : Segment}
    (h : info.segment? = some segment) :
    ∃ info', info.movedIn? = some info' ∧ info'.segment? = some segment ∧ info'.copy? = none ∧
      info'.resident = true ∧ info'.evicting = info.evicting := by
  unfold segment? at h
  unfold movedIn?
  cases hbacking : info.backing <;> rw [hbacking] at h <;> cases h <;>
    exact ⟨_, rfl, rfl, rfl, rfl, rfl⟩

/-- A page without a file has no entry left once it came back from swap. -/
theorem movedIn?_of_none {info : PageInfo} (h : info.segment? = none) : info.movedIn? = none := by
  unfold segment? at h
  unfold movedIn?
  cases hbacking : info.backing with
  | file segment =>
    rw [hbacking] at h
    cases h
  | swap copy => rfl
  | fileThenSwap segment copy =>
    rw [hbacking] at h
    cases h
  | anonymous => rfl

/-- What is left of the entry of a page that came back from swap knows the file and no slot. -/
theorem movedIn?_bind_segment? (info : PageInfo) :
    info.movedIn?.bind (·.segment?) = info.segment? := by
  cases hsegment : info.segment? with
  | none => rw [movedIn?_of_none hsegment, Option.bind_none]
  | some segment =>
    obtain ⟨info', hmoved, hsegment', -⟩ := movedIn?_of_segment? hsegment
    rw [hmoved, Option.bind_some, hsegment']

/-- What is left of the entry of a page that came back from swap has no slot. -/
theorem movedIn?_bind_copy? (info : PageInfo) : info.movedIn?.bind (·.copy?) = none := by
  cases hsegment : info.segment? with
  | none => rw [movedIn?_of_none hsegment, Option.bind_none]
  | some segment =>
    obtain ⟨info', hmoved, -, hcopy, -⟩ := movedIn?_of_segment? hsegment
    rw [hmoved, Option.bind_some, hcopy]

end PageInfo

section

variable {away : Away} {m m' : Machine} {s : SpaceId} {p frame : Nat} {entry : PageTableEntry}
  {info : PageInfo}

/-- A page is back from its swap slot, and the slot is free. If the page has a file, it counts as
changed. -/
theorem Reserved.swappedIn (h : Reserved away s p frame m) (hi : Installed m s p frame entry m')
    (huser : pageSize ≤ p ∧ IsUser p) (hunmapped : mapped? m.spaces s p = none)
    (hinfo : info? m.spaces s p = some info) {copy : SwapCopy} (hcopy : info.copy? = some copy)
    (hdirty : entry.dirty = false → info.segment? = none)
    (hinfo' : info? m'.spaces s p = info.movedIn?) (hsound : m'.swap.slots.Sound)
    (hslots : ∀ x, m'.swap.slots.isUsed x =
      (m.swap.slots.isUsed x && decide (x ≠ copy.slot)))
    (hbytes : ∀ k, k < pageSize →
      m'.frames.memory.byte? frame k = some (m.swap.device.disk.slotByte copy.slot k)) :
    Coherent away m'.frames.records [] [frame] m' ∧ Advance [] nothing m m' := by
  obtain ⟨front, rear, -, hcoherent⟩ := id h
  have hbefore : copy? m.spaces s p = some copy := by rw [copy?, hinfo, Option.bind_some, hcopy]
  have hnot : away.page ≠ some (s, p) := hcoherent.described.ne_of_copy? hbefore
  have hfits := hcoherent.described.fits s p info hinfo hnot
  have hafter : copy? m'.spaces s p = none := by
    rw [copy?, hinfo', PageInfo.movedIn?_bind_copy?]
  have hsegment : segment? m'.spaces s p = info.segment? := by
    rw [segment?, hinfo', PageInfo.movedIn?_bind_segment?]
  refine h.mapped hi hfits.aligned huser (hcoherent.live.isLive_of_info? hinfo) hunmapped hnot
    (fun i hmoved => ?_) (hcoherent.accounted.lose hi.elsewhere hbefore hafter hsound hslots) ?_
    (fun hunknown => ?_) fun k b hk hb => ?_
  · rw [hinfo'] at hmoved
    cases hfile : info.segment? with
    | none =>
      rw [PageInfo.movedIn?_of_none hfile] at hmoved
      cases hmoved
    | some segment =>
      obtain ⟨info', hmoved', -, hnone, hresident, hevicting⟩ :=
        PageInfo.movedIn?_of_segment? hfile
      obtain rfl : info' = i := Option.some.inj (hmoved'.symm.trans hmoved)
      refine ⟨hfits.aligned, hevicting.trans hfits.evicting, ?_, fun _ => hnone, fun _ _ _ => hnone⟩
      rw [hresident, frame?, hi.mapped, Option.map_some, Option.isSome_some]
  · rw [hsegment, segment?, hinfo, Option.bind_some]
  · exact absurd (.inr (by rw [hinfo, Option.isSome_some])) hunknown
  · rw [holds_of_copy hunmapped hbefore] at hb
    rw [holds_of_mapped hi.mapped, hi.number, hsegment]
    refine ⟨(hbytes k hk).trans (congrArg some hb), fun hclean segment hfile => ?_⟩
    rw [hdirty hclean] at hfile
    cases hfile

/-- A page is loaded from its file. -/
theorem Reserved.loadedIn (h : Reserved away s p frame m) (hi : Installed m s p frame entry m')
    (huser : pageSize ≤ p ∧ IsUser p) (hunmapped : mapped? m.spaces s p = none)
    (hnot : away.page ≠ some (s, p))
    (hinfo : info? m.spaces s p = some info) (hcopy : info.copy? = none) {segment : Segment}
    (hsegment : info.segment? = some segment)
    (hinfo' : info? m'.spaces s p = some { info with resident := true })
    (hslots : m'.swap.slots = m.swap.slots)
    (hbytes : ∀ k, k < pageSize →
      m'.frames.memory.byte? frame k = some (Files.windowByte m'.files segment k)) :
    Coherent away m'.frames.records [] [frame] m' ∧ Advance [] nothing m m' := by
  obtain ⟨front, rear, -, hcoherent⟩ := id h
  have hfits := hcoherent.described.fits s p info hinfo hnot
  have hbefore : copy? m.spaces s p = none := by rw [copy?, hinfo, Option.bind_some, hcopy]
  have hafter : copy? m'.spaces s p = none := by
    rw [copy?, hinfo', Option.bind_some]
    exact hcopy
  have hsegment' : segment? m.spaces s p = some segment := by
    rw [segment?, hinfo, Option.bind_some, hsegment]
  have hsegment'' : segment? m'.spaces s p = some segment := by
    rw [segment?, hinfo', Option.bind_some]
    exact hsegment
  have hwindow : ∀ k, Files.windowByte m'.files segment k = Files.windowByte m.files segment k :=
    hi.written.windowByte List.not_mem_nil
  have haccounted : Accounted away.slots m'.spaces m'.swap.slots := by
    rw [hslots]
    exact hcoherent.accounted.keep hi.elsewhere (hafter.trans hbefore.symm)
  refine h.mapped hi hfits.aligned huser (hcoherent.live.isLive_of_info? hinfo) hunmapped
    hnot (fun i hloaded => ?_) haccounted (hsegment''.trans hsegment'.symm) (fun hunknown => ?_)
    fun k b hk hb => ?_
  · obtain rfl : { info with resident := true } = i :=
      Option.some.inj (hinfo'.symm.trans hloaded)
    refine ⟨hfits.aligned, hfits.evicting, ?_, fun _ => hcopy, fun _ _ _ => hcopy⟩
    rw [frame?, hi.mapped, Option.map_some, Option.isSome_some]
  · exact absurd (.inr (by rw [hinfo, Option.isSome_some])) hunknown
  · rw [holds_of_file hunmapped hbefore] at hb
    obtain ⟨other, hother, hbyte⟩ := hb
    obtain rfl : segment = other := Option.some.inj (hsegment'.symm.trans hother)
    rw [holds_of_mapped hi.mapped, hi.number]
    refine ⟨(hbytes k hk).trans (congrArg some ((hwindow k).trans hbyte)), fun _ other hother => ?_⟩
    obtain rfl : segment = other := Option.some.inj (hsegment''.symm.trans hother)
    exact (hwindow k).trans hbyte

/-- A page that had no entry is mapped, all zero. -/
theorem Reserved.added (h : Reserved away s p frame m) (hi : Installed m s p frame entry m')
    (hp : IsAligned p) (huser : pageSize ≤ p ∧ IsUser p) (hlive : IsLive m.spaces s)
    (hunmapped : mapped? m.spaces s p = none) (hinfo : info? m.spaces s p = none)
    (hinfo' : info? m'.spaces s p = none) (hslots : m'.swap.slots = m.swap.slots)
    (hzero : ∀ k, k < pageSize → m'.frames.memory.byte? frame k = some 0) :
    Coherent away m'.frames.records [] [frame] m' ∧ Advance [] nothing m m' := by
  obtain ⟨front, rear, -, hcoherent⟩ := id h
  have hnone : ∀ spaces : Array AddressSpace, info? spaces s p = none →
      copy? spaces s p = none ∧ segment? spaces s p = none := by
    intro spaces hspaces
    rw [copy?, segment?, hspaces]
    exact ⟨rfl, rfl⟩
  obtain ⟨hbefore, hsegment⟩ := hnone m.spaces hinfo
  obtain ⟨hafter, hsegment'⟩ := hnone m'.spaces hinfo'
  have haccounted : Accounted away.slots m'.spaces m'.swap.slots := by
    rw [hslots]
    exact hcoherent.accounted.keep hi.elsewhere (hafter.trans hbefore.symm)
  refine h.mapped hi hp huser hlive hunmapped (hcoherent.described.ne_of_info? hinfo)
    (fun i hsome => ?_) haccounted
    (hsegment'.trans hsegment.symm) (fun _ k hk => ?_) fun k b _ hb => ?_
  · rw [hinfo'] at hsome
    cases hsome
  · rw [holds_of_mapped hi.mapped, hi.number, hsegment']
    exact ⟨hzero k hk, fun _ _ hfile => by cases hfile⟩
  · rw [holds_of_file hunmapped hbefore, hsegment] at hb
    obtain ⟨segment, hfile, -⟩ := hb
    cases hfile

/-- A page was mapped to a frame of zeroes that was reserved for it, whatever its entry says. -/
structure Grown (away : Away) (before : Machine) (s : SpaceId) (p : Nat) (middle : Machine)
    (frame : Nat) (entry : PageTableEntry) (after : Machine) : Prop where
  paging : Paging 1 before middle
  live : IsLive middle.spaces s
  unmapped : mapped? before.spaces s p = none
  reserved : Reserved away s p frame middle
  installed : Installed middle s p frame entry
    { middle with spaces := map middle.spaces s p entry }
  zero : ∀ k, k < pageSize → middle.frames.memory.byte? frame k = some 0
  after_eq : ∃ pool notices, middle.frames.pool.setPinned frame false = .ok pool ∧
    after = { middle with
      spaces := map middle.spaces s p entry, frames := { middle.frames with pool }, notices }

/-- A new page that had no entry is a page of the stack. -/
theorem Grown.serviced {middle : Machine} (h : Grown away m s p middle frame entry m')
    (hp : IsAligned p) (huser : pageSize ≤ p ∧ IsUser p) (hinfo : info? m.spaces s p = none) :
    Serviced away 1 m m' := by
  obtain ⟨hunmapped, hinfo'⟩ := h.paging.absent s p hp h.unmapped
  rw [hinfo] at hinfo'
  obtain ⟨hcoherent, hadvance⟩ := h.reserved.added h.installed hp huser h.live hunmapped hinfo'
    (info?_map.trans hinfo') rfl h.zero
  obtain ⟨writes, hlength, hpaging⟩ := h.paging.advance
  obtain ⟨pool, notices, hpool, rfl⟩ := h.after_eq
  refine ⟨⟨writes ++ [] ++ [], by simpa using hlength,
    (hpaging.trans_nothing hadvance).trans_nothing ?_⟩, ?_⟩
  · exact .of_spaces rfl rfl (.refl _ _) (fun _ _ _ _ _ _ => rfl) fun _ _ _ _ _ _ => rfl
  · exact Coherent.congr (Transition.settled_of_unpinned hcoherent hpool) rfl rfl rfl rfl

end

namespace Transition

variable {machine : Machine} {away : Away} {s : SpaceId} {p frame : Nat}

/-- A page was mapped, and its frame may be evicted again. -/
theorem ensures_unpinned {before reserved : Machine} {n : Nat} (hpaging : Paging n before reserved)
    (hreserved : Reserved away s p frame reserved) {entry : PageTableEntry}
    (hinstalled : Installed reserved s p frame entry machine)
    (hmapped : Coherent away machine.frames.records [] [frame] machine ∧
      Advance [] nothing reserved machine) :
    Ensures (Kernel.unpin frame) machine fun _ after => after.spaces = machine.spaces ∧
      ∀ notices, Serviced away n before { after with notices } := by
  obtain ⟨hcoherent, hadvance⟩ := hmapped
  obtain ⟨writes, hlength, hbefore⟩ := hpaging.advance
  simp only [Kernel.unpin, holding_eq, lift_eq]
  have hmem : frame ∈ machine.frames.records.map (·.frame) := by
    rw [hinstalled.records_eq]
    exact hreserved.mem
  refine (ensures_unpin hcoherent hmem).mono ?_
  rintro _ _ ⟨⟨pool, rfl⟩, hsettled⟩
  refine ⟨rfl, fun notices => ?_⟩
  refine ⟨⟨writes ++ [] ++ [], by simpa using hlength,
    (hbefore.trans_nothing hadvance).trans_nothing ?_⟩, ?_⟩
  · exact .of_spaces rfl rfl (.refl _ _) (fun _ _ _ _ _ _ => rfl) fun _ _ _ _ _ _ => rfl
  · exact Coherent.congr hsettled rfl rfl rfl rfl

/-- A frame that could not be used for its page goes back. -/
theorem ensures_returned {before : Machine} {n : Nat} (hpaging : Paging n before machine)
    (hreserved : Reserved away s p frame machine) :
    Ensures (Kernel.free frame) machine fun _ after => Serviced away n before after := by
  simp only [Kernel.free, holding_eq, lift_eq]
  refine (ensures_free hreserved).mono ?_
  rintro _ _ ⟨⟨frames, rfl, hmemory⟩, hsettled⟩
  have hfreed : Paging 0 machine { machine with frames } :=
    .of_spaces rfl rfl (.refl _ _) (fun _ _ _ _ _ _ => by rw [hmemory]) fun _ _ _ _ _ _ => rfl
  exact .of_paging (hpaging.trans hfreed) hsettled

/-! ### Pages from swap -/

/-- The entry of a page is brought up to date once the page is in memory again, in the tables from `before` to
those at the end. There is none any more if the page has no other place. -/
inductive MovedIn (before : Array AddressSpace) (s : SpaceId) (p : Nat) : Array AddressSpace → Prop
  | kept {info : PageInfo} (hinfo : (info? before s p).bind (·.movedIn?) = some info) :
      MovedIn before s p (amend before s p fun _ => info)
  | dropped (hinfo : (info? before s p).bind (·.movedIn?) = none) : MovedIn before s p (drop before s p)

section

variable {before made : Array AddressSpace}

/-- Only the entry of the page itself is brought up to date. -/
theorem MovedIn.elsewhere (h : MovedIn before s p made) : Elsewhere before made s p := by
  cases h with
  | kept => exact elsewhere_amend
  | dropped => exact elsewhere_drop

/-- To bring an entry of the table up to date leaves the directory. -/
theorem MovedIn.mapped?_eq (h : MovedIn before s p made) : mapped? made s p = mapped? before s p := by
  cases h with
  | kept => exact mapped?_amend
  | dropped => exact mapped?_drop

/-- The entry is what is left of the old one, and there is none if nothing is left. -/
theorem MovedIn.info?_eq (h : MovedIn before s p made) :
    info? made s p = (info? before s p).bind (·.movedIn?) := by
  cases h with
  | kept hinfo =>
    obtain ⟨old, hold, -⟩ := Option.bind_eq_some_iff.mp hinfo
    rw [info?_amend, if_pos ⟨rfl, rfl⟩, hinfo, hold, Option.map_some]
  | dropped hinfo => rw [info?_drop, if_pos ⟨rfl, rfl⟩, hinfo]

/-- No space comes or goes. -/
theorem MovedIn.size_eq (h : MovedIn before s p made) : made.size = before.size := by
  cases h with
  | kept => exact size_onSupplement
  | dropped => exact size_onSupplement

end

/-- The entry of a page from swap is settled, and the page is marked as changed if it has a file. Then its
slot is given back. -/
theorem exists_movedIn (hs : s < machine.spaces.size) (copy : SwapCopy) (fileBacked : Bool) :
    ∃ made, MovedIn machine.spaces s p made ∧
      settleSwapIn s p copy fileBacked machine = releaseSlot copy.slot { machine with
        spaces := if fileBacked then mark made s p ({ · with dirty := true }) else made } := by
  have hspace := Array.getElem?_eq_getElem hs
  cases hmoved : (info? machine.spaces s p).bind (·.movedIn?) with
  | some info =>
    refine ⟨_, .kept hmoved, ?_⟩
    rw [info?_eq hspace] at hmoved
    rw [settleSwapIn, run_bind (run_supplement hspace), hmoved, amend,
      ← modify_supplement hspace fun table => table.modify p fun _ => info]
    cases fileBacked <;> rfl
  | none =>
    refine ⟨_, .dropped hmoved, ?_⟩
    rw [info?_eq hspace] at hmoved
    rw [settleSwapIn, run_bind (run_supplement hspace), hmoved, drop,
      ← modify_supplement hspace fun table => table.erase p]
    cases fileBacked <;> rfl

/-- The entry of a page that came back from swap is brought up to date and its slot given back. A page
with a file counts as changed. -/
theorem ensures_settleSwapIn {info : PageInfo} {copy : SwapCopy} {entry : PageTableEntry}
    (hp : IsAligned p) (hinfo : info? machine.spaces s p = some info)
    (hentry : mapped? machine.spaces s p = some entry) (hsound : machine.swap.slots.Sound)
    (hused : machine.swap.slots.isUsed copy.slot = true) :
    Ensures (settleSwapIn s p copy info.segment?.isSome) machine fun _ after =>
      ∃ spaces slots entry', after = { machine with spaces, swap := { machine.swap with slots } } ∧
        Elsewhere machine.spaces spaces s p ∧ mapped? spaces s p = some entry' ∧
        entry'.frame = entry.frame ∧ (entry'.dirty = false → info.segment? = none) ∧
        info? spaces s p = info.movedIn? ∧ slots.Sound ∧
        ∀ x, slots.isUsed x = (machine.swap.slots.isUsed x && decide (x ≠ copy.slot)) := by
  obtain ⟨made, hmoved, hrun⟩ :=
    exists_movedIn (p := p) (lt_size_of_info? hinfo) copy info.segment?.isSome
  have hmade : info? made s p = info.movedIn? := by
    rw [hmoved.info?_eq, hinfo, Option.bind_some]
  have hmapped : mapped? made s p = some entry := hmoved.mapped?_eq.trans hentry
  rw [Ensures, hrun]
  refine ensures_releaseSlot hsound hused fun slots hsound' hothers => ?_
  cases info.segment? with
  | some segment =>
    exact ⟨_, slots, { entry with dirty := true }, rfl, hmoved.elsewhere.trans (elsewhere_mark hp),
      mapped?_mark_self hmapped, rfl, nofun, info?_mark.trans hmade, hsound', hothers⟩
  | none =>
    exact ⟨made, slots, entry, rfl, hmoved.elsewhere, hmapped, rfl, fun _ => rfl, hmade, hsound', hothers⟩

/-- A page is brought back from its swap slot, or stays there. -/
theorem ensures_loadFromSwap (h : machine.SettledBut away) (hp : IsAligned p)
    (huser : pageSize ≤ p ∧ IsUser p) {info : PageInfo} {copy : SwapCopy}
    (hinfo : info? machine.spaces s p = some info) (hcopy : info.copy? = some copy)
    (address : Nat) :
    Ensures (Kernel.loadFromSwap s p copy info.segment?.isSome address) machine
      fun outcome after => Serviced away 1 machine after ∧
        (outcome = .ok () → (mapped? after.spaces s p).isSome = true) := by
  have hcopy' : copy? machine.spaces s p = some copy := by
    rw [copy?, hinfo, Option.bind_some, hcopy]
  have hfits := h.described.fits s p info hinfo (h.described.ne_of_copy? hcopy')
  have hunmapped := hfits.unmapped (hfits.resident_eq_false hcopy)
  simp only [Kernel.loadFromSwap, holding_eq, lift_eq, ensures_bind]
  refine (ensures_allocateFor h s p false).mono ?_
  rintro outcome reserved ⟨hpaging, houtcome⟩
  cases outcome with
  | error cause =>
    rw [ensures_pure]
    exact ⟨.of_paging hpaging houtcome, fun hok => by cases hok⟩
  | ok frame =>
    obtain ⟨hreserved, -⟩ := houtcome
    obtain ⟨hunmapped', hinfo'⟩ := hpaging.absent s p hp hunmapped
    rw [hinfo] at hinfo'
    obtain ⟨front, rear, -, hcoherent⟩ := id hreserved
    simp only [ensures_bind]
    refine (ensures_readSlot copy.slot frame).mono ?_
    rintro outcome _ ⟨device, memory, notices, rfl, hdisk, hsize, hothers, hloaded⟩
    have hfilling : Paging 0 reserved { reserved with
        swap := { reserved.swap with device }, frames := { reserved.frames with memory }
        notices } := hreserved.paging rfl rfl (.refl _ _) hothers hdisk
    cases outcome with
    | error cause =>
      simp only [ensures_bind, ensures_pure]
      refine (ensures_returned (hpaging.trans hfilling)
        (hreserved.congr rfl rfl hsize rfl rfl)).mono fun _ after hafter => ?_
      exact ⟨hafter, fun hok => by cases hok⟩
    | ok u =>
      simp only [ensures_bind]
      refine ensures_install_unmapped (hcoherent.live.refusals s) hunmapped' fun entry hlt hnumber =>
        ?_
      rw [if_pos rfl]
      simp only [ensures_bind]
      have hmap := @mapped?_map reserved.spaces s p s p entry hlt
      rw [if_pos ⟨rfl, rfl⟩] at hmap
      have hused : reserved.swap.slots.isUsed copy.slot = true := by
        have hcopy'' : copy? reserved.spaces s p = some copy := by
          rw [copy?, hinfo', Option.bind_some, hcopy]
        exact hcoherent.accounted.isUsed hcopy''
      have hsettle := @ensures_settleSwapIn { reserved with
          swap := { reserved.swap with device }, frames := { reserved.frames with memory }
          notices, spaces := map reserved.spaces s p entry } s p info copy entry hp
        (info?_map.trans hinfo') hmap hcoherent.accounted.sound hused
      refine hsettle.mono ?_
      rintro _ _ ⟨spaces, slots, entry', rfl, he, hentry', hframe', hdirty', hinfo'', hsound, hslots⟩
      have hinstalled : Installed reserved s p frame entry' { reserved with
          spaces, swap := { reserved.swap with device, slots }
          frames := { reserved.frames with memory }, notices } :=
        ⟨(elsewhere_map hp hlt).trans he, hentry', (congrArg BitVec.toNat hframe').trans hnumber,
          rfl, rfl, hsize, rfl, .refl _ _, hothers, hdisk⟩
      have hmapped := hreserved.swappedIn hinstalled huser hunmapped' hinfo' hcopy hdirty' hinfo''
        hsound hslots (hloaded rfl)
      refine (ensures_unpinned hpaging hreserved hinstalled hmapped).mono fun _ after hafter => ?_
      simp only [ensures_space, ensures_notify, ensures_pure]
      intro _ _
      exact ⟨hafter.2 _, fun _ => hinstalled.isSome hafter.1⟩

/-! ### Pages from files -/

/-- A page is loaded from its file, or stays there. -/
theorem ensures_loadFromFile (h : machine.SettledBut away) (hp : IsAligned p)
    (huser : pageSize ≤ p ∧ IsUser p) (hnot : away.page ≠ some (s, p)) {info : PageInfo}
    {segment : Segment} (hinfo : info? machine.spaces s p = some info)
    (hresident : info.resident = false)
    (hcopy : info.copy? = none) (hsegment : info.segment? = some segment) (address : Nat) :
    Ensures (Kernel.loadFromFile s p segment address) machine
      fun outcome after => Serviced away 1 machine after ∧
        (outcome = .ok () → (mapped? after.spaces s p).isSome = true) := by
  have hunmapped := (h.described.fits s p info hinfo hnot).unmapped hresident
  simp only [Kernel.loadFromFile, holding_eq, lift_eq, ensures_bind]
  refine (ensures_allocateFor h s p false).mono ?_
  rintro outcome reserved ⟨hpaging, houtcome⟩
  cases outcome with
  | error cause =>
    rw [ensures_pure]
    exact ⟨.of_paging hpaging houtcome, fun hok => by cases hok⟩
  | ok frame =>
    obtain ⟨hreserved, -⟩ := houtcome
    obtain ⟨hunmapped', hinfo'⟩ := hpaging.absent s p hp hunmapped
    rw [hinfo] at hinfo'
    obtain ⟨front, rear, -, hcoherent⟩ := id hreserved
    simp only [ensures_bind]
    refine (ensures_readIn reserved.spaces frame segment).mono ?_
    rintro outcome _ ⟨files, memory, rfl, hwritten, hsize, hothers, hloaded⟩
    have hfilling : ∀ notices, Paging 0 reserved { reserved with
        files, frames := { reserved.frames with memory }, notices } := fun notices =>
      hreserved.paging rfl rfl hwritten hothers rfl
    refine ensures_ite (fun hshort => ?_) (fun hall => ?_)
    · simp only [ensures_bind, ensures_space, ensures_notify, ensures_pure]
      intro _ _
      refine (ensures_returned (hpaging.trans (hfilling _))
        (hreserved.congr rfl rfl hsize rfl rfl)).mono fun _ after hafter => ?_
      exact ⟨hafter, fun hok => by cases hok⟩
    · simp only [ensures_bind]
      refine ensures_install_unmapped (hcoherent.live.refusals s) hunmapped' fun entry hlt hnumber =>
        ?_
      rw [if_pos rfl]
      simp only [ensures_bind, ensures_modifyInfo]
      have hentry : mapped? (amend (map reserved.spaces s p entry) s p ({ · with resident := true }))
          s p = some entry := by
        rw [mapped?_amend, mapped?_map hlt, if_pos ⟨rfl, rfl⟩]
      have hinfo'' : info? (amend (map reserved.spaces s p entry) s p ({ · with resident := true }))
          s p = some { info with resident := true } := by
        rw [info?_amend, info?_map, hinfo']
        simp
      have hinstalled : Installed reserved s p frame entry { reserved with
          files, frames := { reserved.frames with memory }
          spaces := amend (map reserved.spaces s p entry) s p ({ · with resident := true }) } :=
        ⟨(elsewhere_map hp hlt).trans elsewhere_amend, hentry, hnumber, rfl, rfl, hsize, rfl,
          hwritten, hothers, rfl⟩
      have hmapped := hreserved.loadedIn hinstalled huser hunmapped' hnot hinfo' hcopy hsegment
        hinfo'' rfl (hloaded (not_not.mp hall))
      refine (ensures_unpinned hpaging hreserved hinstalled hmapped).mono fun _ after hafter => ?_
      simp only [ensures_space, ensures_notify, ensures_pure]
      intro _ _
      exact ⟨hafter.2 _, fun _ => hinstalled.isSome hafter.1⟩

/-! ### New pages of a stack -/

/-- A page that is not mapped is mapped, all zero, or there is no room for it. -/
theorem ensures_addStackPage_any (h : machine.SettledBut away) (hp : IsAligned p) :
    Ensures (Kernel.addStackPage s p) machine fun outcome after =>
      match outcome with
      | .ok () => ∃ reserved frame entry, Grown away machine s p reserved frame entry after
      | .error _ => Paging 1 machine after ∧ after.SettledBut away := by
  have hrefused : Paging 1 machine machine ∧ machine.SettledBut away :=
    ⟨(Paging.refl machine).mono (Nat.zero_le _), h⟩
  simp only [Kernel.addStackPage, lift_eq, ensures_bind, ensures_kernelSupplement]
  intro space hspace
  refine ensures_ite (fun _ => hrefused) (fun hdestroyed => ?_)
  simp only [ensures_bind, ensures_findEntry]
  intro _ _
  refine ensures_ite (fun _ => hrefused) (fun hsome => ?_)
  have hunmapped := Option.not_isSome_iff_eq_none.mp hsome
  simp only [ensures_bind]
  refine (ensures_allocateFor h s p true).mono ?_
  rintro outcome reserved ⟨hpaging, houtcome⟩
  cases outcome with
  | error cause => exact ⟨hpaging, houtcome⟩
  | ok frame =>
    obtain ⟨hreserved, hzero⟩ := houtcome
    have hlive : IsLive reserved.spaces s := by
      intro standing hstanding
      rw [hpaging.standing s, standing?_eq hspace, Option.some.injEq] at hstanding
      rw [← hstanding]
      exact Bool.eq_false_iff.mpr hdestroyed
    obtain ⟨front, rear, hrecords, hcoherent⟩ := id hreserved
    simp only [ensures_bind]
    refine ensures_install_unmapped (hcoherent.live.refusals s)
      (hpaging.absent s p hp hunmapped).1 fun entry hlt hnumber => ?_
    rw [if_pos rfl]
    simp only [Kernel.unpin, holding_eq, lift_eq, ensures_bind]
    have hentry : mapped? (map reserved.spaces s p entry) s p = some entry := by
      rw [mapped?_map hlt, if_pos ⟨rfl, rfl⟩]
    have hinstalled : Installed reserved s p frame entry { reserved with
        spaces := map reserved.spaces s p entry } :=
      ⟨elsewhere_map hp hlt, hentry, hnumber, rfl, rfl, rfl, rfl, .refl _ _,
        fun _ _ _ => rfl, rfl⟩
    have hmem : (⟨frame, s, some p⟩ : FrameRecord) ∈ reserved.frames.records := by
      simp [hrecords]
    refine (@ensures_unpin_recorded { reserved with
      spaces := map reserved.spaces s p entry } _ hmem).mono ?_
    rintro _ _ ⟨pool, hpool, rfl⟩
    simp only [ensures_space, ensures_notify, ensures_pure]
    intro _ _
    exact ⟨reserved, frame, entry, hpaging, hlive, hunmapped, hreserved, hinstalled, hzero rfl,
      pool, _, hpool, rfl⟩

/-- A page that has no entry is mapped, all zero, or there is no room for it. -/
theorem ensures_addStackPage (h : machine.SettledBut away) (hp : IsAligned p)
    (huser : pageSize ≤ p ∧ IsUser p) (hinfo : info? machine.spaces s p = none) :
    Ensures (Kernel.addStackPage s p) machine fun outcome after => Serviced away 1 machine after ∧
      (outcome = .ok () → (mapped? after.spaces s p).isSome = true) := by
  refine (ensures_addStackPage_any h hp).mono fun outcome after hafter => ?_
  cases outcome with
  | error cause => exact ⟨.of_paging hafter.1 hafter.2, fun hok => by cases hok⟩
  | ok u =>
    obtain ⟨reserved, frame, entry, hgrown⟩ := hafter
    refine ⟨hgrown.serviced hp huser hinfo, fun _ => ?_⟩
    obtain ⟨pool, notices, -, rfl⟩ := hgrown.after_eq
    exact hgrown.installed.isSome rfl

/-! ### Resolving a fault -/

/-- The page of a user address that is not in the first page. -/
theorem userPage_pageOf {address : Nat} (huser : IsUser address) (hge : pageSize ≤ address) :
    pageSize ≤ pageOf address ∧ IsUser (pageOf address) := by
  simp only [pageOf, IsUser, kernelBase, pageSize] at *
  omega

/-- The page is brought in, or it is added to the stack, or the access is invalid. -/
theorem ensures_resolveIn (h : machine.SettledBut away) {address : Nat} (huser : IsUser address)
    (hge : pageSize ≤ address) (s : SpaceId) (stackPointer rounds : Nat) :
    Ensures (Kernel.resolveIn s address stackPointer rounds) machine
      fun outcome after => Serviced away 1 machine after ∧
        (outcome = .ok () → (mapped? after.spaces s (pageOf address)).isSome = true) := by
  have hrefl : Serviced away 1 machine machine := (Serviced.refl h).mono (Nat.zero_le _)
  have hrefused : ∀ cause : FaultError, Ensures (pure (.error cause)) machine
      fun (outcome : Except FaultError Unit) after => Serviced away 1 machine after ∧
        (outcome = .ok () → (mapped? after.spaces s (pageOf address)).isSome = true) :=
    fun _ => ⟨hrefl, fun hok => by cases hok⟩
  have hp := isAligned_pageOf address
  have huser' := userPage_pageOf huser hge
  induction rounds with
  | zero => exact rfl
  | succ rounds ih =>
    simp only [Kernel.resolveIn, ensures_bind, ensures_kernelSupplement]
    intro space hspace
    refine ensures_ite (fun _ => hrefused _) (fun _ => ?_)
    rw [← info?_eq hspace]
    cases hinfo : info? machine.spaces s (pageOf address) with
    | none =>
      simp only [Kernel.faultWithoutInfo, lift_eq, ensures_bind, ensures_stackLimit]
      refine ensures_ite (fun _ => ?_) (fun _ => hrefused _)
      simp only [ensures_bind]
      refine (ensures_addStackPage h hp huser' hinfo).mono fun outcome after hafter => ?_
      cases outcome with
      | ok u => exact ⟨hafter.1, fun _ => hafter.2 rfl⟩
      | error cause => exact ⟨hafter.1, fun hok => by cases hok⟩
    | some info =>
      refine ensures_ite (fun _ => ih) (fun hevicting => ?_)
      have hnot := h.described.ne_of_evicting hinfo (Bool.eq_false_iff.mpr hevicting)
      simp only [Kernel.faultWithInfo]
      refine ensures_ite (fun _ => ?_) (fun hresident => ?_)
      · simp only [ensures_bind, ensures_findEntry]
        intro _ _
        exact ensures_ite (fun hmapped => ⟨hrefl, fun _ => hmapped⟩) (fun _ => hrefused _)
      · have hresident' : info.resident = false := Bool.eq_false_iff.mpr hresident
        cases hcopy : info.copy? with
        | some copy => exact ensures_loadFromSwap h hp huser' hinfo hcopy address
        | none =>
          cases hsegment : info.segment? with
          | none => exact hrefused _
          | some segment =>
            exact ensures_loadFromFile h hp huser' hnot hinfo hresident' hcopy hsegment address

/-- A fault is resolved, and then its page is mapped; or it is found that it cannot be. -/
theorem ensures_resolveFault (h : machine.SettledBut away) (s : SpaceId)
    (address stackPointer : Nat) (code : FaultCode) :
    Ensures (Kernel.resolveFault s address stackPointer code) machine
      fun outcome after => Serviced away 1 machine after ∧
        (outcome = .ok () → (mapped? after.spaces s (pageOf address)).isSome = true) := by
  unfold Kernel.resolveFault
  refine ensures_ite (fun _ => ?_) (fun hvalid => ?_)
  · exact ⟨(Serviced.refl h).mono (Nat.zero_le _), fun hok => by cases hok⟩
  · rw [not_or, not_not, not_or] at hvalid
    exact ensures_resolveIn h hvalid.1 (Nat.le_of_not_lt hvalid.2.1) s stackPointer _

/-- A page that is not mapped is added to the stack on request, whatever its entry says. -/
theorem ensures_growStack_any (h : machine.SettledBut away) (s : SpaceId) (address : Nat) :
    Ensures (Kernel.growStack s address) machine fun outcome after =>
      match outcome with
      | .ok () => (pageSize ≤ pageOf address ∧ IsUser (pageOf address)) ∧
        ∃ reserved frame entry, Grown away machine s (pageOf address) reserved frame entry after
      | .error _ => Paging 1 machine after ∧ after.SettledBut away := by
  unfold Kernel.growStack
  refine ensures_ite (fun _ => ?_) (fun hvalid => ?_)
  · exact ⟨(Paging.refl machine).mono (Nat.zero_le _), h⟩
  · rw [not_or, not_not] at hvalid
    refine (ensures_addStackPage_any h (isAligned_pageOf address)).mono fun outcome after hafter => ?_
    cases outcome with
    | error cause => exact hafter
    | ok u => exact ⟨userPage_pageOf hvalid.1 (Nat.le_of_not_lt hvalid.2), hafter⟩

/-- A page of the stack is added on request, if it has no entry. -/
theorem ensures_growStack (h : machine.SettledBut away) {address : Nat}
    (hinfo : info? machine.spaces s (pageOf address) = none) :
    Ensures (Kernel.growStack s address) machine fun _ after => Serviced away 1 machine after := by
  refine (ensures_growStack_any h s address).mono fun outcome after hafter => ?_
  cases outcome with
  | error cause => exact .of_paging hafter.1 hafter.2
  | ok u =>
    obtain ⟨huser, reserved, frame, entry, hgrown⟩ := hafter
    exact hgrown.serviced (isAligned_pageOf address) huser hinfo

/-- What the trap does with a fault. -/
theorem ensures_handleFault (h : machine.SettledBut away) (s : SpaceId) (address stackPointer : Nat)
    (code : FaultCode) :
    Ensures (Kernel.handleFault s address stackPointer code) machine
      fun _ after => Serviced away 1 machine after := by
  simp only [Kernel.handleFault, lift_eq, atomically_eq, ensures_bind]
  refine (ensures_resolveFault h s address stackPointer code).mono ?_
  rintro outcome after ⟨hafter, -⟩
  cases outcome with
  | ok u => exact hafter
  | error cause =>
    cases cause with
    | unrecoverable address =>
      simp only [ensures_bind, ensures_space, ensures_notify, ensures_pure]
      intro _ _
      obtain ⟨writes, hlength, hadvance⟩ := hafter.advance
      refine ⟨⟨writes ++ [], by simpa using hlength, hadvance.trans_nothing ?_⟩, ?_⟩
      · exact .of_spaces rfl rfl (.refl _ _) (fun _ _ _ _ _ _ => rfl) fun _ _ _ _ _ _ => rfl
      · exact Coherent.congr hafter.settled rfl rfl rfl rfl
    | fatal cause =>
      simp only [ensures_bind, ensures_space, ensures_notify, ensures_throw]
      intro _ _
      rfl

end Transition

end DemandPaging
