import DemandPaging.Proofs.Copies
import DemandPaging.Proofs.MarkedEvictions

/-!
# Faults and copies uphold the marks

A page that is brought in is mapped with the mark that its swap copy or its window has, and one that
comes from swap counts as changed if it has a window. It was changed, or it would not have been in
swap.

A copy to user memory sets the dirty mark of a page only where it stores, and it stores only in pages
that may be written. So the marks are right after a copy, with the pages changed that it stored in
besides those that were changed before (`upholds_copyToUser`).
-/

set_option autoImplicit false

namespace DemandPaging

open Spaces Machine

section

variable {changed changed' : SpaceId → Nat → Prop} {a : Array AddressSpace} {s s' : SpaceId}
  {p q : Nat} {m m' : Machine}

/-! ### Changes of one page -/

/-- Entries may change as long as they name the same window and the same copy. -/
theorem Spaces.segment?_amend {f : PageInfo → PageInfo}
    (hf : ∀ info : PageInfo, (f info).segment? = info.segment?) :
    segment? (amend a s p f) s' q = segment? a s' q := by
  rw [segment?, segment?, info?_amend]
  split
  · cases info? a s' q with
    | none => rfl
    | some info => exact hf info
  · rfl

/-- Slots stay as they are if the new entries name the same ones. -/
theorem Spaces.copy?_amend {f : PageInfo → PageInfo}
    (hf : ∀ info : PageInfo, (f info).copy? = info.copy?) :
    copy? (amend a s p f) s' q = copy? a s' q := by
  rw [copy?, copy?, info?_amend]
  split
  · cases info? a s' q with
    | none => rfl
    | some info => exact hf info
  · rfl

/-- The marks stay right if the new entries name the same windows and slots. -/
theorem Marked.amend (h : Marked changed a) {f : PageInfo → PageInfo}
    (hsegment : ∀ info : PageInfo, (f info).segment? = info.segment?)
    (hcopy : ∀ info : PageInfo, (f info).copy? = info.copy?) :
    Marked changed (amend a s p f) := by
  intro s' q hq
  rw [segment?_amend hsegment, copy?_amend hcopy, mapped?_amend]
  exact h s' q hq

/-- A page is mapped afresh, with the mark that its window asks for. -/
theorem Marked.map (h : Marked changed a) (hp : IsAligned p) (huser : pageSize ≤ p ∧ IsUser p)
    (hs : s < a.size) {frame : BitVec 20} {writable : Bool}
    (hwritable : writable = mayWrite (segment? a s p)) :
    Marked changed (map a s p (.userPage frame writable)) := by
  have hsegment : segment? (Spaces.map a s p (.userPage frame writable)) s p = segment? a s p := by
    rw [segment?, segment?, info?_map]
  have hcopy : copy? (Spaces.map a s p (.userPage frame writable)) s p = copy? a s p := by
    rw [copy?, copy?, info?_map]
  obtain ⟨-, -, hparked, hkept, hallowed, hproper, -⟩ := h s p hp
  refine h.update (elsewhere_map hp hs) ?_
  rw [hsegment, hcopy, mapped?_map hs, if_pos ⟨rfl, rfl⟩]
  refine ⟨?_, ?_, hparked, hkept, hallowed, hproper, fun _ => huser⟩
  · rintro e ⟨⟩
    exact hwritable
  · rintro e ⟨⟩ hdirty
    cases hdirty

/-- A mapped page is marked as used, and as changed if it is to be written. -/
theorem Marked.touch (h : Marked changed a) (hp : IsAligned p) {write : Bool}
    (hchanged : write = true → (segment? a s p).isSome = true → changed s p) :
    Marked changed (mark a s p (·.touch write)) := by
  have hsegment : segment? (mark a s p (·.touch write)) s p = segment? a s p := by
    rw [segment?, segment?, info?_mark]
  have hcopy : copy? (mark a s p (·.touch write)) s p = copy? a s p := by
    rw [copy?, copy?, info?_mark]
  obtain ⟨hwritable, hdirty, hparked, hkept, hallowed, hproper, huser⟩ := h s p hp
  refine h.update (elsewhere_mark hp) ?_
  rw [hsegment, hcopy, mapped?_mark, if_pos ⟨rfl, rfl⟩]
  refine ⟨fun e he => ?_, fun e he hd hw => ?_, hparked, hkept, hallowed, hproper, ?_⟩
  · obtain ⟨e', he', rfl⟩ := Option.map_eq_some_iff.mp he
    exact hwritable e' he'
  · obtain ⟨e', he', rfl⟩ := Option.map_eq_some_iff.mp he
    rcases (Bool.or_eq_true ..).mp hd with hd | hwrite
    · exact hdirty e' he' hd hw
    · exact hchanged hwrite hw
  · rw [Option.isSome_map]
    exact huser

/-- A page that was changed is marked as changed. -/
theorem Marked.dirtied (h : Marked changed a) (hp : IsAligned p) (hchanged : changed s p) :
    Marked changed (mark a s p fun e => { e with dirty := true }) := by
  obtain ⟨hwritable, -, hparked, hkept, hallowed, hproper, huser⟩ := h s p hp
  refine h.update (elsewhere_mark hp) ?_
  rw [segment?, copy?, info?_mark, mapped?_mark, if_pos ⟨rfl, rfl⟩]
  refine ⟨fun e he => ?_, fun _ _ _ _ => hchanged, hparked, hkept, hallowed, hproper, ?_⟩
  · obtain ⟨e', he', rfl⟩ := Option.map_eq_some_iff.mp he
    exact hwritable e' he'
  · rw [Option.isSome_map]
    exact huser

/-- More pages may have been changed, if they may be written. -/
theorem Machine.Upholds.mono (h : m.Upholds changed m')
    (hle : ∀ s p, changed s p → changed' s p)
    (hallowed : ∀ s p, IsAligned p → changed' s p → mayWrite (segment? m'.spaces s p) = true) :
    m.Upholds changed' m' where
  segment := h.segment
  marked := h.marked.mono hle hallowed
  calls := by
    obtain ⟨calls, hfiles, hdue⟩ := h.calls
    exact ⟨calls, hfiles, fun call hcall => (hdue call hcall).mono hle fun _ _ _ hs => hs⟩

end

namespace Transition

variable {machine : Machine} {changed : SpaceId → Nat → Prop} {s : SpaceId} {p frame : Nat}

/-! ### Bringing a page in -/

/-- A page is mapped with the mark that its window asks for, or left alone. -/
theorem upholds_install (hmarked : Marked changed machine.spaces) (hp : IsAligned p)
    (huser : pageSize ≤ p ∧ IsUser p) {writable : Bool}
    (hrefusals : ∀ standing, standing? machine.spaces s = some standing → standing.refusals = 0)
    (hwritable : writable = mayWrite (segment? machine.spaces s p)) :
    Yields (install s p frame writable) machine fun _ after => machine.Upholds changed after := by
  refine (ensures_install hrefusals ?_ ?_).yields
  · intro _ _
    exact (Aside.refl machine).upholds hmarked
  · intro hlt _ _
    refine .of_marked (hmarked.map hp huser hlt hwritable) (fun s' q => ?_) rfl
    rw [segment?, segment?, info?_map]

/-- The entry of a page that came from swap keeps its window and loses its slot. -/
theorem upholds_movedIn {spaces : Array AddressSpace} (hmarked : Marked changed machine.spaces)
    (hp : IsAligned p) (he : Elsewhere machine.spaces spaces s p)
    (hmapped : mapped? spaces s p = mapped? machine.spaces s p)
    (hinfo : info? spaces s p = (info? machine.spaces s p).bind (·.movedIn?)) :
    machine.Upholds changed { machine with spaces } := by
  have hsegment : segment? spaces s p = segment? machine.spaces s p := by
    rw [segment?, segment?, hinfo]
    cases info? machine.spaces s p with
    | none => rfl
    | some info => exact info.movedIn?_bind_segment?
  have hcopy : copy? spaces s p = none := by
    rw [copy?, hinfo]
    cases info? machine.spaces s p with
    | none => rfl
    | some info => exact info.movedIn?_bind_copy?
  obtain ⟨hwritable, hdirty, -, -, hallowed, hproper, huser⟩ := hmarked s p hp
  refine .of_page hmarked he hsegment ?_ rfl
  rw [hcopy, hmapped]
  exact marks_of_unparked hwritable hdirty hallowed hproper fun hsome => huser (hsome.imp_right .inl)

/-- A page that came from swap counts as changed if it has a window, as it was. -/
theorem upholds_settleSwapIn (hmarked : Marked changed machine.spaces) (hp : IsAligned p)
    (copy : SwapCopy) {fileBacked : Bool} (hchanged : fileBacked = true → changed s p) :
    Yields (settleSwapIn s p copy fileBacked) machine fun _ after =>
      machine.Upholds changed after := by
  refine yields_settleSwapIn.mono ?_
  rintro _ _ ⟨made, slots, hmoved, rfl⟩
  have hmade := upholds_movedIn hmarked hp hmoved.elsewhere hmoved.mapped?_eq hmoved.info?_eq
  cases hfile : fileBacked with
  | false => exact hmade.trans (.of_marked hmade.marked (fun _ _ => rfl) rfl)
  | true =>
    have hsegment : ∀ s' q, segment? (mark made s p ({ · with dirty := true })) s' q =
        segment? made s' q := fun s' q => by
      rw [segment?, segment?, info?_mark]
    exact hmade.trans (.of_marked (hmade.marked.dirtied hp (hchanged hfile)) hsegment rfl)

/-- To hand a frame out leaves all windows as they are, and no directory refuses the page. -/
theorem upholds_allocated (h : machine.Settled) (hmarked : Marked changed machine.spaces)
    (zeroed : Bool) :
    Yields (Kernel.allocateFor s p zeroed) machine fun outcome after =>
      machine.Upholds changed after ∧
        (∀ s' q, segment? after.spaces s' q = segment? machine.spaces s' q) ∧
        ∀ frame, outcome = .ok frame → ∀ standing, standing? after.spaces s = some standing →
          standing.refusals = 0 := by
  refine ((upholds_allocateFor h hmarked zeroed).and
    (ensures_allocateFor h s p zeroed).yields).mono ?_
  rintro outcome after ⟨hupholds, hpaging, hreserved⟩
  obtain ⟨_, -, hadvance⟩ := hpaging.advance
  refine ⟨hupholds, hadvance.segment, ?_⟩
  rintro frame rfl
  obtain ⟨front, rear, -, hcoherent⟩ := hreserved.1
  exact hcoherent.live.refusals s

/-- A page that comes from swap has the mark of its copy. -/
theorem upholds_loadFromSwap (h : machine.Settled) (hmarked : Marked changed machine.spaces)
    (hp : IsAligned p) {copy : SwapCopy} (hcopy : copy? machine.spaces s p = some copy)
    (address : Nat) :
    Yields (Kernel.loadFromSwap s p copy (segment? machine.spaces s p).isSome address) machine
      fun _ after => machine.Upholds changed after := by
  have hpage := hmarked s p hp
  have huser := hpage.user (.inr (.inr (by rw [hcopy, Option.isSome_some])))
  simp only [Kernel.loadFromSwap, holding_eq, lift_eq, yields_bind]
  refine (upholds_allocated h hmarked false).mono ?_
  rintro outcome reserved ⟨hupholds, hsegment, hrefusals⟩
  cases outcome with
  | error cause => exact yields_pure.mpr hupholds
  | ok frame =>
    simp only [yields_bind]
    refine (aside_readSlot copy.slot).mono fun outcome filled hfilled => ?_
    have hread := hupholds.aside hfilled
    cases outcome with
    | error cause =>
      simp only [yields_bind, yields_pure]
      exact aside_free.mono fun _ _ hfreed => hread.aside hfreed
    | ok u =>
      have hwritable : copy.writable = mayWrite (segment? filled.spaces s p) := by
        rw [hfilled.spaces_eq, hsegment]
        exact hpage.parked copy hcopy
      have hchanged : (segment? machine.spaces s p).isSome = true → changed s p :=
        hpage.kept (by rw [hcopy, Option.isSome_some])
      simp only [yields_bind]
      refine (upholds_install hread.marked hp huser ?_ hwritable).mono
        fun done installed hinstalled => ?_
      · rw [hfilled.spaces_eq]
        exact hrefusals frame rfl
      · have hmapped := hread.trans hinstalled
        refine yields_ite (fun _ => ?_) (fun _ => ?_)
        · simp only [yields_bind]
          refine (upholds_settleSwapIn hmapped.marked hp copy hchanged).mono ?_
          intro _ settled hsettled
          refine aside_unpin.mono fun _ unpinned hunpinned => ?_
          simp only [yields_space, yields_notify, yields_pure]
          intro _ _
          exact ((hmapped.trans hsettled).aside hunpinned).aside ⟨rfl, rfl⟩
        · simp only [yields_bind, yields_pure]
          exact aside_free.mono fun _ _ hfreed => hmapped.aside hfreed

/-- A page that comes from its file has the mark of its window. -/
theorem upholds_loadFromFile (h : machine.Settled) (hmarked : Marked changed machine.spaces)
    (hp : IsAligned p) {segment : Segment} (hsegment : segment? machine.spaces s p = some segment)
    (address : Nat) :
    Yields (Kernel.loadFromFile s p segment address) machine
      fun _ after => machine.Upholds changed after := by
  have huser := (hmarked s p hp).user (.inl (by rw [hsegment, Option.isSome_some]))
  simp only [Kernel.loadFromFile, holding_eq, lift_eq, yields_bind]
  refine (upholds_allocated h hmarked false).mono ?_
  rintro outcome reserved ⟨hupholds, hwindow, hrefusals⟩
  cases outcome with
  | error cause => exact yields_pure.mpr hupholds
  | ok frame =>
    simp only [yields_bind]
    refine (yields_readIn segment).mono ?_
    rintro outcome filled ⟨hspaces, hfiles⟩
    have hread : machine.Upholds changed filled := by
      refine hupholds.trans ⟨fun s' q _ hs' => hspaces ▸ hs', ?_, ?_⟩
      · rw [hspaces]
        exact hupholds.marked
      · refine ⟨[.read segment.file segment.offset segment.readBytes], hfiles, fun call hcall => ?_⟩
        obtain rfl := List.mem_singleton.mp hcall
        trivial
    have hwritable : segment.writable = mayWrite (segment? filled.spaces s p) := by
      rw [hspaces, hwindow, hsegment]
      rfl
    refine yields_ite (fun _ => ?_) (fun _ => ?_)
    · simp only [yields_bind, yields_space, yields_notify, yields_pure]
      intro _ _
      refine aside_free.mono fun _ _ hfreed => hread.aside ?_
      exact ⟨hfreed.spaces_eq, hfreed.files_eq⟩
    · simp only [yields_bind]
      refine (upholds_install hread.marked hp huser ?_ hwritable).mono
        fun done installed hinstalled => ?_
      · rw [hspaces]
        exact hrefusals frame rfl
      · have hmapped := hread.trans hinstalled
        refine yields_ite (fun _ => ?_) (fun _ => ?_)
        · simp only [yields_bind, yields_modifyInfo]
          have hresident : machine.Upholds changed { installed with
              spaces := amend installed.spaces s p ({ · with resident := true }) } :=
            hmapped.trans (.of_marked (hmapped.marked.amend (fun _ => rfl) fun _ => rfl)
              (fun _ _ => segment?_amend fun _ => rfl) rfl)
          refine aside_unpin.mono fun _ unpinned hunpinned => ?_
          simp only [yields_space, yields_notify, yields_pure]
          intro _ _
          exact (hresident.aside hunpinned).aside ⟨rfl, rfl⟩
        · simp only [yields_bind, yields_pure]
          exact aside_free.mono fun _ _ hfreed => hmapped.aside hfreed

/-- The entry that is found is the one that the page is mapped with. -/
@[simp] theorem yields_findEntry {post : Option PageTableEntry → Machine → Prop} :
    Yields (Kernel.findEntry s p) machine post ↔
      ∀ space, machine.spaces[s]? = some space → post (mapped? machine.spaces s p) machine := by
  simp only [Kernel.findEntry, lift_eq, interrupt_eq, yields_bind, yields_directory, yields_pure]
  refine forall₂_congr fun space hspace => ?_
  rw [mapped?_eq hspace]

/-- A page of a stack may be written. -/
theorem upholds_addStackPage (h : machine.Settled) (hmarked : Marked changed machine.spaces)
    (hp : IsAligned p) (huser : pageSize ≤ p ∧ IsUser p)
    (hsegment : segment? machine.spaces s p = none) :
    Yields (Kernel.addStackPage s p) machine fun _ after => machine.Upholds changed after := by
  have hrefused := (Aside.refl machine).upholds hmarked
  simp only [Kernel.addStackPage, lift_eq, Kernel.supplement, holding_eq, yields_bind,
    yields_supplement]
  intro _ _
  refine yields_ite (fun _ => yields_pure.mpr hrefused) (fun _ => ?_)
  simp only [yields_bind, yields_findEntry]
  intro _ _
  refine yields_ite (fun _ => yields_pure.mpr hrefused) (fun _ => ?_)
  simp only [yields_bind]
  refine (upholds_allocated h hmarked true).mono ?_
  rintro outcome reserved ⟨hupholds, hwindow, hrefusals⟩
  cases outcome with
  | error cause => exact yields_pure.mpr hupholds
  | ok frame =>
    have hwritable : true = mayWrite (segment? reserved.spaces s p) := by
      rw [hwindow, hsegment]
      rfl
    simp only [yields_bind]
    refine (upholds_install hupholds.marked hp huser (hrefusals frame rfl) hwritable).mono ?_
    intro done installed hinstalled
    have hmapped := hupholds.trans hinstalled
    refine yields_ite (fun _ => ?_) (fun _ => ?_)
    · simp only [yields_bind]
      refine aside_unpin.mono fun _ unpinned hunpinned => ?_
      simp only [yields_space, yields_notify, yields_pure]
      intro _ _
      exact (hmapped.aside hunpinned).aside ⟨rfl, rfl⟩
    · simp only [yields_bind, yields_pure]
      exact aside_free.mono fun _ _ hfreed => hmapped.aside hfreed

/-! ### Resolving a fault -/

/-- A page without an entry has no window. -/
theorem segment?_eq_none_of_info? {spaces : Array AddressSpace} (h : info? spaces s p = none) :
    segment? spaces s p = none := by rw [segment?, h, Option.bind_none]

/-- However many rounds it takes, to resolve a fault upholds the marks. -/
theorem upholds_resolveIn (h : machine.Settled) (hmarked : Marked changed machine.spaces)
    {address : Nat} (huser : pageSize ≤ pageOf address ∧ IsUser (pageOf address))
    (stackPointer rounds : Nat) :
    Yields (Kernel.resolveIn s address stackPointer rounds) machine
      fun _ after => machine.Upholds changed after := by
  have hrefused := (Aside.refl machine).upholds hmarked
  have hp := isAligned_pageOf address
  induction rounds with
  | zero => exact yields_throw.mpr trivial
  | succ rounds ih =>
    simp only [Kernel.resolveIn, Kernel.supplement, holding_eq, lift_eq, yields_bind,
      yields_supplement]
    intro space hspace
    refine yields_ite (fun _ => yields_pure.mpr hrefused) (fun _ => ?_)
    rw [← info?_eq hspace]
    cases hinfo : info? machine.spaces s (pageOf address) with
    | none =>
      simp only [Kernel.faultWithoutInfo, lift_eq, yields_bind, yields_stackLimit]
      refine yields_ite (fun _ => ?_) (fun _ => yields_pure.mpr hrefused)
      simp only [yields_bind]
      refine (upholds_addStackPage h hmarked hp huser (segment?_eq_none_of_info? hinfo)).mono ?_
      intro outcome after hafter
      cases outcome <;> exact yields_pure.mpr hafter
    | some info =>
      have hsegment : segment? machine.spaces s (pageOf address) = info.segment? := by
        rw [segment?, hinfo, Option.bind_some]
      refine yields_ite (fun _ => ih) (fun _ => ?_)
      simp only [Kernel.faultWithInfo]
      refine yields_ite (fun _ => ?_) (fun _ => ?_)
      · simp only [yields_bind, yields_findEntry]
        intro _ _
        exact yields_ite (fun _ => yields_pure.mpr hrefused) (fun _ => yields_pure.mpr hrefused)
      · cases hcopy : info.copy? with
        | some copy =>
          have hcopy' : copy? machine.spaces s (pageOf address) = some copy := by
            rw [copy?, hinfo, Option.bind_some, hcopy]
          have hload := upholds_loadFromSwap h hmarked hp hcopy' address
          rw [hsegment] at hload
          exact hload
        | none =>
          cases hwindow : info.segment? with
          | none => exact yields_pure.mpr hrefused
          | some segment =>
            exact upholds_loadFromFile h hmarked hp (hsegment.trans hwindow) address

/-- Resolving a fault upholds the marks. -/
theorem upholds_resolveFault (h : machine.Settled) (hmarked : Marked changed machine.spaces)
    (address stackPointer : Nat) (code : FaultCode) :
    Yields (Kernel.resolveFault s address stackPointer code) machine
      fun _ after => machine.Upholds changed after := by
  unfold Kernel.resolveFault
  refine yields_ite (fun _ => ?_) (fun hserved => ?_)
  · exact yields_pure.mpr ((Aside.refl machine).upholds hmarked)
  · rw [not_or, not_or, not_not, Nat.not_lt] at hserved
    exact upholds_resolveIn h hmarked (userPage_pageOf hserved.1 hserved.2.1) stackPointer faultRounds

/-- To handle a fault upholds the marks, also if it cannot be resolved. -/
theorem upholds_handleFault (h : machine.Settled) (hmarked : Marked changed machine.spaces)
    (address stackPointer : Nat) (code : FaultCode) :
    Yields (Kernel.handleFault s address stackPointer code) machine
      fun _ after => machine.Upholds changed after := by
  simp only [Kernel.handleFault, lift_eq, atomically_eq, yields_bind]
  refine (upholds_resolveFault h hmarked address stackPointer code).mono fun outcome after hafter => ?_
  cases outcome with
  | ok u => exact yields_pure.mpr hafter
  | error cause =>
    cases cause with
    | unrecoverable address =>
      simp only [yields_bind, yields_space, yields_notify, yields_pure]
      intro _ _
      exact hafter.aside ⟨rfl, rfl⟩
    | fatal cause =>
      simp only [yields_bind, yields_space, yields_notify, yields_throw, implies_true]

/-- Growing a stack upholds the marks, if the page has no entry. -/
theorem upholds_growStack (h : machine.Settled) (hmarked : Marked changed machine.spaces)
    {address : Nat} (hinfo : info? machine.spaces s (pageOf address) = none) :
    Yields (Kernel.growStack s address) machine fun _ after => machine.Upholds changed after := by
  unfold Kernel.growStack
  refine yields_ite (fun _ => ?_) (fun hserved => ?_)
  · exact yields_pure.mpr ((Aside.refl machine).upholds hmarked)
  · rw [not_or, not_not, Nat.not_lt] at hserved
    exact upholds_addStackPage h hmarked (isAligned_pageOf address)
      (userPage_pageOf hserved.1 hserved.2) (segment?_eq_none_of_info? hinfo)

/-! ### Reaching a piece -/

/-- A user access finds the page mapped, and to be written only if it may be; or nothing changes. -/
theorem yields_translate (write : Bool) :
    Yields (Kernel.translate s p write) machine fun outcome after =>
      match outcome with
      | .error _ => after = machine
      | .ok frame => ∃ entry, mapped? machine.spaces s p = some entry ∧ entry.frame.toNat = frame ∧
        (write = true → entry.writable = true) ∧
        after = { machine with spaces := mark machine.spaces s p (·.touch write) } := by
  refine (ensures_translate.mpr fun _ _ => ?_).yields
  cases hentry : mapped? machine.spaces s p with
  | none => rfl
  | some entry =>
    by_cases hforbidden : (write && !entry.writable) = true
    · simp only [hforbidden, if_true]
    · simp only [hforbidden, Bool.false_eq_true, if_false]
      refine ⟨entry, rfl, rfl, fun hwrite => ?_, trivial⟩
      rw [hwrite] at hforbidden
      simpa using hforbidden

/-- A page that is marked as used keeps its frame. -/
theorem frame?_touch {spaces : Array AddressSpace} {entry : PageTableEntry} {write : Bool}
    (hentry : mapped? spaces s p = some entry) (hframe : entry.frame.toNat = frame) :
    frame? (mark spaces s p (·.touch write)) s p = some frame := by
  rw [frame?, mapped?_mark_self hentry, Option.map_some, ← hframe]
  rfl

/-- What is to be done with the frame of a page is done, if the page is still mapped to it. -/
theorem yields_withFrame {α : Type} {act : Nat → Transition α} {post : α → Machine → Prop}
    (hframe : frame? machine.spaces s p = some frame) (hact : Yields (act frame) machine post) :
    Yields (Kernel.withFrame s p frame act) machine fun found after =>
      ∃ a, found = some a ∧ post a after := by
  simp only [Kernel.withFrame, lift_eq, holding_eq, yields_bind]
  apply yields_requireFrame
  rw [yields_findEntry]
  intro _ _
  rw [frame?] at hframe
  rw [hframe, if_pos rfl, yields_bind]
  exact hact.mono fun a _ hafter => yields_pure.mpr ⟨a, rfl, hafter⟩

/-- What it is to have reached a page: its marks are right, and it may be written if it is to be. -/
def Reached (changed : SpaceId → Nat → Prop) (before : Machine) (s : SpaceId) (p : Nat) (write : Bool)
    (after : Machine) : Prop :=
  ∃ middle entry, before.Upholds changed middle ∧ mapped? middle.spaces s p = some entry ∧
    (write = true → entry.writable = true) ∧ after.files = middle.files ∧
    after.spaces = mark middle.spaces s p (·.touch write)

/-- To reach a piece upholds the marks of all pages, up to the access to its own page. -/
theorem upholds_reachIn {α : Type} {act : Nat → Transition α} {piece : Piece} {write : Bool}
    (hact : ∀ frame before, Yields (act frame) before fun _ after => before.Aside after)
    (h : machine.Settled) (hmarked : Marked changed machine.spaces) (stackPointer rounds : Nat) :
    Yields (Kernel.reachIn s piece stackPointer write act rounds) machine fun outcome after =>
      match outcome with
      | .ok _ => Reached changed machine s (pageOf piece.address) write after
      | .error _ => machine.Upholds changed after := by
  induction rounds generalizing machine with
  | zero => exact yields_throw.mpr trivial
  | succ rounds ih =>
    refine yields_bind.mpr ((yields_translate write).mono fun outcome met hmet => ?_)
    cases outcome with
    | error code =>
      obtain rfl : met = machine := hmet
      refine yields_bind.mpr (((upholds_resolveFault h hmarked piece.address stackPointer code).and
        (ensures_resolveFault h s piece.address stackPointer code).yields).mono ?_)
      rintro outcome after ⟨hafter, hserviced, -⟩
      cases outcome with
      | error cause => exact yields_pure.mpr hafter
      | ok u =>
        refine (ih hserviced.settled hafter.marked).mono fun outcome last hlast => ?_
        cases outcome with
        | error cause => exact hafter.trans hlast
        | ok a =>
          obtain ⟨middle, entry, hmiddle, hrest⟩ := hlast
          exact ⟨middle, entry, hafter.trans hmiddle, hrest⟩
    | ok frame =>
      obtain ⟨entry, hentry, hframe, hallowed, rfl⟩ := hmet
      refine yields_bind.mpr ((yields_withFrame (frame?_touch hentry hframe) (hact frame _)).mono ?_)
      rintro _ after ⟨a, rfl, hafter⟩
      refine yields_pure.mpr ⟨machine, entry, (Aside.refl machine).upholds hmarked, hentry, hallowed, ?_, ?_⟩
      · exact hafter.files_eq
      · exact hafter.spaces_eq

/-- To reach a piece upholds the marks. Where the piece is served, its page is mapped and may be accessed in
that way. -/
theorem upholds_reach {α : Type} {act : Nat → Transition α} {piece : Piece} {write : Bool}
    (hact : ∀ frame before, Yields (act frame) before fun _ after => before.Aside after)
    (h : machine.Settled) (hmarked : Marked changed machine.spaces) (start stackPointer : Nat) :
    Yields (Kernel.reach s start piece stackPointer write act) machine fun outcome after =>
      match outcome with
      | .ok _ => Reached changed machine s (pageOf piece.address) write after
      | .error _ => machine.Upholds changed after := by
  have hrefused := (Aside.refl machine).upholds hmarked
  unfold Kernel.reach
  refine yields_ite (fun _ => yields_pure.mpr hrefused) (fun _ => ?_)
  refine yields_ite (fun _ => yields_pure.mpr hrefused) (fun _ => ?_)
  exact upholds_reachIn hact h hmarked stackPointer copyRounds

/-- An access that does not write upholds the marks. -/
theorem Reached.upholds {after : Machine} (h : Reached changed machine s p false after)
    (hp : IsAligned p) : machine.Upholds changed after := by
  obtain ⟨middle, entry, hmiddle, -, -, hfiles, hspaces⟩ := h
  refine hmiddle.trans (.of_marked ?_ (fun s' q => ?_) hfiles)
  · rw [hspaces]
    exact hmiddle.marked.touch hp nofun
  · rw [hspaces, segment?, segment?, info?_mark]

/-- The marks are right after an access that writes, with its page changed besides. -/
theorem Reached.stored {after : Machine} (h : Reached changed machine s p true after)
    (hp : IsAligned p) {changed' : SpaceId → Nat → Prop} (hle : ∀ s' q, changed s' q → changed' s' q)
    (hpage : changed' s p)
    (hnew : ∀ s' q, IsAligned q → changed' s' q → changed s' q ∨ s' = s ∧ q = p) :
    machine.Upholds changed' after := by
  obtain ⟨middle, entry, hmiddle, hentry, hallowed, hfiles, hspaces⟩ := h
  have hmiddle' : machine.Upholds changed' middle := by
    refine hmiddle.mono hle fun s' q hq hchanged => ?_
    rcases hnew s' q hq hchanged with hold | ⟨rfl, rfl⟩
    · exact (hmiddle.marked s' q hq).allowed hold
    · rw [← (hmiddle.marked s' q hq).writable entry hentry]
      exact hallowed rfl
  refine hmiddle'.trans (.of_marked ?_ (fun s' q => ?_) hfiles)
  · rw [hspaces]
    exact hmiddle'.marked.touch hp fun _ _ => hpage
  · rw [hspaces, segment?, segment?, info?_mark]

end Transition

/-! ### Copies -/

/-- A byte was stored in the page. -/
def StoredIn (stored : SpaceId → Nat → Option UInt8) (s : SpaceId) (p : Nat) : Prop :=
  ∃ k, k < pageSize ∧ (stored s (p + k)).isSome = true

/-- If nothing is stored, nothing is stored in a page. -/
theorem not_storedIn_nothing (s : SpaceId) (p : Nat) : ¬ StoredIn nothing s p := by
  rintro ⟨k, -, hsome⟩
  cases hsome

/-- What is stored by a part of a copy is stored by more of it. -/
theorem StoredIn.mono {s s' : SpaceId} {start p n n' : Nat} {data : Bytes}
    (h : StoredIn (stores s start data n) s' p) (hle : n ≤ n') :
    StoredIn (stores s start data n') s' p := by
  obtain ⟨k, hk, hsome⟩ := h
  refine ⟨k, hk, ?_⟩
  unfold stores at hsome ⊢
  split at hsome
  · rename_i hrange
    rw [if_pos ⟨hrange.1, hrange.2.1, by omega⟩]
    exact hsome
  · cases hsome

/-- A piece is not empty. -/
theorem Piece.size_pos {start length i : Nat} (h : i < count start length) :
    0 < (ofRange start length i).size := by
  have hstart := Nat.mod_lt start (show 0 < 4096 by decide)
  simp only [count] at h
  split at h
  · cases h
  · simp only [ofRange, pageOf, pageOffset, pageSize] at *
    omega

/-- The bytes of one more piece are stored in its page and in no other. -/
theorem storedIn_piece {s : SpaceId} {start : Nat} {data : Bytes} {done rest : List Piece}
    {piece : Piece} (h : Piece.all start data.size = done ++ piece :: rest) :
    StoredIn (stores s start data (Piece.total (done ++ [piece]))) s (pageOf piece.address) ∧
      ∀ s' p, IsAligned p → StoredIn (stores s start data (Piece.total (done ++ [piece]))) s' p →
        StoredIn (stores s start data (Piece.total done)) s' p ∨ s' = s ∧ p = pageOf piece.address := by
  obtain ⟨hlt, hpiece, -⟩ := Piece.eq_of_split h
  have hdone := Piece.total_eq_done h
  have hpos : 0 < piece.size := hpiece ▸ Piece.size_pos hlt
  have hfit : piece.done + piece.size ≤ data.size := hpiece ▸ Piece.done_add_size_le hlt
  have haddress : piece.address = start + piece.done := hpiece ▸ Piece.address_eq start _ _
  have hinside : piece.address + piece.size ≤ pageOf piece.address + pageSize :=
    hpiece ▸ Piece.address_add_size_le hlt
  have hoffset := pageOf_add_pageOffset piece.address
  have hmod : pageOffset piece.address < pageSize := Nat.mod_lt _ (by decide)
  rw [Piece.total_append, hdone]
  refine ⟨⟨pageOffset piece.address, hmod, ?_⟩, ?_⟩
  · rw [hoffset, stores, if_pos ⟨rfl, by omega, by omega⟩, Array.getElem?_eq_getElem (by omega),
      Option.isSome_some]
  · rintro s' p hp ⟨k, hk, hsome⟩
    unfold stores at hsome
    split at hsome
    · rename_i hrange
      obtain ⟨rfl, hge, hlt'⟩ := hrange
      by_cases hold : p + k < start + piece.done
      · refine .inl ⟨k, hk, ?_⟩
        rw [stores, if_pos ⟨rfl, hge, hold⟩]
        exact hsome
      · refine .inr ⟨rfl, ?_⟩
        simp only [IsAligned, pageOf, pageOffset, pageSize] at *
        omega
    · cases hsome

namespace Transition

variable {machine : Machine} {changed : SpaceId → Nat → Prop} {s : SpaceId}

/-- To store in a frame touches the frame only. -/
theorem aside_writeFrame (frame start : Nat) (data : Bytes) (before : Machine) :
    Yields (writeFrame frame start data) before fun _ after => before.Aside after :=
  (ensures_writeFrame.mpr fun _ _ _ => ⟨rfl, rfl⟩).yields

/-- To read from a frame touches nothing. -/
theorem aside_readFrame (frame start n : Nat) (before : Machine) :
    Yields (readFrame frame start n) before fun _ after => before.Aside after :=
  (ensures_readFrame.mpr fun _ _ _ => ⟨rfl, rfl⟩).yields

/-- A settled machine stays so whatever bytes are in its frames. -/
theorem settled_writeFrame {before : Machine} (h : before.Settled) (frame start : Nat) (data : Bytes) :
    Ensures (writeFrame frame start data) before fun _ after => after.Settled :=
  ensures_writeFrame.mpr fun _ _ _ => Coherent.congr h rfl FrameMemory.size_setPage rfl rfl

/-- A settled machine stays so when a frame is read. -/
theorem settled_readFrame {before : Machine} (h : before.Settled) (frame start n : Nat) :
    Ensures (readFrame frame start n) before fun _ after => after.Settled :=
  ensures_readFrame.mpr fun _ _ _ => h

/-- The pages that were changed before a copy, and those that some pieces of it were stored in. -/
def changedBy (changed : SpaceId → Nat → Prop) (s : SpaceId) (start : Nat) (data : Bytes)
    (pieces : List Piece) : SpaceId → Nat → Prop :=
  fun s' p => changed s' p ∨ StoredIn (stores s start data (Piece.total pieces)) s' p

/-- Before the first piece of a copy it has changed no page. -/
theorem changedBy_nil {start : Nat} {data : Bytes} {s' : SpaceId} {p : Nat} :
    changedBy changed s start data [] s' p ↔ changed s' p := by
  refine or_iff_left ?_
  rw [show Piece.total [] = 0 from rfl, stores_zero]
  exact not_storedIn_nothing s' p

/-- The first pieces of a copy uphold the marks, with the pages changed that they were stored in. -/
theorem upholds_storePieces (h : machine.Settled) (hmarked : Marked changed machine.spaces)
    {start : Nat} {data : Bytes} {whole rest : List Piece}
    (hall : Piece.all start data.size = whole ++ rest) (stackPointer : Nat) :
    Ensures (Kernel.upToFailure (storePiece s start data stackPointer) whole) machine
      fun outcome after => after.Settled ∧ machine.Upholds (changedBy changed s start data
        (served (storePiece s start data stackPointer) whole machine)) after ∧
        (outcome = .ok () → served (storePiece s start data stackPointer) whole machine = whole) := by
  have hloop := @ensures_upToFailure Piece machine FaultError (storePiece s start data stackPointer)
    (fun done after => after.Settled ∧ machine.Upholds (changedBy changed s start data done) after)
    (fun done _ after => after.Settled ∧
      machine.Upholds (changedBy changed s start data done) after) whole ?_ ?_
  · refine hloop.mono fun outcome after hafter => ?_
    cases outcome with
    | error cause => exact ⟨hafter.1, hafter.2, nofun⟩
    | ok u =>
      obtain ⟨⟨hsettled, hupholds⟩, hserved⟩ := hafter
      rw [hserved]
      exact ⟨hsettled, hupholds, fun _ => rfl⟩
  · rintro done piece later before hwhole ⟨hsettled, hupholds⟩
    have hsplit : Piece.all start data.size = done ++ piece :: (later ++ rest) := by
      rw [hall, hwhole, List.append_assoc, List.cons_append]
    obtain ⟨hstored, hnew⟩ := storedIn_piece hsplit (s := s)
    have hp := isAligned_pageOf piece.address
    have hreach := ensures_reach hsettled start piece stackPointer true (s := s)
      (fun frame => writeFrame frame (pageOffset piece.address)
        (data.window piece.done piece.size))
      fun _ _ _ hserviced _ _ => settled_writeFrame hserviced.settled _ _ _
    refine (hreach.and_yields (upholds_reach (fun frame before => aside_writeFrame frame _ _ before)
      hsettled hupholds.marked start stackPointer)).mono fun outcome after hafter => ?_
    cases outcome with
    | error cause => exact ⟨hafter.1.settled, hupholds.trans hafter.2⟩
    | ok u =>
      obtain ⟨hsettled', middle, entry, hmiddle, hreached⟩ := hafter
      have hall : Reached (changedBy changed s start data done) machine s (pageOf piece.address)
          true after := ⟨middle, entry, hupholds.trans hmiddle, hreached⟩
      refine ⟨hsettled', hall.stored hp (fun s' q hold => ?_) (.inr hstored)
        fun s' q hq hchanged => ?_⟩
      · refine hold.imp_right fun hin => hin.mono ?_
        rw [Piece.total_append]
        exact Nat.le_add_right _ _
      · -- the page of the piece is changed now, and no other
        rcases hchanged with hold | hin
        · exact .inl (.inl hold)
        · exact (hnew s' q hq hin).imp_left .inr
  · refine ⟨h, (Aside.refl machine).upholds (hmarked.mono (fun _ _ hold => .inl hold) ?_)⟩
    exact fun s' p hp hchanged => (hmarked s' p hp).allowed (changedBy_nil.mp hchanged)

/-- The marks are right after a copy to user memory, with the pages changed that it stored in. -/
theorem upholds_copyToUser (h : machine.Settled) (hmarked : Marked changed machine.spaces)
    (start : Nat) (data : Bytes) (stackPointer : Nat) :
    Yields (Kernel.copyToUser s start data stackPointer) machine fun _ after =>
      machine.Upholds (fun s' p => changed s' p ∨
        StoredIn (stores s start data (copied s start data stackPointer machine)) s' p) after :=
  (upholds_storePieces h hmarked (List.append_nil _).symm stackPointer).yields.mono
    fun _ _ hafter => hafter.2.1

/-- The calls that reach files while a piece is stored are due, with the pages changed that the pieces
before it were stored in. -/
theorem due_storePiece {before : Machine} {start : Nat} {data : Bytes} {done : List Piece}
    (h : before.Settled) (hupholds : machine.Upholds (changedBy changed s start data done) before)
    (piece : Piece) (stackPointer : Nat) :
    Yields (storePiece s start data stackPointer piece) before fun _ after =>
      ∃ calls, after.files = Files.serveAll before.files calls ∧
        ∀ call ∈ calls, call.Due (changedBy changed s start data done) machine.spaces := by
  refine (upholds_reach (fun frame before => aside_writeFrame frame _ _ before) h hupholds.marked
    start stackPointer).mono fun outcome after hafter => ?_
  have hcalls : ∃ calls, after.files = Files.serveAll before.files calls ∧
      ∀ call ∈ calls, call.Due (changedBy changed s start data done) before.spaces := by
    cases outcome with
    | error cause => exact hafter.calls
    | ok u =>
      obtain ⟨middle, entry, hmiddle, -, -, hfiles, -⟩ := hafter
      exact hfiles ▸ hmiddle.calls
  obtain ⟨calls, hfiles, hdue⟩ := hcalls
  exact ⟨calls, hfiles, fun call hcall => (hdue call hcall).mono (fun _ _ hc => hc) hupholds.segment⟩

/-- A copy from user memory upholds the marks. -/
theorem upholds_copyFromUser (h : machine.Settled) (hmarked : Marked changed machine.spaces)
    (start length stackPointer : Nat) :
    Yields (Kernel.copyFromUser s start length stackPointer) machine fun _ after =>
      machine.Upholds changed after := by
  refine Yields.mono (Outcomes.alone.toRules.copyFromUser (fun _ _ before => before.Settled ∧
    machine.Upholds changed before) (fun _ _ after => machine.Upholds changed after)
    ?step ⟨h, (Aside.refl machine).upholds hmarked⟩) ?whole
  case whole =>
    intro answer after hafter
    obtain ⟨data, outcome⟩ := answer
    cases outcome with
    | error cause => exact hafter
    | ok u => exact hafter.2
  case step =>
    rintro done piece rest data before hwhole ⟨hsettled, hbefore⟩
    have hreach := ensures_reach hsettled start piece stackPointer false (s := s)
      (fun frame => readFrame frame (pageOffset piece.address) piece.size)
      fun _ _ _ hserviced _ _ => settled_readFrame hserviced.settled _ _ _
    refine (hreach.yields.and (upholds_reach (fun frame before => aside_readFrame frame _ _ before)
      hsettled hbefore.marked start stackPointer)).mono fun outcome after hafter => ?_
    cases outcome with
    | error cause => exact hbefore.trans hafter.2
    | ok bytes => exact ⟨hafter.1, hbefore.trans (hafter.2.upholds (isAligned_pageOf piece.address))⟩

end Transition

end DemandPaging
