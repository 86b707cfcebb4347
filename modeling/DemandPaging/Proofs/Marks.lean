import DemandPaging.Proofs.SteadyVictims

/-!
# Marks of pages

Each page may be written or not, as its window says (`mayWrite`), and the mark of a mapped page and
that of a swap copy have to say the same. The dirty mark has to say whether the page was changed: for
a page with a window it may be set only if somebody stored in the page, which `changed` keeps account
of, and only such a page may be in swap. `Marked changed spaces` says that all marks are right.

Files are told apart by the calls that reach them (`FileCall`). A write is due (`FileCall.Due`) if it
saves the whole window of a page of a mapped file that was changed.

`Machine.Upholds changed before after` is what paging and unmapping may do: the marks are right
afterwards, no page has got another window, and the files took nothing but reads and writes that were
due. The relation composes, so what an operation does follows from what its parts do.
-/

set_option autoImplicit false

namespace DemandPaging

open Spaces Machine

/-! ### Calls that reach a file -/

/-- A call that reaches a file. -/
inductive FileCall where
  /-- Up to `n` bytes are read. -/
  | read (f : FileId) (offset n : Nat)
  /-- Some bytes are written. -/
  | write (f : FileId) (offset : Nat) (data : Bytes)

namespace Files

/-- The files after a call has reached one of them. -/
def serve (files : Array MemoryFile) : FileCall → Array MemoryFile
  | .read f offset n => files.modify f fun file => (file.read offset n).2
  | .write f offset data => files.modify f fun file => (file.write offset data).2

/-- The files after some calls. -/
def serveAll (files : Array MemoryFile) (calls : List FileCall) : Array MemoryFile :=
  calls.foldl serve files

/-- Calls that are served one after another may be split anywhere. -/
theorem serveAll_append (files : Array MemoryFile) (calls later : List FileCall) :
    serveAll files (calls ++ later) = serveAll (serveAll files calls) later :=
  List.foldl_append

/-- To change a file that exists is to replace it. -/
theorem setIfInBounds_eq_modify {files : Array MemoryFile} {f : FileId} {file : MemoryFile}
    (hf : files[f]? = some file) (change : MemoryFile → MemoryFile) :
    files.setIfInBounds f (change file) = files.modify f change := by
  apply Array.ext_getElem?
  intro i
  rw [Array.getElem?_setIfInBounds, Array.getElem?_modify]
  split
  · subst i
    have hlt : f < files.size := (Array.getElem?_eq_some_iff.mp hf).1
    rw [if_pos hlt, hf, Option.map_some]
  · rfl

end Files

/-! ### Marks -/

/-- Whether a page with this window may be written. Pages of a stack have none, and may. -/
def mayWrite (window : Option Segment) : Bool := window.all (·.writable)

/-- A window as it is registered: its bytes fit in a page, and a page of a mapped file may be written. -/
structure Segment.Proper (segment : Segment) : Prop where
  fits : segment.readBytes ≤ pageSize
  shared : segment.writeBack = true → segment.writable = true

/-- The marks of a page are right: its entry in the page directory and its swap copy, given its window
and whether it was changed. Besides, only user pages have marks. -/
structure Marks (changed : Prop) (p : Nat) (window : Option Segment) (entry : Option PageTableEntry)
    (copy : Option SwapCopy) : Prop where
  writable : ∀ e, entry = some e → e.writable = mayWrite window
  dirty : ∀ e, entry = some e → e.dirty = true → window.isSome = true → changed
  parked : ∀ c, copy = some c → c.writable = mayWrite window
  kept : copy.isSome = true → window.isSome = true → changed
  allowed : changed → mayWrite window = true
  proper : ∀ segment, window = some segment → segment.Proper
  user : window.isSome = true ∨ entry.isSome = true ∨ copy.isSome = true → pageSize ≤ p ∧ IsUser p

/-- The marks of a page that is not in swap. -/
theorem marks_of_unparked {changed : Prop} {p : Nat} {window : Option Segment}
    {entry : Option PageTableEntry} (hwritable : ∀ e, entry = some e → e.writable = mayWrite window)
    (hdirty : ∀ e, entry = some e → e.dirty = true → window.isSome = true → changed)
    (hallowed : changed → mayWrite window = true)
    (hproper : ∀ segment, window = some segment → segment.Proper)
    (huser : window.isSome = true ∨ entry.isSome = true → pageSize ≤ p ∧ IsUser p) :
    Marks changed p window entry none := by
  refine ⟨hwritable, hdirty, ?_, ?_, hallowed, hproper, by simpa using huser⟩
  · rintro copy ⟨⟩
  · rintro ⟨⟩

/-- The marks of a page that is not mapped. -/
theorem marks_of_unmapped {changed : Prop} {p : Nat} {window : Option Segment} {copy : Option SwapCopy}
    (hparked : ∀ c, copy = some c → c.writable = mayWrite window)
    (hkept : copy.isSome = true → window.isSome = true → changed)
    (hallowed : changed → mayWrite window = true)
    (hproper : ∀ segment, window = some segment → segment.Proper)
    (huser : window.isSome = true ∨ copy.isSome = true → pageSize ≤ p ∧ IsUser p) :
    Marks changed p window none copy := by
  refine ⟨?_, ?_, hparked, hkept, hallowed, hproper, by simpa using huser⟩
  · rintro e ⟨⟩
  · rintro e ⟨⟩

/-- The marks of a page that is neither mapped nor in swap. -/
theorem marks_of_none {changed : Prop} {p : Nat} {window : Option Segment}
    (hallowed : changed → mayWrite window = true)
    (hproper : ∀ segment, window = some segment → segment.Proper)
    (huser : window.isSome = true → pageSize ≤ p ∧ IsUser p) : Marks changed p window none none :=
  marks_of_unmapped nofun nofun hallowed hproper (by simpa using huser)

/-- The marks of a page that is in no table. -/
theorem marks_of_absent {p : Nat} {changed : Prop} : Marks changed p none none none :=
  marks_of_none (fun _ => rfl) nofun nofun

/-- All marks are right, where the pages in `changed` were changed. -/
def Marked (changed : SpaceId → Nat → Prop) (spaces : Array AddressSpace) : Prop :=
  ∀ s p, IsAligned p →
    Marks (changed s p) p (segment? spaces s p) (mapped? spaces s p) (copy? spaces s p)

/-- The call is a read, or it saves the whole window of a changed page of a mapped file. -/
def FileCall.Due (changed : SpaceId → Nat → Prop) (spaces : Array AddressSpace) :
    FileCall → Prop
  | .read .. => True
  | .write f offset data => ∃ s p segment, IsAligned p ∧ segment? spaces s p = some segment ∧
      segment.writeBack = true ∧ changed s p ∧ f = segment.file ∧ offset = segment.offset ∧
      data.size = segment.readBytes

section

variable {changed changed' : SpaceId → Nat → Prop} {a b : Array AddressSpace} {s : SpaceId} {p : Nat}

/-- Windows that were there before make no call undue. -/
theorem FileCall.Due.mono {call : FileCall} (h : call.Due changed' b)
    (hchanged : ∀ s p, changed' s p → changed s p)
    (hsegment : ∀ s p segment, segment? b s p = some segment → segment? a s p = some segment) :
    call.Due changed a := by
  cases call with
  | read f offset n => trivial
  | write f offset data =>
    obtain ⟨s, p, segment, hp, hwindow, hback, hstored, hcall⟩ := h
    exact ⟨s, p, segment, hp, hsegment s p segment hwindow, hback, hchanged s p hstored, hcall⟩

/-- One page has changed, and its marks are right. -/
theorem Marked.update (h : Marked changed a) (he : Elsewhere a b s p)
    (hpage : Marks (changed s p) p (segment? b s p) (mapped? b s p) (copy? b s p)) :
    Marked changed b := by
  intro s' p' hp'
  by_cases hsp : s' = s ∧ p' = p
  · obtain ⟨rfl, rfl⟩ := hsp
    exact hpage
  · rw [he.segment hsp, he.mapped s' p' hp' hsp, he.copy hsp]
    exact h s' p' hp'

/-- Other marks than that a page was used make no difference. -/
theorem Marked.faded (h : Marked changed a) (hf : Faded a b) : Marked changed b := by
  intro s p hp
  have hbefore := h s p hp
  have hsegment : segment? b s p = segment? a s p := by rw [segment?, segment?, hf.info]
  have hcopy : copy? b s p = copy? a s p := by rw [copy?, copy?, hf.info]
  have hentry : ∀ e, mapped? b s p = some e → ∃ e', mapped? a s p = some e' ∧
      e.writable = e'.writable ∧ e.dirty = e'.dirty := by
    intro e he
    have hlasting := hf.lasting s p
    rw [lasting?, he, Option.map_some, eq_comm] at hlasting
    obtain ⟨e', he', heq⟩ := Option.map_eq_some_iff.mp hlasting
    simp only [PageTableEntry.lasting, Prod.mk.injEq] at heq
    exact ⟨e', he', heq.2.1.symm, heq.2.2.symm⟩
  rw [hsegment, hcopy]
  refine ⟨fun e he => ?_, fun e he hdirty => ?_, hbefore.parked, hbefore.kept, hbefore.allowed,
    hbefore.proper, fun hsome => hbefore.user (hsome.imp_right (Or.imp_left fun he => ?_))⟩
  · obtain ⟨e', he', hwritable, -⟩ := hentry e he
    rw [hwritable]
    exact hbefore.writable e' he'
  · obtain ⟨e', he', -, heq⟩ := hentry e he
    exact hbefore.dirty e' he' (heq ▸ hdirty)
  · obtain ⟨e, he⟩ := Option.isSome_iff_exists.mp he
    obtain ⟨e', he', -⟩ := hentry e he
    rw [he', Option.isSome_some]

/-- A page that must not be written was not changed. -/
theorem Marked.not_changed (h : Marked changed a) (hp : IsAligned p) {segment : Segment}
    (hsegment : segment? a s p = some segment) (hreadOnly : segment.writable = false) :
    ¬ changed s p := by
  intro hchanged
  have hallowed := (h s p hp).allowed hchanged
  rw [hsegment, mayWrite, Option.all_some, hreadOnly] at hallowed
  cases hallowed

/-- More pages may have been changed, if they may be written. -/
theorem Marked.mono (h : Marked changed a) (hle : ∀ s p, changed s p → changed' s p)
    (hallowed : ∀ s p, IsAligned p → changed' s p → mayWrite (segment? a s p) = true) :
    Marked changed' a := by
  intro s p hp
  obtain ⟨hwritable, hdirty, hparked, hkept, -, hproper, huser⟩ := h s p hp
  refine ⟨hwritable, fun e he hd hw => hle s p (hdirty e he hd hw), hparked,
    fun hc hw => hle s p (hkept hc hw), hallowed s p hp, hproper, huser⟩

end

/-! ### What upholds the marks -/

/-- The marks are right afterwards, no page has got another window, and files took only calls that were
due. -/
structure Machine.Upholds (changed : SpaceId → Nat → Prop) (before after : Machine) : Prop where
  segment : ∀ s p segment, segment? after.spaces s p = some segment →
    segment? before.spaces s p = some segment
  marked : Marked changed after.spaces
  calls : ∃ calls, after.files = Files.serveAll before.files calls ∧
    ∀ call ∈ calls, call.Due changed before.spaces

/-- Neither address spaces nor files were touched. -/
structure Machine.Aside (before after : Machine) : Prop where
  spaces_eq : after.spaces = before.spaces
  files_eq : after.files = before.files

section

variable {changed : SpaceId → Nat → Prop} {m m' m'' : Machine}

/-- Nothing is touched if nothing happens. -/
theorem Machine.Aside.refl (m : Machine) : m.Aside m := ⟨rfl, rfl⟩

/-- A change of the tables that leaves all windows alone. -/
theorem Machine.Upholds.of_marked (hmarked : Marked changed m'.spaces)
    (hsegment : ∀ s p, segment? m'.spaces s p = segment? m.spaces s p) (hfiles : m'.files = m.files) :
    m.Upholds changed m' :=
  ⟨fun s p _ h => (hsegment s p).symm.trans h, hmarked, [], hfiles, List.forall_mem_nil _⟩

/-- One page has changed, but not its window, and its marks are right. -/
theorem Machine.Upholds.of_page {s : SpaceId} {p : Nat} (hmarked : Marked changed m.spaces)
    (he : Elsewhere m.spaces m'.spaces s p)
    (hsegment : segment? m'.spaces s p = segment? m.spaces s p)
    (hpage : Marks (changed s p) p (segment? m.spaces s p) (mapped? m'.spaces s p)
      (copy? m'.spaces s p)) (hfiles : m'.files = m.files) : m.Upholds changed m' := by
  refine .of_marked (hmarked.update he (hsegment ▸ hpage)) (fun s' p' => ?_) hfiles
  by_cases hsp : s' = s ∧ p' = p
  · rw [hsp.1, hsp.2, hsegment]
  · exact he.segment hsp

/-- What touches neither spaces nor files upholds the marks. -/
theorem Machine.Aside.upholds (h : m.Aside m') (hmarked : Marked changed m.spaces) :
    m.Upholds changed m' := by
  refine .of_marked ?_ (fun s p => ?_) h.files_eq
  · rw [h.spaces_eq]
    exact hmarked
  · rw [h.spaces_eq]

/-- Marks that are upheld twice are upheld, and the calls that were due follow one another. -/
theorem Machine.Upholds.trans (h : m.Upholds changed m') (h' : m'.Upholds changed m'') :
    m.Upholds changed m'' where
  segment s p segment hsegment := h.segment s p segment (h'.segment s p segment hsegment)
  marked := h'.marked
  calls := by
    obtain ⟨calls, hfiles, hdue⟩ := h.calls
    obtain ⟨calls', hfiles', hdue'⟩ := h'.calls
    refine ⟨calls ++ calls', ?_, fun call hcall => ?_⟩
    · rw [Files.serveAll_append, hfiles', hfiles]
    · rcases List.mem_append.mp hcall with hcall | hcall
      · exact hdue call hcall
      · exact (hdue' call hcall).mono (fun _ _ hc => hc) h.segment

/-- The marks are upheld if they were, and nothing of them was touched since. -/
theorem Machine.Upholds.aside (h : m.Upholds changed m') (h' : m'.Aside m'') :
    m.Upholds changed m'' := h.trans (h'.upholds h.marked)

end

end DemandPaging
