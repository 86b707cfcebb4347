import DemandPaging.PageTable.Directory
import DemandPaging.Proofs.Replays
import DemandPaging.Proofs.Spaces
import Mathlib.Data.List.Basic

/-!
# What entries of a page directory remember

Eviction drops a page or saves it by the flags of its entry, so an entry has to remember what was done with
its page since the page was mapped: which frame it got, whether it may be written, and what was the last word
on each of the two flags. The clock turns the flags back, accesses set them, and neither may get in the way
of the other or of the fields beside them in the word that the processor sees.

`PageDirectory.Visited log d` says that the directory `d` is what the calls of `log` made of an empty one.
`MappedSince log address frame writable since` finds in the log the mapping that a page has now and what came
after it. `Remembers log d` is what the log then says of the directory, and of whatever is done with it next.
It holds after any calls (`Visited.remembers`).
-/

set_option autoImplicit false

namespace DemandPaging

/-! ### The word of an entry -/

namespace PageTableEntry

/-- A flag put behind a word is its last bit. -/
theorem toNat_append_ofBool {w : Nat} (word : BitVec w) (flag : Bool) :
    (word ++ BitVec.ofBool flag).toNat = word.toNat * 2 + flag.toNat := by
  rw [BitVec.toNat_append, ← Nat.shiftLeft_add_eq_or_of_lt (BitVec.ofBool flag).isLt, Nat.shiftLeft_eq,
    BitVec.toNat_ofBool]

/-- The fields of an entry are the digits of its word. -/
theorem toNat_toBits (e : PageTableEntry) :
    e.toBits.toNat = e.frame.toNat * 4096 + e.available.toNat * 512 + e.global.toNat * 256 +
      e.pageAttribute.toNat * 128 + e.dirty.toNat * 64 + e.accessed.toNat * 32 +
      e.cacheDisabled.toNat * 16 + e.writeThrough.toNat * 8 + e.user.toNat * 4 + e.writable.toNat * 2 +
      e.present.toNat := by
  have hframe : (e.frame ++ e.available).toNat = e.frame.toNat * 8 + e.available.toNat := by
    rw [BitVec.toNat_append, ← Nat.shiftLeft_add_eq_or_of_lt e.available.isLt, Nat.shiftLeft_eq]
  simp only [toBits, toNat_append_ofBool, hframe]
  omega

end PageTableEntry

/-! ### Calls and logs -/

/-- What may be asked of a page directory. -/
inductive DirectoryCall where
  /-- Map a page. -/
  | install (page frame : Nat) (writable : Bool)
  /-- Unmap a page. -/
  | clear (address : Nat)
  /-- Make a user access. -/
  | translate (address : Nat) (write : Bool)
  /-- Set or clear the accessed flag. -/
  | setAccessed (address : Nat) (on : Bool)
  /-- Set or clear the dirty flag. -/
  | setDirty (address : Nat) (on : Bool)
  deriving DecidableEq, Repr

/-- What a page directory answers. -/
inductive DirectoryReply where
  /-- Whether the page was mapped. -/
  | installed (done : Bool)
  /-- The last entry of the page, if it had one. -/
  | cleared (entry : Option PageTableEntry)
  /-- The frame, or the code of the fault. -/
  | translated (outcome : Except FaultCode Nat)
  /-- Nothing. -/
  | marked

/-- The calls that a page directory got, oldest first, with its answers. -/
abbrev DirectoryLog := List (DirectoryCall × DirectoryReply)

namespace DirectoryCall

/-- Carry out a call. -/
def perform (d : PageDirectory) : DirectoryCall → Except Halt (DirectoryReply × PageDirectory)
  | install page frame writable => (d.install page frame writable).map fun r => (.installed r.1, r.2)
  | clear address => .ok (.cleared (d.clear address).1, (d.clear address).2)
  | translate address write => .ok (.translated (d.translate address write).1, (d.translate address write).2)
  | setAccessed address on => .ok (.marked, d.setAccessed address on)
  | setDirty address on => .ok (.marked, d.setDirty address on)

/-- A page is mapped by its first address and to a frame whose number fits in an entry. -/
def Permitted : DirectoryCall → Prop
  | install page frame _ => IsAligned page ∧ frame ≤ maxFrame
  | clear _ | translate .. | setAccessed .. | setDirty .. => True

/-- Whether a call of a directory is permitted can be computed. -/
instance : (call : DirectoryCall) → Decidable call.Permitted
  | install .. => inferInstanceAs (Decidable (_ ∧ _))
  | clear _ | translate .. | setAccessed .. | setDirty .. => inferInstanceAs (Decidable True)

/-- The address that a call names. -/
def address : DirectoryCall → Nat
  | install address .. | clear address | translate address _ | setAccessed address _
  | setDirty address _ => address

/-- The same call at another address. -/
def moved (other : Nat) : DirectoryCall → DirectoryCall
  | install _ frame writable => install other frame writable
  | clear _ => clear other
  | translate _ write => translate other write
  | setAccessed _ on => setAccessed other on
  | setDirty _ on => setDirty other on

end DirectoryCall

namespace DirectoryLog

/-- The frame and the protection that the page of `address` was mapped with by a call, if it was. -/
def mapping? (address : Nat) : DirectoryCall × DirectoryReply → Option (Nat × Bool)
  | (.install page frame writable, .installed true) =>
    if pageNumber page = pageNumber address then some (frame, writable) else none
  | _ => none

/-- With this call the page of `address` was unmapped, if it was mapped. -/
def unmaps (address : Nat) : DirectoryCall × DirectoryReply → Bool
  | (.clear other, _) => pageNumber other = pageNumber address
  | _ => false

/-- What a call says on the dirty flag of the page of `address`: an access that went through sets it if it
is a write, and the flag may be set or cleared directly. -/
def dirtyWord? (address : Nat) : DirectoryCall × DirectoryReply → Option Bool
  | (.translate other write, .translated (.ok _)) =>
    if write ∧ pageNumber other = pageNumber address then some true else none
  | (.setDirty other on, _) => if pageNumber other = pageNumber address then some on else none
  | _ => none

/-- What a call says on the accessed flag of the page of `address`: an access that went through sets it, and
the flag may be set or cleared directly. -/
def accessedWord? (address : Nat) : DirectoryCall × DirectoryReply → Option Bool
  | (.translate other _, .translated (.ok _)) =>
    if pageNumber other = pageNumber address then some true else none
  | (.setAccessed other on, _) => if pageNumber other = pageNumber address then some on else none
  | _ => none

/-- The last word on the dirty flag. -/
def lastDirty? (log : DirectoryLog) (address : Nat) : Option Bool :=
  (log.filterMap (dirtyWord? address)).getLast?

/-- The last word on the accessed flag. -/
def lastAccessed? (log : DirectoryLog) (address : Nat) : Option Bool :=
  (log.filterMap (accessedWord? address)).getLast?

/-- The page of `address` was mapped to `frame` and not unmapped after that; `since` is the log from then
on. -/
def MappedSince (log : DirectoryLog) (address frame : Nat) (writable : Bool) (since : DirectoryLog) : Prop :=
  ∃ earlier visit, log = earlier ++ visit :: since ∧ mapping? address visit = some (frame, writable) ∧
    ∀ later ∈ since, unmaps address later = false

end DirectoryLog

namespace PageDirectory

/-- What the calls of a log make of an empty directory. -/
inductive Visited : DirectoryLog → PageDirectory → Prop where
  /-- At first nothing is mapped. -/
  | nil : Visited [] empty
  /-- One more call was carried out. -/
  | snoc {log : DirectoryLog} {d after : PageDirectory} {call : DirectoryCall} {reply : DirectoryReply}
      (h : Visited log d) (hpermitted : call.Permitted) (hrun : call.perform d = .ok (reply, after)) :
      Visited (log ++ [(call, reply)]) after

/-- What a log says of the directory, and what the directory does next. -/
structure Remembers (log : DirectoryLog) (d : PageDirectory) : Prop where
  /-- A page is mapped exactly from a call that mapped it to the next one that unmaps it. -/
  mapped_iff : ∀ address, (∃ entry, d.find? address = some entry) ↔
    ∃ frame writable since, log.MappedSince address frame writable since
  /-- Its entry has the frame and the protection that it was mapped with, and each flag is what the last
  word on it says. -/
  entry_eq : ∀ address frame writable since entry, log.MappedSince address frame writable since →
    d.find? address = some entry →
      entry.frame.toNat = frame ∧ entry.writable = writable ∧
        (entry.dirty = true ↔ since.lastDirty? address = some true) ∧
        (entry.accessed = true ↔ since.lastAccessed? address = some true)
  /-- In the word that the processor sees nothing else is ever set. -/
  word_eq : ∀ address entry, d.find? address = some entry → entry.toBits.toNat =
    entry.frame.toNat * 4096 + entry.dirty.toNat * 64 + entry.accessed.toNat * 32 + 4 +
      entry.writable.toNat * 2 + 1
  /-- Every permitted call is answered. -/
  answers : ∀ call : DirectoryCall, call.Permitted → ∃ reply after, call.perform d = .ok (reply, after)
  /-- A page that is mapped is not mapped again, and nothing changes. -/
  installs_mapped : ∀ page frame writable entry, IsAligned page → d.find? page = some entry →
    d.install page frame writable = .ok (false, d)
  /-- One that is not mapped is. -/
  installs : ∀ page frame writable, IsAligned page → frame ≤ maxFrame → d.find? page = none →
    ∃ after entry, d.install page frame writable = .ok (true, after) ∧ after.find? page = some entry
  /-- To unmap a page answers the entry that it has, and the page is not mapped then. -/
  clears : ∀ address, (d.clear address).1 = d.find? address ∧ (d.clear address).2.find? address = none
  /-- An access goes to the frame of the page, if the page is mapped and the access is no write to a page
  that may not be written. -/
  translates : ∀ address write entry, d.find? address = some entry → (write = true → entry.writable = true) →
    (d.translate address write).1 = .ok entry.frame.toNat
  /-- Otherwise it faults and changes nothing. The code tells a write to a page that may not be written
  from an access to a page that is not mapped. -/
  faults : ∀ address write code after, d.translate address write = (.error code, after) →
    after = d ∧ code.write = write ∧ code.user = true ∧
      (code.present = true ↔
        ∃ entry, d.find? address = some entry ∧ write = true ∧ entry.writable = false) ∧
      (code.present = false ↔ d.find? address = none)
  /-- A call changes the entry of no page but the one that it names. -/
  others : ∀ (call : DirectoryCall) reply after other, call.Permitted →
    call.perform d = .ok (reply, after) → pageNumber other ≠ pageNumber call.address →
      after.find? other = d.find? other
  /-- All addresses in a page name the same entry, whatever is asked. -/
  samePage : ∀ (call : DirectoryCall) other, pageNumber other = pageNumber call.address →
    call.Permitted → (call.moved other).Permitted →
      d.find? other = d.find? call.address ∧ (call.moved other).perform d = call.perform d

end PageDirectory

/-! ### One call -/

namespace PageDirectory

variable {d : PageDirectory} {page frame address other : Nat} {writable : Bool} {entry : PageTableEntry}

/-- A change of one entry. -/
theorem find?_modify (f : PageTableEntry → PageTableEntry) :
    (d.modify address f).find? other =
      if pageNumber address = pageNumber other then (d.find? other).map f else d.find? other := by
  simp only [find?, modify, Std.ExtTreeMap.getElem?_modify, Nat.compare_eq_eq]
  split
  · rename_i hpage
    rw [hpage]
  · rfl

/-- A page was unmapped. -/
theorem find?_clear :
    (d.clear address).2.find? other = if pageNumber address = pageNumber other then none else d.find? other := by
  simp only [find?, clear, Std.ExtTreeMap.getElem?_erase, Nat.compare_eq_eq]

/-- A page was mapped. -/
theorem find?_insert (entry : PageTableEntry) :
    find? { d with entries := d.entries.insert (pageNumber page) entry } other =
      if pageNumber page = pageNumber other then some entry else d.find? other := by
  simp only [find?, Std.ExtTreeMap.getElem?_insert, Nat.compare_eq_eq]

/-- A page has an entry exactly if one is found. -/
theorem contains_iff : d.entries.contains (pageNumber page) = (d.find? page).isSome :=
  Std.ExtTreeMap.contains_eq_isSome_getElem?

/-- A page that is mapped is left alone. -/
theorem install_of_some (hrefusals : d.refusals = 0) (hp : IsAligned page) (h : d.find? page = some entry) :
    d.install page frame writable = .ok (false, d) := by
  rw [install, if_neg (by omega), if_neg (not_not_intro hp), contains_iff, h]
  rfl

/-- A page that is not mapped gets an entry that nobody has used. -/
theorem install_of_none (hrefusals : d.refusals = 0) (hp : IsAligned page) (hframe : frame ≤ maxFrame)
    (h : d.find? page = none) :
    d.install page frame writable = .ok (true, { d with
      entries := d.entries.insert (pageNumber page) (.userPage (BitVec.ofNat 20 frame) writable) }) := by
  rw [install, if_neg (by omega), if_neg (not_not_intro hp), contains_iff, h,
    PageTableEntry.userPage?, if_pos hframe]
  rfl

/-- An access to a page that is not mapped. -/
theorem translate_of_none {write : Bool} (h : d.find? address = none) :
    d.translate address write = (.error (.notPresent write), d) := by
  rw [translate, h]

/-- A write to a page that may not be written. -/
theorem translate_of_denied (h : d.find? address = some entry) (hdenied : entry.writable = false) :
    d.translate address true = (.error (.protection true), d) := by
  rw [translate, h]
  exact if_pos (by rw [hdenied]; rfl)

/-- Any other access. -/
theorem translate_of_some {write : Bool} (h : d.find? address = some entry)
    (hallowed : write = true → entry.writable = true) :
    d.translate address write = (.ok entry.frame.toNat, d.modify address (·.touch write)) := by
  rw [translate, h]
  refine if_neg fun hdenied => ?_
  rw [Bool.and_eq_true, Bool.not_eq_true'] at hdenied
  rw [hallowed hdenied.1] at hdenied
  cases hdenied.2

/-- The three ways of an access. -/
theorem access_cases (d : PageDirectory) (address : Nat) (write : Bool) :
    d.find? address = none ∨
      (∃ entry, d.find? address = some entry ∧ write = true ∧ entry.writable = false) ∨
      ∃ entry, d.find? address = some entry ∧ (write = true → entry.writable = true) := by
  cases hentry : d.find? address with
  | none => exact .inl rfl
  | some entry =>
    refine .inr ?_
    by_cases hallowed : write = true → entry.writable = true
    · exact .inr ⟨entry, rfl, hallowed⟩
    · rw [Classical.not_imp, Bool.not_eq_true] at hallowed
      exact .inl ⟨entry, rfl, hallowed⟩

end PageDirectory

namespace DirectoryLog

/-- The entry of a page as a call leaves it that neither maps nor unmaps the page. -/
def remark (address : Nat) (visit : DirectoryCall × DirectoryReply) (entry : PageTableEntry) :
    PageTableEntry :=
  { entry with
    accessed := (accessedWord? address visit).getD entry.accessed
    dirty := (dirtyWord? address visit).getD entry.dirty }

/-- What a call can do to the entry of the page of `address`. -/
inductive EntryStep (address : Nat) (visit : DirectoryCall × DirectoryReply) :
    Option PageTableEntry → Option PageTableEntry → Prop where
  /-- The page is mapped, which it was not. -/
  | installs {frame : Nat} {writable : Bool} (hmaps : mapping? address visit = some (frame, writable))
      (hunmaps : unmaps address visit = false) :
      EntryStep address visit none (some (.userPage (BitVec.ofNat 20 frame) writable))
  /-- The page is unmapped. -/
  | clears {entry : Option PageTableEntry} (hmaps : mapping? address visit = none)
      (hunmaps : unmaps address visit = true) : EntryStep address visit entry none
  /-- Something is said on its flags, or nothing. -/
  | marks {entry : Option PageTableEntry} (hmaps : mapping? address visit = none)
      (hunmaps : unmaps address visit = false) :
      EntryStep address visit entry (entry.map (remark address visit))

variable {address : Nat} {visit : DirectoryCall × DirectoryReply}

/-- A call that says nothing of either flag leaves an entry as it is. -/
theorem remark_eq_id (haccessed : accessedWord? address visit = none) (hdirty : dirtyWord? address visit = none) :
    remark address visit = id := by
  funext entry
  rw [remark, haccessed, hdirty]
  rfl

/-- A call that says nothing of a page leaves its entry alone. -/
theorem EntryStep.same {entry : Option PageTableEntry} (hmaps : mapping? address visit = none)
    (hunmaps : unmaps address visit = false) (hremark : remark address visit = id) :
    EntryStep address visit entry entry := by
  have h : EntryStep address visit entry (entry.map (remark address visit)) := .marks hmaps hunmaps
  rwa [hremark, Option.map_id] at h

/-- A call that changes the entry of one page. -/
theorem EntryStep.modify {d : PageDirectory} {other : Nat} {f : PageTableEntry → PageTableEntry}
    (hmaps : mapping? address visit = none) (hunmaps : unmaps address visit = false)
    (hhere : pageNumber other = pageNumber address → remark address visit = f)
    (hthere : pageNumber other ≠ pageNumber address → remark address visit = id) :
    EntryStep address visit (d.find? address) ((d.modify other f).find? address) := by
  rw [PageDirectory.find?_modify]
  split
  · rename_i hpage
    rw [← hhere hpage]
    exact .marks hmaps hunmaps
  · rename_i hpage
    exact .same hmaps hunmaps (hthere hpage)

/-- A call that names another page leaves the entry alone. -/
theorem EntryStep.eq_of_ne {entry entry' : Option PageTableEntry} (h : EntryStep address visit entry entry')
    (hpage : pageNumber visit.1.address ≠ pageNumber address) : entry' = entry := by
  have hnone : mapping? address visit = none := by
    unfold mapping?
    split
    · exact if_neg hpage
    · rfl
  have hstays : unmaps address visit = false := by
    unfold unmaps
    split
    · exact decide_eq_false hpage
    · rfl
  have haccessed : accessedWord? address visit = none := by
    unfold accessedWord?
    split
    · exact if_neg hpage
    · exact if_neg hpage
    · rfl
  have hdirty : dirtyWord? address visit = none := by
    unfold dirtyWord?
    split
    · exact if_neg fun h => hpage h.2
    · exact if_neg hpage
    · rfl
  cases h with
  | installs hmaps => cases hnone.symm.trans hmaps
  | clears _ hunmaps => cases hstays.symm.trans hunmaps
  | marks => rw [remark_eq_id haccessed hdirty, Option.map_id, id]

end DirectoryLog

namespace PageDirectory

open DirectoryLog

variable {d : PageDirectory} {call : DirectoryCall}

/-- To map a page is answered. -/
theorem exists_perform_install {page frame : Nat} {writable : Bool} (hrefusals : d.refusals = 0)
    (hp : IsAligned page) (hframe : frame ≤ maxFrame) :
    ∃ reply after, (DirectoryCall.install page frame writable).perform d = .ok (reply, after) ∧
      after.refusals = 0 ∧ ∀ address,
        EntryStep address (.install page frame writable, reply) (d.find? address) (after.find? address) := by
  rw [DirectoryCall.perform]
  cases hentry : d.find? page with
  | some entry =>
    rw [install_of_some hrefusals hp hentry]
    exact ⟨_, _, rfl, hrefusals, fun address => .same rfl rfl (remark_eq_id rfl rfl)⟩
  | none =>
    rw [install_of_none hrefusals hp hframe hentry]
    refine ⟨_, _, rfl, hrefusals, fun address => ?_⟩
    rw [find?_insert]
    split
    · rename_i hpage
      have hnone : d.find? address = none := by
        rw [find?, ← hpage]
        exact hentry
      rw [hnone]
      exact .installs (if_pos hpage) rfl
    · rename_i hpage
      exact .same (if_neg hpage) rfl (remark_eq_id rfl rfl)

/-- A user access is answered. It leaves its marks only if it goes through. -/
theorem entryStep_translate (other : Nat) (write : Bool) (address : Nat) :
    EntryStep address (.translate other write, .translated (d.translate other write).1) (d.find? address)
      ((d.translate other write).2.find? address) := by
  rcases d.access_cases other write with hnone | ⟨entry, hentry, rfl, hdenied⟩ | ⟨entry, hentry, hallowed⟩
  · rw [translate_of_none hnone]
    exact .same rfl rfl (remark_eq_id rfl rfl)
  · rw [translate_of_denied hentry hdenied]
    exact .same rfl rfl (remark_eq_id rfl rfl)
  · rw [translate_of_some hentry hallowed]
    refine .modify rfl rfl (fun hpage => ?_) fun hpage => ?_
    · funext e
      cases write <;> simp [remark, accessedWord?, dirtyWord?, hpage, PageTableEntry.touch]
    · exact remark_eq_id (if_neg hpage) (if_neg fun h => hpage h.2)

/-- A translation leaves the number of mappings that are yet to be refused. -/
theorem refusals_translate (other : Nat) (write : Bool) : (d.translate other write).2.refusals = d.refusals := by
  rcases d.access_cases other write with hnone | ⟨entry, hentry, rfl, hdenied⟩ | ⟨entry, hentry, hallowed⟩
  · rw [translate_of_none hnone]
  · rw [translate_of_denied hentry hdenied]
  · rw [translate_of_some hentry hallowed]
    rfl

/-- Every permitted call is answered, and does to each entry what a call can do. -/
theorem exists_perform (hrefusals : d.refusals = 0) (hpermitted : call.Permitted) :
    ∃ reply after, call.perform d = .ok (reply, after) ∧ after.refusals = 0 ∧
      ∀ address, EntryStep address (call, reply) (d.find? address) (after.find? address) := by
  cases call with
  | install page frame writable => exact exists_perform_install hrefusals hpermitted.1 hpermitted.2
  | clear other =>
    refine ⟨_, _, rfl, hrefusals, fun address => ?_⟩
    rw [find?_clear]
    split
    · rename_i hpage
      exact .clears rfl (decide_eq_true hpage)
    · rename_i hpage
      exact .same rfl (decide_eq_false hpage) (remark_eq_id rfl rfl)
  | translate other write =>
    exact ⟨_, _, rfl, (refusals_translate other write).trans hrefusals, entryStep_translate other write⟩
  | setAccessed other on =>
    refine ⟨_, _, rfl, hrefusals, fun address => .modify rfl rfl (fun hpage => ?_) fun hpage => ?_⟩
    · funext e
      simp [remark, accessedWord?, dirtyWord?, hpage]
    · exact remark_eq_id (if_neg hpage) rfl
  | setDirty other on =>
    refine ⟨_, _, rfl, hrefusals, fun address => .modify rfl rfl (fun hpage => ?_) fun hpage => ?_⟩
    · funext e
      simp [remark, accessedWord?, dirtyWord?, hpage]
    · exact remark_eq_id rfl (if_neg hpage)

end PageDirectory

/-! ### All calls -/

namespace DirectoryLog

variable {address frame : Nat} {writable : Bool} {log since : DirectoryLog}
  {visit : DirectoryCall × DirectoryReply}

/-- The last word on the dirty flag is that of the last call, if it has one. -/
theorem lastDirty?_concat : lastDirty? (since ++ [visit]) address =
    (dirtyWord? address visit).or (since.lastDirty? address) := getLast?_filterMap_concat _ _ _

/-- The last word on the accessed flag is that of the last call, if it has one. -/
theorem lastAccessed?_concat : lastAccessed? (since ++ [visit]) address =
    (accessedWord? address visit).or (since.lastAccessed? address) := getLast?_filterMap_concat _ _ _

/-- One more call ends the time that a page was mapped, or begins it, or adds to it. -/
theorem mappedSince_concat {since' : DirectoryLog} :
    MappedSince (log ++ [visit]) address frame writable since' ↔
      (since' = [] ∧ mapping? address visit = some (frame, writable)) ∨
        ∃ since, since' = since ++ [visit] ∧ unmaps address visit = false ∧
          MappedSince log address frame writable since := by
  constructor
  · rintro ⟨earlier, start, heq, hmaps, hstays⟩
    rcases List.eq_nil_or_concat' since' with rfl | ⟨since, last, rfl⟩
    · obtain ⟨-, hvisit⟩ := List.append_inj' heq rfl
      cases hvisit
      exact .inl ⟨rfl, hmaps⟩
    · rw [← List.cons_append, ← List.append_assoc] at heq
      obtain ⟨rfl, hvisit⟩ := List.append_inj' heq rfl
      cases hvisit
      refine .inr ⟨since, rfl, hstays _ (by simp), earlier, start, rfl, hmaps, fun later hlater => ?_⟩
      exact hstays later (List.mem_append_left _ hlater)
  · rintro (⟨rfl, hmaps⟩ | ⟨since, rfl, hstays, earlier, start, rfl, hmaps, hearlier⟩)
    · exact ⟨log, visit, rfl, hmaps, fun later hlater => absurd hlater List.not_mem_nil⟩
    · refine ⟨earlier, start, by simp, hmaps, fun later hlater => ?_⟩
      rcases List.mem_append.mp hlater with hlater | hlater
      · exact hearlier later hlater
      · rw [List.mem_singleton.mp hlater]
        exact hstays

/-- A page is mapped by a permitted call, to a frame whose number fits. -/
theorem frame_le_of_mapping? (hpermitted : visit.1.Permitted)
    (hmaps : mapping? address visit = some (frame, writable)) : frame ≤ maxFrame := by
  unfold mapping? at hmaps
  split at hmaps
  · split at hmaps
    · cases hmaps
      exact hpermitted.2
    · cases hmaps
  · cases hmaps

/-- The entry of a page that was mapped, after some more calls. -/
def entryOf (address frame : Nat) (writable : Bool) (since : DirectoryLog) : PageTableEntry :=
  { PageTableEntry.userPage (BitVec.ofNat 20 frame) writable with
    accessed := (since.lastAccessed? address).getD false
    dirty := (since.lastDirty? address).getD false }

/-- The entry after one more call is the one before it with what the call says. -/
theorem remark_entryOf : remark address visit (entryOf address frame writable since) =
    entryOf address frame writable (since ++ [visit]) := by
  simp only [remark, entryOf, lastDirty?_concat, lastAccessed?_concat, Option.getD_or]

/-- A log says of each page whether it is mapped, and how. -/
structure Records (log : DirectoryLog) (d : PageDirectory) : Prop where
  refusals_eq : d.refusals = 0
  frame_le : ∀ address frame writable since, log.MappedSince address frame writable since → frame ≤ maxFrame
  find?_iff : ∀ address entry, d.find? address = some entry ↔ ∃ frame writable since,
    log.MappedSince address frame writable since ∧ entry = entryOf address frame writable since

variable {d after : PageDirectory}

/-- No calls are a record of the empty directory. -/
theorem records_nil : Records [] PageDirectory.empty where
  refusals_eq := rfl
  frame_le := by
    rintro address frame writable since ⟨earlier, visit, heq, -⟩
    simp at heq
  find?_iff := by
    intro address entry
    refine ⟨fun h => ?_, ?_⟩
    · simp [PageDirectory.find?, PageDirectory.empty] at h
    · rintro ⟨frame, writable, since, ⟨earlier, visit, heq, -⟩, -⟩
      simp at heq

/-- One more call adds to what a log says of a page. -/
theorem EntryStep.find?_iff {entry : Option PageTableEntry} {entry' : Option PageTableEntry}
    (hstep : EntryStep address visit entry entry')
    (h : ∀ e, entry = some e ↔ ∃ frame writable since,
      log.MappedSince address frame writable since ∧ e = entryOf address frame writable since)
    (e' : PageTableEntry) : entry' = some e' ↔ ∃ frame writable since,
      MappedSince (log ++ [visit]) address frame writable since ∧
        e' = entryOf address frame writable since := by
  simp only [mappedSince_concat]
  cases hstep with
  | @installs frame writable hmaps hunmaps =>
    constructor
    · rintro ⟨⟩
      exact ⟨frame, writable, [], .inl ⟨rfl, hmaps⟩, rfl⟩
    · rintro ⟨frame', writable', since, ⟨rfl, hmaps'⟩ | ⟨earlier, rfl, -, hearlier⟩, rfl⟩
      · cases hmaps.symm.trans hmaps'
        rfl
      · cases (h _).mpr ⟨_, _, _, hearlier, rfl⟩
  | clears hmaps hunmaps =>
    constructor
    · rintro ⟨⟩
    · rintro ⟨frame', writable', since, ⟨rfl, hmaps'⟩ | ⟨earlier, rfl, hstays, -⟩, rfl⟩
      · cases hmaps.symm.trans hmaps'
      · cases hunmaps.symm.trans hstays
  | marks hmaps hunmaps =>
    rw [Option.map_eq_some_iff]
    constructor
    · rintro ⟨e, he, rfl⟩
      obtain ⟨frame, writable, since, hsince, rfl⟩ := (h e).mp he
      exact ⟨frame, writable, _, .inr ⟨since, rfl, hunmaps, hsince⟩, remark_entryOf⟩
    · rintro ⟨frame', writable', since, ⟨rfl, hmaps'⟩ | ⟨earlier, rfl, -, hearlier⟩, rfl⟩
      · cases hmaps.symm.trans hmaps'
      · exact ⟨_, (h _).mpr ⟨_, _, _, hearlier, rfl⟩, remark_entryOf⟩

/-- What one permitted call keeps. -/
theorem Records.perform {call : DirectoryCall} {reply : DirectoryReply} (h : Records log d)
    (hpermitted : call.Permitted) (hrun : call.perform d = .ok (reply, after)) :
    Records (log ++ [(call, reply)]) after := by
  obtain ⟨reply', after', hrun', hrefusals, hsteps⟩ := d.exists_perform h.refusals_eq hpermitted
  cases hrun'.symm.trans hrun
  refine ⟨hrefusals, fun address frame writable since hsince => ?_, fun address =>
    (hsteps address).find?_iff (h.find?_iff address)⟩
  rcases mappedSince_concat.mp hsince with ⟨-, hmaps⟩ | ⟨earlier, -, -, hearlier⟩
  · exact frame_le_of_mapping? hpermitted hmaps
  · exact h.frame_le _ _ _ _ hearlier

end DirectoryLog

namespace PageDirectory

open DirectoryLog

variable {log : DirectoryLog} {d : PageDirectory}

/-- Whatever calls were made, their log says which pages are mapped, and how. -/
theorem Visited.records (h : Visited log d) : Records log d := by
  induction h with
  | nil => exact records_nil
  | snoc _ hpermitted hrun ih => exact ih.perform hpermitted hrun

/-- A call at another address of the same page is the same call. -/
theorem perform_moved {call : DirectoryCall} {other : Nat} (hpage : pageNumber other = pageNumber call.address)
    (hpermitted : call.Permitted) (hmoved : (call.moved other).Permitted) :
    (call.moved other).perform d = call.perform d := by
  cases call with
  | install page frame writable =>
    obtain rfl := (pageNumber_inj hmoved.1 hpermitted.1).mp hpage
    rfl
  | clear address =>
    simp only [DirectoryCall.address] at hpage
    simp only [DirectoryCall.perform, DirectoryCall.moved, clear, find?, hpage]
  | translate address write =>
    simp only [DirectoryCall.address] at hpage
    simp only [DirectoryCall.perform, DirectoryCall.moved, translate, find?, modify, hpage]
  | setAccessed address on =>
    simp only [DirectoryCall.address] at hpage
    simp only [DirectoryCall.perform, DirectoryCall.moved, setAccessed, modify, hpage]
  | setDirty address on =>
    simp only [DirectoryCall.address] at hpage
    simp only [DirectoryCall.perform, DirectoryCall.moved, setDirty, modify, hpage]

/-- What the log says of the entry of a page that was mapped. -/
theorem find?_of_mappedSince {address frame : Nat} {writable : Bool} {since : DirectoryLog}
    (h : Records log d) (hsince : log.MappedSince address frame writable since) :
    d.find? address = some (entryOf address frame writable since) :=
  (h.find?_iff _ _).mpr ⟨_, _, _, hsince, rfl⟩

/-- A flag is set if the last word on it was to set it. -/
theorem getD_false_eq_true {word : Option Bool} : word.getD false = true ↔ word = some true := by
  cases word with
  | none => simp
  | some on => simp

/-- What the log says holds of the directory and of whatever is done with it next. -/
theorem remembers_of_records (h : Records log d) : Remembers log d where
  mapped_iff := by
    intro address
    constructor
    · rintro ⟨entry, hentry⟩
      obtain ⟨frame, writable, since, hsince, -⟩ := (h.find?_iff _ _).mp hentry
      exact ⟨frame, writable, since, hsince⟩
    · rintro ⟨frame, writable, since, hsince⟩
      exact ⟨_, find?_of_mappedSince h hsince⟩
  entry_eq := by
    intro address frame writable since entry hsince hentry
    cases hentry.symm.trans (find?_of_mappedSince h hsince)
    have hlt : frame < 1048576 := Nat.lt_succ_of_le (h.frame_le _ _ _ _ hsince)
    exact ⟨Nat.mod_eq_of_lt hlt, rfl, getD_false_eq_true, getD_false_eq_true⟩
  word_eq := by
    intro address entry hentry
    obtain ⟨frame, writable, since, -, rfl⟩ := (h.find?_iff _ _).mp hentry
    simp [PageTableEntry.toNat_toBits, entryOf, PageTableEntry.userPage]
  answers := by
    intro call hpermitted
    obtain ⟨reply, after, hrun, -⟩ := d.exists_perform h.refusals_eq hpermitted
    exact ⟨reply, after, hrun⟩
  installs_mapped := fun page frame writable entry hp hentry => install_of_some h.refusals_eq hp hentry
  installs := by
    intro page frame writable hp hframe hnone
    exact ⟨_, _, install_of_none h.refusals_eq hp hframe hnone, (find?_insert _).trans (if_pos rfl)⟩
  clears := fun address => ⟨rfl, find?_clear.trans (if_pos rfl)⟩
  translates := by
    intro address write entry hentry hallowed
    rw [translate_of_some hentry hallowed]
  faults := by
    intro address write code after hfault
    rcases d.access_cases address write with hnone | ⟨entry, hentry, rfl, hdenied⟩ | ⟨entry, hentry, hallowed⟩
    · cases (translate_of_none hnone).symm.trans hfault
      exact ⟨rfl, rfl, rfl, by simp [FaultCode.notPresent, hnone], by simp [FaultCode.notPresent, hnone]⟩
    · cases (translate_of_denied hentry hdenied).symm.trans hfault
      refine ⟨rfl, rfl, rfl, ?_, ?_⟩
      · simp [FaultCode.protection, hentry, hdenied]
      · simp [FaultCode.protection, hentry]
    · cases (translate_of_some hentry hallowed).symm.trans hfault
  others := by
    intro call reply after other hpermitted hrun hpage
    obtain ⟨reply', after', hrun', -, hsteps⟩ := d.exists_perform h.refusals_eq hpermitted
    cases hrun'.symm.trans hrun
    exact (hsteps other).eq_of_ne (Ne.symm hpage)
  samePage := by
    intro call other hpage hpermitted hmoved
    refine ⟨?_, perform_moved hpage hpermitted hmoved⟩
    rw [find?, find?, hpage]

/-- After any calls the directory remembers of each page that is mapped what was done with it. -/
theorem Visited.remembers (h : Visited log d) : Remembers log d := remembers_of_records h.records

/-- Carry out some calls on an empty directory, if they are permitted and answered. -/
def replay (calls : List DirectoryCall) : Option (DirectoryLog × PageDirectory) :=
  calls.foldlM (fun r call =>
    if call.Permitted then
      match call.perform r.2 with
      | .ok (reply, after) => some (r.1 ++ [(call, reply)], after)
      | .error _ => none
    else none) ([], empty)

/-- A directory that calls lead to by evaluation is one that they lead to. -/
theorem visited_of_replay {calls : List DirectoryCall} {r : DirectoryLog × PageDirectory}
    (h : replay calls = some r) : Visited r.1 r.2 := by
  refine @of_foldlM _ _ _ _ _ (fun _ r => Visited r.1 r.2) .nil
    (fun earlier call before after hbefore hlast => ?_) _ h
  split at hlast
  · rename_i hpermitted
    split at hlast
    · rename_i reply after hrun
      cases hlast
      exact hbefore.snoc hpermitted hrun
    · cases hlast
  · cases hlast

/-- A page is written at one address, found dirty and marked clean at another, and read. The page after it
may not be written, and a write there leaves no mark. -/
theorem remembers_sample : ∃ log d, Visited log d ∧ log.length = 7 ∧
    (d.find? 0x10000000).map (·.toBits) = some 0x3027#32 ∧
    (d.find? 0x10001fff).map (·.toBits) = some 0x7005#32 ∧ Remembers log d := by
  have hreplay : (replay [.install 0x10000000 3 true, .translate 0x1000000c true,
      .setDirty 0x10000005 false, .translate 0x10000000 false, .install 0x10001000 7 false,
      .translate 0x10001008 true, .install 0x10000000 4 false]).any (fun r => r.1.length = 7 &&
        (r.2.find? 0x10000000).map (·.toBits) = some 0x3027#32 &&
        (r.2.find? 0x10001fff).map (·.toBits) = some 0x7005#32) = true := by decide +kernel
  obtain ⟨⟨log, d⟩, hr, hfacts⟩ := Option.any_eq_true _ _ |>.mp hreplay
  simp only [Bool.and_eq_true, decide_eq_true_eq] at hfacts
  have hvisited := visited_of_replay hr
  exact ⟨log, d, hvisited, hfacts.1.1, hfacts.1.2, hfacts.2, hvisited.remembers⟩

end PageDirectory

end DemandPaging
