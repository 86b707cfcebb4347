import DemandPaging.Machine
import Mathlib.Data.List.Nodup

/-!
# Views of the address spaces

What the memory manager knows of a page of some address space is in two tables: the entry of the page
directory (`mapped?`) and the entry of the supplemental page table (`info?`). What it knows of an
address space as a whole is its `Standing`. These three views say all that the theorems need of an
array of address spaces.

Every change that the memory manager makes to one page is one of the small updates below, and the
effect of an update on the three views is a `simp` lemma. So a statement about the spaces is a
statement about functions of pages, and no proof opens a table.
-/

set_option autoImplicit false

namespace DemandPaging

/-- Two aligned addresses with the same page number are the same. -/
theorem pageNumber_inj {p q : Nat} (hp : IsAligned p) (hq : IsAligned q) :
    pageNumber p = pageNumber q ↔ p = q := by
  simp only [IsAligned, pageOffset, pageNumber, pageSize] at *
  omega

/-- What is known of an address space besides its pages. -/
structure Standing where
  /-- How many of the next mappings its page directory will turn down. -/
  refusals : Nat
  /-- The live mappings by number. -/
  mappings : Std.ExtTreeMap Nat Mapping
  /-- The number of the next mapping. -/
  nextMapping : Nat
  /-- It was torn down. -/
  destroyed : Bool

/-- The standing of an address space. -/
def AddressSpace.standing (space : AddressSpace) : Standing where
  refusals := space.directory.refusals
  mappings := space.supplement.mappings
  nextMapping := space.supplement.nextMapping
  destroyed := space.supplement.destroyed

namespace Spaces

variable (spaces : Array AddressSpace) (s : SpaceId) (p : Nat)

/-- The entry of a page in the page directory of its space. -/
def mapped? : Option PageTableEntry := spaces[s]?.bind (·.directory.find? p)

/-- The frame of a page, if it is mapped. -/
def frame? : Option Nat := (mapped? spaces s p).map (·.frame.toNat)

/-- The entry of a page in the supplemental page table of its space. -/
def info? : Option PageInfo := spaces[s]?.bind (·.supplement.find? p)

/-- The standing of a space. -/
def standing? : Option Standing := spaces[s]?.map (·.standing)

/-- The file window of a page, if it has one. -/
def segment? : Option Segment := (info? spaces s p).bind (·.segment?)

/-- The swap copy of a page, if it has one. -/
def copy? : Option SwapCopy := (info? spaces s p).bind (·.copy?)

/-- The number of the next mapping of a space. -/
def next? : Option Nat := (standing? spaces s).map (·.nextMapping)

/-- A live mapping of a space. -/
def mapping? (id : Nat) : Option Mapping := (standing? spaces s).bind (·.mappings[id]?)

/-! ### Updates -/

/-- Change the page directory of a space. -/
def onDirectory (f : PageDirectory → PageDirectory) : Array AddressSpace :=
  spaces.modify s fun space => { space with directory := f space.directory }

/-- Change the supplemental page table of a space. -/
def onSupplement (f : Supplement → Supplement) : Array AddressSpace :=
  spaces.modify s fun space => { space with supplement := f space.supplement }

/-- Map a page. -/
def map (e : PageTableEntry) : Array AddressSpace :=
  onDirectory spaces s fun d => { d with entries := d.entries.insert (pageNumber p) e }

/-- Unmap a page. -/
def unmap : Array AddressSpace := onDirectory spaces s fun d => (d.clear p).2

/-- Change the entry of a mapped page. -/
def mark (f : PageTableEntry → PageTableEntry) : Array AddressSpace :=
  onDirectory spaces s fun d => d.modify p f

/-- Give a page an entry in the supplemental page table. -/
def put (info : PageInfo) : Array AddressSpace :=
  onSupplement spaces s fun table => { table with entries := table.entries.insert p info }

/-- Change the entry of a page in the supplemental page table, if it has one. -/
def amend (f : PageInfo → PageInfo) : Array AddressSpace :=
  onSupplement spaces s fun table => table.modify p f

/-- Drop the entry of a page from the supplemental page table. -/
def drop : Array AddressSpace := onSupplement spaces s fun table => table.erase p

variable {spaces s p}

/-! ### Views of one space -/

/-- The view of the mappings, where the space is at hand. -/
theorem mapped?_eq {space : AddressSpace} (h : spaces[s]? = some space) :
    mapped? spaces s p = space.directory.find? p := by simp [mapped?, h]

/-- The view of the entries, where the space is at hand. -/
theorem info?_eq {space : AddressSpace} (h : spaces[s]? = some space) :
    info? spaces s p = space.supplement.find? p := by simp [info?, h]

/-- The view of the standing, where the space is at hand. -/
theorem standing?_eq {space : AddressSpace} (h : spaces[s]? = some space) :
    standing? spaces s = some space.standing := by simp [standing?, h]

/-- The view of the live mappings, where the space is at hand. -/
theorem mapping?_eq {space : AddressSpace} (h : spaces[s]? = some space) (id : Nat) :
    mapping? spaces s id = space.supplement.mappings[id]? := by
  rw [mapping?, standing?_eq h]
  rfl

/-- A space that has a mapped page exists. -/
theorem lt_size_of_mapped? {e : PageTableEntry} (h : mapped? spaces s p = some e) :
    s < spaces.size := by
  by_contra hs
  simp [mapped?, Array.getElem?_eq_none (Nat.le_of_not_lt hs)] at h

/-- A space in which a page has an entry exists. -/
theorem lt_size_of_info? {info : PageInfo} (h : info? spaces s p = some info) : s < spaces.size := by
  by_contra hs
  simp [info?, Array.getElem?_eq_none (Nat.le_of_not_lt hs)] at h

/-- Addresses in one page have the same entry in the page directory. -/
theorem mapped?_pageOf : mapped? spaces s (pageOf p) = mapped? spaces s p := by
  have : pageNumber (pageOf p) = pageNumber p := by
    simp only [pageNumber, pageOf, pageSize]
    omega
  simp [mapped?, PageDirectory.find?, this]

/-! ### Effects of updates -/

/-- A change of a page directory makes no new space. -/
@[simp] theorem size_onDirectory {f : PageDirectory → PageDirectory} :
    (onDirectory spaces s f).size = spaces.size := by simp [onDirectory]

/-- A change of a supplemental page table makes no new space. -/
@[simp] theorem size_onSupplement {g : Supplement → Supplement} :
    (onSupplement spaces s g).size = spaces.size := by simp [onSupplement]

/-- To replace the page directory by one computed from it is to change it. -/
theorem modify_directory {space : AddressSpace} (h : spaces[s]? = some space)
    (f : PageDirectory → PageDirectory) :
    (spaces.modify s fun space' => { space' with directory := f space.directory }) =
      onDirectory spaces s f := by
  apply Array.ext_getElem?
  intro i
  simp only [onDirectory, Array.getElem?_modify]
  split
  · subst i
    simp [h]
  · rfl

/-- To replace the supplemental page table by one computed from it is to change it. -/
theorem modify_supplement {space : AddressSpace} (h : spaces[s]? = some space)
    (g : Supplement → Supplement) :
    (spaces.modify s fun space' => { space' with supplement := g space.supplement }) =
      onSupplement spaces s g := by
  apply Array.ext_getElem?
  intro i
  simp only [onSupplement, Array.getElem?_modify]
  split
  · subst i
    simp [h]
  · rfl

/-- One change of the supplemental page table after another. -/
theorem onSupplement_onSupplement {f g : Supplement → Supplement} :
    onSupplement (onSupplement spaces s f) s g = onSupplement spaces s fun table => g (f table) := by
  apply Array.ext_getElem?
  intro i
  simp only [onSupplement, Array.getElem?_modify]
  split
  · cases spaces[i]? <;> rfl
  · rfl

/-- A change that leaves the page directory of the space as it is does nothing. -/
theorem onDirectory_eq_self {f : PageDirectory → PageDirectory}
    (h : ∀ space, spaces[s]? = some space → f space.directory = space.directory) :
    onDirectory spaces s f = spaces := by
  apply Array.ext_getElem?
  intro i
  simp only [onDirectory, Array.getElem?_modify]
  split
  · subst i
    cases hs : spaces[s]? with
    | none => rfl
    | some space => simp [h space hs]
  · rfl

section

variable {s' : SpaceId} {q : Nat} {f : PageDirectory → PageDirectory} {g : Supplement → Supplement}

/-- What is mapped in the space is read off the changed directory; other spaces keep theirs. -/
theorem mapped?_onDirectory :
    mapped? (onDirectory spaces s f) s' q =
      if s = s' then spaces[s]?.bind fun space => (f space.directory).find? q
      else mapped? spaces s' q := by
  simp only [mapped?, onDirectory, Array.getElem?_modify]
  split
  · subst s'
    cases spaces[s]? <;> rfl
  · rfl

/-- The supplemental page table has no say in what is mapped. -/
@[simp] theorem mapped?_onSupplement : mapped? (onSupplement spaces s g) s' q = mapped? spaces s' q := by
  simp only [mapped?, onSupplement, Array.getElem?_modify]
  split
  · cases spaces[s']? <;> rfl
  · rfl

/-- Entries of the space are read off the changed table; other spaces keep theirs. -/
theorem info?_onSupplement :
    info? (onSupplement spaces s g) s' q =
      if s = s' then spaces[s]?.bind fun space => (g space.supplement).find? q
      else info? spaces s' q := by
  simp only [info?, onSupplement, Array.getElem?_modify]
  split
  · subst s'
    cases spaces[s]? <;> rfl
  · rfl

/-- The page directory has no say in the entries. -/
@[simp] theorem info?_onDirectory : info? (onDirectory spaces s f) s' q = info? spaces s' q := by
  simp only [info?, onDirectory, Array.getElem?_modify]
  split
  · cases spaces[s']? <;> rfl
  · rfl

/-- A change of a page directory that leaves its refusals alone does not show in the standing. -/
theorem standing?_onDirectory (hf : ∀ d, (f d).refusals = d.refusals) :
    standing? (onDirectory spaces s f) s' = standing? spaces s' := by
  simp only [standing?, onDirectory, Array.getElem?_modify]
  split
  · cases spaces[s']? <;> simp [AddressSpace.standing, hf]
  · rfl

/-- The standing of the space is that of the changed table; other spaces keep theirs. -/
theorem standing?_onSupplement :
    standing? (onSupplement spaces s g) s' =
      if s = s' then spaces[s]?.map fun space =>
        { space with supplement := g space.supplement }.standing
      else standing? spaces s' := by
  simp only [standing?, onSupplement, Array.getElem?_modify]
  split
  · subst s'
    cases spaces[s]? <;> rfl
  · rfl

/-- The new entry is found at every address in the page, and at no other. -/
theorem mapped?_map {e : PageTableEntry} (hs : s < spaces.size) :
    mapped? (map spaces s p e) s' q =
      if s = s' ∧ pageNumber p = pageNumber q then some e else mapped? spaces s' q := by
  rw [map, mapped?_onDirectory]
  by_cases h : s = s'
  · subst h
    simp [mapped?, PageDirectory.find?, Std.ExtTreeMap.getElem?_insert, hs]
  · simp [h]

/-- Nothing is found any more at any address in the page. -/
@[simp] theorem mapped?_unmap :
    mapped? (unmap spaces s p) s' q =
      if s = s' ∧ pageNumber p = pageNumber q then none else mapped? spaces s' q := by
  rw [unmap, mapped?_onDirectory]
  by_cases h : s = s'
  · subst h
    cases hs : spaces[s]? <;>
      simp [mapped?, PageDirectory.find?, PageDirectory.clear, Std.ExtTreeMap.getElem?_erase, hs]
  · simp [h]

/-- The entry is found changed at every address in the page, if there is one. -/
@[simp] theorem mapped?_mark {f : PageTableEntry → PageTableEntry} :
    mapped? (mark spaces s p f) s' q =
      if s = s' ∧ pageNumber p = pageNumber q then (mapped? spaces s' q).map f
      else mapped? spaces s' q := by
  rw [mark, mapped?_onDirectory]
  by_cases h : s = s'
  · subst h
    cases hs : spaces[s]? with
    | none => simp [mapped?, hs]
    | some space =>
      by_cases hp : pageNumber p = pageNumber q <;>
        simp [mapped?, PageDirectory.find?, PageDirectory.modify, Std.ExtTreeMap.getElem?_modify,
          hs, hp]
  · simp [h]

/-- How a page is mapped after its entry was changed. -/
theorem mapped?_mark_self {f : PageTableEntry → PageTableEntry} {entry : PageTableEntry}
    (h : mapped? spaces s p = some entry) : mapped? (mark spaces s p f) s p = some (f entry) := by
  rw [mapped?_mark, if_pos ⟨rfl, rfl⟩, h, Option.map_some]

/-- A new entry of the supplemental page table is found under the address that it was put at. -/
theorem info?_put {i : PageInfo} (hs : s < spaces.size) :
    info? (put spaces s p i) s' q = if s = s' ∧ p = q then some i else info? spaces s' q := by
  rw [put, info?_onSupplement]
  by_cases h : s = s'
  · subst h
    simp [info?, Supplement.find?, Std.ExtTreeMap.getElem?_insert, hs]
  · simp [h]

/-- An entry of the supplemental page table is found changed, if there is one. -/
@[simp] theorem info?_amend {f : PageInfo → PageInfo} :
    info? (amend spaces s p f) s' q =
      if s = s' ∧ p = q then (info? spaces s' q).map f else info? spaces s' q := by
  rw [amend, info?_onSupplement]
  by_cases h : s = s'
  · subst h
    cases hs : spaces[s]? with
    | none => simp [info?, hs]
    | some space =>
      by_cases hp : p = q <;>
        simp [info?, Supplement.find?, Supplement.modify, Std.ExtTreeMap.getElem?_modify, hs, hp]
  · simp [h]

/-- Nothing is found any more where an entry was dropped. -/
@[simp] theorem info?_drop :
    info? (drop spaces s p) s' q = if s = s' ∧ p = q then none else info? spaces s' q := by
  rw [drop, info?_onSupplement]
  by_cases h : s = s'
  · subst h
    cases hs : spaces[s]? <;>
      simp [info?, Supplement.find?, Supplement.erase, Std.ExtTreeMap.getElem?_erase, hs]
  · simp [h]

/-- To put an entry in the supplemental page table maps nothing. -/
@[simp] theorem mapped?_put {i : PageInfo} : mapped? (put spaces s p i) s' q = mapped? spaces s' q :=
  mapped?_onSupplement

/-- To change an entry of the supplemental page table maps and unmaps nothing. -/
@[simp] theorem mapped?_amend {f : PageInfo → PageInfo} :
    mapped? (amend spaces s p f) s' q = mapped? spaces s' q :=
  mapped?_onSupplement

/-- To drop an entry of the supplemental page table unmaps nothing. -/
@[simp] theorem mapped?_drop : mapped? (drop spaces s p) s' q = mapped? spaces s' q :=
  mapped?_onSupplement

/-- To map a page makes no entry in the supplemental page table. -/
@[simp] theorem info?_map {e : PageTableEntry} : info? (map spaces s p e) s' q = info? spaces s' q :=
  info?_onDirectory

/-- To unmap a page leaves its entry in the supplemental page table. -/
@[simp] theorem info?_unmap : info? (unmap spaces s p) s' q = info? spaces s' q := info?_onDirectory

/-- Marks of mapped pages do not show in the supplemental page table. -/
@[simp] theorem info?_mark {f : PageTableEntry → PageTableEntry} :
    info? (mark spaces s p f) s' q = info? spaces s' q :=
  info?_onDirectory

/-- To map a page does not change the standing of its space. -/
@[simp] theorem standing?_map {e : PageTableEntry} :
    standing? (map spaces s p e) s' = standing? spaces s' :=
  standing?_onDirectory fun _ => rfl

/-- To unmap a page does not change the standing of its space. -/
@[simp] theorem standing?_unmap : standing? (unmap spaces s p) s' = standing? spaces s' :=
  standing?_onDirectory fun _ => rfl

/-- Marks of mapped pages do not change the standing of their space. -/
@[simp] theorem standing?_mark {f : PageTableEntry → PageTableEntry} :
    standing? (mark spaces s p f) s' = standing? spaces s' :=
  standing?_onDirectory fun _ => rfl

/-- The entries are what they were if a change leaves them alone. -/
theorem info?_onSupplement_entries (hg : ∀ table, (g table).entries = table.entries) :
    info? (onSupplement spaces s g) s' q = info? spaces s' q := by
  rw [info?_onSupplement]
  split
  · subst s'
    simp only [info?, Supplement.find?, hg]
  · rfl

/-- Pages have the windows that they had if a change leaves the entries alone. -/
theorem segment?_onSupplement_entries (hg : ∀ table, (g table).entries = table.entries) :
    segment? (onSupplement spaces s g) s' q = segment? spaces s' q := by
  rw [segment?, segment?, info?_onSupplement_entries hg]

/-- The standing does not depend on the entries of the supplemental page table. -/
theorem standing?_onSupplement_entries
    (hg : ∀ table, ({ table with entries := (g table).entries } : Supplement) = g table) :
    standing? (onSupplement spaces s g) s' = standing? spaces s' := by
  rw [standing?_onSupplement]
  split
  · subst s'
    rw [standing?]
    congr 1
    funext space
    rw [← hg space.supplement]
    rfl
  · rfl

/-- To put an entry in the supplemental page table does not change the standing. -/
@[simp] theorem standing?_put {i : PageInfo} :
    standing? (put spaces s p i) s' = standing? spaces s' :=
  standing?_onSupplement_entries fun _ => rfl

/-- To change an entry of the supplemental page table does not change the standing. -/
@[simp] theorem standing?_amend {f : PageInfo → PageInfo} :
    standing? (amend spaces s p f) s' = standing? spaces s' :=
  standing?_onSupplement_entries fun _ => rfl

/-- To drop an entry of the supplemental page table does not change the standing. -/
@[simp] theorem standing?_drop : standing? (drop spaces s p) s' = standing? spaces s' :=
  standing?_onSupplement_entries fun _ => rfl

end

end Spaces

end DemandPaging
