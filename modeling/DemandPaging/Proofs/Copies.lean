import DemandPaging.Kernel.UserCopy
import DemandPaging.Proofs.Faults
import DemandPaging.Proofs.Pieces

/-!
# User copies

What is ensured of a copy to or from user memory. A piece is reached after some paging (`ensures_reach`),
and then its bytes are read off the frame or stored there.

A copy to user memory is an advance that stores a prefix of the data: all of it, or the pieces before
the one that could not be reached (`copied`). A copy from user memory is paging only, and what it reads
is what the pages held (`Reads`).
-/

set_option autoImplicit false

namespace DemandPaging

open Spaces Machine

namespace Transition

variable {machine : Machine} {away : Away} {s : SpaceId}

/-! ### Reaching a piece -/

/-- A page is found and `act` is done with its frame, after at most so many faults; or a fault was not
resolved. -/
theorem ensures_reachIn {α : Type} (h : machine.SettledBut away) (piece : Piece)
    (stackPointer : Nat) (write : Bool) (act : Nat → Transition α) {post : α → Machine → Prop}
    (rounds : Nat)
    (hact : ∀ before entry, Serviced away rounds machine before →
      mapped? before.spaces s (pageOf piece.address) = some entry →
      (write = true → entry.dirty = true) → Ensures (act entry.frame.toNat) before post) :
    Ensures (Kernel.reachIn s piece stackPointer write act rounds) machine fun outcome after =>
      match outcome with
      | .ok a => post a after
      | .error _ => Serviced away rounds machine after := by
  induction rounds generalizing machine with
  | zero => exact rfl
  | succ rounds ih =>
    have hfault : ∀ code (next : Except FaultError Unit → Transition (Except FaultError α)),
        (∀ cause, next (.error cause) = pure (.error cause)) →
        next (.ok ()) = Kernel.reachIn s piece stackPointer write act rounds →
        Ensures (Kernel.resolveFault s piece.address stackPointer code >>= next) machine
          fun outcome after =>
            match outcome with
            | .ok a => post a after
            | .error _ => Serviced away (rounds + 1) machine after := by
      intro code next hrefused hretry
      rw [ensures_bind]
      refine (ensures_resolveFault h s piece.address stackPointer code).mono ?_
      rintro outcome after ⟨hafter, -⟩
      cases outcome with
      | error cause =>
        rw [hrefused]
        exact hafter.mono (by omega)
      | ok u =>
        rw [hretry]
        refine (ih hafter.settled ?_).mono ?_
        · intro before entry hbefore
          refine hact before entry ((hafter.trans hbefore).mono (by omega))
        · intro outcome final hfinal
          cases outcome with
          | ok a => exact hfinal
          | error cause => exact (hafter.trans hfinal).mono (by omega)
    simp only [Kernel.reachIn]
    rw [ensures_bind, ensures_translate]
    intro space hspace
    cases hentry : mapped? machine.spaces s (pageOf piece.address) with
    | none => exact hfault _ _ (fun _ => rfl) rfl
    | some entry =>
      simp only
      split
      · exact hfault _ _ (fun _ => rfl) rfl
      · have hlike : Alike machine.spaces
            (mark machine.spaces s (pageOf piece.address) (·.touch write)) :=
          alike_mark (fun _ => rfl) fun e hd => (Bool.or_eq_false_iff.mp hd).1
        have htouched : mapped? (mark machine.spaces s (pageOf piece.address) (·.touch write)) s
            (pageOf piece.address) = some (entry.touch write) := mapped?_mark_self hentry
        have hserviced : Serviced away 0 machine { machine with
            spaces := mark machine.spaces s (pageOf piece.address) (·.touch write) } :=
          .of_paging (.of_alike hlike rfl rfl rfl rfl) (Coherent.alike h rfl rfl hlike rfl)
        simp only [Kernel.withFrame, requireFrame, lift_eq, holding_eq, ensures_bind, ensures_page,
          ensures_pure, ensures_findEntry]
        intro _ _ _ _
        rw [htouched]
        simp only [Option.map_some, PageTableEntry.touch, if_true, ensures_bind, ensures_pure]
        refine hact _ (entry.touch write) (hserviced.mono (Nat.zero_le _)) htouched ?_
        intro hwrite
        simp [PageTableEntry.touch, hwrite]

/-- A piece outside of user memory is not reached; any other is, or a fault was not resolved. -/
theorem ensures_reach {α : Type} (h : machine.SettledBut away) (start : Nat) (piece : Piece)
    (stackPointer : Nat) (write : Bool) (act : Nat → Transition α) {post : α → Machine → Prop}
    (hact : ∀ before entry, IsUser piece.address → Serviced away copyRounds machine before →
      mapped? before.spaces s (pageOf piece.address) = some entry →
      (write = true → entry.dirty = true) → Ensures (act entry.frame.toNat) before post) :
    Ensures (Kernel.reach s start piece stackPointer write act) machine fun outcome after =>
      match outcome with
      | .ok a => post a after
      | .error _ => Serviced away copyRounds machine after := by
  unfold Kernel.reach
  refine ensures_ite (fun _ => ?_) (fun _ => ?_)
  · exact (Serviced.refl h).mono (Nat.zero_le _)
  · refine ensures_ite (fun _ => ?_) (fun huser => ?_)
    · exact (Serviced.refl h).mono (Nat.zero_le _)
    · refine ensures_reachIn h piece stackPointer write act copyRounds ?_
      intro before entry
      exact hact before entry (not_not.mp huser)

end Transition

/-! ### Storing -/

/-- The first `n` bytes of `data` are stored in space `s` from `start` on. -/
def stores (s : SpaceId) (start : Nat) (data : Bytes) (n : Nat) : SpaceId → Nat → Option UInt8 :=
  fun s' a => if s' = s ∧ start ≤ a ∧ a < start + n then data[a - start]? else none

/-- Without a byte, nothing is stored. -/
theorem stores_zero (s : SpaceId) (start : Nat) (data : Bytes) :
    stores s start data 0 = nothing := by
  funext s' a
  have : ¬ (s' = s ∧ start ≤ a ∧ a < start + 0) := by omega
  exact if_neg this

/-- Storing some more bytes after the first ones. -/
theorem stores_add (s : SpaceId) (start : Nat) (data : Bytes) (n size : Nat)
    (hle : n + size ≤ data.size) :
    (fun s' a => stores s (start + n) (data.window n size) size s' a <|>
      stores s start data n s' a) = stores s start data (n + size) := by
  funext s' a
  unfold stores
  by_cases hs : s' = s
  · by_cases hnew : start + n ≤ a ∧ a < start + n + size
    · have hbyte : (data.window n size)[a - (start + n)]? = data[a - start]? := by
        rw [Bytes.getElem?_window, if_pos (by omega)]
        congr 1
        omega
      have hin : a - start < data.size := by omega
      have hall : s' = s ∧ start ≤ a ∧ a < start + (n + size) := ⟨hs, by omega, by omega⟩
      rw [if_pos ⟨hs, hnew⟩, hbyte, if_pos hall, Array.getElem?_eq_getElem hin]
      rfl
    · rw [if_neg fun h => hnew h.2]
      by_cases hold : start ≤ a ∧ a < start + n
      · rw [if_pos ⟨hs, hold⟩, if_pos ⟨hs, by omega, by omega⟩]
        simp
      · rw [if_neg fun h => hold h.2, if_neg]
        · simp
        · rintro ⟨-, hge, hlt⟩
          omega
  · rw [if_neg fun h => hs h.1, if_neg fun h => hs h.1, if_neg fun h => hs h.1]
    simp

section

variable {away : Away} {m : Machine} {s : SpaceId} {address : Nat} {entry : PageTableEntry}
  {content : Page}

/-- Bytes are stored in the frame of a mapped page that is marked as changed. -/
theorem Advance.of_store (h : m.SettledBut away)
    (hentry : mapped? m.spaces s (pageOf address) = some entry) (hdirty : entry.dirty = true)
    (hcontent : m.frames.memory.page entry.frame.toNat = .ok content) {data : Bytes}
    (hfits : pageOffset address + data.size ≤ pageSize) :
    Advance [] (stores s address data data.size) m { m with frames := { m.frames with
      memory := m.frames.memory.setPage entry.frame.toNat
        (content.store (pageOffset address) data) } } := by
  have hlt := FrameMemory.lt_size_of_page hcontent
  have hp := isAligned_pageOf address
  have haddress := pageOf_add_pageOffset address
  have hframe : frame? m.spaces s (pageOf address) = some entry.frame.toNat := by
    rw [frame?, hentry, Option.map_some]
  -- an address of the range lies in the page
  have hinside : ∀ p k, IsAligned p → k < pageSize → address ≤ p + k →
      p + k < address + data.size → p = pageOf address ∧ pageOffset address ≤ k ∧
        k < pageOffset address + data.size := by
    intro p k hp' hk hge hlt
    simp only [IsAligned, pageOf, pageOffset, pageSize] at *
    omega
  refine ⟨rfl, fun _ => rfl, fun _ _ => rfl, fun _ _ _ hk => hk, ?_, fun _ _ _ _ _ hk hn => ?_, ?_,
    .refl _ _⟩
  · intro s' p k b hp' hk hb
    unfold stores at hb
    split at hb
    · rename_i hrange
      obtain ⟨rfl, -⟩ := hinside p k hp' hk hrange.2.1 hrange.2.2
      rw [hrange.1]
      exact .inl (by rw [hentry, Option.isSome_some])
    · cases hb
  · exact absurd hk hn
  · intro s' p k b hp' hk _ hb
    by_cases hsp : s' = s ∧ p = pageOf address
    · obtain ⟨rfl, rfl⟩ := hsp
      unfold Holds at hb ⊢
      rw [hentry] at hb ⊢
      refine ⟨?_, fun hclean => ?_⟩
      · rw [FrameMemory.byte?_setPage hlt, if_pos rfl, Page.getElem?_store]
        by_cases hin : pageOffset address ≤ k ∧ k < pageOffset address + data.size
        · have hsize : k - pageOffset address < data.size := by omega
          have hbyte : pageOf address + k - address = k - pageOffset address := by omega
          rw [if_pos hin, if_pos hk, stores, if_pos ⟨rfl, by omega, by omega⟩, hbyte,
            Array.getElem?_eq_getElem hsize]
          rfl
        · rw [if_neg hin, ← FrameMemory.byte?_eq hcontent, hb.1, stores, if_neg]
          · rfl
          · rintro ⟨-, hge, hlt'⟩
            obtain ⟨-, hin'⟩ := hinside _ k hp hk hge hlt'
            exact hin hin'
      · rw [hdirty] at hclean
        cases hclean
    · have hnone : stores s address data data.size s' (p + k) = none := by
        refine if_neg ?_
        rintro ⟨hs, hge, hlt'⟩
        exact hsp ⟨hs, (hinside p k hp' hk hge hlt').1⟩
      rw [hnone]
      refine hb.congr rfl (fun hn => hn) ?_ (fun _ _ => rfl) fun _ _ => rfl
      intro e he
      refine ⟨e, he, rfl, fun hd => hd, ?_⟩
      rw [FrameMemory.byte?_setPage hlt, if_neg]
      intro heq
      have hframe' : frame? m.spaces s' p = some entry.frame.toNat := by
        rw [frame?, he, Option.map_some, heq]
      exact hsp (h.frame_inj hp hp' hframe hframe')

end

namespace Transition

variable {machine : Machine} {away : Away} {s : SpaceId}

/-- Store one piece of the data. -/
def storePiece (s : SpaceId) (start : Nat) (data : Bytes) (stackPointer : Nat) (piece : Piece) :
    Transition (Except FaultError Unit) :=
  Kernel.reach s start piece stackPointer true fun frame =>
    writeFrame frame (pageOffset piece.address) (data.window piece.done piece.size)

/-- How many bytes a copy to user memory stores. -/
def copied (s : SpaceId) (start : Nat) (data : Bytes) (stackPointer : Nat) (machine : Machine) :
    Nat :=
  Piece.total (served (storePiece s start data stackPointer) (Piece.all start data.size) machine)

/-- The most writes to files that a copy may cause: in each page of user memory, one for every time
that a piece is tried. -/
abbrev copyWrites : Nat := (kernelBase / pageSize + 1) * copyRounds

/-- A piece in user memory is one of the first so many. -/
theorem length_lt_of_isUser {start length : Nat} {done rest : List Piece} {piece : Piece}
    (h : Piece.all start length = done ++ piece :: rest) (huser : IsUser piece.address) :
    done.length < kernelBase / pageSize := by
  obtain ⟨hlt, hpiece, -⟩ := Piece.eq_of_split h
  have hpage := Piece.pageOf_ofRange hlt
  rw [← hpiece] at hpage
  have hle : pageOf piece.address ≤ piece.address := Nat.sub_le _ _
  simp only [kernelBase, pageSize, IsUser] at *
  omega

/-- The first pieces of a copy store a prefix of the data: those pieces that could be reached. -/
theorem ensures_storePieces (h : machine.SettledBut away) {start : Nat} {data : Bytes}
    {whole rest : List Piece} (hall : Piece.all start data.size = whole ++ rest)
    (stackPointer : Nat) :
    Ensures (Kernel.upToFailure (storePiece s start data stackPointer) whole) machine
      fun outcome after => (∃ writes, writes.length ≤ copyWrites ∧ Advance writes (stores s start data
        (Piece.total (served (storePiece s start data stackPointer) whole machine))) machine after) ∧
        after.SettledBut away ∧
        (outcome = .ok () → served (storePiece s start data stackPointer) whole machine = whole) := by
  have hloop := @ensures_upToFailure Piece machine FaultError
    (storePiece s start data stackPointer)
    (fun done after => (∃ writes, writes.length ≤ done.length * copyRounds ∧
      Advance writes (stores s start data (Piece.total done)) machine after) ∧
      after.SettledBut away ∧ done.length ≤ kernelBase / pageSize)
    (fun done _ after => (∃ writes, writes.length ≤ copyWrites ∧
      Advance writes (stores s start data (Piece.total done)) machine after) ∧
      after.SettledBut away) whole ?_ ?_
  · refine hloop.mono fun outcome after hafter => ?_
    cases outcome with
    | error cause => exact ⟨hafter.1, hafter.2, nofun⟩
    | ok u =>
      obtain ⟨⟨⟨writes, hlength, hadvance⟩, hsettled, hpieces⟩, hserved⟩ := hafter
      rw [hserved]
      refine ⟨⟨writes, ?_, hadvance⟩, hsettled, fun _ => rfl⟩
      exact Nat.le_trans hlength (Nat.mul_le_mul_right _ (by omega))
  · rintro done piece later before hpieces' ⟨⟨writes, hlength, hadvance⟩, hsettled, hpieces⟩
    have hwhole : Piece.all start data.size = done ++ piece :: (later ++ rest) := by
      rw [hall, hpieces', List.append_assoc, List.cons_append]
    obtain ⟨hlt, hpiece, -⟩ := Piece.eq_of_split hwhole
    have hdone := Piece.total_eq_done hwhole
    have hreach := @ensures_reach before away s Unit hsettled start piece stackPointer true
      (fun frame => writeFrame frame (pageOffset piece.address)
        (data.window piece.done piece.size))
      (fun _ after => (∃ writes, writes.length ≤ (done ++ [piece]).length * copyRounds ∧
        Advance writes (stores s start data (Piece.total (done ++ [piece]))) machine after) ∧
        after.SettledBut away ∧ (done ++ [piece]).length ≤ kernelBase / pageSize) ?_
    · refine hreach.mono fun outcome after hafter => ?_
      cases outcome with
      | ok u => exact hafter
      | error cause =>
        obtain ⟨writes', hlength', hadvance'⟩ := hafter.advance
        refine ⟨⟨writes ++ writes', ?_, ?_⟩, hafter.settled⟩
        · rw [List.length_append]
          simp only [copyWrites, copyRounds, kernelBase, pageSize] at *
          omega
        · have htotal := hadvance.trans hadvance'
          simpa using htotal
    · intro before' entry huser hserviced hentry hdirty
      have hnumber := length_lt_of_isUser hwhole huser
      have hfit : piece.done + piece.size ≤ data.size := hpiece ▸ Piece.done_add_size_le hlt
      have haddress : piece.address = start + piece.done := hpiece ▸ Piece.address_eq start _ _
      simp only [ensures_writeFrame]
      intro content hcontent hfits
      have hsize : (data.window piece.done piece.size).size = piece.size := by
        rw [Bytes.size_window]
        omega
      obtain ⟨writes', hlength', hadvance'⟩ := hserviced.advance
      have hstore := Advance.of_store hserviced.settled hentry (hdirty rfl) hcontent hfits
      have htotal := (hadvance.trans hadvance').trans hstore
      refine ⟨⟨writes ++ writes' ++ [], ?_, ?_⟩, ?_, ?_⟩
      · simp only [List.length_append, List.length_nil, List.length_singleton]
        simp only [copyRounds] at *
        omega
      · rw [Piece.total_append, ← stores_add s start data _ _ (hdone ▸ hfit), hdone, ← haddress]
        rw [hsize] at htotal
        simpa [hdone] using htotal
      · exact Coherent.congr hserviced.settled rfl FrameMemory.size_setPage rfl rfl
      · simp only [List.length_append, List.length_singleton]
        omega
  · refine ⟨⟨[], Nat.zero_le _, ?_⟩, h, Nat.zero_le _⟩
    have : Piece.total [] = 0 := rfl
    rw [this, stores_zero]
    exact .refl machine

/-- A copy to user memory stores a prefix of the data, and all of it if it goes through. -/
theorem ensures_copyToUser (h : machine.SettledBut away) (s : SpaceId) (start : Nat) (data : Bytes)
    (stackPointer : Nat) :
    Ensures (Kernel.copyToUser s start data stackPointer) machine fun outcome after =>
      (∃ writes, writes.length ≤ copyWrites ∧
        Advance writes (stores s start data (copied s start data stackPointer machine)) machine
          after) ∧
      after.SettledBut away ∧
      (outcome = .ok () → copied s start data stackPointer machine = data.size) := by
  refine (ensures_storePieces h (List.append_nil _).symm stackPointer).mono ?_
  rintro outcome after ⟨hadvance, hsettled, hserved⟩
  refine ⟨hadvance, hsettled, fun hok => ?_⟩
  rw [copied, hserved hok]
  exact Piece.total_all _ _

end Transition

/-! ### Reading -/

/-- The bytes `data` are what the pages from `start` on held before: zeroes if they are new, and what
is known to have been there if it was safe from the writes. -/
def Reads (writes : List FileId) (before after : Machine) (s : SpaceId) (start : Nat)
    (data : Bytes) : Prop :=
  ∀ i x, data[i]? = some x →
    after.Known s (pageOf (start + i)) ∧
      (¬ before.Known s (pageOf (start + i)) → x = 0) ∧
      ∀ b, Shielded writes before.spaces s (pageOf (start + i)) (pageOffset (start + i)) →
        before.Holds s (pageOf (start + i)) (pageOffset (start + i)) b → x = b

section

variable {m m' m'' : Machine} {s : SpaceId} {start : Nat} {data : Bytes} {writes writes' : List FileId}

/-- Paging afterwards does not change what was read. -/
theorem Reads.advance (h : Reads writes m m' s start data) (h' : Advance writes' nothing m' m'') :
    Reads (writes ++ writes') m m'' s start data := by
  intro i x hx
  obtain ⟨hknown, hfresh, hholds⟩ := h i x hx
  refine ⟨h'.known _ _ (isAligned_pageOf _) hknown, hfresh, fun b hshield hb => ?_⟩
  refine hholds b (hshield.congr (fun _ _ => rfl) fun f hf => ?_) hb
  exact List.mem_append_left _ hf

/-- The bytes of one more mapped page are read. -/
theorem Reads.append (h : Reads writes m m' s start data) (hadvance : Advance writes nothing m m')
    {address : Nat} {entry : PageTableEntry} {content : Page} {size : Nat}
    (haddress : address = start + data.size)
    (hentry : mapped? m'.spaces s (pageOf address) = some entry)
    (hcontent : m'.frames.memory.page entry.frame.toNat = .ok content)
    (hfits : pageOffset address + size ≤ pageSize) :
    Reads writes m m' s start (data ++ content.window (pageOffset address) size) := by
  intro i x hx
  rw [Array.getElem?_append] at hx
  split at hx
  · exact h i x hx
  · rename_i hge
    rw [Page.getElem?_window] at hx
    split at hx
    · rename_i hlt
      have hmod := Nat.mod_lt address (show 0 < 4096 by decide)
      have hpage : pageOf (start + i) = pageOf address := by
        simp only [pageOf, pageOffset, pageSize] at *
        omega
      have hoffset : pageOffset (start + i) = pageOffset address + (i - data.size) := by
        simp only [pageOffset, pageSize] at *
        omega
      have hk : pageOffset (start + i) < pageSize := Nat.mod_lt _ (by decide)
      rw [← hoffset] at hx
      rw [hpage]
      have hp := isAligned_pageOf address
      have hknown : m'.Known s (pageOf address) := .inl (by rw [hentry, Option.isSome_some])
      -- what the page holds is what is read
      have hread : ∀ b, m'.Holds s (pageOf address) (pageOffset (start + i)) b → x = b := by
        intro b hb
        rw [holds_of_mapped hentry, FrameMemory.byte?_eq hcontent, hx] at hb
        exact Option.some.inj hb.1
      refine ⟨hknown, fun hunknown => ?_, fun b hshield hb => ?_⟩
      · exact hread 0 (hadvance.fresh s _ _ hp hk hknown hunknown)
      · exact hread b (hadvance.holds s _ _ b hp hk hshield hb)
    · cases hx

end

namespace Transition

variable {machine : Machine} {away : Away}

/-- A copy from user memory is paging, and reads what the pages held. -/
theorem ensures_copyFromUser (h : machine.SettledBut away) (s : SpaceId)
    (start length stackPointer : Nat) :
    Ensures (Kernel.copyFromUser s start length stackPointer) machine fun result after =>
      (∃ writes, writes.length ≤ copyWrites ∧ Advance writes nothing machine after ∧
        Reads writes machine after s start result.1) ∧ after.SettledBut away := by
  refine Ensures.mono (ensuring.copyFromUser (fun done data after => data.size = Piece.total done ∧
    after.SettledBut away ∧ done.length ≤ kernelBase / pageSize ∧
    ∃ writes, writes.length ≤ done.length * copyRounds ∧ Advance writes nothing machine after ∧
      Reads writes machine after s start data)
    (fun data _ after => (∃ writes, writes.length ≤ copyWrites ∧ Advance writes nothing machine after ∧
      Reads writes machine after s start data) ∧ after.SettledBut away) ?step ?none) ?whole
  case none =>
    refine ⟨rfl, h, Nat.zero_le _, [], Nat.zero_le _, .refl machine, ?_⟩
    intro i x hx
    cases hx
  case whole =>
    intro answer after hafter
    obtain ⟨data, outcome⟩ := answer
    cases outcome with
    | error cause => exact hafter
    | ok u =>
      obtain ⟨-, hsettled, hpieces, writes, hlength, hadvance, hreads⟩ := hafter
      exact ⟨⟨writes, Nat.le_trans hlength (Nat.mul_le_mul_right _ (by omega)), hadvance, hreads⟩, hsettled⟩
  case step =>
    rintro done piece rest data before hwhole ⟨hsize, hsettled, hpieces, writes, hlength, hadvance, hreads⟩
    obtain ⟨hlt, hpiece, -⟩ := Piece.eq_of_split hwhole
    have hdone := Piece.total_eq_done hwhole
    have haddress : piece.address = start + data.size := by
      rw [hsize, hdone, hpiece]
      exact Piece.address_eq start length done.length
    have hreach := @ensures_reach before away s Bytes hsettled start piece stackPointer false
      (fun frame => readFrame frame (pageOffset piece.address) piece.size)
      (fun bytes after => bytes.size = piece.size ∧ after.SettledBut away ∧
        done.length < kernelBase / pageSize ∧
        ∃ writes, writes.length ≤ (done ++ [piece]).length * copyRounds ∧
          Advance writes nothing machine after ∧
          Reads writes machine after s start (data ++ bytes)) ?_
    · refine hreach.mono fun outcome after hafter => ?_
      cases outcome with
      | error cause =>
        obtain ⟨writes', hlength', hadvance'⟩ := hafter.advance
        refine ⟨⟨writes ++ writes', ?_, hadvance.trans_nothing hadvance', hreads.advance hadvance'⟩,
          hafter.settled⟩
        rw [List.length_append]
        simp only [copyWrites, copyRounds, kernelBase, pageSize] at *
        omega
      | ok bytes =>
        obtain ⟨hbytes, hsettled', hnumber, hinv⟩ := hafter
        refine ⟨?_, hsettled', ?_, hinv⟩
        · rw [Array.size_append, hsize, hbytes, Piece.total_append]
        · rw [List.length_append, List.length_singleton]
          exact hnumber
    · intro before' entry huser hserviced hentry _
      simp only [ensures_readFrame]
      intro content hcontent hfits
      obtain ⟨writes', hlength', hadvance'⟩ := hserviced.advance
      have htotal := hadvance.trans_nothing hadvance'
      refine ⟨?_, hserviced.settled, length_lt_of_isUser hwhole huser, writes ++ writes', ?_, htotal,
        (hreads.advance hadvance').append htotal haddress hentry hcontent hfits⟩
      · rw [Page.size_window]
        omega
      · rw [List.length_append, List.length_append, List.length_singleton]
        simp only [copyRounds] at *
        omega

end Transition

end DemandPaging
