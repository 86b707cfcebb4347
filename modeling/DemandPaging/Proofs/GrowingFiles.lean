import DemandPaging.Proofs.Contents
import DemandPaging.Proofs.Replays

/-!
# Files grow as runs of bytes

Loading pages and saving them rest on the counts that a file answers: a read is short at the end of the file
and nowhere else, and a write stores a beginning of its data as long as it says. `MemoryFile.Fills` and
`MemoryFile.Stores` say byte by byte what a read and a write do that are served; one that is refused changes
nothing.

`MemoryFile.Reached content log file` says that the file is what the requests of `log` made of some content,
with switches turned as anybody likes. `MemoryFile.GrowsAsBytes` is what the log then says of the file, byte by
byte, and what the file does next. It holds after any requests (`Reached.growsAsBytes`).

Offsets are numbers here. `MemoryFile.readCounted` and `MemoryFile.writeCounted` do the same in machine words:
they halt when a sum or a difference leaves its word, or when a range leaves its buffer. They never do.
-/

set_option autoImplicit false

namespace DemandPaging

/-! ### Requests and logs -/

/-- What is done with a file. -/
inductive FileRequest where
  /-- Read into a buffer. -/
  | read (offset : Nat) (buffer : Bytes)
  /-- Write some bytes. -/
  | write (offset : Nat) (data : Bytes)
  /-- Make every read and write fail, or not any more. -/
  | setFailing (on : Bool)
  /-- Deny writes, or allow them. -/
  | setDenied (on : Bool)
  /-- Let a write store so many bytes at most; zero for no limit. -/
  | setCap (most : Nat)
  deriving DecidableEq, Repr

/-- What a file answers. -/
inductive FileAnswer where
  /-- How many bytes were read, and the buffer. -/
  | filled (outcome : Except FileError Nat) (buffer : Bytes)
  /-- How many bytes were stored. -/
  | stored (outcome : Except FileError Nat)
  /-- Nothing. -/
  | done

/-- The requests that a file got, oldest first, with its answers. -/
abbrev FileLog := List (FileRequest × FileAnswer)

namespace FileRequest

/-- Carry out a request. -/
def perform (file : MemoryFile) : FileRequest → FileAnswer × MemoryFile
  | read offset buffer =>
    let ((outcome, buffer), file) := file.readInto offset buffer
    (.filled outcome buffer, file)
  | write offset data =>
    let (outcome, file) := file.write offset data
    (.stored outcome, file)
  | setFailing on => (.done, { file with failing := on })
  | setDenied on => (.done, { file with denied := on })
  | setCap most => (.done, { file with writeCap := most })

/-- Offsets, lengths and limits are machine words. -/
def Fits : FileRequest → Prop
  | read offset buffer => offset < wordLimit ∧ buffer.size < wordLimit
  | write offset data => offset < wordLimit ∧ data.size < wordLimit
  | setFailing _ | setDenied _ => True
  | setCap most => most < wordLimit

/-- Whether a request fits in machine words can be computed. -/
instance : (request : FileRequest) → Decidable request.Fits
  | read .. | write .. => inferInstanceAs (Decidable (_ ∧ _))
  | setFailing _ | setDenied _ => inferInstanceAs (Decidable True)
  | setCap _ => inferInstanceAs (Decidable (_ < _))

end FileRequest

namespace FileLog

/-- The byte that a request stored at a place of the file, if it stored one there. -/
def stored? (i : Nat) : FileRequest × FileAnswer → Option UInt8
  | (.write offset data, .stored (.ok n)) =>
    if offset ≤ i ∧ i < offset + n then data[i - offset]? else none
  | _ => none

/-- The end of what a request stored. -/
def storedEnd : FileRequest × FileAnswer → Nat
  | (.write offset _, .stored (.ok n)) => offset + n
  | _ => 0

/-- A read was served. -/
def isServedRead : FileRequest × FileAnswer → Bool
  | (.read .., .filled (.ok _) _) => true
  | _ => false

/-- A write was served. -/
def isServedWrite : FileRequest × FileAnswer → Bool
  | (.write .., .stored (.ok _)) => true
  | _ => false

/-- The byte that was stored last at a place. -/
def lastStored? (log : FileLog) (i : Nat) : Option UInt8 := (log.filterMap (stored? i)).getLast?

/-- The furthest end of what was stored, or `size` if that is further. -/
def furthestEnd (log : FileLog) (size : Nat) : Nat :=
  log.foldl (fun size visit => max size (storedEnd visit)) size

end FileLog

/-! ### In machine words -/

/-- A sum that has to fit in a machine word. -/
def sumInWord (a b : Nat) : Except Halt Nat := if a + b < wordLimit then .ok (a + b) else .error .overflow

/-- A difference that has to be a machine word. -/
def differenceInWord (a b : Nat) : Except Halt Nat := if b ≤ a then .ok (a - b) else .error .overflow

namespace Bytes

/-- The bytes from `start` up to `stop`, which have to be there. -/
def slice (data : Bytes) (start stop : Nat) : Except Halt Bytes :=
  if start ≤ stop ∧ stop ≤ data.size then .ok (data.extract start stop) else .error .outOfBounds

/-- `data` with as many bytes of `source` in the place of those from `start` up to `stop`. -/
def splice (data : Bytes) (start stop : Nat) (source : Bytes) : Except Halt Bytes :=
  if start ≤ stop ∧ stop ≤ data.size ∧ source.size = stop - start then
    .ok (data.extract 0 start ++ source ++ data.extract stop data.size)
  else .error .outOfBounds

/-- `data` filled up with zeroes to `size` bytes. -/
def filledUp (data : Bytes) (size : Nat) : Bytes := data ++ zeroes (size - data.size)

end Bytes

namespace MemoryFile

/-- `readInto`, with every number and every range checked. -/
def readCounted (file : MemoryFile) (offset : Nat) (buffer : Bytes) :
    Except Halt ((Except FileError Nat × Bytes) × MemoryFile) :=
  if file.failing then .ok ((.error .io, buffer), file)
  else if file.size ≤ offset then .ok ((.ok 0, buffer), { file with reads := file.reads + 1 })
  else do
    let rest ← differenceInWord file.size offset
    let n := min buffer.size rest
    let stop ← sumInWord offset n
    let data ← file.content.slice offset stop
    let filled ← buffer.splice 0 n data
    .ok ((.ok n, filled), { file with reads := file.reads + 1 })

/-- `write`, with every number and every range checked. -/
def writeCounted (file : MemoryFile) (offset : Nat) (data : Bytes) :
    Except Halt (Except FileError Nat × MemoryFile) :=
  match file.refuseWrite? offset data.size with
  | some cause => .ok (.error cause, file)
  | none => do
    let stored ← data.slice 0 (file.accepted data.size)
    let stop ← sumInWord offset stored.size
    let content ← (if file.size < stop then file.content.filledUp stop else file.content).splice
      offset stop stored
    .ok (.ok stored.size, { file with content, writes := file.writes + 1 })

/-! ### What is said of a file -/

/-- A read that was served: `n` bytes of the file are at the beginning of the buffer, and the rest of the
buffer is as it was. -/
structure Fills (file : MemoryFile) (offset : Nat) (buffer : Bytes) (n : Nat) (filled : Bytes)
    (after : MemoryFile) : Prop where
  count_eq : n = if offset < file.size then min buffer.size (file.size - offset) else 0
  size_eq : filled.size = buffer.size
  read_eq : ∀ i, i < n → filled[i]? = file.content[offset + i]?
  kept_eq : ∀ i, n ≤ i → filled[i]? = buffer[i]?
  after_eq : after = { file with reads := file.reads + 1 }

/-- A write that was served: `n` bytes of the data are in the file, there are zeroes before them where the
file had ended, and the rest of the file is as it was. -/
structure Stores (file : MemoryFile) (offset : Nat) (data : Bytes) (n : Nat) (after : MemoryFile) : Prop where
  count_eq : n = if file.writeCap ≠ 0 ∧ file.writeCap < data.size then file.writeCap else data.size
  size_eq : after.size = max file.size (offset + n)
  stored_eq : ∀ i, i < n → after.content[offset + i]? = data[i]?
  gap_eq : ∀ i, file.size ≤ i → i < offset → after.content[i]? = some 0
  kept_eq : ∀ i, i < file.size → ¬ (offset ≤ i ∧ i < offset + n) → after.content[i]? = file.content[i]?
  after_eq : after = { file with content := after.content, writes := file.writes + 1 }

/-- What requests make of a file with some content. -/
inductive Reached (content : Bytes) : FileLog → MemoryFile → Prop where
  /-- At first the file has its content, and no switch is set. -/
  | nil : Reached content [] (ofBytes content)
  /-- One more request was carried out. -/
  | snoc {log : FileLog} {file after : MemoryFile} {request : FileRequest} {answer : FileAnswer}
      (h : Reached content log file) (hfits : request.Fits) (hrun : request.perform file = (answer, after)) :
      Reached content (log ++ [(request, answer)]) after

/-- What a log says of a file that had some content at first, and what the file does next. -/
structure GrowsAsBytes (content : Bytes) (log : FileLog) (file : MemoryFile) : Prop where
  /-- The file ends where it ended at first, or where the furthest write ended. -/
  size_eq : file.size = log.furthestEnd content.size
  /-- A byte of the file is the one that was stored there last, or the one that was there at first, or zero. -/
  byte_eq : ∀ i, i < file.size →
    file.content[i]? = some ((log.lastStored? i).getD (content[i]?.getD 0))
  /-- The calls that were served are counted. -/
  reads_eq : file.reads = UInt64.ofNat (log.countP FileLog.isServedRead)
  /-- Writes are counted apart. -/
  writes_eq : file.writes = UInt64.ofNat (log.countP FileLog.isServedWrite)
  /-- A read is served unless the file fails. -/
  serves_read : ∀ offset buffer,
    (∃ n filled after, file.readInto offset buffer = ((.ok n, filled), after)) ↔ file.failing = false
  /-- It answers as many bytes as there are and fit. -/
  fills : ∀ offset buffer n filled after, file.readInto offset buffer = ((.ok n, filled), after) →
    file.Fills offset buffer n filled after
  /-- One that is refused changes nothing. -/
  refuses_read : ∀ offset buffer cause filled after,
    file.readInto offset buffer = ((.error cause, filled), after) → cause = .io ∧ filled = buffer ∧ after = file
  /-- A write is served unless the file fails, or writes are denied, or the file might get too large. -/
  serves_write : ∀ offset data, (∃ n after, file.write offset data = (.ok n, after)) ↔
    file.failing = false ∧ file.denied = false ∧ (offset = 0 ∨ offset + data.size ≤ maxFileSize)
  /-- It stores the beginning of the data. -/
  stores : ∀ offset data n after, file.write offset data = (.ok n, after) → file.Stores offset data n after
  /-- One that is refused changes nothing, and the cause is the first of the three that holds. -/
  refuses_write : ∀ offset data cause after, file.write offset data = (.error cause, after) →
    after = file ∧
      cause = if file.failing then .io else if file.denied then .readOnly else .noSpace
  /-- In machine words the same is done, and no number leaves its word. -/
  read_fits : ∀ offset buffer, file.readCounted offset buffer = .ok (file.readInto offset buffer)
  /-- The same holds of a write. -/
  write_fits : ∀ offset data, data.size < wordLimit →
    file.writeCounted offset data = .ok (file.write offset data)

end MemoryFile

/-! ### Bytes -/

namespace Bytes

variable {data source : Bytes} {start stop : Nat}

/-- A byte of a run that something was laid over: one that was laid there, or the one that was there before,
or zero in the gap between the end of the run and what was laid behind it. -/
theorem getElem?_overlay (i : Nat) : (data.overlay start source)[i]? =
    if start ≤ i ∧ i < start + source.size then source[i - start]?
    else if i < data.size then data[i]? else if i < start then some 0 else none := by
  have hbyte := data.getD_overlay start source i
  by_cases hi : i < max data.size (start + source.size)
  · have hsize : i < (data.overlay start source).size := size_overlay data start source ▸ hi
    rw [Array.getElem?_eq_getElem hsize, Option.getD_some] at hbyte
    rw [Array.getElem?_eq_getElem hsize, hbyte]
    split
    · have hk : i - start < source.size := by omega
      rw [Array.getElem?_eq_getElem hk, Option.getD_some]
    · split
      · rename_i hdata
        rw [Array.getElem?_eq_getElem hdata, Option.getD_some]
      · rename_i hwithin hdata
        rw [if_pos (by omega), Array.getElem?_eq_none (Nat.le_of_not_lt hdata), Option.getD_none]
  · rw [Array.getElem?_eq_none (by rw [size_overlay]; omega), if_neg (by omega), if_neg (by omega),
      if_neg (by omega)]

/-- To lay nothing over a run changes nothing. -/
theorem overlay_empty : data.overlay 0 #[] = data := by
  apply Array.ext_getElem?
  intro i
  rw [getElem?_overlay]
  by_cases hi : i < data.size
  · simp [hi]
  · simp [hi]

/-- A window ends where the run does. -/
theorem window_eq_min {n : Nat} (h : start ≤ data.size) :
    data.window start n = data.window start (min n (data.size - start)) := by
  apply Array.ext_getElem?
  intro i
  rw [getElem?_window, getElem?_window]
  by_cases hi : i < data.size - start
  · simp only [Nat.lt_min, hi, and_true]
  · rw [Array.getElem?_eq_none (by omega), ite_self, ite_self]

/-- A slice that ends within the run is a window. -/
theorem slice_eq_window {n : Nat} (h : start + n ≤ data.size) :
    data.slice start (start + n) = .ok (data.window start n) := if_pos ⟨Nat.le_add_right _ _, h⟩

/-- As long as it stays within the run, to lay something over it is to put it in the place of as many
bytes. -/
theorem splice_eq_overlay (h : start + source.size ≤ data.size) :
    data.splice start (start + source.size) source = .ok (data.overlay start source) := by
  rw [splice, if_pos ⟨Nat.le_add_right _ _, h, by omega⟩]
  refine congrArg Except.ok (Array.ext_getElem? fun i => ?_)
  rw [getElem?_overlay]
  have hfront : min start data.size = start := Nat.min_eq_left (by omega)
  by_cases hbefore : i < start
  · have hi : i < data.size := by omega
    simp [Array.getElem?_append, hfront, hbefore, hi, Nat.not_le.mpr hbefore]
  · by_cases hwithin : i < start + source.size
    · have hk : i - start < source.size := by omega
      simp [Array.getElem?_append, hfront, hbefore, hwithin, hk, Nat.le_of_not_lt hbefore]
    · have hlater : ¬ i - start < source.size := by omega
      have hback : start + source.size + (i - start - source.size) = i := by omega
      have hlt : i - start - source.size < data.size - (start + source.size) ↔ i < data.size := by omega
      by_cases hi : i < data.size
      · simp [Array.getElem?_append, hfront, hbefore, hwithin, hlater, hback, hlt, hi]
      · simp [Array.getElem?_append, hfront, hbefore, hwithin, hlater, hlt, hi]

/-- A run that is filled up is as long as it was, or as is asked for. -/
theorem size_filledUp (size : Nat) : (data.filledUp size).size = max data.size size := by
  simp [filledUp, zeroes]
  omega

/-- What is filled up is filled up with zeroes, and what was there stays. -/
theorem getElem?_filledUp (size i : Nat) : (data.filledUp size)[i]? =
    if i < data.size then data[i]? else if i < size then some 0 else none := by
  by_cases hi : i < data.size
  · simp [filledUp, Array.getElem?_append, hi]
  · have hlt : i - data.size < size - data.size ↔ i < size := by omega
    simp [filledUp, zeroes, Array.getElem?_append, Array.getElem?_replicate, hi, hlt]

/-- Where a run grows for what is laid over it, the gap can be filled with zeroes first. -/
theorem overlay_filledUp : (data.filledUp (start + source.size)).overlay start source =
    data.overlay start source := by
  apply Array.ext_getElem?
  intro i
  rw [getElem?_overlay, getElem?_overlay, size_filledUp, getElem?_filledUp]
  by_cases hwithin : start ≤ i ∧ i < start + source.size
  · rw [if_pos hwithin, if_pos hwithin]
  rw [if_neg hwithin, if_neg hwithin]
  by_cases hi : i < data.size
  · have hroom : i < max data.size (start + source.size) := by omega
    simp only [hroom, hi, if_true]
  · -- Behind the end of the run only the gap is left.
    by_cases hgap : i < start
    · have hroom : i < max data.size (start + source.size) ∧ i < start + source.size := by omega
      simp only [hroom, hi, hgap, if_true, if_false]
    · have hroom : ¬ i < max data.size (start + source.size) := by omega
      simp only [hroom, hi, hgap, if_false]

/-- To grow if there is need, and then to put something in the place of as many bytes, is to lay it over. -/
theorem splice_grown :
    (if data.size < start + source.size then data.filledUp (start + source.size) else data).splice
      start (start + source.size) source = .ok (data.overlay start source) := by
  split
  · rw [splice_eq_overlay (by rw [size_filledUp]; omega), overlay_filledUp]
  · exact splice_eq_overlay (by omega)

end Bytes

/-! ### One request -/

namespace MemoryFile

variable {file after : MemoryFile} {offset n : Nat} {buffer data filled : Bytes} {cause : FileError}

/-- A read of a failing file leaves the buffer and is not counted. -/
theorem readInto_of_failing (h : file.failing = true) :
    file.readInto offset buffer = ((.error .io, buffer), file) := by
  rw [readInto, read, if_pos h]

/-- A read of a working file lays what it finds over the buffer, and is counted. -/
theorem readInto_of_working (h : file.failing = false) : file.readInto offset buffer =
    ((.ok (file.content.window offset buffer.size).size,
      buffer.overlay 0 (file.content.window offset buffer.size)), { file with reads := file.reads + 1 }) := by
  rw [readInto, read, if_neg (Bool.eq_false_iff.mp h)]

/-- A write that is refused leaves the file. -/
theorem write_of_refused (h : file.refuseWrite? offset data.size = some cause) :
    file.write offset data = (.error cause, file) := by
  rw [write, h]

/-- A write that is accepted lays what is taken of the data over the file, and is counted. -/
theorem write_of_accepted (h : file.refuseWrite? offset data.size = none) : file.write offset data =
    (.ok (data.window 0 (file.accepted data.size)).size, { file with
      content := file.content.overlay offset (data.window 0 (file.accepted data.size))
      writes := file.writes + 1 }) := by
  rw [write, h]

/-- How many bytes are read into a buffer. -/
theorem size_window_read : (file.content.window offset buffer.size).size =
    if offset < file.size then min buffer.size (file.size - offset) else 0 := by
  rw [Bytes.size_window, size]
  split <;> omega

/-- A write is refused for the first of three reasons that holds. -/
theorem eq_of_refuseWrite? {size : Nat} (h : file.refuseWrite? offset size = some cause) :
    cause = if file.failing then .io else if file.denied then .readOnly else .noSpace := by
  by_cases hfails : file.failing = true
  · rw [refuseWrite?, if_pos hfails] at h
    rw [if_pos hfails, Option.some.inj h]
  by_cases hdenied : file.denied = true
  · rw [refuseWrite?, if_neg hfails, if_pos hdenied] at h
    rw [if_neg hfails, if_pos hdenied, Option.some.inj h]
  rw [refuseWrite?, if_neg hfails, if_neg hdenied, Option.ite_none_right_eq_some] at h
  rw [if_neg hfails, if_neg hdenied, Option.some.inj h.2]

/-- No write is refused to a file that works, allows it and has room for it. At the beginning of the file
there is always room. -/
theorem refuseWrite?_eq_none {size : Nat} : file.refuseWrite? offset size = none ↔
    file.failing = false ∧ file.denied = false ∧ (offset = 0 ∨ offset + size ≤ maxFileSize) := by
  have hroom : ¬ maxFileSize - size < offset ↔ offset = 0 ∨ offset + size ≤ maxFileSize := by omega
  rw [← hroom, refuseWrite?]
  cases file.failing <;> cases file.denied <;> simp

/-- A read that is served fills the beginning of the buffer. -/
theorem fills_of_readInto (h : file.readInto offset buffer = ((.ok n, filled), after)) :
    file.Fills offset buffer n filled after := by
  cases hworks : file.failing with
  | true => cases (readInto_of_failing hworks).symm.trans h
  | false =>
    cases (readInto_of_working hworks).symm.trans h
    have hcount := @size_window_read file offset buffer
    have hle : (file.content.window offset buffer.size).size ≤ buffer.size := by
      rw [hcount]
      split <;> omega
    refine ⟨hcount, ?_, fun i hi => ?_, fun i hi => ?_, rfl⟩
    · rw [Bytes.size_overlay]
      omega
    · rw [Bytes.getElem?_overlay, if_pos (by omega), Nat.sub_zero, Bytes.getElem?_window, if_pos (by omega)]
    · rw [Bytes.getElem?_overlay, if_neg (by omega)]
      split
      · rfl
      · rw [if_neg (Nat.not_lt_zero i), Array.getElem?_eq_none (by omega)]

/-- A read is refused for one reason only, and changes nothing then. -/
theorem refused_of_readInto (h : file.readInto offset buffer = ((.error cause, filled), after)) :
    cause = .io ∧ filled = buffer ∧ after = file := by
  cases hworks : file.failing with
  | true =>
    cases (readInto_of_failing hworks).symm.trans h
    exact ⟨rfl, rfl, rfl⟩
  | false => cases (readInto_of_working hworks).symm.trans h

/-- A read is served unless the file fails. -/
theorem served_read_iff : (∃ n filled after, file.readInto offset buffer = ((.ok n, filled), after)) ↔
    file.failing = false := by
  constructor
  · rintro ⟨n, filled, after, h⟩
    refine Bool.eq_false_iff.mpr fun hfails => ?_
    cases (readInto_of_failing hfails).symm.trans h
  · intro hworks
    exact ⟨_, _, _, readInto_of_working hworks⟩

/-- A write that is served stores the beginning of the data. -/
theorem stores_of_write (h : file.write offset data = (.ok n, after)) : file.Stores offset data n after := by
  cases hrefused : file.refuseWrite? offset data.size with
  | some cause => cases (write_of_refused hrefused).symm.trans h
  | none =>
    cases (write_of_accepted hrefused).symm.trans h
    have hcount := file.size_window_accepted data
    refine ⟨?_, Bytes.size_overlay _ _ _, fun i hi => ?_, fun i hend hi => ?_, fun i hi hout => ?_, rfl⟩
    · rw [hcount, accepted]
      split <;> split <;> omega
    · rw [Bytes.getElem?_overlay, if_pos ⟨Nat.le_add_right _ _, by omega⟩, Nat.add_sub_cancel_left,
        Bytes.getElem?_window, if_pos (by omega), Nat.zero_add]
    · rw [Bytes.getElem?_overlay, if_neg (by omega), if_neg (Nat.not_lt.mpr hend : ¬ i < file.content.size),
        if_pos hi]
    · rw [Bytes.getElem?_overlay, if_neg hout]
      exact if_pos hi

/-- A write that is refused changes nothing, and says which of the reasons came first. -/
theorem refused_of_write (h : file.write offset data = (.error cause, after)) :
    after = file ∧ cause = if file.failing then .io else if file.denied then .readOnly else .noSpace := by
  cases hrefused : file.refuseWrite? offset data.size with
  | some cause =>
    cases (write_of_refused hrefused).symm.trans h
    exact ⟨rfl, eq_of_refuseWrite? hrefused⟩
  | none => cases (write_of_accepted hrefused).symm.trans h

/-- A write is served exactly if nothing speaks against it. -/
theorem served_write_iff : (∃ n after, file.write offset data = (.ok n, after)) ↔
    file.failing = false ∧ file.denied = false ∧ (offset = 0 ∨ offset + data.size ≤ maxFileSize) := by
  rw [← refuseWrite?_eq_none]
  constructor
  · rintro ⟨n, after, h⟩
    cases hrefused : file.refuseWrite? offset data.size with
    | some cause => cases (write_of_refused hrefused).symm.trans h
    | none => rfl
  · intro haccepted
    exact ⟨_, _, write_of_accepted haccepted⟩

/-- To read in machine words is to read: the difference is taken only within the file, and the sum ends
within the file. -/
theorem readCounted_eq (hsize : file.size < wordLimit) :
    file.readCounted offset buffer = .ok (file.readInto offset buffer) := by
  rcases Bool.eq_false_or_eq_true file.failing with hfails | hworks
  · rw [readCounted, readInto_of_failing hfails, if_pos hfails]
  have hcount := @size_window_read file offset buffer
  rw [readCounted, readInto_of_working hworks, if_neg (Bool.eq_false_iff.mp hworks)]
  by_cases hbehind : file.size ≤ offset
  · rw [if_neg (Nat.not_lt.mpr hbehind)] at hcount
    rw [if_pos hbehind, Array.eq_empty_of_size_eq_zero hcount, Bytes.overlay_empty]
    rfl
  · rw [if_pos (Nat.lt_of_not_le hbehind)] at hcount
    have hends : offset + min buffer.size (file.size - offset) ≤ file.size := by omega
    have hdata : file.content.window offset buffer.size =
        file.content.window offset (min buffer.size (file.size - offset)) :=
      Bytes.window_eq_min (Nat.le_of_not_le hbehind)
    have hfilled : buffer.splice 0 (0 + (file.content.window offset buffer.size).size) _ = .ok _ :=
      Bytes.splice_eq_overlay (by omega)
    rw [Nat.zero_add, hcount] at hfilled
    rw [if_neg hbehind, differenceInWord, if_pos (Nat.le_of_not_le hbehind)]
    simp only [bind, Except.bind, sumInWord]
    rw [if_pos (Nat.lt_of_le_of_lt hends hsize)]
    simp only [Bytes.slice_eq_window hends, ← hdata, hfilled, hcount]

/-- To write in machine words is to write: what is stored ends within the largest size, or begins at the
beginning of the file. -/
theorem writeCounted_eq (hdata : data.size < wordLimit) :
    file.writeCounted offset data = .ok (file.write offset data) := by
  unfold writeCounted
  cases hrefused : file.refuseWrite? offset data.size with
  | some cause => rw [write_of_refused hrefused]
  | none =>
    have hroom := (refuseWrite?_eq_none.mp hrefused).2.2
    rw [write_of_accepted hrefused]
    have hle := file.accepted_le data.size
    have hcount := file.size_window_accepted data
    have hstored : data.slice 0 (0 + file.accepted data.size) = .ok _ := Bytes.slice_eq_window (by omega)
    rw [Nat.zero_add] at hstored
    have hends : offset + (data.window 0 (file.accepted data.size)).size < wordLimit := by
      simp only [wordLimit, maxFileSize] at *
      omega
    simp only [hstored, bind, Except.bind, sumInWord, if_pos hends]
    rw [size, Bytes.splice_grown]

end MemoryFile

/-! ### All requests -/

namespace FileLog

variable {log : FileLog} {visit : FileRequest × FileAnswer} {request : FileRequest} {answer : FileAnswer}
  {file after : MemoryFile}

/-- One more request may move the end of the file out. -/
theorem furthestEnd_concat (size : Nat) :
    furthestEnd (log ++ [visit]) size = max (log.furthestEnd size) (storedEnd visit) := by
  rw [furthestEnd, List.foldl_append]
  rfl

/-- The byte that was stored last is that of the last request, if it stored one there. -/
theorem lastStored?_concat (i : Nat) :
    lastStored? (log ++ [visit]) i = (stored? i visit).or (log.lastStored? i) := getLast?_filterMap_concat _ _ _

/-- What one request does to a file, as its log has it. -/
structure Step (visit : FileRequest × FileAnswer) (file after : MemoryFile) : Prop where
  size_eq : after.size = max file.size (storedEnd visit)
  byte_eq : ∀ i, after.content[i]?.getD 0 = (stored? i visit).getD (file.content[i]?.getD 0)
  reads_eq : after.reads = file.reads + UInt64.ofNat (if isServedRead visit then 1 else 0)
  writes_eq : after.writes = file.writes + UInt64.ofNat (if isServedWrite visit then 1 else 0)
  end_lt : visit.1.Fits → storedEnd visit < wordLimit

/-- What is not served, and a switch, leave bytes and counters alone. -/
theorem Step.of_idle (hcontent : after.content = file.content) (hreads : after.reads = file.reads)
    (hwrites : after.writes = file.writes) (hend : storedEnd visit = 0) (hbyte : ∀ i, stored? i visit = none)
    (hread : isServedRead visit = false) (hwrite : isServedWrite visit = false) : Step visit file after := by
  refine ⟨?_, fun i => ?_, ?_, ?_, fun _ => ?_⟩
  · rw [MemoryFile.size, hcontent, hend, Nat.max_zero, MemoryFile.size]
  · rw [hcontent, hbyte, Option.getD_none]
  · rw [hreads, hread]
    exact (UInt64.add_zero _).symm
  · rw [hwrites, hwrite]
    exact (UInt64.add_zero _).symm
  · rw [hend]
    exact Nat.zero_lt_succ _

/-- A read does to the file what its log says: it is counted if it is served. -/
theorem step_read {offset : Nat} {buffer : Bytes}
    (hrun : (FileRequest.read offset buffer).perform file = (answer, after)) :
    Step (.read offset buffer, answer) file after := by
  rw [FileRequest.perform] at hrun
  rcases Bool.eq_false_or_eq_true file.failing with hfails | hworks
  · rw [MemoryFile.readInto_of_failing hfails] at hrun
    cases hrun
    exact .of_idle rfl rfl rfl rfl (fun _ => rfl) rfl rfl
  · rw [MemoryFile.readInto_of_working hworks] at hrun
    cases hrun
    exact ⟨(Nat.max_zero _).symm, fun _ => rfl, rfl, (UInt64.add_zero _).symm, fun _ => Nat.zero_lt_succ _⟩

/-- A write does to the file what its log says: it stores, moves the end out and is counted if it is served. -/
theorem step_write {offset : Nat} {data : Bytes}
    (hrun : (FileRequest.write offset data).perform file = (answer, after)) :
    Step (.write offset data, answer) file after := by
  rw [FileRequest.perform] at hrun
  cases hrefused : file.refuseWrite? offset data.size with
  | some cause =>
    rw [MemoryFile.write_of_refused hrefused] at hrun
    cases hrun
    exact .of_idle rfl rfl rfl rfl (fun _ => rfl) rfl rfl
  | none =>
    rw [MemoryFile.write_of_accepted hrefused] at hrun
    cases hrun
    have hroom := (MemoryFile.refuseWrite?_eq_none.mp hrefused).2.2
    have hle := file.accepted_le data.size
    have hcount := file.size_window_accepted data
    refine ⟨Bytes.size_overlay _ _ _, fun i => ?_, (UInt64.add_zero _).symm, rfl, fun hfits => ?_⟩
    · rw [Bytes.getD_overlay, stored?]
      split
      · have hk : i - offset < data.size := by omega
        rw [Bytes.getElem?_window, if_pos (by omega), Nat.zero_add, Array.getElem?_eq_getElem hk,
          Option.getD_some, Option.getD_some]
      · rfl
    · have hdata : data.size < wordLimit := hfits.2
      simp only [storedEnd, wordLimit, maxFileSize] at *
      omega

/-- Each request does to the file what its log says. -/
theorem step_perform (hrun : request.perform file = (answer, after)) : Step (request, answer) file after := by
  cases request with
  | read offset buffer => exact step_read hrun
  | write offset data => exact step_write hrun
  | setFailing on =>
    cases hrun
    exact .of_idle rfl rfl rfl rfl (fun _ => rfl) rfl rfl
  | setDenied on =>
    cases hrun
    exact .of_idle rfl rfl rfl rfl (fun _ => rfl) rfl rfl
  | setCap most =>
    cases hrun
    exact .of_idle rfl rfl rfl rfl (fun _ => rfl) rfl rfl

/-- What the requests made of a file with some content. -/
structure Tells (content : Bytes) (log : FileLog) (file : MemoryFile) : Prop where
  size_eq : file.size = log.furthestEnd content.size
  byte_eq : ∀ i, file.content[i]?.getD 0 = (log.lastStored? i).getD (content[i]?.getD 0)
  reads_eq : file.reads = UInt64.ofNat (log.countP isServedRead)
  writes_eq : file.writes = UInt64.ofNat (log.countP isServedWrite)
  size_lt : file.size < wordLimit

/-- Before any request the file is its content. -/
theorem Tells.nil {content : Bytes} (hcontent : content.size < wordLimit) :
    Tells content [] (MemoryFile.ofBytes content) := ⟨rfl, fun _ => rfl, rfl, rfl, hcontent⟩

/-- One more request is told of by one more line of the log. -/
theorem Tells.concat {content : Bytes} (h : Tells content log file) (hfits : visit.1.Fits)
    (hstep : Step visit file after) : Tells content (log ++ [visit]) after := by
  refine ⟨?_, fun i => ?_, ?_, ?_, ?_⟩
  · rw [furthestEnd_concat, ← h.size_eq, hstep.size_eq]
  · rw [lastStored?_concat, hstep.byte_eq, h.byte_eq, Option.getD_or]
  · rw [List.countP_append, List.countP_singleton, UInt64.ofNat_add, ← h.reads_eq, hstep.reads_eq]
  · rw [List.countP_append, List.countP_singleton, UInt64.ofNat_add, ← h.writes_eq, hstep.writes_eq]
  · rw [hstep.size_eq]
    exact Nat.max_lt.mpr ⟨h.size_lt, hstep.end_lt hfits⟩

end FileLog

namespace MemoryFile

variable {content : Bytes} {log : FileLog} {file : MemoryFile}

/-- After any requests the log tells length, bytes and counters of the file. -/
theorem Reached.tells (hcontent : content.size < wordLimit) (h : Reached content log file) :
    FileLog.Tells content log file := by
  induction h with
  | nil => exact .nil hcontent
  | snoc _ hfits hrun ih => exact ih.concat hfits (FileLog.step_perform hrun)

/-- A file is a run of bytes that grows. After any requests its log says how long it is and which bytes it has,
and the next read or write answers as many bytes as it moves, moves these and changes no other, or is refused
and changes nothing. No number that it goes through leaves its machine word. -/
theorem Reached.growsAsBytes (hcontent : content.size < wordLimit) (h : Reached content log file) :
    GrowsAsBytes content log file := by
  have htells := h.tells hcontent
  refine ⟨htells.size_eq, fun i hi => ?_, htells.reads_eq, htells.writes_eq, fun _ _ => served_read_iff,
    fun _ _ _ _ _ => fills_of_readInto, fun _ _ _ _ _ => refused_of_readInto, fun _ _ => served_write_iff,
    fun _ _ _ _ => stores_of_write, fun _ _ _ _ => refused_of_write, fun _ _ => readCounted_eq htells.size_lt,
    fun _ _ => writeCounted_eq⟩
  rw [← htells.byte_eq, Array.getElem?_eq_getElem hi, Option.getD_some]

/-- A write behind the end leaves a gap of zeroes, and is cut short. A read at the end fills half of its buffer,
and a write that is denied leaves what was read. -/
theorem growsAsBytes_sample : ∃ log file, (#[1, 2] : Bytes).size < wordLimit ∧ Reached #[1, 2] log file ∧
    file.content = #[1, 2, 0, 0, 0, 9, 8, 7] ∧ (file.reads, file.writes) = (1, 1) ∧
    (file.readInto 6 #[5, 5, 5, 5]).1 = (.ok 2, #[8, 7, 5, 5]) ∧
    (file.write 7 #[4]).1 = .error .readOnly ∧ GrowsAsBytes #[1, 2] log file := by
  have hnew : Reached #[1, 2] [] (ofBytes #[1, 2]) := .nil
  have hcapped := hnew.snoc (show (FileRequest.setCap 3).Fits by decide) rfl
  have hwritten := hcapped.snoc (show (FileRequest.write 5 #[9, 8, 7, 6]).Fits by decide) rfl
  have hread := hwritten.snoc (show (FileRequest.read 6 #[5, 5, 5, 5]).Fits by decide) rfl
  have hdenied := hread.snoc (show (FileRequest.setDenied true).Fits by decide) rfl
  have hrefused := hdenied.snoc (show (FileRequest.write 7 #[4]).Fits by decide) rfl
  exact ⟨_, _, by decide, hrefused, by decide +kernel, by decide +kernel, by decide +kernel, by decide +kernel,
    hrefused.growsAsBytes (by decide)⟩

end MemoryFile

end DemandPaging
