import DemandPaging.Text.Blank

/-!
# Cutting a line into words

`Blank.Cut text words` says, without an algorithm, that `words` are the words of a line: each is a
piece of it without white space, in order, with white space or an end of the line on both sides, and
only white space is left out. A line can be cut in one way only, and `Blank.words` finds it
(`Blank.cut_iff`).
-/

set_option autoImplicit false

namespace DemandPaging.Blank

/-- The code points with the White_Space property, one by one. -/
def codePoints : List Nat :=
  [0x9, 0xA, 0xB, 0xC, 0xD, 0x20, 0x85, 0xA0, 0x1680, 0x2000, 0x2001, 0x2002, 0x2003, 0x2004, 0x2005,
    0x2006, 0x2007, 0x2008, 0x2009, 0x200A, 0x2028, 0x2029, 0x202F, 0x205F, 0x3000]

/-- A white-space character. -/
def IsWhite (c : Char) : Prop := c.toNat ∈ codePoints

/-- `words` are the words of `text`: what stands between white space. -/
inductive Cut : List Char → List (List Char) → Prop
  /-- White space alone has no words. -/
  | blank {gap : List Char} (hgap : ∀ c ∈ gap, IsWhite c) : Cut gap []
  /-- The first word is as long as it can be. -/
  | word {gap word rest : List Char} {words : List (List Char)} (hgap : ∀ c ∈ gap, IsWhite c)
      (hne : word ≠ []) (hword : ∀ c ∈ word, ¬ IsWhite c) (hend : ∀ c, rest.head? = some c → IsWhite c)
      (hrest : Cut rest words) : Cut (gap ++ word ++ rest) (word :: words)

/-- The table of ranges has just the white-space characters. -/
theorem isBlank_iff (c : Char) : isBlank c = true ↔ IsWhite c := by
  simp only [isBlank, ranges, List.any_cons, List.any_nil, Bool.or_eq_true, Bool.and_eq_true,
    decide_eq_true_eq, Bool.false_eq_true, or_false, IsWhite, codePoints, List.mem_cons,
    List.not_mem_nil]
  omega

/-- The characters that are not in the table are not white space. -/
theorem isBlank_eq_false_iff (c : Char) : isBlank c = false ↔ ¬ IsWhite c := by
  rw [← isBlank_iff, Bool.not_eq_true]

/-- The characters of a word. -/
def isSolid (c : Char) : Bool := !isBlank c

/-- White space in front of a text makes no word. -/
theorem words_cons_blank {c : Char} (h : isBlank c = true) (text : List Char) :
    words (c :: text) = words text := by
  simp [words, pieces, h]

/-- Behind its first piece a text has the words of what is left. -/
theorem exists_pieces (text : List Char) :
    ∃ more, pieces text = text.takeWhile isSolid :: more ∧
      more.filter (fun word => !decide (word = [])) = words (text.dropWhile isSolid) := by
  induction text with
  | nil => exact ⟨[], rfl, rfl⟩
  | cons c text ih =>
    cases hc : isBlank c with
    | true =>
      refine ⟨pieces text, by simp [pieces, isSolid, hc], ?_⟩
      simp [isSolid, hc, words, pieces]
    | false =>
      obtain ⟨more, hpieces, hmore⟩ := ih
      exact ⟨more, by simp [pieces, isSolid, hc, hpieces, consWord], by simpa [isSolid, hc] using hmore⟩

/-- A word goes on until the first white space. -/
theorem words_cons_solid {c : Char} (h : isBlank c = false) (text : List Char) :
    words (c :: text) = (c :: text.takeWhile isSolid) :: words (text.dropWhile isSolid) := by
  obtain ⟨more, hpieces, hmore⟩ := exists_pieces text
  rw [← hmore]
  simp [words, pieces, h, hpieces, consWord]

/-- A gap in front of a text makes no word, however long it is. -/
theorem words_gap_append {gap : List Char} (hgap : ∀ c ∈ gap, IsWhite c) (text : List Char) :
    words (gap ++ text) = words text := by
  induction gap with
  | nil => rfl
  | cons c gap ih =>
    rw [List.cons_append, words_cons_blank ((isBlank_iff c).2 (hgap c List.mem_cons_self)),
      ih fun d hd => hgap d (List.mem_cons_of_mem _ hd)]

/-- A word ends at white space or at the end of the line. -/
theorem span_solid {word rest : List Char} (hword : ∀ c ∈ word, ¬ IsWhite c)
    (hend : ∀ c, rest.head? = some c → IsWhite c) :
    (word ++ rest).takeWhile isSolid = word ∧ (word ++ rest).dropWhile isSolid = rest := by
  induction word with
  | nil =>
    cases rest with
    | nil => exact ⟨rfl, rfl⟩
    | cons c rest =>
      have hc : isBlank c = true := (isBlank_iff c).2 (hend c rfl)
      simp [isSolid, hc]
  | cons c word ih =>
    have hc : isBlank c = false := (isBlank_eq_false_iff c).2 (hword c List.mem_cons_self)
    have := ih fun d hd => hword d (List.mem_cons_of_mem _ hd)
    simpa [isSolid, hc] using this

/-- A word that is followed by white space is cut off as a whole. -/
theorem words_word_append {word rest : List Char} (hne : word ≠ []) (hword : ∀ c ∈ word, ¬ IsWhite c)
    (hend : ∀ c, rest.head? = some c → IsWhite c) : words (word ++ rest) = word :: words rest := by
  cases word with
  | nil => exact absurd rfl hne
  | cons c word =>
    obtain ⟨htake, hdrop⟩ := span_solid (fun d hd => hword d (List.mem_cons_of_mem _ hd)) hend
    rw [List.cons_append,
      words_cons_solid ((isBlank_eq_false_iff c).2 (hword c List.mem_cons_self)), htake, hdrop]

/-- The words of a text are determined: any cut is the one that is computed. -/
theorem Cut.eq_words {text : List Char} {cut : List (List Char)} (h : Cut text cut) :
    cut = words text := by
  induction h with
  | blank hgap =>
    have := words_gap_append hgap []
    rw [List.append_nil] at this
    rw [this]
    rfl
  | word hgap hne hword hend hrest ih =>
    rw [List.append_assoc, words_gap_append hgap, words_word_append hne hword hend, ← ih]

/-- More white space in front of a text leaves its words the same. -/
theorem Cut.cons_blank {c : Char} {text : List Char} {cut : List (List Char)} (hc : IsWhite c)
    (h : Cut text cut) : Cut (c :: text) cut := by
  have hcons {gap : List Char} (hgap : ∀ d ∈ gap, IsWhite d) : ∀ d ∈ c :: gap, IsWhite d := by
    rintro d (_ | ⟨_, hd⟩)
    · exact hc
    · exact hgap d hd
  cases h with
  | blank hgap => exact .blank (hcons hgap)
  | word hgap hne hword hend hrest => exact .word (hcons hgap) hne hword hend hrest

/-- What is computed is a cut. -/
theorem cut_words (text : List Char) : Cut text (words text) := by
  match text with
  | [] => exact .blank (fun c hc => nomatch hc)
  | c :: text =>
    cases hc : isBlank c with
    | true =>
      rw [words_cons_blank hc]
      exact (cut_words text).cons_blank ((isBlank_iff c).1 hc)
    | false =>
      rw [words_cons_solid hc]
      have hsolid : ∀ d ∈ c :: text.takeWhile isSolid, ¬ IsWhite d := by
        rintro d (_ | ⟨_, hd⟩)
        · exact (isBlank_eq_false_iff c).1 hc
        · have := List.all_eq_true.1 List.all_takeWhile d hd
          rw [isSolid, Bool.not_eq_true'] at this
          exact (isBlank_eq_false_iff d).1 this
      have hend : ∀ d, (text.dropWhile isSolid).head? = some d → IsWhite d := by
        intro d hd
        have := List.head?_dropWhile_not isSolid text
        rw [hd] at this
        simpa [isSolid, isBlank_iff] using this
      have hgap : ∀ d ∈ ([] : List Char), IsWhite d := fun d hd => nomatch hd
      have := Cut.word hgap (List.cons_ne_nil _ _) hsolid hend (cut_words (text.dropWhile isSolid))
      simpa using this
termination_by text.length
decreasing_by
  · exact Nat.lt_succ_of_le (List.dropWhile_sublist isSolid).length_le
  · simp

/-- A line is cut into its words, and in no other way. -/
theorem cut_iff (text : List Char) (cut : List (List Char)) : Cut text cut ↔ cut = words text :=
  ⟨Cut.eq_words, fun h => h ▸ cut_words text⟩

end DemandPaging.Blank
