import DemandPaging.Config.Parser
import DemandPaging.Config.Printer
import DemandPaging.Proofs.CutWords
import Mathlib.Data.List.Induction

/-!
# The grammar of the command line

`Says word effect` says what one word of the command line means, by its form alone: an option that is
ours chooses a cap, a stack limit or a placement, or is refused with a cause; any other word means
nothing. `LastChoice` says which of several choices counts.

A word means exactly one thing, and `Config.withWord` does that (`withWord_eq_apply`). From this the main
statement, `parse_follows_grammar`: a line is refused with the cause of its first offending word, and if
there is none every choice is the last one made for it, or the default. What is chosen is in bounds, and
each configuration in bounds is read back from the options that write it.
-/

set_option autoImplicit false

namespace DemandPaging

/-- A letter, a digit or an underscore, each of ASCII. -/
def IsNameChar (c : Char) : Prop :=
  ('a' ≤ c ∧ c ≤ 'z') ∨ ('A' ≤ c ∧ c ≤ 'Z') ∨ ('0' ≤ c ∧ c ≤ '9') ∨ c = '_'

/-- `word` is `-name`, or `-name=text` with `value = some text`. -/
inductive IsOption : List Char → List Char → Option (List Char) → Prop
  /-- The option `-name`. -/
  | bare {name : List Char} (hne : name ≠ []) (hname : ∀ c ∈ name, IsNameChar c) :
      IsOption ('-' :: name) name none
  /-- The option `-name=text`. -/
  | valued {name : List Char} (text : List Char) (hne : name ≠ []) (hname : ∀ c ∈ name, IsNameChar c) :
      IsOption ('-' :: (name ++ '=' :: text)) name (some text)

/-- `text` is a decimal numeral, of one digit or more, and stands for the number. -/
inductive Decimal : List Char → Nat → Prop
  /-- A single digit. -/
  | digit {d : Nat} (hd : d < 10) : Decimal [Nat.digitChar d] d
  /-- A digit behind a numeral. -/
  | snoc {text : List Char} {n d : Nat} (htext : Decimal text n) (hd : d < 10) :
      Decimal (text ++ [Nat.digitChar d]) (10 * n + d)

/-- A numeral of a machine word. -/
def IsCount (text : List Char) (count : Nat) : Prop := Decimal text count ∧ count < wordLimit

/-- What may stand behind the digits of a size, and the unit it means. -/
inductive Suffix : List Char → Nat → Prop
  /-- Bytes. -/
  | none : Suffix [] 1
  /-- Units of 1024 bytes. -/
  | kilo {c : Char} (hc : c = 'K' ∨ c = 'k') : Suffix [c] 1024
  /-- Units of 1024² bytes. -/
  | mega {c : Char} (hc : c = 'M' ∨ c = 'm') : Suffix [c] (1024 * 1024)

/-- A numeral with at most one suffix, whose scaled value is a machine word. -/
def IsSize (text : List Char) (size : Nat) : Prop :=
  ∃ digits suffix count unit, text = digits ++ suffix ∧ Decimal digits count ∧ Suffix suffix unit ∧
    size = count * unit ∧ size < wordLimit

/-- What a word can mean. -/
inductive Effect where
  /-- The word is passed over. -/
  | nothing
  /-- A cap on the user pool. -/
  | limit (count : Nat)
  /-- How far stacks may grow. -/
  | stack (size : Nat)
  /-- How frames are placed. -/
  | placed (placement : Placement)
  /-- The word is wrong. -/
  | refused (cause : ConfigError)

/-- The names of the options that are ours. -/
def optionNames : List (List Char) := ["ul".toList, "stack".toList, "placement".toList]

/-- What a word means. -/
inductive Says (word : List Char) : Effect → Prop
  /-- Not an option as a whole. -/
  | notOption (h : ∀ name value, ¬ IsOption word name value) : Says word .nothing
  /-- An option for someone else. -/
  | foreign {name : List Char} {value : Option (List Char)} (h : IsOption word name value)
      (hname : name ∉ optionNames) : Says word .nothing
  /-- A cap of at least one frame. -/
  | limit {text : List Char} {count : Nat} (h : IsOption word "ul".toList (some text))
      (hcount : IsCount text count) (hpos : count ≠ 0) : Says word (.limit count)
  /-- A cap of no frames. -/
  | emptyPool {text : List Char} (h : IsOption word "ul".toList (some text)) (hcount : IsCount text 0) :
      Says word (.refused .emptyPool)
  /-- A cap that is not a count. -/
  | badLimit {value : Option (List Char)} (h : IsOption word "ul".toList value)
      (hbad : ∀ text count, value = some text → ¬ IsCount text count) :
      Says word (.refused (.invalidValue "ul"))
  /-- A stack limit in bounds. -/
  | stack {text : List Char} {size : Nat} (h : IsOption word "stack".toList (some text))
      (hsize : IsSize text size) (hlow : pageSize ≤ size) (hhigh : size < kernelBase) :
      Says word (.stack size)
  /-- A stack limit out of bounds. -/
  | stackOutOfRange {text : List Char} {size : Nat} (h : IsOption word "stack".toList (some text))
      (hsize : IsSize text size) (hout : size < pageSize ∨ kernelBase ≤ size) :
      Says word (.refused (.stackOutOfRange size))
  /-- A stack limit that is not a size. -/
  | badStack {value : Option (List Char)} (h : IsOption word "stack".toList value)
      (hbad : ∀ text size, value = some text → ¬ IsSize text size) :
      Says word (.refused (.invalidValue "stack"))
  /-- Placement from where the last search ended. -/
  | nextFit (h : IsOption word "placement".toList (some "next".toList)) :
      Says word (.placed .nextFit)
  /-- Placement from the start. -/
  | firstFit (h : IsOption word "placement".toList (some "first".toList)) :
      Says word (.placed .firstFit)
  /-- A placement that there is not. -/
  | badPlacement {value : Option (List Char)} (h : IsOption word "placement".toList value)
      (hnext : value ≠ some "next".toList) (hfirst : value ≠ some "first".toList) :
      Says word (.refused (.invalidValue "placement"))

/-- `chosen` is what the last of the words that choose makes it, or else the default. -/
def LastChoice {α : Type} (words : List (List Char)) (chooses : List Char → α → Prop)
    (default chosen : α) : Prop :=
  (∃ earlier word later, words = earlier ++ word :: later ∧ chooses word chosen ∧
    ∀ other ∈ later, ∀ choice, ¬ chooses other choice) ∨
  (chosen = default ∧ ∀ word ∈ words, ∀ choice, ¬ chooses word choice)

namespace Config

/-- A configuration in bounds. -/
structure InBounds (config : Config) : Prop where
  limit : ∀ limit, config.poolLimit = some limit → 1 ≤ limit ∧ limit < wordLimit
  stack : pageSize ≤ config.maxStack ∧ config.maxStack < kernelBase

end Config

/-- The test for characters of a name tells them. -/
theorem isNameChar_iff (c : Char) : OptionWord.isNameChar c = true ↔ IsNameChar c := by
  delta OptionWord.isNameChar Char.isAlphanum Char.isAlpha Char.isUpper Char.isLower Char.isDigit
    IsNameChar
  simp only [Bool.or_eq_true, Bool.and_eq_true, decide_eq_true_eq, beq_iff_eq, Char.le_def, ge_iff_le]
  grind

namespace OptionWord

/-- A name ends where a character cannot belong to it. -/
theorem span_name {name rest : List Char} (hname : ∀ c ∈ name, IsNameChar c)
    (hrest : ∀ c, rest.head? = some c → isNameChar c = false) :
    (name ++ rest).takeWhile isNameChar = name ∧ (name ++ rest).dropWhile isNameChar = rest := by
  induction name with
  | nil =>
    cases rest with
    | nil => exact ⟨rfl, rfl⟩
    | cons c rest => simp [hrest c rfl]
  | cons c name ih =>
    have hc := (isNameChar_iff c).2 (hname c List.mem_cons_self)
    have := ih fun d hd => hname d (List.mem_cons_of_mem _ hd)
    simpa [hc] using this

/-- What is read as an option is one. -/
theorem isOption_of_ofWord? {word name : List Char} {value : Option (List Char)}
    (h : ofWord? word = some ⟨name, value⟩) : IsOption word name value := by
  unfold ofWord? at h
  split at h
  case h_2 => cases h
  case h_1 rest =>
    have hname : ∀ c ∈ rest.takeWhile isNameChar, IsNameChar c := fun c hc =>
      (isNameChar_iff c).1 (List.all_eq_true.1 List.all_takeWhile c hc)
    have hrest : rest = rest.takeWhile isNameChar ++ rest.dropWhile isNameChar :=
      List.takeWhile_append_dropWhile.symm
    dsimp only at h
    split at h
    case isTrue => cases h
    case isFalse hne =>
      split at h
      case h_1 heq =>
        cases h
        rw [heq, List.append_nil] at hrest
        rw [← hrest] at hne hname ⊢
        exact .bare hne hname
      case h_2 text heq =>
        cases h
        rw [heq] at hrest
        have := IsOption.valued text hne hname
        rwa [← hrest] at this
      case h_3 => cases h

/-- A word is read as an option exactly if it is one, with this name and value. -/
theorem ofWord?_iff (word name : List Char) (value : Option (List Char)) :
    ofWord? word = some ⟨name, value⟩ ↔ IsOption word name value := by
  refine ⟨isOption_of_ofWord?, fun h => ?_⟩
  cases h with
  | bare hne hname =>
    have hrest : ∀ c, ([] : List Char).head? = some c → isNameChar c = false := fun c hc => nomatch hc
    obtain ⟨htake, hdrop⟩ := span_name hname hrest
    rw [List.append_nil] at htake hdrop
    simp [ofWord?, htake, hdrop, hne]
  | valued text hne hname =>
    have hrest : ∀ c, ('=' :: text).head? = some c → isNameChar c = false := by
      rintro c ⟨⟩
      rfl
    obtain ⟨htake, hdrop⟩ := span_name hname hrest
    simp [ofWord?, htake, hdrop, hne]

end OptionWord

/-- A word is an option in one way only. -/
theorem IsOption.unique {word name name' : List Char} {value value' : Option (List Char)}
    (h : IsOption word name value) (h' : IsOption word name' value') : name = name' ∧ value = value' := by
  have := ((OptionWord.ofWord?_iff word name value).2 h).symm.trans
    ((OptionWord.ofWord?_iff word name' value').2 h')
  simpa using this

/-- No unit is zero. -/
theorem Suffix.pos {text : List Char} {unit : Nat} (h : Suffix text unit) : 1 ≤ unit := by
  cases h <;> omega

namespace Config

/-- One more digit makes ten times the number and the digit. -/
theorem digitsValue_snoc (text : List Char) {d : Nat} (hd : d < 10) :
    digitsValue (text ++ [Nat.digitChar d]) = 10 * digitsValue text + d := by
  have : (Nat.digitChar d).toNat - '0'.toNat = d := by
    rw [Nat.toNat_digitChar_of_lt_ten hd, show '0'.toNat = 48 from rfl]
    omega
  simp only [digitsValue, List.foldl_append, List.foldl_cons, List.foldl_nil, this]

/-- The digits stand in a row among the characters. -/
theorem isDigit_iff_toNat (c : Char) : c.isDigit = true ↔ 48 ≤ c.toNat ∧ c.toNat ≤ 57 := by
  simp only [Char.isDigit, ge_iff_le, Bool.and_eq_true, decide_eq_true_eq, UInt32.le_iff_toNat_le]
  rfl

/-- The digit of a number below ten is a digit. -/
theorem isDigit_digitChar {d : Nat} (hd : d < 10) : (Nat.digitChar d).isDigit = true := by
  rw [isDigit_iff_toNat, Nat.toNat_digitChar_of_lt_ten hd]
  omega

/-- Each digit is the digit of a number. -/
theorem exists_digitChar {c : Char} (hc : c.isDigit = true) : ∃ d < 10, c = Nat.digitChar d := by
  rw [isDigit_iff_toNat] at hc
  refine ⟨c.toNat - 48, by omega, Char.toNat_inj.1 ?_⟩
  rw [Nat.toNat_digitChar_of_lt_ten (by omega)]
  omega

/-- A text is a numeral if it has digits and nothing else, and their value is the number. -/
theorem decimal_iff (text : List Char) (n : Nat) :
    Decimal text n ↔ (text ≠ [] ∧ text.all Char.isDigit = true) ∧ digitsValue text = n := by
  constructor
  · intro h
    induction h with
    | digit hd =>
      have := digitsValue_snoc [] hd
      simpa [isDigit_digitChar hd, digitsValue] using this
    | snoc htext hd ih =>
      obtain ⟨⟨-, hall⟩, rfl⟩ := ih
      simp [digitsValue_snoc _ hd, isDigit_digitChar hd, hall]
  · rintro ⟨⟨hne, hall⟩, rfl⟩
    induction text using List.reverseRecOn with
    | nil => exact absurd rfl hne
    | append_singleton text c ih =>
      rw [List.all_append, Bool.and_eq_true] at hall
      obtain ⟨d, hd, rfl⟩ := exists_digitChar (c := c) (by simpa using hall.2)
      rw [digitsValue_snoc text hd]
      by_cases htext : text = []
      · subst htext
        simpa [digitsValue] using Decimal.digit hd
      · exact .snoc (ih htext hall.1) hd

/-- A count is read exactly if the text is one. -/
theorem readCount?_iff (text : List Char) (count : Nat) :
    readCount? text = some count ↔ IsCount text count := by
  rw [IsCount, decimal_iff, readCount?]
  split
  case isTrue h =>
    rw [Option.some.injEq]
    exact ⟨fun hcount => ⟨⟨⟨h.1, h.2.1⟩, hcount⟩, hcount ▸ h.2.2⟩, fun hcount => hcount.1.2⟩
  case isFalse h =>
    refine ⟨fun hcount => (nomatch hcount), ?_⟩
    rintro ⟨⟨⟨hne, hall⟩, rfl⟩, hlt⟩
    exact absurd ⟨hne, hall, hlt⟩ h

/-- A unit is read exactly if the text is its suffix. -/
theorem readUnit?_iff (text : List Char) (unit : Nat) :
    readUnit? text = some unit ↔ Suffix text unit := by
  constructor
  · intro h
    unfold readUnit? at h
    split at h
    · cases h
      exact .none
    · cases h
      exact .kilo (.inl rfl)
    · cases h
      exact .kilo (.inr rfl)
    · cases h
      exact .mega (.inl rfl)
    · cases h
      exact .mega (.inr rfl)
    · cases h
  · intro h
    cases h with
    | none => rfl
    | kilo hc => rcases hc with rfl | rfl <;> rfl
    | mega hc => rcases hc with rfl | rfl <;> rfl

/-- A suffix is told from the digits before it. -/
theorem span_digits {digits suffix : List Char} {unit : Nat} (hdigits : digits.all Char.isDigit = true)
    (hsuffix : Suffix suffix unit) :
    (digits ++ suffix).takeWhile Char.isDigit = digits ∧
      (digits ++ suffix).dropWhile Char.isDigit = suffix := by
  induction digits with
  | nil =>
    cases hsuffix with
    | none => exact ⟨rfl, rfl⟩
    | kilo hc => rcases hc with rfl | rfl <;> exact ⟨rfl, rfl⟩
    | mega hc => rcases hc with rfl | rfl <;> exact ⟨rfl, rfl⟩
  | cons c digits ih =>
    rw [List.all_cons, Bool.and_eq_true] at hdigits
    have := ih hdigits.2
    simpa [hdigits.1] using this

/-- A size is read exactly if the text is one. The digits are read as far as they go, so a suffix cannot be
taken for a part of them. -/
theorem readSize?_iff (text : List Char) (size : Nat) :
    readSize? text = some size ↔ IsSize text size := by
  constructor
  · intro h
    unfold readSize? at h
    split at h
    case h_2 => cases h
    case h_1 count unit hcount hunit =>
      split at h
      case isFalse => cases h
      case isTrue hlt =>
        cases h
        exact ⟨_, _, count, unit, List.takeWhile_append_dropWhile.symm,
          ((readCount?_iff _ _).1 hcount).1, (readUnit?_iff _ _).1 hunit, rfl, hlt⟩
  · rintro ⟨digits, suffix, count, unit, rfl, hdecimal, hsuffix, rfl, hlt⟩
    obtain ⟨htake, hdrop⟩ := span_digits ((decimal_iff _ _).1 hdecimal).1.2 hsuffix
    have hcount : count < wordLimit :=
      Nat.lt_of_le_of_lt (Nat.le_mul_of_pos_right count hsuffix.pos) hlt
    rw [readSize?, htake, hdrop, (readCount?_iff _ _).2 ⟨hdecimal, hcount⟩,
      (readUnit?_iff _ _).2 hsuffix]
    simp [hlt]

end Config

namespace Effect

/-- What a word with this meaning makes of a configuration. -/
def apply (config : Config) : Effect → Except ConfigError Config
  | nothing => .ok config
  | limit count => .ok { config with poolLimit := some count }
  | stack size => .ok { config with maxStack := size }
  | placed placement => .ok { config with placement }
  | refused cause => .error cause

/-- A meaning is known by what it does. -/
theorem eq_of_apply_eq {effect effect' : Effect}
    (h : ∀ config, effect.apply config = effect'.apply config) : effect = effect' := by
  have h₀ := h { poolLimit := none, maxStack := 0, placement := .nextFit }
  have h₁ := h { poolLimit := none, maxStack := 1, placement := .firstFit }
  cases effect <;> cases effect' <;>
    simp only [apply, Except.ok.injEq, Except.error.injEq, Config.mk.injEq, reduceCtorEq] at h₀ h₁ <;>
    grind

end Effect

namespace Config

variable {word : List Char}

/-- A word that is an option does what the option does. -/
theorem withWord_of_isOption {name : List Char} {value : Option (List Char)}
    (h : IsOption word name value) (config : Config) :
    config.withWord word = config.withOption ⟨name, value⟩ := by
  rw [withWord, (OptionWord.ofWord?_iff word name value).2 h]

/-- A word with this name sets the cap, or fails to. -/
theorem withWord_limit {value : Option (List Char)} (h : IsOption word "ul".toList value)
    (config : Config) : config.withWord word = config.withPoolLimit value := by
  simp only [withWord_of_isOption h, withOption, ↓reduceIte]

/-- A word with this name sets the stack limit, or fails to. -/
theorem withWord_stack {value : Option (List Char)} (h : IsOption word "stack".toList value)
    (config : Config) : config.withWord word = config.withMaxStack value := by
  have hul : "stack".toList ≠ "ul".toList := by decide
  simp only [withWord_of_isOption h, withOption, hul, ↓reduceIte]

/-- A word with this name sets the placement, or fails to. -/
theorem withWord_placement {value : Option (List Char)} (h : IsOption word "placement".toList value)
    (config : Config) : config.withWord word = config.withPlacement value := by
  have hul : "placement".toList ≠ "ul".toList := by decide
  have hstack : "placement".toList ≠ "stack".toList := by decide
  simp only [withWord_of_isOption h, withOption, hul, hstack, ↓reduceIte]

/-- No value is read if there is none or it cannot be read. -/
theorem bind_eq_none {α : Type} {read : List Char → Option α} {value : Option (List Char)}
    (h : ∀ text a, value = some text → read text ≠ some a) : value.bind read = none := by
  cases value with
  | none => rfl
  | some text => exact Option.eq_none_iff_forall_ne_some.2 fun a => h text a rfl

/-- A word does what it means. -/
theorem withWord_eq_apply {effect : Effect} (h : Says word effect) (config : Config) :
    config.withWord word = effect.apply config := by
  cases h with
  | notOption h =>
    have : OptionWord.ofWord? word = none := by
      rw [Option.eq_none_iff_forall_ne_some]
      rintro ⟨name, value⟩ hword
      exact h name value ((OptionWord.ofWord?_iff word name value).1 hword)
    rw [withWord, this]
    rfl
  | foreign h hname =>
    simp only [optionNames, List.mem_cons, List.not_mem_nil, or_false, not_or] at hname
    rw [withWord_of_isOption h, withOption, if_neg hname.1, if_neg hname.2.1, if_neg hname.2.2]
    rfl
  | @limit text count h hcount hpos =>
    rw [withWord_limit h, withPoolLimit, Option.bind_some, (readCount?_iff text count).2 hcount]
    cases count with
    | zero => exact absurd rfl hpos
    | succ count => rfl
  | @emptyPool text h hcount =>
    rw [withWord_limit h, withPoolLimit, Option.bind_some, (readCount?_iff text 0).2 hcount]
    rfl
  | @badLimit value h hbad =>
    have hnone : value.bind readCount? = none := bind_eq_none fun text count hvalue hread =>
      hbad text count hvalue ((readCount?_iff text count).1 hread)
    rw [withWord_limit h, withPoolLimit, hnone]
    rfl
  | @stack text size h hsize hlow hhigh =>
    rw [withWord_stack h, withMaxStack, Option.bind_some, (readSize?_iff text size).2 hsize]
    exact if_neg (by omega)
  | @stackOutOfRange text size h hsize hout =>
    rw [withWord_stack h, withMaxStack, Option.bind_some, (readSize?_iff text size).2 hsize]
    exact if_pos hout
  | @badStack value h hbad =>
    have hnone : value.bind readSize? = none := bind_eq_none fun text size hvalue hread =>
      hbad text size hvalue ((readSize?_iff text size).1 hread)
    rw [withWord_stack h, withMaxStack, hnone]
    rfl
  | nextFit h => rw [withWord_placement h]; rfl
  | firstFit h => rw [withWord_placement h]; rfl
  | @badPlacement value h hnext hfirst =>
    have hnone : value.bind readPlacement? = none := by
      refine bind_eq_none ?_
      rintro text placement rfl hread
      rw [readPlacement?, if_neg fun heq => hnext (congrArg some heq),
        if_neg fun heq => hfirst (congrArg some heq)] at hread
      cases hread
    rw [withWord_placement h, withPlacement, hnone]
    rfl

end Config

namespace Says

variable {word : List Char}

/-- A word means one thing only, since meanings differ in what they do. -/
theorem unique {effect effect' : Effect} (h : Says word effect) (h' : Says word effect') :
    effect = effect' :=
  Effect.eq_of_apply_eq fun config =>
    (Config.withWord_eq_apply h config).symm.trans (Config.withWord_eq_apply h' config)

/-- A word for a cap means something, whatever is chosen. -/
theorem exists_of_limit {value : Option (List Char)} (h : IsOption word "ul".toList value) :
    ∃ effect, Says word effect := by
  by_cases hgood : ∃ text count, value = some text ∧ IsCount text count
  · obtain ⟨text, count, rfl, hcount⟩ := hgood
    by_cases hpos : count = 0
    · subst hpos
      exact ⟨_, .emptyPool h hcount⟩
    · exact ⟨_, .limit h hcount hpos⟩
  · exact ⟨_, .badLimit h fun text count hvalue hcount => hgood ⟨text, count, hvalue, hcount⟩⟩

/-- A word for a stack limit means something, whatever is chosen. -/
theorem exists_of_stack {value : Option (List Char)} (h : IsOption word "stack".toList value) :
    ∃ effect, Says word effect := by
  by_cases hgood : ∃ text size, value = some text ∧ IsSize text size
  · obtain ⟨text, size, rfl, hsize⟩ := hgood
    by_cases hout : size < pageSize ∨ kernelBase ≤ size
    · exact ⟨_, .stackOutOfRange h hsize hout⟩
    · exact ⟨_, .stack h hsize (by omega) (by omega)⟩
  · exact ⟨_, .badStack h fun text size hvalue hsize => hgood ⟨text, size, hvalue, hsize⟩⟩

/-- A word for a placement means something, whatever is chosen. -/
theorem exists_of_placement {value : Option (List Char)} (h : IsOption word "placement".toList value) :
    ∃ effect, Says word effect := by
  by_cases hnext : value = some "next".toList
  · exact ⟨_, .nextFit (hnext ▸ h)⟩
  · by_cases hfirst : value = some "first".toList
    · exact ⟨_, .firstFit (hfirst ▸ h)⟩
    · exact ⟨_, .badPlacement h hnext hfirst⟩

/-- Each word means something. -/
theorem exists_meaning (word : List Char) : ∃ effect, Says word effect := by
  by_cases h : ∃ name value, IsOption word name value
  · obtain ⟨name, value, h⟩ := h
    by_cases hname : name ∈ optionNames
    · simp only [optionNames, List.mem_cons, List.not_mem_nil, or_false] at hname
      rcases hname with rfl | rfl | rfl
      · exact exists_of_limit h
      · exact exists_of_stack h
      · exact exists_of_placement h
    · exact ⟨_, .foreign h hname⟩
  · exact ⟨_, .notOption fun name value hword => h ⟨name, value, hword⟩⟩

end Says

/-- No word is wrong. -/
def NoneRefused (words : List (List Char)) : Prop :=
  ∀ word ∈ words, ∀ cause, ¬ Says word (.refused cause)

/-- The first word that is wrong is wrong for this cause. -/
def FirstRefused (words : List (List Char)) (cause : ConfigError) : Prop :=
  ∃ earlier word later, words = earlier ++ word :: later ∧ NoneRefused earlier ∧
    Says word (.refused cause)

/-- The word chooses this cap. -/
def ChoosesLimit (word : List Char) (limit : Option Nat) : Prop :=
  ∃ count, limit = some count ∧ Says word (.limit count)

/-- The word chooses this stack limit. -/
def ChoosesStack (word : List Char) (size : Nat) : Prop := Says word (.stack size)

/-- The word chooses this placement. -/
def ChoosesPlacement (word : List Char) (placement : Placement) : Prop := Says word (.placed placement)

section Words

variable {word : List Char} {words : List (List Char)}

/-- A word that is not wrong may be passed over in the search for one that is. -/
theorem noneRefused_cons (h : ∀ cause, ¬ Says word (.refused cause)) :
    NoneRefused (word :: words) ↔ NoneRefused words := by
  simp only [NoneRefused, List.forall_mem_cons]
  exact and_iff_right h

/-- If the first word is wrong, then its cause is the one that counts. -/
theorem firstRefused_of_refused {cause cause' : ConfigError} (h : Says word (.refused cause)) :
    FirstRefused (word :: words) cause' ↔ cause' = cause := by
  constructor
  · rintro ⟨earlier, wrong, later, heq, hnone, hwrong⟩
    cases earlier with
    | nil =>
      cases heq
      exact Effect.refused.inj (hwrong.unique h)
    | cons first earlier =>
      cases heq
      exact absurd h (hnone word List.mem_cons_self cause)
  · rintro rfl
    exact ⟨[], word, words, rfl, fun _ h => (nomatch h), h⟩

/-- If the first word is not wrong, then the cause is that of a later word. -/
theorem firstRefused_cons {cause : ConfigError} (h : ∀ cause, ¬ Says word (.refused cause)) :
    FirstRefused (word :: words) cause ↔ FirstRefused words cause := by
  constructor
  · rintro ⟨earlier, wrong, later, heq, hnone, hwrong⟩
    cases earlier with
    | nil =>
      cases heq
      exact absurd hwrong (h cause)
    | cons first earlier =>
      cases heq
      exact ⟨earlier, wrong, later, rfl, (noneRefused_cons h).1 hnone, hwrong⟩
  · rintro ⟨earlier, wrong, later, rfl, hnone, hwrong⟩
    exact ⟨word :: earlier, wrong, later, rfl, (noneRefused_cons h).2 hnone, hwrong⟩

variable {α : Type} {chooses : List Char → α → Prop} {default chosen choice : α}

/-- Without words the default is chosen. -/
theorem lastChoice_nil : LastChoice [] chooses default chosen ↔ chosen = default := by
  simp [LastChoice]

/-- A word that does not choose does not matter. -/
theorem lastChoice_cons (h : ∀ choice, ¬ chooses word choice) :
    LastChoice (word :: words) chooses default chosen ↔ LastChoice words chooses default chosen := by
  constructor
  · rintro (⟨earlier, last, later, heq, hlast, hlater⟩ | ⟨rfl, hnone⟩)
    · cases earlier with
      | nil =>
        cases heq
        exact absurd hlast (h chosen)
      | cons first earlier =>
        cases heq
        exact .inl ⟨earlier, last, later, rfl, hlast, hlater⟩
    · exact .inr ⟨rfl, fun other hother => hnone other (List.mem_cons_of_mem _ hother)⟩
  · rintro (⟨earlier, last, later, rfl, hlast, hlater⟩ | ⟨rfl, hnone⟩)
    · exact .inl ⟨word :: earlier, last, later, rfl, hlast, hlater⟩
    · exact .inr ⟨rfl, List.forall_mem_cons.2 ⟨h, hnone⟩⟩

/-- What a word chooses is the default for the words behind it. -/
theorem lastChoice_cons_of_chooses (h : ∀ other, chooses word other ↔ other = choice) :
    LastChoice (word :: words) chooses default chosen ↔ LastChoice words chooses choice chosen := by
  constructor
  · rintro (⟨earlier, last, later, heq, hlast, hlater⟩ | ⟨-, hnone⟩)
    · cases earlier with
      | nil =>
        cases heq
        exact .inr ⟨(h chosen).1 hlast, hlater⟩
      | cons first earlier =>
        cases heq
        exact .inl ⟨earlier, last, later, rfl, hlast, hlater⟩
    · exact absurd ((h choice).2 rfl) (hnone word List.mem_cons_self choice)
  · rintro (⟨earlier, last, later, rfl, hlast, hlater⟩ | ⟨rfl, hnone⟩)
    · exact .inl ⟨word :: earlier, last, later, rfl, hlast, hlater⟩
    · exact .inl ⟨[], word, words, rfl, (h chosen).2 rfl, hnone⟩

end Words

namespace Config

/-- `chosen` has the last choices of the words, and is `config` where they choose nothing. -/
def LastChoices (words : List (List Char)) (config chosen : Config) : Prop :=
  LastChoice words ChoosesLimit config.poolLimit chosen.poolLimit ∧
    LastChoice words ChoosesStack config.maxStack chosen.maxStack ∧
    LastChoice words ChoosesPlacement config.placement chosen.placement

/-- Without words the configuration stays. -/
theorem lastChoices_nil {config chosen : Config} : LastChoices [] config chosen ↔ chosen = config := by
  cases chosen
  cases config
  simp only [LastChoices, lastChoice_nil, Config.mk.injEq]

/-- The first word is told from the words behind it by what it does. -/
theorem lastChoices_cons {word : List Char} {words : List (List Char)} {effect : Effect}
    (h : Says word effect) {config after chosen : Config} (hafter : effect.apply config = .ok after) :
    LastChoices (word :: words) config chosen ↔ LastChoices words after chosen := by
  have hmeans (other : Effect) : Says word other ↔ other = effect :=
    ⟨fun hother => hother.unique h, fun heq => heq ▸ h⟩
  cases effect with
  | nothing =>
    cases hafter
    exact and_congr (lastChoice_cons (by simp [ChoosesLimit, hmeans]))
      (and_congr (lastChoice_cons (by simp [ChoosesStack, hmeans]))
        (lastChoice_cons (by simp [ChoosesPlacement, hmeans])))
  | limit count =>
    cases hafter
    exact and_congr (lastChoice_cons_of_chooses (by simp [ChoosesLimit, hmeans]))
      (and_congr (lastChoice_cons (by simp [ChoosesStack, hmeans]))
        (lastChoice_cons (by simp [ChoosesPlacement, hmeans])))
  | stack size =>
    cases hafter
    exact and_congr (lastChoice_cons (by simp [ChoosesLimit, hmeans]))
      (and_congr (lastChoice_cons_of_chooses (by simp [ChoosesStack, hmeans]))
        (lastChoice_cons (by simp [ChoosesPlacement, hmeans])))
  | placed placement =>
    cases hafter
    exact and_congr (lastChoice_cons (by simp [ChoosesLimit, hmeans]))
      (and_congr (lastChoice_cons (by simp [ChoosesStack, hmeans]))
        (lastChoice_cons_of_chooses (by simp [ChoosesPlacement, hmeans])))
  | refused cause => cases hafter

/-- The words are refused for a cause exactly if it is that of the first wrong word. -/
theorem withWords_eq_error_iff (words : List (List Char)) (config : Config) (cause : ConfigError) :
    config.withWords words = .error cause ↔ FirstRefused words cause := by
  induction words generalizing config with
  | nil =>
    refine ⟨fun h => (nomatch h), ?_⟩
    rintro ⟨earlier, word, later, heq, -⟩
    exact absurd heq (by simp)
  | cons word words ih =>
    obtain ⟨effect, heffect⟩ := Says.exists_meaning word
    rw [withWords, withWord_eq_apply heffect]
    cases heq : effect.apply config with
    | error cause' =>
      cases effect <;> cases heq
      rw [firstRefused_of_refused heffect]
      exact ⟨fun h => (Except.error.inj h).symm, fun h => congrArg Except.error h.symm⟩
    | ok after =>
      have hnot : ∀ cause, ¬ Says word (.refused cause) := by
        intro cause hcause
        rw [heffect.unique hcause] at heq
        cases heq
      rw [firstRefused_cons hnot]
      exact ih after

/-- The words make a configuration exactly if none is wrong and it has their last choices. -/
theorem withWords_eq_ok_iff (words : List (List Char)) (config chosen : Config) :
    config.withWords words = .ok chosen ↔ NoneRefused words ∧ LastChoices words config chosen := by
  induction words generalizing config with
  | nil =>
    rw [lastChoices_nil]
    exact ⟨fun h => ⟨fun _ h => (nomatch h), (Except.ok.inj h).symm⟩,
      fun h => congrArg Except.ok h.2.symm⟩
  | cons word words ih =>
    obtain ⟨effect, heffect⟩ := Says.exists_meaning word
    rw [withWords, withWord_eq_apply heffect]
    cases heq : effect.apply config with
    | error cause =>
      cases effect <;> cases heq
      exact ⟨fun h => (nomatch h), fun h => absurd heffect (h.1 word List.mem_cons_self cause)⟩
    | ok after =>
      have hnot : ∀ cause, ¬ Says word (.refused cause) := by
        intro cause hcause
        rw [heffect.unique hcause] at heq
        cases heq
      rw [noneRefused_cons hnot, lastChoices_cons heffect heq]
      exact ih after

/-- What the words choose is in bounds if what they start from is. -/
theorem InBounds.lastChoices {words : List (List Char)} {config chosen : Config} (h : config.InBounds)
    (hchosen : LastChoices words config chosen) : chosen.InBounds := by
  obtain ⟨hlimit, hstack, -⟩ := hchosen
  refine ⟨fun limit heq => ?_, ?_⟩
  · rcases hlimit with ⟨-, word, -, -, ⟨count, hcount, hmeans⟩, -⟩ | ⟨hdefault, -⟩
    · cases hcount.symm.trans heq
      cases hmeans with
      | limit _ hcount hpos => exact ⟨Nat.one_le_iff_ne_zero.2 hpos, hcount.2⟩
    · exact h.limit limit (hdefault ▸ heq)
  · rcases hstack with ⟨-, word, -, -, hmeans, -⟩ | ⟨hdefault, -⟩
    · cases hmeans with
      | stack _ _ hlow hhigh => exact ⟨hlow, hhigh⟩
    · exact hdefault ▸ h.stack

/-- What is chosen if nothing is said is in bounds. -/
theorem inBounds_default : InBounds {} := ⟨fun _ h => (nomatch h), by decide, by decide⟩

end Config

/-- A name is never cut apart, since no character of it is white. -/
theorem IsNameChar.not_isWhite {c : Char} (h : IsNameChar c) : ¬ Blank.IsWhite c := by
  simp only [IsNameChar, Char.le_def, UInt32.le_iff_toNat_le] at h
  simp only [Blank.IsWhite, Blank.codePoints, List.mem_cons, List.not_mem_nil, or_false]
  have hval : c.toNat = c.val.toNat := rfl
  rcases h with h | h | h | rfl
  · have : 'a'.val.toNat = 97 ∧ 'z'.val.toNat = 122 := ⟨rfl, rfl⟩
    omega
  · have : 'A'.val.toNat = 65 ∧ 'Z'.val.toNat = 90 := ⟨rfl, rfl⟩
    omega
  · have : '0'.val.toNat = 48 ∧ '9'.val.toNat = 57 := ⟨rfl, rfl⟩
    omega
  · decide

/-- Digits may stand in a name. -/
theorem isNameChar_of_isDigit {c : Char} (h : c.isDigit = true) : IsNameChar c := by
  rw [← isNameChar_iff, OptionWord.isNameChar, Char.isAlphanum, h]
  simp

/-- An option of name characters is a word. -/
theorem not_isWhite_of_mem_option {name text : List Char} (hname : ∀ c ∈ name, IsNameChar c)
    (htext : ∀ c ∈ text, IsNameChar c) : ∀ c ∈ '-' :: (name ++ '=' :: text), ¬ Blank.IsWhite c := by
  intro c hc
  simp only [List.mem_cons, List.mem_append] at hc
  rcases hc with rfl | hc | rfl | hc
  · exact (Blank.isBlank_eq_false_iff _).1 rfl
  · exact (hname c hc).not_isWhite
  · exact (Blank.isBlank_eq_false_iff _).1 rfl
  · exact (htext c hc).not_isWhite

/-- Words with a space between each two are cut apart again. -/
theorem Blank.cut_intercalate {words : List (List Char)} (hne : ∀ word ∈ words, word ≠ [])
    (hsolid : ∀ word ∈ words, ∀ c ∈ word, ¬ IsWhite c) : Cut ([' '].intercalate words) words := by
  have hspace : IsWhite ' ' := (isBlank_iff ' ').1 rfl
  induction words with
  | nil => exact .blank fun _ h => (nomatch h)
  | cons word words ih =>
    have hrest := ih (fun other h => hne other (List.mem_cons_of_mem _ h))
      (fun other h => hsolid other (List.mem_cons_of_mem _ h))
    have hfirst {rest : List Char} (hend : ∀ c, rest.head? = some c → IsWhite c)
        (hcut : Cut rest words) : Cut (word ++ rest) (word :: words) := by
      have hgap : ∀ c ∈ ([] : List Char), IsWhite c := fun _ h => (nomatch h)
      simpa using Cut.word hgap (hne word List.mem_cons_self) (hsolid word List.mem_cons_self) hend hcut
    cases words with
    | nil =>
      have hend : ∀ c, ([] : List Char).head? = some c → IsWhite c := fun _ h => (nomatch h)
      simpa using hfirst hend hrest
    | cons next words =>
      rw [List.intercalate_cons_cons, List.append_assoc]
      refine hfirst ?_ (hrest.cons_blank hspace)
      rintro c ⟨⟩
      exact hspace

/-- The digits of a number are a numeral for it. -/
theorem decimal_toDigits (n : Nat) : Decimal (Nat.toDigits 10 n) n := by
  induction n using Nat.strongRecOn with
  | ind n ih =>
    by_cases hn : n < 10
    · rw [Nat.toDigits_of_lt_base hn]
      exact .digit hn
    · rw [Nat.toDigits_of_base_le (by decide) (by omega)]
      have := Decimal.snoc (ih (n / 10) (by omega)) (Nat.mod_lt n (by decide : 0 < 10))
      rwa [Nat.div_add_mod] at this

namespace Config

variable {config : Config}

/-- The characters of an option that is written out. -/
theorem toList_optionText (name value : String) :
    (optionText name value).toList = '-' :: (name.toList ++ '=' :: value.toList) := by
  simp [optionText, String.toList_append]

/-- A number is written without white characters. -/
theorem isNameChar_of_mem_numberValue (n : Nat) : ∀ c ∈ (numberValue n).toList, IsNameChar c := by
  intro c hc
  rw [numberValue, String.toList_ofList] at hc
  exact isNameChar_of_isDigit (Nat.isDigit_of_mem_toDigits (by decide) (by decide) hc)

/-- A placement is written without white characters. -/
theorem isNameChar_of_mem_placementValue (placement : Placement) :
    ∀ c ∈ (placementValue placement).toList, IsNameChar c := by
  have : (placementValue placement).toList.all OptionWord.isNameChar = true := by
    cases placement <;> rfl
  exact fun c hc => (isNameChar_iff c).1 (List.all_eq_true.1 this c hc)

/-- The names of our options are names. -/
theorem isNameChar_of_mem_optionNames {name : List Char} (h : name ∈ optionNames) :
    ∀ c ∈ name, IsNameChar c := by
  have : optionNames.all (fun name => name.all OptionWord.isNameChar) = true := rfl
  exact fun c hc => (isNameChar_iff c).1 (List.all_eq_true.1 (List.all_eq_true.1 this name h) c hc)

/-- Every option of a configuration has a name of ours and a value without white characters. -/
theorem exists_of_mem_options {option : String} (h : option ∈ config.options) :
    ∃ name value, option = optionText name value ∧ name.toList ∈ optionNames ∧
      ∀ c ∈ value.toList, IsNameChar c := by
  simp only [options, List.mem_append, List.mem_map, List.mem_cons, List.not_mem_nil, or_false] at h
  rcases h with ⟨limit, -, rfl⟩ | rfl | rfl
  · exact ⟨_, _, rfl, by simp [optionNames], isNameChar_of_mem_numberValue limit⟩
  · exact ⟨_, _, rfl, by simp [optionNames], isNameChar_of_mem_numberValue config.maxStack⟩
  · exact ⟨_, _, rfl, by simp [optionNames], isNameChar_of_mem_placementValue config.placement⟩

/-- The options of a configuration are the words of its line. -/
theorem words_render (config : Config) :
    Blank.words config.render.toList = config.options.map String.toList := by
  rw [render, String.toList_intercalate]
  refine (Blank.cut_intercalate ?_ ?_).eq_words.symm
  all_goals
    intro word hword
    obtain ⟨option, hoption, rfl⟩ := List.mem_map.1 hword
    obtain ⟨name, value, rfl, hname, hvalue⟩ := exists_of_mem_options hoption
    rw [toList_optionText]
  · exact List.cons_ne_nil _ _
  · exact not_isWhite_of_mem_option (isNameChar_of_mem_optionNames hname) hvalue

/-- What is written as one of our options is read as one. -/
theorem isOption_optionText {name value : String} (h : name.toList ∈ optionNames) :
    IsOption (optionText name value).toList name.toList (some value.toList) := by
  rw [toList_optionText]
  refine .valued value.toList ?_ (isNameChar_of_mem_optionNames h)
  rintro hnil
  rw [hnil] at h
  exact absurd h (by decide)

/-- A cap in bounds is written as the word that says it. -/
theorem says_limit {limit : Nat} (hpos : 1 ≤ limit) (hlt : limit < wordLimit) :
    Says (optionText "ul" (numberValue limit)).toList (.limit limit) := by
  refine .limit (isOption_optionText (by simp [optionNames])) ⟨?_, hlt⟩ (by omega)
  rw [numberValue, String.toList_ofList]
  exact decimal_toDigits limit

/-- A stack limit in bounds is written as the word that says it. -/
theorem says_stack {size : Nat} (hlow : pageSize ≤ size) (hhigh : size < kernelBase) :
    Says (optionText "stack" (numberValue size)).toList (.stack size) := by
  refine .stack (isOption_optionText (by simp [optionNames])) ?_ hlow hhigh
  refine ⟨_, [], size, 1, (List.append_nil _).symm, ?_, .none, (Nat.mul_one size).symm,
    Nat.lt_trans hhigh (by decide)⟩
  rw [numberValue, String.toList_ofList]
  exact decimal_toDigits size

/-- A placement is written as the word that says it. -/
theorem says_placement (placement : Placement) :
    Says (optionText "placement" (placementValue placement)).toList (.placed placement) := by
  have h : IsOption (optionText "placement" (placementValue placement)).toList "placement".toList
      (some (placementValue placement).toList) := isOption_optionText (by simp [optionNames])
  cases placement with
  | nextFit => exact .nextFit h
  | firstFit => exact .firstFit h

/-- The words behind the first one start from what it makes of the configuration. -/
theorem withWords_cons {word : List Char} {effect : Effect} (h : Says word effect)
    {config after : Config} (hafter : effect.apply config = .ok after) (words : List (List Char)) :
    config.withWords (word :: words) = after.withWords words := by
  rw [withWords, withWord_eq_apply h, hafter]

/-- The options that write a configuration choose it. -/
theorem withWords_options (h : config.InBounds) :
    withWords {} (config.options.map String.toList) = .ok config := by
  obtain ⟨poolLimit, maxStack, placement⟩ := config
  have hstack := says_stack h.stack.1 h.stack.2
  have hplacement := says_placement placement
  cases poolLimit with
  | none =>
    simp only [options, Option.toList_none, List.map_nil, List.nil_append, List.map_cons]
    rw [withWords_cons hstack rfl, withWords_cons hplacement rfl]
    rfl
  | some limit =>
    have hlimit := says_limit (h.limit limit rfl).1 (h.limit limit rfl).2
    simp only [options, Option.toList_some, List.map_nil, List.map_cons, List.cons_append,
      List.nil_append]
    rw [withWords_cons hlimit rfl, withWords_cons hstack rfl,
      withWords_cons hplacement rfl]
    rfl

/-- What a line makes of its words. -/
structure Follows (line : String) (words : List (List Char)) : Prop where
  /-- The words are cut at white space. -/
  cut : ∀ cut, Blank.Cut line.toList cut ↔ cut = words
  /-- Each word means one thing. -/
  meaning : ∀ word ∈ words, ∃! effect, Says word effect
  /-- The first word that is wrong is why a line is refused. -/
  refused : ∀ cause, parse line = .error cause ↔ FirstRefused words cause
  /-- Otherwise the last choice counts, and the default if there is none. -/
  chosen : ∀ config, parse line = .ok config ↔
    NoneRefused words ∧ LastChoice words ChoosesLimit none config.poolLimit ∧
      LastChoice words ChoosesStack defaultStackLimit config.maxStack ∧
      LastChoice words ChoosesPlacement .nextFit config.placement

/-- Reading follows the grammar, gives only configurations in bounds, and gives each of them back from
the options that write it. -/
theorem parse_follows_grammar (line : String) :
    (∃ words, Follows line words) ∧ (∀ config, parse line = .ok config → config.InBounds) ∧
      ∀ config : Config, config.InBounds → parse config.render = .ok config := by
  refine ⟨⟨Blank.words line.toList, Blank.cut_iff line.toList, fun word _ => ?_,
    withWords_eq_error_iff _ _, withWords_eq_ok_iff _ _⟩, fun config hconfig => ?_, fun config h => ?_⟩
  · obtain ⟨effect, heffect⟩ := Says.exists_meaning word
    exact ⟨effect, heffect, fun other hother => hother.unique heffect⟩
  · exact inBounds_default.lastChoices ((withWords_eq_ok_iff _ _ _).1 hconfig).2
  · rw [parse, words_render]
    exact withWords_options h

end Config

end DemandPaging
