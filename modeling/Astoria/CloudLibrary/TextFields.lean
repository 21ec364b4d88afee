import Astoria.BgpSim.InputFileReader
import Mathlib.Data.List.Infix

/-!
# Fields of text lines

What the transport formats are made of: lines of fields, each followed by a blank, and the texts of
numbers and truth values with the parsers that read them.  A parser yields `none` where the one of
the source throws an exception.
-/

namespace Astoria

open List

/-! ### Lines -/

/-- The fields of a line: `Split` at blanks, without empty entries. -/
def pieces (line : List Char) : List (List Char) := (line.splitOn ' ').filter (· ≠ [])

/-- Fields, each followed by a blank. -/
def fieldsText (fields : List (List Char)) : List Char := fields.flatMap fun field => field ++ [' ']

/-- A text that is a field: not empty and without blanks. -/
def IsField (text : List Char) : Prop := text ≠ [] ∧ ' ' ∉ text

lemma pieces_of_isField {text : List Char} (h : IsField text) : pieces text = [text] := by
  rw [pieces, splitOn_eq_singleton h.2, filter_cons_of_pos (by simpa using h.1),
    filter_nil]

lemma pieces_fieldsText_append {fields : List (List Char)} (h : ∀ field ∈ fields, IsField field)
    (rest : List Char) : pieces (fieldsText fields ++ rest) = fields ++ pieces rest := by
  induction fields with
  | nil => rfl
  | cons field fields ih =>
    obtain ⟨hne, hblank⟩ := h field mem_cons_self
    have hcons : fieldsText (field :: fields) ++ rest =
        field ++ ' ' :: (fieldsText fields ++ rest) := by
      simp [fieldsText]
    have htail := ih fun field' hf => h field' (mem_cons_of_mem field hf)
    rw [pieces] at htail ⊢
    rw [hcons, splitOn_append_cons_self_of_not_mem hblank,
      filter_cons_of_pos (by simpa using hne), htail, cons_append]

lemma pieces_fieldsText {fields : List (List Char)} (h : ∀ field ∈ fields, IsField field) :
    pieces (fieldsText fields) = fields := by
  have hnil : pieces [] = [] := by decide
  have := pieces_fieldsText_append h []
  rwa [hnil, append_nil, append_nil] at this

lemma map_toLower_eq_self {text : List Char} (h : ∀ c ∈ text, c.toLower = c) :
    text.map Char.toLower = text := by
  rw [map_congr_left h, List.map_id']

/-! ### Numbers -/

/-- The parsers of the integer types: optional white space, an optional sign, at least one decimal
digit and optional white space, within the range of the type.  Null characters at the end are
ignored. -/
def parseInteger (min max : ℤ) (text : List Char) : Option ℤ :=
  let signed := splitSign (text.dropWhile isWhite)
  let digits := signed.2.takeWhile Char.isDigit
  let rest := (signed.2.dropWhile Char.isDigit).dropWhile isWhite
  let value : ℤ := if signed.1 then -(digitsValue digits) else digitsValue digits
  if digits = [] ∨ rest.any (· ≠ '\x00') then none
  else if min ≤ value ∧ value ≤ max then some value
  else none

/-- `int.Parse`. -/
def parseInt32 (text : List Char) : Option ℤ := parseInteger (-2 ^ 31) (2 ^ 31 - 1) text

/-- `byte.Parse`. -/
def parseByte (text : List Char) : Option UInt8 :=
  (parseInteger 0 (2 ^ 8 - 1) text).map fun x => UInt8.ofNat x.toNat

/-- `UInt16.Parse`. -/
def parseUInt16 (text : List Char) : Option UInt16 :=
  (parseInteger 0 (2 ^ 16 - 1) text).map fun x => UInt16.ofNat x.toNat

/-- `UInt32.Parse`. -/
def parseUInt32 (text : List Char) : Option UInt32 := (tryParseUInt32 text).map UInt32.ofNat

lemma isField_toDigits (n : ℕ) : IsField (Nat.toDigits 10 n) :=
  ⟨Nat.toDigits_ne_nil, fun h => absurd (isDigit_of_mem_toDigits h) (by decide)⟩

lemma isField_intText (x : ℤ) : IsField (intText x) := by
  obtain ⟨hne, hblank⟩ := isField_toDigits x.natAbs
  unfold intText
  split_ifs
  · exact ⟨cons_ne_nil _ _, by simpa using hblank⟩
  · exact ⟨hne, hblank⟩

/-- Digits are not changed by `ToLower`. -/
lemma toLower_of_isDigit {c : Char} (h : c.isDigit = true) : c.toLower = c := by
  have hc : c.toNat ≤ 57 := by
    have : 48 ≤ c.toNat ∧ c.toNat ≤ 57 := by
      simpa [Char.isDigit, UInt32.le_iff_toNat_le] using h
    exact this.2
  unfold Char.toLower
  rw [dif_neg]
  rintro ⟨h₁, -⟩
  have : 65 ≤ c.toNat := by simpa [UInt32.le_iff_toNat_le] using h₁
  omega

/-- An integer is read if it is in the range of the type, and then as it was written. -/
lemma parseInteger_intText (min max x : ℤ) :
    parseInteger min max (intText x) = if min ≤ x ∧ x ≤ max then some x else none := by
  have hdigits : ∀ c ∈ Nat.toDigits 10 x.natAbs, c.isDigit = true :=
    fun c hc => isDigit_of_mem_toDigits hc
  have hdrop : (intText x).dropWhile isWhite = intText x := by
    unfold intText
    split_ifs
    · rfl
    · exact dropWhile_isWhite_of_isDigit hdigits
  have hsign : splitSign (intText x) = (decide (x < 0), Nat.toDigits 10 x.natAbs) := by
    unfold intText
    split_ifs with hneg
    · rw [splitSign, decide_eq_true hneg]
    · rw [splitSign_of_isDigit hdigits, decide_eq_false hneg]
  have hvalue : (if decide (x < 0) = true then -((x.natAbs : ℕ) : ℤ) else ((x.natAbs : ℕ) : ℤ)) =
      x := by
    simp only [decide_eq_true_eq]
    split_ifs <;> omega
  unfold parseInteger
  simp only [hdrop, hsign, takeWhile_eq_self_iff.mpr hdigits,
    dropWhile_eq_nil_iff.mpr hdigits, digitsValue_toDigits, dropWhile_nil, any_nil,
    Nat.toDigits_ne_nil, Bool.false_eq_true, or_self, if_false, hvalue]

lemma parseInt32_intText (x : ℤ) :
    parseInt32 (intText x) = if -2 ^ 31 ≤ x ∧ x ≤ 2 ^ 31 - 1 then some x else none :=
  parseInteger_intText _ _ x

lemma parseByte_toDigits (b : UInt8) : parseByte (Nat.toDigits 10 b.toNat) = some b := by
  have hlt := b.toNat_lt
  rw [parseByte, ← intText_natCast, parseInteger_intText, if_pos (by omega), Option.map_some,
    Int.toNat_natCast, UInt8.ofNat_toNat]

lemma parseUInt16_toDigits (x : UInt16) : parseUInt16 (Nat.toDigits 10 x.toNat) = some x := by
  have hlt := x.toNat_lt
  rw [parseUInt16, ← intText_natCast, parseInteger_intText, if_pos (by omega), Option.map_some,
    Int.toNat_natCast, UInt16.ofNat_toNat]

lemma parseUInt32_toDigits (x : UInt32) : parseUInt32 (Nat.toDigits 10 x.toNat) = some x := by
  rw [parseUInt32, tryParseUInt32_toDigits x.toNat_lt, Option.map_some, UInt32.ofNat_toNat]

/-! ### Section headers -/

/-- A length or an index; negative numbers throw where they are used. -/
def parseIndex (text : List Char) : Option ℕ :=
  (parseInt32 text).bind fun x => if x < 0 then none else some x.toNat

lemma parseIndex_toDigits (n : ℕ) :
    parseIndex (Nat.toDigits 10 n) = if n < 2 ^ 31 then some n else none := by
  rw [parseIndex, ← intText_natCast, parseInt32_intText]
  split_ifs with h₁ h₂ h₂
  · rw [Option.bind_some, if_neg (by omega), Int.toNat_natCast]
  · omega
  · omega
  · rfl

/-- The line that starts a section: its name and numbers. -/
def headerText (name : List Char) (numbers : List ℕ) : List Char :=
  name ++ numbers.flatMap fun n => ' ' :: Nat.toDigits 10 n

lemma pieces_headerText {name : List Char} (h : IsField name) (numbers : List ℕ) :
    pieces (headerText name numbers) = name :: numbers.map (Nat.toDigits 10) := by
  induction numbers generalizing name with
  | nil =>
    rw [headerText, flatMap_nil, append_nil]
    exact pieces_of_isField h
  | cons n numbers ih =>
    have htail := ih (isField_toDigits n)
    have hcons : headerText name (n :: numbers) =
        name ++ ' ' :: headerText (Nat.toDigits 10 n) numbers := by
      simp [headerText]
    rw [pieces] at htail ⊢
    rw [hcons, splitOn_append_cons_self_of_not_mem h.2,
      filter_cons_of_pos (by simpa using h.1), htail, map_cons]

/-- `ToLower` changes the name only. -/
lemma map_toLower_headerText (name : List Char) (numbers : List ℕ) :
    (headerText name numbers).map Char.toLower = headerText (name.map Char.toLower) numbers := by
  rw [headerText, map_append, headerText]
  congr 1
  apply map_toLower_eq_self
  intro c hc
  obtain ⟨n, -, hc⟩ := mem_flatMap.mp hc
  rcases mem_cons.mp hc with rfl | hc
  · decide
  · exact toLower_of_isDigit (isDigit_of_mem_toDigits hc)

/-- Whether a word occurs in a line (`IndexOf` is not negative). -/
def contains (line word : List Char) : Bool := line.tails.any word.isPrefixOf

lemma contains_iff {line word : List Char} : contains line word = true ↔ word <:+: line := by
  simp only [contains, List.any_eq_true, mem_tails, List.isPrefixOf_iff_prefix,
    infix_iff_prefix_suffix, and_comm]

lemma contains_headerText_self (name word : List Char) (numbers : List ℕ)
    (h : word.isSuffixOf name = true) : contains (headerText name numbers) word = true := by
  rw [contains_iff]
  exact (isSuffixOf_iff_suffix.mp h).isInfix.trans (prefix_append _ _).isInfix

/-- A word with a letter that the name does not have is not found in the header. -/
lemma not_contains_headerText (name word : List Char) (numbers : List ℕ)
    (h : (word.any fun c => !name.elem c && !c.isDigit && c != ' ') = true) :
    ¬ contains (headerText name numbers) word = true := by
  obtain ⟨c, hc, h⟩ := List.any_eq_true.mp h
  obtain ⟨⟨hname, hdigit⟩, hblank⟩ : (c ∉ name ∧ c.isDigit = false) ∧ c ≠ ' ' := by simpa using h
  rw [contains_iff]
  intro h
  have hmem := h.subset hc
  rw [headerText, mem_append, mem_flatMap] at hmem
  rcases hmem with hmem | ⟨n, -, hmem⟩
  · exact hname hmem
  · rcases mem_cons.mp hmem with rfl | hmem
    · exact hblank rfl
    · rw [isDigit_of_mem_toDigits hmem] at hdigit
      exact absurd hdigit (by decide)

/-- `ToLower` changes the fields of a line one by one. -/
lemma map_toLower_fieldsText (fields : List (List Char)) :
    (fieldsText fields).map Char.toLower = fieldsText (fields.map (List.map Char.toLower)) := by
  induction fields with
  | nil => rfl
  | cons field fields ih =>
    have hblank : Char.toLower ' ' = ' ' := by decide
    simp only [fieldsText, flatMap_cons, map_append, map_cons, map_nil, hblank]
      at ih ⊢
    rw [ih]

lemma map_toLower_numbers (numbers : List ℕ) :
    (fieldsText (numbers.map (Nat.toDigits 10))).map Char.toLower =
      fieldsText (numbers.map (Nat.toDigits 10)) := by
  rw [map_toLower_fieldsText, List.map_map]
  congr 1
  apply map_congr_left
  intro n _
  exact map_toLower_eq_self fun c hc => toLower_of_isDigit (isDigit_of_mem_toDigits hc)

lemma pieces_fieldsText_numbers (numbers : List ℕ) :
    pieces (fieldsText (numbers.map (Nat.toDigits 10))) = numbers.map (Nat.toDigits 10) := by
  apply pieces_fieldsText
  intro field hfield
  obtain ⟨n, -, rfl⟩ := List.mem_map.mp hfield
  exact isField_toDigits n

/-- A line of numbers starts with a digit. -/
lemma exists_fieldsText_cons (n : ℕ) (numbers : List ℕ) :
    ∃ c cs, fieldsText ((n :: numbers).map (Nat.toDigits 10)) = c :: cs ∧ c ≠ '#' := by
  obtain ⟨c, cs, hcs⟩ := exists_cons_of_ne_nil (@Nat.toDigits_ne_nil n 10)
  refine ⟨c, cs ++ ' ' :: fieldsText (numbers.map (Nat.toDigits 10)), ?_, ?_⟩
  · simp [fieldsText, hcs]
  · rintro rfl
    have hmem : '#' ∈ Nat.toDigits 10 n := by
      rw [hcs]
      exact mem_cons_self
    exact absurd (isDigit_of_mem_toDigits hmem) (by decide)

/-! ### Truth values -/

/-- The characters that are removed at both ends of a truth value. -/
def isTrimmed (c : Char) : Bool := isWhite c || c = '\x00'

/-- `bool.Parse`, which does not distinguish capital letters. -/
def parseBool (text : List Char) : Option Bool :=
  let trimmed := (((text.dropWhile isTrimmed).reverse.dropWhile isTrimmed).reverse).map Char.toLower
  if trimmed = "true".toList then some true
  else if trimmed = "false".toList then some false
  else none

/-- The text of a truth value. -/
def boolText (b : Bool) : List Char := if b then "True".toList else "False".toList

lemma parseBool_boolText (b : Bool) : parseBool ((boolText b).map Char.toLower) = some b := by
  cases b <;> decide

lemma isField_boolText (b : Bool) : IsField ((boolText b).map Char.toLower) := by
  cases b <;> exact ⟨by decide, by decide⟩

end Astoria
