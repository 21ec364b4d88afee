import Astoria.CloudLibrary.TextFields
import Astoria.Library.Runs

/-!
# The transport formats

The values that travel between the machines of a simulation are written to text and read back: the
utilities for a destination, the state of the deployment process and, in a module of their own, the
tables of a destination.  The values are modelled as they are in memory, with arrays as lists and
null references as `none`, and a text as the list of its lines.  Writers and readers yield `none`
where the source throws.

Utilities are read as 32-bit numbers, and a line without fields is an exception for the reader of
sections.
-/

namespace Astoria

open List Option

/-! ### Utilities -/

/-- The utilities of all ASes for a destination, as they are in memory. -/
structure MessageArrays where
  /-- The current utilities. -/
  UBefore : Option (List Int64)
  /-- The changed utilities. -/
  UAfter : Option (List Int64)

/-- Write the utilities, one line for each array. -/
def messageToBlob (m : MessageArrays) : Option (List (List Char)) := do
  let before ← m.UBefore
  let after ← m.UAfter
  return [fieldsText (before.map fun u => intText u.toInt),
    fieldsText (after.map fun u => intText u.toInt)]

def readUtilities (line : List Char) : Option (List Int64) :=
  ((pieces line).mapM parseInt32).map fun us => us.map Int64.ofInt

/-- Read the utilities. -/
def messageFromBlob (lines : List (List Char)) : Option MessageArrays :=
  match lines with
  | before :: after :: _ => do
    let UBefore ← readUtilities before
    let UAfter ← readUtilities after
    return ⟨some UBefore, some UAfter⟩
  | _ => none

/-- A utility fits in 32 bits. -/
def Fits32 (u : Int64) : Prop := -2 ^ 31 ≤ u.toInt ∧ u.toInt ≤ 2 ^ 31 - 1

/-- An array of utilities is read back if all fit in 32 bits, and otherwise not at all. -/
lemma readUtilities_fieldsText (us : List Int64) :
    readUtilities (fieldsText (us.map fun u => intText u.toInt)) = some us ∧ (∀ u ∈ us, Fits32 u) ∨
    readUtilities (fieldsText (us.map fun u => intText u.toInt)) = none ∧ ¬ ∀ u ∈ us, Fits32 u := by
  have hpieces : pieces (fieldsText (us.map fun u => intText u.toInt)) =
      us.map fun u => intText u.toInt := by
    apply pieces_fieldsText
    intro field hfield
    obtain ⟨u, -, rfl⟩ := List.mem_map.mp hfield
    exact isField_intText u.toInt
  rw [readUtilities, hpieces]
  by_cases hfit : ∀ u ∈ us, Fits32 u
  · left
    refine ⟨?_, hfit⟩
    have hparse : (us.map fun u => intText u.toInt).mapM parseInt32 =
        some (us.map fun u => u.toInt) := by
      rw [mapM_map]
      apply Runs.mapM_eq_some_map
      intro u hu
      exact (parseInt32_intText u.toInt).trans (if_pos (hfit u hu))
    have hback : us.map (Int64.ofInt ∘ fun u => u.toInt) = us := by
      refine (map_congr_left fun u _ => ?_).trans (List.map_id us)
      exact Int64.ofInt_toInt u
    rw [hparse, map_some, List.map_map, hback]
  · right
    refine ⟨?_, hfit⟩
    cases hparse : (us.map fun u => intText u.toInt).mapM parseInt32 with
    | none => rfl
    | some xs =>
      refine absurd (fun u hu => ?_) hfit
      obtain ⟨x, hx⟩ := Runs.exists_of_mapM_eq_some hparse (List.mem_map_of_mem hu)
      rw [parseInt32_intText] at hx
      by_contra hout
      rw [if_neg (show ¬ (-2 ^ 31 ≤ u.toInt ∧ u.toInt ≤ 2 ^ 31 - 1) from hout)] at hx
      cases hx

/-- Utilities are read back if they are there and fit in 32 bits. -/
lemma messageFromBlob_messageToBlob (m : MessageArrays) :
    (messageToBlob m).bind messageFromBlob = some m ↔
      ∃ before after, m = ⟨some before, some after⟩ ∧ (∀ u ∈ before, Fits32 u) ∧
        ∀ u ∈ after, Fits32 u := by
  constructor
  · intro h
    obtain ⟨lines, hlines, hread⟩ := bind_eq_some_iff.mp h
    obtain ⟨before, hbefore, hlines⟩ := bind_eq_some_iff.mp hlines
    obtain ⟨after, hafter, hlines⟩ := bind_eq_some_iff.mp hlines
    obtain rfl := Option.some.inj hlines
    obtain ⟨us, hus, hread⟩ := bind_eq_some_iff.mp hread
    obtain ⟨vs, hvs, -⟩ := bind_eq_some_iff.mp hread
    refine ⟨before, after, ?_, ?_, ?_⟩
    · rw [← hbefore, ← hafter]
    · rcases readUtilities_fieldsText before with ⟨-, hfit⟩ | ⟨hnone, -⟩
      · exact hfit
      · rw [hnone] at hus
        cases hus
    · rcases readUtilities_fieldsText after with ⟨-, hfit⟩ | ⟨hnone, -⟩
      · exact hfit
      · rw [hnone] at hvs
        cases hvs
  · rintro ⟨before, after, rfl, hbefore, hafter⟩
    have hb := (readUtilities_fieldsText before).resolve_right fun h => h.2 hbefore
    have ha := (readUtilities_fieldsText after).resolve_right fun h => h.2 hafter
    simp only [messageToBlob, messageFromBlob, bind_eq_bind, bind_some,
      Option.pure_def, hb.1, ha.1]

/-! ### Texts in sections -/

section Sections

variable {σ : Type*} {header : List Char → σ → Option σ} {fields : List (List Char) → σ → Option σ}

/-- A line of a text in sections: in small letters, a header if it starts with a hash mark,
otherwise fields.  An empty line has no first character. -/
def readSectionLine (header : List Char → σ → Option σ) (fields : List (List Char) → σ → Option σ)
    (s : σ) (text : List Char) : Option σ :=
  match text.map Char.toLower with
  | [] => none
  | c :: line => if c = '#' then header (c :: line) s else fields (pieces (c :: line)) s

lemma readSectionLine_headerText (s : σ) (name : List Char) (numbers : List ℕ) :
    readSectionLine header fields s (headerText ('#' :: name) numbers) =
      header (headerText ('#' :: name.map Char.toLower) numbers) s := by
  rw [readSectionLine, map_toLower_headerText, map_cons]
  exact if_pos rfl

lemma readSectionLine_numbers (s : σ) (n : ℕ) (numbers : List ℕ) :
    readSectionLine header fields s (fieldsText ((n :: numbers).map (Nat.toDigits 10))) =
      fields ((n :: numbers).map (Nat.toDigits 10)) s := by
  obtain ⟨c, cs, hcs, hc⟩ := exists_fieldsText_cons n numbers
  rw [readSectionLine, map_toLower_numbers, hcs]
  dsimp only
  rw [if_neg hc, ← hcs, pieces_fieldsText_numbers]

/-- A line of values of an integer type. -/
lemma readSectionLine_toNat {α : Type*} (toNat : α → ℕ) (s : σ) {values : List α}
    (h : values ≠ []) :
    readSectionLine header fields s (fieldsText (values.map fun v => Nat.toDigits 10 (toNat v))) =
      fields (values.map fun v => Nat.toDigits 10 (toNat v)) s := by
  obtain ⟨v, vs, rfl⟩ := exists_cons_of_ne_nil h
  have hmap : ((v :: vs).map fun v => Nat.toDigits 10 (toNat v)) =
      (toNat v :: vs.map toNat).map (Nat.toDigits 10) := by
    rw [← map_cons, List.map_map]
    rfl
  rw [hmap]
  exact readSectionLine_numbers s (toNat v) (vs.map toNat)

lemma readSectionLine_bools (s : σ) (b : Bool) (bs : List Bool) :
    readSectionLine header fields s (fieldsText ((b :: bs).map boolText)) =
      fields ((b :: bs).map fun b => (boolText b).map Char.toLower) s := by
  have hfields : ∀ field ∈ (b :: bs).map fun b => (boolText b).map Char.toLower, IsField field := by
    intro field hfield
    obtain ⟨b', -, rfl⟩ := List.mem_map.mp hfield
    exact isField_boolText b'
  obtain ⟨c, cs, hcs, hc⟩ :
      ∃ c cs, fieldsText ((b :: bs).map fun b => (boolText b).map Char.toLower) = c :: cs ∧
      c ≠ '#' := by
    cases b
    · exact ⟨'f', _, rfl, by decide⟩
    · exact ⟨'t', _, rfl, by decide⟩
  rw [readSectionLine, map_toLower_fieldsText, List.map_map]
  change (match fieldsText ((b :: bs).map fun b => (boolText b).map Char.toLower) with
    | [] => none
    | c :: line => if c = '#' then header (c :: line) s else fields (pieces (c :: line)) s) = _
  rw [hcs]
  dsimp only
  rw [if_neg hc, ← hcs, pieces_fieldsText hfields]

/-- An array of the given length takes the values of a line, from its beginning. -/
def fill {α : Type*} (array values : List α) : Option (List α) :=
  if values.length ≤ array.length then some (values ++ array.drop values.length) else none

lemma fill_replicate {α : Type*} (a : α) (values : List α) :
    fill (replicate values.length a) values = some values := by
  simp [fill]

/-- A section of two lines is read if its header is accepted and the line of values is not empty. -/
lemma foldlM_section {α : Type*} {values : List α} {p : Prop} [Decidable p] {s s₁ s₂ : σ}
    {first line : List Char}
    (hfirst : readSectionLine header fields s first = if p then some s₁ else none)
    (hempty : values = [] → line = [])
    (hline : values ≠ [] → readSectionLine header fields s₁ line = some s₂) :
    [first, line].foldlM (readSectionLine header fields) s =
      if values ≠ [] ∧ p then some s₂ else none := by
  rw [foldlM_cons, hfirst]
  by_cases hp : p
  · rw [if_pos hp, bind_eq_bind, bind_some, foldlM_cons]
    by_cases hne : values ≠ []
    · rw [if_pos ⟨hne, hp⟩, hline hne]
      rfl
    · rw [if_neg fun h => hne h.1, hempty (not_not.mp hne)]
      rfl
  · rw [if_neg hp, if_neg fun h => hp h.2]
    rfl

def headerLength (line : List Char) : Option ℕ := (pieces line)[1]?.bind parseIndex

lemma headerLength_headerText {name : List Char} (h : IsField name) (n : ℕ) :
    headerLength (headerText name [n]) = if n < 2 ^ 31 then some n else none := by
  rw [headerLength, pieces_headerText h]
  exact parseIndex_toDigits n

end Sections

/-! ### The state of the deployment process -/

/-- The state of the deployment process, as it is in memory. -/
structure GlobalStateArrays where
  /-- The deployment vector. -/
  S : Option (List Bool)
  W : Option (List UInt16)
  /-- The ASes that are providers. -/
  nonStubs : Option (List UInt32)

/-- Write the state, with two lines for each field. -/
def globalStateToBlob (globalState : GlobalStateArrays) : Option (List (List Char)) := do
  let S ← globalState.S
  let W ← globalState.W
  let nonStubs ← globalState.nonStubs
  return [
    headerText "#S".toList [S.length],
    fieldsText (S.map boolText),
    headerText "#W".toList [W.length],
    fieldsText (W.map fun w => Nat.toDigits 10 w.toNat),
    headerText "#Nonstubs".toList [nonStubs.length],
    fieldsText (nonStubs.map fun n => Nat.toDigits 10 n.toNat)]

inductive GlobalStateSection
  /-- The deployment vector. -/
  | S
  /-- The weights. -/
  | W
  /-- The ASes that are providers. -/
  | nonStubs

/-- The section that is being read, and what has been read. -/
structure GlobalStateReader where
  currentlyReading : Option GlobalStateSection := none
  globalState : GlobalStateArrays := ⟨none, none, none⟩

/-- Start a section. -/
def readGlobalStateHeader (line : List Char) (s : GlobalStateReader) : Option GlobalStateReader :=
  if contains line "nonstubs".toList then
    some ⟨some .nonStubs, { s.globalState with nonStubs := some [] }⟩
  else if contains line "s".toList then
    (headerLength line).map fun len =>
      ⟨some .S, { s.globalState with S := some (replicate len false) }⟩
  else if contains line "w".toList then
    (headerLength line).map fun len =>
      ⟨some .W, { s.globalState with W := some (replicate len 0) }⟩
  else some s

/-- Read the fields of a line into the current section. -/
def readGlobalStateFields (fields : List (List Char)) (s : GlobalStateReader) :
    Option GlobalStateReader :=
  match s.currentlyReading with
  | none => some s
  | some .S => do
    let values ← fields.mapM parseBool
    let array ← s.globalState.S
    let array ← fill array values
    return { s with globalState := { s.globalState with S := some array } }
  | some .W => do
    let values ← fields.mapM parseUInt16
    let array ← s.globalState.W
    let array ← fill array values
    return { s with globalState := { s.globalState with W := some array } }
  | some .nonStubs => do
    let values ← fields.mapM parseUInt32
    let nonStubs ← s.globalState.nonStubs
    return { s with globalState := { s.globalState with nonStubs := some (nonStubs ++ values) } }

def globalStateFromBlob (lines : List (List Char)) : Option GlobalStateArrays :=
  (lines.foldlM (readSectionLine readGlobalStateHeader readGlobalStateFields) {}).map
    GlobalStateReader.globalState

lemma readGlobalStateHeader_S (n : ℕ) (s : GlobalStateReader) :
    readGlobalStateHeader (headerText "#s".toList [n]) s =
      if n < 2 ^ 31 then
        some ⟨some .S, { s.globalState with S := some (replicate n false) }⟩ else none := by
  rw [readGlobalStateHeader,
    if_neg (not_contains_headerText "#s".toList "nonstubs".toList _ (by decide)),
    if_pos (contains_headerText_self "#s".toList "s".toList _ (by decide)), 
    headerLength_headerText ⟨by decide, by decide⟩]
  split_ifs
  · rfl
  · rfl

lemma readGlobalStateHeader_W (n : ℕ) (s : GlobalStateReader) :
    readGlobalStateHeader (headerText "#w".toList [n]) s =
      if n < 2 ^ 31 then
        some ⟨some .W, { s.globalState with W := some (replicate n 0) }⟩ else none := by
  rw [readGlobalStateHeader,
    if_neg (not_contains_headerText "#w".toList "nonstubs".toList _ (by decide)),
    if_neg (not_contains_headerText "#w".toList "s".toList _ (by decide)),
    if_pos (contains_headerText_self "#w".toList "w".toList _ (by decide)), 
    headerLength_headerText ⟨by decide, by decide⟩]
  split_ifs
  · rfl
  · rfl

lemma readGlobalStateHeader_nonStubs (n : ℕ) (s : GlobalStateReader) :
    readGlobalStateHeader (headerText "#nonstubs".toList [n]) s =
      some ⟨some .nonStubs, { s.globalState with nonStubs := some [] }⟩ := by
  rw [readGlobalStateHeader,
    if_pos (contains_headerText_self "#nonstubs".toList "nonstubs".toList _ (by decide))]

/-- The section of the deployment vector is read back if it is not empty and not too long. -/
lemma readGlobalState_S (S : List Bool) (s : GlobalStateReader) :
    [headerText "#S".toList [S.length], fieldsText (S.map boolText)].foldlM
        (readSectionLine readGlobalStateHeader readGlobalStateFields) s =
      if S ≠ [] ∧ S.length < 2 ^ 31 then some ⟨some .S, { s.globalState with S := some S }⟩
      else none := by
  apply foldlM_section ((readSectionLine_headerText s ['S'] [S.length]).trans
    (readGlobalStateHeader_S S.length s))
  · rintro rfl
    rfl
  · intro hne
    obtain ⟨b, bs, rfl⟩ := exists_cons_of_ne_nil hne
    rw [readSectionLine_bools, readGlobalStateFields, Runs.mapM_map_eq_some parseBool_boolText]
    simp only [bind_eq_bind, bind_some, fill_replicate, Option.pure_def]

/-- The section of the weights is read back if it is not empty and not too long. -/
lemma readGlobalState_W (W : List UInt16) (s : GlobalStateReader) :
    [headerText "#W".toList [W.length],
        fieldsText (W.map fun w => Nat.toDigits 10 w.toNat)].foldlM
        (readSectionLine readGlobalStateHeader readGlobalStateFields) s =
      if W ≠ [] ∧ W.length < 2 ^ 31 then some ⟨some .W, { s.globalState with W := some W }⟩
      else none := by
  apply foldlM_section ((readSectionLine_headerText s ['W'] [W.length]).trans
    (readGlobalStateHeader_W W.length s))
  · rintro rfl
    rfl
  · intro hne
    rw [readSectionLine_toNat UInt16.toNat _ hne, readGlobalStateFields,
      Runs.mapM_map_eq_some parseUInt16_toDigits]
    simp only [bind_eq_bind, bind_some, fill_replicate, Option.pure_def]

/-- The section of the providers is read back if there are any. -/
lemma readGlobalState_nonStubs (nonStubs : List UInt32) (s : GlobalStateReader) :
    [headerText "#Nonstubs".toList [nonStubs.length],
        fieldsText (nonStubs.map fun n => Nat.toDigits 10 n.toNat)].foldlM
        (readSectionLine readGlobalStateHeader readGlobalStateFields) s =
      if nonStubs ≠ [] ∧ True then
        some ⟨some .nonStubs, { s.globalState with nonStubs := some nonStubs }⟩ else none := by
  apply foldlM_section (((readSectionLine_headerText s "Nonstubs".toList [nonStubs.length]).trans
    (readGlobalStateHeader_nonStubs nonStubs.length s)).trans (if_pos trivial).symm)
  · rintro rfl
    rfl
  · intro hne
    rw [readSectionLine_toNat UInt32.toNat _ hne, readGlobalStateFields,
      Runs.mapM_map_eq_some parseUInt32_toDigits]
    simp only [bind_eq_bind, bind_some, nil_append, Option.pure_def]

/-- What is read of a written state: all of it, or nothing. -/
lemma globalStateToBlob_bind_globalStateFromBlob (S : List Bool) (W : List UInt16)
    (nonStubs : List UInt32) :
    (globalStateToBlob ⟨some S, some W, some nonStubs⟩).bind globalStateFromBlob =
      if (S ≠ [] ∧ S.length < 2 ^ 31) ∧ (W ≠ [] ∧ W.length < 2 ^ 31) ∧ nonStubs ≠ [] then
        some ⟨some S, some W, some nonStubs⟩ else none := by
  have hlines : globalStateToBlob ⟨some S, some W, some nonStubs⟩ =
      some ([headerText "#S".toList [S.length], fieldsText (S.map boolText)] ++
        ([headerText "#W".toList [W.length], fieldsText (W.map fun w => Nat.toDigits 10 w.toNat)] ++
        [headerText "#Nonstubs".toList [nonStubs.length],
          fieldsText (nonStubs.map fun n => Nat.toDigits 10 n.toNat)])) := rfl
  rw [hlines, bind_some, globalStateFromBlob, foldlM_append, readGlobalState_S]
  by_cases hS : S ≠ [] ∧ S.length < 2 ^ 31
  · rw [if_pos hS, bind_eq_bind, bind_some, foldlM_append, readGlobalState_W]
    by_cases hW : W ≠ [] ∧ W.length < 2 ^ 31
    · rw [if_pos hW, bind_eq_bind, bind_some, readGlobalState_nonStubs]
      by_cases hnon : nonStubs ≠ []
      · rw [if_pos ⟨hnon, trivial⟩, if_pos ⟨hS, hW, hnon⟩]
        rfl
      · rw [if_neg fun h => hnon h.1, if_neg fun h => hnon h.2.2]
        rfl
    · rw [if_neg hW, if_neg fun h => hW h.2.1]
      rfl
  · rw [if_neg hS, if_neg fun h => hS h.1]
    rfl

/-- The state is read back if all of its arrays are there, not empty and not too long. -/
lemma globalStateFromBlob_globalStateToBlob (globalState : GlobalStateArrays) :
    (globalStateToBlob globalState).bind globalStateFromBlob = some globalState ↔
      ∃ S W nonStubs, globalState = ⟨some S, some W, some nonStubs⟩ ∧
        (S ≠ [] ∧ S.length < 2 ^ 31) ∧ (W ≠ [] ∧ W.length < 2 ^ 31) ∧ nonStubs ≠ [] := by
  constructor
  · intro h
    obtain ⟨lines, hlines, -⟩ := bind_eq_some_iff.mp h
    obtain ⟨S, hS, hlines⟩ := bind_eq_some_iff.mp hlines
    obtain ⟨W, hW, hlines⟩ := bind_eq_some_iff.mp hlines
    obtain ⟨nonStubs, hnon, -⟩ := bind_eq_some_iff.mp hlines
    have heq : globalState = ⟨some S, some W, some nonStubs⟩ := by
      rw [← hS, ← hW, ← hnon]
    refine ⟨S, W, nonStubs, heq, ?_⟩
    rw [heq, globalStateToBlob_bind_globalStateFromBlob] at h
    by_contra hcond
    rw [if_neg hcond] at h
    cases h
  · rintro ⟨S, W, nonStubs, rfl, hcond⟩
    rw [globalStateToBlob_bind_globalStateFromBlob, if_pos hcond]

end Astoria
