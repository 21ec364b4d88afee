import Astoria.CloudLibrary.ObjectToText

/-!
# The text of the tables of a destination

The tables of a destination are written in sections, the bucket table and the best neighbours as
sparse arrays with one line for every list that is there.  The number of columns of the bucket table
is that of its first row, for the writer and for the reader.

The main result, `transport_iff`, says for each of the three transport formats which values are
restored.  The best new neighbours and the weights of a destination are not written; the rows of its
bucket table must be as long as the first one.
-/

namespace Astoria

open List Option

/-- A null reference or a list of ASes. -/
abbrev AsList := Option (List UInt32)

/-- The tables of a destination, as they are in memory. -/
structure MiniDestinationArrays where
  /-- The buckets, by distance and relation. -/
  BucketTable : Option (List (Option (List AsList)))
  Best : Option (List AsList)
  /-- The best neighbours after a change. -/
  BestNew : Option (List AsList)
  BestRelation : Option (List UInt8)
  /-- The best lengths. -/
  L : Option (List UInt8)
  W : Option (List Float32)
  destination : UInt32

/-! ### The writer -/

/-- The line of a list of ASes: its indices and the ASes. -/
def asLine (indices : List ℕ) (ases : List UInt32) : List Char :=
  fieldsText ((indices ++ ases.map UInt32.toNat).map (Nat.toDigits 10))

/-- The lines of a row of the bucket table.  A null row is noticed when a cell of it is used, and so
is a row that is too short. -/
def bucketRowLines (cols i : ℕ) (row : Option (List AsList)) : Option (List (List Char)) := do
  let lines ← (range cols).mapM fun j => do
    let row ← row
    let cell ← row[j]?
    return (cell.map (asLine [i, j])).toList
  return lines.flatten

/-- Write the tables of a destination. -/
def miniDestinationToStream (d : MiniDestinationArrays) : Option (List (List Char)) := do
  let bucketTable ← d.BucketTable
  let firstRow ← bucketTable[0]?
  let firstRow ← firstRow
  let bucketLines ← bucketTable.zipIdx.mapM fun row => bucketRowLines firstRow.length row.2 row.1
  let best ← d.Best
  let bestRelation ← d.BestRelation
  let L ← d.L
  return [headerText "#destination".toList [d.destination.toNat],
      headerText "#buckettable".toList [bucketTable.length, firstRow.length]] ++
    (bucketLines.flatten ++
    (headerText "#best".toList [best.length] ::
      Runs.sparseEntries (fun i => asLine [i]) best 0 ++
    ([headerText "#bestrelation".toList [bestRelation.length],
      fieldsText (bestRelation.map fun r => Nat.toDigits 10 r.toNat)] ++
    [headerText "#L".toList [L.length],
      fieldsText (L.map fun l => Nat.toDigits 10 l.toNat)])))

/-! ### The reader -/

/-- The sections of the text that have lines of their own. -/
inductive MiniDestinationSection
  | bucketTable
  /-- The best neighbours. -/
  | best
  | bestRelation
  /-- The best lengths. -/
  | L

/-- The section that is being read, and what has been read. -/
structure MiniDestinationReader where
  currentlyReading : Option MiniDestinationSection := none
  toreturn : MiniDestinationArrays := ⟨none, none, none, none, none, none, 0⟩

/-- Start a section, or read the destination. -/
def readMiniDestinationHeader (line : List Char) (s : MiniDestinationReader) :
    Option MiniDestinationReader :=
  if contains line "buckettable".toList then do
    let numRows ← headerLength line
    let numCols ← (pieces line)[2]?.bind parseInt32
    -- a negative number of columns throws with the first row
    if numRows ≠ 0 ∧ numCols < 0 then none
    else
      let emptyRow := some (replicate numCols.toNat none)
      return ⟨some .bucketTable,
        { s.toreturn with BucketTable := some (replicate numRows emptyRow) }⟩
  else if contains line "bestrelation".toList then
    (headerLength line).map fun numRows =>
      ⟨some .bestRelation, { s.toreturn with BestRelation := some (replicate numRows 0) }⟩
  else if contains line "destination".toList then
    ((pieces line)[1]?.bind parseUInt32).map fun destNum =>
      { s with toreturn := { s.toreturn with destination := destNum } }
  else if contains line "best".toList then
    (headerLength line).map fun numRows =>
      ⟨some .best, { s.toreturn with Best := some (replicate numRows none) }⟩
  else if contains line "l".toList then
    (headerLength line).map fun numRows =>
      ⟨some .L, { s.toreturn with L := some (replicate numRows 0) }⟩
  else some s

/-- Put a value at an index that an array has. -/
def setCell {α : Type*} (array : List α) (i : ℕ) (a : α) : Option (List α) :=
  if i < array.length then some (array.set i a) else none

/-- Read the fields of a line into the current section. -/
def readMiniDestinationFields (fields : List (List Char)) (s : MiniDestinationReader) :
    Option MiniDestinationReader :=
  match s.currentlyReading with
  | none => some s
  | some .bucketTable => do
    let row ← fields[0]?.bind parseIndex
    let col ← fields[1]?.bind parseIndex
    let ases ← (fields.drop 2).mapM parseUInt32
    let table ← s.toreturn.BucketTable
    let array ← table[row]?
    let array ← array
    let array ← setCell array col (some ases)
    let table ← setCell table row (some array)
    return { s with toreturn := { s.toreturn with BucketTable := some table } }
  | some .best => do
    let row ← fields[0]?.bind parseIndex
    let ases ← (fields.drop 1).mapM parseUInt32
    let array ← s.toreturn.Best
    let array ← setCell array row (some ases)
    return { s with toreturn := { s.toreturn with Best := some array } }
  | some .bestRelation => do
    let values ← fields.mapM parseByte
    let array ← s.toreturn.BestRelation
    let array ← fill array values
    return { s with toreturn := { s.toreturn with BestRelation := some array } }
  | some .L => do
    let values ← fields.mapM parseByte
    let array ← s.toreturn.L
    let array ← fill array values
    return { s with toreturn := { s.toreturn with L := some array } }

abbrev readMiniDestinationLine (s : MiniDestinationReader) (text : List Char) :
    Option MiniDestinationReader :=
  readSectionLine readMiniDestinationHeader readMiniDestinationFields s text

/-- Read the tables of a destination. -/
def miniDestinationFromStream (lines : List (List Char)) : Option MiniDestinationArrays :=
  (lines.foldlM readMiniDestinationLine {}).map MiniDestinationReader.toreturn

/-! ### What the writer writes -/

/-- The cells of a row that are written: as many as there are columns. -/
def writtenCells (cols : ℕ) (row : Option (List AsList)) : List AsList := (row.getD []).take cols

variable {cols : ℕ} {rows : List (Option (List AsList))}

lemma getElem?_writtenCells {j : ℕ} (row : Option (List AsList)) (hj : j < cols) :
    (writtenCells cols row)[j]? = row.bind fun row => row[j]? := by
  cases row with
  | none => rw [writtenCells, getD_none, take_nil, getElem?_nil, bind_none]
  | some row => rw [writtenCells, getD_some, getElem?_take_of_lt hj, bind_some]

/-- The entries of a sparse array, by their indices. -/
lemma sparseEntries_eq_flatMap_range (entry : ℕ → List UInt32 → List Char) (cells : List AsList) :
    Runs.sparseEntries entry cells 0 =
      (range cells.length).flatMap fun j => (cells[j]?.join.map (entry j)).toList := by
  have hzip : cells.zipIdx = (range cells.length).map fun j => (cells[j]?.join, j) := by
    apply ext_getElem
    · simp
    · intro j h₁ h₂
      have hj : j < cells.length := by simpa using h₁
      simp [getElem?_eq_getElem hj]
  rw [Runs.sparseEntries, hzip, flatMap_map]

/-- A row that is long enough is written as a sparse array, and others are not written. -/
lemma bucketRowLines_eq (cols i : ℕ) (row : Option (List AsList)) :
    bucketRowLines cols i row =
      if (writtenCells cols row).length = cols then
        some (Runs.sparseEntries (fun j => asLine [i, j]) (writtenCells cols row) 0) else none := by
  have hcell : ∀ j < cols, (row.bind fun row => row[j]?.bind fun cell =>
      some (cell.map (asLine [i, j])).toList) =
      (writtenCells cols row)[j]?.map fun cell => (cell.map (asLine [i, j])).toList := by
    intro j hj
    rw [getElem?_writtenCells row hj]
    cases row with
    | none => rfl
    | some row =>
      rw [bind_some, bind_some]
      exact map_eq_bind.symm
  change (((range cols).mapM fun j => row.bind fun row => row[j]?.bind fun cell =>
    some (cell.map (asLine [i, j])).toList).bind fun lines => some lines.flatten) = _
  split_ifs with hlen
  · have hall : ((range cols).mapM fun j => row.bind fun row => row[j]?.bind fun cell =>
        some (cell.map (asLine [i, j])).toList) =
        some ((range cols).map fun j =>
          ((writtenCells cols row)[j]?.join.map (asLine [i, j])).toList) := by
      apply Runs.mapM_eq_some_map
      intro j hj
      have hj : j < (writtenCells cols row).length := by
        rw [hlen]
        exact mem_range.mp hj
      rw [hcell j (hlen ▸ hj), getElem?_eq_getElem hj]
      rfl
    rw [hall, bind_some, sparseEntries_eq_flatMap_range, hlen, flatMap_def]
  · have hlt : (writtenCells cols row).length < cols :=
      lt_of_le_of_ne (length_take_le cols _) hlen
    rw [bind_eq_none_iff]
    intro lines hlines
    obtain ⟨line, hline⟩ := Runs.exists_of_mapM_eq_some hlines (mem_range.mpr hlt)
    rw [hcell _ hlt, getElem?_eq_none le_rfl] at hline
    cases hline

/-! ### What the reader reads -/

lemma readMiniDestinationHeader_destination (destination : UInt32) (s : MiniDestinationReader) :
    readMiniDestinationHeader (headerText "#destination".toList [destination.toNat]) s =
      some { s with toreturn := { s.toreturn with destination := destination } } := by
  rw [readMiniDestinationHeader,
    if_neg (not_contains_headerText "#destination".toList "buckettable".toList _ (by decide)),
    if_neg (not_contains_headerText "#destination".toList "bestrelation".toList _ (by decide)),
    if_pos (contains_headerText_self "#destination".toList "destination".toList _ (by decide)),
    pieces_headerText ⟨by decide, by decide⟩, map_cons, getElem?_cons_succ,
    getElem?_cons_zero, bind_some, parseUInt32_toDigits, map_some]

lemma readMiniDestinationHeader_bucketTable (rows cols : ℕ) (s : MiniDestinationReader) :
    readMiniDestinationHeader (headerText "#buckettable".toList [rows, cols]) s =
      if rows < 2 ^ 31 ∧ cols < 2 ^ 31 then
        some ⟨some .bucketTable, { s.toreturn with
          BucketTable := some (replicate rows (some (replicate cols none))) }⟩
      else none := by
  rw [readMiniDestinationHeader,
    if_pos (contains_headerText_self "#buckettable".toList "buckettable".toList _ (by decide)),
    headerLength,  pieces_headerText ⟨by decide, by decide⟩,
    map_cons, map_cons, getElem?_cons_succ, getElem?_cons_succ,
    getElem?_cons_succ, getElem?_cons_zero, getElem?_cons_zero]
  rw [bind_some, bind_some, parseIndex_toDigits, ← intText_natCast cols,
    parseInt32_intText]
  by_cases hrows : rows < 2 ^ 31
  · by_cases hcols : cols < 2 ^ 31
    · rw [if_pos hrows, if_pos (by omega), if_pos ⟨hrows, hcols⟩, bind_eq_bind,
        bind_some, bind_eq_bind, bind_some, if_neg (by omega)]
      rfl
    · rw [if_pos hrows, if_neg (by omega), if_neg fun h => hcols h.2]
      rfl
  · rw [if_neg hrows, if_neg (show ¬ (rows < 2 ^ 31 ∧ cols < 2 ^ 31) from fun h => hrows h.1)]
    rfl

lemma readMiniDestinationHeader_best (n : ℕ) (s : MiniDestinationReader) :
    readMiniDestinationHeader (headerText "#best".toList [n]) s =
      if n < 2 ^ 31 then
        some ⟨some .best, { s.toreturn with Best := some (replicate n none) }⟩ else none := by
  rw [readMiniDestinationHeader,
    if_neg (not_contains_headerText "#best".toList "buckettable".toList _ (by decide)),
    if_neg (not_contains_headerText "#best".toList "bestrelation".toList _ (by decide)),
    if_neg (not_contains_headerText "#best".toList "destination".toList _ (by decide)),
    if_pos (contains_headerText_self "#best".toList "best".toList _ (by decide)),
    headerLength_headerText ⟨by decide, by decide⟩]
  split_ifs
  · rfl
  · rfl

lemma readMiniDestinationHeader_bestRelation (n : ℕ) (s : MiniDestinationReader) :
    readMiniDestinationHeader (headerText "#bestrelation".toList [n]) s =
      if n < 2 ^ 31 then
        some ⟨some .bestRelation,
          { s.toreturn with BestRelation := some (replicate n 0) }⟩ else none := by
  rw [readMiniDestinationHeader,
    if_neg (not_contains_headerText "#bestrelation".toList "buckettable".toList _ (by decide)),
    if_pos (contains_headerText_self "#bestrelation".toList "bestrelation".toList _ (by decide)),
    headerLength_headerText ⟨by decide, by decide⟩]
  split_ifs
  · rfl
  · rfl

lemma readMiniDestinationHeader_L (n : ℕ) (s : MiniDestinationReader) :
    readMiniDestinationHeader (headerText "#l".toList [n]) s =
      if n < 2 ^ 31 then
        some ⟨some .L, { s.toreturn with L := some (replicate n 0) }⟩ else none := by
  rw [readMiniDestinationHeader,
    if_neg (not_contains_headerText "#l".toList "buckettable".toList _ (by decide)),
    if_neg (not_contains_headerText "#l".toList "bestrelation".toList _ (by decide)),
    if_neg (not_contains_headerText "#l".toList "destination".toList _ (by decide)),
    if_neg (not_contains_headerText "#l".toList "best".toList _ (by decide)),
    if_pos (contains_headerText_self "#l".toList "l".toList _ (by decide)),
    headerLength_headerText ⟨by decide, by decide⟩]
  split_ifs
  · rfl
  · rfl

lemma bind_parseIndex_toDigits {n : ℕ} (h : n < 2 ^ 31) :
    (some (Nat.toDigits 10 n)).bind parseIndex = some n := by
  rw [bind_some, parseIndex_toDigits, if_pos h]

lemma mapM_parseUInt32_toNat (ases : List UInt32) :
    ((ases.map UInt32.toNat).map (Nat.toDigits 10)).mapM parseUInt32 = some ases := by
  rw [List.map_map]
  exact Runs.mapM_map_eq_some parseUInt32_toDigits ases

/-- A line of the best neighbours sets one cell. -/
lemma readMiniDestinationLine_best (toreturn : MiniDestinationArrays) {array : List AsList} {i : ℕ}
    (hi : i < array.length) (hlen : array.length < 2 ^ 31) (ases : List UInt32) :
    readMiniDestinationLine ⟨some .best, { toreturn with Best := some array }⟩ (asLine [i] ases) =
      some ⟨some .best, { toreturn with Best := some (array.set i (some ases)) }⟩ := by
  rw [readMiniDestinationLine, asLine, singleton_append, readSectionLine_numbers,
    readMiniDestinationFields, map_cons]
  dsimp only
  rw [getElem?_cons_zero, bind_parseIndex_toDigits (hi.trans hlen), drop_succ_cons,
    drop_zero, mapM_parseUInt32_toNat]
  simp only [bind_eq_bind, bind_some, setCell, if_pos hi, Option.pure_def]

/-- A line of the bucket table sets one cell of one row. -/
lemma readMiniDestinationLine_bucketTable (toreturn : MiniDestinationArrays)
    {above below : List (Option (List AsList))} {array : List AsList} {j : ℕ}
    (habove : above.length < 2 ^ 31) (hj : j < array.length) (hlen : array.length < 2 ^ 31)
    (ases : List UInt32) :
    readMiniDestinationLine
        ⟨some .bucketTable, { toreturn with BucketTable := some (above ++ some array :: below) }⟩
        (asLine [above.length, j] ases) =
      some ⟨some .bucketTable, { toreturn with
        BucketTable := some (above ++ some (array.set j (some ases)) :: below) }⟩ := by
  have hcell : (above ++ some array :: below)[above.length]? = some (some array) := by
    rw [getElem?_append_right le_rfl, Nat.sub_self, getElem?_cons_zero]
  have hset : setCell (above ++ some array :: below) above.length (some (array.set j (some ases))) =
      some (above ++ some (array.set j (some ases)) :: below) := by
    rw [setCell, if_pos (by simp), set_append_right _ _ le_rfl, Nat.sub_self,
      set_cons_zero]
  have hcons : [above.length, j] ++ ases.map UInt32.toNat =
      above.length :: (j :: ases.map UInt32.toNat) := rfl
  rw [readMiniDestinationLine, asLine, hcons, readSectionLine_numbers, readMiniDestinationFields,
    map_cons, map_cons]
  dsimp only
  rw [getElem?_cons_zero, getElem?_cons_succ, getElem?_cons_zero,
    bind_parseIndex_toDigits habove, bind_parseIndex_toDigits (hj.trans hlen), drop_succ_cons,
    drop_succ_cons, drop_zero, mapM_parseUInt32_toNat]
  simp only [bind_eq_bind, bind_some, hcell]
  rw [setCell, if_pos hj]
  simp only [bind_some, hset, Option.pure_def]

/-- The lines of the rows of a bucket table, with their indices from `k` on. -/
def bucketLines (cols : ℕ) (rows : List (Option (List AsList))) (k : ℕ) : List (List Char) :=
  (rows.zipIdx k).flatMap fun row =>
    Runs.sparseEntries (fun j => asLine [row.2, j]) (writtenCells cols row.1) 0

/-- The reader of a bucket table with the given rows. -/
def bucketReader (toreturn : MiniDestinationArrays) (rows : List (Option (List AsList))) :
    MiniDestinationReader :=
  ⟨some .bucketTable, { toreturn with BucketTable := some rows }⟩

/-- The lines of a row fill an empty row of the bucket table. -/
lemma foldlM_bucketRow (toreturn : MiniDestinationArrays)
    (above below : List (Option (List AsList))) (cells : List AsList)
    (habove : above.length < 2 ^ 31) (hlen : cells.length < 2 ^ 31) :
    (Runs.sparseEntries (fun j => asLine [above.length, j]) cells 0).foldlM readMiniDestinationLine
        (bucketReader toreturn (above ++ some (replicate cells.length none) :: below)) =
      some (bucketReader toreturn (above ++ some cells :: below)) := by
  apply Runs.foldlM_sparseEntries (n := cells.length)
    (fun array => bucketReader toreturn (above ++ some array :: below)) _ cells []
  · rw [length_nil, zero_add]
  · intro array j ases harray hj
    exact readMiniDestinationLine_bucketTable toreturn habove (by omega) (by omega) ases

/-- The lines of the rows fill an empty bucket table row by row. -/
lemma foldlM_bucketLines (toreturn : MiniDestinationArrays) (hcols : cols < 2 ^ 31)
    (rows above : List (Option (List AsList)))
    (hrows : ∀ row ∈ rows, (writtenCells cols row).length = cols)
    (hlen : above.length + rows.length < 2 ^ 31) :
    (bucketLines cols rows above.length).foldlM readMiniDestinationLine
        (bucketReader toreturn
          (above ++ replicate rows.length (some (replicate cols none)))) =
      some (bucketReader toreturn (above ++ rows.map fun row => some (writtenCells cols row))) := by
  induction rows generalizing above with
  | nil => rfl
  | cons row rows ih =>
    have hrow := hrows row mem_cons_self
    rw [length_cons] at hlen
    have hfirst := foldlM_bucketRow toreturn above
      (replicate rows.length (some (replicate cols none))) (writtenCells cols row)
      (by omega) (by omega)
    rw [hrow] at hfirst
    have hrest := ih (above ++ [some (writtenCells cols row)])
      (fun row' hrow' => hrows row' (mem_cons_of_mem row hrow'))
      (by rw [length_append, length_singleton]; omega)
    rw [length_append, length_singleton, append_assoc, append_assoc] at hrest
    rw [bucketLines, zipIdx_cons, flatMap_cons, foldlM_append, length_cons,
      replicate_succ, hfirst]
    exact hrest

lemma readMiniDestination_bucketTable (destination : UInt32)
    (hrows : ∀ row ∈ rows, (writtenCells cols row).length = cols) :
    ([headerText "#destination".toList [destination.toNat],
        headerText "#buckettable".toList [rows.length, cols]] ++ bucketLines cols rows 0).foldlM
        readMiniDestinationLine {} =
      if rows.length < 2 ^ 31 ∧ cols < 2 ^ 31 then
        some (bucketReader ⟨none, none, none, none, none, none, destination⟩
          (rows.map fun row => some (writtenCells cols row))) else none := by
  have hdest : readMiniDestinationLine {} (headerText "#destination".toList [destination.toNat]) =
      some ⟨none, ⟨none, none, none, none, none, none, destination⟩⟩ :=
    (readSectionLine_headerText _ "destination".toList _).trans
      (readMiniDestinationHeader_destination destination _)
  have hheader : ∀ s, readMiniDestinationLine s
      (headerText "#buckettable".toList [rows.length, cols]) =
      if rows.length < 2 ^ 31 ∧ cols < 2 ^ 31 then some (bucketReader s.toreturn
        (replicate rows.length (some (replicate cols none)))) else none :=
    fun s => (readSectionLine_headerText s "buckettable".toList _).trans
      (readMiniDestinationHeader_bucketTable rows.length cols s)
  rw [foldlM_append, foldlM_cons, hdest, bind_eq_bind, bind_some,
    foldlM_cons, hheader]
  split_ifs with hlen
  · exact foldlM_bucketLines _ hlen.2 rows [] hrows (by rw [length_nil]; omega)
  · rfl

/-- The section of the best neighbours is read back if it is not too long. -/
lemma readMiniDestination_best (best : List AsList) (s : MiniDestinationReader) :
    (headerText "#best".toList [best.length] ::
        Runs.sparseEntries (fun i => asLine [i]) best 0).foldlM readMiniDestinationLine s =
      if best.length < 2 ^ 31 then
        some ⟨some .best, { s.toreturn with Best := some best }⟩ else none := by
  have hheader : readMiniDestinationLine s (headerText "#best".toList [best.length]) =
      if best.length < 2 ^ 31 then some ⟨some .best,
        { s.toreturn with Best := some (replicate best.length none) }⟩ else none :=
    (readSectionLine_headerText s "best".toList _).trans
      (readMiniDestinationHeader_best best.length s)
  rw [foldlM_cons, hheader]
  split_ifs with hlen
  · apply Runs.foldlM_sparseEntries (n := best.length) (fun array : List AsList =>
      (⟨some .best, { s.toreturn with Best := some array }⟩ : MiniDestinationReader)) _ best []
    · rw [length_nil, zero_add]
    · intro array i ases harray hi
      exact readMiniDestinationLine_best s.toreturn (by omega) (by omega) ases
  · rfl

/-- The section of the best relations is read back if it is not empty and not too long. -/
lemma readMiniDestination_bestRelation (bestRelation : List UInt8) (s : MiniDestinationReader) :
    [headerText "#bestrelation".toList [bestRelation.length],
        fieldsText (bestRelation.map fun r => Nat.toDigits 10 r.toNat)].foldlM
        readMiniDestinationLine s =
      if bestRelation ≠ [] ∧ bestRelation.length < 2 ^ 31 then
        some ⟨some .bestRelation, { s.toreturn with BestRelation := some bestRelation }⟩
      else none := by
  apply foldlM_section ((readSectionLine_headerText s "bestrelation".toList _).trans
    (readMiniDestinationHeader_bestRelation bestRelation.length s))
  · rintro rfl
    rfl
  · intro hne
    rw [readSectionLine_toNat UInt8.toNat _ hne, readMiniDestinationFields,
      Runs.mapM_map_eq_some parseByte_toDigits]
    simp only [bind_eq_bind, bind_some, fill_replicate, Option.pure_def]

/-- The section of the best lengths is read back if it is not empty and not too long. -/
lemma readMiniDestination_L (L : List UInt8) (s : MiniDestinationReader) :
    [headerText "#L".toList [L.length],
        fieldsText (L.map fun l => Nat.toDigits 10 l.toNat)].foldlM readMiniDestinationLine s =
      if L ≠ [] ∧ L.length < 2 ^ 31 then some ⟨some .L, { s.toreturn with L := some L }⟩
      else none := by
  apply foldlM_section ((readSectionLine_headerText s "L".toList _).trans
    (readMiniDestinationHeader_L L.length s))
  · rintro rfl
    rfl
  · intro hne
    rw [readSectionLine_toNat UInt8.toNat _ hne, readMiniDestinationFields,
      Runs.mapM_map_eq_some parseByte_toDigits]
    simp only [bind_eq_bind, bind_some, fill_replicate, Option.pure_def]

/-! ### What is restored -/

/-- The lines that are written for a destination whose rows are long enough. -/
def destinationLines (destination : UInt32) (cols : ℕ) (rows : List (Option (List AsList)))
    (best : List AsList) (bestRelation L : List UInt8) : List (List Char) :=
  [headerText "#destination".toList [destination.toNat],
    headerText "#buckettable".toList [rows.length, cols]] ++
    (bucketLines cols rows 0 ++
    (headerText "#best".toList [best.length] :: Runs.sparseEntries (fun i => asLine [i]) best 0 ++
    ([headerText "#bestrelation".toList [bestRelation.length],
      fieldsText (bestRelation.map fun r => Nat.toDigits 10 r.toNat)] ++
    [headerText "#L".toList [L.length], fieldsText (L.map fun l => Nat.toDigits 10 l.toNat)])))

lemma mapM_bucketRowLines (hrows : ∀ row ∈ rows, (writtenCells cols row).length = cols) :
    (rows.zipIdx.mapM fun row => bucketRowLines cols row.2 row.1) =
      some (rows.zipIdx.map fun row =>
        Runs.sparseEntries (fun j => asLine [row.2, j]) (writtenCells cols row.1) 0) := by
  apply Runs.mapM_eq_some_map
  rintro ⟨row, i⟩ hrow
  rw [bucketRowLines_eq, if_pos (hrows row (fst_mem_of_mem_zipIdx hrow))]

/-- The rows of a bucket table that is written are long enough. -/
lemma length_writtenCells_of_mapM {lines : List (List (List Char))}
    (h : (rows.zipIdx.mapM fun row => bucketRowLines cols row.2 row.1) = some lines) :
    ∀ row ∈ rows, (writtenCells cols row).length = cols := by
  intro row hrow
  obtain ⟨i, hi⟩ := mem_iff_getElem?.mp hrow
  have hmem : (row, i) ∈ rows.zipIdx := mem_zipIdx_iff_getElem?.mpr hi
  obtain ⟨line, hline⟩ := Runs.exists_of_mapM_eq_some h hmem
  rw [bucketRowLines_eq] at hline
  by_contra hlen
  rw [if_neg hlen] at hline
  cases hline

/-- The lines of a destination whose rows are long enough. -/
lemma miniDestinationToStream_of_rows {first : List AsList} (hrows : ∀ row ∈ some first :: rows,
      (writtenCells first.length row).length = first.length)
    {best : List AsList} {bestNew : Option (List AsList)} {bestRelation L : List UInt8}
    {W : Option (List Float32)} {destination : UInt32} :
    miniDestinationToStream
        ⟨some (some first :: rows), some best, bestNew, some bestRelation, some L, W, destination⟩ =
      some (destinationLines destination first.length (some first :: rows) best bestRelation
        L) := by
  unfold miniDestinationToStream
  dsimp only
  rw [bind_eq_bind, bind_some, getElem?_cons_zero, bind_eq_bind,
    bind_some, bind_eq_bind, bind_some, mapM_bucketRowLines hrows,
    bind_eq_bind, bind_some, ← flatMap_def]
  rfl

/-- What is read of the lines of a destination: all that was written, or nothing. -/
lemma miniDestinationFromStream_lines (destination : UInt32)
    (hrows : ∀ row ∈ rows, (writtenCells cols row).length = cols) (best : List AsList)
    (bestRelation L : List UInt8) :
    miniDestinationFromStream (destinationLines destination cols rows best bestRelation L) =
      if (rows.length < 2 ^ 31 ∧ cols < 2 ^ 31) ∧ best.length < 2 ^ 31 ∧
          (bestRelation ≠ [] ∧ bestRelation.length < 2 ^ 31) ∧ L ≠ [] ∧ L.length < 2 ^ 31 then
        some ⟨some (rows.map fun row => some (writtenCells cols row)), some best, none,
          some bestRelation, some L, none, destination⟩
      else none := by
  rw [miniDestinationFromStream, destinationLines, ← append_assoc, foldlM_append,
    readMiniDestination_bucketTable destination hrows]
  by_cases htable : rows.length < 2 ^ 31 ∧ cols < 2 ^ 31
  · rw [if_pos htable, bind_eq_bind, bind_some, foldlM_append,
      readMiniDestination_best]
    by_cases hbest : best.length < 2 ^ 31
    · rw [if_pos hbest, bind_eq_bind, bind_some, foldlM_append,
        readMiniDestination_bestRelation]
      by_cases hrel : bestRelation ≠ [] ∧ bestRelation.length < 2 ^ 31
      · rw [if_pos hrel, bind_eq_bind, bind_some, readMiniDestination_L]
        by_cases hL : L ≠ [] ∧ L.length < 2 ^ 31
        · rw [if_pos hL, if_pos ⟨htable, hbest, hrel, hL⟩]
          rfl
        · rw [if_neg hL, if_neg fun h => hL h.2.2.2]
          rfl
      · rw [if_neg hrel, if_neg fun h => hrel h.2.2.1]
        rfl
    · rw [if_neg hbest, if_neg fun h => hbest h.2.1]
      rfl
  · rw [if_neg htable, if_neg fun h => htable h.1]
    rfl

/-- The tables of a destination are read back if the best new neighbours and the weights are null
and the other fields are not, the rows of the bucket table are there and as long as the first one,
and no array is too long or, but for the best neighbours and the rows, empty. -/
lemma miniDestinationFromStream_miniDestinationToStream (d : MiniDestinationArrays) :
    (miniDestinationToStream d).bind miniDestinationFromStream = some d ↔
      ∃ first rows best bestRelation L destination,
        d = ⟨some (some first :: rows), some best, none, some bestRelation, some L, none,
          destination⟩ ∧
        (∀ row ∈ rows, ∃ cells : List AsList, row = some cells ∧ cells.length = first.length) ∧
        (rows.length + 1 < 2 ^ 31 ∧ first.length < 2 ^ 31) ∧ best.length < 2 ^ 31 ∧
        (bestRelation ≠ [] ∧ bestRelation.length < 2 ^ 31) ∧ L ≠ [] ∧ L.length < 2 ^ 31 := by
  constructor
  · intro h
    obtain ⟨lines, hlines, hread⟩ := bind_eq_some_iff.mp h
    obtain ⟨table, htable, hlines⟩ := bind_eq_some_iff.mp hlines
    obtain ⟨row, hrow, hlines⟩ := bind_eq_some_iff.mp hlines
    obtain ⟨first, hfirst, hlines⟩ := bind_eq_some_iff.mp hlines
    obtain ⟨rowLines, hrowLines, hlines⟩ := bind_eq_some_iff.mp hlines
    obtain ⟨best, hbest, hlines⟩ := bind_eq_some_iff.mp hlines
    obtain ⟨bestRelation, hrelation, hlines⟩ := bind_eq_some_iff.mp hlines
    obtain ⟨L, hL, hlines⟩ := bind_eq_some_iff.mp hlines
    have hrows := length_writtenCells_of_mapM hrowLines
    rw [mapM_bucketRowLines hrows] at hrowLines
    obtain rfl := some.inj hrowLines
    obtain rfl := some.inj hlines
    rw [← flatMap_def] at hread
    have hread : miniDestinationFromStream
        (destinationLines d.destination first.length table best bestRelation L) = some d := hread
    rw [miniDestinationFromStream_lines _ hrows] at hread
    split_ifs at hread with hcond
    have hd := (some.inj hread).symm
    have hmap : table.map (fun row => some (writtenCells first.length row)) = table := by
      rw [hd] at htable
      exact some.inj htable
    have hcells : ∀ row ∈ table, some (writtenCells first.length row) = row :=
      map_inj_left.mp (hmap.trans (List.map_id table).symm)
    obtain ⟨rows, rfl⟩ : ∃ rows, table = some first :: rows := by
      cases table with
      | nil => cases hrow
      | cons row' rows =>
        rw [getElem?_cons_zero] at hrow
        exact ⟨rows, by rw [some.inj hrow, hfirst]⟩
    refine ⟨first, rows, best, bestRelation, L, d.destination, ?_, ?_, hcond⟩
    · rw [hmap] at hd
      exact hd
    · intro row' hrow'
      have hmem := mem_cons_of_mem (some first) hrow'
      exact ⟨_, (hcells row' hmem).symm, hrows row' hmem⟩
  · rintro ⟨first, rows, best, bestRelation, L, destination, rfl, hrest, hcond⟩
    have hwritten : ∀ row ∈ some first :: rows, some (writtenCells first.length row) = row ∧
        (writtenCells first.length row).length = first.length := by
      intro row hrow
      obtain ⟨cells, rfl, hlen⟩ : ∃ cells : List AsList,
          row = some cells ∧ cells.length = first.length := by
        rcases mem_cons.mp hrow with rfl | hrow
        · exact ⟨first, rfl, rfl⟩
        · exact hrest row hrow
      rw [writtenCells, getD_some, ← hlen, take_length]
      exact ⟨rfl, rfl⟩
    have hrows := fun row hrow => (hwritten row hrow).2
    have hmap : (some first :: rows).map (fun row => some (writtenCells first.length row)) =
        some first :: rows :=
      (map_congr_left fun row hrow => (hwritten row hrow).1).trans (List.map_id _)
    have hread := miniDestinationFromStream_lines destination hrows best bestRelation L
    rw [length_cons, if_pos hcond, hmap] at hread
    rw [miniDestinationToStream_of_rows hrows, bind_some]
    exact hread

def MiniDestinationArrays.Restorable (d : MiniDestinationArrays) : Prop :=
  ∃ first rows best bestRelation L destination,
    d = ⟨some (some first :: rows), some best, none, some bestRelation, some L, none,
      destination⟩ ∧
    (∀ row ∈ rows, ∃ cells : List AsList, row = some cells ∧ cells.length = first.length) ∧
    (rows.length + 1 < 2 ^ 31 ∧ first.length < 2 ^ 31) ∧ best.length < 2 ^ 31 ∧
    (bestRelation ≠ [] ∧ bestRelation.length < 2 ^ 31) ∧ L ≠ [] ∧ L.length < 2 ^ 31

/-- The states of the deployment process that are restored. -/
def GlobalStateArrays.Restorable (globalState : GlobalStateArrays) : Prop :=
  ∃ S W nonStubs, globalState = ⟨some S, some W, some nonStubs⟩ ∧
    (S ≠ [] ∧ S.length < 2 ^ 31) ∧ (W ≠ [] ∧ W.length < 2 ^ 31) ∧ nonStubs ≠ []

def MessageArrays.Restorable (m : MessageArrays) : Prop :=
  ∃ before after, m = ⟨some before, some after⟩ ∧ (∀ u ∈ before, Fits32 u) ∧ ∀ u ∈ after, Fits32 u

/-- **The values that the transport formats restore.**  Tables of a destination without best new
neighbours and weights, with rectangular buckets and with best relations and lengths; states of the
deployment process with some ASes and some providers; and utilities that fit in 32 bits. -/
theorem transport_iff (d : MiniDestinationArrays) (globalState : GlobalStateArrays)
    (m : MessageArrays) :
    ((miniDestinationToStream d).bind miniDestinationFromStream = some d ↔ d.Restorable) ∧
    ((globalStateToBlob globalState).bind globalStateFromBlob = some globalState ↔
      globalState.Restorable) ∧
    ((messageToBlob m).bind messageFromBlob = some m ↔ m.Restorable) :=
  ⟨miniDestinationFromStream_miniDestinationToStream d,
    globalStateFromBlob_globalStateToBlob globalState, messageFromBlob_messageToBlob m⟩

/-- None of the three formats restores all values: tables with best new neighbours, a state without
providers, and a utility of 33 bits. -/
theorem not_transport_all :
    (miniDestinationToStream ⟨some [some [none]], some [none], some [none], some [0],
      some [0], none,
        0⟩).bind miniDestinationFromStream ≠
      some ⟨some [some [none]], some [none], some [none], some [0], some [0], none, 0⟩ ∧
    (globalStateToBlob ⟨some [true], some [1], some []⟩).bind globalStateFromBlob ≠
      some ⟨some [true], some [1], some []⟩ ∧
    (messageToBlob ⟨some [2 ^ 31], some [0]⟩).bind messageFromBlob ≠
      some ⟨some [2 ^ 31], some [0]⟩ := by
  refine ⟨fun h => ?_, fun h => ?_, fun h => ?_⟩
  · obtain ⟨_, _, _, _, _, _, heq, -⟩ :=
      (miniDestinationFromStream_miniDestinationToStream _).mp h
    cases heq
  · rw [globalStateToBlob_bind_globalStateFromBlob, if_neg fun h => h.2.2 rfl] at h
    cases h
  · obtain ⟨_, _, heq, hfit, -⟩ := (messageFromBlob_messageToBlob _).mp h
    cases heq
    exact absurd (hfit _ mem_cons_self).2 (by decide)

end Astoria
