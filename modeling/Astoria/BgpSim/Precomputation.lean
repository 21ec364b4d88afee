import Astoria.BgpSim.Server

/-!
# The precomputed records

A reply of the server can be stored in a file, from which another server is started: the records in
the file are put into its cache, and their destinations are initialised.  The file is read line by
line.  A record begins with a line that names its pair and ends with a line with a hyphen; the pair
is taken from the words of the first line, in which colons count as blanks.

`precomputation_iff` says for which requests the server that is started from a reply has the records
of the reply and gives the same one again.
-/

namespace Astoria

open List Option
open Function

/-! ### Reading the file -/

/-- The lines of a file, behind what has been read of the first one.  A line ends with a line feed,
a carriage return or both; an empty last line does not count. -/
def readLines : List Char → List Char → List (List Char)
  | line, [] => if line.isEmpty then [] else [line]
  | line, '\n' :: rest => line :: readLines [] rest
  | line, '\r' :: '\n' :: rest => line :: readLines [] rest
  | line, '\r' :: rest => line :: readLines [] rest
  | line, c :: rest => readLines (line ++ [c]) rest

/-- Read the lines of a record up to its end mark.  The record and the lines behind it are
returned. -/
def readRecord (buf : List Char) : List (List Char) → List Char × List (List Char)
  | [] => (buf, [])
  | line :: rest =>
    if line = "-".toList then (buf ++ line ++ "\n".toList, rest)
    else readRecord (buf ++ line ++ "\n".toList) rest

/-- The words of the first line of a record. -/
def headerWords (line : List Char) : List (List Char) :=
  (line.map fun c => if c = ':' then ' ' else c).splitOn ' '

/-- Put a record into the cache, and initialise its destination.  A key that is in the cache already
is an exception. -/
def addPrecomputed (P : Params) (g : NetworkGraph) (st : ServerState)
    (src dst record : List Char) : Option ServerState :=
  let key := queryKey (src, dst)
  if (st.cache key).isSome then none
  else addDestination P g { st with cache := update st.cache key (some record) } dst

/-- Read records, at most `n` of them. -/
def loadRecords (P : Params) (g : NetworkGraph) :
    ℕ → ServerState → List (List Char) → Option ServerState
  | 0, st, _ => some st
  | _ + 1, st, [] => some st
  | n + 1, st, line :: rest =>
    if line = "<EOFs>".toList then some st
    else do
      let src ← (headerWords line)[2]?
      let dst ← (headerWords line)[4]?
      let (record, rest) := readRecord (line ++ "\n".toList) rest
      let st ← addPrecomputed P g st src dst record
      loadRecords P g n st rest

/-- Load a file.  Every record takes a line at least. -/
def loadPrecomputation (P : Params) (g : NetworkGraph) (st : ServerState) (file : List Char) :
    Option ServerState :=
  loadRecords P g (readLines [] file).length st (readLines [] file)

example : readLines [] "ASes from 2 to 1:\r\n2\n\n-\r<EOFs>".toList =
    ["ASes from 2 to 1:".toList, "2".toList, [], "-".toList, "<EOFs>".toList] := by decide

/-! ### The lines of a reply -/

def pairRecord (pair : List Char × List Char) (ases : List Asn) : List Char :=
  recordHeader pair.1 pair.2 ++ ases.flatMap asnLine ++ "-\n".toList

/-- A text without line ends. -/
def IsLine (text : List Char) : Prop := ∀ c ∈ text, c ≠ '\n' ∧ c ≠ '\r'

/-- A text that the loader takes from a line as it is. -/
def IsPlain (text : List Char) : Prop := ∀ c ∈ text, c ≠ ':' ∧ c ≠ '\n' ∧ c ≠ '\r'

instance (text : List Char) : Decidable (IsLine text) := decidableBAll _ text

instance (text : List Char) : Decidable (IsPlain text) := decidableBAll _ text

section Lines

lemma readLines_append {line : List Char} (h : IsLine line) (start rest : List Char) :
    readLines start (line ++ '\n' :: rest) = (start ++ line) :: readLines [] rest := by
  induction line generalizing start with
  | nil => rw [nil_append, readLines, append_nil]
  | cons c line ih =>
    have hc := h c mem_cons_self
    rw [cons_append, readLines]
    · rw [ih (fun c hc => h c (mem_cons_of_mem _ hc)), append_assoc]
      rfl
    · exact fun heq => hc.1 heq
    · exact fun _ heq _ => hc.2 heq
    · exact fun heq => hc.2 heq

lemma isLine_of_mem_readLines {file start line : List Char} (hstart : IsLine start)
    (h : line ∈ readLines start file) : IsLine line := by
  have hnil : IsLine [] := fun c hc => absurd hc not_mem_nil
  induction start, file using readLines.induct with
  | case1 start hempty =>
    rw [readLines, if_pos hempty] at h
    exact absurd h not_mem_nil
  | case2 start hne =>
    rw [readLines, if_neg hne] at h
    rw [mem_singleton.mp h]
    exact hstart
  | case3 start rest ih =>
    rw [readLines] at h
    rcases mem_cons.mp h with rfl | h
    · exact hstart
    · exact ih hnil h
  | case4 start rest ih =>
    rw [readLines] at h
    rcases mem_cons.mp h with rfl | h
    · exact hstart
    · exact ih hnil h
  | case5 start rest hne ih =>
    rw [readLines] at h
    · rcases mem_cons.mp h with rfl | h
      · exact hstart
      · exact ih hnil h
    · exact hne
  | case6 start c rest h₁ h₂ h₃ ih =>
    rw [readLines] at h
    · refine ih (fun c' hc' => ?_) h
      rcases mem_append.mp hc' with hc' | hc'
      · exact hstart c' hc'
      · rw [mem_singleton.mp hc']
        exact ⟨h₁, h₃⟩
    · exact h₁
    · exact h₂
    · exact h₃

/-- The characters of a word are those of the text, without the separator. -/
lemma of_mem_splitOn {text word : List Char} {sep : Char} (h : word ∈ text.splitOn sep) :
    ∀ c ∈ word, c ∈ text ∧ c ≠ sep := by
  induction text generalizing word with
  | nil =>
    rw [splitOn_nil, mem_singleton] at h
    rw [h]
    exact fun c hc => absurd hc not_mem_nil
  | cons a text ih =>
    obtain ⟨first, words, hwords⟩ := exists_cons_of_ne_nil (splitOn_ne_nil sep text)
    rw [hwords] at ih
    rw [splitOn_cons_eq_if_modifyHead, hwords] at h
    split_ifs at h with hsep
    · rcases mem_cons.mp h with rfl | h
      · exact fun c hc => absurd hc not_mem_nil
      · exact fun c hc => ⟨mem_cons_of_mem a (ih h c hc).1, (ih h c hc).2⟩
    · rw [modifyHead_cons] at h
      rcases mem_cons.mp h with rfl | h
      · intro c hc
        rcases mem_cons.mp hc with rfl | hc
        · exact ⟨mem_cons_self, fun heq => hsep (beq_iff_eq.mpr heq)⟩
        · obtain ⟨hmem, hne⟩ := ih mem_cons_self c hc
          exact ⟨mem_cons_of_mem a hmem, hne⟩
      · exact fun c hc => ⟨mem_cons_of_mem a (ih (mem_cons_of_mem _ h) c hc).1,
          (ih (mem_cons_of_mem _ h) c hc).2⟩

lemma isPlain_headerWords {line word : List Char} (h : IsLine line)
    (hword : word ∈ headerWords line) :
    IsPlain word := by
  intro c hc
  obtain ⟨hmem, hne⟩ := of_mem_splitOn hword c hc
  obtain ⟨c', hc', rfl⟩ := mem_map.mp hmem
  split_ifs at hne ⊢ with hcolon
  · exact absurd rfl hne
  · exact ⟨hcolon, h c' hc'⟩

/-- The first line of a record without its line end. -/
def headerLine (pair : List Char × List Char) : List Char :=
  "ASes from ".toList ++ pair.1 ++ " to ".toList ++ pair.2 ++ ":".toList

variable {pair : List Char × List Char}

/-- A pair has a plain key if both texts are plain. -/
lemma isPlain_queryKey : IsPlain (queryKey pair) ↔ IsPlain pair.1 ∧ IsPlain pair.2 := by
  unfold IsPlain queryKey
  constructor
  · intro h
    exact ⟨fun c hc => h c (mem_append_left _ (mem_append_left _ hc)),
      fun c hc => h c (mem_append_right _ hc)⟩
  · rintro ⟨h₁, h₂⟩ c hc
    rcases mem_append.mp hc with hc | hc
    · rcases mem_append.mp hc with hc | hc
      · exact h₁ c hc
      · rw [mem_singleton.mp hc]
        decide
    · exact h₂ c hc

/-- The words of the first line of a record are those of its pair. -/
lemma headerWords_headerLine (h₁ : ' ' ∉ pair.1) (h₂ : ' ' ∉ pair.2)
    (hplain : IsPlain (queryKey pair)) :
    headerWords (headerLine pair) =
      ["ASes".toList, "from".toList, pair.1, "to".toList, pair.2, []] := by
  obtain ⟨hplain₁, hplain₂⟩ := isPlain_queryKey.mp hplain
  have hmap : ∀ text : List Char, IsPlain text →
      text.map (fun c => if c = ':' then ' ' else c) = text := by
    intro text htext
    exact (map_congr_left fun c hc => if_neg (htext c hc).1).trans (List.map_id' text)
  have hline : (headerLine pair).map (fun c => if c = ':' then ' ' else c) =
      "ASes".toList ++ ' ' :: ("from".toList ++ ' ' :: (pair.1 ++ ' ' ::
        ("to".toList ++ ' ' :: (pair.2 ++ ' ' :: [])))) := by
    unfold headerLine
    simp only [map_append, hmap pair.1 hplain₁, hmap pair.2 hplain₂]
    simp
  unfold headerWords
  rw [hline, splitOn_append_cons_self_of_not_mem (by decide),
    splitOn_append_cons_self_of_not_mem (by decide),
    splitOn_append_cons_self_of_not_mem h₁,
    splitOn_append_cons_self_of_not_mem (by decide),
    splitOn_append_cons_self_of_not_mem h₂, splitOn_nil]

def pairRecordLines (pair : List Char × List Char) (ases : List Asn) : List (List Char) :=
  headerLine pair :: (ases.map (Nat.toDigits 10) ++ ["-".toList])

lemma isLine_toDigits (n : ℕ) : IsLine (Nat.toDigits 10 n) := by
  intro c hc
  have hdigit := isDigit_of_mem_toDigits hc
  constructor
  · rintro rfl
    exact absurd hdigit (by decide)
  · rintro rfl
    exact absurd hdigit (by decide)

lemma pairRecord_eq (pair : List Char × List Char) (ases : List Asn) :
    pairRecord pair ases =
      headerLine pair ++ ['\n'] ++ ases.flatMap asnLine ++ ("-".toList ++ ['\n']) := by
  have hcolon : ":\n".toList = ":".toList ++ ['\n'] := by decide
  have hdash : "-\n".toList = "-".toList ++ ['\n'] := by decide
  unfold pairRecord recordHeader headerLine
  rw [hcolon, hdash]
  simp only [append_assoc]

lemma readLines_pairRecord (hplain : IsPlain (queryKey pair)) (ases : List Asn) (rest : List Char) :
    readLines [] (pairRecord pair ases ++ rest) = pairRecordLines pair ases ++ readLines
      [] rest := by
  obtain ⟨hplain₁, hplain₂⟩ := isPlain_queryKey.mp hplain
  have hheader : IsLine (headerLine pair) := by
    intro c hc
    unfold headerLine at hc
    simp only [mem_append] at hc
    rcases hc with (((hc | hc) | hc) | hc) | hc
    · exact (by decide : IsLine "ASes from ".toList) c hc
    · exact (hplain₁ c hc).2
    · exact (by decide : IsLine " to ".toList) c hc
    · exact (hplain₂ c hc).2
    · exact (by decide : IsLine ":".toList) c hc
  have hases : ∀ (ases : List Asn) (rest : List Char),
      readLines [] (ases.flatMap asnLine ++ rest) =
        ases.map (Nat.toDigits 10) ++ readLines [] rest := by
    intro ases rest
    induction ases with
    | nil => rfl
    | cons asn ases ih =>
      rw [flatMap_cons, asnLine, append_assoc, append_assoc, singleton_append,
        readLines_append (isLine_toDigits asn), ih]
      rfl
  have htext : pairRecord pair ases ++ rest = headerLine pair ++ '\n' ::
      (ases.flatMap asnLine ++ ("-".toList ++ '\n' :: rest)) := by
    rw [pairRecord_eq]
    simp only [append_assoc, cons_append, nil_append]
  have hdash : IsLine "-".toList := by decide
  rw [htext, readLines_append hheader, hases, readLines_append hdash, pairRecordLines, cons_append,
    append_assoc]
  rfl

/-- **A record is read** up to its end. -/
lemma readRecord_pairRecordLines (pair : List Char × List Char) (ases : List Asn)
    (rest : List (List Char)) :
    readRecord (headerLine pair ++ "\n".toList)
        (ases.map (Nat.toDigits 10) ++ (["-".toList] ++ rest)) = (pairRecord pair ases, rest) := by
  have hnewline : "\n".toList = ['\n'] := by decide
  have hases : ∀ (ases : List Asn) (buf : List Char),
      readRecord buf (ases.map (Nat.toDigits 10) ++ (["-".toList] ++ rest)) =
        (buf ++ ases.flatMap asnLine ++ ("-".toList ++ ['\n']), rest) := by
    intro ases
    induction ases with
    | nil =>
      intro buf
      rw [map_nil, nil_append, singleton_append, readRecord, if_pos rfl, hnewline,
        flatMap_nil, append_nil, append_assoc]
    | cons asn ases ih =>
      intro buf
      have hne : Nat.toDigits 10 asn ≠ "-".toList := by
        intro heq
        have hdigit := isDigit_of_mem_toDigits (n := asn) (c := '-') (by rw [heq]; decide)
        exact absurd hdigit (by decide)
      rw [map_cons, cons_append, readRecord, if_neg hne, ih, hnewline, flatMap_cons,
        asnLine]
      simp only [append_assoc]
  rw [hases, pairRecord_eq, hnewline]

end Lines

/-! ### Loading the records of a reply -/

/-- Texts without blanks, as they are in a request. -/
def IsPairOfWords (pair : List Char × List Char) : Prop := ' ' ∉ pair.1 ∧ ' ' ∉ pair.2

/-- Load the record of a pair. -/
def loadEntry (P : Params) (g : NetworkGraph) (st : ServerState)
    (entry : (List Char × List Char) × List Asn) : Option ServerState :=
  addPrecomputed P g st entry.1.1 entry.1.2 (pairRecord entry.1 entry.2)

section Loading

variable {P : Params} {g : NetworkGraph} {st loaded : ServerState}
  {entries : List ((List Char × List Char) × List Asn)}

lemma loadRecords_pairRecord {pair : List Char × List Char} (hwords : IsPairOfWords pair)
    (hplain : IsPlain (queryKey pair)) (ases : List Asn) (rest : List Char) (n : ℕ) :
    loadRecords P g (n + 1) st (readLines [] (pairRecord pair ases ++ rest)) =
      (loadEntry P g st (pair, ases)).bind fun st => loadRecords P g n st (readLines [] rest) := by
  have hne : headerLine pair ≠ "<EOFs>".toList := by
    unfold headerLine
    intro heq
    have hhead := congrArg head? heq
    simp at hhead
  have hrecord := readRecord_pairRecordLines pair ases (readLines [] rest)
  rw [readLines_pairRecord hplain, pairRecordLines, cons_append, append_assoc, loadRecords,
    if_neg hne, headerWords_headerLine hwords.1 hwords.2 hplain, hrecord]
  rfl

/-- **The records of a file** are loaded one after another. -/
lemma loadRecords_entries (h : ∀ e ∈ entries, IsPairOfWords e.1 ∧ IsPlain (queryKey e.1)) {n : ℕ}
    (hn : entries.length ≤ n) :
    loadRecords P g n st
        (readLines [] ((entries.flatMap fun e => pairRecord e.1 e.2) ++ "<EOFs>".toList)) =
      entries.foldlM (loadEntry P g) st := by
  induction entries generalizing st n with
  | nil =>
    have hend : readLines [] "<EOFs>".toList = ["<EOFs>".toList] := by decide
    rw [flatMap_nil, nil_append, hend]
    cases n with
    | zero => rfl
    | succ n =>
      rw [loadRecords, if_pos rfl]
      rfl
  | cons e entries ih =>
    obtain ⟨hwords, hplain⟩ := h e mem_cons_self
    rw [length_cons] at hn
    obtain ⟨n, rfl⟩ := Nat.exists_eq_succ_of_ne_zero (show n ≠ 0 by omega)
    rw [flatMap_cons, append_assoc, Nat.succ_eq_add_one,
      loadRecords_pairRecord hwords hplain, foldlM_cons]
    congr 1
    funext st
    exact ih (fun e he => h e (mem_cons_of_mem _ he)) (by omega)

/-- A reply is loaded record by record. -/
lemma loadPrecomputation_entries (h : ∀ e ∈ entries, IsPairOfWords e.1 ∧ IsPlain (queryKey e.1)) :
    loadPrecomputation P g st
        ((entries.flatMap fun e => pairRecord e.1 e.2) ++ "<EOFs>".toList) =
      entries.foldlM (loadEntry P g) st := by
  refine loadRecords_entries h ?_
  induction entries with
  | nil => exact Nat.zero_le _
  | cons e entries ih =>
    have hlen := ih fun e he => h e (mem_cons_of_mem _ he)
    rw [flatMap_cons, append_assoc, readLines_pairRecord (h e mem_cons_self).2,
      pairRecordLines, length_append, length_cons, length_cons]
    omega

/-- One record, loaded. -/
lemma loadEntry_eq_some {e : (List Char × List Char) × List Asn} (hi : Initialised P g st)
    (h : loadEntry P g st e = some loaded) :
    st.cache (queryKey e.1) = none ∧ initDestination P g e.1.2 ≠ none ∧ Initialised P g loaded ∧
      loaded.cache = update st.cache (queryKey e.1) (some (pairRecord e.1 e.2)) := by
  unfold loadEntry addPrecomputed at h
  dsimp only at h
  split_ifs at h with hkey
  have hi' : Initialised P g
      { st with cache := update st.cache (queryKey e.1) (some (pairRecord e.1 e.2)) } :=
    ⟨hi.init, hi.met, hi.other⟩
  rcases hi'.addDestination e.1.2 with ⟨st', hst', hok, hcache, hmem⟩ | ⟨hnone, -⟩
  · obtain rfl := some.inj (h.symm.trans hst')
    exact ⟨not_isSome_iff_eq_none.mp hkey, hok.init _ ((hmem _).mpr (.inr rfl)), hok, hcache⟩
  · exact absurd (h.symm.trans hnone) (by simp)

lemma exists_loadEntry {e : (List Char × List Char) × List Asn} (hi : Initialised P g st)
    (hkey : st.cache (queryKey e.1) = none) (hinit : initDestination P g e.1.2 ≠ none) :
    ∃ loaded, loadEntry P g st e = some loaded := by
  have hi' : Initialised P g
      { st with cache := update st.cache (queryKey e.1) (some (pairRecord e.1 e.2)) } :=
    ⟨hi.init, hi.met, hi.other⟩
  rcases hi'.addDestination e.1.2 with ⟨st', hst', -⟩ | ⟨-, hnone⟩
  · refine ⟨st', ?_⟩
    unfold loadEntry addPrecomputed
    dsimp only
    rw [if_neg (by rw [show (e.1.1, e.1.2) = e.1 from rfl, hkey]; simp)]
    exact hst'
  · exact absurd hnone hinit

/-- **Records that are loaded** have different keys, and their destinations can be initialised. -/
lemma foldlM_loadEntry_eq_some (hi : Initialised P g st)
    (h : entries.foldlM (loadEntry P g) st = some loaded) :
    (entries.map fun e => queryKey e.1).Nodup ∧ (∀ e ∈ entries, st.cache (queryKey e.1) = none) ∧
      ∀ e ∈ entries, initDestination P g e.1.2 ≠ none := by
  induction entries generalizing st with
  | nil =>
    exact ⟨nodup_nil, fun e he => absurd he not_mem_nil,
      fun e he => absurd he not_mem_nil⟩
  | cons e entries ih =>
    rw [foldlM_cons] at h
    obtain ⟨st₁, hst₁, h⟩ := bind_eq_some_iff.mp h
    obtain ⟨hkey, hinit, hi₁, hcache⟩ := loadEntry_eq_some hi hst₁
    obtain ⟨hnodup, hnone, hinits⟩ := ih hi₁ h
    have hother : ∀ e' ∈ entries, queryKey e'.1 ≠ queryKey e.1 := by
      intro e' he' heq
      have := hnone e' he'
      rw [hcache, heq, update_self] at this
      exact absurd this (by simp)
    refine ⟨?_, fun e' he' => ?_, fun e' he' => ?_⟩
    · rw [map_cons, nodup_cons]
      refine ⟨fun hmem => ?_, hnodup⟩
      obtain ⟨e', he', heq⟩ := mem_map.mp hmem
      exact hother e' he' heq
    · rcases mem_cons.mp he' with rfl | he'
      · exact hkey
      · have := hnone e' he'
        rwa [hcache, update_of_ne (hother e' he')] at this
    · rcases mem_cons.mp he' with rfl | he'
      · exact hinit
      · exact hinits e' he'

/-- **Records can be loaded** if they have different keys and their destinations can be
initialised. -/
lemma exists_foldlM_loadEntry (hi : Initialised P g st)
    (hnodup : (entries.map fun e => queryKey e.1).Nodup)
    (hnone : ∀ e ∈ entries, st.cache (queryKey e.1) = none)
    (hinit : ∀ e ∈ entries, initDestination P g e.1.2 ≠ none) :
    ∃ loaded, entries.foldlM (loadEntry P g) st = some loaded ∧ Initialised P g loaded ∧
      (∀ e ∈ entries, loaded.cache (queryKey e.1) = some (pairRecord e.1 e.2)) ∧
      ∀ key, key ∉ entries.map (fun e => queryKey e.1) → loaded.cache key = st.cache key := by
  induction entries generalizing st with
  | nil => exact ⟨st, rfl, hi, fun e he => absurd he not_mem_nil, fun _ _ => rfl⟩
  | cons e entries ih =>
    rw [map_cons, nodup_cons] at hnodup
    obtain ⟨st₁, hst₁⟩ :=
      exists_loadEntry hi (hnone e mem_cons_self) (hinit e mem_cons_self)
    obtain ⟨-, -, hi₁, hcache⟩ := loadEntry_eq_some hi hst₁
    obtain ⟨loaded, hload, hok, hrecords, hframe⟩ := ih hi₁ hnodup.2
      (fun e' he' => by
        have hne : queryKey e'.1 ≠ queryKey e.1 :=
          fun heq => hnodup.1 (mem_map.mpr ⟨e', he', heq⟩)
        rw [hcache, update_of_ne hne]
        exact hnone e' (mem_cons_of_mem _ he'))
      fun e' he' => hinit e' (mem_cons_of_mem _ he')
    refine ⟨loaded, ?_, hok, fun e' he' => ?_, fun key hkey => ?_⟩
    · rw [foldlM_cons, hst₁]
      exact hload
    · rcases mem_cons.mp he' with rfl | he'
      · rw [hframe _ hnodup.1, hcache, update_self]
      · exact hrecords e' he'
    · rw [map_cons, mem_cons, not_or] at hkey
      rw [hframe key hkey.2, hcache, update_of_ne hkey.1]

lemma cache_of_addDestination {dest : List Char} (h : addDestination P g st dest = some loaded) :
    loaded.cache = st.cache := by
  unfold addDestination at h
  split_ifs at h
  · obtain rfl := some.inj h
    rfl
  · obtain ⟨newD, -, rfl⟩ := map_eq_some_iff.mp h
    rfl

/-- The lines behind a record are lines of the file. -/
lemma mem_of_mem_readRecord {lines : List (List Char)} {buf line : List Char}
    (h : line ∈ (readRecord buf lines).2) : line ∈ lines := by
  induction lines generalizing buf with
  | nil => exact absurd h not_mem_nil
  | cons first lines ih =>
    rw [readRecord] at h
    split_ifs at h with hend
    · exact mem_cons_of_mem _ h
    · exact mem_cons_of_mem _ (ih h)

/-- **The keys of a file** are plain. -/
lemma isPlain_of_loadRecords {n : ℕ} {lines : List (List Char)}
    (hlines : ∀ line ∈ lines, IsLine line) (h : loadRecords P g n st lines = some loaded)
    {key : List Char} (hkey : loaded.cache key ≠ none) : st.cache key ≠ none ∨ IsPlain key := by
  induction n generalizing st lines with
  | zero =>
    obtain rfl := some.inj h
    exact .inl hkey
  | succ n ih =>
    cases lines with
    | nil =>
      obtain rfl := some.inj h
      exact .inl hkey
    | cons line rest =>
      rw [loadRecords] at h
      split_ifs at h with hend
      · obtain rfl := some.inj h
        exact .inl hkey
      obtain ⟨src, hsrc, h⟩ := bind_eq_some_iff.mp h
      obtain ⟨dst, hdst, h⟩ := bind_eq_some_iff.mp h
      obtain ⟨st₁, hst₁, h⟩ := bind_eq_some_iff.mp h
      have hline := hlines line mem_cons_self
      rcases ih (fun l hl => hlines l (mem_cons_of_mem _ (mem_of_mem_readRecord hl))) h with
        hold | hplain
      · unfold addPrecomputed at hst₁
        dsimp only at hst₁
        split_ifs at hst₁ with hdup
        have hcache := cache_of_addDestination hst₁
        rw [hcache] at hold
        by_cases hk : key = queryKey (src, dst)
        · rw [hk]
          exact .inr (isPlain_queryKey.mpr
            ⟨isPlain_headerWords hline (mem_of_getElem? hsrc),
              isPlain_headerWords hline (mem_of_getElem? hdst)⟩)
        · dsimp only at hold
          rw [update_of_ne hk] at hold
          exact .inl hold
      · exact .inr hplain

end Loading

/-! ### The records of a server -/

/-- The records in the cache are those of the pairs that were the first ones with their keys. -/
structure CachesFirst (asked : List (List Char × List Char)) (st : ServerState) : Prop where
  of_none : ∀ key, asked.find? (fun pair => queryKey pair = key) = none → st.cache key = none
  of_some : ∀ key pair, asked.find? (fun pair => queryKey pair = key) = some pair →
    ∃ ases, st.cache key = some (pairRecord pair ases)

section Server

variable {P : Params} {g : NetworkGraph} {st st' : ServerState}
  {asked : List (List Char × List Char)} {pair : List Char × List Char}

lemma cachesFirst_fresh : CachesFirst [] ServerState.fresh where
  of_none _ _ := rfl
  of_some _ _ h := absurd h (by simp)

lemma CachesFirst.again (h : CachesFirst asked st)
    (hkey : st.cache (queryKey pair) ≠ none) : CachesFirst (asked ++ [pair]) st := by
  refine ⟨fun key hnone => ?_, fun key first hfirst => ?_⟩
  · rw [find?_append, or_eq_none_iff] at hnone
    exact h.of_none key hnone.1
  · rw [find?_append] at hfirst
    rcases hold : asked.find? (fun pair => queryKey pair = key) with _ | first'
    · rw [hold, none_or, find?_singleton] at hfirst
      split_ifs at hfirst with heq
      have hnone := h.of_none key hold
      rw [← of_decide_eq_true heq] at hnone
      exact absurd hnone hkey
    · rw [hold, some_or] at hfirst
      obtain rfl := some.inj hfirst
      exact h.of_some key first' hold

/-- A pair is asked whose key is new. -/
lemma CachesFirst.first (h : CachesFirst asked st)
    (hkey : st.cache (queryKey pair) = none) (ases : List Asn) :
    CachesFirst (asked ++ [pair]) { st with
      cache := update st.cache (queryKey pair) (some (pairRecord pair ases)) } := by
  have hnew : asked.find? (fun p => queryKey p = queryKey pair) = none := by
    by_contra hne
    obtain ⟨first, hfirst⟩ := ne_none_iff_exists'.mp hne
    obtain ⟨ases', hases⟩ := h.of_some _ first hfirst
    rw [hkey] at hases
    exact absurd hases (by simp)
  refine ⟨fun key hnone => ?_, fun key first hfirst => ?_⟩
  · rw [find?_append, or_eq_none_iff, find?_singleton] at hnone
    have hne : key ≠ queryKey pair := by
      rintro rfl
      exact absurd hnone.2 (by simp)
    dsimp only
    rw [update_of_ne hne]
    exact h.of_none key hnone.1
  · by_cases heq : key = queryKey pair
    · subst heq
      rw [find?_append, hnew, none_or, find?_singleton, if_pos (decide_eq_true rfl)]
        at hfirst
      obtain rfl := some.inj hfirst
      exact ⟨ases, update_self _ _ _⟩
    · rw [find?_append, find?_singleton, if_neg (by simpa using Ne.symm heq),
        or_none] at hfirst
      dsimp only
      rw [update_of_ne heq]
      exact h.of_some key first hfirst

/-- **One pair** is answered with the record in the cache. -/
lemma CachesFirst.answerQuery (h : CachesFirst asked st)
    {res res' : List Char} (hanswer : answerQuery (st, res) pair = some (st', res')) :
    CachesFirst (asked ++ [pair]) st' ∧ st'.dests = st.dests ∧ st'.d = st.d ∧
      (∀ key record, st.cache key = some record → st'.cache key = some record) ∧
      ∃ record, st'.cache (queryKey pair) = some record ∧ res' = res ++ record := by
  unfold Astoria.answerQuery at hanswer
  dsimp only at hanswer
  rcases hcache : st.cache (queryKey pair) with _ | record
  · rw [hcache] at hanswer
    obtain ⟨record, hrecord, heq⟩ := map_eq_some_iff.mp hanswer
    obtain ⟨rfl, rfl⟩ := Prod.mk.inj heq
    obtain ⟨ases, -, rfl⟩ := map_eq_some_iff.mp hrecord
    refine ⟨h.first hcache ases, rfl, rfl, fun key record hold => ?_,
      pairRecord pair ases, update_self _ _ _, rfl⟩
    have hne : key ≠ queryKey pair := by
      rintro rfl
      rw [hcache] at hold
      exact absurd hold (by simp)
    dsimp only
    rwa [update_of_ne hne]
  · rw [hcache] at hanswer
    obtain ⟨rfl, rfl⟩ := Prod.mk.inj (some.inj hanswer)
    exact ⟨h.again (by rw [hcache]; simp), rfl, rfl, fun _ _ hold => hold, record, hcache, rfl⟩

/-- The records of pairs, one after another, as they are in the cache. -/
def cachedRecords (st : ServerState) (pairs : List (List Char × List Char)) : List Char :=
  pairs.flatMap fun pair => (st.cache (queryKey pair)).getD []

variable {pairs : List (List Char × List Char)} {data : List Char}

/-- **The pairs of a request** are answered with the records in the cache. -/
lemma CachesFirst.foldlM_answerQuery (h : CachesFirst asked st) {res res' : List Char}
    (hanswer : pairs.foldlM Astoria.answerQuery (st, res) = some (st', res')) :
    CachesFirst (asked ++ pairs) st' ∧ st'.dests = st.dests ∧ st'.d = st.d ∧
      (∀ key record, st.cache key = some record → st'.cache key = some record) ∧
      (∀ pair ∈ pairs, st'.cache (queryKey pair) ≠ none) ∧
      res' = res ++ cachedRecords st' pairs := by
  induction pairs generalizing st asked res with
  | nil =>
    obtain ⟨rfl, rfl⟩ := Prod.mk.inj (some.inj hanswer)
    rw [append_nil]
    exact ⟨h, rfl, rfl, fun _ _ hold => hold, fun pair hpair => absurd hpair not_mem_nil,
      (append_nil _).symm⟩
  | cons pair pairs ih =>
    rw [foldlM_cons] at hanswer
    obtain ⟨⟨st₁, res₁⟩, hst₁, hanswer⟩ := bind_eq_some_iff.mp hanswer
    obtain ⟨h₁, hdests₁, hd₁, hmono₁, record, hrecord, rfl⟩ := h.answerQuery hst₁
    obtain ⟨hfirst, hdests, hd, hmono, hsome, rfl⟩ := ih h₁ hanswer
    have hkept := hmono _ record hrecord
    refine ⟨by rwa [append_assoc] at hfirst, hdests.trans hdests₁, hd.trans hd₁,
      fun key r hold => hmono key r (hmono₁ key r hold), fun p hp => ?_, ?_⟩
    · rcases mem_cons.mp hp with rfl | hp
      · rw [hkept]
        exact some_ne_none record
      · exact hsome p hp
    · unfold cachedRecords
      rw [flatMap_cons, hkept, getD_some, append_assoc]

/-- Initialising destinations leaves the cache alone. -/
lemma cache_of_foldlM_addDestination {dests : List (List Char)}
    (h : dests.foldlM (addDestination P g) st = some st') : st'.cache = st.cache := by
  induction dests generalizing st with
  | nil =>
    obtain rfl := some.inj h
    rfl
  | cons dest dests ih =>
    rw [foldlM_cons] at h
    obtain ⟨st₁, hst₁, h⟩ := bind_eq_some_iff.mp h
    rw [ih h, cache_of_addDestination hst₁]

/-- **A request** is answered with the records in the cache. -/
lemma CachesFirst.serve (h : CachesFirst asked st) (hi : Initialised P g st)
    {reply : List Char} (hserve : serve P g st data = some (st', reply)) :
    CachesFirst (asked ++ requestPairs data) st' ∧ Initialised P g st' ∧
      (∀ dest ∈ requestDests data, initDestination P g dest ≠ none) ∧
      (∀ pair ∈ requestPairs data, st'.cache (queryKey pair) ≠ none) ∧
      reply = cachedRecords st' (requestPairs data) ++ "<EOFs>".toList := by
  unfold Astoria.serve at hserve
  obtain ⟨st₁, hst₁, hserve⟩ := bind_eq_some_iff.mp hserve
  obtain ⟨⟨st₂, res⟩, hst₂, heq⟩ := map_eq_some_iff.mp hserve
  obtain ⟨rfl, rfl⟩ := Prod.mk.inj heq
  have hcache := cache_of_foldlM_addDestination hst₁
  have h₁ : CachesFirst asked st₁ :=
    ⟨fun key hnone => by rw [hcache]; exact h.of_none key hnone,
      fun key pair hsome => by rw [hcache]; exact h.of_some key pair hsome⟩
  rcases hi.foldlM_addDestination (requestDests data) with ⟨st₁', hst₁', hi₁, -, hmem⟩ | ⟨hnone, -⟩
  · obtain rfl := some.inj (hst₁.symm.trans hst₁')
    obtain ⟨hfirst, hdests, hd, -, hsome, rfl⟩ := h₁.foldlM_answerQuery hst₂
    refine ⟨hfirst, ⟨?_, ?_, ?_⟩, fun dest hdest => hi₁.init dest ((hmem dest).mpr (.inr hdest)),
      hsome, by rw [nil_append]⟩
    · rw [hdests]
      exact hi₁.init
    · rw [hdests, hd]
      exact hi₁.met
    · rw [hdests, hd]
      exact hi₁.other
  · rw [hst₁] at hnone
    exact absurd hnone (by simp)

/-- **All requests** before. -/
lemma CachesFirst.serveAll (h : CachesFirst asked st) (hi : Initialised P g st)
    {history : List (List Char)} (hrun : serveAll P g st history = some st') :
    CachesFirst (asked ++ history.flatMap requestPairs) st' ∧ Initialised P g st' := by
  induction history generalizing st asked with
  | nil =>
    obtain rfl := some.inj hrun
    rw [flatMap_nil, append_nil]
    exact ⟨h, hi⟩
  | cons data history ih =>
    rw [Astoria.serveAll, foldlM_cons] at hrun
    obtain ⟨st₁, hst₁, hrun⟩ := bind_eq_some_iff.mp hrun
    obtain ⟨⟨st₁', reply⟩, hserve, rfl⟩ := map_eq_some_iff.mp hst₁
    obtain ⟨h₁, hi₁, -⟩ := h.serve hi hserve
    obtain ⟨hfirst, hok⟩ := ih h₁ hi₁ hrun
    rw [append_assoc] at hfirst
    exact ⟨hfirst, hok⟩

lemma foldlM_answerQuery_of_cached (h : ∀ pair ∈ pairs, st.cache (queryKey pair) ≠ none)
    (res : List Char) :
    pairs.foldlM Astoria.answerQuery (st, res) = some (st, res ++ cachedRecords st pairs) := by
  induction pairs generalizing res with
  | nil => exact congrArg (fun r => some (st, r)) (append_nil res).symm
  | cons pair pairs ih =>
    obtain ⟨record, hrecord⟩ := ne_none_iff_exists'.mp (h pair mem_cons_self)
    have hanswer : Astoria.answerQuery (st, res) pair = some (st, res ++ record) := by
      unfold Astoria.answerQuery
      rw [hrecord]
    rw [foldlM_cons, hanswer, bind_eq_bind, bind_some,
      ih (fun p hp => h p (mem_cons_of_mem _ hp))]
    unfold cachedRecords
    rw [flatMap_cons, hrecord, getD_some, append_assoc]

lemma serve_of_cached (hi : Initialised P g st)
    (hinit : ∀ dest ∈ requestDests data, initDestination P g dest ≠ none)
    (hcached : ∀ pair ∈ requestPairs data, st.cache (queryKey pair) ≠ none) :
    (serve P g st data).map Prod.snd =
      some (cachedRecords st (requestPairs data) ++ "<EOFs>".toList) := by
  unfold serve
  rcases hi.foldlM_addDestination (requestDests data) with
    ⟨st₁, hst₁, -, hcache, -⟩ | ⟨-, dest, hdest, hnone⟩
  · have hcached₁ : ∀ pair ∈ requestPairs data, st₁.cache (queryKey pair) ≠ none := by
      rw [hcache]
      exact hcached
    rw [hst₁, bind_some, foldlM_answerQuery_of_cached hcached₁]
    unfold cachedRecords
    rw [hcache]
    rfl
  · exact absurd hnone (hinit dest hdest)

/-- The texts of the pairs are texts of the request. -/
lemma mem_of_mem_queryPairs {args : List (List Char)}
    (h : pair ∈ queryPairs args) : pair.1 ∈ args ∧ pair.2 ∈ args := by
  induction args using queryPairs.induct with
  | case1 dst rest =>
    rw [queryPairs, if_pos rfl] at h
    exact absurd h not_mem_nil
  | case2 src dst rest hne ih =>
    rw [queryPairs, if_neg hne] at h
    rcases mem_cons.mp h with rfl | h
    · exact ⟨mem_cons_self, mem_cons_of_mem _ mem_cons_self⟩
    · exact ⟨mem_cons_of_mem _ (mem_cons_of_mem _ (ih h).1),
        mem_cons_of_mem _ (mem_cons_of_mem _ (ih h).2)⟩
  | case3 args hshort =>
    rw [queryPairs] at h
    · exact absurd h not_mem_nil
    · exact hshort

lemma isPairOfWords_of_mem (h : pair ∈ requestPairs data) : IsPairOfWords pair := by
  obtain ⟨h₁, h₂⟩ := mem_of_mem_queryPairs h
  exact ⟨fun hc => (of_mem_splitOn (mem_of_mem_drop h₁) _ hc).2 rfl,
    fun hc => (of_mem_splitOn (mem_of_mem_drop h₂) _ hc).2 rfl⟩

lemma cachedRecords_congr
    (h : ∀ pair ∈ pairs, st.cache (queryKey pair) = st'.cache (queryKey pair)) :
    cachedRecords st pairs = cachedRecords st' pairs :=
  flatMap_congr fun pair hpair => by rw [h pair hpair]

/-- The first pair with the key of a pair, and the ASes in its record. -/
lemma CachesFirst.exists_entry (h : CachesFirst asked st)
    (hcached : st.cache (queryKey pair) ≠ none) :
    ∃ e : (List Char × List Char) × List Asn,
      asked.find? (fun p => queryKey p = queryKey pair) = some e.1 ∧
      queryKey e.1 = queryKey pair ∧ st.cache (queryKey pair) = some (pairRecord e.1 e.2) := by
  rcases hfind : asked.find? (fun p => queryKey p = queryKey pair) with _ | first
  · exact absurd (h.of_none _ hfind) hcached
  · obtain ⟨ases, hases⟩ := h.of_some _ first hfind
    have hkey := find?_some hfind
    exact ⟨(first, ases), rfl, of_decide_eq_true hkey, hases⟩

/-- What the loader does with the reply to a request. -/
structure Reloads (P : Params) (g : NetworkGraph) (st' : ServerState) (request reply : List Char)
    (loaded : ServerState) : Prop where
  /-- Every pair has the record that it had. -/
  cache_eq : ∀ pair ∈ requestPairs request,
    loaded.cache (queryKey pair) = st'.cache (queryKey pair)
  serve_eq : (serve P g loaded request).map Prod.snd = some reply

/-- **The precomputed records are those of the reply**, if the pairs of the request have different
keys without colons and line ends, and the destinations in the records can be initialised. -/
theorem precomputation_iff (P : Params) (g : NetworkGraph) (history : List (List Char))
    (request reply : List Char) (st st' : ServerState)
    (hrun : serveAll P g ServerState.fresh history = some st)
    (hserve : serve P g st request = some (st', reply)) :
    (∃ loaded, loadPrecomputation P g ServerState.fresh reply = some loaded ∧
      Reloads P g st' request reply loaded) ↔
    ((requestPairs request).map queryKey).Nodup ∧
      (∀ pair ∈ requestPairs request, IsPlain (queryKey pair)) ∧
      ∀ pair ∈ requestPairs request, ∀ first,
        ((history ++ [request]).flatMap requestPairs).find? (fun p => queryKey p = queryKey pair) =
          some first →
        initDestination P g first.2 ≠ none := by
  obtain ⟨hfirst₀, hi₀⟩ := cachesFirst_fresh.serveAll initialised_fresh hrun
  obtain ⟨hfirst, hi, hinit, hcached, hreply⟩ := hfirst₀.serve hi₀ hserve
  have hasked : [] ++ history.flatMap requestPairs ++ requestPairs request =
      (history ++ [request]).flatMap requestPairs := by
    rw [flatMap_append, flatMap_singleton, nil_append]
  rw [hasked] at hfirst
  choose! f hfind hkey hrecord using fun pair hpair => hfirst.exists_entry (hcached pair hpair)
  have hkeys : ((requestPairs request).map f).map (fun e => queryKey e.1) =
      (requestPairs request).map queryKey := by
    rw [List.map_map]
    exact map_congr_left hkey
  have htext : reply =
      (((requestPairs request).map f).flatMap fun e => pairRecord e.1 e.2) ++ "<EOFs>".toList := by
    rw [hreply, flatMap_map]
    congr 1
    exact flatMap_congr fun pair hpair => by rw [hrecord pair hpair, getD_some]
  have hwords : ∀ pair ∈ requestPairs request, IsPairOfWords (f pair).1 := by
    intro pair hpair
    obtain ⟨data, -, hdata⟩ := mem_flatMap.mp (mem_of_find?_eq_some (hfind pair hpair))
    exact isPairOfWords_of_mem hdata
  have hload : (∀ pair ∈ requestPairs request, IsPlain (queryKey pair)) →
      loadPrecomputation P g ServerState.fresh reply =
        ((requestPairs request).map f).foldlM (loadEntry P g) ServerState.fresh := by
    intro hplain
    rw [htext]
    refine loadPrecomputation_entries fun e he => ?_
    obtain ⟨pair, hpair, rfl⟩ := List.mem_map.mp he
    exact ⟨hwords pair hpair, by rw [hkey pair hpair]; exact hplain pair hpair⟩
  constructor
  · rintro ⟨loaded, hloaded, hreloads⟩
    have hplain : ∀ pair ∈ requestPairs request, IsPlain (queryKey pair) := by
      intro pair hpair
      have hne : loaded.cache (queryKey pair) ≠ none := by
        rw [hreloads.cache_eq pair hpair]
        exact hcached pair hpair
      have hlines : ∀ line ∈ readLines [] reply, IsLine line :=
        fun line hline => isLine_of_mem_readLines (fun c hc => absurd hc not_mem_nil) hline
      rcases isPlain_of_loadRecords hlines hloaded hne with hold | hplain
      · exact absurd rfl hold
      · exact hplain
    rw [hload hplain] at hloaded
    obtain ⟨hnodup, -, hinits⟩ := foldlM_loadEntry_eq_some initialised_fresh hloaded
    rw [hkeys] at hnodup
    refine ⟨hnodup, hplain, fun pair hpair first hfirst' => ?_⟩
    obtain rfl := Option.some.inj ((hfind pair hpair).symm.trans hfirst')
    exact hinits (f pair) (List.mem_map.mpr ⟨pair, hpair, rfl⟩)
  · rintro ⟨hnodup, hplain, hinits⟩
    rw [← hkeys] at hnodup
    have hinits' : ∀ e ∈ (requestPairs request).map f, initDestination P g e.1.2 ≠ none := by
      intro e he
      obtain ⟨pair, hpair, rfl⟩ := List.mem_map.mp he
      exact hinits pair hpair _ (hfind pair hpair)
    obtain ⟨loaded, hloaded, hok, hrecords, -⟩ :=
      exists_foldlM_loadEntry initialised_fresh hnodup (fun _ _ => rfl) hinits'
    have hcache : ∀ pair ∈ requestPairs request,
        loaded.cache (queryKey pair) = st'.cache (queryKey pair) := by
      intro pair hpair
      rw [hrecord pair hpair, ← hkey pair hpair]
      exact hrecords (f pair) (List.mem_map.mpr ⟨pair, hpair, rfl⟩)
    refine ⟨loaded, (hload hplain).trans hloaded, hcache, ?_⟩
    rw [serve_of_cached hok hinit fun pair hpair => by
      rw [hcache pair hpair]
      exact hcached pair hpair, cachedRecords_congr hcache, hreply]

end Server

/-- The reply to three different requests for one destination is loaded. -/
theorem precomputation_iff_two_nodes :
    ∃ st st' reply, serveAll {} (processCyclopsFile ["1\t2\tc2p".toList]) ServerState.fresh
        ["1 -q 2 1 <EOFc>".toList] = some st ∧
      serve {} (processCyclopsFile ["1\t2\tc2p".toList]) st "1 -q 2 1 5 1 x 9 <EOFc>".toList =
        some (st', reply) ∧
      ∃ loaded, loadPrecomputation {} (processCyclopsFile ["1\t2\tc2p".toList]) ServerState.fresh
          reply = some loaded ∧
        Reloads {} (processCyclopsFile ["1\t2\tc2p".toList]) st'
          "1 -q 2 1 5 1 x 9 <EOFc>".toList reply loaded := by
  have hsome : ((serveAll {} (processCyclopsFile ["1\t2\tc2p".toList]) ServerState.fresh
      ["1 -q 2 1 <EOFc>".toList]).bind fun st =>
        serve {} (processCyclopsFile ["1\t2\tc2p".toList]) st
          "1 -q 2 1 5 1 x 9 <EOFc>".toList).isSome = true := by
    decide +kernel
  obtain ⟨⟨st', reply⟩, hboth⟩ := isSome_iff_exists.mp hsome
  obtain ⟨st, hst, hserve⟩ := bind_eq_some_iff.mp hboth
  refine ⟨st, st', reply, hst, hserve,
    (precomputation_iff {} _ _ _ _ _ _ hst hserve).mpr ⟨?_, ?_, ?_⟩⟩
  · decide +kernel
  · decide +kernel
  · have hall : ∀ pair ∈ requestPairs "1 -q 2 1 5 1 x 9 <EOFc>".toList,
        (((["1 -q 2 1 <EOFc>".toList] ++ ["1 -q 2 1 5 1 x 9 <EOFc>".toList]).flatMap
          requestPairs).find? (fun p => queryKey p = queryKey pair)).all
            (fun first => (initDestination {} (processCyclopsFile ["1\t2\tc2p".toList])
              first.2).isSome) = true := by
      decide +kernel
    intro pair hpair first hfirst hnone
    have hinit := hall pair hpair
    rw [hfirst, all_some, hnone] at hinit
    exact absurd hinit (by simp)

/-- The reply to a request that repeats a pair is not loaded. -/
theorem not_precomputation_repeated :
    (serve {} (processCyclopsFile ["1\t2\tc2p".toList]) ServerState.fresh
      "1 -q 2 1 2 1 <EOFc>".toList).map (fun r =>
        (loadPrecomputation {} (processCyclopsFile ["1\t2\tc2p".toList]) ServerState.fresh
          r.2).isSome) = some false := by
  decide +kernel

end Astoria
