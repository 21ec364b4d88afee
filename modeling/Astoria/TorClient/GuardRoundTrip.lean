import Astoria.TorClient.EntryGuards

/-!
# Reading the entry guards that were written

The lines that are written for a guard are read as this guard, as far as they tell of it
(`foldlM_entryGuardLines`). So reading the state file gives back the guards that have been
contacted, in the same order.  A guard that is not unreachable loses the time of its last attempt,
and one of which it is not known when or by which version it was chosen gets another date and the
version of the file.
-/

namespace Astoria.EntryGuards

open Option
open List hiding Vector Vector.ext Vector.replicate
open Config (ConfigLine)
open Routersets (stripSpace torStrlower torIsSpace)

/-! ### Identities -/

lemma hexDecodeDigit_hexDigit {n : ℕ} (h : n < 16) : hexDecodeDigit (hexDigit n) = some n := by
  have hall : ∀ n < 16, hexDecodeDigit (hexDigit n) = some n := by decide
  exact hall n h

lemma torIsSpace_hexDigit (n : ℕ) : torIsSpace (hexDigit n) = false := by
  by_cases h : n < 16
  · have hall : ∀ n < 16, torIsSpace (hexDigit n) = false := by decide
    exact hall n h
  · unfold hexDigit
    rw [getD_eq_default _ _ (Nat.le_of_not_lt h)]
    decide

lemma base16Decode_hexDigits (bytes : List UInt8) :
    base16Decode (bytes.flatMap fun b => [hexDigit (b.toNat / 16), hexDigit (b.toNat % 16)]) =
      some (bytes.map UInt8.toNat) := by
  induction bytes with
  | nil => rfl
  | cons b bytes ih =>
    have hb := b.toNat_lt
    rw [flatMap_cons, cons_append, cons_append, nil_append, base16Decode,
      hexDecodeDigit_hexDigit (by omega), hexDecodeDigit_hexDigit (by omega), ih, map_cons]
    refine congrArg (fun n => some (n :: bytes.map UInt8.toNat)) ?_
    omega

lemma length_base16Encode (d : Identity) : (base16Encode d).length = hexDigestLen := by
  unfold base16Encode hexDigestLen
  rw [length_flatMap]
  simp

/-- **An identity is read from its text.** -/
lemma decodeIdentity_base16Encode (d : Identity) : decodeIdentity (base16Encode d) = some d := by
  unfold decodeIdentity
  rw [length_base16Encode, if_neg (by decide), base16Encode, base16Decode_hexDigits, map_some]
  refine congrArg some (Vector.ext fun i hi => ?_)
  rw [Vector.getElem_ofFn, getD_eq_getElem _ _ (by simpa using hi), getElem_map, UInt8.ofNat_toNat]
  rfl

lemma torIsSpace_of_mem_base16Encode {d : Identity} {c : Char} (h : c ∈ base16Encode d) :
    torIsSpace c = false := by
  obtain ⟨b, -, hc⟩ := mem_flatMap.mp h
  rcases mem_pair.mp hc with rfl | rfl
  · exact torIsSpace_hexDigit _
  · exact torIsSpace_hexDigit _

/-! ### Words -/

/-- A word: not empty, and without white space. -/
structure IsWord (s : DocText) : Prop where
  ne_nil : s ≠ []
  noSpace : ∀ c ∈ s, torIsSpace c = false

lemma IsWord.stripSpace_eq {s : DocText} (h : IsWord s) : stripSpace s = s := by
  have hdrop : s.dropWhile torIsSpace = s := by
    cases s with
    | nil => rfl
    | cons c s =>
      rw [dropWhile_cons_of_neg (by rw [h.noSpace c mem_cons_self]; exact Bool.false_ne_true)]
  unfold stripSpace
  rw [hdrop]
  refine rdropWhile_eq_self_iff.mpr fun hne => ?_
  rw [h.noSpace _ (getLast_mem hne)]
  exact Bool.false_ne_true

/-- **Words with spaces between them** are found again. -/
lemma splitWords_intercalate {words : List DocText} (h : ∀ s ∈ words, IsWord s) (hne : words ≠ []) :
    splitWords ([' '].intercalate words) = words := by
  have hspace : ∀ s ∈ words, ' ' ∉ s := by
    intro s hs hmem
    have hfalse := (h s hs).noSpace ' ' hmem
    exact absurd hfalse (by decide)
  unfold splitWords
  rw [splitOn_intercalate ' ' hspace hne, map_congr_left fun s hs => (h s hs).stripSpace_eq,
    List.map_id',
    filter_eq_self]
  exact fun s hs => decide_eq_true (h s hs).ne_nil

/-- Letters and digits are no white space. -/
lemma torIsSpace_of_isAlphanum {c : Char} (h : c.isAlphanum = true) :
    Routersets.torIsSpace c = false := by
  by_contra hspace
  rw [Bool.not_eq_false, Routersets.torIsSpace, Bool.or_eq_true, Bool.and_eq_true,
    decide_eq_true_eq,
    decide_eq_true_eq, decide_eq_true_eq] at hspace
  rcases hspace with rfl | ⟨-, hle⟩
  · exact absurd h (by decide)
  · have hlow : c.toNat ≤ 13 := hle
    rw [Char.isAlphanum, Char.isAlpha, Char.isUpper, Char.isLower, Char.isDigit] at h
    simp only [Bool.or_eq_true, Bool.and_eq_true, decide_eq_true_eq, ge_iff_le,
      UInt32.le_iff_toNat_le] at h
    have hval : c.val.toNat = c.toNat := rfl
    have hupper : 'A'.val.toNat = 65 := rfl
    have hlower : 'a'.val.toNat = 97 := rfl
    have hdigit : '0'.val.toNat = 48 := rfl
    omega

lemma isWord_of_isLegalNickname {s : DocText} (h : Routersets.isLegalNickname s = true) :
    IsWord s := by
  unfold Routersets.isLegalNickname at h
  rw [Bool.and_eq_true, Bool.and_eq_true, decide_eq_true_eq, List.all_eq_true] at h
  exact ⟨ne_nil_of_length_pos h.1.1, fun c hc => torIsSpace_of_isAlphanum (h.2 c hc)⟩

/-! ### Times -/

/-- **A date is read from the start of a text.** -/
lemma scanTmPrefix_formatTm {tm : Tm} (hyear : tm.year ≤ 9999) (hmon : tm.mon ≤ 11)
    (hmday : tm.mday ≤ 31) (hhour : tm.hour ≤ 23) (hmin : tm.min ≤ 59) (hsec : tm.sec ≤ 60)
    (rest : DocText) : scanTmPrefix (formatTm tm ++ rest) = some tm := by
  unfold scanTmPrefix formatTm formatDay formatClock
  simp only [append_assoc, cons_append, scanUnsigned_year hyear, bind_eq_bind, bind_some,
    scanChar, if_true, scanUnsigned_twoDigits (n := tm.mon + 1) (by omega),
    scanUnsigned_twoDigits (n := tm.mday) (by omega),
    scanUnsigned_twoDigits (n := tm.hour) (by omega),
    scanUnsigned_twoDigits (n := tm.min) (by omega),
    scanUnsigned_twoDigits (n := tm.sec) (by omega)]
  rw [if_neg (by omega)]
  rfl

/-- The date of a time, in bounds for the reader. -/
lemma torGmtime_bounds (t : ℕ) : (torGmtime t).year ≤ 9999 ∧ 1970 ≤ (torGmtime t).year ∧
    (torGmtime t).mon ≤ 11 ∧ 1 ≤ (torGmtime t).mday ∧ (torGmtime t).mday ≤ 31 ∧
    (torGmtime t).hour ≤ 23 ∧ (torGmtime t).min ≤ 59 ∧ (torGmtime t).sec ≤ 60 := by
  obtain ⟨h1970, hmon, hmday, -, -⟩ := gmtime_spec t
  obtain ⟨hhour, hmin, hsec, -⟩ := gmtime_day t
  have hmonth := gmtime_mday t
  unfold torGmtime
  split
  · decide
  · omega

/-- **A time is read from the start of a text** as from a text of its own. -/
lemma parseIsoTimePrefix_formatIsoTime (t : ℕ) (rest : DocText) :
    parseIsoTimePrefix (formatIsoTime t ++ rest) = parseIsoTime (formatIsoTime t) := by
  obtain ⟨hyear, h1970, hmon, hmday, hmonth, hhour, hmin, hsec⟩ := torGmtime_bounds t
  unfold parseIsoTimePrefix parseIsoTime formatIsoTime
  rw [scanTmPrefix_formatTm hyear hmon hmonth hhour hmin hsec,
    scanTm_formatTm hyear hmon hmonth hhour hmin hsec]

lemma length_formatIsoTime (t : ℕ) : (formatIsoTime t).length = isoTimeLen := by
  obtain ⟨hyear, h1970, -⟩ := torGmtime_bounds t
  have hfour : (Nat.toDigits 10 (torGmtime t).year).length = 4 := by
    have hle := (Nat.length_toDigits_le_iff (n := (torGmtime t).year) (k := 4) (by decide : 1 < 10)
      (by decide)).mpr
      (by omega)
    have hlt := (Nat.length_toDigits_le_iff (n := (torGmtime t).year) (k := 3) (by decide : 1 < 10)
      (by decide)).not.mpr
      (by omega)
    omega
  unfold formatIsoTime formatTm formatDay formatClock twoDigits isoTimeLen
  simp [hfour]

/-! ### The lines of a guard -/

section Lines

variable {B : Type} {env : ReadEnv B} {st : Reading B} {e node : EntryGuard B}

/-- What is written of a guard can be read. -/
structure Writable (env : ReadEnv B) (e : EntryGuard B) : Prop where
  nickname : Routersets.isLegalNickname e.nickname = true
  version : ∀ version ∈ e.chosenByVersion, ' ' ∉ version
  /-- The times are read from their texts. -/
  readable : ∀ t ∈ [e.unreachableSince, e.lastAttempted, e.badSince, e.chosenOnDate],
    parseIsoTime (formatIsoTime t) = some t
  past : ∀ t ∈ [e.unreachableSince, e.lastAttempted, e.badSince, e.chosenOnDate], t ≤ env.now

/-- The first line is read. -/
lemma parseEntryGuard_text (h : Routersets.isLegalNickname e.nickname = true) :
    parseEntryGuard env.bias (entryGuardText e) =
      .ok (newGuard env.bias e.nickname e.identity e.isDirCache) := by
  have hflag : ∀ b : Bool, IsWord (if b then "DirCache" else "NoDirCache").toList := by
    have hword : ∀ s : DocText, s ≠ [] → s.all (fun c => !torIsSpace c) = true → IsWord s := by
      intro s hne hall
      exact ⟨hne, fun c hc => by simpa using List.all_eq_true.mp hall c hc⟩
    intro b
    cases b with
    | false => exact hword _ (by decide) (by decide)
    | true => exact hword _ (by decide) (by decide)
  have hwords : splitWords (entryGuardText e) =
      [e.nickname, base16Encode e.identity,
        (if e.isDirCache then "DirCache" else "NoDirCache").toList] := by
    refine (congrArg splitWords ?_).trans
      (splitWords_intercalate (fun s hs => ?_) (cons_ne_nil _ _))
    · simp [entryGuardText, intercalate, intersperse]
    · rw [mem_cons, mem_pair] at hs
      rcases hs with rfl | rfl | rfl
      · exact isWord_of_isLegalNickname h
      · refine ⟨ne_nil_of_length_pos ?_, fun c hc => torIsSpace_of_mem_base16Encode hc⟩
        rw [length_base16Encode]
        decide
      · exact hflag _
  unfold parseEntryGuard
  rw [hwords]
  dsimp only
  rw [if_neg (by rw [h]; decide), decodeIdentity_base16Encode]
  refine congrArg (fun b => Except.ok (newGuard env.bias e.nickname e.identity b)) ?_
  cases e.isDirCache
  · rfl
  · rfl

/-- The line about the times since which a guard has been unreachable is read. -/
lemma parseSince_down (h : Writable env e) :
    parseSince env.now true (downSinceText e) node =
      .ok { node with unreachableSince := e.unreachableSince, lastAttempted :=
        e.lastAttempted } := by
  have hread := h.readable e.unreachableSince (by simp)
  have hpast := h.past e.unreachableSince (by simp)
  by_cases hlast : e.lastAttempted = 0
  · have htext : downSinceText e = formatIsoTime e.unreachableSince ++ [] := by
      rw [downSinceText, if_neg (not_not.mpr hlast)]
    unfold parseSince
    rw [htext, parseIsoTimePrefix_formatIsoTime, hread]
    dsimp only
    rw [if_neg (by omega), if_pos rfl, append_nil, length_formatIsoTime, if_neg (by decide), hlast]
  · have htext : downSinceText e = formatIsoTime e.unreachableSince ++ ' ' :: formatIsoTime
        e.lastAttempted := by
      rw [downSinceText, if_pos hlast]
    have hdrop : (formatIsoTime e.unreachableSince ++ ' ' :: formatIsoTime e.lastAttempted).drop
        (isoTimeLen + 1) = formatIsoTime e.lastAttempted := by
      rw [← length_formatIsoTime e.unreachableSince, ← drop_drop, drop_left]
      rfl
    unfold parseSince
    rw [htext, parseIsoTimePrefix_formatIsoTime, hread]
    dsimp only
    rw [if_neg (by omega), if_pos rfl, hdrop, length_append, length_cons, length_formatIsoTime,
      length_formatIsoTime, if_pos (by decide), h.readable e.lastAttempted (by simp), getD_some]

/-- The line about the time since which a guard has been unusable is read. -/
lemma parseSince_bad (h : Writable env e) :
    parseSince env.now false (formatIsoTime e.badSince) node =
      .ok { node with badSince := e.badSince } := by
  have hread := h.readable e.badSince (by simp)
  have hpast := h.past e.badSince (by simp)
  rw [← append_nil (formatIsoTime e.badSince)]
  unfold parseSince
  rw [parseIsoTimePrefix_formatIsoTime, hread]
  dsimp only
  rw [if_neg (by omega), if_neg Bool.false_ne_true]

/-- What is written about the choice of a guard, and read again. -/
def choiceOf (e : EntryGuard B) : Option DocText :=
  match e.chosenByVersion with
  | some version =>
    if e.chosenOnDate ≠ 0 ∧ ' ' ∉ version ∧ version ≠ [] then
      some (version ++ ' ' :: formatIsoTime e.chosenOnDate)
    else none
  | none => none

/-- The line about the choice of a guard is read, if there is a version in it. -/
lemma parseAddedBy_line {version : DocText} :
    parseAddedBy
      (base16Encode e.identity ++ ' ' :: version ++ ' ' :: formatIsoTime e.chosenOnDate) =
      if version = [] then none
        else some (e.identity, version ++ ' ' :: formatIsoTime e.chosenOnDate) := by
  have hlen := length_base16Encode e.identity
  have htime := length_formatIsoTime e.chosenOnDate
  have htotal :
      (base16Encode e.identity ++ ' ' :: version ++ ' ' :: formatIsoTime e.chosenOnDate).length =
        hexDigestLen + 1 + version.length + 1 + isoTimeLen := by
    rw [length_append, length_append, length_cons, length_cons, hlen, htime]
    omega
  unfold parseAddedBy
  rw [htotal]
  by_cases hversion : version = []
  · rw [if_pos hversion, hversion, length_nil, if_pos (by decide)]
  · have hpos := length_pos_of_ne_nil hversion
    rw [if_neg hversion, if_neg (by omega), append_assoc, ← hlen, take_left,
      decodeIdentity_base16Encode]
    dsimp only
    rw [getElem?_append_right (Nat.le_refl _), Nat.sub_self, ← drop_drop, drop_left]
    rfl

/-- The guard after counters may have been read. -/
def applyBiasLine (node : EntryGuard B) (text : Option DocText) (read : DocText → B → Option B)
    (disables : B → Bool) :
    EntryGuard B :=
  match text with
  | none => node
  | some text => applyBias node (read text node.pathBias) disables

def readTimes (env : ReadEnv B) (e : EntryGuard B) : EntryGuard B :=
  { newGuard env.bias e.nickname e.identity e.isDirCache with
    unreachableSince := e.unreachableSince
    lastAttempted := if e.unreachableSince = 0 then 0 else e.lastAttempted
    badSince := e.badSince }

/-- The guard that is read from its lines, without what they say about its choice. -/
def readLines (env : ReadEnv B) (e : EntryGuard B) : EntryGuard B :=
  applyBiasLine
    (applyBiasLine (readTimes env e) (env.bias.circLine e.pathBias) env.bias.readCirc
      env.bias.circDisables)
    (env.bias.useLine e.pathBias) env.bias.readUse env.bias.useDisables

/-- A guard of which the first line and the times have been read. -/
lemma foldlM_times (h : Writable env e) (done : List (EntryGuard B))
    (addedBy : List (Identity × DocText)) :
    (sinceLine "EntryGuardDownSince" e.unreachableSince (downSinceText e) ++
      sinceLine "EntryGuardUnlistedSince" e.badSince (formatIsoTime e.badSince)).foldlM
        (parseLine env) ⟨done, some (newGuard env.bias e.nickname e.identity e.isDirCache),
          addedBy⟩ =
      .ok ⟨done, some (readTimes env e), addedBy⟩ := by
  have hdown : (sinceLine "EntryGuardDownSince" e.unreachableSince (downSinceText e)).foldlM
      (parseLine env) ⟨done, some (newGuard env.bias e.nickname e.identity e.isDirCache), addedBy⟩ =
      .ok ⟨done, some { newGuard env.bias e.nickname e.identity e.isDirCache with
        unreachableSince := e.unreachableSince
        lastAttempted := if e.unreachableSince = 0 then 0 else e.lastAttempted }, addedBy⟩ := by
    unfold sinceLine
    by_cases hzero : e.unreachableSince = 0
    · rw [if_neg (not_not.mpr hzero), if_pos hzero, hzero]
      rfl
    · rw [if_pos hzero, if_neg hzero, foldlM_cons]
      have hline : parseLine env
          ⟨done, some (newGuard env.bias e.nickname e.identity e.isDirCache), addedBy⟩
          (stateLine "EntryGuardDownSince" (downSinceText e)) =
          (parseSince env.now true
            (downSinceText e) (newGuard env.bias e.nickname e.identity e.isDirCache)).map
            fun node => ⟨done, some node, addedBy⟩ := rfl
      rw [hline, parseSince_down h]
      rfl
  rw [foldlM_append, hdown]
  show List.foldlM (parseLine env) _ _ = _
  unfold sinceLine
  by_cases hzero : e.badSince = 0
  · rw [if_neg (not_not.mpr hzero), foldlM_nil, readTimes, hzero]
    rfl
  · rw [if_pos hzero, foldlM_cons]
    have hline : ∀ node : EntryGuard B, parseLine env ⟨done, some node, addedBy⟩
        (stateLine "EntryGuardUnlistedSince" (formatIsoTime e.badSince)) =
        (parseSince env.now false (formatIsoTime e.badSince) node).map fun node =>
          ⟨done, some node, addedBy⟩ :=
      fun node => rfl
    rw [hline, parseSince_bad h]
    rfl

/-- What is said about the choice of a guard is read. -/
lemma foldlM_addedByLine (h : Writable env e) (st : Reading B) :
    (addedByLine e).foldlM (parseLine env) st =
      .ok { st with addedBy := ((choiceOf e).map fun text => (e.identity, text)).toList ++
        st.addedBy } := by
  unfold addedByLine choiceOf
  cases hv : e.chosenByVersion with
  | none => rfl
  | some version =>
    have hspace : ' ' ∉ version := h.version version hv
    dsimp only
    by_cases hdate : e.chosenOnDate = 0
    · rw [if_neg fun hboth => hboth.1 hdate, if_neg fun hall => hall.1 hdate]
      rfl
    · rw [if_pos ⟨hdate, hspace⟩, foldlM_cons]
      have hline : ∀ value, parseLine env st (stateLine "EntryGuardAddedBy" value) =
          .ok { st with addedBy := (parseAddedBy value).toList ++ st.addedBy } := fun value => rfl
      rw [hline, parseAddedBy_line]
      by_cases hversion : version = []
      · rw [if_pos hversion, if_neg fun hall => hall.2.2 hversion]
        rfl
      · rw [if_neg hversion, if_pos ⟨hdate, hspace, hversion⟩]
        rfl

lemma foldlM_biasLines (done : List (EntryGuard B)) (addedBy : List (Identity × DocText))
    (circ use : Option DocText) : ((circ.map (stateLine "EntryGuardPathBias")).toList ++
      (use.map (stateLine "EntryGuardPathUseBias")).toList).foldlM (parseLine env) ⟨done, some node,
      addedBy⟩ =
        .ok ⟨done,
          some (applyBiasLine (applyBiasLine node circ env.bias.readCirc env.bias.circDisables) use
            env.bias.readUse env.bias.useDisables), addedBy⟩ := by
  rw [foldlM_append]
  cases circ with
  | none =>
    cases use with
    | none => rfl
    | some text => rfl
  | some text =>
    cases use with
    | none => rfl
    | some text' => rfl

/-- **The lines of a guard are read as the guard.** -/
theorem foldlM_entryGuardLines (h : Writable env e) (st : Reading B) :
    (entryGuardLines env.bias e).foldlM (parseLine env) st =
      .ok ⟨st.done ++ st.node.toList, some (readLines env e),
        ((choiceOf e).map fun text => (e.identity, text)).toList ++ st.addedBy⟩ := by
  have hfirst : parseLine env st (stateLine "EntryGuard" (entryGuardText e)) =
      (parseEntryGuard env.bias (entryGuardText e)).map fun node =>
        { st with done := st.done ++ st.node.toList, node := some node } := rfl
  rw [entryGuardLines, foldlM_cons, hfirst, parseEntryGuard_text h.nickname]
  show List.foldlM (parseLine env) _ _ = _
  rw [append_assoc, foldlM_append, foldlM_append, foldlM_times h]
  show (List.foldlM (parseLine env) _ _ >>= _) = _
  rw [foldlM_addedByLine h]
  exact foldlM_biasLines _ _ _ _

end Lines

/-! ### The list of guards -/

section Guards

variable {B : Type} {env : ReadEnv B} {e : EntryGuard B} {guards : List (EntryGuard B)}

/-- A guard keeps its identity. -/
lemma applyBiasLine_fields (node : EntryGuard B) (text : Option DocText)
    (read : DocText → B → Option B) (disables : B → Bool) :
    ∃ b disabled, applyBiasLine node text read disables =
      { node with pathBias := b, pathBiasDisabled := disabled } := by
  unfold applyBiasLine
  cases text with
  | none => exact ⟨node.pathBias, node.pathBiasDisabled, rfl⟩
  | some text =>
    dsimp only
    unfold applyBias
    cases read text node.pathBias with
    | none => exact ⟨node.pathBias, node.pathBiasDisabled, rfl⟩
    | some b => exact ⟨b, node.pathBiasDisabled || disables b, rfl⟩

lemma readLines_fields (env : ReadEnv B) (e : EntryGuard B) :
    ∃ b disabled, readLines env e =
      { readTimes env e with pathBias := b, pathBiasDisabled := disabled } := by
  obtain ⟨b₁, d₁, h₁⟩ :=
    applyBiasLine_fields (readTimes env e) (env.bias.circLine e.pathBias) env.bias.readCirc
      env.bias.circDisables
  obtain ⟨b₂, d₂, h₂⟩ :=
    applyBiasLine_fields
      (applyBiasLine (readTimes env e) (env.bias.circLine e.pathBias) env.bias.readCirc
        env.bias.circDisables) (env.bias.useLine e.pathBias) env.bias.readUse env.bias.useDisables
  refine ⟨b₂, d₂, ?_⟩
  rw [readLines, h₂, h₁]

/-- What is said about the choices of guards. -/
def choices (guards : List (EntryGuard B)) : List (Identity × DocText) :=
  guards.filterMap fun e => (choiceOf e).map fun text => (e.identity, text)

/-- The choice of a guard is found among those of guards with other identities. -/
lemma lookup_choices (hdistinct : (guards.map EntryGuard.identity).Nodup) (he : e ∈ guards) :
    (choices guards).lookup e.identity = choiceOf e := by
  unfold choices
  induction guards with
  | nil => cases he
  | cons a guards ih =>
    rw [map_cons, nodup_cons] at hdistinct
    have hnone : ∀ d, d ∉ guards.map EntryGuard.identity →
        (guards.filterMap fun e => (choiceOf e).map fun text => (e.identity, text)).lookup d =
          none := by
      intro d hd
      rw [lookup_eq_none_iff]
      intro p hp
      obtain ⟨e', he', hp⟩ := mem_filterMap.mp hp
      obtain ⟨text, -, rfl⟩ := map_eq_some_iff.mp hp
      exact bne_iff_ne.mpr fun heq => hd (List.mem_map.mpr ⟨e', he', heq.symm⟩)
    rcases mem_cons.mp he with rfl | he
    · cases hc : choiceOf e with
      | none => rw [filterMap_cons_none (by rw [hc]; rfl), hnone _ hdistinct.1]
      | some text =>
        rw [filterMap_cons_some (b := (e.identity, text)) (by rw [hc]; rfl), lookup_cons_self]
    · have hne : e.identity ≠ a.identity := fun heq => hdistinct.1 (List.mem_map.mpr ⟨e, he, heq⟩)
      cases hc : choiceOf a with
      | none =>
        rw [filterMap_cons_none (by rw [hc]; rfl)]
        exact ih hdistinct.2 he
      | some text =>
        rw [filterMap_cons_some (b := (a.identity, text)) (by rw [hc]; rfl), lookup_cons,
          beq_false_of_ne hne]
        exact ih hdistinct.2 he

/-- **The lines of all guards are read.** -/
theorem foldlM_guards (h : ∀ e ∈ guards, Writable env e) (st : Reading B) :
    ∃ st', (guards.flatMap (entryGuardLines env.bias)).foldlM (parseLine env) st = .ok st' ∧
      st'.done ++ st'.node.toList = st.done ++ st.node.toList ++ guards.map (readLines env) ∧
      st'.addedBy = choices guards.reverse ++ st.addedBy := by
  induction guards generalizing st with
  | nil => exact ⟨st, rfl, (append_nil _).symm, rfl⟩
  | cons e guards ih =>
    obtain ⟨st', hst', hread, hadded⟩ := ih (fun e' he' => h e' (mem_cons_of_mem e he'))
      ⟨st.done ++ st.node.toList, some (readLines env e),
        ((choiceOf e).map fun text => (e.identity, text)).toList ++ st.addedBy⟩
    refine ⟨st', ?_, ?_, ?_⟩
    · rw [flatMap_cons, foldlM_append, foldlM_entryGuardLines (h e mem_cons_self)]
      exact hst'
    · rw [hread]
      simp only [map_cons, toList_some, append_assoc, singleton_append]
    · rw [hadded, reverse_cons, choices, choices, filterMap_append, append_assoc]
      cases hc : choiceOf e with
      | none => rw [filterMap_cons_none (by rw [hc]; rfl)]; rfl
      | some text => rw [filterMap_cons_some (b := (e.identity, text)) (by rw [hc]; rfl)]; rfl

/-- It is known when and by which version a guard was chosen. -/
def ChoiceKnown (e : EntryGuard B) : Prop :=
  e.chosenOnDate ≠ 0 ∧ ∃ version ∈ e.chosenByVersion, version ≠ []

variable {addedBy : List (Identity × DocText)} {node : EntryGuard B}

lemma withChoice_known (h : Writable env e) (hknown : ChoiceKnown e)
    (hid : node.identity = e.identity) (hlookup : addedBy.lookup e.identity = choiceOf e) :
    withChoice env addedBy node =
      { node with chosenByVersion := e.chosenByVersion, chosenOnDate := e.chosenOnDate } := by
  obtain ⟨hdate, version, hversion, hne⟩ := hknown
  have hspace : ' ' ∉ version := h.version version hversion
  have hin : ∀ c ∈ version, decide (c ≠ ' ') = true := by
    intro c hc
    rw [decide_eq_true_iff]
    rintro rfl
    exact hspace hc
  have hchoice : choiceOf e = some (version ++ ' ' :: formatIsoTime e.chosenOnDate) := by
    rw [choiceOf, show e.chosenByVersion = some version from hversion]
    exact if_pos ⟨hdate, hspace, hne⟩
  have hbefore : (version ++ ' ' :: formatIsoTime e.chosenOnDate).takeWhile (· ≠ ' ') =
      version := by
    rw [takeWhile_append_of_pos hin, takeWhile_cons_of_neg (by decide), append_nil]
  have hafter : ((version ++ ' ' :: formatIsoTime e.chosenOnDate).dropWhile (· ≠ ' ')).tail =
      formatIsoTime e.chosenOnDate := by
    rw [dropWhile_append_of_pos hin, dropWhile_cons_of_neg (by decide), tail_cons]
  unfold withChoice
  rw [hid, hlookup, hchoice, bind_some, if_pos (mem_append_right version mem_cons_self), hbefore,
    hafter]
  dsimp only
  rw [h.readable e.chosenOnDate (by simp), show e.chosenByVersion = some version from hversion]

/-- Without a known choice, the version of the file counts. -/
lemma withChoice_unknown (hunknown : ¬ChoiceKnown e)
    (hid : node.identity = e.identity) (hlookup : addedBy.lookup e.identity = choiceOf e)
    (hversion : node.chosenByVersion = none) (hdate : node.chosenOnDate = 0) :
    withChoice env addedBy node =
      { node with
        chosenByVersion := env.stateVersion
        chosenOnDate := if env.stateVersion.isSome then env.drawnDate e.identity else 0 } := by
  have hchoice : choiceOf e = none := by
    unfold choiceOf
    cases hv : e.chosenByVersion with
    | none => rfl
    | some version => exact if_neg fun hall => hunknown ⟨hall.1, version, hv, hall.2.2⟩
  unfold withChoice
  rw [hid, hlookup, hchoice, bind_none]
  dsimp only
  cases env.stateVersion with
  | none =>
    cases node
    cases hid
    cases hversion
    cases hdate
    rfl
  | some version => rfl

/-- The guard that is read is the one that was written, as far as its lines tell. -/
structure ReadBack (env : ReadEnv B) (e e' : EntryGuard B) : Prop where
  identity : e'.identity = e.identity
  nickname : e'.nickname = e.nickname
  isDirCache : e'.isDirCache = e.isDirCache
  madeContact : e'.madeContact = true
  unreachableSince : e'.unreachableSince = e.unreachableSince
  /-- The time of the last attempt, if it is unreachable. -/
  lastAttempted : e'.lastAttempted = if e.unreachableSince = 0 then 0 else e.lastAttempted
  /-- Since when it has been unusable, unless the counters disable it only now. -/
  badSince : e'.badSince = if e'.pathBiasDisabled = true ∧ e.badSince = 0 then env.later
    else e.badSince
  /-- When and by which version it was chosen, if this is known. -/
  choice : ChoiceKnown e → e'.chosenOnDate = e.chosenOnDate ∧ e'.chosenByVersion = e.chosenByVersion
  /-- Otherwise it is as if the version of the file had chosen it. -/
  noChoice : ¬ChoiceKnown e →
    e'.chosenByVersion = env.stateVersion ∧
      e'.chosenOnDate = if env.stateVersion.isSome then env.drawnDate e.identity else 0

lemma markBiased_of_disabled (h : node.pathBiasDisabled = true ∧ node.badSince = 0) :
    markBiased env node = { node with badSince := env.later } :=
  if_pos h

lemma markBiased_eq_self (h : ¬(node.pathBiasDisabled = true ∧ node.badSince = 0)) :
    markBiased env node = node :=
  if_neg h

/-- A guard that is read from its lines and given a choice is the one that was written. -/
lemma readBack_of_choice (env : ReadEnv B) (e : EntryGuard B) (version : Option DocText) (date : ℕ)
    (hknown : ChoiceKnown e → date = e.chosenOnDate ∧ version = e.chosenByVersion)
    (hunknown : ¬ChoiceKnown e → version = env.stateVersion ∧
      date = if env.stateVersion.isSome then env.drawnDate e.identity else 0) :
    ReadBack env e (markBiased env
      { readLines env e with chosenByVersion := version, chosenOnDate := date }) := by
  obtain ⟨b, disabled, hfields⟩ := readLines_fields env e
  rw [hfields]
  by_cases hmark : disabled = true ∧ e.badSince = 0
  · rw [markBiased_of_disabled]
    · exact ⟨rfl, rfl, rfl, rfl, rfl, rfl, (if_pos hmark).symm, hknown, hunknown⟩
    · exact hmark
  · rw [markBiased_eq_self]
    · exact ⟨rfl, rfl, rfl, rfl, rfl, rfl, (if_neg hmark).symm, hknown, hunknown⟩
    · exact hmark

/-- **A guard is read back.** -/
lemma readBack_markBiased (h : Writable env e) (hlookup : addedBy.lookup e.identity = choiceOf e) :
    ReadBack env e (markBiased env (withChoice env addedBy (readLines env e))) := by
  obtain ⟨b, disabled, hfields⟩ := readLines_fields env e
  have hid : (readLines env e).identity = e.identity := by
    rw [hfields]
    rfl
  by_cases hknown : ChoiceKnown e
  · rw [withChoice_known h hknown hid hlookup]
    exact readBack_of_choice env e _ _ (fun _ => ⟨rfl, rfl⟩) fun hunknown => absurd hknown hunknown
  · have hversion : (readLines env e).chosenByVersion = none := by
      rw [hfields]
      rfl
    have hdate : (readLines env e).chosenOnDate = 0 := by
      rw [hfields]
      rfl
    rw [withChoice_unknown hknown hid hlookup hversion hdate]
    exact readBack_of_choice env e _ _ (fun h => absurd h hknown) fun _ => ⟨rfl, rfl⟩

/-- **The round trip of entry guards.**  The lines of the state file are read as the guards that
have been contacted, in the same order. -/
theorem entryGuardsParseState_updateState (hdistinct : (guards.map EntryGuard.identity).Nodup)
    (h : ∀ e ∈ guards, e.madeContact = true → Writable env e) :
    ∃ read, entryGuardsParseState env (entryGuardsUpdateState env.bias guards) = .ok read ∧
      Forall₂ (ReadBack env) (guards.filter EntryGuard.madeContact) read := by
  generalize hcontacted : guards.filter EntryGuard.madeContact = contacted
  have hwritable : ∀ e ∈ contacted, Writable env e := by
    intro e he
    rw [← hcontacted, mem_filter] at he
    exact h e he.1 he.2
  have hnodup : (contacted.map EntryGuard.identity).Nodup := by
    rw [← hcontacted]
    exact hdistinct.sublist (filter_sublist.map EntryGuard.identity)
  obtain ⟨st, hst, hread, hadded⟩ := foldlM_guards hwritable ⟨[], none, []⟩
  refine ⟨(st.done ++ st.node.toList).map fun e => markBiased env (withChoice env st.addedBy e), ?_,
    ?_⟩
  · rw [entryGuardsParseState, entryGuardsUpdateState, hcontacted, hst]
    rfl
  · rw [hread, hadded, append_nil, toList_none, append_nil, nil_append, List.map_map]
    have hnodup' : (contacted.reverse.map EntryGuard.identity).Nodup := by
      rw [map_reverse]
      exact nodup_reverse.mpr hnodup
    rw [forall₂_map_right_iff, forall₂_same]
    intro e he
    exact readBack_markBiased (hwritable e he) (lookup_choices hnodup' (mem_reverse.mpr he))

end Guards

/-- Guards without counters, which are read ten days after the start of 1970. -/
def plainEnv : ReadEnv Unit where
  bias := ⟨(), fun _ => none, fun _ => none, fun _ _ => none, fun _ _ => none, fun _ => false,
    fun _ => false⟩
  now := 864000
  later := 864000
  stateVersion := none
  drawnDate _ := 0

def reachedGuard : EntryGuard Unit where
  nickname := "alice".toList
  identity := Vector.replicate 20 0
  chosenOnDate := 86400
  chosenByVersion := some "0.2.7.6".toList
  madeContact := true
  canRetry := false
  pathBiasDisabled := false
  isDirCache := true
  badSince := 0
  unreachableSince := 0
  lastAttempted := 90000
  pathBias := ()

/-- The same guard, one that could not be reached and was chosen at an unknown time, and one with
which there has been no contact. -/
def threeGuards : List (EntryGuard Unit) :=
  [reachedGuard,
    { reachedGuard with
      nickname := "bob".toList, identity := Vector.replicate 20 1, chosenOnDate := 0,
      chosenByVersion := none, unreachableSince := 80000 },
    { reachedGuard with identity := Vector.replicate 20 2, madeContact := false }]

lemma writable_threeGuards (e : EntryGuard Unit) (he : e ∈ threeGuards) : Writable plainEnv e := by
  have hall : ∀ e ∈ threeGuards, Routersets.isLegalNickname e.nickname = true ∧
      (∀ version ∈ e.chosenByVersion, ' ' ∉ version) ∧
      ∀ t ∈ [e.unreachableSince, e.lastAttempted, e.badSince, e.chosenOnDate],
        parseIsoTime (formatIsoTime t) = some t ∧ t ≤ plainEnv.now := by
    decide
  obtain ⟨hnickname, hversion, htimes⟩ := hall e he
  exact ⟨hnickname, hversion, fun t ht => (htimes t ht).1, fun t ht => (htimes t ht).2⟩

/-- The round trip of three guards. -/
theorem entryGuardsParseState_updateState_threeGuards :
    ∃ read, entryGuardsParseState plainEnv (entryGuardsUpdateState plainEnv.bias threeGuards) =
      .ok read ∧ Forall₂ (ReadBack plainEnv) (threeGuards.filter EntryGuard.madeContact) read :=
  entryGuardsParseState_updateState (by decide) fun e he _ => writable_threeGuards e he

/-- The time of the last attempt is not written for a guard that is reachable. -/
theorem not_entryGuardsParseState_updateState :
    ¬ ∀ (env : ReadEnv Unit) (guards : List (EntryGuard Unit)),
    (guards.map EntryGuard.identity).Nodup →
      (∀ e ∈ guards, Writable env e) →
        ∃ read, entryGuardsParseState env (entryGuardsUpdateState env.bias guards) = .ok read ∧
          Forall₂ (fun e e' => e'.identity = e.identity ∧ e'.nickname = e.nickname ∧
            e'.isDirCache = e.isDirCache ∧ e'.unreachableSince = e.unreachableSince ∧
            e'.lastAttempted = e.lastAttempted ∧ e'.badSince = e.badSince ∧
            e'.chosenOnDate = e.chosenOnDate ∧ e'.chosenByVersion = e.chosenByVersion)
              (guards.filter EntryGuard.madeContact) read := by
  intro hall
  obtain ⟨read, hread, hsame⟩ := hall plainEnv [reachedGuard] (nodup_singleton _) fun e he => by
    rw [mem_singleton.mp he]
    exact writable_threeGuards _ mem_cons_self
  have hparse :
      entryGuardsParseState plainEnv (entryGuardsUpdateState plainEnv.bias [reachedGuard]) =
        .ok [{ reachedGuard with lastAttempted := 0 }] := by
    rfl
  obtain rfl := Except.ok.inj (hparse.symm.trans hread)
  rw [show [reachedGuard].filter EntryGuard.madeContact = [reachedGuard] from rfl,
    forall₂_cons] at hsame
  exact absurd hsame.1.2.2.2.2.1 (by decide)

end Astoria.EntryGuards
