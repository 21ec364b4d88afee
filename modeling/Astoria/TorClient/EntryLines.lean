import Astoria.TorClient.EntryRoundTrip

/-!
# The lines of an entry

An entry is written as lines, each with a keyword of one letter, and each of these lines is read as
a token.  The entry is read if all lines are short enough and there are not too many flags.
-/

namespace Astoria

open List Option

/-! ### Lines and tokens -/

structure EntryLines where
  r : List DocText
  a : Option DocText
  m : Option DocText
  s : List DocText
  v : Option DocText
  w : Option (List DocText)
  p : Option DocText

def EntryLines.lines (e : EntryLines) : List DocText :=
  ('r' :: spacedWords e.r) :: ((e.a.map fun a => 'a' :: spacedWords [a]).toList ++
    (e.m.map fun m => 'm' :: ' ' :: m).toList ++ ['s' :: spacedWords e.s] ++
    (e.v.map fun v => 'v' :: ' ' :: v).toList ++ (e.w.map fun w => 'w' :: spacedWords w).toList ++
    (e.p.map fun p => 'p' :: ' ' :: p).toList)

def EntryLines.tokens (e : EntryLines) : List DirectoryToken :=
  ⟨.r, e.r⟩ :: ((e.a.map fun a => ⟨.a, [a]⟩).toList ++ (e.m.map fun m => ⟨.m, [m]⟩).toList ++
    [⟨.s, e.s.filter (· ≠ [])⟩] ++ (e.v.map fun v => ⟨.v, [v]⟩).toList ++
    (e.w.map fun w => ⟨.w, w⟩).toList ++ (e.p.map fun p => ⟨.p, [p]⟩).toList)

/-- What the lines say can be written and read, up to the lengths of the flags and the version. -/
structure EntryLines.Ok (e : EntryLines) : Prop where
  r : (∀ w ∈ e.r, IsWord w ∧ w ≠ []) ∧ 7 ≤ e.r.length ∧ e.r.length ≤ maxArgs ∧
    (spacedWords e.r).length < maxLineLength
  a : ∀ a ∈ e.a, IsWord a ∧ a ≠ [] ∧ a.length + 2 ≤ maxLineLength
  m : ∀ m ∈ e.m, '\n' ∉ m ∧ eatWhitespaceNoNl m = m ∧ m.length + 2 ≤ maxLineLength
  s : ∀ w ∈ e.s, IsWord w
  v : ∀ v ∈ e.v, '\n' ∉ v ∧ eatWhitespaceNoNl v = v
  w : ∀ w ∈ e.w, (∀ x ∈ w, IsWord x ∧ x ≠ []) ∧ w.length ≤ maxArgs ∧
    (spacedWords w).length < maxLineLength
  p : ∀ p ∈ e.p, '\n' ∉ p ∧ eatWhitespaceNoNl p = p ∧ p.length + 2 ≤ maxLineLength

/-- The lines with the flags and the version are not too long. -/
structure EntryLines.Fits (e : EntryLines) : Prop where
  count : (e.s.filter (· ≠ [])).length ≤ maxArgs
  flags : (spacedWords e.s).length < maxLineLength
  version : ∀ v ∈ e.v, v.length + 2 ≤ maxLineLength

section Tokens

variable {e : EntryLines} {k : Char} {words : List DocText}

lemma exists_rule (h : k ∈ ['p', 'r', 'a', 's', 'v', 'w', 'm']) :
    ∃ rule, (rtrstatusTokenTable.find? fun rule => rule.t = [k]) = some rule ∧ endsWord k = false ∧
      k ≠ '-' ∧ k ≠ '\n' := by
  simp only [mem_cons, not_mem_nil, or_false] at h
  rcases h with rfl | rfl | rfl | rfl | rfl | rfl | rfl
  all_goals exact ⟨_, rfl, rfl, by decide, by decide⟩

/-- A keyword and words make a line. -/
lemma isTokenLine_spaced (hk : k ∈ ['p', 'r', 'a', 's', 'v', 'w', 'm'])
    (hwords : ∀ w ∈ words, IsWord w) :
    IsTokenLine rtrstatusTokenTable (k :: spacedWords words) := by
  obtain ⟨rule, hrule, hword, hdash, hnewline⟩ := exists_rule hk
  refine ⟨⟨k, rfl, hword, hdash⟩, ?_, head?_spaced words, ?_⟩
  · exact isSome_iff_exists.mpr ⟨rule, hrule⟩
  · rw [mem_cons, not_or]
    refine ⟨hnewline.symm, fun hmem => ?_⟩
    obtain ⟨w, hw, hc⟩ := mem_flatMap.mp hmem
    rcases mem_cons.mp hc with hc | hc
    · exact absurd hc (by decide)
    · exact absurd (hwords w hw _ hc) (by decide)

/-- A keyword, a space and a text make a line. -/
lemma isTokenLine_text (hk : k ∈ ['p', 'r', 'a', 's', 'v', 'w', 'm']) {text : DocText}
    (htext : '\n' ∉ text) : IsTokenLine rtrstatusTokenTable (k :: ' ' :: text) := by
  obtain ⟨rule, hrule, hword, hdash, hnewline⟩ := exists_rule hk
  refine ⟨⟨k, rfl, hword, hdash⟩, isSome_iff_exists.mpr ⟨rule, hrule⟩, ?_, ?_⟩
  · rintro c hc
    obtain rfl := Option.some.inj hc
    rfl
  · simp only [mem_cons, not_or]
    exact ⟨hnewline.symm, by decide, htext⟩

/-- **The lines of an entry** are lines, and only the first one starts like another entry or a
footer. -/
lemma EntryLines.Ok.isTokenLine (h : e.Ok) : (∀ l ∈ e.lines, IsTokenLine rtrstatusTokenTable l) ∧
    ∀ l ∈ e.lines.tail, ∃ c ∈ l.head?, c ≠ 'r' ∧ c ≠ 'd' := by
  have hfirst := isTokenLine_spaced (k := 'r') (by decide) fun w hw => (h.r.1 w hw).1
  have hrest : ∀ l ∈ e.lines.tail, IsTokenLine rtrstatusTokenTable l ∧ ∃ c ∈ l.head?, c ≠ 'r' ∧
      c ≠ 'd' := by
    intro l hl
    simp only [EntryLines.lines, tail_cons, mem_append, mem_toList, map_eq_some_iff,
      mem_singleton] at hl
    rcases hl with
      ((((⟨a, ha, rfl⟩ | ⟨m, hm, rfl⟩) | rfl) | ⟨v, hv, rfl⟩) | ⟨w, hw, rfl⟩) | ⟨p, hp, rfl⟩
    · exact ⟨isTokenLine_spaced (by decide) (by simpa using (h.a a ha).1), 'a',
        rfl, by decide, by decide⟩
    · exact ⟨isTokenLine_text (by decide) (h.m m hm).1, 'm', rfl, by decide, by decide⟩
    · exact ⟨isTokenLine_spaced (by decide) h.s, 's', rfl, by decide, by decide⟩
    · exact ⟨isTokenLine_text (by decide) (h.v v hv).1, 'v', rfl, by decide, by decide⟩
    · exact ⟨isTokenLine_spaced (by decide) fun x hx => ((h.w w hw).1 x hx).1, 'w',
        rfl, by decide, by decide⟩
    · exact ⟨isTokenLine_text (by decide) (h.p p hp).1, 'p', rfl, by decide, by decide⟩
  refine ⟨fun l hl => ?_, fun l hl => (hrest l hl).2⟩
  rcases mem_cons.mp hl with rfl | hl
  · exact hfirst
  · exact (hrest l hl).1

/-- The token of a line of words, of which none is empty. -/
lemma lineToken_spaced {rule : TokenRule} (hrule : rtrstatusTokenTable.find?
    (fun rule => rule.t = [k]) = some rule) (hconcat : rule.concatArgs = false)
    (hwords : ∀ w ∈ words, IsWord w) (hlen : (spacedWords words).length < maxLineLength)
    (hcount : (words.filter (· ≠ [])).length ≤ maxArgs)
    (hmin : rule.minArgs ≤ (words.filter (· ≠ [])).length) (hmax : maxArgs ≤ rule.maxArgs) :
    lineToken rtrstatusTokenTable (k :: spacedWords words) =
      some ⟨rule.v, words.filter (· ≠ [])⟩ := by
  have hlong : ¬ maxLineLength < (k :: spacedWords words).length := by
    rw [length_cons]
    omega
  unfold lineToken
  rw [take_succ_cons, take_zero, hrule]
  dsimp only
  rw [if_neg hlong, drop_succ_cons, drop_zero]
  unfold ruleArguments
  rw [hconcat, if_neg Bool.false_ne_true, getTokenArguments_words hwords, if_neg (by omega)]
  simp only [bind_eq_bind, bind_some]
  rw [if_neg (by omega)]
  rfl

lemma lineToken_text {rule : TokenRule} (hrule : rtrstatusTokenTable.find?
    (fun rule => rule.t = [k]) = some rule) (hconcat : rule.concatArgs = true)
      (hmin : rule.minArgs = 1)
    (hmax : rule.maxArgs = 1) {text : DocText} (htext : eatWhitespaceNoNl text = text)
    (hlen : text.length + 2 ≤ maxLineLength) :
    lineToken rtrstatusTokenTable (k :: ' ' :: text) = some ⟨rule.v, [text]⟩ := by
  have hlong : ¬ maxLineLength < (k :: ' ' :: text).length := by
    rw [length_cons, length_cons]
    omega
  have heat : eatWhitespaceNoNl (' ' :: text) = text := htext
  unfold lineToken
  rw [take_succ_cons, take_zero, hrule]
  dsimp only
  rw [if_neg hlong, drop_succ_cons, drop_zero, heat]
  unfold ruleArguments
  rw [hconcat, if_pos rfl]
  simp only [bind_eq_bind, bind_some, length_singleton]
  rw [if_neg (by omega)]
  rfl

lemma lineToken_long {line : DocText} (h : maxLineLength < line.length) :
    lineToken rtrstatusTokenTable line = none := by
  unfold lineToken
  split
  · rfl
  · rw [if_pos h]

lemma lineToken_many (hwords : ∀ w ∈ words, IsWord w)
    (hcount : maxArgs < (words.filter (· ≠ [])).length) :
    lineToken rtrstatusTokenTable ('s' :: spacedWords words) = none := by
  have hnone : ruleArguments ⟨['s'], .s, 0, anyNumber, false, false, 1, 1⟩
      (eatWhitespaceNoNl (spacedWords words)) = none := by
    unfold ruleArguments
    rw [if_neg Bool.false_ne_true, getTokenArguments_words hwords, if_pos hcount]
    rfl
  have hrule : (rtrstatusTokenTable.find? fun rule => rule.t = ('s' :: spacedWords words).take 1) =
      some ⟨['s'], .s, 0, anyNumber, false, false, 1, 1⟩ := rfl
  unfold lineToken
  rw [hrule]
  dsimp only
  rw [drop_succ_cons, drop_zero, hnone]
  split_ifs
  all_goals rfl

/-- Some members without a value leave a list without one. -/
lemma mapM_eq_none {α β : Type} {f : α → Option β} {l : List α} {a : α} (ha : a ∈ l)
    (h : f a = none) : l.mapM f = none := by
  induction l with
  | nil => cases ha
  | cons b l ih =>
    rw [mapM_cons]
    rcases mem_cons.mp ha with rfl | ha
    · rw [h]
      rfl
    · rw [ih ha]
      cases f b with
      | none => rfl
      | some b => rfl

lemma mapM_eq_some {α β : Type} {f : α → Option β} {l : List α} {l' : List β}
    (h : l.map f = l'.map some) : l.mapM f = some l' := by
  induction l generalizing l' with
  | nil =>
    cases l' with
    | nil => rfl
    | cons b l' => cases h
  | cons a l ih =>
    cases l' with
    | nil => cases h
    | cons b l' =>
      rw [map_cons, map_cons, List.cons.injEq] at h
      rw [mapM_cons, h.1, ih h.2]
      rfl

lemma filter_nonempty (h : ∀ w ∈ words, w ≠ []) : words.filter (· ≠ []) = words :=
  filter_eq_self.mpr fun w hw => decide_eq_true (h w hw)

/-- **The tokens of an entry** whose lines are not too long. -/
lemma EntryLines.Ok.mapM_lineToken (h : e.Ok) (hfits : e.Fits) :
    e.lines.mapM (lineToken rtrstatusTokenTable) = some e.tokens := by
  have hr : lineToken rtrstatusTokenTable ('r' :: spacedWords e.r) = some ⟨.r, e.r⟩ := by
    have hfilter := filter_nonempty fun w hw => (h.r.1 w hw).2
    rw [lineToken_spaced (k := 'r') rfl rfl (fun w hw => (h.r.1 w hw).1) h.r.2.2.2
      (by rw [hfilter]; exact h.r.2.2.1)
      (by rw [hfilter]; exact h.r.2.1) (by decide), hfilter]
  have ha : ∀ a ∈ e.a, lineToken rtrstatusTokenTable ('a' :: spacedWords [a]) = some ⟨.a, [a]⟩ := by
    intro a ha
    have hfilter : [a].filter (· ≠ []) = [a] := filter_nonempty (by simpa using (h.a a ha).2.1)
    have hlen : (spacedWords [a]).length < maxLineLength := by
      have := (h.a a ha).2.2
      simp only [spacedWords, flatMap_cons, flatMap_nil, append_nil, length_cons]
      omega
    have hcount : 1 ≤ ([a].filter (· ≠ [])).length ∧ ([a].filter (· ≠ [])).length ≤ maxArgs := by
      rw [hfilter, length_singleton]
      decide
    rw [lineToken_spaced (k := 'a') rfl rfl (by simpa using (h.a a ha).1) hlen hcount.2 hcount.1
      (by decide),
      hfilter]
  have hm : ∀ m ∈ e.m, lineToken rtrstatusTokenTable ('m' :: ' ' :: m) = some ⟨.m, [m]⟩ :=
      fun m hm =>
    lineToken_text (k := 'm') rfl rfl rfl rfl (h.m m hm).2.1 (h.m m hm).2.2
  have hs : lineToken rtrstatusTokenTable ('s' :: spacedWords e.s) =
      some ⟨.s, e.s.filter (· ≠ [])⟩ :=
    lineToken_spaced (k := 's') rfl rfl h.s hfits.flags hfits.count (Nat.zero_le _) (by decide)
  have hv : ∀ v ∈ e.v, lineToken rtrstatusTokenTable ('v' :: ' ' :: v) = some ⟨.v, [v]⟩ :=
      fun v hv =>
    lineToken_text (k := 'v') rfl rfl rfl rfl (h.v v hv).2 (hfits.version v hv)
  have hw : ∀ w ∈ e.w, lineToken rtrstatusTokenTable ('w' :: spacedWords w) = some ⟨.w, w⟩ := by
    intro w hw
    have hfilter := filter_nonempty fun x hx => ((h.w w hw).1 x hx).2
    rw [lineToken_spaced (k := 'w') rfl rfl (fun x hx => ((h.w w hw).1 x hx).1) (h.w w hw).2.2
      (by rw [hfilter]; exact (h.w w hw).2.1) (Nat.zero_le _) (by decide), hfilter]
  have hp : ∀ p ∈ e.p, lineToken rtrstatusTokenTable ('p' :: ' ' :: p) = some ⟨.p, [p]⟩ :=
      fun p hp =>
    lineToken_text (k := 'p') rfl rfl rfl rfl (h.p p hp).2.1 (h.p p hp).2.2
  have hopt : ∀ {α : Type} (o : Option α) (line : α → DocText) (tok : α → DirectoryToken),
      (∀ x ∈ o, lineToken rtrstatusTokenTable (line x) = some (tok x)) →
      (o.map line).toList.map (lineToken rtrstatusTokenTable) = (o.map tok).toList.map some := by
    intro α o line tok ho
    cases o with
    | none => rfl
    | some x => simp only [map_some, toList_some, map_cons, map_nil, ho x rfl]
  refine mapM_eq_some ?_
  unfold EntryLines.lines EntryLines.tokens
  simp only [map_cons, map_append, map_nil, hr, hs]
  rw [hopt e.a _ _ ha, hopt e.m _ _ hm, hopt e.v _ _ hv, hopt e.w _ _ hw, hopt e.p _ _ hp]

/-- **No tokens** can be read if a line is too long or has too many words. -/
lemma EntryLines.Ok.mapM_lineToken_none (h : e.Ok) (hfits : ¬ e.Fits) :
    e.lines.mapM (lineToken rtrstatusTokenTable) = none := by
  have hs : 's' :: spacedWords e.s ∈ e.lines := by
    unfold EntryLines.lines
    simp
  by_cases hcount : (e.s.filter (· ≠ [])).length ≤ maxArgs
  · by_cases hflags : (spacedWords e.s).length < maxLineLength
    · have hversion : ¬ ∀ v ∈ e.v, v.length + 2 ≤ maxLineLength := fun hv =>
        hfits ⟨hcount, hflags, hv⟩
      push Not at hversion
      obtain ⟨v, hv, hlong⟩ := hversion
      have hmem : 'v' :: ' ' :: v ∈ e.lines := by
        unfold EntryLines.lines
        rw [mem_def.mp hv]
        simp
      exact mapM_eq_none hmem (lineToken_long (by rw [length_cons, length_cons]; omega))
    · exact mapM_eq_none hs (lineToken_long (by rw [length_cons]; omega))
  · exact mapM_eq_none hs (lineToken_many h.s (by omega))

lemma EntryLines.tokens_ok (e : EntryLines) : e.tokens.any (fun tok => tok.tp = .unknown) = false ∧
    rtrstatusTokenTable.all (countOk e.tokens) = true := by
  obtain ⟨r, a, m, s, v, w, p⟩ := e
  cases a <;> cases m <;> cases v <;> cases w <;> cases p <;> exact ⟨rfl, rfl⟩

lemma EntryLines.findOptByKeyword (e : EntryLines) :
    findOptByKeyword e.tokens .r = some e.r ∧
    findOptByKeyword e.tokens .s = some (e.s.filter (· ≠ [])) ∧
      findOptByKeyword e.tokens .m = e.m.map ([·]) ∧ findOptByKeyword e.tokens .w = e.w ∧
      findOptByKeyword e.tokens .p = e.p.map ([·]) := by
  obtain ⟨r, a, m, s, v, w, p⟩ := e
  cases a <;> cases m <;> cases v <;> cases w <;> cases p <;> exact ⟨rfl, rfl, rfl, rfl, rfl⟩

end Tokens

end Astoria
