import Astoria.TorClient.Tokenizer

/-!
# The tokenizer looks only at its text

What each part of the tokenizer does depends only on the text between the two pointers, and each
token takes at least one character.  There is one exception: at the end of a line that consists of
`opt` and white space and has no newline, the character behind the text is read
(`tokenizeString_inRange`).
-/

namespace Astoria.Tokenizer

open List
open Memory

/-! ### Keyword lines -/

section KeywordLines

variable {mem mem' : ℕ → Char} {table : List DirTokenRule} {start s eos p next eol : ℕ} {Key : Type}

lemma keywordPlace_congr (h : AgreeOn mem mem' s eos) (hs : s ≤ eos) :
    keywordPlace mem s eos = keywordPlace mem' s eos := by
  obtain ⟨hle, hle', -⟩ := eatWhitespaceEos_spec mem hs
  have hrest : AgreeOn mem mem' (eatWhitespaceEos mem s eos) eos := h.mono hle (le_refl eos)
  obtain ⟨heol, heol', -⟩ := lineEnd_spec mem hle'
  have hline : AgreeOn mem mem' (eatWhitespaceEos mem s eos)
      (lineEnd mem (eatWhitespaceEos mem s eos) eos) :=
    hrest.mono (le_refl _) heol'
  rw [keywordPlace, keywordPlace, ← eatWhitespaceEos_congr h, ← lineEnd_congr hrest,
    ← findWhitespaceEos_congr hline]
  set s := eatWhitespaceEos mem s eos
  set eol := lineEnd mem s eos
  set next := findWhitespaceEos mem s eol
  obtain ⟨hnext, hnext'⟩ : s ≤ next ∧ next ≤ eol := scanWhile_bounds _ mem heol
  have hword : AgreeOn mem mem' s next := hline.mono (le_refl s) hnext'
  have hafter : AgreeOn mem mem' next eol := hline.mono hnext (le_refl eol)
  obtain ⟨hkwd, -⟩ : next ≤ eatWhitespaceEosNoNl mem next eol ∧
      eatWhitespaceEosNoNl mem next eol ≤ eol :=
    scanWhile_bounds _ mem hnext'
  dsimp only
  rw [← hword.text, ← eatWhitespaceEosNoNl_congr hafter,
    ← findWhitespaceEos_congr (hafter.mono hkwd (le_refl eol))]

/-- Where a keyword is, if there is one.  Only behind an `opt` it can be at the end of the text. -/
lemma keywordPlace_spec (h : keywordPlace mem s eos = .ok (p, next, eol)) (hs : s ≤ eos) :
    s ≤ p ∧ p ≤ next ∧ next ≤ eol ∧ s < eol ∧ eol ≤ eos ∧ (eol = eos ∨ mem eol = '\n') ∧
      (p < eos ∨ text mem (eatWhitespaceEos mem s eos) (eatWhitespaceEos mem s eos + 3) =
        "opt".toList ∧
        eatWhitespaceEos mem s eos + 3 ≤ eos ∧
        ∀ q, eatWhitespaceEos mem s eos + 3 ≤ q → q < eos → isBlank (mem q) = true) := by
  obtain ⟨hle, hle', hnl⟩ := eatWhitespaceEos_spec mem hs
  obtain ⟨heol, heol', hend⟩ := lineEnd_spec mem hle'
  rw [keywordPlace] at h
  dsimp only at h
  set s' := eatWhitespaceEos mem s eos
  set eol' := lineEnd mem s' eos
  set next' := findWhitespaceEos mem s' eol'
  obtain ⟨hnext, hnext'⟩ : s' ≤ next' ∧ next' ≤ eol' := scanWhile_bounds _ mem heol
  -- there is a character in the line, since it starts with no newline
  have hchar (hlt : s' < eos) : s < eol' := by
    rcases Nat.eq_or_lt_of_le heol with heq | hlt'
    · rw [← heq] at hend
      exact absurd (hend.resolve_left (by omega)) (hnl hlt)
    · omega
  split at h
  · cases h
  · split at h
    · next hopt =>
      have hlen : next' - s' = 3 := by rw [← length_text mem s' next', hopt]; rfl
      obtain ⟨rfl, rfl, rfl⟩ : eatWhitespaceEosNoNl mem next' eol' = p ∧
          findWhitespaceEos mem (eatWhitespaceEosNoNl mem next' eol') eol' = next ∧ eol' = eol := by
        simpa only [Except.ok.injEq, Prod.mk.injEq] using h
      obtain ⟨hkwd, hkwd'⟩ :
          next' ≤ eatWhitespaceEosNoNl mem next' eol' ∧
          eatWhitespaceEosNoNl mem next' eol' ≤ eol' :=
        scanWhile_bounds _ mem hnext'
      obtain ⟨hword, hword'⟩ :=
        scanWhile_bounds (fun c => !(decide (c = nul) || endsWord c)) mem hkwd'
      refine ⟨by omega, hword, hword', hchar (by omega), heol', hend, ?_⟩
      rcases lt_or_ge (eatWhitespaceEosNoNl mem next' eol') eos with hlt | hge
      · exact .inl hlt
      · have hthree : next' = s' + 3 := by omega
        refine .inr ⟨by rw [← hthree]; exact hopt, by omega, fun q hq hq' => ?_⟩
        obtain ⟨-, -, hall, -⟩ := scanWhile_spec isBlank mem (eol' - next') next'
        exact hall q (by omega) (by rw [eatWhitespaceEosNoNl] at hge; omega)
    · split at h
      · cases h
      · next hne =>
        obtain ⟨rfl, rfl, rfl⟩ : s' = p ∧ next' = next ∧ eol' = eol := by
          simpa only [Except.ok.injEq, Prod.mk.injEq] using h
        exact ⟨hle, hnext, hnext', hchar (by omega), heol', hend, .inl (by omega)⟩

/-- A keyword is not at the end of the text, unless this ends with an `opt`. -/
lemma keywordPlace_lt (h : keywordPlace mem s eos = .ok (p, next, eol))
    (hbetween : BetweenTokens mem start eos s) (hstart : start ≤ s) (hs : s ≤ eos)
    (hnul : ∀ p, start ≤ p → p < eos → mem p ≠ nul) (hopt : ¬EndsWithOpt mem start eos) :
    p < eos := by
  obtain ⟨-, -, -, -, -, -, hlt | ⟨htext, hle, hblank⟩⟩ := keywordPlace_spec h hs
  · exact hlt
  · refine absurd ⟨eatWhitespaceEos mem s eos, ?_, hle, htext, hblank⟩ hopt
    have hplace : eatWhitespaceEos mem s eos < eos := by omega
    rcases hbetween.eatWhitespaceEos hstart hs hnul with heq | hline | ⟨-, hnl⟩
    · exact absurd heq (ne_of_lt hplace)
    · exact hline
    · exact absurd hnl ((eatWhitespaceEos_spec mem hs).2.2 hplace)

lemma keywordToken_congr (h : AgreeOn mem mem' p eol) (hnext : p ≤ next) (heol : next ≤ eol)
    (hfirst : mem p = mem' p) :
    (keywordToken table mem (p, next, eol) : Except DocText (DocText × DirToken Key × ObjSyntax)) =
      keywordToken table mem' (p, next, eol) := by
  have hafter : AgreeOn mem mem' next eol := h.mono hnext (le_refl eol)
  obtain ⟨hrest, -⟩ : next ≤ eatWhitespaceEosNoNl mem next eol ∧
      eatWhitespaceEosNoNl mem next eol ≤ eol :=
    scanWhile_bounds _ mem heol
  rw [keywordToken, keywordToken]
  dsimp only
  rw [← (h.mono (le_refl p) heol).text, ← h.text, ← hfirst, ← eatWhitespaceEosNoNl_congr hafter,
    ← (hafter.mono hrest (le_refl eol)).text]

end KeywordLines

/-! ### Objects -/

section ObjectLines

variable {Key : Type} {pem : PemReader Key} {mem mem' : ℕ → Char} {tok tok' : DirToken Key}
  {s eol eos : ℕ}

lemma beginsObject_congr (h : AgreeOn mem mem' s eol) :
    beginsObject mem s eol = beginsObject mem' s eol := by
  rw [beginsObject, beginsObject]
  rcases lt_or_ge (eol - s) 11 with hlen | hlen
  · rw [decide_eq_false (by omega), Bool.false_and, Bool.false_and]
  · rw [(h.mono (le_refl s) (by omega) : AgreeOn mem mem' s (s + 11)).text]

lemma badBeginLine_congr (h : AgreeOn mem mem' s eol) :
    badBeginLine mem s eol = badBeginLine mem' s eol := by
  rw [badBeginLine, badBeginLine]
  rcases lt_or_ge (s + 16) eol with hlen | hlen
  · rw [(h.mono (by omega) (by omega) : AgreeOn mem mem' (s + 11) (s + 11 + (eol - s - 16))).memchr,
      (h.mono (by omega) (le_refl eol) : AgreeOn mem mem' (eol - 5) eol).text]
  · simp only [decide_eq_true (show eol ≤ s + 16 from hlen), Bool.true_or]

lemma endTagMatches_congr {objectType : DocText} {next : ℕ} (h : AgreeOn mem mem' next eol) :
    endTagMatches mem objectType next eol = endTagMatches mem' objectType next eol := by
  rw [endTagMatches, endTagMatches]
  by_cases hlen : eol - next = 9 + objectType.length + 5
  · rw [(h.mono (by omega) (by omega) :
      AgreeOn mem mem' (next + 9) (next + 9 + objectType.length)).text,
      (h.mono (by omega) (le_refl eol) : AgreeOn mem mem' (eol - 5) eol).text]
  · rw [decide_eq_false hlen, Bool.false_and, Bool.false_and, Bool.false_and, Bool.false_and]

lemma objectToken_congr {objectType : DocText} {obstart next : ℕ} (h : AgreeOn mem mem' obstart eol)
    (hs : obstart ≤ s) (hnext : next ≤ eol) :
    objectToken pem mem tok objectType obstart s next eol =
      objectToken pem mem' tok objectType obstart s next eol := by
  rw [objectToken, objectToken, h.text, (h.mono hs hnext : AgreeOn mem mem' s next).text]

lemma readObject_congr (h : AgreeOn mem mem' s eos) (hs : s ≤ eol) (heol : eol < eos) :
    readObject pem mem tok s eol eos = readObject pem mem' tok s eol eos := by
  have hline : AgreeOn mem mem' s eol := h.mono (le_refl s) (le_of_lt heol)
  have hbody : AgreeOn mem mem' (eol + 1) eos := h.mono (by omega) (le_refl eos)
  rw [readObject, readObject, ← badBeginLine_congr hline]
  cases hbad : badBeginLine mem s eol with
  | true => rfl
  | false =>
    have hlen : s + 16 < eol := by
      rw [badBeginLine, Bool.or_eq_false_iff, Bool.or_eq_false_iff, Bool.or_eq_false_iff] at hbad
      simpa using hbad.1.1.1
    have htype : AgreeOn mem mem' (s + 11) (eol - 5) := hline.mono (by omega) (by omega)
    dsimp only
    rw [← htype.text, ← (AgreeOn.limit hbody).memmem]
    cases hfind : memmem mem (eol + 1) (eos - (eol + 1)) "-----END ".toList with
    | none => rfl
    | some next =>
      obtain ⟨hnext, hnext', -⟩ := memmem_eq_some hfind
      have htag : AgreeOn mem mem' next eos := hbody.mono hnext (le_refl eos)
      obtain ⟨hend, hend', -⟩ := lineEnd_spec mem (show next ≤ eos by omega)
      dsimp only
      rw [← lineEnd_congr htag, ← endTagMatches_congr (htag.mono (le_refl next) hend'),
        objectToken_congr (h.mono (le_refl s) hend') (show s ≤ eol + 1 by omega) hend]

lemma optionalObject_congr (h : AgreeOn mem mem' eol eos) (heol : eol ≤ eos) :
    optionalObject pem mem tok eol eos = optionalObject pem mem' tok eol eos := by
  obtain ⟨hle, hle', -⟩ := eatWhitespaceEos_spec mem heol
  have hrest : AgreeOn mem mem' (eatWhitespaceEos mem eol eos) eos := h.mono hle (le_refl eos)
  rw [optionalObject, optionalObject, ← eatWhitespaceEos_congr h,
    ← AgreeOn.memchr (AgreeOn.limit hrest)]
  cases hfind : memchr mem (eatWhitespaceEos mem eol eos) (eos - eatWhitespaceEos mem eol eos)
      '\n' with
  | none => rfl
  | some p =>
    obtain ⟨hp, hp', -⟩ := memchr_eq_some hfind
    dsimp only
    rw [← beginsObject_congr (hrest.mono (le_refl _) (by omega)),
      readObject_congr hrest hp (by omega)]

end ObjectLines

/-! ### What is accepted -/

section Accepted

variable {Key : Type} {pem : PemReader Key} {table : List DirTokenRule} {mem : ℕ → Char}
  {tok tok' : DirToken Key} {start s s' eol eos : ℕ}

/-- A token has an object as its keyword needs it. -/
def MeetsObjSyntax (pem : PemReader Key) (tok : DirToken Key) : ObjSyntax → Prop
  | .noObj => tok.objectBody = none ∧ tok.key = none
  | .needObj => tok.objectBody ≠ none
  | .needSkey1024 => ∃ key, tok.key = some key ∧ pem.numBits key = pkBits ∧ pem.isPrivate key = true
  | .needKey1024 => ∃ key, tok.key = some key ∧ pem.numBits key = pkBits ∧ pem.isPrivate key = false
  | .needKey => ∃ key, tok.key = some key ∧ pem.isPrivate key = false
  | .objOk => True

/-- A token meets the limits of a rule. -/
structure MeetsRule (pem : PemReader Key) (tok : DirToken Key) (rule : DirTokenRule) : Prop where
  keyword : tok.tp = rule.v
  minArgs : rule.minArgs ≤ tok.args.length
  maxArgs : tok.args.length ≤ rule.maxArgs
  object : MeetsObjSyntax pem tok rule.os

/-- A token meets the limits of the rule for its keyword, or it is a line without a keyword of the
table. -/
def MeetsTable (pem : PemReader Key) (table : List DirTokenRule) (tok : DirToken Key) : Prop :=
  (∃ rule ∈ table, MeetsRule pem tok rule) ∨ (tok.tp = .kOpt ∨ tok.tp = .aUnknown) ∧
    tok.args.length = 1

lemma tokenCheckObject_ok {kwd : DocText} {oSyn : ObjSyntax}
    (h : tokenCheckObject pem kwd tok oSyn = .ok tok') :
    tok' = tok ∧ MeetsObjSyntax pem tok oSyn := by
  unfold tokenCheckObject at h
  cases oSyn with
  | noObj =>
    dsimp only at h
    split_ifs at h with hbody hkey
    refine ⟨(Except.ok.inj h).symm, ?_, ?_⟩
    · simpa using hbody
    · simpa using hkey
  | needObj =>
    dsimp only at h
    split_ifs at h with hbody
    exact ⟨(Except.ok.inj h).symm, fun hnone => hbody (by rw [hnone]; rfl)⟩
  | objOk => exact ⟨(Except.ok.inj h).symm, trivial⟩
  | needKey =>
    cases hkey : tok.key with
    | none => simp only [hkey, reduceCtorEq] at h
    | some key =>
      simp only [hkey, Bool.not_false, Bool.true_and, Bool.false_and, Bool.false_eq_true,
        if_false] at h
      split_ifs at h with hprivate
      exact ⟨(Except.ok.inj h).symm, key, hkey, by simpa using hprivate⟩
  | needKey1024 =>
    cases hkey : tok.key with
    | none => simp only [hkey, bind, Except.bind, reduceCtorEq] at h
    | some key =>
      simp only [hkey, bind, Except.bind, Bool.not_false, Bool.true_and, Bool.false_and,
        Bool.false_eq_true,
        if_false] at h
      split_ifs at h with hbits hprivate
      exact ⟨(Except.ok.inj h).symm, key, hkey, by simpa using hbits, by simpa using hprivate⟩
  | needSkey1024 =>
    cases hkey : tok.key with
    | none => simp only [hkey, bind, Except.bind, reduceCtorEq] at h
    | some key =>
      simp only [hkey, bind, Except.bind, Bool.not_true, Bool.true_and, Bool.false_and,
        Bool.false_eq_true,
        if_false] at h
      split_ifs at h with hbits hprivate
      exact ⟨(Except.ok.inj h).symm, key, hkey, by simpa using hbits, by simpa using hprivate⟩

lemma keywordArguments_ok {rule : DirTokenRule} {rest : DocText} {args : List DocText}
    (h : keywordArguments rule rest = .ok args) :
    rule.minArgs ≤ args.length ∧ args.length ≤ rule.maxArgs := by
  have hlimits (args' : List DocText) (h : (if args'.length < rule.minArgs then
        Except.error (ebuf ("Too few arguments to " ++ String.ofList rule.t))
      else if rule.maxArgs < args'.length then
        Except.error (ebuf ("Too many arguments to " ++ String.ofList rule.t)) else .ok args') =
          .ok args) :
      rule.minArgs ≤ args.length ∧ args.length ≤ rule.maxArgs := by
    split_ifs at h with hmin hmax
    obtain rfl := Except.ok.inj h
    omega
  unfold keywordArguments at h
  cases hconcat : rule.concatArgs with
  | true =>
    rw [hconcat] at h
    exact hlimits [rest] h
  | false =>
    rw [hconcat] at h
    cases hargs : getTokenArguments rest with
    | none =>
      rw [hargs] at h
      cases h
    | some args' =>
      rw [hargs] at h
      exact hlimits args' h

/-- The token of a keyword line before its object: it comes from a rule, or there is no keyword of
the table. -/
lemma keywordToken_ok {place : ℕ × ℕ × ℕ} {kwd : DocText} {oSyn : ObjSyntax}
    (h : keywordToken table mem place = .ok (kwd, tok, oSyn)) :
    (∃ rule ∈ table, tok.tp = rule.v ∧ rule.minArgs ≤ tok.args.length ∧
      tok.args.length ≤ rule.maxArgs ∧
        oSyn = rule.os) ∨ (tok.tp = .kOpt ∨ tok.tp = .aUnknown) ∧ tok.args.length = 1 := by
  obtain ⟨p, next, eol⟩ := place
  rw [keywordToken] at h
  dsimp only at h
  cases hfind : table.find? fun rule => decide (text mem p next = rule.t) with
  | none =>
    rw [hfind] at h
    obtain ⟨-, rfl, -⟩ := Prod.mk.inj (Except.ok.inj h) |>.imp_right Prod.mk.inj
    refine .inr ⟨?_, rfl⟩
    rw [lineToken]
    dsimp only
    split
    · exact .inr rfl
    · exact .inl rfl
  | some rule =>
    rw [hfind] at h
    cases hargs : keywordArguments rule (text mem (eatWhitespaceEosNoNl mem next eol) eol) with
    | error e =>
      simp only [hargs, bind, Except.bind, reduceCtorEq] at h
    | ok args =>
      simp only [hargs, bind, Except.bind, Except.ok.injEq, Prod.mk.injEq] at h
      obtain ⟨-, rfl, rfl⟩ := h
      obtain ⟨hmin, hmax⟩ := keywordArguments_ok hargs
      exact .inl ⟨rule, mem_of_find?_eq_some hfind, rfl, hmin, hmax, rfl⟩

/-- An object in armor changes neither the keyword nor the arguments. -/
lemma objectToken_ok {objectType : DocText} {obstart next : ℕ}
    (h : objectToken pem mem tok objectType obstart s next eol = .ok tok') :
    tok'.tp = tok.tp ∧ tok'.args = tok.args := by
  unfold objectToken at h
  dsimp only at h
  split_ifs at h
  · cases hkey : pem.publicKeyFromString (text mem obstart eol) with
    | none => simp only [hkey, reduceCtorEq] at h
    | some key =>
      simp only [hkey, Except.ok.injEq] at h
      subst h
      exact ⟨rfl, rfl⟩
  · cases hkey : pem.privateKeyFromString (text mem obstart eol) with
    | none => simp only [hkey, reduceCtorEq] at h
    | some key =>
      simp only [hkey, Except.ok.injEq] at h
      subst h
      exact ⟨rfl, rfl⟩
  · cases hbody : base64Decode (next - s) (text mem s next) with
    | none => simp only [hbody, reduceCtorEq] at h
    | some body =>
      simp only [hbody, Except.ok.injEq] at h
      subst h
      exact ⟨rfl, rfl⟩

/-- An object ends behind the line where it begins, at the end of a line. -/
lemma readObject_ok (h : readObject pem mem tok s eol eos = .ok (tok', s')) (hstart : start ≤ s)
    (hs : s ≤ eol) (heol : eol < eos) :
    tok'.tp = tok.tp ∧ tok'.args = tok.args ∧ s ≤ s' ∧ s' ≤ eos ∧
    BetweenTokens mem start eos s' := by
  unfold readObject at h
  dsimp only at h
  split at h
  · cases h
  · split at h
    · cases h
    · next next hfind =>
      obtain ⟨hnext, hnext', -⟩ := memmem_eq_some hfind
      have hle : next ≤ eos := by omega
      split at h
      · cases h
      · split at h
        · cases h
        · cases hobj : objectToken pem mem tok (text mem (s + 11) (eol - 5)) s (eol + 1) next
              (lineEnd mem next eos) with
          | error e =>
            rw [hobj] at h
            cases h
          | ok tok'' =>
            rw [hobj] at h
            obtain ⟨rfl, rfl⟩ := Prod.mk.inj (Except.ok.inj h)
            obtain ⟨htp, hargs⟩ := objectToken_ok hobj
            obtain ⟨hend, hend', -⟩ := lineEnd_spec mem hle
            exact ⟨htp, hargs, by omega, hend', betweenTokens_lineEnd (by omega) hle⟩

/-- What follows a keyword line ends between two tokens. -/
lemma optionalObject_ok (h : optionalObject pem mem tok eol eos = .ok (tok', s'))
    (hstart : start ≤ eol) (heol : eol ≤ eos) (hend : eol = eos ∨ mem eol = '\n') :
    tok'.tp = tok.tp ∧ tok'.args = tok.args ∧ eol ≤ s' ∧ s' ≤ eos ∧
      ((∀ p, start ≤ p → p < eos → mem p ≠ nul) → BetweenTokens mem start eos s') := by
  obtain ⟨hle, hle', -⟩ := eatWhitespaceEos_spec mem heol
  have hbetween : BetweenTokens mem start eos eol := hend.imp_right fun hnl => .inr ⟨hstart, hnl⟩
  unfold optionalObject at h
  dsimp only at h
  have hnone
      (h : Except.ok (tok, eatWhitespaceEos mem eol eos) = (.ok (tok', s') : Except DocText _)) :
      tok'.tp = tok.tp ∧ tok'.args = tok.args ∧ eol ≤ s' ∧ s' ≤ eos ∧
        ((∀ p, start ≤ p → p < eos → mem p ≠ nul) → BetweenTokens mem start eos s') := by
    obtain ⟨rfl, rfl⟩ := Prod.mk.inj (Except.ok.inj h)
    exact ⟨rfl, rfl, hle, hle', fun hnul => hbetween.eatWhitespaceEos hstart heol hnul⟩
  split at h
  · exact hnone h
  · next p hfind =>
    obtain ⟨hp, hp', -⟩ := memchr_eq_some hfind
    split at h
    · obtain ⟨htp, hargs, hs, hs', hb⟩ := readObject_ok h (show start ≤ _ by omega) hp (by omega)
      exact ⟨htp, hargs, by omega, hs', fun _ => hb⟩
    · exact hnone h

/-- A token takes at least one character and meets the limits of its rule, and it ends between two
tokens. -/
lemma getNextToken_ok (h : getNextToken pem table mem s eos = .ok (tok', s')) (hstart : start ≤ s)
    (hs : s ≤ eos) : s < s' ∧ s' ≤ eos ∧ MeetsTable pem table tok' ∧
      ((∀ p, start ≤ p → p < eos → mem p ≠ nul) → BetweenTokens mem start eos s') := by
  unfold getNextToken at h
  cases hplace : keywordPlace mem s eos with
  | error e => simp only [hplace, bind, Except.bind, reduceCtorEq] at h
  | ok place =>
    obtain ⟨p, next, eol⟩ := place
    obtain ⟨-, -, -, hlt, heol, hend, -⟩ := keywordPlace_spec hplace hs
    cases hkwd :
        (keywordToken table mem (p, next, eol) :
          Except DocText (DocText × DirToken Key × ObjSyntax)) with
    | error e => simp only [hplace, hkwd, bind, Except.bind, reduceCtorEq] at h
    | ok line =>
      obtain ⟨kwd, tok, oSyn⟩ := line
      cases hobj : optionalObject pem mem tok eol eos with
      | error e => simp only [hplace, hkwd, hobj, bind, Except.bind, reduceCtorEq] at h
      | ok object =>
        obtain ⟨tok₁, s₁⟩ := object
        obtain ⟨htp, hargs, hle, hle', hbetween⟩ :=
          optionalObject_ok hobj (show start ≤ eol by omega) heol hend
        cases hcheck : tokenCheckObject pem kwd tok₁ oSyn with
        | error e => simp only [hplace, hkwd, hobj, hcheck, bind, Except.bind, reduceCtorEq] at h
        | ok tok₂ =>
          simp only [hplace, hkwd, hobj, hcheck, bind, Except.bind, Except.ok.injEq,
            Prod.mk.injEq] at h
          obtain ⟨rfl, rfl⟩ := h
          obtain ⟨rfl, hsyn⟩ := tokenCheckObject_ok hcheck
          refine ⟨by omega, hle', ?_, hbetween⟩
          rw [MeetsTable, htp, hargs]
          rcases keywordToken_ok hkwd with ⟨rule, hmem, hv, hmin, hmax, rfl⟩ | hnone
          · refine .inl ⟨rule, hmem, ⟨htp.trans hv, ?_, ?_, hsyn⟩⟩
            · rw [hargs]
              exact hmin
            · rw [hargs]
              exact hmax
          · exact .inr hnone

end Accepted

/-! ### Whole texts -/

section Texts

variable {Key : Type} {pem : PemReader Key} {table : List DirTokenRule} {mem mem' : ℕ → Char}
  {start stop s : ℕ} {out : List (DirToken Key)}

lemma getNextToken_congr (h : AgreeOn mem mem' start stop) (hstart : start ≤ s) (hs : s ≤ stop)
    (hbetween : BetweenTokens mem start stop s) (hnul : ∀ p, start ≤ p → p < stop → mem p ≠ nul)
    (hopt : ¬EndsWithOpt mem start stop) :
    getNextToken pem table mem s stop = getNextToken pem table mem' s stop := by
  have hrest : AgreeOn mem mem' s stop := h.mono hstart (le_refl stop)
  rw [getNextToken, getNextToken, ← keywordPlace_congr hrest hs]
  cases hplace : keywordPlace mem s stop with
  | error e => rfl
  | ok place =>
    obtain ⟨p, next, eol⟩ := place
    obtain ⟨hp, hnext, hnext', hlt, heol, -⟩ := keywordPlace_spec hplace hs
    have hfirst := keywordPlace_lt hplace hbetween hstart hs hnul hopt
    have htok :
        (keywordToken table mem (p, next, eol) :
          Except DocText (DocText × DirToken Key × ObjSyntax)) =
            keywordToken table mem' (p, next, eol) :=
      keywordToken_congr (hrest.mono hp heol) hnext hnext' (hrest p hp hfirst)
    have hobj (tok : DirToken Key) :
        optionalObject pem mem tok eol stop = optionalObject pem mem' tok eol stop :=
      optionalObject_congr (hrest.mono (le_of_lt hlt) (le_refl stop)) heol
    simp only [bind, Except.bind, htok, hobj]

/-- The loop goes through the same steps in both memories. -/
lemma tokenizeLoop_congr (h : AgreeOn mem mem' start stop)
    (hnul : ∀ p, start ≤ p → p < stop → mem p ≠ nul) (hopt : ¬EndsWithOpt mem start stop) (n : ℕ)
    (tok : Option (DirToken Key)) (out : List (DirToken Key)) (hstart : start ≤ s) (hs : s ≤ stop)
    (hbetween : BetweenTokens mem start stop s) : tokenizeLoop pem table mem stop n s tok out =
      tokenizeLoop pem table mem' stop n s tok out := by
  induction n generalizing s tok out with
  | zero => rfl
  | succ n ih =>
    rw [tokenizeLoop, tokenizeLoop, ← getNextToken_congr h hstart hs hbetween hnul hopt]
    cases hnext : getNextToken pem table mem s stop with
    | error e => rfl
    | ok token =>
      obtain ⟨tok', s'⟩ := token
      obtain ⟨hlt, hle, -, hbetween'⟩ := getNextToken_ok hnext hstart hs
      obtain ⟨heat, heat', -⟩ := eatWhitespaceEos_spec mem hle
      dsimp only
      rw [← eatWhitespaceEos_congr (h.mono (by omega) (le_refl stop)),
        ih (some tok') (out ++ [tok']) (by omega) heat'
          ((hbetween' hnul).eatWhitespaceEos (by omega) hle hnul)]

/-- The loop ends, since each token takes a character. -/
lemma tokenizeLoop_isSome (n : ℕ) (tok : Option (DirToken Key)) (out : List (DirToken Key))
    (hs : s ≤ stop) (hn : stop - s < n) :
    ∃ result, tokenizeLoop pem table mem stop n s tok out = some result := by
  induction n generalizing s tok out with
  | zero => omega
  | succ n ih =>
    rw [tokenizeLoop]
    split
    · exact ⟨_, rfl⟩
    · cases hnext : getNextToken pem table mem s stop with
      | error e => exact ⟨_, rfl⟩
      | ok token =>
        obtain ⟨tok', s'⟩ := token
        obtain ⟨hlt, hle, -, -⟩ := getNextToken_ok hnext (le_refl s) hs
        obtain ⟨heat, heat', -⟩ := eatWhitespaceEos_spec mem hle
        exact ih (some tok') (out ++ [tok']) heat' (by omega)

/-- The tokens that the loop adds meet the limits of their rules. -/
lemma tokenizeLoop_ok {n : ℕ} {tok : Option (DirToken Key)} {toks : List (DirToken Key)}
    (hs : s ≤ stop) (h : tokenizeLoop pem table mem stop n s tok out = some (.ok toks)) :
    ∃ new, toks = out ++ new ∧ ∀ tok ∈ new, MeetsTable pem table tok := by
  induction n generalizing s tok out with
  | zero => cases h
  | succ n ih =>
    rw [tokenizeLoop] at h
    split at h
    · obtain rfl := Except.ok.inj (Option.some.inj h)
      exact ⟨[], (append_nil out).symm, fun tok htok => absurd htok not_mem_nil⟩
    · cases hnext : getNextToken pem table mem s stop with
      | error e =>
        rw [hnext] at h
        cases h
      | ok token =>
        obtain ⟨tok', s'⟩ := token
        rw [hnext] at h
        obtain ⟨hlt, hle, hmeets, -⟩ := getNextToken_ok hnext (le_refl s) hs
        obtain ⟨new, rfl, hnew⟩ := ih (eatWhitespaceEos_spec mem hle).2.1 h
        exact ⟨tok' :: new, by rw [append_assoc, singleton_append],
          forall_mem_cons.mpr ⟨hmeets, hnew⟩⟩

/-- The result for a text that is rejected in the loop. -/
lemma tokenizeLoop_error {n : ℕ} {tok : Option (DirToken Key)} {result : Tokenized Key}
    (h : tokenizeLoop pem table mem stop n s tok out = some (.error result)) :
    result.accepted = false := by
  induction n generalizing s tok out with
  | zero => cases h
  | succ n ih =>
    rw [tokenizeLoop] at h
    split at h
    · cases h
    · cases hnext : getNextToken pem table mem s stop with
      | error e =>
        rw [hnext] at h
        obtain rfl := Except.error.inj (Option.some.inj h)
        rfl
      | ok token =>
        rw [hnext] at h
        exact ih h

/-- The numbers of tokens that the rules allow. -/
lemma checkRules_ok { firstNonannotation : ℕ}
    (h : checkRules firstNonannotation out table = .ok ()) :
    ∀ rule ∈ table, rule.minCnt ≤ countKeyword rule.v out ∧
    countKeyword rule.v out ≤ rule.maxCnt := by
  induction table with
  | nil => exact fun rule hrule => absurd hrule not_mem_nil
  | cons rule table ih =>
    rw [checkRules] at h
    cases hrule : checkRule firstNonannotation out rule with
    | error e => simp only [hrule, bind, Except.bind, reduceCtorEq] at h
    | ok u =>
      simp only [hrule, bind, Except.bind] at h
      refine forall_mem_cons.mpr ⟨?_, ih h⟩
      unfold checkRule at hrule
      dsimp only at hrule
      split_ifs at hrule with hmin hmax
      omega

/-- What the flags and the rules allow. -/
lemma checkTokens_ok {flags : TokenizeFlags} {prevLen : ℕ}
    (h : checkTokens table flags prevLen out = .ok ()) (hflags : flags.noCheck = false) :
    ∀ rule ∈ table, rule.minCnt ≤ countKeyword rule.v out ∧
    countKeyword rule.v out ≤ rule.maxCnt := by
  rw [checkTokens, hflags, if_neg Bool.false_ne_true] at h
  cases hfirst : checkAnnotations flags prevLen out with
  | error e => simp only [hfirst, bind, Except.bind, reduceCtorEq] at h
  | ok firstNonannotation =>
    simp only [hfirst, bind, Except.bind] at h
    exact checkRules_ok h

end Texts

/-! ### The result -/

section Result

variable {Key : Type}

/-- **The tokenizer looks only at its text.** If a text does not end in a line that consists of
`opt` and white space and has no newline, then the result does not depend on what is behind the
text.  Each token takes at least one character, so that there is always a result.  When a text is
accepted, each token of it meets the limits of its rule, and unless the caller asks for no check,
there are as many tokens of each kind as the rules allow. -/
theorem tokenizeString_inRange (pem : PemReader Key) (table : List DirTokenRule)
    (mem mem' : ℕ → Char) (start stop : ℕ) (out : List (DirToken Key)) (flags : TokenizeFlags)
    (hle : start ≤ stop) (hagree : AgreeOn mem mem' start stop)
    (hopt : ¬EndsWithOpt mem start stop) : tokenizeString pem table mem start stop out flags =
      tokenizeString pem table mem' start stop out flags ∧
      (∀ s tok s', s < stop → getNextToken pem table mem s stop = .ok (tok, s') → s < s' ∧
        s' ≤ stop) ∧ ∃ result, tokenizeString pem table mem start stop out flags = some result ∧
        (result.accepted = true →
          (∃ new, result.out = out ++ new ∧ ∀ tok ∈ new, MeetsTable pem table tok) ∧
            (flags.noCheck = false → ∀ rule ∈ table,
              rule.minCnt ≤ countKeyword rule.v result.out ∧
              countKeyword rule.v result.out ≤ rule.maxCnt)) := by
  refine ⟨?_, fun s tok s' hs hnext => ?_, ?_⟩
  · rw [tokenizeString, tokenizeString, ← AgreeOn.memchr (AgreeOn.limit hagree)]
    cases hfind : memchr mem start (stop - start) nul with
    | some p => rfl
    | none =>
      have hnul (p : ℕ) (hp : start ≤ p) (hp' : p < stop) : mem p ≠ nul :=
        memchr_eq_none hfind p hp (by omega)
      rw [tokenizeLoop_congr hagree hnul hopt _ none out (Nat.le_refl start) hle
        (betweenTokens_start mem start stop)]
  · obtain ⟨hlt, hle', -, -⟩ := getNextToken_ok hnext (Nat.le_refl s) (Nat.le_of_lt hs)
    exact ⟨hlt, hle'⟩
  · rw [tokenizeString]
    split
    · exact ⟨_, rfl, fun h => absurd h Bool.false_ne_true⟩
    · obtain ⟨loop, hloop⟩ :
          ∃ loop, tokenizeLoop pem table mem stop (stop - start + 1) start none out = some loop :=
        tokenizeLoop_isSome (stop - start + 1) none out hle (Nat.lt_succ_self _)
      rw [hloop]
      refine ⟨_, rfl, ?_⟩
      cases loop with
      | error result =>
        intro haccepted
        exact absurd haccepted (by rw [tokenizeLoop_error hloop]; exact Bool.false_ne_true)
      | ok toks =>
        dsimp only
        cases hcheck : checkTokens table flags out.length toks with
        | error warning => exact fun h => absurd h Bool.false_ne_true
        | ok u => exact fun _ => ⟨tokenizeLoop_ok hle hloop, checkTokens_ok hcheck⟩

/-- A buffer that starts with a text and has some characters behind it. -/
def bufferOf (document behind : String) (p : ℕ) : Char :=
  (document.toList ++ behind.toList).getD p nul

/-- A rule for one keyword, which must occur once and has one argument. -/
def onceRule : DirTokenRule := ⟨"a".toList, .other 0, 1, 1, false, .noObj, 1, 1, true, true⟩

def noKeys : PemReader Unit := ⟨fun _ => none, fun _ => none, fun _ => 0, fun _ => false⟩

/-- The result for a line does not depend on what is behind it. -/
theorem tokenizeString_inRange_line :
    tokenizeString noKeys [onceRule] (bufferOf "a b\n" "@") 0 4 [] ⟨false, false, false⟩ =
      tokenizeString noKeys [onceRule] (bufferOf "a b\n" "c") 0 4 [] ⟨false, false, false⟩ := by
  refine (tokenizeString_inRange noKeys [onceRule] (bufferOf "a b\n" "@") (bufferOf "a b\n" "c")
    0 4 [] ⟨false, false, false⟩ (by decide) ?_ ?_).1
  · intro p hp hp'
    interval_cases p <;> rfl
  · rintro ⟨p, -, hp, htext, hblank⟩
    rcases Nat.lt_or_ge p 1 with h | h
    · exact absurd (hblank 3 (by omega) (by omega)) (by decide)
    · obtain rfl : p = 1 := by omega
      exact absurd htext (by decide)

/-- At the end of an `opt` line without a newline, the character behind the text decides whether the
text is accepted.  A text without a keyword that must occur is accepted if the caller asks for no
check. -/
theorem not_tokenizeString_inRange :
    ¬((∀ mem mem' : ℕ → Char, AgreeOn mem mem' 0 3 →
        tokenizeString noKeys [] mem 0 3 [] ⟨false, false, false⟩ =
          tokenizeString noKeys [] mem' 0 3 [] ⟨false, false, false⟩) ∨
      ∀ (mem : ℕ → Char) (result : Tokenized Unit),
        tokenizeString noKeys [onceRule] mem 0 0 [] ⟨false, true, false⟩ = some result →
          result.accepted = true → 1 ≤ countKeyword onceRule.v result.out) := by
  rintro (h | h)
  · have heq := h (bufferOf "opt" "@") (bufferOf "opt" "b") fun p hp hp' => by
      interval_cases p <;> rfl
    exact absurd heq (by decide +kernel)
  · exact absurd (h (bufferOf "" "") ⟨true, [], none⟩ (by decide +kernel) rfl) (by decide)

end Result

end Astoria.Tokenizer
