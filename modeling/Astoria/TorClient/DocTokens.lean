import Mathlib
import Astoria.TorClient.DirvoteAdd

/-!
# The tokens of a document

A document consists of lines.  Each starts with a keyword, which says whether the rest of the line
is one argument or a list of words, and how many there may be.  An object in the lines after it can
belong to a keyword too; what an object is does not matter here, since the keywords of interest have
none.

A line that is written as a keyword, a space and the arguments is read as its token
(`getNextToken_line`), and words that are joined by spaces are read as these words
(`getTokenArguments_words`).
-/

namespace Astoria

open List Option

/-! ### White space -/

/-- Whether a character ends a word (`find_whitespace`). -/
def endsWord (c : Char) : Bool := c = '#' || c = ' ' || c = '\r' || c = '\n' || c = '\t'

/-- The text after white space and comments (`eat_whitespace`). -/
def eatWhitespace (s : DocText) : DocText := go s.length s
where
  /-- Each pass skips at least one character. -/
  go : ℕ → DocText → DocText
    | 0, s => s
    | _, [] => []
    | n + 1, c :: s =>
      if c = ' ' ∨ c = '\t' ∨ c = '\n' ∨ c = '\r' then go n s
      else if c = '#' then go n (s.dropWhile (· ≠ '\n'))
      else c :: s

/-- The text after white space within a line (`eat_whitespace_no_nl`). -/
def eatWhitespaceNoNl (s : DocText) : DocText := s.dropWhile fun c => c = ' ' ∨ c = '\t' ∨ c = '\r'

/-- The word at the start of a text. -/
def firstWord (s : DocText) : DocText := s.takeWhile fun c => !endsWord c

/-! ### Tokens -/

/-- The keywords of router entries. -/
inductive Keyword
  | p | r | a | s | v | w | m | opt | unknown
  deriving DecidableEq

/-- What is demanded of a keyword (`token_rule_t`). -/
structure TokenRule where
  t : DocText
  v : Keyword
  minArgs : ℕ
  maxArgs : ℕ
  concatArgs : Bool
  objOk : Bool
  minCnt : ℕ
  maxCnt : ℕ

/-- A keyword with its arguments (`directory_token_t`). -/
structure DirectoryToken where
  tp : Keyword
  args : List DocText
  deriving DecidableEq

/-- The largest number of arguments and of tokens (`INT_MAX`). -/
def anyNumber : ℕ := 2 ^ 31 - 1

/-- The keywords of router entries (`rtrstatus_token_table`). -/
def rtrstatusTokenTable : List TokenRule :=
  [⟨['p'], .p, 1, 1, true, false, 0, 1⟩,
    ⟨['r'], .r, 7, anyNumber, false, false, 1, 1⟩,
    ⟨['a'], .a, 1, anyNumber, false, false, 0, anyNumber⟩,
    ⟨['s'], .s, 0, anyNumber, false, false, 1, 1⟩,
    ⟨['v'], .v, 1, 1, true, false, 0, 1⟩,
    ⟨['w'], .w, 0, anyNumber, false, false, 0, 1⟩,
    ⟨['m'], .m, 1, 1, true, false, 0, anyNumber⟩,
    ⟨['o', 'p', 't'], .opt, 1, 1, true, true, 0, anyNumber⟩]

/-- The largest number of arguments (`MAX_ARGS`). -/
def maxArgs : ℕ := 512

/-- The length of the longest line (`MAX_LINE_LENGTH`). -/
def maxLineLength : ℕ := 128 * 1024

/-- The words of the rest of a line, if there are not too many (`get_token_arguments`). -/
def getTokenArguments (s : DocText) : Option (List DocText) := go s.length maxArgs s
where
  /-- Each pass takes a word.  The room for words is given. -/
  go : ℕ → ℕ → DocText → Option (List DocText)
    | _, _, [] => some []
    | 0, _, _ => none
    | _, 0, _ => none
    | n + 1, room + 1, s =>
      match s.drop (firstWord s).length with
      | [] => some [firstWord s]
      | _ :: rest => (go n room (eatWhitespace rest)).map (firstWord s :: ·)

/-- The arguments of a keyword, if their number is right. -/
def ruleArguments (rule : TokenRule) (rest : DocText) : Option (List DocText) := do
  let args ← if rule.concatArgs then some [rest] else getTokenArguments rest
  if args.length < rule.minArgs ∨ rule.maxArgs < args.length then none else some args

section Tokens

variable (skipObject : DocText → Option DocText) (table : List TokenRule)

/-- The text after a token.  If an object follows it, it must be well-formed and allowed. -/
def afterObject (objOk : Bool) (s : DocText) : Option DocText :=
  let s := eatWhitespace s
  if '\n' ∈ s ∧ "-----BEGIN ".toList.isPrefixOf s then
    if objOk then skipObject s else none
  else some s

/-- The next token and the text after it (`get_next_token`). -/
def getNextToken (s : DocText) : Option (DirectoryToken × DocText) :=
  let s := eatWhitespace s
  let line := s.takeWhile (· ≠ '\n')
  let eol := s.dropWhile (· ≠ '\n')
  if maxLineLength < line.length ∨ s = [] then none
  else
    let line := if firstWord line = ['o', 'p', 't'] then eatWhitespaceNoNl (line.drop 3) else line
    match table.find? fun rule => rule.t = firstWord line with
    | some rule => do
      let args ← ruleArguments rule (eatWhitespaceNoNl (line.drop (firstWord line).length))
      let s ← afterObject skipObject rule.objOk eol
      some (⟨rule.v, args⟩, s)
    | none => do
      let s ← afterObject skipObject true eol
      some (⟨if line.head? = some '@' then .unknown else .opt, [line]⟩, s)

/-- All tokens of a text.  The number of passes is given. -/
def tokenizeLoop : ℕ → DocText → Option (List DirectoryToken)
  | _, [] => some []
  | 0, _ => none
  | n + 1, s => do
    let (tok, s) ← getNextToken skipObject table s
    let toks ← tokenizeLoop n (eatWhitespace s)
    some (tok :: toks)

/-- Whether the number of tokens is right for a keyword. -/
def countOk (toks : List DirectoryToken) (rule : TokenRule) : Bool :=
  let n := toks.countP fun tok => tok.tp = rule.v
  decide (rule.minCnt ≤ n ∧ n ≤ rule.maxCnt)

/-- The tokens of a text, if all of them are right (`tokenize_string`). -/
def tokenizeString (s : DocText) : Option (List DirectoryToken) := do
  let toks ← tokenizeLoop skipObject table s.length s
  if toks.any (fun tok => tok.tp = .unknown) ∨ !table.all (countOk toks) then none else some toks

end Tokens

/-! ### Words -/

section Words

variable {s : DocText} {words : List DocText} {word : DocText}

/-- A text has only characters of words. -/
def IsWord (s : DocText) : Prop := ∀ c ∈ s, endsWord c = false

lemma isWord_of_all (h : (s.all fun c => !endsWord c) = true) : IsWord s := fun c hc =>
  Bool.not_eq_eq_eq_not.mp (List.all_eq_true.mp h c hc)

/-- Words, each with a space before it. -/
def spacedWords (words : List DocText) : DocText := words.flatMap (' ' :: ·)

/-- Text that starts with a character of a word has no white space to skip. -/
lemma eatWhitespace_of_word (h : ∀ c ∈ s.head?, endsWord c = false) : eatWhitespace s = s := by
  cases s with
  | nil => rfl
  | cons c s =>
    have hc := h c rfl
    unfold endsWord at hc
    simp only [Bool.or_eq_false_iff, decide_eq_false_iff_not] at hc
    unfold eatWhitespace
    rw [length_cons, eatWhitespace.go, if_neg (by tauto), if_neg (by tauto)]

lemma eatWhitespace_cons {c : Char} (h : c = ' ' ∨ c = '\n') (s : DocText) :
    eatWhitespace (c :: s) = eatWhitespace s := by
  unfold eatWhitespace
  rw [length_cons, eatWhitespace.go, if_pos (by tauto)]

/-- Text that starts with a character of a word has no white space to skip within the line. -/
lemma eatWhitespaceNoNl_of_word (h : ∀ c ∈ s.head?, endsWord c = false) :
    eatWhitespaceNoNl s = s := by
  cases s with
  | nil => rfl
  | cons c s =>
    have hc := h c rfl
    unfold endsWord at hc
    simp only [Bool.or_eq_false_iff, decide_eq_false_iff_not] at hc
    unfold eatWhitespaceNoNl
    rw [dropWhile_cons_of_neg]
    simp only [decide_eq_true_eq]
    tauto

lemma head?_word {c : Char} (hword : IsWord (c :: word)) (s : DocText) :
    ∀ d ∈ (c :: word ++ s).head?, endsWord d = false := by
  rintro d hd
  obtain rfl := Option.some.inj hd
  exact hword _ mem_cons_self

/-- Within a line, the same is skipped before words that are joined by spaces. -/
lemma eatWhitespace_words (hword : IsWord word) (h : ∀ w ∈ words, IsWord w) :
    eatWhitespace (word ++ spacedWords words) = eatWhitespaceNoNl (word ++ spacedWords words) := by
  induction words generalizing word with
  | nil =>
    cases word with
    | nil => rfl
    | cons c word =>
      rw [eatWhitespace_of_word (head?_word hword _),
        eatWhitespaceNoNl_of_word (head?_word hword _)]
  | cons w words ih =>
    cases word with
    | nil => 
      have hspaced : spacedWords (w :: words) = ' ' :: (w ++ spacedWords words) := rfl
      rw [nil_append, hspaced, eatWhitespace_cons (.inl rfl),
        ih (h w mem_cons_self) fun w' hw' => h w' (mem_cons_of_mem w hw')]
      rfl
    | cons c word =>
      rw [eatWhitespace_of_word (head?_word hword _),
        eatWhitespaceNoNl_of_word (head?_word hword _)]

lemma firstWord_append (hword : IsWord word) (h : ∀ c ∈ s.head?, endsWord c = true) :
    firstWord (word ++ s) = word := by
  unfold firstWord
  rw [takeWhile_append_of_pos fun c hc => by rw [hword c hc]; rfl]
  cases s with
  | nil => rw [takeWhile_nil, append_nil]
  | cons c s =>
    rw [takeWhile_cons_of_neg (by rw [h c rfl]; exact Bool.false_ne_true), append_nil]

lemma head?_spaced (words : List DocText) : ∀ c ∈ (spacedWords words).head?, endsWord c = true := by
  cases words with
  | nil => nofun
  | cons w words =>
    rintro c hc
    obtain rfl := Option.some.inj hc
    rfl

/-- **The words that are joined by spaces are read.**  Empty words are not. -/
lemma getTokenArguments_go (h : ∀ w ∈ words, IsWord w) {n room : ℕ}
    (hn : (eatWhitespaceNoNl (spacedWords words)).length ≤ n) :
    getTokenArguments.go n room (eatWhitespaceNoNl (spacedWords words)) =
      if room < (words.filter (· ≠ [])).length then none else some (words.filter (· ≠ [])) := by
  induction words generalizing n room with
  | nil =>
    unfold getTokenArguments.go
    rfl
  | cons w words ih =>
    have hw := h w mem_cons_self
    have hwords : ∀ w' ∈ words, IsWord w' := fun w' hw' => h w' (mem_cons_of_mem w hw')
    have hspaced : spacedWords (w :: words) = ' ' :: (w ++ spacedWords words) := rfl
    have heat : eatWhitespaceNoNl (spacedWords (w :: words)) =
      eatWhitespaceNoNl (w ++ spacedWords words) := rfl
    rw [heat] at hn ⊢
    cases w with
    | nil =>
      rw [nil_append, ih hwords hn]
      rfl
    | cons c word =>
      rw [eatWhitespaceNoNl_of_word (head?_word hw _)] at hn ⊢
      have hfirst := firstWord_append hw (head?_spaced words)
      have hfilter : ((c :: word) :: words).filter (· ≠ []) = (c :: word) :: words.filter
        (· ≠ []) := rfl
      rw [hfilter, length_cons]
      rw [length_append, length_cons] at hn
      cases n with
      | zero => omega
      | succ n =>
        cases room with
        | zero =>
          rw [if_pos (Nat.succ_pos _)]
          rfl
        | succ room =>
          rw [cons_append] at hfirst ⊢
          unfold getTokenArguments.go
          rw [hfirst]
          have hdrop : (c :: (word ++ spacedWords words)).drop (c :: word).length =
              spacedWords words := by
            rw [← cons_append, drop_left]
          rw [hdrop]
          cases words with
          | nil => 
            dsimp only [spacedWords, flatMap_nil]
            rw [if_neg (by simp)]
            rfl
          | cons w' words =>
            have hrest : spacedWords (w' :: words) = ' ' :: (w' ++ spacedWords words) := rfl
            have heat' : eatWhitespace (w' ++ spacedWords words) =
                eatWhitespaceNoNl (spacedWords (w' :: words)) := by
              rw [eatWhitespace_words (hwords w' mem_cons_self) fun w'' hw'' =>
                hwords w'' (mem_cons_of_mem w' hw'')]
              rfl
            rw [hrest]
            dsimp only
            have hle := length_dropWhile_le (fun c => c = ' ' ∨ c = '\t' ∨ c = '\r')
              (spacedWords (w' :: words))
            have hlen : (eatWhitespaceNoNl (spacedWords (w' :: words))).length ≤ n := by
              unfold eatWhitespaceNoNl
              omega
            rw [heat', ih hwords hlen]
            by_cases hroom : room < ((w' :: words).filter (· ≠ [])).length
            · rw [if_pos hroom, if_pos (by omega)]
              rfl
            · rw [if_neg hroom, if_neg (by omega)]
              rfl

lemma getTokenArguments_words (h : ∀ w ∈ words, IsWord w) :
    getTokenArguments (eatWhitespaceNoNl (spacedWords words)) =
      if maxArgs < (words.filter (· ≠ [])).length then none else some (words.filter (· ≠ [])) :=
  getTokenArguments_go h le_rfl

end Words

/-! ### Lines -/

section Lines

variable {skipObject : DocText → Option DocText} {table : List TokenRule} {more : DocText}

/-- What follows a line starts with neither white space nor an object. -/
def FollowsLine (s : DocText) : Prop := ∀ c ∈ s.head?, endsWord c = false ∧ c ≠ '-'

lemma afterObject_line (hmore : FollowsLine more) (objOk : Bool) :
    afterObject skipObject objOk ('\n' :: more) = some more := by
  unfold afterObject
  rw [eatWhitespace_cons (.inr rfl), eatWhitespace_of_word fun c hc => (hmore c hc).1]
  dsimp only
  rw [if_neg]
  rintro ⟨-, hobject⟩
  cases more with
  | nil => exact absurd hobject (by decide)
  | cons c more =>
    have hc := (hmore c rfl).2
    rw [List.isPrefixOf_iff_prefix] at hobject
    exact hc (cons_prefix_cons.mp hobject).1.symm

/-- **A line is read as its token.** -/
lemma getNextToken_line {k : Char} {tail : DocText} {rule : TokenRule} (hk : endsWord k = false)
    (htail : ∀ c ∈ tail.head?, endsWord c = true) (hnewline : '\n' ∉ tail)
    (hrule : table.find? (fun rule => rule.t = [k]) = some rule) (hmore : FollowsLine more) :
    getNextToken skipObject table (k :: (tail ++ '\n' :: more)) =
      if maxLineLength < tail.length + 1 then none
      else (ruleArguments rule (eatWhitespaceNoNl tail)).map fun args =>
        (⟨rule.v, args⟩, more) := by
  have hstart : eatWhitespace (k :: (tail ++ '\n' :: more)) = k :: (tail ++ '\n' :: more) :=
    eatWhitespace_of_word (by rintro c hc; obtain rfl := Option.some.inj hc; exact hk)
  have hkn : k ≠ '\n' := by
    rintro rfl
    cases hk
  have hline : ∀ c ∈ k :: tail, decide (c ≠ '\n') = true := by
    intro c hc
    rcases mem_cons.mp hc with rfl | hc
    · exact decide_eq_true hkn
    · exact decide_eq_true fun h => hnewline (h ▸ hc)
  have htake : (k :: (tail ++ '\n' :: more)).takeWhile (· ≠ '\n') = k :: tail := by
    rw [← cons_append, takeWhile_append_of_pos hline, takeWhile_cons_of_neg (by simp),
      append_nil]
  have hdrop : (k :: (tail ++ '\n' :: more)).dropWhile (· ≠ '\n') = '\n' :: more := by
    rw [← cons_append, dropWhile_append_of_pos hline, dropWhile_cons_of_neg (by simp)]
  have hkeyword : IsWord [k] := by simpa [IsWord] using hk
  have hword : firstWord (k :: tail) = [k] := firstWord_append hkeyword htail
  unfold getNextToken
  rw [hstart]
  dsimp only
  rw [htake, hdrop, length_cons]
  by_cases hlen : maxLineLength < tail.length + 1
  · rw [if_pos (.inl hlen), if_pos hlen]
  · have hshort : ¬ (maxLineLength < tail.length + 1 ∨ k :: (tail ++ '\n' :: more) = []) := by
      simpa using hlen
    have hdropk : (k :: tail).drop [k].length = tail := rfl
    rw [if_neg hshort, if_neg hlen, if_neg (by rw [hword]; simp), hword, hrule, hdropk]
    dsimp only
    cases ruleArguments rule (eatWhitespaceNoNl tail) with
    | none => rfl
    | some args =>
      simp only [bind_eq_bind, bind_some, afterObject_line hmore, map_some]

/-- A token is read first, and then the tokens of the text after it. -/
lemma tokenizeLoop_cons {n : ℕ} {s : DocText} {tok : DirectoryToken} (hs : s ≠ [])
    (htok : getNextToken skipObject table s = some (tok, more)) (hmore : FollowsLine more) :
    tokenizeLoop skipObject table (n + 1) s =
      (tokenizeLoop skipObject table n more).map (tok :: ·) := by
  cases s with
  | nil => exact absurd rfl hs
  | cons c s =>
    rw [tokenizeLoop, htok]
    · simp only [bind_eq_bind, bind_some,
        eatWhitespace_of_word fun c hc => (hmore c hc).1]
      cases tokenizeLoop skipObject table n more with
      | none => rfl
      | some toks => rfl
    · exact hs

def lineToken (table : List TokenRule) (line : DocText) : Option DirectoryToken :=
  match table.find? fun rule => rule.t = line.take 1 with
  | none => none
  | some rule =>
    if maxLineLength < line.length then none
    else (ruleArguments rule (eatWhitespaceNoNl (line.drop 1))).map fun args => ⟨rule.v, args⟩

/-- A text is a line with a keyword of one character. -/
structure IsTokenLine (table : List TokenRule) (line : DocText) : Prop where
  keyword : ∃ k ∈ line.head?, endsWord k = false ∧ k ≠ '-'
  rule : (table.find? fun rule => rule.t = line.take 1).isSome
  arguments : ∀ c ∈ (line.drop 1).head?, endsWord c = true
  newline : '\n' ∉ line

def joinLines (lines : List DocText) : DocText := lines.flatMap (· ++ ['\n'])

lemma followsLine_joinLines {lines : List DocText} (h : ∀ l ∈ lines, IsTokenLine table l) :
    FollowsLine (joinLines lines) := by
  cases lines with
  | nil => nofun
  | cons line lines =>
    obtain ⟨k, hk, hkeyword⟩ := (h line mem_cons_self).keyword
    cases line with
    | nil => cases hk
    | cons c line =>
      obtain rfl := Option.some.inj hk
      rintro d hd
      obtain rfl := Option.some.inj hd
      exact hkeyword

/-- **The tokens of lines** are those of each line. -/
lemma tokenizeLoop_joinLines {lines : List DocText} (h : ∀ l ∈ lines, IsTokenLine table l) {n : ℕ}
    (hn : lines.length ≤ n) :
    tokenizeLoop skipObject table n (joinLines lines) = lines.mapM (lineToken table) := by
  induction lines generalizing n with
  | nil =>
    unfold tokenizeLoop
    rfl
  | cons line lines ih =>
    have hline := h line mem_cons_self
    have hlines : ∀ l ∈ lines, IsTokenLine table l := fun l hl => h l (mem_cons_of_mem line hl)
    have hmore := followsLine_joinLines hlines
    obtain ⟨k, hk, hword, -⟩ := hline.keyword
    obtain ⟨rule, hrule⟩ := isSome_iff_exists.mp hline.rule
    cases line with
    | nil => cases hk
    | cons c tail =>
      obtain rfl := Option.some.inj hk
      have hjoin : joinLines ((c :: tail) :: lines) = c :: (tail ++ '\n' :: joinLines lines) := by
        simp [joinLines]
      have harguments : ∀ c ∈ tail.head?, endsWord c = true := hline.arguments
      have hnewline : '\n' ∉ tail := fun hmem => hline.newline (mem_cons_of_mem c hmem)
      have htok : getNextToken skipObject table (c :: (tail ++ '\n' :: joinLines lines)) = _ :=
        getNextToken_line hword harguments hnewline hrule hmore
      cases n with
      | zero => cases hn
      | succ n =>
        rw [hjoin, mapM_cons]
        have htoken : lineToken table (c :: tail) = if maxLineLength < tail.length + 1 then none
            else (ruleArguments rule (eatWhitespaceNoNl tail)).map fun args => ⟨rule.v, args⟩ := by
          unfold lineToken
          rw [hrule]
          rfl
        rw [htoken]
        split_ifs at htok ⊢ with hlen
        · rw [tokenizeLoop, htok]
          · rfl
          · nofun
        · cases hargs : ruleArguments rule (eatWhitespaceNoNl tail) with
          | none =>
            rw [hargs] at htok
            rw [tokenizeLoop, htok]
            · rfl
            · nofun
          | some args =>
            rw [hargs] at htok
            rw [tokenizeLoop_cons (cons_ne_nil _ _) htok hmore,
              ih hlines (Nat.le_of_succ_le_succ hn)]
            cases lines.mapM (lineToken table) with
            | none => rfl
            | some toks => rfl

end Lines

end Astoria
