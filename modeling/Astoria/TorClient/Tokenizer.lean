import Astoria.Library.MemoryText
import Astoria.TorClient.Base64
import Astoria.TorClient.DocTokens

/-!
# The tokenizer of directory documents

A document is a part of a larger buffer, given by pointers to its start and to its end.  The
tokenizer takes one keyword line after the other, with the object in armor that may follow it, and
compares what it has found with a table of rules.

Here are the tokenizer and what its scans do.  White space is skipped from one place between two
tokens to another one (`BetweenTokens.eatWhitespaceEos`).
-/

namespace Astoria.Tokenizer

open Memory

/-! ### White space -/

/-- The character that ends a string. -/
def nul : Char := Char.ofNat 0

/-- White space within a line. -/
def isBlank (c : Char) : Bool := c = ' ' || c = '\t' || c = '\r'

def skipComment (mem : ℕ → Char) (s eos : ℕ) : ℕ :=
  scanWhile (fun c => c ≠ nul && c ≠ '\n') mem (eos - s) s

/-- Go on over white space and comments, up to the end of the text (`eat_whitespace_eos`). -/
def eatWhitespaceEos (mem : ℕ → Char) (s eos : ℕ) : ℕ := go (eos - s) s
where
  /-- Each pass goes on by at least one character. -/
  go : ℕ → ℕ → ℕ
    | 0, s => s
    | n + 1, s =>
      if eos ≤ s then s
      else if isBlank (mem s) ∨ mem s = '\n' then go n (s + 1)
      else if mem s = '#' then go n (skipComment mem (s + 1) eos)
      else s

/-- Go on over white space within a line (`eat_whitespace_eos_no_nl`). -/
def eatWhitespaceEosNoNl (mem : ℕ → Char) (s eos : ℕ) : ℕ := scanWhile isBlank mem (eos - s) s

/-- The end of a word (`find_whitespace_eos`). -/
def findWhitespaceEos (mem : ℕ → Char) (s eos : ℕ) : ℕ :=
  scanWhile (fun c => !(decide (c = nul) || endsWord c)) mem (eos - s) s

def lineEnd (mem : ℕ → Char) (s eos : ℕ) : ℕ := (memchr mem s (eos - s) '\n').getD eos

/-! ### Tokens -/

/-- The keywords (`directory_keyword`).  Those that only rules mention are numbered.  The keyword of
errors and the one that ends a table are no keywords of rules. -/
inductive DirectoryKeyword
  | kOpt
  | aPurpose
  | aLastListed
  | aUnknown
  | eof
  | other (n : ℕ)
  deriving DecidableEq

/-- Annotations are the keywords from `MIN_ANNOTATION` to `MAX_ANNOTATION`. -/
def DirectoryKeyword.isAnnotation : DirectoryKeyword → Bool
  | .aPurpose | .aLastListed | .aUnknown => true
  | _ => false

/-- Whether a keyword needs an object (`obj_syntax`). -/
inductive ObjSyntax
  | noObj
  | needObj
  | needSkey1024
  | needKey1024
  | needKey
  | objOk
  deriving DecidableEq

/-- What is demanded of a keyword (`token_rule_t`). -/
structure DirTokenRule where
  t : DocText
  v : DirectoryKeyword
  minArgs : ℕ
  maxArgs : ℕ
  concatArgs : Bool
  os : ObjSyntax
  minCnt : ℕ
  maxCnt : ℕ
  atStart : Bool
  atEnd : Bool

/-- A keyword with its arguments and its object (`directory_token_t`). -/
structure DirToken (Key : Type) where
  tp : DirectoryKeyword
  args : List DocText
  objectType : Option DocText
  objectBody : Option (List ℕ)
  key : Option Key
  deriving DecidableEq

/-- How keys are read from their armor, and what is known of them. -/
structure PemReader (Key : Type) where
  publicKeyFromString : DocText → Option Key
  privateKeyFromString : DocText → Option Key
  numBits : Key → ℕ
  isPrivate : Key → Bool

/-- The bits of a key that is demanded to have 1024 (`PK_BYTES*8`). -/
def pkBits : ℕ := 128 * 8

/-- Objects that are larger are rejected (`MAX_UNPARSED_OBJECT_SIZE`). -/
def maxUnparsedObjectSize : ℕ := 128 * 1024

/-- A message in a buffer for 128 characters (`tor_snprintf` into `ebuf`). -/
def ebuf (s : String) : DocText := s.toList.take 127

section Objects

variable {Key : Type} (pem : PemReader Key)

/-- Compare the object of a token with what its keyword needs (`token_check_object`). -/
def tokenCheckObject (kwd : DocText) (tok : DirToken Key) (oSyn : ObjSyntax) :
    Except DocText (DirToken Key) :=
  let kwd := String.ofList kwd
  -- keys of 1024 bits are checked for their size first, then as other keys
  let checkSize : Except DocText Unit :=
    match tok.key with
    | some key =>
      if pem.numBits key ≠ pkBits then
        .error
          (ebuf ("Wrong size on key for " ++ kwd ++ ": " ++ toString (pem.numBits key) ++ " bits"))
      else .ok ()
    | none => .ok ()
  let checkKey (wantPrivate : Bool) : Except DocText (DirToken Key) :=
    match tok.key with
    | none => .error (ebuf ("Missing public key for " ++ kwd))
    | some key =>
      if !wantPrivate && pem.isPrivate key then
        .error (ebuf ("Private key given for " ++ kwd ++ ", which wants a public key"))
      else if wantPrivate && !pem.isPrivate key then
        .error (ebuf ("Public key given for " ++ kwd ++ ", which wants a private key"))
      else .ok tok
  match oSyn with
  | .noObj =>
    if tok.objectBody.isSome then .error (ebuf ("Unexpected object for " ++ kwd))
    else if tok.key.isSome then .error (ebuf ("Unexpected public key for " ++ kwd))
    else .ok tok
  | .needObj => if tok.objectBody.isNone then .error (ebuf ("Missing object for " ++ kwd))
    else .ok tok
  | .needKey1024 => do checkSize; checkKey false
  | .needSkey1024 => do checkSize; checkKey true
  | .needKey => checkKey false
  | .objOk => .ok tok

end Objects

/-! ### The next token -/

section Tokens

variable {Key : Type} (pem : PemReader Key) (table : List DirTokenRule) (mem : ℕ → Char)

/-- Where a keyword starts, where it ends and where its line ends.  An `opt` before the keyword is
skipped. -/
def keywordPlace (s eos : ℕ) : Except DocText (ℕ × ℕ × ℕ) :=
  let s := eatWhitespaceEos mem s eos
  let eol := lineEnd mem s eos
  if maxLineLength < eol - s then .error "Line far too long".toList
  else
    let next := findWhitespaceEos mem s eol
    if text mem s next = "opt".toList then
      let s := eatWhitespaceEosNoNl mem next eol
      .ok (s, findWhitespaceEos mem s eol, eol)
    else if s = eos then .error "Unexpected EOF".toList
    else .ok (s, next, eol)

/-- The arguments of a keyword, if their number is right. -/
def keywordArguments (rule : DirTokenRule) (rest : DocText) : Except DocText (List DocText) := do
  let kwd := String.ofList rule.t
  let args ←
    if rule.concatArgs then .ok [rest]
    else match getTokenArguments rest with
      | none => .error (ebuf ("Far too many arguments to " ++ kwd))
      | some args => .ok args
  if args.length < rule.minArgs then .error (ebuf ("Too few arguments to " ++ kwd))
  else if rule.maxArgs < args.length then .error (ebuf ("Too many arguments to " ++ kwd))
  else .ok args

/-- A token without an object. -/
def lineToken (tp : DirectoryKeyword) (args : List DocText) : DirToken Key :=
  ⟨tp, args, none, none, none⟩

/-- The token of a keyword line, with the keyword and whether it needs an object.  A line without a
keyword of the table is called an `opt` or an unknown annotation. -/
def keywordToken (place : ℕ × ℕ × ℕ) : Except DocText (DocText × DirToken Key × ObjSyntax) :=
  let (s, next, eol) := place
  match table.find? fun rule => text mem s next = rule.t with
  | some rule => do
    let args ← keywordArguments rule (text mem (eatWhitespaceEosNoNl mem next eol) eol)
    .ok (rule.t, lineToken rule.v args, rule.os)
  | none =>
    -- the character here is read even where the text is over
    let tp := if mem s = '@' then .aUnknown else .kOpt
    .ok ([], lineToken tp [text mem s eol], .objOk)

/-- The token with the object in some lines of armor.  The armor starts at `obstart`, what is in it
at `s`, and the line that ends it goes from `next` to `eol`. -/
def objectToken (tok : DirToken Key) (objectType : DocText) (obstart s next eol : ℕ) :
    Except DocText (DirToken Key) :=
  let tok := { tok with objectType := some objectType }
  if objectType = "RSA PUBLIC KEY".toList then
    match pem.publicKeyFromString (text mem obstart eol) with
    | none => .error "Couldn't parse public key.".toList
    | some key => .ok { tok with key := some key }
  else if objectType = "RSA PRIVATE KEY".toList then
    match pem.privateKeyFromString (text mem obstart eol) with
    | none => .error "Couldn't parse private key.".toList
    | some key => .ok { tok with key := some key }
  else
    match base64Decode (next - s) (text mem s next) with
    | none => .error "Malformed object: bad base64-encoded data".toList
    | some body => .ok { tok with objectBody := some body }

def beginsObject (s eol : ℕ) : Bool := 11 ≤ eol - s && text mem s (s + 11) = "-----BEGIN ".toList

/-- Whether the line that begins an object is malformed. -/
def badBeginLine (s eol : ℕ) : Bool :=
  eol ≤ s + 16 || (memchr mem (s + 11) (eol - s - 16) nul).isSome ||
    text mem (eol - 5) eol ≠ "-----".toList
    || maxUnparsedObjectSize < eol - s

/-- Whether the line that ends an object has the name of the object. -/
def endTagMatches (objectType : DocText) (next eol : ℕ) : Bool :=
  eol - next = 9 + objectType.length + 5 &&
    text mem (next + 9) (next + 9 + objectType.length) = objectType &&
    text mem (eol - 5) eol = "-----".toList

/-- The object that begins in a line, and where it ends. -/
def readObject (tok : DirToken Key) (s eol eos : ℕ) : Except DocText (DirToken Key × ℕ) :=
  if badBeginLine mem s eol then .error "Malformed object: bad begin line".toList
  else
    let obstart := s
    let objectType := text mem (s + 11) (eol - 5)
    let s := eol + 1
    match memmem mem s (eos - s) "-----END ".toList with
    | none => .error "Malformed object: missing object end line".toList
    | some next =>
      let eol := lineEnd mem next eos
      if !endTagMatches mem objectType next eol then
        .error (ebuf ("Malformed object: mismatched end tag " ++ String.ofList objectType))
      else if maxUnparsedObjectSize < next - s then
        .error "Couldn't parse object: missing footer or object much too big.".toList
      else (objectToken pem mem tok objectType obstart s next eol).map fun tok => (tok, eol)

/-- The object after a keyword line that ends at `eol`, if there is one. -/
def optionalObject (tok : DirToken Key) (eol eos : ℕ) : Except DocText (DirToken Key × ℕ) :=
  let s := eatWhitespaceEos mem eol eos
  match memchr mem s (eos - s) '\n' with
  | none => .ok (tok, s)
  | some eol => if beginsObject mem s eol then readObject pem mem tok s eol eos else .ok (tok, s)

/-- The next token of a text, and where it ends (`get_next_token`). -/
def getNextToken (s eos : ℕ) : Except DocText (DirToken Key × ℕ) := do
  let place ← keywordPlace mem s eos
  let (kwd, tok, oSyn) ← keywordToken table mem place
  let (tok, s) ← optionalObject pem mem tok place.2.2 eos
  let tok ← tokenCheckObject pem kwd tok oSyn
  .ok (tok, s)

/-! ### All tokens -/

/-- What the tokenizer returns: whether the text is accepted, the tokens, and the warning. -/
structure Tokenized (Key : Type) where
  accepted : Bool
  out : List (DirToken Key)
  warning : Option DocText
  deriving DecidableEq

/-- The flags of the tokenizer (`TS_ANNOTATIONS_OK`, `TS_NOCHECK` and `TS_NO_NEW_ANNOTATIONS`). -/
structure TokenizeFlags where
  annotationsOk : Bool
  noCheck : Bool
  noNewAnnotations : Bool

def rejected (out : List (DirToken Key)) (warning : DocText) : Tokenized Key :=
  ⟨false, out, some warning⟩

/-- Take all tokens.  The number of passes is given.  If one is wrong, the text is rejected. -/
def tokenizeLoop (stop : ℕ) : ℕ → ℕ → Option (DirToken Key) → List (DirToken Key) →
    Option (Except (Tokenized Key) (List (DirToken Key)))
  | 0, _, _, _ => none
  | n + 1, s, tok, out =>
    if stop ≤ s ∨ tok.any (fun tok => tok.tp = .eof) then some (.ok out)
    else match getNextToken pem table mem s stop with
      | .error error => some (.error (rejected out ("parse error: ".toList ++ error)))
      | .ok (tok, s) => tokenizeLoop stop n (eatWhitespaceEos mem s stop) (some tok) (out ++ [tok])

end Tokens

section Checks

variable {Key : Type}

/-- Where the annotations of a document end, if they are where they may be. -/
def checkAnnotations (flags : TokenizeFlags) (prevLen : ℕ) (out : List (DirToken Key)) :
    Except DocText ℕ :=
  if flags.annotationsOk then
    match out.findIdx? fun tok => !tok.tp.isAnnotation with
    | none => .error "parse error: item contains only annotations".toList
    | some firstNonannotation =>
      if (out.drop firstNonannotation).any fun tok => tok.tp.isAnnotation then
        .error "parse error: Annotations mixed with keywords".toList
      else if flags.noNewAnnotations && firstNonannotation ≠ prevLen then
        .error "parse error: Unexpected annotations.".toList
      else .ok firstNonannotation
  else if out.any fun tok => tok.tp.isAnnotation then
    .error "parse error: no annotations allowed.".toList
  else .ok 0

/-- How often a keyword occurs. -/
def countKeyword (v : DirectoryKeyword) (out : List (DirToken Key)) : ℕ := out.countP fun tok =>
  tok.tp = v

/-- Compare the tokens with a rule. -/
def checkRule ( firstNonannotation : ℕ) (out : List (DirToken Key)) (rule : DirTokenRule) :
    Except DocText Unit :=
  let t := String.ofList rule.t
  if countKeyword rule.v out < rule.minCnt then
    .error ("Parse error: missing " ++ t ++ " element.").toList
  else if rule.maxCnt < countKeyword rule.v out then
    .error ("Parse error: too many " ++ t ++ " elements.").toList
  else if rule.atStart && (out[ firstNonannotation]?.map (·.tp)) ≠ some rule.v then
    .error ("Parse error: first item is not " ++ t ++ ".").toList
  else if rule.atEnd && (out.getLast?.map (·.tp)) ≠ some rule.v then
    .error ("Parse error: last item is not " ++ t ++ ".").toList
  else .ok ()

/-- Compare the tokens with the rules, one after the other. -/
def checkRules ( firstNonannotation : ℕ) (out : List (DirToken Key)) :
    List DirTokenRule → Except DocText Unit
  | [] => .ok ()
  | rule :: table => do
    checkRule firstNonannotation out rule
    checkRules firstNonannotation out table

/-- Compare the tokens with the flags and the rules. -/
def checkTokens (table : List DirTokenRule) (flags : TokenizeFlags) (prevLen : ℕ)
    (out : List (DirToken Key)) :
    Except DocText Unit :=
  if flags.noCheck then .ok ()
  else do
    let firstNonannotation ← checkAnnotations flags prevLen out
    checkRules firstNonannotation out table

/-- Add all tokens of a text to a list (`tokenize_string`).  A text with the end of a string in it
is rejected. -/
def tokenizeString (pem : PemReader Key) (table : List DirTokenRule) (mem : ℕ → Char)
    (start stop : ℕ) (out : List (DirToken Key)) (flags : TokenizeFlags) : Option (Tokenized Key) :=
  if (memchr mem start (stop - start) nul).isSome then
    some (rejected out "parse error: internal NUL character.".toList)
  else
    (tokenizeLoop pem table mem stop (stop - start + 1) start none out).map fun
      | .error result => result
      | .ok toks =>
        match checkTokens table flags out.length toks with
        | .error warning => rejected toks warning
        | .ok () => ⟨true, toks, none⟩

end Checks

/-! ### Scans stay within the text -/

section Scans

variable {mem mem' : ℕ → Char} {s eos : ℕ}

lemma AgreeOn.limit (h : AgreeOn mem mem' s eos) : AgreeOn mem mem' s (s + (eos - s)) :=
  fun p hs hp => h p hs (by omega)

lemma scanWhile_bounds (p : Char → Bool) (mem : ℕ → Char) (hs : s ≤ eos) :
    s ≤ scanWhile p mem (eos - s) s ∧ scanWhile p mem (eos - s) s ≤ eos := by
  obtain ⟨hle, hle', -, -⟩ := scanWhile_spec p mem (eos - s) s
  exact ⟨hle, by omega⟩

lemma skipComment_spec (mem : ℕ → Char) (hs : s ≤ eos) :
    s ≤ skipComment mem s eos ∧ skipComment mem s eos ≤ eos ∧
      (skipComment mem s eos = eos ∨ mem (skipComment mem s eos) = nul ∨
        mem (skipComment mem s eos) = '\n') := by
  rw [skipComment]
  obtain ⟨hle, hle', -, hstops⟩ := scanWhile_spec (fun c => c ≠ nul && c ≠ '\n') mem (eos - s) s
  refine ⟨hle, by omega, ?_⟩
  rcases Nat.eq_or_lt_of_le hle' with hend | hlt
  · exact .inl (by omega)
  · refine .inr ?_
    have hchar := hstops hlt
    rw [Bool.and_eq_false_iff, decide_eq_false_iff_not, decide_eq_false_iff_not, not_not,
      not_not] at hchar
    exact hchar

/-- The loop over white space gives the same result in both memories. -/
lemma eatWhitespaceEos_go_congr (n : ℕ) (h : AgreeOn mem mem' s eos) :
    eatWhitespaceEos.go mem eos n s = eatWhitespaceEos.go mem' eos n s := by
  induction n generalizing s with
  | zero => rfl
  | succ n ih =>
    rw [eatWhitespaceEos.go, eatWhitespaceEos.go]
    by_cases hs : eos ≤ s
    · rw [if_pos hs, if_pos hs]
    · have hnext : AgreeOn mem mem' (s + 1) eos := h.mono (by omega) (le_refl eos)
      have hskip : skipComment mem (s + 1) eos = skipComment mem' (s + 1) eos :=
        AgreeOn.scanWhile (AgreeOn.limit hnext)
      have hcomment : AgreeOn mem mem' (skipComment mem (s + 1) eos) eos :=
        hnext.mono (skipComment_spec mem (by omega)).1 (le_refl eos)
      rw [if_neg hs, if_neg hs, ← h s (le_refl s) (by omega), ih hnext, ih hcomment, hskip]

lemma eatWhitespaceEos_congr (h : AgreeOn mem mem' s eos) :
    eatWhitespaceEos mem s eos = eatWhitespaceEos mem' s eos :=
  eatWhitespaceEos_go_congr (eos - s) h

/-- Where the loop over white space ends. -/
lemma eatWhitespaceEos_go_spec (mem : ℕ → Char) {n : ℕ} (hs : s ≤ eos) (hn : eos - s ≤ n) :
    s ≤ eatWhitespaceEos.go mem eos n s ∧ eatWhitespaceEos.go mem eos n s ≤ eos ∧
      (eatWhitespaceEos.go mem eos n s < eos → mem (eatWhitespaceEos.go mem eos n s) ≠ '\n') := by
  induction n generalizing s with
  | zero => exact ⟨le_refl s, hs, fun h => absurd h (by simp only [eatWhitespaceEos.go]; omega)⟩
  | succ n ih =>
    rw [eatWhitespaceEos.go]
    split
    · next hend => exact ⟨le_refl s, hs, fun h => absurd h (by omega)⟩
    · next hend =>
      split
      · obtain ⟨hle, hrest⟩ := ih (show s + 1 ≤ eos by omega) (by omega)
        exact ⟨by omega, hrest⟩
      · next hblank =>
        split
        · obtain ⟨hskip, hskip', -⟩ := skipComment_spec mem (show s + 1 ≤ eos by omega)
          obtain ⟨hle, hrest⟩ := ih hskip' (by omega)
          exact ⟨by omega, hrest⟩
        · exact ⟨le_refl s, hs, fun _ hnl => hblank (.inr hnl)⟩

lemma eatWhitespaceEos_spec (mem : ℕ → Char) (hs : s ≤ eos) :
    s ≤ eatWhitespaceEos mem s eos ∧ eatWhitespaceEos mem s eos ≤ eos ∧
      (eatWhitespaceEos mem s eos < eos → mem (eatWhitespaceEos mem s eos) ≠ '\n') :=
  eatWhitespaceEos_go_spec mem hs (le_refl _)

lemma eatWhitespaceEosNoNl_congr (h : AgreeOn mem mem' s eos) :
    eatWhitespaceEosNoNl mem s eos = eatWhitespaceEosNoNl mem' s eos :=
  AgreeOn.scanWhile (AgreeOn.limit h)

lemma findWhitespaceEos_congr (h : AgreeOn mem mem' s eos) :
    findWhitespaceEos mem s eos = findWhitespaceEos mem' s eos :=
  AgreeOn.scanWhile (AgreeOn.limit h)

lemma lineEnd_congr (h : AgreeOn mem mem' s eos) : lineEnd mem s eos = lineEnd mem' s eos := by
  rw [lineEnd, lineEnd, AgreeOn.memchr (AgreeOn.limit h)]

lemma lineEnd_spec (mem : ℕ → Char) (hs : s ≤ eos) :
    s ≤ lineEnd mem s eos ∧ lineEnd mem s eos ≤ eos ∧
      (lineEnd mem s eos = eos ∨ mem (lineEnd mem s eos) = '\n') := by
  rw [lineEnd]
  cases h : memchr mem s (eos - s) '\n' with
  | none => exact ⟨hs, le_refl eos, .inl rfl⟩
  | some p =>
    obtain ⟨hle, hlt, hp⟩ := memchr_eq_some h
    exact ⟨hle, by simp only [Option.getD_some]; omega, .inr hp⟩

end Scans

/-! ### Lines -/

section Lines

variable {mem : ℕ → Char} {start stop s : ℕ}

/-- There is only white space between the start of a line and a place in it. -/
def LineStart (mem : ℕ → Char) (start p : ℕ) : Prop :=
  ∃ l, start ≤ l ∧ l ≤ p ∧ (l = start ∨ ∃ k, start ≤ k ∧ l = k + 1 ∧ mem k = '\n') ∧
    ∀ q, l ≤ q → q < p → isBlank (mem q) = true

/-- A text ends in a line that consists of `opt` and white space and has no newline. -/
def EndsWithOpt (mem : ℕ → Char) (start stop : ℕ) : Prop :=
  ∃ p, LineStart mem start p ∧ p + 3 ≤ stop ∧ text mem p (p + 3) = "opt".toList ∧
    ∀ q, p + 3 ≤ q → q < stop → isBlank (mem q) = true

def BetweenTokens (mem : ℕ → Char) (start stop s : ℕ) : Prop :=
  s = stop ∨ LineStart mem start s ∨ (start ≤ s ∧ mem s = '\n')

lemma betweenTokens_start (mem : ℕ → Char) (start stop : ℕ) : BetweenTokens mem start stop start :=
  .inr (.inl ⟨start, le_refl start, le_refl start, .inl rfl,
    fun _ hq hq' => absurd (lt_of_le_of_lt hq hq') (lt_irrefl start)⟩)

lemma LineStart.succ (h : LineStart mem start s) (hs : isBlank (mem s) = true) :
    LineStart mem start (s + 1) := by
  obtain ⟨l, hl, hls, hline, hblank⟩ := h
  refine ⟨l, hl, by omega, hline, fun q hq hq' => ?_⟩
  rcases Nat.eq_or_lt_of_le (Nat.lt_succ_iff.mp hq') with rfl | hq'
  · exact hs
  · exact hblank q hq hq'

lemma lineStart_newline (hle : start ≤ s) (hs : mem s = '\n') : LineStart mem start (s + 1) :=
  ⟨s + 1, by omega, le_refl _, .inr ⟨s, hle, rfl, hs⟩, fun _ hq hq' => absurd hq (by omega)⟩

/-- White space is skipped from one place between two tokens to another one. -/
lemma BetweenTokens.eatWhitespaceEos_go {n : ℕ} (h : BetweenTokens mem start stop s)
    (hstart : start ≤ s) (hstop : s ≤ stop) (hnul : ∀ p, start ≤ p → p < stop → mem p ≠ nul) :
    BetweenTokens mem start stop (eatWhitespaceEos.go mem stop n s) := by
  induction n generalizing s with
  | zero => exact h
  | succ n ih =>
    rw [eatWhitespaceEos.go]
    split
    · exact h
    · next hend =>
      split
      · next hblank =>
        refine ih ?_ (by omega) (by omega)
        -- a newline starts a line, and other white space belongs to the line
        rcases Bool.eq_false_or_eq_true (isBlank (mem s)) with hb | hb
        · rcases h with rfl | h | ⟨-, hs⟩
          · omega
          · exact .inr (.inl (h.succ hb))
          · rw [hs] at hb
            exact absurd hb (by decide)
        · have hs : mem s = '\n' := hblank.resolve_left (by rw [hb]; exact Bool.false_ne_true)
          exact .inr (.inl (lineStart_newline hstart hs))
      · split
        · obtain ⟨hskip, hskip', hends⟩ := skipComment_spec mem (show s + 1 ≤ stop by omega)
          refine ih ?_ (by omega) hskip'
          -- a comment goes to the end of its line
          rcases Nat.eq_or_lt_of_le hskip' with hend | hlt
          · exact .inl hend
          · have hchar := (hends.resolve_left (ne_of_lt hlt)).resolve_left (hnul _ (by omega) hlt)
            exact .inr (.inr ⟨by omega, hchar⟩)
        · exact h

lemma BetweenTokens.eatWhitespaceEos (h : BetweenTokens mem start stop s) (hstart : start ≤ s)
    (hstop : s ≤ stop) (hnul : ∀ p, start ≤ p → p < stop → mem p ≠ nul) :
    BetweenTokens mem start stop (eatWhitespaceEos mem s stop) :=
  h.eatWhitespaceEos_go hstart hstop hnul

lemma betweenTokens_lineEnd (hstart : start ≤ s) (hstop : s ≤ stop) :
    BetweenTokens mem start stop (lineEnd mem s stop) := by
  obtain ⟨hle, -, h | h⟩ := lineEnd_spec mem hstop
  · exact .inl h
  · exact .inr (.inr ⟨by omega, h⟩)

end Lines

end Astoria.Tokenizer
