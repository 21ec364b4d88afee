import Astoria.BgpSim.Server
import Astoria.Library.LineStream

/-!
# Asking for AS paths

The client asks the server for the ASes between the source and its entries and between its exits and
the destination, in both directions, with one request.  `getAspath` reads the reply in chunks of any
size and takes it apart line by line.  All its buffers have fixed sizes, and what does not fit is
written over other memory.

The server half of the protocol (`serve_query`) says that the reply to a request consists of the
records of its pairs, in their order.  The client half (`getAspath_reply`) says that the records are
recovered from any chunks exactly when they fit the buffers.
-/

namespace Astoria

open List
open Option hiding or_self

/-! ### The request -/

/-- The texts for the AS of a node: a number, or "-1" if the AS is not known. -/
def AsText (text : List Char) : Prop :=
  (text ≠ [] ∧ ∀ c ∈ text, c.isDigit = true) ∨ text = "-1".toList

instance : DecidablePred AsText := fun text =>
  decidable_of_iff ((text ≠ [] ∧ text.all Char.isDigit = true) ∨ text = "-1".toList)
    (by rw [AsText, List.all_eq_true])

/-- What the client asks for. -/
structure CircuitQuery where
  asSrc : List Char
  asDest : List Char
  asEntry : List (List Char)
  asExit : List (List Char)
  asTexts : ∀ text ∈ asSrc :: asDest :: (asExit ++ asEntry), AsText text

/-- Texts, each followed by a blank. -/
def spaced (texts : List (List Char)) : List Char := texts.flatMap fun text => text ++ [' ']

namespace CircuitQuery

def destTexts (q : CircuitQuery) : List (List Char) :=
  q.asSrc :: q.asDest :: (q.asExit ++ q.asEntry)

/-- The pairs of the request: from the exits to the destination and back, and from the entries to
the source and back. -/
def pairTexts (q : CircuitQuery) : List (List Char × List Char) :=
  (q.asExit.flatMap fun exit => [(exit, q.asDest), (q.asDest, exit)]) ++
    q.asEntry.flatMap fun entry => [(entry, q.asSrc), (q.asSrc, entry)]

def dests (q : CircuitQuery) : List Char := spaced q.destTexts

def pairArgs (q : CircuitQuery) : List (List Char) :=
  q.pairTexts.flatMap fun pair => [pair.1, pair.2]

def pairs (q : CircuitQuery) : List Char := spaced q.pairArgs

/-- The size of the arrays for the two texts. -/
def maxQuery : ℕ := 1000000

def text (q : CircuitQuery) : List Char :=
  q.dests ++ " -q ".toList ++ q.pairs ++ "<EOFc>".toList

/-- The request, if it fits the arrays. -/
def query (q : CircuitQuery) : Option (List Char) :=
  if q.dests.length < maxQuery ∧ q.pairs.length < maxQuery then some q.text else none

/-- The number of the pairs. -/
def qlen (q : CircuitQuery) : ℕ := q.asEntry.length * 2 + q.asExit.length * 2

end CircuitQuery

/-! ### The reply -/

/-- The ASes of a pair (`asnset`). -/
structure AsnSet where
  src : List Char
  dst : List Char
  ases : List ℤ
  deriving DecidableEq

/-- What has been taken from a reply: the complete records, and the one that is being filled. -/
structure AspathState where
  /-- The records that are complete. -/
  result : List AsnSet
  /-- The record that is being filled. -/
  current : AsnSet
  deriving DecidableEq

/-- A record before its first line. -/
def AsnSet.empty : AsnSet := ⟨[], [], []⟩

/-- The size of the buffer for a reply. -/
def maxReply : ℕ := 1000000

/-- The size of the buffer for a line. -/
def maxLine : ℕ := 50

/-- The number of ASes for which a record has room. -/
def maxAses : ℕ := 100

/-- The size of the arrays for the source and the destination of a record. -/
def maxAsText : ℕ := 10

/-- The number at the beginning of a text. -/
def atol (text : List Char) : ℤ :=
  let signed := splitSign (text.dropWhile isWhite)
  let value : ℤ := digitsValue (signed.2.takeWhile Char.isDigit)
  if signed.1 then -value else value

/-- The rest of a text after a fixed beginning. -/
def scanLiteral (literal text : List Char) : Option (List Char) :=
  if literal.isPrefixOf text then some (text.drop literal.length) else none

/-- The next word of a text, and the rest. -/
def scanWord (text : List Char) : Option (List Char × List Char) :=
  let text := text.dropWhile isWhite
  let word := text.takeWhile fun c => !isWhite c
  if word = [] then none else some (word, text.dropWhile fun c => !isWhite c)

/-- The source and the destination in the first line of a record, as far as they are found
(`sscanf` with the format "ASes from %s to %s:").  The colon belongs to the second word. -/
def scanHeader (line : List Char) : Option (List Char) × Option (List Char) :=
  match ((scanLiteral "ASes".toList line).bind fun rest =>
      scanLiteral "from".toList (rest.dropWhile isWhite)).bind scanWord with
  | none => (none, none)
  | some (src, rest) =>
    (some src, ((scanLiteral "to".toList (rest.dropWhile isWhite)).bind scanWord).map Prod.fst)

/-- Handle a line of the reply. -/
def parseLine (pairsNum : ℕ) (st : AspathState) (line : List Char) : Option AspathState :=
  if line.head? = some 'A' then
    let header := scanHeader line
    let src := header.1.getD st.current.src
    let dst := header.2.getD st.current.dst
    -- both words are ended by a null character
    if pairsNum ≤ st.result.length ∨ maxAsText ≤ src.length ∨ maxAsText ≤ dst.length then none
    else some { st with current := { st.current with src := src, dst := dst } }
  else if line.head? = some 'I' ∨ line.head? = some 'D' ∨ line.head? = some '<' then some st
  else if line.head? = some '-' then
    if pairsNum ≤ st.result.length then none
    else some ⟨st.result ++ [st.current], AsnSet.empty⟩
  else if pairsNum ≤ st.result.length ∨ maxAses ≤ st.current.ases.length then none
  else some { st with current := { st.current with ases := st.current.ases ++ [atol line] } }

/-- Take a reply apart. -/
def parseReply (pairsNum : ℕ) (buf : List Char) : Option (List AsnSet) :=
  (buf.foldlM (LineStream.feed maxLine '\n' (parseLine pairsNum)) (⟨[], AsnSet.empty⟩, [])).map
    fun st => st.1.result

/-- The last six characters are the end mark.  If less than six have been read, the comparison
includes the memory before the buffer. -/
def endsWithMark (before buf : List Char) : Bool := "<EOFs>".toList.isSuffixOf (before ++ buf)

/-- Read the reply of the server in chunks and take it apart.  `before` is the memory before the
buffer. -/
def getAspath (before : List Char) (pairsNum : ℕ) (chunks : List (List Char)) :
    Option (List AsnSet) :=
  (LineStream.readUntil maxReply (endsWithMark before) [] chunks).bind (parseReply pairsNum)

/-! ### The server half -/

section Request

variable {text : List Char}

lemma AsText.spec (h : AsText text) : ' ' ∉ text ∧ text ≠ "-q".toList ∧ text ≠ "<EOFc>".toList := by
  rcases h with ⟨-, h⟩ | rfl
  · refine ⟨fun hc => ?_, ?_, ?_⟩
    · exact absurd (h _ hc) (by decide)
    · rintro rfl
      exact absurd (h 'q' (by decide)) (by decide)
    · rintro rfl
      exact absurd (h '<' (by decide)) (by decide)
  · decide

/-- Splitting texts that are followed by blanks. -/
lemma splitOn_spaced {texts : List (List Char)} (h : ∀ text ∈ texts, ' ' ∉ text)
    (rest : List Char) : (spaced texts ++ rest).splitOn ' ' = texts ++ rest.splitOn ' ' := by
  induction texts with
  | nil => rfl
  | cons text texts ih =>
    have hcons : spaced (text :: texts) ++ rest = text ++ ' ' :: (spaced texts ++ rest) := by
      simp [spaced]
    rw [hcons, splitOn_append_cons_self_of_not_mem (h text mem_cons_self),
      ih fun t ht => h t (mem_cons_of_mem _ ht), cons_append]

lemma queryPairs_flatMap {pairs : List (List Char × List Char)}
    (h : ∀ pair ∈ pairs, pair.1 ≠ "<EOFc>".toList) (last : List Char) :
    queryPairs ((pairs.flatMap fun pair => [pair.1, pair.2]) ++ [last]) = pairs := by
  induction pairs with
  | nil => rfl
  | cons pair pairs ih =>
    have hcons : ((pair :: pairs).flatMap fun pair => [pair.1, pair.2]) ++ [last] =
        pair.1 :: pair.2 :: ((pairs.flatMap fun pair => [pair.1, pair.2]) ++ [last]) := rfl
    rw [hcons, queryPairs, if_neg (h pair mem_cons_self),
      ih fun p hp => h p (mem_cons_of_mem _ hp)]

variable {q : CircuitQuery}

lemma CircuitQuery.asText_destTexts (h : text ∈ q.destTexts) : AsText text := q.asTexts text h

lemma CircuitQuery.asText_pairTexts {pair : List Char × List Char} (h : pair ∈ q.pairTexts) :
    AsText pair.1 ∧ AsText pair.2 := by
  have hmem : pair.1 ∈ q.destTexts ∧ pair.2 ∈ q.destTexts := by
    simp only [pairTexts, mem_append, mem_flatMap, mem_cons, not_mem_nil,
      or_false] at h
    simp only [destTexts, mem_cons, mem_append]
    rcases h with ⟨exit, hexit, rfl | rfl⟩ | ⟨entry, hentry, rfl | rfl⟩
    · exact ⟨by simp [hexit], by simp⟩
    · exact ⟨by simp, by simp [hexit]⟩
    · exact ⟨by simp [hentry], by simp⟩
    · exact ⟨by simp, by simp [hentry]⟩
  exact ⟨asText_destTexts hmem.1, asText_destTexts hmem.2⟩

lemma CircuitQuery.length_pairTexts (q : CircuitQuery) : q.pairTexts.length = q.qlen := by
  simp [pairTexts, qlen, length_flatMap, add_comm]

lemma CircuitQuery.length_pairArgs (q : CircuitQuery) :
    q.pairArgs.length = q.pairTexts.length * 2 := by
  simp [pairArgs, length_flatMap]

/-- **The request arrives.**  The server takes from a request its destinations and its pairs, and an
empty destination besides. -/
lemma CircuitQuery.request_text (q : CircuitQuery) :
    requestDests q.text = q.destTexts ++ [[]] ∧ requestPairs q.text = q.pairTexts := by
  have htext : q.text =
      spaced (q.destTexts ++ [[], "-q".toList] ++ q.pairArgs) ++ "<EOFc>".toList := by
    simp [CircuitQuery.text, dests, pairs, spaced]
  have hblank : ∀ t ∈ q.destTexts ++ [[], "-q".toList] ++ q.pairArgs, ' ' ∉ t := by
    intro t ht
    simp only [mem_append, mem_cons, not_mem_nil, or_false, pairArgs,
      mem_flatMap] at ht
    rcases ht with (ht | rfl | rfl) | ⟨pair, hpair, rfl | rfl⟩
    · exact (asText_destTexts ht).spec.1
    · decide
    · decide
    · exact (asText_pairTexts hpair).1.spec.1
    · exact (asText_pairTexts hpair).2.spec.1
  have hargs : q.text.splitOn ' ' =
      (q.destTexts ++ [[]]) ++ "-q".toList :: (q.pairArgs ++ ["<EOFc>".toList]) := by
    rw [htext, splitOn_spaced hblank, splitOn_eq_singleton (by decide)]
    simp
  have hdests : requestDests q.text = q.destTexts ++ [[]] := by
    have hlast : ((q.destTexts ++ [[]]) ++ "-q".toList ::
        (q.pairArgs ++ ["<EOFc>".toList])).dropLast =
          (q.destTexts ++ [[]]) ++ "-q".toList :: q.pairArgs := by
      rw [← cons_append, ← append_assoc, dropLast_concat]
    rw [requestDests, hargs, destArgs, hlast, takeWhile_append_of_pos]
    · simp
    · intro t ht
      rw [mem_append, mem_singleton] at ht
      rcases ht with ht | rfl
      · exact decide_eq_true (asText_destTexts ht).spec.2.1
      · decide
  refine ⟨hdests, ?_⟩
  rw [requestPairs, hdests, hargs, ← drop_drop, drop_left]
  exact queryPairs_flatMap (fun pair hpair => (asText_pairTexts hpair).1.spec.2.2) _

end Request

def recordLines (pair : List Char × List Char) (ases : List Asn) : List (List Char) :=
  ("ASes from ".toList ++ pair.1 ++ " to ".toList ++ pair.2 ++ ":".toList) ::
    (ases.map (Nat.toDigits 10) ++ ["-".toList])

def recordText (pair : List Char × List Char) (ases : List Asn) : List Char :=
  (recordLines pair ases).flatMap fun line => line ++ ['\n']

/-- The server writes the ASes of a pair as the text of a record. -/
lemma getBestPaths_eq_map (ds : List Char → Option Destination) (pair : List Char × List Char) :
    getBestPaths ds pair.1 pair.2 = (bestAses ds pair.1 pair.2).map (recordText pair) := by
  have hrecord : ∀ ases, recordHeader pair.1 pair.2 ++ ases.flatMap asnLine ++ "-\n".toList =
      recordText pair ases := by
    intro ases
    have hend : "-\n".toList = "-".toList ++ ['\n'] := by decide
    have hcolon : ":\n".toList = ":".toList ++ ['\n'] := by decide
    unfold recordText recordLines recordHeader
    rw [flatMap_cons, flatMap_append, flatMap_singleton, flatMap_map, hend, hcolon]
    simp only [append_assoc]
    rfl
  rw [getBestPaths]
  exact congrArg (fun f => Option.map f _) (funext hrecord)

/-- The ASes are an answer to a pair, by a server with some of its destinations. -/
def AnswerOf (P : Params) (g : NetworkGraph) (pair : List Char × List Char) (ases : List Asn) :
    Prop :=
  ∃ ds, KnownDestinations P g ds ∧ bestAses ds pair.1 pair.2 = some ases

/-- The text is the record of a pair of ASes. -/
def RecordOf (P : Params) (g : NetworkGraph) (pair : List Char × List Char) (record : List Char) :
    Prop :=
  (AsText pair.1 ∧ AsText pair.2) ∧ ∃ ases, AnswerOf P g pair ases ∧ record = recordText pair ases

/-- The reply with the given answers to the pairs of a request. -/
def replyOf (q : CircuitQuery) (answers : List (List Asn)) : List Char :=
  ((q.pairTexts.zip answers).flatMap fun r => recordText r.1 r.2) ++ "<EOFs>".toList

section Reply

variable {P : Params} {g : NetworkGraph}

/-- The source of a pair of ASes is recovered from its key. -/
lemma take_queryKey {pair : List Char × List Char} (h : AsText pair.1) :
    (if (queryKey pair).head? = some '-' then (queryKey pair).take 2
      else (queryKey pair).takeWhile Char.isDigit) = pair.1 := by
  obtain ⟨src, dst⟩ := pair
  rcases h with ⟨hne, hdigits⟩ | rfl
  · dsimp only at hne hdigits
    obtain ⟨c, cs, rfl⟩ := exists_cons_of_ne_nil hne
    have hc : c ≠ '-' := by
      rintro rfl
      exact absurd (hdigits '-' mem_cons_self) (by decide)
    rw [if_neg (by simpa [queryKey] using hc), queryKey, append_assoc,
      takeWhile_append_of_pos hdigits]
    simp
  · simp [queryKey]

lemma queryKey_injective {pair pair' : List Char × List Char} (h : AsText pair.1)
    (h' : AsText pair'.1) (hkey : queryKey pair = queryKey pair') : pair = pair' := by
  have hsrc : pair.1 = pair'.1 := by rw [← take_queryKey h, hkey, take_queryKey h']
  have hdst : pair.2 = pair'.2 := by
    rw [queryKey, queryKey, hsrc] at hkey
    exact append_cancel_left hkey
  exact Prod.ext hsrc hdst

/-- The records of a reply, with their ASes. -/
lemma exists_answers {pairs : List (List Char × List Char)} {records : List (List Char)}
    (h : Forall₂ (RecordOf P g) pairs records) :
    ∃ answers, Forall₂ (AnswerOf P g) pairs answers ∧
      records.flatten = (pairs.zip answers).flatMap fun r => recordText r.1 r.2 := by
  induction h with
  | nil => exact ⟨[], Forall₂.nil, rfl⟩
  | cons hr _ ih =>
    obtain ⟨-, ases, hases, rfl⟩ := hr
    obtain ⟨answers, hanswers, hflat⟩ := ih
    refine ⟨ases :: answers, Forall₂.cons hases hanswers, ?_⟩
    rw [flatten_cons, hflat, zip_cons_cons, flatMap_cons]

/-- **The server half.**  A server that has been asked for pairs of ASes replies to a request with
the records of its pairs, in their order, unless it throws an exception. -/
lemma serve_query {history : List (List Char)} {st : ServerState} (q : CircuitQuery)
    (hhistory : ∀ data ∈ history, ∀ pair ∈ requestPairs data, AsText pair.1 ∧ AsText pair.2)
    (hrun : serveAll P g ServerState.fresh history = some st) :
    (∃ st' answers, Forall₂ (AnswerOf P g) q.pairTexts answers ∧
      serve P g st q.text = some (st', replyOf q answers)) ∨
    (serve P g st q.text = none ∧
      ((∃ dest ∈ q.destTexts ++ [[]], initDestination P g dest = none) ∨
        ∃ ds, ∃ pair ∈ q.pairTexts, bestAses ds pair.1 pair.2 = none)) := by
  have hkey : ∀ data, (∀ pair ∈ requestPairs data, AsText pair.1 ∧ AsText pair.2) →
      ∀ pair ∈ requestPairs data, ∀ pair' record, queryKey pair' = queryKey pair →
        RecordOf P g pair' record → RecordOf P g pair record := by
    intro data hdata pair hpair pair' record hk hr
    rw [← queryKey_injective hr.1.1 (hdata pair hpair).1 hk]
    exact hr
  have hans : ∀ data, (∀ pair ∈ requestPairs data, AsText pair.1 ∧ AsText pair.2) →
      ∀ ds, MetBy P g data ds → ∀ pair ∈ requestPairs data, ∀ record,
        getBestPaths ds pair.1 pair.2 = some record → RecordOf P g pair record := by
    intro data hdata ds hds pair hpair record hr
    rw [getBestPaths_eq_map] at hr
    obtain ⟨ases, hases, rfl⟩ := map_eq_some_iff.mp hr
    exact ⟨hdata pair hpair, ases, ⟨ds, hds.known, hases⟩, rfl⟩
  have hfresh : CacheHolds (RecordOf P g) ServerState.fresh := fun key record hr => by cases hr
  obtain ⟨hi, hc⟩ := serveAll_spec initialised_fresh hfresh
    (fun data hd => hkey data (hhistory data hd)) (fun data hd => hans data (hhistory data hd)) hrun
  obtain ⟨hdests, hpairs⟩ := q.request_text
  have htext : ∀ pair ∈ requestPairs q.text, AsText pair.1 ∧ AsText pair.2 := by
    rw [hpairs]
    exact fun pair hpair => CircuitQuery.asText_pairTexts hpair
  have hspec := serve_spec hi hc (hkey q.text htext) (hans q.text htext)
  rw [hpairs, hdests] at hspec
  rcases hspec with ⟨st', records, hserve, hrecords, -⟩ | ⟨hnone, hinit | ⟨ds, -, pair, hpair, hr⟩⟩
  · obtain ⟨answers, hanswers, hflat⟩ := exists_answers hrecords
    exact .inl ⟨st', answers, hanswers, by rw [hserve, hflat, replyOf]⟩
  · exact .inr ⟨hnone, .inl hinit⟩
  · rw [getBestPaths_eq_map, map_eq_none_iff] at hr
    exact .inr ⟨hnone, .inr ⟨ds, pair, hpair, hr⟩⟩

/-- A server that replies has answered the request. -/
lemma answers_of_serve {history : List (List Char)} {st st' : ServerState} {q : CircuitQuery}
    {reply : List Char}
    (hhistory : ∀ data ∈ history, ∀ pair ∈ requestPairs data, AsText pair.1 ∧ AsText pair.2)
    (hrun : serveAll P g ServerState.fresh history = some st)
    (hserve : serve P g st q.text = some (st', reply)) :
    ∃ answers, Forall₂ (AnswerOf P g) q.pairTexts answers ∧ reply = replyOf q answers := by
  rcases serve_query q hhistory hrun with ⟨st₁, answers, hanswers, hserve₁⟩ | ⟨hnone, -⟩
  · rw [hserve₁, Option.some.injEq, Prod.mk.injEq] at hserve
    exact ⟨answers, hanswers, hserve.2.symm⟩
  · rw [hnone] at hserve
    cases hserve

end Reply

/-! ### The client half -/

/-- A record fits the arrays of the client. -/
structure RecordFits (pair : List Char × List Char) (ases : List Asn) : Prop where
  /-- The source, with a null character. -/
  src : pair.1.length < maxAsText
  /-- The destination, with a colon and a null character. -/
  dst : pair.2.length + 1 < maxAsText
  ases : ases.length ≤ maxAses

instance (pair : List Char × List Char) (ases : List Asn) : Decidable (RecordFits pair ases) :=
  decidable_of_iff (pair.1.length < maxAsText ∧ pair.2.length + 1 < maxAsText ∧
    ases.length ≤ maxAses)
    ⟨fun h => ⟨h.1, h.2.1, h.2.2⟩, fun h => ⟨h.src, h.dst, h.ases⟩⟩

/-- AS numbers as the client stores them. -/
def longs (ases : List Asn) : List ℤ := ases.map (Nat.cast : ℕ → ℤ)

/-- What the client makes of a record. -/
def asnSetOf (pair : List Char × List Char) (ases : List Asn) : AsnSet :=
  ⟨pair.1, pair.2 ++ [':'], longs ases⟩

section Parse

variable {pairsNum : ℕ} {st : AspathState} {pair : List Char × List Char}

lemma AsText.word {text : List Char} (h : AsText text) :
    text ≠ [] ∧ ∀ c ∈ text, isWhite c = false ∧ c ≠ '\n' ∧ c ≠ '>' := by
  rcases h with ⟨hne, hdigits⟩ | rfl
  · refine ⟨hne, fun c hc => ?_⟩
    have hd := hdigits c hc
    have hrange : 48 ≤ c.toNat := by
      simp only [Char.isDigit, Bool.and_eq_true, decide_eq_true_eq] at hd
      exact hd.1
    refine ⟨?_, ?_, ?_⟩
    · simp only [isWhite, Bool.or_eq_false_iff, Bool.and_eq_false_iff, decide_eq_false_iff_not]
      refine ⟨?_, .inr (by omega)⟩
      rintro rfl
      exact absurd hrange (by decide)
    · rintro rfl
      exact absurd hd (by decide)
    · rintro rfl
      exact absurd hd (by decide)
  · refine ⟨by decide, fun c hc => ?_⟩
    have hc' : c = '-' ∨ c = '1' := by simpa using hc
    rcases hc' with rfl | rfl <;> decide

lemma scanWord_of_word {word rest : List Char} (hne : word ≠ [])
    (hword : ∀ c ∈ word, isWhite c = false) (hrest : rest.head?.all isWhite) :
    scanWord (' ' :: (word ++ rest)) = some (word, rest) := by
  obtain ⟨c, cs, rfl⟩ := exists_cons_of_ne_nil hne
  have hc : isWhite c = false := hword c mem_cons_self
  have hdrop : (' ' :: (c :: cs ++ rest)).dropWhile isWhite = c :: cs ++ rest := by
    rw [dropWhile_cons_of_pos (by decide), cons_append,
      dropWhile_cons_of_neg (by simp [hc])]
  have hpos : ∀ a ∈ c :: cs, (!isWhite a) = true := fun a ha => by simp [hword a ha]
  have htake : rest.takeWhile (fun c => !isWhite c) = [] ∧
      rest.dropWhile (fun c => !isWhite c) = rest := by
    cases rest with
    | nil => exact ⟨rfl, rfl⟩
    | cons r rest =>
      simp only [head?_cons, all_some] at hrest
      exact ⟨by simp [hrest], by simp [hrest]⟩
  unfold scanWord
  simp only [hdrop]
  rw [takeWhile_append_of_pos hpos, dropWhile_append_of_pos hpos, htake.1, htake.2,
    append_nil, if_neg (cons_ne_nil c cs)]

/-- The first line of a record names its source and its destination. -/
lemma scanHeader_eq (hsrc : AsText pair.1) (hdst : AsText pair.2) :
    scanHeader ("ASes from ".toList ++ pair.1 ++ " to ".toList ++ pair.2 ++ ":".toList) =
      (some pair.1, some (pair.2 ++ [':'])) := by
  have hline : "ASes from ".toList ++ pair.1 ++ " to ".toList ++ pair.2 ++ ":".toList =
      "ASes".toList ++ (' ' :: ("from".toList ++ (' ' :: (pair.1 ++ (' ' :: ("to".toList ++
        (' ' :: ((pair.2 ++ [':']) ++ [])))))))) := by
    simp
  have hliteral : ∀ literal rest : List Char, scanLiteral literal
      (literal ++ rest) = some rest := by
    intro literal rest
    rw [scanLiteral, if_pos (List.isPrefixOf_iff_prefix.mpr (prefix_append _ _)),
      drop_left]
  have hblank : ∀ rest : List Char, (' ' :: ('f' :: rest)).dropWhile isWhite = 'f' :: rest ∧
      (' ' :: ('t' :: rest)).dropWhile isWhite = 't' :: rest := by
    intro rest
    constructor <;>
      rw [dropWhile_cons_of_pos (by decide), dropWhile_cons_of_neg (by decide)]
  have hfrom : ∀ rest : List Char, (' ' :: ("from".toList ++ rest)).dropWhile isWhite =
      "from".toList ++ rest := fun rest => (hblank _).1
  have hto : ∀ rest : List Char, (' ' :: ("to".toList ++ rest)).dropWhile isWhite =
      "to".toList ++ rest := fun rest => (hblank _).2
  have hword₁ :=
    @scanWord_of_word pair.1 (' ' :: ("to".toList ++ (' ' :: ((pair.2 ++ [':']) ++ []))))
      hsrc.word.1 (fun c hc => (hsrc.word.2 c hc).1) (by rw [head?_cons]; decide)
  have hword₂ := @scanWord_of_word (pair.2 ++ [':']) [] (by simp)
    (fun c hc => by
      rw [mem_append, mem_singleton] at hc
      rcases hc with hc | rfl
      · exact (hdst.word.2 c hc).1
      · decide) (by decide)
  rw [hline, scanHeader, hliteral, bind_some, hfrom, hliteral, bind_some, hword₁]
  simp only [hto, hliteral, bind_some, hword₂, map_some]

lemma handleLine_header (hsrc : AsText pair.1) (hdst : AsText pair.2)
    (hroom : st.result.length < pairsNum) :
    LineStream.handleLine maxLine (parseLine pairsNum) st
        ("ASes from ".toList ++ pair.1 ++ " to ".toList ++ pair.2 ++ ":".toList) =
      if pair.1.length < maxAsText ∧ pair.2.length + 1 < maxAsText then
        some { st with current := { st.current with src := pair.1, dst := pair.2 ++ [':'] } }
      else none := by
  have hlen : ("ASes from ".toList ++ pair.1 ++ " to ".toList ++ pair.2 ++ ":".toList).length =
      pair.1.length + pair.2.length + 15 := by
    simp only [length_append]
    have h₁ : "ASes from ".toList.length = 10 := by decide
    have h₂ : " to ".toList.length = 4 := by decide
    have h₃ : ":".toList.length = 1 := by decide
    omega
  have hhead : ("ASes from ".toList ++ pair.1 ++ " to ".toList ++ pair.2 ++ ":".toList).head? =
      some 'A' := by
    simp
  unfold LineStream.handleLine
  rw [hlen]
  by_cases hfit : pair.1.length < maxAsText ∧ pair.2.length + 1 < maxAsText
  · have hline : pair.1.length + pair.2.length + 15 < maxLine := by
      unfold maxLine
      unfold maxAsText at hfit
      omega
    rw [if_pos hline, if_pos hfit, parseLine, if_pos hhead, scanHeader_eq hsrc hdst]
    simp only [getD_some]
    rw [if_neg]
    rw [length_append, length_singleton]
    omega
  · rw [if_neg hfit]
    split_ifs with hline
    · rw [parseLine, if_pos hhead, scanHeader_eq hsrc hdst]
      simp only [getD_some]
      rw [if_pos]
      rw [length_append, length_singleton]
      omega
    · rfl

lemma atol_toDigits (asn : ℕ) : atol (Nat.toDigits 10 asn) = asn := by
  have hdigits : ∀ c ∈ Nat.toDigits 10 asn, c.isDigit = true := fun c hc =>
    isDigit_of_mem_toDigits hc
  unfold atol
  simp only [dropWhile_isWhite_of_isDigit hdigits, splitSign_of_isDigit hdigits,
    takeWhile_eq_self_iff.mpr hdigits, digitsValue_toDigits, Bool.false_eq_true, if_false]

lemma handleLine_asn (hroom : st.result.length < pairsNum) {asn : Asn} (hasn : asn < numASNs) :
    LineStream.handleLine maxLine (parseLine pairsNum) st (Nat.toDigits 10 asn) =
      if st.current.ases.length < maxAses then
        some { st with current := { st.current with ases := st.current.ases ++ [(asn : ℤ)] } }
      else none := by
  have hlen : (Nat.toDigits 10 asn).length < maxLine := by
    have hle : (Nat.toDigits 10 asn).length ≤ 6 := by
      rw [Nat.length_toDigits_le_iff (by decide) (by decide)]
      exact lt_of_lt_of_le hasn (by decide)
    unfold maxLine
    omega
  obtain ⟨c, cs, hcs⟩ := exists_cons_of_ne_nil (@Nat.toDigits_ne_nil asn 10)
  have hc : c.isDigit = true :=
    Nat.isDigit_of_mem_toDigits (by decide) (by decide)
      (show c ∈ Nat.toDigits 10 asn by rw [hcs]; exact mem_cons_self)
  have hhead : ∀ mark : Char, mark.isDigit = false → (Nat.toDigits 10 asn).head? ≠ some mark := by
    intro mark hmark he
    rw [hcs, head?_cons, Option.some.injEq] at he
    rw [← he, hc] at hmark
    cases hmark
  rw [LineStream.handleLine, if_pos hlen, parseLine, if_neg (hhead 'A' (by decide)), if_neg, if_neg
    (hhead '-' (by decide)), atol_toDigits]
  · split_ifs with h₁ h₂ h₂
    · omega
    · rfl
    · rfl
    · omega
  · rintro (h | h | h)
    · exact hhead 'I' (by decide) h
    · exact hhead 'D' (by decide) h
    · exact hhead '<' (by decide) h

variable {ases : List Asn}

lemma foldlM_handleLine_ases (hroom : st.result.length < pairsNum)
    (hases : ∀ asn ∈ ases, asn < numASNs) (hfit : st.current.ases.length ≤ maxAses) :
    (ases.map (Nat.toDigits 10)).foldlM (LineStream.handleLine maxLine (parseLine pairsNum)) st =
      if st.current.ases.length + ases.length ≤ maxAses then
        some { st with current := { st.current with ases := st.current.ases ++ longs ases } }
      else none := by
  induction ases generalizing st with
  | nil => simp [hfit, longs]
  | cons asn ases ih =>
    rw [map_cons, foldlM_cons, handleLine_asn hroom (hases asn mem_cons_self),
      length_cons]
    by_cases hlt : st.current.ases.length < maxAses
    · have hrest := @ih { st with current := { st.current with
          ases := st.current.ases ++ [(asn : ℤ)] } } hroom
        (fun a ha => hases a (mem_cons_of_mem _ ha))
        (by rw [length_append, length_singleton]; omega)
      rw [if_pos hlt, bind_eq_bind, bind_some, hrest]
      simp only [longs, length_append, length_singleton, map_cons, append_assoc,
        singleton_append, add_assoc, add_comm 1]
    · rw [if_neg hlt, if_neg (by omega)]
      rfl

lemma handleLine_end (hroom : st.result.length < pairsNum) :
    LineStream.handleLine maxLine (parseLine pairsNum) st "-".toList =
      some ⟨st.result ++ [st.current], AsnSet.empty⟩ := by
  have hnot : ¬ pairsNum ≤ st.result.length := not_le.mpr hroom
  have hlen : "-".toList.length < maxLine := by decide
  rw [LineStream.handleLine, if_pos hlen, parseLine, if_neg (by decide), if_neg (by decide),
    if_pos (by decide), if_neg hnot]

/-- **A record.**  It is taken over if it fits the arrays. -/
lemma foldlM_handleLine_record {result : List AsnSet} (hroom : result.length < pairsNum)
    (hsrc : AsText pair.1) (hdst : AsText pair.2)
    (hases : ∀ asn ∈ ases, asn < numASNs) :
    (recordLines pair ases).foldlM (LineStream.handleLine maxLine (parseLine pairsNum))
        ⟨result, AsnSet.empty⟩ =
      if RecordFits pair ases then some ⟨result ++ [asnSetOf pair ases], AsnSet.empty⟩
        else none := by
  rw [recordLines, foldlM_cons, handleLine_header hsrc hdst hroom]
  by_cases htexts : pair.1.length < maxAsText ∧ pair.2.length + 1 < maxAsText
  · rw [if_pos htexts, bind_eq_bind, bind_some, foldlM_append,
      foldlM_handleLine_ases hroom hases (Nat.zero_le _)]
    simp only [AsnSet.empty, length_nil, zero_add, nil_append]
    by_cases hlen : ases.length ≤ maxAses
    · rw [if_pos hlen, if_pos ⟨htexts.1, htexts.2, hlen⟩, bind_eq_bind, bind_some,
        foldlM_cons, handleLine_end hroom]
      rfl
    · rw [if_neg hlen, if_neg fun h => hlen h.ases]
      rfl
  · rw [if_neg htexts, if_neg fun h => htexts ⟨h.src, h.dst⟩]
    rfl

variable {records : List ((List Char × List Char) × List Asn)}

lemma foldlM_handleLine_records {result : List AsnSet}
    (hroom : result.length + records.length ≤ pairsNum)
    (htexts : ∀ r ∈ records, AsText r.1.1 ∧ AsText r.1.2)
    (hases : ∀ r ∈ records, ∀ asn ∈ r.2, asn < numASNs) :
    (records.flatMap fun r => recordLines r.1 r.2).foldlM
        (LineStream.handleLine maxLine (parseLine pairsNum)) ⟨result, AsnSet.empty⟩ =
      if ∀ r ∈ records, RecordFits r.1 r.2 then
        some ⟨result ++ records.map fun r => asnSetOf r.1 r.2, AsnSet.empty⟩
      else none := by
  induction records generalizing result with
  | nil => simp
  | cons r records ih =>
    rw [length_cons] at hroom
    obtain ⟨hsrc, hdst⟩ := htexts r mem_cons_self
    rw [flatMap_cons, foldlM_append,
      foldlM_handleLine_record (by omega) hsrc hdst (hases r mem_cons_self)]
    simp only [forall_mem_cons]
    by_cases hfit : RecordFits r.1 r.2
    · rw [if_pos hfit, bind_eq_bind, bind_some,
        ih (by rw [length_append, length_singleton]; omega)
          (fun s hs => htexts s (mem_cons_of_mem _ hs))
          (fun s hs => hases s (mem_cons_of_mem _ hs))]
      by_cases hrest : ∀ s ∈ records, RecordFits s.1 s.2
      · rw [if_pos hrest, if_pos ⟨hfit, hrest⟩, map_cons, append_assoc,
          singleton_append]
      · rw [if_neg hrest, if_neg fun h => hrest h.2]
    · rw [if_neg hfit, if_neg fun h => hfit h.1]
      rfl

lemma notMem_recordLines (hsrc : AsText pair.1) (hdst : AsText pair.2) {c : Char}
    (hc : c = '\n' ∨ c = '>') : ∀ line ∈ recordLines pair ases, c ∉ line := by
  have htext : ∀ text, AsText text → c ∉ text := by
    intro text ht hmem
    have := (ht.word.2 c hmem).2
    rcases hc with hc | hc
    · exact this.1 hc
    · exact this.2 hc
  intro line hline
  simp only [recordLines, mem_cons, mem_append, List.mem_map, not_mem_nil,
    or_false] at hline
  rcases hline with rfl | ⟨asn, -, rfl⟩ | rfl
  · simp only [mem_append, not_or]
    refine ⟨⟨⟨⟨?_, htext _ hsrc⟩, ?_⟩, htext _ hdst⟩, ?_⟩ <;> rcases hc with rfl | rfl <;> decide
  · exact htext _ (.inl ⟨Nat.toDigits_ne_nil, fun d hd =>
      Nat.isDigit_of_mem_toDigits (by decide) (by decide) hd⟩)
  · rcases hc with rfl | rfl <;> decide

/-- **A reply.**  It is taken apart into its records if they fit the arrays. -/
lemma parseReply_eq (hroom : records.length ≤ pairsNum)
    (htexts : ∀ r ∈ records, AsText r.1.1 ∧ AsText r.1.2)
    (hases : ∀ r ∈ records, ∀ asn ∈ r.2, asn < numASNs) :
    parseReply pairsNum ((records.flatMap fun r => recordText r.1 r.2) ++ "<EOFs>".toList) =
      if ∀ r ∈ records, RecordFits r.1 r.2 then some (records.map fun r => asnSetOf r.1 r.2)
      else none := by
  have hlines : (records.flatMap fun r => recordText r.1 r.2) =
      (records.flatMap fun r => recordLines r.1 r.2).flatMap fun line => line ++ ['\n'] := by
    rw [flatMap_assoc]
    rfl
  have hnl : ∀ line ∈ records.flatMap fun r => recordLines r.1 r.2, '\n' ∉ line := by
    intro line hline
    obtain ⟨r, hr, hline⟩ := mem_flatMap.mp hline
    exact notMem_recordLines (htexts r hr).1 (htexts r hr).2 (.inl rfl) line hline
  rw [parseReply, hlines, foldlM_append, LineStream.foldlM_feed_lines hnl,
    foldlM_handleLine_records (by simpa using hroom) htexts hases]
  by_cases hfit : ∀ r ∈ records, RecordFits r.1 r.2
  · rw [if_pos hfit, if_pos hfit, map_some, bind_eq_bind, bind_some,
      LineStream.foldlM_feed_of_notMem (by decide) (Nat.zero_le _), if_pos (by decide),
      map_some, nil_append]
  · rw [if_neg hfit, if_neg hfit]
    rfl

lemma endsWithMark_eq_false {before body start : List Char} (hbody : '>' ∉ body) (hne : start ≠ [])
    (hstart : start <+: body ++ "<EOFs>".toList) (hproper : start ≠ body ++ "<EOFs>".toList) :
    endsWithMark before start = false := by
  have hmark : body ++ "<EOFs>".toList = (body ++ "<EOFs".toList) ++ ['>'] := by
    rw [append_assoc]
    rfl
  rw [hmark] at hstart hproper
  have hnot : '>' ∉ start := by
    rcases prefix_concat_iff.mp hstart with he | hpre
    · exact absurd he hproper
    · intro hmem
      rcases mem_append.mp (hpre.subset hmem) with h | h
      · exact hbody h
      · exact absurd h (by decide)
  by_contra hends
  rw [Bool.not_eq_false, endsWithMark, isSuffixOf_iff_suffix] at hends
  -- the mark ends with a character that does not occur
  have hlast : (before ++ start).getLast? = some '>' := by
    obtain ⟨pre, hpre⟩ := hends
    rw [← hpre, getLast?_append]
    rfl
  rw [getLast?_append_of_ne_nil _ hne] at hlast
  exact hnot (mem_of_getLast? hlast)

end Parse

/-! ### The protocol -/

/-- The client asks for the ASes of a request: it builds the request, which has to fit its arrays,
and takes the reply apart. -/
def askAspath (q : CircuitQuery) (before : List Char) (chunks : List (List Char)) :
    Option (List AsnSet) :=
  q.query.bind fun _ => getAspath before q.qlen chunks

/-- Some chunks in which a reply can arrive.  The client asks for at most `maxReply` characters at a
time. -/
def ChunksOf (reply : List Char) (chunks : List (List Char)) : Prop :=
  (∀ chunk ∈ chunks, chunk ≠ [] ∧ chunk.length ≤ maxReply) ∧ chunks.flatten = reply

/-- However the reply arrives, the client recovers the answers of the server. -/
def Recovers (q : CircuitQuery) (answers : List (List Asn)) (reply : List Char) : Prop :=
  ∀ before chunks, ChunksOf reply chunks →
    ∃ result, askAspath q before chunks = some result ∧
      result.map AsnSet.ases = answers.map longs

/-- The request, the reply and the records fit the arrays of the client. -/
structure ProtocolFits (q : CircuitQuery) (answers : List (List Asn)) (reply : List Char) :
    Prop where
  dests : q.dests.length < CircuitQuery.maxQuery
  pairs : q.pairs.length < CircuitQuery.maxQuery
  reply : reply.length ≤ maxReply
  records : ∀ r ∈ q.pairTexts.zip answers, RecordFits r.1 r.2

section Protocol

variable {P : Params} {g : NetworkGraph} {q : CircuitQuery} {answers : List (List Asn)}

/-- The answers of a server fit its tables. -/
lemma lt_of_forall₂_answerOf {pairs : List (List Char × List Char)}
    (h : Forall₂ (AnswerOf P g) pairs answers) :
    ∀ r ∈ pairs.zip answers, ∀ asn ∈ r.2, asn < numASNs := by
  induction h with
  | nil => simp
  | cons hr _ ih =>
    rw [zip_cons_cons, forall_mem_cons]
    obtain ⟨ds, hds, hases⟩ := hr
    exact ⟨(bestAses_spec hds hases).1, ih⟩

lemma endsWithMark_replyOf {before start : List Char} (hne : start ≠ [])
    (hstart : start <+: replyOf q answers) (hproper : start ≠ replyOf q answers) :
    endsWithMark before start = false := by
  refine endsWithMark_eq_false (fun hmem => ?_) hne hstart hproper
  obtain ⟨r, hr, hmem⟩ := mem_flatMap.mp hmem
  obtain ⟨line, hline, hmem⟩ := mem_flatMap.mp hmem
  obtain ⟨hsrc, hdst⟩ := CircuitQuery.asText_pairTexts (of_mem_zip hr).1
  rcases mem_append.mp hmem with hmem | hmem
  · exact notMem_recordLines hsrc hdst (.inr rfl) line hline hmem
  · exact absurd hmem (by decide)

section Client

variable (h : Forall₂ (AnswerOf P g) q.pairTexts answers)

include h

lemma parseReply_replyOf : parseReply q.qlen (replyOf q answers) =
    if ∀ r ∈ q.pairTexts.zip answers, RecordFits r.1 r.2 then
      some ((q.pairTexts.zip answers).map fun r => asnSetOf r.1 r.2)
    else none := by
  refine parseReply_eq ?_ (fun r hr => CircuitQuery.asText_pairTexts (of_mem_zip hr).1)
    (lt_of_forall₂_answerOf h)
  rw [← q.length_pairTexts, length_zip]
  exact Nat.min_le_left _ _

/-- If everything fits the arrays, the answers are recovered. -/
lemma ProtocolFits.askAspath (hfit : ProtocolFits q answers (replyOf q answers))
    {before : List Char} {chunks : List (List Char)}
    (hchunks : ChunksOf (replyOf q answers) chunks) :
    ∃ result, askAspath q before chunks = some result ∧
      result.map AsnSet.ases = answers.map longs := by
  have hread := @LineStream.readUntil_eq_some Char maxReply (endsWithMark before)
    (replyOf q answers) [] hfit.reply (fun _ => endsWithMark_replyOf) chunks
    (fun c hc => (hchunks.1 c hc).1) hchunks.2
  refine ⟨(q.pairTexts.zip answers).map fun r => asnSetOf r.1 r.2, ?_, ?_⟩
  · rw [Astoria.askAspath, CircuitQuery.query, if_pos ⟨hfit.dests, hfit.pairs⟩, bind_some,
      getAspath, hread, bind_some, parseReply_replyOf h, if_pos hfit.records]
  · have hzip : (q.pairTexts.zip answers).map Prod.snd = answers :=
      map_snd_zip (le_of_eq h.length_eq.symm)
    rw [List.map_map]
    nth_rewrite 2 [← hzip]
    rw [List.map_map]
    rfl

/-- If nothing is written over other memory, however the reply arrives, everything fits the
arrays. -/
lemma protocolFits_of_ne_none (hsome : ∀ chunks, ChunksOf (replyOf q answers) chunks →
    askAspath q [] chunks ≠ none) : ProtocolFits q answers (replyOf q answers) := by
  have hlen : (replyOf q answers).length ≤ maxReply := by
    by_contra hlong
    obtain ⟨chunks, hchunks, hflat, hnone⟩ := LineStream.exists_readUntil_eq_none (by decide)
      (not_le.mp hlong) (fun _ => @endsWithMark_replyOf q answers [] _)
    obtain ⟨result, hresult⟩ := ne_none_iff_exists'.mp (hsome chunks ⟨hchunks, hflat⟩)
    obtain ⟨-, -, hresult⟩ := bind_eq_some_iff.mp hresult
    rw [getAspath, hnone] at hresult
    cases hresult
  have hne : replyOf q answers ≠ [] := by simp [replyOf]
  have hread := @LineStream.readUntil_eq_some Char maxReply (endsWithMark [])
    (replyOf q answers) [] hlen (fun _ => endsWithMark_replyOf) [replyOf q answers]
    (by simpa using hne) (by simp)
  obtain ⟨result, hresult⟩ := ne_none_iff_exists'.mp
    (hsome [replyOf q answers] ⟨by simpa using ⟨hne, hlen⟩, by simp⟩)
  obtain ⟨text, hquery, hresult⟩ := bind_eq_some_iff.mp hresult
  rw [getAspath, hread, bind_some, parseReply_replyOf h] at hresult
  rw [CircuitQuery.query] at hquery
  split_ifs at hquery hresult with hfits hrecords
  exact ⟨hfits.1, hfits.2, hlen, hrecords⟩

/-- **The client half.**  The answers are recovered from the reply exactly when everything fits the
arrays. -/
lemma recovers_iff :
    Recovers q answers (replyOf q answers) ↔ ProtocolFits q answers (replyOf q answers) := by
  refine ⟨fun hrec => protocolFits_of_ne_none h fun chunks hchunks => ?_,
    fun hfit before chunks hchunks => hfit.askAspath h hchunks⟩
  obtain ⟨result, hresult, -⟩ := hrec [] chunks hchunks
  rw [hresult]
  exact some_ne_none _

end Client

/-- **When the answers are recovered.**  Let a server that has been asked for pairs of ASes reply to
a request.  Then the reply has the answers of the server to all pairs, in their order, and the
client recovers them, however the reply arrives, if and only if the request, the reply and the
records fit the arrays of the client. -/
theorem getAspath_recovers_iff (P : Params) (g : NetworkGraph) (history : List (List Char))
    (st st' : ServerState) (q : CircuitQuery) (reply : List Char)
    (hhistory : ∀ data ∈ history, ∀ pair ∈ requestPairs data, AsText pair.1 ∧ AsText pair.2)
    (hrun : serveAll P g ServerState.fresh history = some st)
    (hserve : serve P g st q.text = some (st', reply)) :
    ∃ answers, Forall₂ (AnswerOf P g) q.pairTexts answers ∧ reply = replyOf q answers ∧
      (Recovers q answers reply ↔ ProtocolFits q answers reply) := by
  obtain ⟨answers, hanswers, rfl⟩ := answers_of_serve hhistory hrun hserve
  exact ⟨answers, hanswers, rfl, recovers_iff hanswers⟩

/-- A request for one entry and one exit, both with known ASes. -/
def smallQuery : CircuitQuery where
  asSrc := "1".toList
  asDest := "2".toList
  asEntry := ["2".toList]
  asExit := ["1".toList]
  asTexts := by decide

/-- The theorem at a graph of a customer and its provider. -/
theorem getAspath_recovers_smallQuery :
    ∃ st' reply answers, serve {} (processCyclopsFile ["1\t2\tc2p".toList]) ServerState.fresh
        smallQuery.text = some (st', reply) ∧
      Forall₂ (AnswerOf {} (processCyclopsFile ["1\t2\tc2p".toList])) smallQuery.pairTexts
        answers ∧
      (Recovers smallQuery answers reply ↔ ProtocolFits smallQuery answers reply) := by
  have hrun : (serve {} (processCyclopsFile ["1\t2\tc2p".toList]) ServerState.fresh
      smallQuery.text).isSome = true := by
    decide +kernel
  obtain ⟨⟨st', reply⟩, hserve⟩ := isSome_iff_exists.mp hrun
  obtain ⟨answers, hanswers, -, hiff⟩ := getAspath_recovers_iff {} _ [] ServerState.fresh st'
    smallQuery reply (by simp) rfl hserve
  exact ⟨st', reply, answers, hserve, hanswers, hiff⟩

/-- The length of short texts that are followed by blanks. -/
lemma length_spaced_le {texts : List (List Char)} {k : ℕ} (h : ∀ text ∈ texts, text.length ≤ k) :
    (spaced texts).length ≤ texts.length * (k + 1) := by
  induction texts with
  | nil => simp [spaced]
  | cons text texts ih =>
    have hcons : (spaced (text :: texts)).length = text.length + 1 + (spaced texts).length := by
      rw [spaced, flatMap_cons, length_append, length_append, length_singleton]
      rfl
    have hrest := ih fun t ht => h t (mem_cons_of_mem _ ht)
    have htext := h text mem_cons_self
    rw [hcons, length_cons, Nat.succ_mul]
    omega

/-- A record has at least eighteen characters. -/
lemma le_length_records (records : List ((List Char × List Char) × List Asn)) :
    records.length * 18 ≤ (records.flatMap fun r => recordText r.1 r.2).length := by
  induction records with
  | nil => simp
  | cons r records ih =>
    have hrecord : 18 ≤ (recordText r.1 r.2).length := by
      have hhead : "ASes from ".toList.length = 10 ∧ " to ".toList.length = 4 ∧
          ":".toList.length = 1 ∧ "-".toList.length = 1 := by decide
      simp only [recordText, recordLines, flatMap_cons, flatMap_append, flatMap_nil,
        length_append, length_singleton, length_nil]
      omega
    rw [flatMap_cons, length_append, length_cons, Nat.succ_mul]
    omega

/-- A request for some exits, where no AS is known. -/
def unknownExits (n : ℕ) : CircuitQuery where
  asSrc := "-1".toList
  asDest := "-1".toList
  asEntry := []
  asExit := replicate n "-1".toList
  asTexts := by
    intro text htext
    simp only [mem_cons, append_nil, mem_replicate] at htext
    rcases htext with rfl | rfl | ⟨-, rfl⟩ <;> exact Or.inr rfl

lemma eq_of_mem_unknownExits {n : ℕ} {text : List Char} (h : text ∈ (unknownExits n).destTexts) :
    text = "-1".toList := by
  simp only [CircuitQuery.destTexts, unknownExits, mem_cons, append_nil,
    mem_replicate] at h
  rcases h with rfl | rfl | ⟨-, rfl⟩ <;> rfl

lemma eq_of_mem_pairTexts_unknownExits {n : ℕ} {pair : List Char × List Char}
    (h : pair ∈ (unknownExits n).pairTexts) : pair = ("-1".toList, "-1".toList) := by
  simp only [CircuitQuery.pairTexts, unknownExits, flatMap_nil, append_nil,
    mem_flatMap, mem_replicate, mem_cons, not_mem_nil, or_false] at h
  obtain ⟨exit, ⟨-, rfl⟩, rfl | rfl⟩ := h <;> rfl

lemma length_pairTexts_unknownExits (n : ℕ) : (unknownExits n).pairTexts.length = n * 2 := by
  rw [CircuitQuery.length_pairTexts]
  simp [CircuitQuery.qlen, unknownExits]

/-- The request for unknown exits fits the arrays, as long as there are not too many. -/
lemma query_unknownExits {n : ℕ} (h : n * 12 + 6 < CircuitQuery.maxQuery) :
    (unknownExits n).query = some (unknownExits n).text := by
  have hdests : (unknownExits n).dests.length ≤ (unknownExits n).destTexts.length * (2 + 1) := by
    rw [CircuitQuery.dests]
    refine length_spaced_le fun text ht => ?_
    rw [eq_of_mem_unknownExits ht]
    decide
  have hpairs : (unknownExits n).pairs.length ≤ (unknownExits n).pairArgs.length * (2 + 1) := by
    rw [CircuitQuery.pairs]
    refine length_spaced_le fun text ht => ?_
    obtain ⟨pair, hp, ht⟩ := mem_flatMap.mp ht
    rw [eq_of_mem_pairTexts_unknownExits hp] at ht
    simp only [mem_cons, not_mem_nil, or_false, or_self] at ht
    rw [ht]
    decide
  have hlen : (unknownExits n).destTexts.length = n + 2 := by
    simp [CircuitQuery.destTexts, unknownExits]
  have hargs : (unknownExits n).pairArgs.length = n * 2 * 2 := by
    rw [CircuitQuery.length_pairArgs, length_pairTexts_unknownExits]
  rw [CircuitQuery.query, if_pos]
  omega

/-- A fresh server replies to the request for unknown exits. -/
lemma serve_unknownExits (P : Params) (g : NetworkGraph) (n : ℕ) :
    ∃ st' answers, Forall₂ (AnswerOf P g) (unknownExits n).pairTexts answers ∧
      serve P g ServerState.fresh (unknownExits n).text =
        some (st', replyOf (unknownExits n) answers) := by
  rcases @serve_query P g [] ServerState.fresh (unknownExits n) (by simp) rfl with
    h | ⟨-, ⟨dest, hdest, hinit⟩ | ⟨ds, pair, hp, hases⟩⟩
  · exact h
  · -- the texts are no numbers
    rw [mem_append, mem_singleton] at hdest
    have hsome : initDestination P g dest = some none := by
      rcases hdest with hdest | rfl
      · rw [eq_of_mem_unknownExits hdest]
        rfl
      · rfl
    rw [hsome] at hinit
    cases hinit
  · have hparse : tryParseUInt32 "-1".toList = none := by decide
    rw [eq_of_mem_pairTexts_unknownExits hp, bestAses] at hases
    cases hds : ds "-1".toList with
    | none =>
      simp only [hds] at hases
      cases hases
    | some D =>
      simp only [hds, hparse] at hases
      cases hases

/-- The request for 30000 unknown exits fits the arrays, and the server replies to it, but the reply
does not fit the buffer of the client, which does not recover the answers. -/
theorem getAspath_not_recovers_unknownExits :
    (unknownExits 30000).query = some (unknownExits 30000).text ∧
    ∃ st' answers, Forall₂ (AnswerOf {} NetworkGraph.empty) (unknownExits 30000).pairTexts
        answers ∧
      serve {} NetworkGraph.empty ServerState.fresh (unknownExits 30000).text =
        some (st', replyOf (unknownExits 30000) answers) ∧
      ¬ Recovers (unknownExits 30000) answers (replyOf (unknownExits 30000) answers) := by
  refine ⟨query_unknownExits (by decide), ?_⟩
  obtain ⟨st', answers, hanswers, hserve⟩ := serve_unknownExits {} NetworkGraph.empty 30000
  refine ⟨st', answers, hanswers, hserve, fun hrec => ?_⟩
  have hfits := ((recovers_iff hanswers).1 hrec).reply
  have hle := le_length_records ((unknownExits 30000).pairTexts.zip answers)
  rw [length_zip, ← hanswers.length_eq, Nat.min_self, length_pairTexts_unknownExits] at hle
  rw [replyOf, length_append] at hfits
  unfold maxReply at hfits
  omega

end Protocol

end Astoria
