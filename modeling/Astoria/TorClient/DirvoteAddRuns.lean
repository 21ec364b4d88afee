import Mathlib.Data.List.Lookmap
import Mathlib.Data.List.Nodup
import Astoria.Library.Runs
import Astoria.TorClient.DirvoteAdd

/-!
# The votes that are stored

The loop of `dirvote_add_vote` always ends, and what it does to the stored votes is what the votes
in the documents do, one after another (`exists_dirvoteAddVoteLoop`).  So for each authority the
latest vote is stored, the first one of several that were published at the same time.

Documents that are posted together have the effect of documents posted one after another up to the
first one that cannot be parsed (`dirvote_votes_stored`).  The documents after that one are not read
(`not_dirvote_concat`).
-/

namespace Astoria

open List
open Option hiding or_assoc

/-! ### The end of a document -/

section Sections

variable {s t rest : DocText} {c : Char}

/-- A line that ends the header or an entry starts here. -/
def startsSection (s : DocText) : Bool :=
  "r ".toList.isPrefixOf s || "directory-footer".toList.isPrefixOf s ||
    "directory-signature".toList.isPrefixOf s

/-- The text from the next such line on. -/
def nextSection : DocText → DocText
  | [] => []
  | c :: s => if c = '\n' ∧ startsSection s then s else nextSection s

lemma strIndex_cons_of_not {p : DocText} (h : ¬ p <+: c :: s) :
    strIndex p (c :: s) = (strIndex p s).map (· + 1) := by
  rw [strIndex, if_neg fun hpre => h (List.isPrefixOf_iff_prefix.mp hpre)]

lemma strIndex_cons_of_start {p : DocText} (h : p <+: c :: s) : strIndex p (c :: s) = some 0 := by
  rw [strIndex, if_pos (List.isPrefixOf_iff_prefix.mpr h)]

/-- The patterns that are searched for. -/
lemma section_keywords : "\nr ".toList = '\n' :: "r ".toList ∧
    "\ndirectory-footer".toList = '\n' :: "directory-footer".toList ∧
    "\ndirectory-signature".toList = '\n' :: "directory-signature".toList := by
  decide

lemma startsSection_iff : startsSection s ↔ "r ".toList <+: s ∨ "directory-footer".toList <+: s ∨
    "directory-signature".toList <+: s := by
  unfold startsSection
  rw [Bool.or_eq_true, Bool.or_eq_true, or_assoc]
  simp only [List.isPrefixOf_iff_prefix]

/-- No section starts here, so that the search goes on behind the character. -/
lemma findStartOfNextRouterstatus_cons_of_not (h : ¬(c = '\n' ∧ startsSection s)) :
    findStartOfNextRouterstatus (c :: s) = findStartOfNextRouterstatus s + 1 := by
  have hnot {p : DocText} (hp : p <+: s → startsSection s) {u : DocText} (hu : u <+: s) :
      ¬ '\n' :: p <+: c :: u := fun hpre => by
    obtain ⟨hc, hpre⟩ := cons_prefix_cons.mp hpre
    exact h ⟨hc.symm, hp (hpre.trans hu)⟩
  have hr := @hnot "r ".toList fun hp => startsSection_iff.mpr (.inl hp)
  have hfooter := @hnot "directory-footer".toList fun hp => startsSection_iff.mpr (.inr (.inl hp))
  have hsig := @hnot "directory-signature".toList fun hp => startsSection_iff.mpr (.inr (.inr hp))
  unfold findStartOfNextRouterstatus
  rw [section_keywords.1, section_keywords.2.1, section_keywords.2.2,
    strIndex_cons_of_not (hr (prefix_refl s))]
  have heos : (((strIndex ('\n' :: "r ".toList) s).map (· + 1)).map (· + 1)).getD (c :: s).length =
      ((strIndex ('\n' :: "r ".toList) s).map (· + 1)).getD s.length + 1 := by
    cases strIndex ('\n' :: "r ".toList) s <;> rfl
  rw [heos]
  generalize ((strIndex ('\n' :: "r ".toList) s).map (· + 1)).getD s.length = eos
  dsimp only
  rw [take_succ_cons, strIndex_cons_of_not (hfooter (List.take_prefix eos s)),
    strIndex_cons_of_not (hsig (List.take_prefix eos s))]
  cases strIndex ('\n' :: "directory-footer".toList) (s.take eos) with
  | none => cases strIndex ('\n' :: "directory-signature".toList) (s.take eos) <;> rfl
  | some i =>
    cases strIndex ('\n' :: "directory-signature".toList) (s.take eos) with
    | none => rfl
    | some j => simp only [map_some, Nat.add_min_add_right]

/-- A line with a keyword lies before the next entry, if it is not the start of one. -/
lemma take_of_keyword {p more : DocText} (hp : '\n' ∉ p) (hr : ¬ "r ".toList <+: p ++ more) :
    '\n' :: p <+: ('\n' :: (p ++ more)).take
      (((strIndex ('\n' :: "r ".toList) ('\n' :: (p ++ more))).map (· + 1)).getD
        ('\n' :: (p ++ more)).length) := by
  have hnot : ¬ '\n' :: "r ".toList <+: '\n' :: (p ++ more) := fun hpre =>
    hr (cons_prefix_cons.mp hpre).2
  rw [strIndex_cons_of_not hnot, strIndex_append hp]
  refine prefix_take_iff.mpr ⟨⟨more, rfl⟩, ?_⟩
  cases strIndex ('\n' :: "r ".toList) more with
  | none => simp
  | some i =>
    simp only [map_some, getD_some, length_cons]
    omega

/-- A section starts here. -/
lemma findStartOfNextRouterstatus_cons (h : startsSection s) :
    findStartOfNextRouterstatus ('\n' :: s) = 1 := by
  unfold findStartOfNextRouterstatus
  rw [section_keywords.1, section_keywords.2.1, section_keywords.2.2]
  by_cases hr : "r ".toList <+: s
  · rw [strIndex_cons_of_start (cons_prefix_cons.mpr ⟨rfl, hr⟩)]
    rfl
  · dsimp only
    rcases (startsSection_iff.mp h).resolve_left hr with ⟨more, rfl⟩ | ⟨more, rfl⟩
    · obtain ⟨u, hu⟩ := take_of_keyword (by decide) hr
      rw [cons_append] at hu
      have hfound : strIndex ('\n' :: "directory-footer".toList)
          ('\n' :: ("directory-footer".toList ++ u)) = some 0 := strIndex_cons_of_start ⟨u, rfl⟩
      rw [← hu, hfound]
      cases strIndex ('\n' :: "directory-signature".toList) _ with
      | none => rfl
      | some j => simp
    · obtain ⟨u, hu⟩ := take_of_keyword (by decide) hr
      rw [cons_append] at hu
      have hfound : strIndex ('\n' :: "directory-signature".toList)
          ('\n' :: ("directory-signature".toList ++ u)) = some 0 := strIndex_cons_of_start ⟨u, rfl⟩
      rw [← hu, hfound]
      cases strIndex ('\n' :: "directory-footer".toList) _ with
      | none => rfl
      | some j => simp

/-- **The header or an entry ends** where the next section starts. -/
lemma drop_findStartOfNextRouterstatus (s : DocText) :
    s.drop (findStartOfNextRouterstatus s) = nextSection s := by
  induction s with
  | nil => rfl
  | cons c s ih =>
    rw [nextSection]
    split_ifs with hstart
    · obtain ⟨rfl, hstart⟩ := hstart
      rw [findStartOfNextRouterstatus_cons hstart]
      rfl
    · rw [findStartOfNextRouterstatus_cons_of_not hstart, drop_succ_cons, ih]

lemma nextSection_suffix (s : DocText) : nextSection s <:+ s := by
  rw [← drop_findStartOfNextRouterstatus]
  exact drop_suffix _ _

lemma skipEntries_suffix (n : ℕ) (s : DocText) : skipEntries n s <:+ s := by
  induction n generalizing s with
  | zero => exact suffix_refl s
  | succ n ih =>
    rw [skipEntries]
    split_ifs
    · exact (ih _).trans (drop_suffix _ _)
    · exact suffix_refl s

lemma behindEntries_suffix (s : DocText) : behindEntries s <:+ s :=
  (skipEntries_suffix _ _).trans (drop_suffix _ _)

/-- All entries are left out if there are no more of them than the given number. -/
lemma not_prefix_skipEntries {n : ℕ} (h : s.length ≤ n) : ¬ "r ".toList <+: skipEntries n s := by
  induction n generalizing s with
  | zero =>
    rw [eq_nil_of_length_eq_zero (Nat.le_zero.mp h)]
    decide
  | succ n ih =>
    rw [skipEntries]
    split_ifs with hr
    · cases s with
      | nil => cases hr
      | cons c s =>
        have hnot : ¬(c = '\n' ∧ startsSection s) := fun hc => by
          rw [hc.1] at hr
          cases hr
        rw [findStartOfNextRouterstatus_cons_of_not hnot, drop_succ_cons]
        refine ih ?_
        rw [length_drop]
        rw [length_cons] at h
        omega
    · exact fun hpre => hr (List.isPrefixOf_iff_prefix.mpr hpre)

/-- The footer has a signature that is still to come. -/
def SignatureAhead (t : DocText) : Prop :=
  "directory-signature".toList <+: t ∨ '\n' :: "directory-signature".toList <:+: t

lemma prefix_of_prefix_append_newline {p t u : DocText} (hp : '\n' ∉ p) (h : p <+: t ++ '\n' :: u) :
    p <+: t := by
  by_cases hlen : p.length ≤ t.length
  · exact prefix_of_prefix_length_le h (prefix_append _ _) hlen
  · have hle : t ++ ['\n'] <+: t ++ '\n' :: u := by
      rw [prefix_append_right_inj]
      exact ⟨u, rfl⟩
    have hsub : t ++ ['\n'] <+: p := by
      refine prefix_of_prefix_length_le hle h ?_
      rw [length_append, length_singleton]
      omega
    exact absurd (hsub.subset (mem_append_right t mem_cons_self)) hp

/-- Whether a line starts with a keyword does not depend on what follows the line. -/
lemma prefix_append_iff {p : DocText} (hp : '\n' ∉ p) (ht : '\n' ∈ t) :
    p <+: t ++ rest ↔ p <+: t := by
  obtain ⟨a, b, rfl⟩ := append_of_mem ht
  refine ⟨fun h => ?_, fun h => h.trans (prefix_append _ _)⟩
  rw [append_assoc, cons_append] at h
  exact (prefix_of_prefix_append_newline hp h).trans (prefix_append _ _)

lemma startsSection_append (ht : '\n' ∈ t) (rest : DocText) :
    startsSection (t ++ rest) = startsSection t := by
  have hiff : startsSection (t ++ rest) ↔ startsSection t := by
    rw [startsSection_iff, startsSection_iff, prefix_append_iff (by decide) ht,
      prefix_append_iff (by decide) ht, prefix_append_iff (by decide) ht]
  exact Bool.eq_iff_iff.mpr hiff

/-- **The next section is not behind the signature**, and what follows the text does not matter. -/
lemma nextSection_append (h : '\n' :: "directory-signature".toList <:+: t) (rest : DocText) :
    nextSection (t ++ rest) = nextSection t ++ rest ∧ SignatureAhead (nextSection t) := by
  induction t with
  | nil => exact absurd (infix_nil.mp h) (cons_ne_nil _ _)
  | cons c t ih =>
    rcases infix_cons_iff.mp h with hpre | hin
    · obtain ⟨rfl, hsig⟩ := cons_prefix_cons.mp hpre
      have hstart : startsSection t := startsSection_iff.mpr (.inr (.inr hsig))
      have hstart' : startsSection (t ++ rest) :=
        startsSection_iff.mpr (.inr (.inr (hsig.trans (prefix_append _ _))))
      rw [cons_append, nextSection, nextSection, if_pos ⟨rfl, hstart'⟩, if_pos ⟨rfl, hstart⟩]
      exact ⟨rfl, .inl hsig⟩
    · have hmem : '\n' ∈ t := hin.subset mem_cons_self
      rw [cons_append, nextSection, nextSection, startsSection_append hmem]
      split_ifs
      · exact ⟨rfl, .inr hin⟩
      · exact ih hin

/-- The signature stays ahead as the entries are left out. -/
lemma skipEntries_append (n : ℕ) (h : SignatureAhead t) (rest : DocText) :
    skipEntries n (t ++ rest) = skipEntries n t ++ rest ∧ SignatureAhead (skipEntries n t) := by
  induction n generalizing t with
  | zero => exact ⟨rfl, h⟩
  | succ n ih =>
    rw [skipEntries, skipEntries]
    rcases h with ⟨more, rfl⟩ | hin
    · exact ⟨rfl, .inl (prefix_append _ _)⟩
    · have hmem : '\n' ∈ t := hin.subset mem_cons_self
      have hiff : "r ".toList.isPrefixOf (t ++ rest) = "r ".toList.isPrefixOf t := by
        rw [Bool.eq_iff_iff, List.isPrefixOf_iff_prefix, List.isPrefixOf_iff_prefix,
          prefix_append_iff (by decide) hmem]
      rw [hiff]
      split_ifs
      · obtain ⟨happend, hahead⟩ := nextSection_append hin rest
        rw [drop_findStartOfNextRouterstatus, drop_findStartOfNextRouterstatus, happend]
        exact ih hahead
      · exact ⟨rfl, .inr hin⟩

/-- **The text behind the entries** of a text that is signed, with what follows it. -/
lemma exists_behindEntries_append (h : '\n' :: "directory-signature".toList <:+: t)
    (rest : DocText) : ∃ footer, behindEntries (t ++ rest) = footer ++ rest ∧ footer <:+ t ∧
    footer ≠ [] := by
  unfold behindEntries
  obtain ⟨happend, hahead⟩ := nextSection_append h rest
  rw [drop_findStartOfNextRouterstatus, happend]
  obtain ⟨hskip, hfooter⟩ := skipEntries_append (t ++ rest).length hahead rest
  refine ⟨_, hskip, (skipEntries_suffix _ _).trans (nextSection_suffix t), fun hnil => ?_⟩
  rw [hnil] at hfooter
  rcases hfooter with hpre | hin
  · exact absurd hpre (by decide)
  · exact absurd hin (by decide)

end Sections

section Text

variable {pattern s d rest : DocText}

lemma length_afterNewline_lt (h : s ≠ []) : (afterNewline pattern s).length < s.length := by
  induction s with
  | nil => exact absurd rfl h
  | cons c s ih =>
    rw [afterNewline, length_cons]
    split_ifs
    · exact Nat.lt_succ_self _
    · by_cases hs : s = []
      · rw [hs]
        exact Nat.succ_pos _
      · exact Nat.lt_succ_of_lt (ih hs)

/-- The text after a newline starts with the rest of the pattern, or is empty. -/
lemma afterNewline_prefix (c : Char) (p s : DocText) :
    afterNewline (c :: p) s = [] ∨ p <+: afterNewline (c :: p) s := by
  induction s with
  | nil => exact .inl rfl
  | cons c' s ih =>
    rw [afterNewline]
    split_ifs with hpre
    · exact .inr (cons_prefix_cons.mp (List.isPrefixOf_iff_prefix.mp hpre)).2
    · exact ih

/-- **The end of a document** is the end of the text or the start of the next document. -/
lemma endOfFooter_cases (s : DocText) :
    endOfFooter s = [] ∨ networkStatusVersion <+: endOfFooter s :=
  afterNewline_prefix '\n' networkStatusVersion (behindEntries s)

lemma isPrefixOf_endOfFooter (s : DocText) :
    networkStatusVersionKeyword.isPrefixOf (endOfFooter s) =
      networkStatusVersion.isPrefixOf (endOfFooter s) := by
  rcases endOfFooter_cases s with hnil | hpre
  · rw [hnil]
    rfl
  · rw [List.isPrefixOf_iff_prefix.mpr hpre,
      List.isPrefixOf_iff_prefix.mpr ((prefix_append _ _).trans hpre)]

lemma length_endOfFooter_lt (h : networkStatusVersion <+: endOfFooter s) :
    (endOfFooter s).length < s.length := by
  refine lt_of_lt_of_le (length_afterNewline_lt fun hnil => ?_) (behindEntries_suffix s).length_le
  unfold endOfFooter at h
  rw [hnil] at h
  exact absurd h (by decide)

lemma newline_notMem_networkStatusVersion : '\n' ∉ networkStatusVersion := by decide

/-- A vote document: it starts with the keyword, ends with a newline, has a line for a signature,
and no other document starts in it. -/
structure IsDocument (d : DocText) : Prop where
  start : networkStatusVersion <+: d
  newline : ['\n'] <:+ d
  signed : '\n' :: "directory-signature".toList <:+: d
  single : ¬ '\n' :: networkStatusVersion <:+: d

lemma afterNewline_eq_nil (h : ¬ pattern <:+: s) : afterNewline pattern s = [] := by
  induction s with
  | nil => rfl
  | cons c s ih =>
    have hpre : pattern.isPrefixOf (c :: s) = false :=
      Bool.eq_false_iff.mpr fun hpre => h (List.isPrefixOf_iff_prefix.mp hpre).isInfix
    rw [afterNewline, hpre, if_neg Bool.false_ne_true]
    exact ih fun hin => h (hin.trans (suffix_cons c s).isInfix)

/-- A document ends where the next one starts. -/
lemma afterNewline_append {p : DocText} (hp : '\n' ∉ p) (hrest : p <+: rest) {init : DocText}
    (h : ¬ '\n' :: p <:+: init ++ ['\n']) :
    afterNewline ('\n' :: p) (init ++ '\n' :: rest) = rest := by
  induction init with
  | nil =>
    have hpre : ('\n' :: p).isPrefixOf ('\n' :: rest) = true :=
      List.isPrefixOf_iff_prefix.mpr (cons_prefix_cons.mpr ⟨rfl, hrest⟩)
    rw [nil_append, afterNewline, hpre, if_pos rfl]
  | cons c init ih =>
    have hpre : ('\n' :: p).isPrefixOf (c :: (init ++ '\n' :: rest)) = false := by
      refine Bool.eq_false_iff.mpr fun hpre => h ?_
      obtain ⟨hc, hp'⟩ := cons_prefix_cons.mp (List.isPrefixOf_iff_prefix.mp hpre)
      have hinit : p <+: init ++ ['\n'] :=
        (prefix_of_prefix_append_newline hp hp').trans (prefix_append _ _)
      exact (cons_prefix_cons.mpr ⟨hc, hinit⟩).isInfix
    rw [cons_append, afterNewline, hpre, if_neg Bool.false_ne_true]
    exact ih fun hin => h (hin.trans (suffix_cons c _).isInfix)

/-- **The end of a document among others.** -/
lemma IsDocument.endOfFooter_append (h : IsDocument d) (hrest : networkStatusVersion <+: rest) :
    endOfFooter (d ++ rest) = rest := by
  obtain ⟨footer, hbehind, hsuffix, hne⟩ := exists_behindEntries_append h.signed rest
  obtain ⟨init, rfl⟩ : ['\n'] <:+ footer := by
    refine suffix_of_suffix_length_le h.newline hsuffix ?_
    exact length_pos_iff.mpr hne
  rw [endOfFooter, hbehind, append_assoc, singleton_append]
  exact afterNewline_append newline_notMem_networkStatusVersion hrest fun hin =>
    h.single (hin.trans hsuffix.isInfix)

lemma IsDocument.endOfFooter_eq_nil (h : IsDocument d) : endOfFooter d = [] :=
  afterNewline_eq_nil fun hin => h.single (hin.trans (behindEntries_suffix d).isInfix)

lemma flatten_documents {docs : List DocText} (h : ∀ d ∈ docs, IsDocument d) :
    docs.flatten = [] ∨ networkStatusVersion <+: docs.flatten := by
  cases docs with
  | nil => exact .inl rfl
  | cons d docs =>
    refine .inr ((h d mem_cons_self).start.trans ?_)
    rw [flatten_cons]
    exact prefix_append _ _

end Text

/-! ### Storing one vote -/

section Store

/-- A vote is stored if it is the first one of its authority, or later than the stored one and
another one. -/
def storeVote (l : List PendingVote) (pv : PendingVote) : List PendingVote :=
  match findPendingVote l pv.vote.certIdentity with
  | none => l ++ [pv]
  | some v =>
    if v.vote.voteDigest = pv.vote.voteDigest then l
    else if v.vote.published < pv.vote.published then replacePendingVote l pv
    else l

/-- A vote is accepted if its authority is recognized and it is for the right period. -/
def VoteRules.acceptable (rules : VoteRules) (pv : PendingVote) : Bool :=
  rules.recognized pv.vote.voterIdentity && decide (pv.vote.validAfter = rules.intervalStarts)

variable {u : PendingVote}

lemma replacePendingVote_cons_of_eq (l : List PendingVote)
    (h : u.vote.certIdentity = pv.vote.certIdentity) : replacePendingVote (u :: l) pv = pv :: l :=
  lookmap_cons_some _ _ (if_pos h)

lemma replacePendingVote_cons_of_ne (l : List PendingVote)
    (h : u.vote.certIdentity ≠ pv.vote.certIdentity) :
    replacePendingVote (u :: l) pv = u :: replacePendingVote l pv :=
  lookmap_cons_none _ _ (if_neg h)

lemma findPendingVote_cons_of_eq {identity : Digest} (l : List PendingVote)
    (h : u.vote.certIdentity = identity) : findPendingVote (u :: l) identity = some u :=
  find?_cons_of_pos (beq_iff_eq.mpr h)

lemma findPendingVote_cons_of_ne {identity : Digest} (l : List PendingVote)
    (h : u.vote.certIdentity ≠ identity) :
    findPendingVote (u :: l) identity = findPendingVote l identity :=
  find?_cons_of_neg fun heq => h (beq_iff_eq.mp heq)

/-- The vote that was put in the place of another one is found. -/
lemma findPendingVote_replacePendingVote {v : PendingVote} (pv : PendingVote)
    (h : findPendingVote l pv.vote.certIdentity = some v) :
    findPendingVote (replacePendingVote l pv) pv.vote.certIdentity = some pv := by
  induction l with
  | nil => cases h
  | cons u l ih =>
    by_cases hu : u.vote.certIdentity = pv.vote.certIdentity
    · rw [replacePendingVote_cons_of_eq l hu, findPendingVote_cons_of_eq l rfl]
    · rw [findPendingVote_cons_of_ne l hu] at h
      rw [replacePendingVote_cons_of_ne l hu, findPendingVote_cons_of_ne _ hu]
      exact ih h

lemma map_replacePendingVote (l : List PendingVote) (pv : PendingVote) :
    (replacePendingVote l pv).map (·.vote.certIdentity) = l.map (·.vote.certIdentity) := by
  unfold replacePendingVote
  refine lookmap_map_eq _ _ (fun u u' hu => ?_) l
  rw [mem_def] at hu
  split_ifs at hu with heq
  · obtain rfl := Option.some.inj hu
    exact heq

lemma mem_replacePendingVote (hnodup : (l.map (·.vote.certIdentity)).Nodup)
    (hw : w ∈ replacePendingVote l pv) :
    w = pv ∨ w ∈ l ∧ w.vote.certIdentity ≠ pv.vote.certIdentity := by
  induction l with
  | nil => cases hw
  | cons u l ih =>
    rw [map_cons, nodup_cons] at hnodup
    by_cases hu : u.vote.certIdentity = pv.vote.certIdentity
    · rw [replacePendingVote_cons_of_eq l hu] at hw
      rcases mem_cons.mp hw with rfl | hw
      · exact .inl rfl
      · refine .inr ⟨mem_cons_of_mem u hw, fun heq => hnodup.1 ?_⟩
        rw [hu, ← heq]
        exact List.mem_map_of_mem hw
    · rw [replacePendingVote_cons_of_ne l hu] at hw
      rcases mem_cons.mp hw with rfl | hw
      · exact .inr ⟨mem_cons_self, hu⟩
      · exact (ih hnodup.2 hw).imp_right fun h => ⟨mem_cons_of_mem u h.1, h.2⟩

/-- A vote is the latest of its authority in a list, and the first of those published at the same
time. -/
def FirstLatest (l : List PendingVote) (w : PendingVote) : Prop :=
  ∃ before after, l = before ++ w :: after ∧
    (∀ u ∈ before, u.vote.certIdentity = w.vote.certIdentity →
      u.vote.published < w.vote.published) ∧
    ∀ u ∈ after, u.vote.certIdentity = w.vote.certIdentity → u.vote.published ≤ w.vote.published

/-- **The stored votes** are the latest ones of those that were received. -/
structure StoredVotes (received l : List PendingVote) : Prop where
  nodup : (l.map (·.vote.certIdentity)).Nodup
  latest : ∀ w ∈ l, FirstLatest received w
  stored : ∀ u ∈ received, ∃ w ∈ l, w.vote.certIdentity = u.vote.certIdentity

variable {received l : List PendingVote} {pv w : PendingVote}

lemma FirstLatest.le (h : FirstLatest received w) (hu : u ∈ received)
    (heq : u.vote.certIdentity = w.vote.certIdentity) : u.vote.published ≤ w.vote.published := by
  obtain ⟨before, after, rfl, hbefore, hafter⟩ := h
  rcases mem_append.mp hu with hu | hu
  · exact Int.le_of_lt (hbefore u hu heq)
  · rcases mem_cons.mp hu with rfl | hu
    · exact Int.le_refl _
    · exact hafter u hu heq

lemma FirstLatest.mem (h : FirstLatest received w) : w ∈ received := by
  obtain ⟨before, after, rfl, -, -⟩ := h
  exact mem_append_right _ mem_cons_self

/-- A vote stays the latest one if one is received that is not later, or of another authority. -/
lemma FirstLatest.append (h : FirstLatest received w)
    (hpv : pv.vote.certIdentity = w.vote.certIdentity → pv.vote.published ≤ w.vote.published) :
    FirstLatest (received ++ [pv]) w := by
  obtain ⟨before, after, rfl, hbefore, hafter⟩ := h
  refine ⟨before, after ++ [pv], by simp, hbefore, fun u hu heq => ?_⟩
  rcases mem_append.mp hu with hu | hu
  · exact hafter u hu heq
  · obtain rfl := mem_singleton.mp hu
    exact hpv heq

lemma firstLatest_last
    (h : ∀ u ∈ received, u.vote.certIdentity = pv.vote.certIdentity →
      u.vote.published < pv.vote.published) :
    FirstLatest (received ++ [pv]) pv :=
  ⟨received, [], rfl, h, nofun⟩

/-- **One more vote is received.** -/
lemma StoredVotes.store (h : StoredVotes received l)
    (hdigest : ∀ u ∈ received, u.vote.voteDigest = pv.vote.voteDigest →
      u.vote.published = pv.vote.published) :
    StoredVotes (received ++ [pv]) (storeVote l pv) := by
  have hstored : ∀ u ∈ received ++ [pv], u.vote.certIdentity = pv.vote.certIdentity ∨
      u ∈ received := by
    intro u hu
    rcases mem_append.mp hu with hu | hu
    · exact .inr hu
    · rw [mem_singleton.mp hu]
      exact .inl rfl
  unfold storeVote
  cases hfind : findPendingVote l pv.vote.certIdentity with
  | none =>
    have hnot : ∀ w ∈ l, w.vote.certIdentity ≠ pv.vote.certIdentity := by
      intro w hw
      simpa using find?_eq_none.mp hfind w hw
    refine ⟨?_, fun w hw => ?_, fun u hu => ?_⟩
    · rw [map_append, map_singleton, nodup_append]
      refine ⟨h.nodup, nodup_singleton _, fun a ha b hb => ?_⟩
      obtain ⟨w, hw, rfl⟩ := List.mem_map.mp ha
      rw [mem_singleton.mp hb]
      exact hnot w hw
    · rcases mem_append.mp hw with hw | hw
      · exact (h.latest w hw).append fun heq => absurd heq.symm (hnot w hw)
      · obtain rfl := mem_singleton.mp hw
        refine firstLatest_last fun u hu heq => ?_
        obtain ⟨w', hw', hid⟩ := h.stored u hu
        exact absurd (hid.trans heq) (hnot w' hw')
    · rcases hstored u hu with heq | hu
      · exact ⟨pv, mem_append_right _ mem_cons_self, heq.symm⟩
      · obtain ⟨w, hw, hid⟩ := h.stored u hu
        exact ⟨w, mem_append_left _ hw, hid⟩
  | some v =>
    have hv : v ∈ l := mem_of_find?_eq_some hfind
    have hid : v.vote.certIdentity = pv.vote.certIdentity := by
      simpa using find?_some hfind
    -- a stored vote of the authority is the one that was found
    have hunique : ∀ w ∈ l, w.vote.certIdentity = pv.vote.certIdentity → w = v := fun w hw heq =>
      inj_on_of_nodup_map h.nodup hw hv (heq.trans hid.symm)
    have hkeep : pv.vote.published ≤ v.vote.published → StoredVotes (received ++ [pv]) l := by
      intro hle
      refine ⟨h.nodup, fun w hw => (h.latest w hw).append fun heq => ?_, fun u hu => ?_⟩
      · rw [hunique w hw heq.symm]
        exact hle
      · rcases hstored u hu with heq | hu
        · exact ⟨v, hv, hid.trans heq.symm⟩
        · exact h.stored u hu
    dsimp only
    split_ifs with hsame hlater
    · exact hkeep (Int.le_of_eq (hdigest v (h.latest v hv).mem hsame).symm)
    · refine ⟨by rw [map_replacePendingVote]; exact h.nodup, fun w hw => ?_, fun u hu => ?_⟩
      · rcases mem_replacePendingVote h.nodup hw with rfl | ⟨hw, hne⟩
        · refine firstLatest_last fun u hu heq => ?_
          exact Int.lt_of_le_of_lt ((h.latest v hv).le hu (heq.trans hid.symm)) hlater
        · exact (h.latest w hw).append fun heq => absurd heq.symm hne
      · have hmem : u.vote.certIdentity ∈
            (replacePendingVote l pv).map (·.vote.certIdentity) := by
          rw [map_replacePendingVote]
          rcases hstored u hu with heq | hu
          · rw [heq, ← hid]
            exact List.mem_map_of_mem hv
          · obtain ⟨w, hw, hwid⟩ := h.stored u hu
            rw [← hwid]
            exact List.mem_map_of_mem hw
        obtain ⟨w, hw, hwid⟩ := List.mem_map.mp hmem
        exact ⟨w, hw, hwid⟩
    · exact hkeep (Int.not_lt.mp hlater)

end Store

/-! ### The loop -/

section Loop

variable (rules : VoteRules)

/-- The votes in a text, each with its document, up to the first document that cannot be parsed. -/
def readVotes (voteBody : DocText) : List PendingVote :=
  match rules.parse voteBody with
  | none => []
  | some vote =>
    ⟨vote, voteBody.take (voteBody.length - (endOfFooter voteBody).length)⟩ ::
      if _h : networkStatusVersion <+: endOfFooter voteBody then readVotes (endOfFooter voteBody)
        else []
termination_by voteBody.length
decreasing_by exact length_endOfFooter_lt _h

def acceptedVotes (voteBody : DocText) : List PendingVote :=
  (readVotes rules voteBody).filter rules.acceptable

variable {rules} {voteBody : DocText} {vote : NetworkstatusVote} {l : List PendingVote}

/-- The text with which the loop goes on, if any. -/
def nextDocument (voteBody : DocText) : Option DocText :=
  if networkStatusVersion.isPrefixOf (endOfFooter voteBody) then some (endOfFooter voteBody)
    else none

lemma acceptedVotes_of_none (hparse : rules.parse voteBody = none) :
    acceptedVotes rules voteBody = [] := by
  unfold acceptedVotes
  rw [readVotes, hparse]
  rfl

/-- The votes in a text are the first one and those in the documents that follow. -/
lemma acceptedVotes_of_some (hparse : rules.parse voteBody = some vote) :
    acceptedVotes rules voteBody =
      [⟨vote, voteBody.take (voteBody.length - (endOfFooter voteBody).length)⟩].filter
        rules.acceptable ++
        ((nextDocument voteBody).map (acceptedVotes rules)).getD [] := by
  have hread : readVotes rules voteBody =
      ⟨vote, voteBody.take (voteBody.length - (endOfFooter voteBody).length)⟩ ::
        ((nextDocument voteBody).map (readVotes rules)).getD [] := by
    rw [readVotes, hparse]
    unfold nextDocument
    by_cases hpre : networkStatusVersion <+: endOfFooter voteBody
    · rw [dif_pos hpre, if_pos (List.isPrefixOf_iff_prefix.mpr hpre)]
      rfl
    · rw [dif_neg hpre, if_neg fun h => hpre (List.isPrefixOf_iff_prefix.mp h)]
      rfl
  unfold acceptedVotes
  rw [hread, ← singleton_append, filter_append]
  cases nextDocument voteBody <;> rfl

lemma dirvoteAddVotePass_of_none (hparse : rules.parse voteBody = none) (l : List PendingVote) :
    dirvoteAddVotePass rules l voteBody = (l, .unparsable, none) := by
  unfold dirvoteAddVotePass
  rw [hparse]

/-- **One pass**: the vote is stored if it is accepted.  Then the loop goes on with the next
document, unless a vote was replaced and there is a next document. -/
lemma dirvoteAddVotePass_of_some (hparse : rules.parse voteBody = some vote)
    (l : List PendingVote) : ∃ outcome next, dirvoteAddVotePass rules l voteBody =
        (([⟨vote, voteBody.take (voteBody.length - (endOfFooter voteBody).length)⟩].filter
          rules.acceptable).foldl storeVote l, outcome, next) ∧
      (next = nextDocument voteBody ∨
        next = some voteBody ∧ ∃ v, findPendingVote
          (([⟨vote, voteBody.take (voteBody.length - (endOfFooter voteBody).length)⟩].filter
            rules.acceptable).foldl storeVote l) vote.certIdentity = some v ∧
          v.vote.voteDigest = vote.voteDigest) := by
  set pv : PendingVote :=
    ⟨vote, voteBody.take (voteBody.length - (endOfFooter voteBody).length)⟩ with hpv
  have hstore : rules.acceptable pv = true → [pv].filter rules.acceptable = [pv] := fun h =>
    filter_cons_of_pos h
  have hskip : rules.acceptable pv = false → [pv].filter rules.acceptable = [] := fun h =>
    filter_cons_of_neg (by rw [h]; exact Bool.false_ne_true)
  unfold dirvoteAddVotePass
  rw [hparse]
  dsimp only
  have hnext : (if networkStatusVersion.isPrefixOf (endOfFooter voteBody) then
      some (endOfFooter voteBody) else none) = nextDocument voteBody := rfl
  rw [isPrefixOf_endOfFooter, ← hpv, hnext]
  cases hrec : rules.recognized vote.voterIdentity with
  | false =>
    rw [hskip (by unfold VoteRules.acceptable; rw [hrec]; rfl)]
    exact ⟨_, _, rfl, .inl rfl⟩
  | true =>
    by_cases htime : vote.validAfter = rules.intervalStarts
    · rw [hstore
        (by unfold VoteRules.acceptable; rw [hrec, Bool.true_and]; exact decide_eq_true htime),
        foldl_cons, foldl_nil, if_neg (by decide), if_neg (not_not.mpr htime)]
      unfold storeVote
      cases hfind : findPendingVote l vote.certIdentity with
      | none => exact ⟨_, _, rfl, .inl rfl⟩
      | some v =>
        dsimp only
        by_cases hsame : v.vote.voteDigest = vote.voteDigest
        · rw [if_pos hsame, if_pos hsame]
          exact ⟨_, _, rfl, .inl rfl⟩
        · rw [if_neg hsame, if_neg hsame]
          by_cases hlater : v.vote.published < vote.published
          · rw [if_pos hlater, if_pos hlater]
            cases hpre : networkStatusVersion.isPrefixOf (endOfFooter voteBody) with
            | true =>
              exact ⟨_, _, rfl,
                .inr ⟨rfl, pv, findPendingVote_replacePendingVote pv hfind, rfl⟩⟩
            | false =>
              refine ⟨_, _, rfl, .inl ?_⟩
              rw [← hnext, hpre]
              rfl
          · rw [if_neg hlater, if_neg hlater]
            exact ⟨_, _, rfl, .inl rfl⟩
    · rw [hskip (by
        unfold VoteRules.acceptable
        rw [hrec, Bool.true_and]
        exact decide_eq_false htime), if_neg (by decide), if_pos htime]
      exact ⟨_, _, rfl, .inl rfl⟩

/-- A vote whose digest is the one of the stored vote changes nothing. -/
lemma dirvoteAddVotePass_of_same (hparse : rules.parse voteBody = some vote)
    {v : PendingVote} (hfind : findPendingVote l vote.certIdentity = some v)
    (hsame : v.vote.voteDigest = vote.voteDigest) :
    ∃ outcome, dirvoteAddVotePass rules l voteBody = (l, outcome, nextDocument voteBody) := by
  unfold dirvoteAddVotePass
  rw [hparse]
  dsimp only
  by_cases hrec : (!rules.recognized vote.voterIdentity) = true
  · rw [if_pos hrec]
    exact ⟨_, rfl⟩
  · rw [if_neg hrec]
    by_cases htime : vote.validAfter ≠ rules.intervalStarts
    · rw [if_pos htime]
      exact ⟨_, rfl⟩
    · rw [if_neg htime, hfind]
      dsimp only
      rw [if_pos hsame]
      exact ⟨_, rfl⟩

def afterPass (rules : VoteRules) (n : ℕ) (r : AddVoteReply) :
    List PendingVote × AddVoteOutcome × Option DocText → Option (List PendingVote × AddVoteReply)
  | (l, outcome, none) => some (l, (r.record outcome).done outcome)
  | (l, outcome, some voteBody) => dirvoteAddVoteLoop rules n l (r.record outcome) voteBody

lemma dirvoteAddVoteLoop_succ (n : ℕ) (l : List PendingVote) (r : AddVoteReply)
    (voteBody : DocText) : dirvoteAddVoteLoop rules (n + 1) l r voteBody =
      afterPass rules n r (dirvoteAddVotePass rules l voteBody) := by
  rw [dirvoteAddVoteLoop]
  obtain ⟨l', outcome, next⟩ := dirvoteAddVotePass rules l voteBody
  cases next with
  | none => rfl
  | some next => rfl

/-- **The loop ends** after at most two passes for each document, and stores the accepted votes one
after another. -/
lemma exists_dirvoteAddVoteLoop {n : ℕ} (hn : 2 * voteBody.length + 2 ≤ n) (l : List PendingVote)
    (r : AddVoteReply) :
    ∃ r', dirvoteAddVoteLoop rules n l r voteBody =
      some ((acceptedVotes rules voteBody).foldl storeVote l, r') := by
  induction hlen : voteBody.length using Nat.strong_induction_on generalizing voteBody n l r with
  | _ len ih =>
    obtain ⟨n, rfl⟩ : ∃ m, n = m + 2 := ⟨n - 2, by omega⟩
    cases hparse : rules.parse voteBody with
    | none =>
      rw [dirvoteAddVoteLoop_succ, dirvoteAddVotePass_of_none hparse l,
        acceptedVotes_of_none hparse]
      exact ⟨_, rfl⟩
    | some vote =>
      rw [acceptedVotes_of_some hparse, foldl_append]
      obtain ⟨outcome, next, hpass, hnext⟩ := dirvoteAddVotePass_of_some hparse l
      rw [dirvoteAddVoteLoop_succ, hpass]
      generalize ([(⟨vote, voteBody.take (voteBody.length - (endOfFooter voteBody).length)⟩ :
        PendingVote)].filter rules.acceptable).foldl storeVote l = stored at hnext ⊢
      -- the loop goes on with the next document, after one pass or two
      have hgo : ∀ m (r : AddVoteReply) outcome, 2 * voteBody.length ≤ m →
          ∃ r', afterPass rules m r (stored, outcome, nextDocument voteBody) =
            some ((((nextDocument voteBody).map (acceptedVotes rules)).getD []).foldl
              storeVote stored,
              r') := by
        intro m r outcome hm
        unfold nextDocument
        split_ifs with hpre
        · have hlt := length_endOfFooter_lt (List.isPrefixOf_iff_prefix.mp hpre)
          exact ih _ (by omega) (by omega) stored _ rfl
        · exact ⟨_, rfl⟩
      rcases hnext with rfl | ⟨rfl, v, hfind, hsame⟩
      · exact hgo (n + 1) r outcome (by omega)
      · obtain ⟨outcome', hpass'⟩ := dirvoteAddVotePass_of_same hparse hfind hsame
        rw [afterPass, dirvoteAddVoteLoop_succ, hpass']
        exact hgo n _ outcome' (by omega)

/-- **One posting** stores the accepted votes in it. -/
lemma map_dirvoteAddVote (l : List PendingVote) (voteBody : DocText) :
    (dirvoteAddVote rules l voteBody).map (·.1) =
      some ((acceptedVotes rules voteBody).foldl storeVote l) := by
  obtain ⟨r', hloop⟩ := exists_dirvoteAddVoteLoop (le_refl (2 * voteBody.length + 2)) l
    ⟨none, 0, false, false⟩
  unfold dirvoteAddVote
  rw [hloop, map_some]

/-- **Any postings** store the accepted votes in them. -/
lemma dirvoteAddVotes_eq (l : List PendingVote) (bodies : List DocText) :
    dirvoteAddVotes rules l bodies =
      some ((bodies.flatMap (acceptedVotes rules)).foldl storeVote l) := by
  induction bodies generalizing l with
  | nil => rfl
  | cons voteBody bodies ih =>
    unfold dirvoteAddVotes at ih ⊢
    rw [foldlM_cons, map_dirvoteAddVote, flatMap_cons, foldl_append]
    exact ih _

lemma exists_parse_of_mem_readVotes {pv : PendingVote} (h : pv ∈ readVotes rules voteBody) :
    ∃ s, rules.parse s = some pv.vote := by
  induction hlen : voteBody.length using Nat.strong_induction_on generalizing voteBody with
  | _ len ih =>
    rw [readVotes] at h
    cases hparse : rules.parse voteBody with
    | none =>
      rw [hparse] at h
      cases h
    | some vote =>
      rw [hparse] at h
      rcases mem_cons.mp h with rfl | h
      · exact ⟨voteBody, hparse⟩
      · split_ifs at h with hpre
        · exact ih _ (hlen ▸ length_endOfFooter_lt hpre) h rfl
        · cases h

/-- **The stored votes are the latest ones** of those that were received. -/
lemma storedVotes_foldl
    (hdigest : ∀ s s' v v', rules.parse s = some v → rules.parse s' = some v' →
      v.voteDigest = v'.voteDigest → v.published = v'.published)
    {received : List PendingVote} (hparse : ∀ pv ∈ received, ∃ s, rules.parse s = some pv.vote) :
    StoredVotes received (received.foldl storeVote []) := by
  induction received using reverseRecOn with
  | nil => exact ⟨nodup_nil, nofun, nofun⟩
  | append_singleton received pv ih =>
    rw [foldl_append]
    refine (ih fun u hu => hparse u (mem_append_left _ hu)).store fun u hu hsame => ?_
    obtain ⟨s, hs⟩ := hparse u (mem_append_left _ hu)
    obtain ⟨s', hs'⟩ := hparse pv (mem_append_right _ mem_cons_self)
    exact hdigest s s' _ _ hs hs' hsame

end Loop

/-! ### Documents that are posted together -/

section Concat

variable {rules : VoteRules} {d rest : DocText}

lemma acceptedVotes_append (h : IsDocument d) (hrest : rest = [] ∨ networkStatusVersion <+: rest)
    (hparse : networkStatusVersion <+: rest → rules.parse (d ++ rest) = rules.parse d) :
    acceptedVotes rules (d ++ rest) = acceptedVotes rules d ++
      if (rules.parse d).isSome then
        if rest = [] then [] else acceptedVotes rules rest
      else [] := by
  rcases hrest with rfl | hrest
  · rw [append_nil, if_pos rfl, ite_self, append_nil]
  · have hne : rest ≠ [] := fun hnil => by
      rw [hnil] at hrest
      exact absurd hrest (by decide)
    rw [if_neg hne]
    have hparse' := hparse hrest
    cases hd : rules.parse d with
    | none =>
      rw [acceptedVotes_of_none hd, acceptedVotes_of_none (hparse'.trans hd)]
      rfl
    | some vote =>
      have hnext : nextDocument (d ++ rest) = some rest := by
        unfold nextDocument
        rw [h.endOfFooter_append hrest, if_pos (List.isPrefixOf_iff_prefix.mpr hrest)]
      have hlast : nextDocument d = none := by
        unfold nextDocument
        rw [h.endOfFooter_eq_nil, if_neg (by decide)]
      rw [acceptedVotes_of_some (hparse'.trans hd), acceptedVotes_of_some hd, hnext, hlast,
        h.endOfFooter_append hrest, h.endOfFooter_eq_nil, length_append, Nat.add_sub_cancel,
        take_left', length_nil, Nat.sub_zero, take_length]
      · simp
      · rfl

/-- **The votes in documents that are posted together** are those up to the first document that
cannot be parsed. -/
lemma acceptedVotes_flatten
    (hparse : ∀ d rest, IsDocument d → networkStatusVersion <+: rest →
      rules.parse (d ++ rest) = rules.parse d)
    (hnil : rules.parse [] = none) {docs : List DocText} (hdocs : ∀ d ∈ docs, IsDocument d) :
    acceptedVotes rules docs.flatten =
      (docs.takeWhile fun d => (rules.parse d).isSome).flatMap (acceptedVotes rules) := by
  induction docs with
  | nil => exact acceptedVotes_of_none hnil
  | cons d docs ih =>
    have hd := hdocs d mem_cons_self
    have hrest := fun d' hd' => hdocs d' (mem_cons_of_mem d hd')
    rw [flatten_cons, acceptedVotes_append hd (flatten_documents hrest) (hparse d _ hd)]
    rw [takeWhile_cons]
    cases hsome : (rules.parse d).isSome with
    | false =>
      rw [acceptedVotes_of_none (not_isSome_iff_eq_none.mp (by rw [hsome]; decide))]
      rfl
    | true =>
      rw [if_pos rfl, if_pos rfl, flatMap_cons, ← ih hrest]
      split_ifs with hempty
      · rw [hempty, acceptedVotes_of_none hnil]
      · rfl

end Concat

/-- **The stored votes.**  However votes are posted, at most one vote is stored for each authority:
the latest one of those that were read and accepted, and the first one of several published at the
same time. The loop always ends.  Documents that are posted together have the effect of the
documents up to the first one that cannot be parsed, posted one after another. -/
theorem dirvote_votes_stored (rules : VoteRules)
    (hdigest : ∀ s s' v v', rules.parse s = some v → rules.parse s' = some v' →
      v.voteDigest = v'.voteDigest → v.published = v'.published)
    (hparse : ∀ d rest, IsDocument d → networkStatusVersion <+: rest →
      rules.parse (d ++ rest) = rules.parse d)
    (hnil : rules.parse [] = none) :
    (∀ bodies, ∃ l, dirvoteAddVotes rules [] bodies = some l ∧
      StoredVotes (bodies.flatMap (acceptedVotes rules)) l) ∧
    ∀ (l : List PendingVote) (docs : List DocText), (∀ d ∈ docs, IsDocument d) → ∃ l',
      dirvoteAddVotes rules l [docs.flatten] = some l' ∧
      dirvoteAddVotes rules l (docs.takeWhile fun d => (rules.parse d).isSome) = some l' := by
  refine ⟨fun bodies => ⟨_, dirvoteAddVotes_eq [] bodies,
      storedVotes_foldl hdigest fun pv hpv => ?_⟩,
    fun l docs hdocs => ⟨_, dirvoteAddVotes_eq l [docs.flatten], ?_⟩⟩
  · obtain ⟨body, -, hmem⟩ := mem_flatMap.mp hpv
    exact exists_parse_of_mem_readVotes (mem_of_mem_filter hmem)
  · rw [dirvoteAddVotes_eq, flatMap_singleton, acceptedVotes_flatten hparse hnil hdocs]

/-! ### Two votes -/

/-- The certificate of an authority. -/
def exampleCert : List String := [
  "dir-key-certificate-version 3", "fingerprint F80447E3DCF733791B22B054815AA8ABA77B603D",
  "dir-key-published 2015-01-01 00:00:00", "dir-key-expires 2016-01-01 00:00:00",
  "dir-identity-key", "-----BEGIN RSA PUBLIC KEY-----",
  "MIGJAoGBANZxod4b+PFEJT3QP7kI52Zb8/diiuzHsF45RLYsIIj9/jsasAL833+u",
  "UkpTNXkdamd5nIuI8bM7t2SNsG4qGzgK4EmQymtArLBhQY8wMbq1ln6wW2IMPy3j",
  "DLx5luawpmIjY9VNpTyXf4K5w3g85M82StFxFAS1OAHmgJIIyrgnAgMBAAE=", "-----END RSA PUBLIC KEY-----",
  "dir-signing-key", "-----BEGIN RSA PUBLIC KEY-----",
  "MIGJAoGBAL2WymlpILmB2wkfnFXanw7/fBtgo4XSohORwRhwBKXFgOwkI/nLYUsv",
  "m3za4D9wY2yozTHls2W/a8U4OXvP8cjqCLOW2nyqjpyWdUdTVtwpJJgExm67sw1F",
  "sscprF5eiqc5bw35gGaJCBDmoFodpwrhMBJQA8xJ+E0jM+NfvQdFAgMBAAE=", "-----END RSA PUBLIC KEY-----",
  "dir-key-crosscert", "-----BEGIN ID SIGNATURE-----",
  "Gaq8WkKTX7DbYwPRP557QH22LlrsqhHbr8rAAsbU9JqBstD7SiwcsbEdj0OT4zAs",
  "mVV1VczA2XQDXjp/BHOZEdq7sz57Cc15K3EbPESdcG/VBa2PorEMo8tnGt4jeElu",
  "bZZh4fk2snwKB+ky+sCyaIVqyDNc+b3+NpZeC/jbsvU=", "-----END ID SIGNATURE-----",
  "dir-key-certification", "-----BEGIN SIGNATURE-----",
  "DK+HvqwFcA4ZB5Bog5N4wrTbgZZ2ovAJvSJ8gwoyYm7F1B1144R7ZOx7fl4LgbbX",
  "V/HZKEzcJkTikff8OQ54o0WrYArfm1+Jq3e1V8leKs0vcQpMbK22iwvsodkOTzIS",
  "xTDL4FzK9odXg2dDBlS2DlJfygkvRrCZlWX5fj0XFP4=", "-----END SIGNATURE-----"]

def signatureLine : String :=
  "directory-signature F80447E3DCF733791B22B054815AA8ABA77B603D 7966C0BA0E6D1057073BC56401705E376CA5A98B"

/-- The lines of a vote of the authority, but the first one, with the line that says when the vote
was published and the lines of the signature. -/
def exampleLines (published : String) (signature : List String) : List String :=
  ["vote-status vote", "consensus-methods 13 14", published,
    "valid-after 2015-06-15 13:00:00", "fresh-until 2015-06-15 14:00:00",
    "valid-until 2015-06-15 16:00:00", "voting-delay 300 300", "known-flags Fast Running Valid",
    "dir-source auth F80447E3DCF733791B22B054815AA8ABA77B603D 192.0.2.1 192.0.2.1 9131 9101",
    "contact admin"] ++ exampleCert ++
  ["r ra AAoQ1DAR6kkoo19hBAX5K0QztNw CgkIBwYFBAMCAQAJCAcGBQQDAgE 2015-06-15 10:00:00 1.2.3.4 443 0",
    "s Fast Running Valid", "w Bandwidth=20", "p reject 1-65535", "directory-footer",
    signatureLine, "-----BEGIN SIGNATURE-----"] ++ signature ++ ["-----END SIGNATURE-----"]

/-- The text of a vote. -/
def exampleVoteText (published : String) (signature : List String) : DocText :=
  ("network-status-version 3" :: exampleLines published signature).flatMap fun line =>
    line.toList ++ ['\n']

def earlySignature : List String := [
  "iaIa1lh3VXknljo168EgaBKD69ciGXrfSJObhIO3ExMM0vGvJKVjaSd4PAUpvz3H",
  "ogBCNv7nmGCUahus7nmoGBw4BzOGuQDHOnfpU3mLGf6JLh8guQDigRqL2kHNbkud",
  "j6QpuHoA5iXKTyGXNVTC17OzMdPwrsDxv3WczZnYpz0="]

def lateSignature : List String := [
  "PnW9p6grOSxML8qnTRr0o3AzntSrduE18+1IbyJQ1yYP5keLF6bh+f5jOJV/PLBz",
  "wE8RlyL0objMwfBa+riNaGQUvkouiINf1MyhYn/wV49lD90fopSDztSRgMjM+ujm",
  "6pT25g7uxyH3vDrgr3bunJFK/y/KbhYtGsLLWRvKaRk="]

/-- Two votes of the authority, one published after the other. -/
def earlyText : DocText := exampleVoteText "published 2015-06-15 12:50:00" earlySignature

def lateText : DocText := exampleVoteText "published 2015-06-15 12:55:00" lateSignature

/-- A vote with the signature of another one. -/
def forgedText : DocText := exampleVoteText "published 2015-06-15 12:51:00" earlySignature

def exampleIdentity : Digest := 0xF80447E3DCF733791B22B054815AA8ABA77B603D

def earlyVote : NetworkstatusVote :=
  ⟨exampleIdentity, exampleIdentity, rfl,
    0x46871cc1bccf7082100d4198c71173e2428ca884, 1434372600, 1434373200⟩

def lateVote : NetworkstatusVote :=
  ⟨exampleIdentity, exampleIdentity, rfl,
    0x04c34295068353db03722c7dae9aa19ebe068637, 1434372900, 1434373200⟩

/-- The parser of a directory authority that is sent no other votes: what lies before the end of the
document is one of the two votes.  The signature of any other text is wrong. -/
def exampleVoteRules : VoteRules where
  parse s :=
    let d := s.take (s.length - (endOfFooter s).length)
    if d = earlyText then some earlyVote else if d = lateText then some lateVote else none
  recognized identity := identity == exampleIdentity
  intervalStarts := 1434373200

/-- A line that is not the first one of a document. -/
structure InnerLine (line : DocText) : Prop where
  newline : '\n' ∉ line
  head : line.head? ≠ some 'n'

instance (line : DocText) : Decidable (InnerLine line) :=
  decidable_of_iff ('\n' ∉ line ∧ line.head? ≠ some 'n')
    ⟨fun h => ⟨h.1, h.2⟩, fun h => ⟨h.newline, h.head⟩⟩

lemma InnerLine.start {line : DocText} (h : InnerLine line) : ¬ networkStatusVersion <+: line := by
  rintro ⟨rest, rfl⟩
  exact h.head rfl

/-- The characters of a text that is written out. -/
lemma innerLine_toList {line : List Char} (h : InnerLine line) :
    InnerLine (String.ofList line).toList := by
  rw [String.toList_ofList]
  exact h

lemma flatMap_lines_cons (line : String) (lines : List String) :
    ((line :: lines).flatMap fun line => line.toList ++ ['\n']) =
      line.toList ++ '\n' :: lines.flatMap fun line => line.toList ++ ['\n'] := by
  rw [flatMap_cons, append_assoc, singleton_append]

lemma infix_append_newline {p line : DocText} (hline : '\n' ∉ line) {s : DocText}
    (h : '\n' :: p <:+: line ++ '\n' :: s) : p <+: s ∨ '\n' :: p <:+: s := by
  induction line with
  | nil => exact (infix_cons_iff.mp h).imp_left fun hpre => (cons_prefix_cons.mp hpre).2
  | cons c line ih =>
    rcases infix_cons_iff.mp h with hpre | hin
    · exact absurd ((cons_prefix_cons.mp hpre).1 ▸ mem_cons_self) hline
    · exact ih (fun hmem => hline (mem_cons_of_mem c hmem)) hin

/-- No document starts among lines that are not the first one. -/
lemma not_infix_lines {first : DocText} (hfirst : '\n' ∉ first) {lines : List String}
    (h : ∀ line ∈ lines, InnerLine line.toList) :
    ¬ '\n' :: networkStatusVersion <:+:
      first ++ '\n' :: lines.flatMap fun line => line.toList ++ ['\n'] := by
  induction lines generalizing first with
  | nil =>
    intro hin
    rcases infix_append_newline hfirst hin with hpre | hin
    · exact absurd hpre (by decide)
    · exact absurd hin (by decide)
  | cons line lines ih =>
    have hline := h line mem_cons_self
    intro hin
    rw [flatMap_lines_cons] at hin
    rcases infix_append_newline hfirst hin with hpre | hin
    · exact hline.start (prefix_of_prefix_append_newline newline_notMem_networkStatusVersion hpre)
    · exact ih hline.newline (fun l hl => h l (mem_cons_of_mem line hl)) hin

/-- A line is found behind a newline. -/
lemma infix_of_mem_lines {lines : List String} {line : String} (h : line ∈ lines)
    (first : DocText) : '\n' :: line.toList <:+: first ++ '\n' :: lines.flatMap fun line =>
      line.toList ++ ['\n'] := by
  induction lines generalizing first with
  | nil => cases h
  | cons l lines ih =>
    rw [flatMap_lines_cons]
    rcases mem_cons.mp h with rfl | h
    · exact ⟨first, _, by rw [append_assoc, cons_append]⟩
    · have hin := ih h ('\n' :: l.toList)
      rw [cons_append] at hin
      exact hin.trans (suffix_append first _).isInfix

lemma newline_suffix_lines (lines : List String) (last : String) :
    ['\n'] <:+ (lines ++ [last]).flatMap fun line => line.toList ++ ['\n'] := by
  rw [flatMap_append, flatMap_singleton, ← append_assoc]
  exact suffix_append _ _

/-- A vote of the authority is a document. -/
lemma isDocument_exampleVoteText {published : String} {signature : List String}
    (hpublished : InnerLine published.toList)
    (hsignature : ∀ line ∈ signature, InnerLine line.toList) :
    IsDocument (exampleVoteText published signature) := by
  have hlines : ∀ line ∈ exampleLines published signature, InnerLine line.toList := by
    unfold exampleLines exampleCert
    simp only [mem_append, forall_mem_cons, or_imp, forall_and, not_mem_nil,
      IsEmpty.forall_iff, implies_true, and_true]
    and_intros
    all_goals try exact innerLine_toList (by decide +kernel)
    · exact hpublished
    · exact hsignature
  have htext : exampleVoteText published signature = "network-status-version 3".toList ++
      '\n' :: (exampleLines published signature).flatMap fun line => line.toList ++ ['\n'] :=
    flatMap_lines_cons _ _
  have hsigned : signatureLine ∈ exampleLines published signature := by
    simp [exampleLines]
  rw [htext]
  refine ⟨?_, ?_, ?_, not_infix_lines (by decide) hlines⟩
  · exact (by decide : networkStatusVersion <+: "network-status-version 3".toList).trans
      (prefix_append _ _)
  · exact ((newline_suffix_lines _ _).trans (suffix_cons _ _)).trans (suffix_append _ _)
  · refine IsInfix.trans ?_ (infix_of_mem_lines hsigned _)
    exact (cons_prefix_cons.mpr ⟨rfl, by decide +kernel⟩).isInfix

lemma isDocument_examples : IsDocument earlyText ∧ IsDocument lateText ∧ IsDocument forgedText := by
  have hearly : ∀ line ∈ earlySignature, InnerLine line.toList := by
    unfold earlySignature
    simp only [forall_mem_cons, not_mem_nil, IsEmpty.forall_iff, implies_true, and_true]
    and_intros
    all_goals exact innerLine_toList (by decide +kernel)
  have hlate : ∀ line ∈ lateSignature, InnerLine line.toList := by
    unfold lateSignature
    simp only [forall_mem_cons, not_mem_nil, IsEmpty.forall_iff, implies_true, and_true]
    and_intros
    all_goals exact innerLine_toList (by decide +kernel)
  refine ⟨isDocument_exampleVoteText ?_ hearly, isDocument_exampleVoteText ?_ hlate,
    isDocument_exampleVoteText ?_ hearly⟩
  all_goals exact innerLine_toList (by decide +kernel)

lemma parse_exampleVoteRules {d : DocText} (h : IsDocument d) :
    exampleVoteRules.parse d =
      if d = earlyText then some earlyVote else if d = lateText then some lateVote else none := by
  have htake : d.take (d.length - (endOfFooter d).length) = d := by
    rw [h.endOfFooter_eq_nil, length_nil, Nat.sub_zero, take_length]
  unfold exampleVoteRules
  dsimp only
  rw [htake]

/-- What follows a document does not matter. -/
lemma parse_exampleVoteRules_append {d rest : DocText} (h : IsDocument d)
    (hrest : networkStatusVersion <+: rest) :
    exampleVoteRules.parse (d ++ rest) = exampleVoteRules.parse d := by
  have htake : (d ++ rest).take ((d ++ rest).length - (endOfFooter (d ++ rest)).length) = d := by
    rw [h.endOfFooter_append hrest, length_append, Nat.add_sub_cancel, take_left]
  rw [parse_exampleVoteRules h]
  unfold exampleVoteRules
  dsimp only
  rw [htake]

/-- The parser accepts two of the three texts. -/
lemma parse_examples : exampleVoteRules.parse earlyText = some earlyVote ∧
    exampleVoteRules.parse lateText = some lateVote ∧ exampleVoteRules.parse forgedText = none := by
  obtain ⟨hearly, hlate, hforged⟩ := isDocument_examples
  have hle : lateText ≠ earlyText := by decide +kernel
  have hfe : forgedText ≠ earlyText := by decide +kernel
  have hfl : forgedText ≠ lateText := by decide +kernel
  rw [parse_exampleVoteRules hearly, parse_exampleVoteRules hlate, parse_exampleVoteRules hforged,
    if_pos rfl, if_neg hle, if_pos rfl, if_neg hfe, if_neg hfl]
  exact ⟨rfl, rfl, rfl⟩

/-- The two votes have different digests. -/
lemma published_of_voteDigest {s s' : DocText} {v v' : NetworkstatusVote}
    (h : exampleVoteRules.parse s = some v) (h' : exampleVoteRules.parse s' = some v')
    (hsame : v.voteDigest = v'.voteDigest) : v.published = v'.published := by
  have hvote {s : DocText} {v : NetworkstatusVote} (h : exampleVoteRules.parse s = some v) :
      v = earlyVote ∨ v = lateVote := by
    unfold exampleVoteRules at h
    dsimp only at h
    split_ifs at h
    · exact .inl (Option.some.inj h).symm
    · exact .inr (Option.some.inj h).symm
  rcases hvote h with rfl | rfl
  · rcases hvote h' with rfl | rfl
    · rfl
    · exact absurd hsame (by decide)
  · rcases hvote h' with rfl | rfl
    · exact absurd hsame (by decide)
    · rfl

lemma parse_nil : exampleVoteRules.parse [] = none := by
  have hearly : [] ≠ earlyText := by decide +kernel
  have hlate : [] ≠ lateText := by decide +kernel
  unfold exampleVoteRules
  dsimp only
  rw [take_nil, if_neg hearly, if_neg hlate]

/-- The late vote, the early one and a forged one are posted one after another, and then they are
posted together, with one more behind the forged one. -/
theorem dirvote_votes_stored_three :
    (∃ l, dirvoteAddVotes exampleVoteRules [] [lateText, earlyText, forgedText] = some l ∧
      StoredVotes ([lateText, earlyText, forgedText].flatMap (acceptedVotes exampleVoteRules)) l) ∧
    ∃ l', dirvoteAddVotes exampleVoteRules []
        [[lateText, earlyText, forgedText, earlyText].flatten] = some l' ∧
      dirvoteAddVotes exampleVoteRules [] [lateText, earlyText] = some l' := by
  obtain ⟨hearly, hlate, hforged⟩ := isDocument_examples
  obtain ⟨hparse, hparse', hnone⟩ := parse_examples
  obtain ⟨hstored, htogether⟩ := dirvote_votes_stored exampleVoteRules
    (fun _ _ _ _ h h' hsame => published_of_voteDigest h h' hsame)
    (fun _ _ hd hrest => parse_exampleVoteRules_append hd hrest) parse_nil
  refine ⟨hstored _, ?_⟩
  have hdocs := htogether [] [lateText, earlyText, forgedText, earlyText] (by simp [*])
  simpa only [takeWhile_cons, hparse, hparse', hnone, isSome_some, isSome_none,
    if_true, Bool.false_eq_true, if_false] using hdocs

/-- **The documents after one that cannot be parsed are not read**: a vote that is posted together
with such a document before it is not stored, although it is when they are posted one after
another. -/
theorem not_dirvote_concat :
    ¬ ∀ rules : VoteRules,
      (∀ s s' v v', rules.parse s = some v → rules.parse s' = some v' →
        v.voteDigest = v'.voteDigest → v.published = v'.published) →
      (∀ d rest, IsDocument d → networkStatusVersion <+: rest →
        rules.parse (d ++ rest) = rules.parse d) →
      rules.parse [] = none →
      ∀ (l : List PendingVote) (docs : List DocText), (∀ d ∈ docs, IsDocument d) → ∃ l',
        dirvoteAddVotes rules l [docs.flatten] = some l' ∧
        dirvoteAddVotes rules l docs = some l' := by
  intro hclaim
  obtain ⟨hearly, -, hforged⟩ := isDocument_examples
  obtain ⟨hparse, -, hnone⟩ := parse_examples
  obtain ⟨l', htogether, hsingly⟩ := hclaim exampleVoteRules
    (fun _ _ _ _ h h' hsame => published_of_voteDigest h h' hsame)
    (fun _ _ hd hrest => parse_exampleVoteRules_append hd hrest) parse_nil []
    [forgedText, earlyText] (by simp [*])
  have hflat : [forgedText, earlyText].flatten = forgedText ++ earlyText := by
    rw [flatten_cons, flatten_singleton]
  have hfirst := parse_exampleVoteRules_append hforged hearly.start
  rw [dirvoteAddVotes_eq, flatMap_singleton, hflat,
    acceptedVotes_of_none (hfirst.trans hnone)] at htogether
  have hlast : nextDocument earlyText = none := by
    rw [nextDocument, hearly.endOfFooter_eq_nil, if_neg (by decide)]
  rw [dirvoteAddVotes_eq, flatMap_cons, flatMap_singleton, acceptedVotes_of_none hnone,
    acceptedVotes_of_some hparse, hlast, ← Option.some.inj htogether] at hsingly
  exact absurd (congrArg (Option.map List.length) hsingly) (by decide)

end Astoria
