import Astoria.TorClient.EntryLines

/-!
# Reading an entry

The entry of a router in the consensus, as its lines, and what a client reads from them.  Each field
is read as it was written, apart from the bandwidth, the time, long lists of flags, long versions
and a router that is called unnamed.
-/

namespace Astoria

open List
open Option hiding or_self

/-! ### The lines of an entry -/

/-- The words of the line with the weights of an entry. -/
def weightsWords (consensusMethod : ℕ) (rs : RsOut) (bandwidthKb : UInt32) : List DocText :=
  ("Bandwidth=".toList ++ intText (castInt32 bandwidthKb.toNat)) ::
    ((if rs.bwIsUnmeasured ∧ minMethodToClipUnmeasuredBw ≤ consensusMethod then
        ["Unmeasured=1".toList] else []) ++
      (rs.guardfractionPercentage.map fun g =>
        "GuardFraction=".toList ++ Nat.toDigits 10 g.toNat).toList)

/-- The lines that are written for a router. -/
def entryLines (flavor : ConsensusFlavor) (consensusMethod : ℕ) (rs : RsOut) : EntryLines where
  r := [rs.nickname.toList, digestToBase64 20 rs.identityDigest] ++
    (if flavor = .ns then [digestToBase64 20 rs.rs.descriptorDigest] else []) ++
    [formatDay (torGmtime rs.rs.publishedOn.toNat), formatClock (torGmtime rs.rs.publishedOn.toNat),
      torInetNtoa rs.rs.addr.toNat, Nat.toDigits 10 rs.rs.orPort.toNat,
      Nat.toDigits 10 rs.rs.dirPort.toNat]
  a := if flavor = .ns then rs.altOrport.map fun orport => fmtAddrport orport.1 orport.2 else none
  m := if flavor = .microdesc then some (digestToBase64 32 rs.microdescDigest) else none
  s := rs.chosenFlags.map String.toList
  v := rs.version.map String.toList
  w := rs.bandwidthKb.map (weightsWords consensusMethod rs)
  p := if flavor = .ns then rs.exitsummary.map String.toList else none

lemma intercalate_cons (word : DocText) (words : List DocText) :
    [' '].intercalate (word :: words) = word ++ spacedWords words := by
  induction words generalizing word with
  | nil => simp [spacedWords]
  | cons w words ih =>
    rw [List.intercalate_cons_cons, ih]
    simp [spacedWords]

lemma weightsLine_eq (method : ℕ) (rs : RsOut) : weightsLine method rs = joinLines
    ((rs.bandwidthKb.map (weightsWords method rs)).map fun w => 'w' :: spacedWords w).toList := by
  unfold weightsLine weightsWords
  cases rs.bandwidthKb with
  | none => rfl
  | some bandwidthKb =>
    have hkeyword : "w Bandwidth=".toList = 'w' :: ' ' :: "Bandwidth=".toList ∧
        " Unmeasured=1".toList = ' ' :: "Unmeasured=1".toList ∧
        " GuardFraction=".toList = ' ' :: "GuardFraction=".toList := by decide
    dsimp only [map_some]
    rw [hkeyword.1, hkeyword.2.1, hkeyword.2.2]
    generalize intText (castInt32 bandwidthKb.toNat) = bandwidth
    generalize "Bandwidth=".toList = keyword
    generalize "Unmeasured=1".toList = unmeasured
    generalize "GuardFraction=".toList = guardfraction
    cases rs.guardfractionPercentage with
    | none => split_ifs <;> simp [joinLines, spacedWords]
    | some g =>
      dsimp only [map_some]
      generalize Nat.toDigits 10 g.toNat = percentage
      split_ifs <;> simp [joinLines, spacedWords]

/-- **An entry is written as its lines.** -/
lemma entryText_eq (flavor : ConsensusFlavor) (method : ℕ) (rs : RsOut) :
    entryText flavor method rs = joinLines (entryLines flavor method rs).lines := by
  unfold entryText routerstatusFormatEntry
  rw [weightsLine_eq, intercalate_cons]
  unfold entryLines EntryLines.lines formatIsoTime formatTm
  generalize digestToBase64 20 rs.identityDigest = identity
  generalize digestToBase64 20 rs.rs.descriptorDigest = descriptor
  generalize digestToBase64 32 rs.microdescDigest = microdesc
  generalize formatDay (torGmtime rs.rs.publishedOn.toNat) = day
  generalize formatClock (torGmtime rs.rs.publishedOn.toNat) = clock
  generalize torInetNtoa rs.rs.addr.toNat = addr
  generalize Nat.toDigits 10 rs.rs.orPort.toNat = orPort
  generalize Nat.toDigits 10 rs.rs.dirPort.toNat = dirPort
  cases flavor <;> cases rs.altOrport <;> cases rs.version <;> cases rs.exitsummary <;>
    simp [joinLines, spacedWords]

/-! ### What is written -/

/-- What the consensus says about a router comes from votes that the parser accepted. -/
structure RsOut.Written (rs : RsOut) : Prop where
  nickname : isLegalNickname rs.nickname.toList = true
  identity_lt : rs.identityDigest < 256 ^ 20
  descriptor_lt : rs.rs.descriptorDigest < 256 ^ 20
  microdesc_lt : rs.microdescDigest < 256 ^ 32
  publishedOn_nonneg : 0 ≤ rs.rs.publishedOn
  flags : ∀ f ∈ rs.chosenFlags, IsWord f.toList
  guardfraction_le : ∀ g ∈ rs.guardfractionPercentage, g ≤ 100
  version : ∀ v ∈ rs.version, '\n' ∉ v.toList ∧ eatWhitespaceNoNl v.toList = v.toList
  exitsummary : ∀ p ∈ rs.exitsummary, '\n' ∉ p.toList ∧ p.toList.length + 2 ≤ maxLineLength ∧
    ("accept ".toList.isPrefixOf p.toList ∨ "reject ".toList.isPrefixOf p.toList)

section Lengths

lemma length_spacedWords_le {words : List DocText} {n : ℕ} (h : ∀ w ∈ words, w.length ≤ n) :
    (spacedWords words).length ≤ words.length * (n + 1) := by
  induction words with
  | nil => exact Nat.zero_le _
  | cons w words ih =>
    have hw := h w mem_cons_self
    have hrec := ih fun w' hw' => h w' (mem_cons_of_mem w hw')
    have hspaced : spacedWords (w :: words) = ' ' :: (w ++ spacedWords words) := rfl
    rw [hspaced, length_cons, length_append, length_cons, Nat.add_mul, one_mul]
    omega

lemma length_digestToBase64 (digestLen : ℕ) (d : Digest) :
    (digestToBase64 digestLen d).length = (digestLen * 8 + 5) / 6 := by
  rw [digestToBase64_eq, length_base64Digits, length_digestBytes]

lemma length_torInetNtoa (addr : ℕ) : (torInetNtoa addr).length ≤ 15 := by
  have hbyte : ∀ n, (Nat.toDigits 10 (n % 256)).length ≤ 3 := fun n =>
    Nat.toDigits_length 10 _ 3 (by decide) (by omega)
  have h₁ := hbyte (addr / 2 ^ 24)
  have h₂ := hbyte (addr / 2 ^ 16)
  have h₃ := hbyte (addr / 2 ^ 8)
  have h₄ := hbyte addr
  unfold torInetNtoa
  simp only [length_append, length_cons]
  omega

lemma length_printWords {words : List ℕ} (h : ∀ w ∈ words, w < 16 ^ 4) (gapPos : Option ℕ)
    (skipping : Bool) (i : ℕ) : (printWords gapPos skipping i words).length ≤ words.length * 5 := by
  induction words generalizing skipping i with
  | nil => exact Nat.zero_le _
  | cons w words ih =>
    have hrec : ∀ skipping i, (printWords gapPos skipping i words).length ≤ words.length * 5 :=
      fun skipping i => ih (fun w' hw' => h w' (mem_cons_of_mem w hw')) skipping i
    have hdigits := Nat.toDigits_length 16 w 4 (by decide) (h w mem_cons_self)
    have hskip := hrec true (i + 1)
    have hnext := hrec false (i + 1)
    rw [printWords, length_cons]
    split_ifs
    · omega
    all_goals
      simp only [length_append, length_cons, length_nil]
      omega

/-- The length of the text of an IPv6 address with a port. -/
lemma length_fmtAddrport (addr : BitVec 128) (port : UInt16) :
    (fmtAddrport addr port).length ≤ 60 := by
  have hport := Nat.toDigits_length 10 port.toNat 5 (by decide) (port.toNat_lt.trans (by decide))
  have hlt : ∀ w ∈ ipv6Words addr.toNat, w < 16 ^ 4 := by
    intro w hw
    obtain ⟨i, -, rfl⟩ := List.mem_map.mp hw
    exact Nat.mod_lt _ (by decide)
  have hlen : (ipv6Words addr.toNat).length = 8 := by simp [ipv6Words]
  have hword : (Nat.toDigits 16 ((ipv6Words addr.toNat).getD 5 0)).length ≤ 4 := by
    refine Nat.toDigits_length 16 _ 4 (by decide) ?_
    rw [getD_eq_getElem?_getD, getElem?_eq_getElem (by omega), getD_some]
    exact hlt _ (getElem_mem _)
  have haddr : (torInetNtop addr.toNat).length ≤ 40 := by
    have hntoa := length_torInetNtoa addr.toNat
    have hwords := length_printWords hlt (longestGapPos (ipv6Words addr.toNat)) false 0
    unfold torInetNtop
    dsimp only
    split_ifs
    · simp only [length_cons]
      omega
    · simp only [length_append, length_cons]
      omega
    · omega
  unfold fmtAddrport
  simp only [length_append, length_cons]
  omega

lemma length_formatTm (t : ℕ) :
    (formatDay (torGmtime t)).length ≤ 10 ∧ (formatClock (torGmtime t)).length = 8 := by
  have hyear := Nat.toDigits_length 10 (torGmtime t).year 4 (by decide)
    (Nat.lt_succ_of_le (torGmtime_spec t).1)
  refine ⟨?_, rfl⟩
  unfold formatDay twoDigits
  simp only [length_append, length_cons, length_nil]
  omega

lemma length_intText_castInt32 (n : ℤ) : (intText (castInt32 n)).length ≤ 11 := by
  have hlt := Int.bmod_lt (x := n) (m := 2 ^ 32) (by decide)
  have hle := Int.le_bmod (x := n) (m := 2 ^ 32) (by decide)
  have hdigits :=
    Nat.toDigits_length 10 (castInt32 n).natAbs 10 (by decide) (by unfold castInt32; omega)
  unfold intText
  split_ifs
  · rw [length_cons]
    omega
  · omega

end Lengths

/-! ### The lines can be read -/

section Lines

variable {rs : RsOut} {flavor : ConsensusFlavor} {method : ℕ}

/-- A word that is not empty and not long. -/
structure ShortWord (w : DocText) : Prop where
  word : IsWord w
  ne : w ≠ []
  length_le : w.length ≤ 50

lemma shortWord_toDigits {n : ℕ} (h : n < 2 ^ 32) : ShortWord (Nat.toDigits 10 n) :=
  ⟨isWord_toDigits (by decide) (by decide) n, Nat.toDigits_ne_nil,
    (Nat.toDigits_length 10 n 10 (by decide) (by omega)).trans (by decide)⟩

lemma shortWord_digestToBase64 (d : Digest) : ShortWord (digestToBase64 20 d) := by
  have hlen := length_digestToBase64 20 d
  exact ⟨isWord_digestToBase64 20 d, ne_nil_of_length_pos (by omega), by omega⟩

/-- The two words of a time. -/
lemma shortWord_formatTm (t : ℕ) :
    ShortWord (formatDay (torGmtime t)) ∧ ShortWord (formatClock (torGmtime t)) := by
  obtain ⟨-, hmon, hmday, hhour, hmin, hsec⟩ := torGmtime_spec t
  obtain ⟨hday, hclock⟩ := isWord_formatTm hmon hmday hhour hmin hsec
  obtain ⟨hdayLen, hclockLen⟩ := length_formatTm t
  have hne : formatDay (torGmtime t) ≠ [] := by
    unfold formatDay
    exact append_ne_nil_of_right_ne_nil _ (cons_ne_nil _ _)
  exact ⟨⟨hday, hne, by omega⟩, ⟨hclock, ne_nil_of_length_pos (by omega), by omega⟩⟩

lemma shortWord_torInetNtoa (addr : ℕ) : ShortWord (torInetNtoa addr) := by
  refine ⟨isWord_torInetNtoa addr, ?_, (length_torInetNtoa addr).trans (by decide)⟩
  unfold torInetNtoa
  exact append_ne_nil_of_right_ne_nil _ (cons_ne_nil _ _)

lemma shortWord_nickname {s : DocText} (h : isLegalNickname s = true) : ShortWord s := by
  unfold isLegalNickname at h
  rw [Bool.and_eq_true, decide_eq_true_eq, List.all_eq_true] at h
  exact ⟨fun c hc => endsWord_of_isAlphanum (h.2 c hc), ne_nil_of_length_pos h.1.1, by omega⟩

/-- The words of the line with the identity are short. -/
lemma RsOut.Written.shortWord_r (h : rs.Written) :
    ∀ w ∈ (entryLines flavor method rs).r, ShortWord w := by
  obtain ⟨hday, hclock⟩ := shortWord_formatTm rs.rs.publishedOn.toNat
  have hport : ∀ port : UInt16, ShortWord (Nat.toDigits 10 port.toNat) := by
    intro port
    have hlt := port.toNat_lt
    exact shortWord_toDigits (by omega)
  intro w hw
  unfold entryLines at hw
  dsimp only at hw
  rw [mem_append, mem_append, mem_pair] at hw
  rcases hw with ((hw | hw) | hw) | hw
  · rw [hw]
    exact shortWord_nickname h.nickname
  · rw [hw]
    exact shortWord_digestToBase64 _
  · split_ifs at hw
    · rw [mem_singleton.mp hw]
      exact shortWord_digestToBase64 _
    · cases hw
  · simp only [mem_cons, not_mem_nil, or_false] at hw
    rcases hw with hw | hw | hw | hw | hw
    all_goals rw [hw]
    · exact hday
    · exact hclock
    · exact shortWord_torInetNtoa _
    · exact hport _
    · exact hport _

lemma ShortWord.keyword {keyword w : DocText} (hkeyword : IsWord keyword)
    (hlen : keyword.length ≤ 30) (hw : IsWord w) (hne : w ≠ []) (hwlen : w.length ≤ 20) :
    ShortWord (keyword ++ w) := by
  refine ⟨hkeyword.append hw, append_ne_nil_of_right_ne_nil _ hne, ?_⟩
  rw [length_append]
  omega

lemma shortWord_weightsWords (method : ℕ) (rs : RsOut) (bandwidthKb : UInt32) :
    ∀ w ∈ weightsWords method rs bandwidthKb, ShortWord w := by
  have hdigits : ∀ n, IsWord (Nat.toDigits 10 n) := isWord_toDigits (by decide) (by decide)
  have hint : IsWord (intText (castInt32 bandwidthKb.toNat)) ∧
      intText (castInt32 bandwidthKb.toNat) ≠ [] := by
    unfold intText
    split_ifs
    · exact ⟨IsWord.cons rfl (hdigits _), cons_ne_nil _ _⟩
    · exact ⟨hdigits _, Nat.toDigits_ne_nil⟩
  intro w hw
  rcases mem_cons.mp hw with rfl | hw
  · exact ShortWord.keyword (isWord_of_all rfl) (by decide) hint.1 hint.2
      ((length_intText_castInt32 _).trans (by decide))
  · rcases mem_append.mp hw with hw | hw
    · split_ifs at hw
      · obtain rfl := mem_singleton.mp hw
        exact ⟨isWord_of_all rfl, by decide, by decide⟩
      · cases hw
    · obtain ⟨g, -, rfl⟩ := map_eq_some_iff.mp (mem_toList.mp hw)
      exact ShortWord.keyword (isWord_of_all rfl) (by decide) (hdigits _) Nat.toDigits_ne_nil
        ((Nat.toDigits_length 10 g.toNat 10 (by decide) (g.toNat_lt.trans (by decide))).trans
          (by decide))

lemma length_weightsWords (method : ℕ) (rs : RsOut) (bandwidthKb : UInt32) :
    (weightsWords method rs bandwidthKb).length ≤ 3 := by
  unfold weightsWords
  rw [length_cons, length_append]
  have hunmeasured : (if rs.bwIsUnmeasured ∧ minMethodToClipUnmeasuredBw ≤ method then
      ["Unmeasured=1".toList] else []).length ≤ 1 := by
    split_ifs
    · exact le_rfl
    · exact Nat.zero_le _
  have hguardfraction : (rs.guardfractionPercentage.map fun g =>
      "GuardFraction=".toList ++ Nat.toDigits 10 g.toNat).toList.length ≤ 1 := by
    cases rs.guardfractionPercentage with
    | none => exact Nat.zero_le _
    | some g => exact le_rfl
  omega

/-- **The lines of an entry** can be read, up to the lengths of the flags and the version. -/
lemma RsOut.Written.ok (h : rs.Written) (flavor : ConsensusFlavor) (method : ℕ) :
    (entryLines flavor method rs).Ok := by
  have hwords : ∀ w ∈ (entryLines flavor method rs).r, ShortWord w := h.shortWord_r
  have hcount : 7 ≤ (entryLines flavor method rs).r.length ∧
      (entryLines flavor method rs).r.length ≤ 8 := by
    cases flavor with
    | ns => exact ⟨Nat.le_succ 7, le_refl 8⟩
    | microdesc => exact ⟨le_refl 7, Nat.le_succ 7⟩
  have hline := length_spacedWords_le fun w hw => (hwords w hw).length_le
  have hmax : maxLineLength = 131072 ∧ maxArgs = 512 := by decide
  refine ⟨⟨fun w hw => ⟨(hwords w hw).word, (hwords w hw).ne⟩, hcount.1, by omega, by omega⟩, ?_,
    ?_, ?_, ?_, ?_, ?_⟩
  · intro a ha
    unfold entryLines at ha
    dsimp only at ha
    split_ifs at ha
    · obtain ⟨orport, -, rfl⟩ := mem_map.mp ha
      have hlen := length_fmtAddrport orport.1 orport.2
      exact ⟨isWord_fmtAddrport _ _, cons_ne_nil _ _, by omega⟩
    · cases ha
  · intro m hm
    unfold entryLines at hm
    dsimp only at hm
    split_ifs at hm
    · obtain rfl := some.inj hm
      have hlen := length_digestToBase64 32 rs.microdescDigest
      have hword := isWord_digestToBase64 32 rs.microdescDigest
      refine ⟨fun hmem => ?_,
        eatWhitespaceNoNl_of_word fun c hc => hword c (mem_of_mem_head? hc), by omega⟩
      exact absurd (hword _ hmem) (by decide)
    · cases hm
  · intro w hw
    obtain ⟨f, hf, rfl⟩ := List.mem_map.mp hw
    exact h.flags f hf
  · intro v hv
    obtain ⟨version, hversion, rfl⟩ := mem_map.mp hv
    exact h.version version hversion
  · intro w hw
    obtain ⟨bandwidthKb, -, rfl⟩ := mem_map.mp hw
    have hweights := shortWord_weightsWords method rs bandwidthKb
    have hthree := length_weightsWords method rs bandwidthKb
    have hlen := length_spacedWords_le fun w hw => (hweights w hw).length_le
    exact ⟨fun x hx => ⟨(hweights x hx).word, (hweights x hx).ne⟩, by omega, by omega⟩
  · intro p hp
    unfold entryLines at hp
    dsimp only at hp
    split_ifs at hp
    · obtain ⟨summary, hsummary, rfl⟩ := mem_map.mp hp
      obtain ⟨hnewline, hlen, hstart⟩ := h.exitsummary summary hsummary
      refine ⟨hnewline, ?_, hlen⟩
      rw [List.isPrefixOf_iff_prefix, List.isPrefixOf_iff_prefix] at hstart
      refine eatWhitespaceNoNl_of_word fun c hc => ?_
      rcases hstart with ⟨rest, hrest⟩ | ⟨rest, hrest⟩
      all_goals
        rw [← hrest] at hc
        obtain rfl := some.inj hc
        rfl
    · cases hp

end Lines

/-! ### What is read -/

def Routerstatus.flags (e : Routerstatus) : List (String × Bool) :=
  [("Exit", e.isExit), ("Stable", e.isStable), ("Fast", e.isFast), ("Running", e.isFlaggedRunning),
    ("Named", e.isNamed), ("Valid", e.isValid), ("Guard", e.isPossibleGuard),
    ("BadExit", e.isBadExit), ("Authority", e.isAuthority), ("Unnamed", e.isUnnamed),
    ("HSDir", e.isHsDir)]

/-- What was read of a router is what the consensus says about it.  The digest of its descriptor is
that of its microdescriptor in a consensus of microdescriptors. -/
structure Routerstatus.Agrees (flavor : ConsensusFlavor) (rs : RsOut) (e : Routerstatus) :
    Prop where
  identityDigest : e.identityDigest = rs.identityDigest
  descriptorDigest : e.descriptorDigest = if flavor = .ns then rs.rs.descriptorDigest
    else rs.microdescDigest
  publishedOn : (e.publishedOn : ℤ) = rs.rs.publishedOn
  addr : e.addr = rs.rs.addr
  orPort : e.orPort = rs.rs.orPort
  dirPort : e.dirPort = rs.rs.dirPort
  bandwidthKb : e.bandwidthKb = rs.bandwidthKb
  flags : ∀ flag ∈ e.flags, flag.2 = decide (flag.1 ∈ rs.chosenFlags)

/-- The status that is read of a router with some time and weights. -/
def readStatus (flavor : ConsensusFlavor) (rs : RsOut) (publishedOn : ℕ) (weights : EntryWeights) :
    Routerstatus where
  nickname := rs.nickname.toList
  identityDigest := rs.identityDigest
  descriptorDigest := if flavor = .ns then rs.rs.descriptorDigest else rs.microdescDigest
  publishedOn := publishedOn
  addr := rs.rs.addr
  orPort := rs.rs.orPort
  dirPort := rs.rs.dirPort
  isExit := decide ("Exit" ∈ rs.chosenFlags)
  isStable := decide ("Stable" ∈ rs.chosenFlags)
  isFast := decide ("Fast" ∈ rs.chosenFlags)
  isFlaggedRunning := decide ("Running" ∈ rs.chosenFlags)
  isNamed := decide ("Named" ∈ rs.chosenFlags) &&
    decide (rs.nickname.toList.map Char.toLower ≠ "unnamed".toList)
  isValid := decide ("Valid" ∈ rs.chosenFlags)
  isPossibleGuard := decide ("Guard" ∈ rs.chosenFlags)
  isBadExit := decide ("BadExit" ∈ rs.chosenFlags)
  isAuthority := decide ("Authority" ∈ rs.chosenFlags)
  isUnnamed := decide ("Unnamed" ∈ rs.chosenFlags)
  isHsDir := decide ("HSDir" ∈ rs.chosenFlags)
  bandwidthKb := weights.bandwidthKb
  bwIsUnmeasured := weights.bwIsUnmeasured
  guardfractionPercentage := weights.guardfractionPercentage
  exitsummary := if flavor = .ns then rs.exitsummary.map String.toList else none

section Reading

variable {rs : RsOut} {flavor : ConsensusFlavor} {method : ℕ} {fractions : Bool}

lemma mem_flags {flag : String} {l : List String} (h : flag.toList ≠ []) :
    flag.toList ∈ (l.map String.toList).filter (· ≠ []) ↔ flag ∈ l := by
  rw [mem_filter, List.mem_map]
  constructor
  · rintro ⟨⟨f, hf, heq⟩, -⟩
    rwa [← String.toList_inj.mp heq]
  · exact fun hmem => ⟨⟨flag, hmem, rfl⟩, decide_eq_true h⟩

lemma exists_foldlM_parseWeight (h : rs.Written) (method : ℕ)
    (fractions isPossibleGuard : Bool) (w : EntryWeights) :
    ∃ w', ((if rs.bwIsUnmeasured ∧ minMethodToClipUnmeasuredBw ≤ method then
        ["Unmeasured=1".toList] else []) ++ (rs.guardfractionPercentage.map fun g =>
          "GuardFraction=".toList ++ Nat.toDigits 10 g.toNat).toList).foldlM
        (parseWeight fractions isPossibleGuard) w = some w' ∧
      w'.bandwidthKb = w.bandwidthKb := by
  have hunmeasured : ∀ w, parseWeight fractions isPossibleGuard w "Unmeasured=1".toList =
      some { w with bwIsUnmeasured := true } := fun w => rfl
  have hguardfraction : ∀ g ∈ rs.guardfractionPercentage, ∀ w, ∃ w',
      parseWeight fractions isPossibleGuard w
        ("GuardFraction=".toList ++ Nat.toDigits 10 g.toNat) = some w' ∧
        w'.bandwidthKb = w.bandwidthKb := by
    intro g hg w
    have hle : g.toNat ≤ 100 := UInt32.le_iff_toNat_le.mp (h.guardfraction_le g hg)
    have hdrop : ("GuardFraction=".toList ++ Nat.toDigits 10 g.toNat).drop 14 =
      Nat.toDigits 10 g.toNat := rfl
    have hstart : startsWith ("GuardFraction=".toList ++ Nat.toDigits 10 g.toNat)
        "Bandwidth=".toList = false ∧
        startsWith ("GuardFraction=".toList ++ Nat.toDigits 10 g.toNat) "Unmeasured=1".toList =
          false ∧ startsWith ("GuardFraction=".toList ++ Nat.toDigits 10 g.toNat)
            "GuardFraction=".toList = true :=
      ⟨rfl, rfl, rfl⟩
    unfold parseWeight
    rw [hstart.1, hstart.2.1, hstart.2.2, hdrop,
      torParseUlong_toDigits (Nat.zero_le _) hle (by decide),
      if_neg Bool.false_ne_true, if_neg Bool.false_ne_true, if_pos rfl]
    split_ifs
    · exact ⟨_, rfl, rfl⟩
    · exact ⟨_, rfl, rfl⟩
    · exact ⟨_, rfl, rfl⟩
  have hlast : ∀ w, ∃ w', (rs.guardfractionPercentage.map fun g =>
      "GuardFraction=".toList ++ Nat.toDigits 10 g.toNat).toList.foldlM
        (parseWeight fractions isPossibleGuard) w = some w' ∧
      w'.bandwidthKb = w.bandwidthKb := by
    intro w
    cases hg : rs.guardfractionPercentage with
    | none => exact ⟨w, rfl, rfl⟩
    | some g =>
      obtain ⟨w', hw', hbandwidth⟩ := hguardfraction g hg w
      refine ⟨w', ?_, hbandwidth⟩
      rw [map_some, toList_some, foldlM_cons, hw']
      rfl
  split_ifs
  · obtain ⟨w', hw', hbandwidth⟩ := hlast { w with bwIsUnmeasured := true }
    refine ⟨w', ?_, hbandwidth⟩
    rw [singleton_append, foldlM_cons, hunmeasured]
    exact hw'
  · exact hlast w

/-- **The weights are read** if the bandwidth has a sign bit of zero, and else not at all. -/
lemma parseWeights_entryLines (h : rs.Written) (flavor : ConsensusFlavor) (method : ℕ)
    (fractions isPossibleGuard : Bool) :
    (∃ w, parseWeights fractions isPossibleGuard
        (entryLines flavor method rs).tokens = some w ∧ w.bandwidthKb = rs.bandwidthKb ∧
          ∀ b ∈ rs.bandwidthKb, b.toNat < 2 ^ 31) ∨
      (parseWeights fractions isPossibleGuard
        (entryLines flavor method rs).tokens = none ∧
        ¬ ∀ b ∈ rs.bandwidthKb, b.toNat < 2 ^ 31) := by
  have hw := (entryLines flavor method rs).findOptByKeyword.2.2.2.1
  unfold parseWeights
  rw [hw]
  have hlines : (entryLines flavor method rs).w = rs.bandwidthKb.map (weightsWords method rs) :=
    rfl
  rw [hlines]
  cases hb : rs.bandwidthKb with
  | none => exact .inl ⟨⟨none, false, none⟩, rfl, rfl, nofun⟩
  | some b =>
    have hfirst : parseWeight fractions isPossibleGuard ⟨none, false, none⟩
        ("Bandwidth=".toList ++ intText (castInt32 b.toNat)) =
        (torParseUlong (intText (castInt32 b.toNat)) 0 (2 ^ 32 - 1)).map fun bw =>
          ⟨some (UInt32.ofNat bw), false, none⟩ := by
      have hstart : startsWith ("Bandwidth=".toList ++ intText (castInt32 b.toNat))
          "Bandwidth=".toList = true :=
        List.isPrefixOf_iff_prefix.mpr (prefix_append _ _)
      have hdrop : ("Bandwidth=".toList ++ intText (castInt32 b.toNat)).drop 10 =
          intText (castInt32 b.toNat) :=
        drop_left' (by decide)
      unfold parseWeight
      rw [if_pos hstart, hdrop]
    rw [map_some, getD_some, weightsWords, foldlM_cons, hfirst, torParseUlong_bandwidth]
    by_cases hsmall : b.toNat < 2 ^ 31
    · rw [if_pos hsmall, map_some, UInt32.ofNat_toNat]
      obtain ⟨w', hw', hbandwidth⟩ := exists_foldlM_parseWeight h method fractions
        isPossibleGuard ⟨some b, false, none⟩
      refine .inl ⟨w', hw', hbandwidth, ?_⟩
      rintro b' hb'
      obtain rfl := some.inj hb'
      exact hsmall
    · rw [if_neg hsmall]
      exact .inr ⟨rfl, fun hall => hsmall (hall b rfl)⟩

/-- The summary of the exit policy is read. -/
lemma parseExitsummary_entryLines (h : rs.Written) (flavor : ConsensusFlavor) (method : ℕ) :
    parseExitsummary (entryLines flavor method rs).tokens =
      some (if flavor = .ns then rs.exitsummary.map String.toList else none) := by
  have hp := (entryLines flavor method rs).findOptByKeyword.2.2.2.2
  have hlines : (entryLines flavor method rs).p =
      if flavor = .ns then rs.exitsummary.map String.toList else none := rfl
  unfold parseExitsummary
  rw [hp, hlines]
  split_ifs with hns
  · cases hsummary : rs.exitsummary with
    | none => rfl
    | some summary =>
      have hstart : startsWith summary.toList "accept ".toList ∨
          startsWith summary.toList "reject ".toList :=
        (h.exitsummary summary hsummary).2.2
      dsimp only [map_some]
      rw [getD_cons_zero, if_pos hstart]
  · rfl

/-- **The fields of an entry are read as they were written.** -/
lemma parseEntryTokens_entryLines (h : rs.Written) (hmethod : 2 ≤ method) :
    parseEntryTokens fractions method flavor
        (entryLines flavor method rs).tokens =
      (parseIsoTime (formatIsoTime rs.rs.publishedOn.toNat)).bind fun publishedOn =>
        (parseWeights fractions (decide ("Guard" ∈ rs.chosenFlags))
          (entryLines flavor method rs).tokens).map (readStatus flavor rs publishedOn) := by
  obtain ⟨hr, hs, hm, -, -⟩ := (entryLines flavor method rs).findOptByKeyword
  have hexit := parseExitsummary_entryLines h flavor method
  have hflag : ∀ flag : String, flag.toList ≠ [] →
      decide (flag.toList ∈ (entryLines flavor method rs).s.filter (· ≠ [])) =
        decide (flag ∈ rs.chosenFlags) := fun flag hflag => decide_eq_decide.mpr (mem_flags hflag)
  have hport : ∀ port : UInt16,
      UInt16.ofNat ((torParseLong (Nat.toDigits 10 port.toNat) 0 65535).getD 0).toNat = port := by
    intro port
    have hlt := port.toNat_lt
    rw [torParseLong_toDigits (by omega) (by omega), getD_some, Int.toNat_natCast,
      UInt16.ofNat_toNat]
  have hidentity := digestFromBase64_digestToBase64 h.identity_lt
  have hdescriptor := digestFromBase64_digestToBase64 h.descriptor_lt
  have hmicrodesc := digestFromBase64_digestToBase64 h.microdesc_lt
  have haddr := torInetAton_torInetNtoa rs.rs.addr
  obtain ⟨hdayLen, hclockLen⟩ := length_formatTm rs.rs.publishedOn.toNat
  have htime : (formatDay (torGmtime rs.rs.publishedOn.toNat) ++ ' ' ::
      formatClock (torGmtime rs.rs.publishedOn.toNat)).length ≤ 19 := by
    rw [length_append, length_cons]
    omega
  have htext : formatDay (torGmtime rs.rs.publishedOn.toNat) ++ ' ' ::
      formatClock (torGmtime rs.rs.publishedOn.toNat) = formatIsoTime rs.rs.publishedOn.toNat := rfl
  have hmethod' : decide (2 ≤ method) = true := decide_eq_true hmethod
  have hlegal : ¬ (!isLegalNickname rs.nickname.toList) = true := by
    rw [h.nickname]
    exact Bool.false_ne_true
  unfold parseEntryTokens
  rw [hr, hs, hexit]
  simp only [bind_eq_bind, bind_some, getD_some, hflag "Exit" (by decide),
    hflag "Stable" (by decide), hflag "Fast" (by decide), hflag "Running" (by decide),
    hflag "Named" (by decide), hflag "Valid" (by decide), hflag "Guard" (by decide),
    hflag "BadExit" (by decide), hflag "Authority" (by decide), hflag "Unnamed" (by decide),
    hflag "HSDir" (by decide), hmethod', Bool.and_true]
  generalize parseWeights fractions (decide ("Guard" ∈ rs.chosenFlags))
    (entryLines flavor method rs).tokens = weights
  cases flavor with
  | ns =>
    have hlines : (entryLines .ns method rs).r = [rs.nickname.toList,
        digestToBase64 20 rs.identityDigest, digestToBase64 20 rs.rs.descriptorDigest,
        formatDay (torGmtime rs.rs.publishedOn.toNat),
        formatClock (torGmtime rs.rs.publishedOn.toNat), torInetNtoa rs.rs.addr.toNat,
        Nat.toDigits 10 rs.rs.orPort.toNat, Nat.toDigits 10 rs.rs.dirPort.toNat] := rfl
    rw [hlines]
    simp only [getD_cons_zero, getD_cons_succ, if_true]
    rw [if_neg fun hshort => absurd hshort.2 (lt_irrefl _), if_neg hlegal, hidentity, bind_some,
      hdescriptor, bind_some, if_pos htime, htext]
    refine Option.bind_congr fun publishedOn _ => ?_
    rw [haddr, bind_some, hport, hport]
    cases weights with
    | none => rfl
    | some w => rfl
  | microdesc =>
    have hlines : (entryLines .microdesc method rs).r = [rs.nickname.toList,
        digestToBase64 20 rs.identityDigest, formatDay (torGmtime rs.rs.publishedOn.toNat),
        formatClock (torGmtime rs.rs.publishedOn.toNat), torInetNtoa rs.rs.addr.toNat,
        Nat.toDigits 10 rs.rs.orPort.toNat, Nat.toDigits 10 rs.rs.dirPort.toNat] := rfl
    have hdigest : parseMicrodescDigest (entryLines .microdesc method rs).tokens =
        some rs.microdescDigest := by
      have hm' : (entryLines .microdesc method rs).m =
        some (digestToBase64 32 rs.microdescDigest) := rfl
      unfold parseMicrodescDigest
      rw [hm, hm', map_some]
      dsimp only
      rw [getD_cons_zero, hmicrodesc]
    have hflavor : (ConsensusFlavor.microdesc = ConsensusFlavor.ns) = False := eq_false nofun
    rw [hlines]
    simp only [hflavor, getD_cons_zero, getD_cons_succ, if_false, false_and, Nat.reduceSub]
    rw [if_neg hlegal, hidentity, bind_some, hdigest, bind_some, if_pos htime, htext]
    refine Option.bind_congr fun publishedOn _ => ?_
    rw [haddr, bind_some, hport, hport]
    cases weights with
    | none => rfl
    | some w => rfl

/-- What the consensus says about a router can be read from its entry. -/
structure RsOut.Readable (rs : RsOut) : Prop where
  time : TimeReadable rs.rs.publishedOn.toNat
  bandwidth : ∀ b ∈ rs.bandwidthKb, b.toNat < 2 ^ 31
  flags_count : (rs.chosenFlags.filter (· ≠ "")).length ≤ maxArgs
  flags_length : (spacedWords (rs.chosenFlags.map String.toList)).length < maxLineLength
  version : ∀ v ∈ rs.version, v.toList.length + 2 ≤ maxLineLength
  named : ¬ (rs.nickname.toList.map Char.toLower = "unnamed".toList ∧ "Named" ∈ rs.chosenFlags)

def readEntry (shouldApplyGuardfraction : Bool) (flavor : ConsensusFlavor) (consensusMethod : ℕ)
    (rs : RsOut) :
    Option Routerstatus :=
  ((entryLines flavor consensusMethod rs).lines.mapM (lineToken rtrstatusTokenTable)).bind
    (parseEntryTokens shouldApplyGuardfraction consensusMethod flavor)

/-- The lines of an entry fit if it can be read. -/
lemma fits_entryLines_iff : (entryLines flavor method rs).Fits ↔
    (rs.chosenFlags.filter (· ≠ "")).length ≤ maxArgs ∧
      (spacedWords (rs.chosenFlags.map String.toList)).length < maxLineLength ∧
      ∀ v ∈ rs.version, v.toList.length + 2 ≤ maxLineLength := by
  have hcount : ((rs.chosenFlags.map String.toList).filter (· ≠ [])).length =
      (rs.chosenFlags.filter (· ≠ "")).length := by
    rw [List.filter_map, length_map]
    refine congrArg List.length (filter_congr fun f _ => decide_eq_decide.mpr (not_congr ?_))
    exact String.toList_eq_nil_iff
  have hversion : (∀ v ∈ (entryLines flavor method rs).v, v.length + 2 ≤ maxLineLength) ↔
      ∀ v ∈ rs.version, v.toList.length + 2 ≤ maxLineLength := by
    unfold entryLines
    cases rs.version with
    | none => exact iff_of_true nofun nofun
    | some v => simp
  rw [← hcount, ← hversion]
  exact ⟨fun h => ⟨h.count, h.flags, h.version⟩, fun h => ⟨h.1, h.2.1, h.2.2⟩⟩

lemma identityDigest_of_readEntry (h : rs.Written) (hmethod : 2 ≤ method) {e : Routerstatus}
    (he : readEntry fractions flavor method rs = some e) :
    e.identityDigest = rs.identityDigest := by
  unfold readEntry at he
  by_cases hfits : (entryLines flavor method rs).Fits
  · rw [(h.ok flavor method).mapM_lineToken hfits, bind_some,
      parseEntryTokens_entryLines h hmethod] at he
    obtain ⟨publishedOn, -, he⟩ := bind_eq_some_iff.mp he
    obtain ⟨weights, -, rfl⟩ := map_eq_some_iff.mp he
    rfl
  · rw [(h.ok flavor method).mapM_lineToken_none hfits] at he
    cases he

lemma decide_and_not_eq_iff {p q : Prop} [Decidable p] [Decidable q] :
    (decide p && decide ¬ q) = decide p ↔ ¬ (q ∧ p) := by
  by_cases hp : p <;> by_cases hq : q <;> simp [hp, hq]

/-- What is read with the time and the bandwidth of a router is what the consensus says about it,
unless it is called unnamed. -/
lemma agrees_readStatus_iff (h : rs.Written) {publishedOn : ℕ} {weights : EntryWeights}
    (hbandwidth : weights.bandwidthKb = rs.bandwidthKb) :
    (readStatus flavor rs publishedOn weights).Agrees flavor rs ↔
    publishedOn = rs.rs.publishedOn.toNat ∧
      ¬ (rs.nickname.toList.map Char.toLower = "unnamed".toList ∧ "Named" ∈ rs.chosenFlags) := by
  have htime := h.publishedOn_nonneg
  rw [← decide_and_not_eq_iff]
  constructor
  · intro hagrees
    have hpublished : (publishedOn : ℤ) = rs.rs.publishedOn := hagrees.publishedOn
    refine ⟨by omega, ?_⟩
    exact hagrees.flags ("Named", _) (.tail _ (.tail _ (.tail _ (.tail _ (.head _)))))
  · rintro ⟨rfl, hname⟩
    refine ⟨rfl, rfl, ?_, rfl, rfl, rfl, hbandwidth, ?_⟩
    · show ((rs.rs.publishedOn.toNat : ℕ) : ℤ) = rs.rs.publishedOn
      omega
    · unfold Routerstatus.flags readStatus
      simp only [hname, forall_mem_cons, not_mem_nil, false_imp_iff, implies_true, and_true]

/-- **An entry is read as it was written** exactly if it can be read. -/
lemma readEntry_iff (h : rs.Written) (hmethod : 2 ≤ method) (flavor : ConsensusFlavor)
    (fractions : Bool) :
    (∃ e, readEntry fractions flavor method rs = some e ∧ e.Agrees flavor rs) ↔
      rs.Readable := by
  have htime := parseIsoTime_formatIsoTime rs.rs.publishedOn.toNat
  have hweights := parseWeights_entryLines h flavor method fractions
    (decide ("Guard" ∈ rs.chosenFlags))
  unfold readEntry
  by_cases hfits : (entryLines flavor method rs).Fits
  · rw [(h.ok flavor method).mapM_lineToken hfits, bind_some, parseEntryTokens_entryLines h hmethod]
    obtain ⟨hcount, hlength, hversion⟩ := fits_entryLines_iff.mp hfits
    constructor
    · rintro ⟨e, he, hagrees⟩
      obtain ⟨publishedOn, hparse, he⟩ := bind_eq_some_iff.mp he
      obtain ⟨w, hw, rfl⟩ := map_eq_some_iff.mp he
      rcases hweights with ⟨w', hw', hbandwidth, hsmall⟩ | ⟨hnone, -⟩
      · obtain rfl := some.inj (hw.symm.trans hw')
        obtain ⟨rfl, hname⟩ := (agrees_readStatus_iff h hbandwidth).mp hagrees
        exact ⟨htime.mp hparse, hsmall, hcount, hlength, hversion, hname⟩
      · rw [hnone] at hw
        cases hw
    · intro hread
      rcases hweights with ⟨w, hw, hbandwidth, -⟩ | ⟨-, hnot⟩
      · have hagrees : (readStatus flavor rs rs.rs.publishedOn.toNat w).Agrees flavor rs :=
          (agrees_readStatus_iff h hbandwidth).mpr ⟨rfl, hread.named⟩
        refine ⟨_, ?_, hagrees⟩
        rw [htime.mpr hread.time, bind_some, hw, map_some]
      · exact absurd hread.bandwidth hnot
  · rw [(h.ok flavor method).mapM_lineToken_none hfits, bind_none]
    refine iff_of_false ?_ fun hread => hfits (fits_entryLines_iff.mpr ?_)
    · rintro ⟨e, he, -⟩
      cases he
    · exact ⟨hread.flags_count, hread.flags_length, hread.version⟩

lemma length_le_joinLines (lines : List DocText) : lines.length ≤ (joinLines lines).length := by
  induction lines with
  | nil => exact le_rfl
  | cons line lines ih =>
    have hcons : joinLines (line :: lines) = line ++ ['\n'] ++ joinLines lines := rfl
    rw [hcons, length_append, length_append, length_singleton, length_cons]
    omega

/-- **The entry at the start of a text** is read from its lines. -/
lemma routerstatusParseEntry_entryText (h : rs.Written) (hmethod : 2 ≤ method)
    (flavor : ConsensusFlavor) (skipObject : DocText → Option DocText) (fractions : Bool)
    {rest : DocText} (hrest : FollowsEntry rest) :
    routerstatusParseEntryFromString skipObject fractions method flavor
        (entryText flavor method rs ++ rest) =
      (readEntry fractions flavor method rs, rest) := by
  obtain ⟨hlines, htail⟩ := (h.ok flavor method).isTokenLine
  have hcons : ∃ line lines, (entryLines flavor method rs).lines = line :: lines := ⟨_, _, rfl⟩
  obtain ⟨line, lines, hcons⟩ := hcons
  have heos : findStartOfNextRouterstatus (joinLines (entryLines flavor method rs).lines ++ rest) =
      (joinLines (entryLines flavor method rs).lines).length := by
    rw [hcons] at hlines htail ⊢
    refine findStartOfNextRouterstatus_joinLines (hlines line mem_cons_self).newline
      (fun l hl => ?_) hrest
    exact ⟨(hlines l (mem_cons_of_mem line hl)).newline, htail l hl⟩
  have hpasses : (entryLines flavor method rs).lines.length ≤
      (joinLines (entryLines flavor method rs).lines).length := length_le_joinLines _
  have hflavor : (if method = 0 then ConsensusFlavor.ns else flavor) = flavor := if_neg (by omega)
  unfold routerstatusParseEntryFromString tokenizeString
  dsimp only
  rw [entryText_eq, heos, hflavor, take_left, drop_left, tokenizeLoop_joinLines hlines hpasses]
  unfold readEntry
  by_cases hfits : (entryLines flavor method rs).Fits
  · obtain ⟨hunknown, hcounts⟩ := (entryLines flavor method rs).tokens_ok
    rw [(h.ok flavor method).mapM_lineToken hfits]
    simp only [bind_eq_bind, bind_some, hunknown, hcounts, Bool.not_true, Bool.false_eq_true,
      or_self, if_false]
  · rw [(h.ok flavor method).mapM_lineToken_none hfits]
    rfl

end Reading

end Astoria
