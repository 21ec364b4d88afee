import Astoria.TorClient.ConsensusCompute
import Astoria.TorClient.EntryText

/-!
# What clients read of a consensus

Each field of an entry is read from its text, and the lines of an entry are read as their tokens.
-/

namespace Astoria

open List Option

/-! ### The end of an entry -/

section Split

variable {k : Char} {pattern rest : DocText}

/-- A pattern at the start of a line is found where a line starts like it. -/
lemma strIndex_joinLines {line : DocText} {lines : List DocText} (hline : '\n' ∉ line)
    (hlines : ∀ l ∈ lines, '\n' ∉ l ∧ ∃ c ∈ l.head?, c ≠ k) (pattern rest : DocText) :
    strIndex ('\n' :: k :: pattern) (joinLines (line :: lines) ++ rest) =
      if (k :: pattern).isPrefixOf rest then some ((joinLines (line :: lines)).length - 1)
      else (strIndex ('\n' :: k :: pattern) rest).map (· + (joinLines (line :: lines)).length) := by
  induction lines generalizing line with
  | nil =>
    have hjoin : joinLines [line] ++ rest = line ++ '\n' :: rest := by simp [joinLines]
    have hlen : (joinLines [line]).length = line.length + 1 := by simp [joinLines]
    rw [hjoin, strIndex_append hline, strIndex, isPrefixOf_cons_cons, beq_self_eq_true,
      Bool.true_and, hlen]
    split_ifs with hpre
    · simp
    · cases strIndex ('\n' :: k :: pattern) rest with
      | none => rfl
      | some i =>
        simp only [map_some]
        exact congrArg some (by omega)
  | cons l lines ih =>
    obtain ⟨hl, c, hc, hck⟩ := hlines l mem_cons_self
    have hjoin : joinLines (line :: l :: lines) ++ rest =
        line ++ '\n' :: (joinLines (l :: lines) ++ rest) := by simp [joinLines]
    have hlen : (joinLines (line :: l :: lines)).length =
        line.length + 1 + (joinLines (l :: lines)).length := by
      simp only [joinLines, flatMap_cons, length_append, length_singleton]
    have hpos : 0 < (joinLines (l :: lines)).length := by
      simp [joinLines]
    have hpre : (k :: pattern).isPrefixOf (joinLines (l :: lines) ++ rest) = false := by
      cases l with
      | nil => cases hc
      | cons d l =>
        obtain rfl := Option.some.inj hc
        have hcons : joinLines ((d :: l) :: lines) ++ rest =
            d :: (l ++ ['\n'] ++ joinLines lines ++ rest) := by simp [joinLines]
        rw [hcons, isPrefixOf_cons_cons, beq_false_of_ne hck.symm, Bool.false_and]
    have hrec := ih hl fun l' hl' => hlines l' (mem_cons_of_mem l hl')
    rw [hjoin, strIndex_append hline, strIndex, isPrefixOf_cons_cons, beq_self_eq_true,
      Bool.true_and, hpre,
      hrec, hlen, if_neg Bool.false_ne_true]
    by_cases hrest : (k :: pattern).isPrefixOf rest = true
    · rw [if_pos hrest, if_pos hrest, map_some, map_some]
      exact congrArg some (by omega)
    · rw [if_neg hrest, if_neg hrest]
      cases strIndex ('\n' :: k :: pattern) rest with
      | none => rfl
      | some i =>
        simp only [map_some]
        exact congrArg some (by omega)

/-- What can follow an entry: the next entry or the footer. -/
def FollowsEntry (s : DocText) : Prop :=
  (∃ more, s = "r ".toList ++ more) ∨ ∃ more, s = "directory-footer".toList ++ more

/-- **An entry ends** where the next one or the footer starts. -/
lemma findStartOfNextRouterstatus_joinLines {line : DocText} {lines : List DocText}
    (hline : '\n' ∉ line) (hlines : ∀ l ∈ lines, '\n' ∉ l ∧ ∃ c ∈ l.head?, c ≠ 'r' ∧ c ≠ 'd')
    (hrest : FollowsEntry rest) : findStartOfNextRouterstatus (joinLines (line :: lines) ++ rest) =
      (joinLines (line :: lines)).length := by
  have hr : ∀ l ∈ lines, '\n' ∉ l ∧ ∃ c ∈ l.head?, c ≠ 'r' := fun l hl =>
    ⟨(hlines l hl).1, (hlines l hl).2.imp fun c hc => ⟨hc.1, hc.2.1⟩⟩
  have hd : ∀ l ∈ lines, '\n' ∉ l ∧ ∃ c ∈ l.head?, c ≠ 'd' := fun l hl =>
    ⟨(hlines l hl).1, (hlines l hl).2.imp fun c hc => ⟨hc.1, hc.2.2⟩⟩
  have hpos : 0 < (joinLines (line :: lines)).length := by simp [joinLines]
  have hkeywords : "\nr ".toList = '\n' :: 'r' :: [' '] ∧
      "\ndirectory-footer".toList = '\n' :: 'd' :: "irectory-footer".toList ∧
      "\ndirectory-signature".toList = '\n' :: 'd' :: "irectory-signature".toList := by decide
  unfold findStartOfNextRouterstatus
  rw [hkeywords.1, hkeywords.2.1, hkeywords.2.2, strIndex_joinLines hline hr]
  rcases hrest with ⟨more, rfl⟩ | ⟨more, rfl⟩
  · -- the next entry starts here, and there is no footer before it
    have hnext : ('r' :: [' ']).isPrefixOf ("r ".toList ++ more) = true :=
      List.isPrefixOf_iff_prefix.mpr (prefix_append _ _)
    rw [if_pos hnext]
    rw [map_some, getD_some, Nat.sub_add_cancel hpos]
    dsimp only
    rw [take_left]
    have hfooter := strIndex_joinLines hline hd "irectory-footer".toList []
    have hsig := strIndex_joinLines hline hd "irectory-signature".toList []
    rw [append_nil] at hfooter hsig
    rw [hfooter, hsig]
    rfl
  · -- the footer starts here, and whatever starts like a signature is behind it
    have hnot : ('r' :: [' ']).isPrefixOf ("directory-footer".toList ++ more) = false := rfl
    rw [hnot]
    simp only [Bool.false_eq_true, if_false]
    rw [strIndex_append (by decide : '\n' ∉ "directory-footer".toList)]
    have heos : ∃ m, (Option.map (· + 1) (Option.map (· + (joinLines (line :: lines)).length)
        (Option.map (· + "directory-footer".toList.length) (strIndex ['\n', 'r', ' '] more)))).getD
          (joinLines (line :: lines) ++ ("directory-footer".toList ++ more)).length =
        (joinLines (line :: lines)).length + ("directory-footer".toList.length + m) := by
      cases strIndex ['\n', 'r', ' '] more with
      | none => exact ⟨more.length, by simp only [map_none, getD_none, length_append]⟩
      | some i =>
        refine ⟨i + 1, ?_⟩
        simp only [map_some, getD_some]
        generalize "directory-footer".toList.length = d
        omega
    obtain ⟨m, hm⟩ := heos
    rw [hm, take_length_add_append, take_length_add_append, strIndex_joinLines hline hd,
      strIndex_joinLines hline hd]
    have hfooter : ('d' :: "irectory-footer".toList).isPrefixOf
        ("directory-footer".toList ++ more.take m) = true :=
      List.isPrefixOf_iff_prefix.mpr (prefix_append _ _)
    have hsig : ('d' :: "irectory-signature".toList).isPrefixOf
        ("directory-footer".toList ++ more.take m) = false := rfl
    rw [hfooter, hsig]
    cases strIndex ('\n' :: 'd' :: "irectory-signature".toList)
        ("directory-footer".toList ++ more.take m) with
    | none =>
      dsimp only [map_none]
      rw [if_pos rfl, if_neg Bool.false_ne_true]
      exact Nat.sub_add_cancel hpos
    | some j =>
      dsimp only [map_some]
      rw [if_pos rfl, if_neg Bool.false_ne_true]
      dsimp only
      omega

end Split

/-! ### Words of an entry -/

section Words

lemma IsWord.nil : IsWord [] := nofun

lemma IsWord.append {s t : DocText} (hs : IsWord s) (ht : IsWord t) : IsWord (s ++ t) := by
  intro c hc
  rcases mem_append.mp hc with hc | hc
  · exact hs c hc
  · exact ht c hc

lemma IsWord.cons {c : Char} {s : DocText} (hc : endsWord c = false) (hs : IsWord s) :
    IsWord (c :: s) := by
  intro d hd
  rcases mem_cons.mp hd with rfl | hd
  · exact hc
  · exact hs d hd

lemma endsWord_of_isAlphanum {c : Char} (h : c.isAlphanum = true) : endsWord c = false := by
  unfold endsWord
  simp only [Bool.or_eq_false_iff, decide_eq_false_iff_not]
  refine ⟨⟨⟨⟨?_, ?_⟩, ?_⟩, ?_⟩, ?_⟩ <;>
  · rintro rfl
    revert h
    decide

lemma isWord_toDigits {b : ℕ} (hb : 1 < b) (hb' : b ≤ 16) (n : ℕ) : IsWord (Nat.toDigits b n) := by
  have hdigit : ∀ d < 16, endsWord (Nat.digitChar d) = false := by decide
  induction n using Nat.strong_induction_on with
  | _ n ih =>
    rw [Nat.toDigits_eq_if hb]
    split_ifs with hlt
    · exact IsWord.cons (hdigit n (by omega)) nofun
    · have hmod := Nat.mod_lt n (by omega : 0 < b)
      exact (ih _ (Nat.div_lt_self (by omega) hb)).append (IsWord.cons (hdigit _ (by omega)) nofun)

lemma isWord_twoDigits {n : ℕ} (h : n < 100) : IsWord (twoDigits n) := fun c hc =>
  endsWord_of_isAlphanum (by simp [Char.isAlphanum, (twoDigits_spec h).2.1 c hc])

lemma isWord_digestToBase64 (digestLen : ℕ) (d : Digest) : IsWord (digestToBase64 digestLen d) := by
  intro c hc
  rw [digestToBase64_eq] at hc
  obtain ⟨v, hv, rfl⟩ := mem_base64Digits (fun b => lt_of_mem_digestBytes) hc
  have hall : ∀ v < 64, endsWord (base64Char v) = false := by decide
  exact hall v hv

lemma isWord_torInetNtoa (addr : ℕ) : IsWord (torInetNtoa addr) := by
  have hten : ∀ n, IsWord (Nat.toDigits 10 n) := isWord_toDigits (by decide) (by decide)
  have hdot : ∀ n, IsWord ('.' :: Nat.toDigits 10 n) := fun n => IsWord.cons rfl (hten n)
  exact (((hten _).append (hdot _)).append (hdot _)).append (hdot _)

lemma isWord_printWords (gapPos : Option ℕ) (skipping : Bool) (i : ℕ) (words : List ℕ) :
    IsWord (printWords gapPos skipping i words) := by
  induction words generalizing skipping i with
  | nil => nofun
  | cons w words ih =>
    rw [printWords]
    split_ifs
    · exact ih true (i + 1)
    · exact IsWord.cons rfl (IsWord.cons rfl (ih true (i + 1)))
    · exact IsWord.cons rfl (ih true (i + 1))
    · exact ((isWord_toDigits (by decide) le_rfl w).append IsWord.nil).append (ih false (i + 1))
    · exact ((isWord_toDigits (by decide) le_rfl w).append (IsWord.cons rfl IsWord.nil)).append
        (ih false (i + 1))

/-- The text of an IPv6 address with a port is a word. -/
lemma isWord_fmtAddrport (addr : BitVec 128) (port : UInt16) : IsWord (fmtAddrport addr port) := by
  have hport : IsWord (']' :: ':' :: Nat.toDigits 10 port.toNat) :=
    IsWord.cons rfl (IsWord.cons rfl (isWord_toDigits (by decide) (by decide) _))
  refine IsWord.append (IsWord.cons rfl ?_) hport
  unfold torInetNtop
  dsimp only
  split_ifs
  · exact IsWord.cons rfl (IsWord.cons rfl (isWord_torInetNtoa _))
  · exact IsWord.append (IsWord.cons rfl (IsWord.cons rfl (isWord_toDigits (by decide) le_rfl _)))
      (IsWord.cons rfl (isWord_torInetNtoa _))
  · exact isWord_printWords _ _ _ _

lemma torGmtime_spec (t : ℕ) : (torGmtime t).year ≤ 9999 ∧ (torGmtime t).mon ≤ 11 ∧
    (torGmtime t).mday ≤ 31 ∧ (torGmtime t).hour ≤ 23 ∧ (torGmtime t).min ≤ 59 ∧
    (torGmtime t).sec ≤ 59 := by
  obtain ⟨-, hmon, -⟩ := gmtime_spec t
  obtain ⟨hhour, hmin, hsec, -⟩ := gmtime_day t
  unfold torGmtime
  split_ifs with hyear
  · decide
  · exact ⟨by omega, by omega, gmtime_mday t, hhour, hmin, hsec⟩

lemma isWord_formatTm {tm : Tm} (hmon : tm.mon ≤ 11) (hmday : tm.mday ≤ 31) (hhour : tm.hour ≤ 23)
    (hmin : tm.min ≤ 59) (hsec : tm.sec ≤ 59) :
    IsWord (formatDay tm) ∧ IsWord (formatClock tm) := by
  have htwo : ∀ (c : Char) (n : ℕ), endsWord c = false → n < 100 → IsWord (c :: twoDigits n) :=
    fun c n hc hn => IsWord.cons hc (isWord_twoDigits hn)
  refine ⟨?_, ?_⟩
  · exact ((isWord_toDigits (by decide) (by decide) _).append (htwo _ _ rfl (by omega))).append
      (htwo _ _ rfl (by omega))
  · exact ((isWord_twoDigits (by omega)).append (htwo _ _ rfl (by omega))).append
      (htwo _ _ rfl (by omega))

end Words

/-! ### Fields of an entry -/

section Fields

lemma scanUnsigned_toDigits {width n : ℕ} {s : DocText} (hwidth : 0 < width) (hn : n < 10 ^ width)
    (hval : n < 2 ^ 32) (hs : ∀ c ∈ s.head?, c.isDigit = false) :
    scanUnsigned width (Nat.toDigits 10 n ++ s) = some (n, s) := by
  have hvalue := digitsValue_toDigits n
  rw [scanUnsigned_append Nat.toDigits_ne_nil (fun c hc => isDigit_of_mem_toDigits hc)
    (Nat.toDigits_length 10 n width hwidth hn) (.inr hs) (by omega), hvalue]

/-- **An address is read from its text.** -/
lemma torInetAton_torInetNtoa (addr : UInt32) :
    torInetAton (torInetNtoa addr.toNat) = some addr := by
  have hscan : ∀ (m : ℕ) (s : DocText), (∀ c ∈ s.head?, c.isDigit = false) →
      scanUnsigned 3 (Nat.toDigits 10 (m % 256) ++ s) = some (m % 256, s) := fun m s hs =>
    scanUnsigned_toDigits (by decide) (by omega) (by omega) hs
  have hdot : ∀ s : DocText, ∀ c ∈ ('.' :: s).head?, c.isDigit = false := by
    rintro s c hc
    obtain rfl := Option.some.inj hc
    rfl
  have hlast := hscan addr.toNat [] nofun
  rw [append_nil] at hlast
  have hlt := addr.toNat_lt
  have hbytes : addr.toNat / 2 ^ 24 % 256 * 2 ^ 24 + addr.toNat / 2 ^ 16 % 256 * 2 ^ 16 +
      addr.toNat / 2 ^ 8 % 256 * 2 ^ 8 + addr.toNat % 256 = addr.toNat := by omega
  unfold torInetAton torInetNtoa
  simp only [append_assoc, cons_append, hscan _ _ (hdot _), hlast, bind_eq_bind,
    bind_some, scanChar, if_true]
  rw [if_neg (by simp; omega), hbytes, UInt32.ofNat_toNat]

lemma any_toDigits (n : ℕ) : ((Nat.toDigits 10 n).any fun c => !c.isDigit) = false := by
  rw [List.any_eq_false]
  intro c hc
  rw [isDigit_of_mem_toDigits hc]
  exact Bool.false_ne_true

/-- A number is read from its digits by `tor_parse_long`. -/
lemma torParseLong_toDigits {n : ℕ} {min max : ℤ} (hmin : min ≤ n) (hmax : (n : ℤ) ≤ max) :
    torParseLong (Nat.toDigits 10 n) min max = some (n : ℤ) := by
  have hdigits : ∀ c ∈ Nat.toDigits 10 n, c.isDigit = true := fun c hc => isDigit_of_mem_toDigits hc
  unfold torParseLong
  rw [dropWhile_isWhite_of_isDigit hdigits, splitSign_of_isDigit hdigits]
  dsimp only
  rw [any_toDigits, if_neg (by simp [Nat.toDigits_ne_nil]), if_neg Bool.false_ne_true,
    digitsValue_toDigits,
    if_neg (by omega)]

/-- A number is read from its digits by `tor_parse_ulong`. -/
lemma torParseUlong_toDigits {n min max : ℕ} (hmin : min ≤ n) (hmax : n ≤ max)
    (hmax' : max < 2 ^ 64) : torParseUlong (Nat.toDigits 10 n) min max = some n := by
  have hdigits : ∀ c ∈ Nat.toDigits 10 n, c.isDigit = true := fun c hc => isDigit_of_mem_toDigits hc
  unfold torParseUlong
  rw [dropWhile_isWhite_of_isDigit hdigits, splitSign_of_isDigit hdigits]
  dsimp only
  rw [any_toDigits, digitsValue_toDigits, if_neg (by simp [Nat.toDigits_ne_nil]), if_neg (by omega),
    if_neg Bool.false_ne_true, if_neg (by omega)]

/-- **A bandwidth is read from its text** if it has a sign bit of zero, and else it is not read at
all. -/
lemma torParseUlong_bandwidth (bandwidthKb : UInt32) :
    torParseUlong (intText (castInt32 bandwidthKb.toNat)) 0 (2 ^ 32 - 1) =
      if bandwidthKb.toNat < 2 ^ 31 then some bandwidthKb.toNat else none := by
  have hlt := bandwidthKb.toNat_lt
  by_cases hsmall : bandwidthKb.toNat < 2 ^ 31
  · have hcast : castInt32 bandwidthKb.toNat = bandwidthKb.toNat := by
      unfold castInt32
      exact Int.bmod_eq_of_le (by omega) (by omega)
    rw [if_pos hsmall, hcast, intText_natCast]
    exact torParseUlong_toDigits (Nat.zero_le _) (by omega) (by decide)
  · have hcast : castInt32 bandwidthKb.toNat = (bandwidthKb.toNat : ℤ) - 2 ^ 32 := by
      unfold castInt32
      rw [Int.bmod_def]
      split_ifs <;> omega
    have hneg : castInt32 bandwidthKb.toNat < 0 := by omega
    have habs : (castInt32 bandwidthKb.toNat).natAbs = 2 ^ 32 - bandwidthKb.toNat := by omega
    rw [if_neg hsmall, intText, if_pos hneg]
    unfold torParseUlong
    rw [dropWhile_cons_of_neg (by decide), splitSign]
    dsimp only
    rw [any_toDigits, digitsValue_toDigits, if_neg (by simp [Nat.toDigits_ne_nil]),
      if_neg (by omega), if_pos rfl,
      if_pos (by omega)]

end Fields

end Astoria
