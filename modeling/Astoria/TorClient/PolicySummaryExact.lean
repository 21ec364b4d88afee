import Astoria.TorClient.EntryRoundTrip
import Astoria.TorClient.PolicySummaryPorts

/-!
# What a summary accepts

The summary of a policy is the text of the longest ranges of accepted ports, or of the rejected
ones, and what is read from it are these ranges, or the first of them if there is no room for all.

For IPv4 the summary is exact.  For IPv6 it is not, since the number of addresses with a prefix is
computed with a shift that is right for IPv4 only (`policySummarize_exact`).
-/

namespace Astoria

open List Option
open Tiling

/-! ### The ranges -/

/-- **The ranges of a summary** are the longest ones with the same answer. -/
lemma summaryRanges_eq_runsFrom {item : PolicySummaryItem} {items : List PolicySummaryItem}
    {start p stop : ℕ} {f : ℕ → ℕ × Bool} (h : ShowsPorts p (item :: items) (stop + 1) f) :
    summaryRanges start (item :: items) = runsFrom (fun q => (f q).2) start (stop - p) p := by
  induction items generalizing item start p with
  | nil =>
    obtain ⟨hmin, hle, hitem, hrest⟩ := showsPorts_cons.mp h
    have hstop : item.prtMax + 1 = stop + 1 := hrest.1
    have hsame : ∀ q, p ≤ q → q ≤ p + (stop - p) → (f q).2 = (f p).2 := by
      intro q hq hq'
      rw [hitem q (by omega) (by omega), hitem p (by omega) (by omega)]
    have hlast : p + (stop - p) = item.prtMax := by omega
    have hvalue : (f item.prtMax).2 = item.accepted := by
      rw [hitem item.prtMax hle le_rfl]
      rfl
    rw [← zero_add (stop - p), runsFrom_add hsame, hlast, runsFrom, hvalue]
    rfl
  | cons next items ih =>
    obtain ⟨hmin, hle, hitem, hrest⟩ := showsPorts_cons.mp h
    obtain ⟨hnextMin, hnextLe, hnext, -⟩ := showsPorts_cons.mp hrest
    have hstop := hrest.1.mem mem_cons_self
    have hsame : ∀ q, p ≤ q → q ≤ p + (item.prtMax - p) → (f q).2 = (f p).2 := by
      intro q hq hq'
      rw [hitem q (by omega) (by omega), hitem p (by omega) (by omega)]
    have hlen : stop - p = stop - (item.prtMax + 1) + 1 + (item.prtMax - p) := by omega
    have hlast : p + (item.prtMax - p) = item.prtMax := by omega
    have hvalue : (f item.prtMax).2 = item.accepted := by
      rw [hitem item.prtMax hle le_rfl]
      rfl
    have hnextValue : (f (item.prtMax + 1)).2 = next.accepted := by
      rw [hnext (item.prtMax + 1) hnextMin.le (by omega)]
      rfl
    rw [hlen, runsFrom_add hsame, hlast, runsFrom, hvalue, hnextValue, summaryRanges]
    split_ifs
    · rw [ih hrest, hnextMin]
    · rw [ih hrest]

/-! ### Texts of ranges -/

def IsPortRange (r : ℕ × ℕ) : Prop := 1 ≤ r.1 ∧ r.1 ≤ r.2 ∧ r.2 ≤ 65535

section Texts

variable {r : ℕ × ℕ} {ranges : List (ℕ × ℕ)}

/-- The text of a range is short, starts with a digit and has no comma. -/
lemma rangeText_spec (h : IsPortRange r) : (∃ c ∈ (rangeText r).head?, c.isDigit = true) ∧
    (rangeText r).length ≤ 11 ∧ ',' ∉ rangeText r := by
  obtain ⟨hlow, hle, hhigh⟩ := h
  have hlen : ∀ n, n ≤ 65535 → (Nat.toDigits 10 n).length ≤ 5 := fun n hn =>
    Nat.toDigits_length 10 n 5 (by decide) (by omega)
  have hhead : ∀ (n : ℕ) (s : DocText), ∃ c ∈ (Nat.toDigits 10 n ++ s).head?, c.isDigit = true := by
    intro n s
    cases hdigits : Nat.toDigits 10 n with
    | nil => exact absurd hdigits Nat.toDigits_ne_nil
    | cons c digits =>
      exact ⟨c, rfl, isDigit_of_mem_toDigits (hdigits ▸ mem_cons_self)⟩
  have hcomma : ∀ n, ',' ∉ Nat.toDigits 10 n := fun n hmem =>
    absurd (isDigit_of_mem_toDigits hmem) (by decide)
  have h₁ := hlen r.1 (by omega)
  have h₂ := hlen r.2 hhigh
  unfold rangeText
  split_ifs
  · have hhead' := hhead r.1 []
    rw [append_nil] at hhead'
    exact ⟨hhead', by omega, hcomma r.1⟩
  · refine ⟨hhead r.1 _, ?_, fun hmem => ?_⟩
    · rw [length_append, length_cons]
      omega
    · rcases mem_append.mp hmem with hmem | hmem
      · exact hcomma _ hmem
      · rcases mem_cons.mp hmem with hmem | hmem
        · exact absurd hmem (by decide)
        · exact hcomma _ hmem

/-- **A range is read from its text.** -/
lemma parseShortEntry_rangeText (h : IsPortRange r) : parseShortEntry (rangeText r) = some r := by
  obtain ⟨hlow, hle, hhigh⟩ := h
  have hscan : ∀ (n : ℕ) (s : DocText), n ≤ 65535 → (∀ c ∈ s.head?, c.isDigit = false) →
      scanUnsigned maxScanfWidth (Nat.toDigits 10 n ++ s) = some (n, s) := by
    intro n s hn hs
    have hlen := Nat.toDigits_length 10 n 5 (by decide) (by omega)
    rw [scanUnsigned_append Nat.toDigits_ne_nil (fun c hc => isDigit_of_mem_toDigits hc)
      (hlen.trans (by decide)) (.inr hs) (by rw [digitsValue_toDigits]; omega),
      digitsValue_toDigits]
  have hend : ∀ n, n ≤ 65535 → scanUnsigned maxScanfWidth (Nat.toDigits 10 n) = some (n, []) := by
    intro n hn
    have hscan' := hscan n [] hn nofun
    rwa [append_nil] at hscan'
  unfold parseShortEntry rangeText
  split_ifs with heq
  · rw [hend r.1 (by omega)]
    simp only [bind_eq_bind, bind_some]
    rw [if_pos ⟨hlow, by omega, hlow, by omega, le_rfl⟩]
    exact congrArg some (Prod.ext rfl heq)
  · rw [hscan r.1 _ (by omega) (by rintro c hc; obtain rfl := some.inj hc; rfl)]
    simp only [bind_eq_bind, bind_some]
    rw [hend r.2 hhigh]
    dsimp only [bind_some]
    rw [if_pos ⟨hlow, by omega, by omega, hhigh, hle⟩]

lemma intercalate_cons_cons (a b : DocText) (l : List DocText) :
    [','].intercalate (a :: b :: l) = a ++ ',' :: [','].intercalate (b :: l) := by
  rw [List.intercalate_cons_cons]
  simp

/-- Ranges are short, even with their commas. -/
lemma two_mul_length_le (h : ∀ r ∈ ranges, IsPortRange r) :
    2 * ranges.length ≤ ([','].intercalate (ranges.map rangeText)).length + 1 := by
  have hpos : ∀ r, IsPortRange r → 1 ≤ (rangeText r).length := by
    intro r hr
    obtain ⟨c, hc, -⟩ := (rangeText_spec hr).1
    cases htext : rangeText r with
    | nil =>
      rw [htext] at hc
      cases hc
    | cons c s => exact Nat.le_add_left 1 _
  induction ranges with
  | nil => decide
  | cons r ranges ih =>
    have hr := hpos r (h r mem_cons_self)
    cases ranges with
    | nil =>
      simp only [map_cons, map_nil, intercalate_singleton, length_singleton]
      omega
    | cons r' ranges =>
      have hrec := ih fun r hr => h r (mem_cons_of_mem _ hr)
      have hcomma : [','].intercalate ((r :: r' :: ranges).map rangeText) =
          rangeText r ++ ',' :: [','].intercalate ((r' :: ranges).map rangeText) :=
            intercalate_cons_cons _ _ _
      rw [hcomma]
      simp only [length_append, length_cons] at hrec ⊢
      omega

/-- One range is read, and then those after the comma. -/
lemma parseShortEntries_cons (h : IsPortRange r) {n nEntries : ℕ}
    (hmax : nEntries < maxExitpolicySummaryLen) {tail : DocText}
    (htail : ∀ c ∈ tail.head?, c = ',') : parseShortEntries (n + 1) nEntries (rangeText r ++ tail) =
      (parseShortEntries n (nEntries + 1) (tail.drop 1)).map (r :: ·) := by
  obtain ⟨⟨c, hc, hdigit⟩, hlen, hcomma⟩ := rangeText_spec h
  have hentry := parseShortEntry_rangeText h
  have hno : ∀ d ∈ rangeText r, decide (d ≠ ',') = true := fun d hd =>
    decide_eq_true fun heq => hcomma (heq ▸ hd)
  have hstop : tail.takeWhile (fun d => decide (d ≠ ',')) = [] ∧
      tail.dropWhile (fun d => decide (d ≠ ',')) = tail := by
    cases tail with
    | nil => exact ⟨rfl, rfl⟩
    | cons d tail =>
      obtain rfl : d = ',' := htail d rfl
      exact ⟨rfl, rfl⟩
  have htake : (rangeText r ++ tail).takeWhile (fun d => decide (d ≠ ',')) = rangeText r := by
    rw [takeWhile_append_of_pos hno, hstop.1, append_nil]
  have hdrop : (rangeText r ++ tail).dropWhile (fun d => decide (d ≠ ',')) = tail := by
    rw [dropWhile_append_of_pos hno, hstop.2]
  cases htext : rangeText r with
  | nil =>
    rw [htext] at hc
    cases hc
  | cons d s =>
    rw [htext] at hc htake hdrop hentry hlen
    obtain rfl := some.inj hc
    rw [cons_append] at htake hdrop ⊢
    have hshort : ¬ (d.isDigit = false ∨ 31 < (d :: s).length) := by
      rw [hdigit]
      rintro (hnot | hlong)
      · cases hnot
      · omega
    rw [parseShortEntries, htake, hdrop, if_neg (by omega), if_neg hshort, hentry]

/-- **Ranges are read from their texts**, as long as there are not too many. -/
lemma parseShortEntries_ranges (h : ∀ r ∈ ranges, IsPortRange r) {n nEntries : ℕ}
    (hn : ([','].intercalate (ranges.map rangeText)).length ≤ n)
    (hmax : nEntries + ranges.length ≤ maxExitpolicySummaryLen) :
    parseShortEntries n nEntries ([','].intercalate (ranges.map rangeText)) = some ranges := by
  induction ranges generalizing n nEntries with
  | nil => cases n <;> rfl
  | cons r ranges ih =>
    have hr := h r mem_cons_self
    have hrest : ∀ r ∈ ranges, IsPortRange r := fun r hr => h r (mem_cons_of_mem _ hr)
    have hpos := two_mul_length_le h
    rw [length_cons] at hmax hpos
    cases n with
    | zero => omega
    | succ n =>
      cases ranges with
      | nil =>
        have hone : [','].intercalate ([r].map rangeText) = rangeText r ++ [] := by simp
        rw [hone, parseShortEntries_cons hr (by omega) fun c hc => by cases hc]
        cases n <;> rfl
      | cons r' ranges =>
        have hcomma : [','].intercalate ((r :: r' :: ranges).map rangeText) =
            rangeText r ++ ',' :: [','].intercalate ((r' :: ranges).map rangeText) :=
              intercalate_cons_cons _ _ _
        rw [hcomma, length_append, length_cons] at hn
        rw [hcomma, parseShortEntries_cons hr (by omega) (by rintro c hc; exact (some.inj hc).symm)]
        rw [drop_succ_cons, drop_zero, ih hrest (by omega) (by omega)]
        rfl

/-- **The policy is read from its ranges.** -/
lemma parseShortPolicy_ranges (h : ∀ r ∈ ranges, IsPortRange r) (hne : ranges ≠ [])
    (hlen : ([','].intercalate (ranges.map rangeText)).length ≤ maxRangesLen) (isAccept : Bool) :
    parseShortPolicy ((if isAccept then "accept ".toList else "reject ".toList) ++
      [','].intercalate (ranges.map rangeText)) = some ⟨isAccept, ranges⟩ := by
  have htwo := two_mul_length_le h
  have hmax : maxRangesLen = 993 ∧ maxExitpolicySummaryLen = 1000 := by decide
  have hkeyword : (if isAccept then "accept ".toList else "reject ".toList).length = 7 := by
    cases isAccept <;> rfl
  have hparse : ∀ n, ([','].intercalate (ranges.map rangeText)).length ≤ n →
      parseShortEntries n 0 ([','].intercalate (ranges.map rangeText)) = some ranges := fun n hn =>
    parseShortEntries_ranges h hn (by omega)
  unfold parseShortPolicy
  dsimp only
  rw [take_left' hkeyword, drop_left' hkeyword, hparse _ (by rw [length_append]; omega)]
  have hor : (if isAccept then "accept ".toList else "reject ".toList) = "accept ".toList ∨
      (if isAccept then "accept ".toList else "reject ".toList) = "reject ".toList := by
    cases isAccept
    · exact .inr rfl
    · exact .inl rfl
  rw [if_pos hor]
  cases ranges with
  | nil => exact absurd rfl hne
  | cons r ranges => cases isAccept <;> rfl

end Texts

/-! ### Cutting -/

/-- The first ranges that there is room for, with a comma between any two of them. -/
def fittingRanges : ℕ → List (ℕ × ℕ) → List (ℕ × ℕ)
  | _, [] => []
  | room, r :: rest =>
    if (rangeText r).length ≤ room then r :: fittingRanges (room - (rangeText r).length - 1) rest
      else []

section Cutting

variable {ranges : List (ℕ × ℕ)} {room : ℕ}

lemma beforeLastComma_none {s : DocText} (h : ',' ∉ s) : beforeLastComma s = none := by
  have hall : s.reverse.dropWhile (· ≠ ',') = [] := dropWhile_eq_nil_iff.mpr fun c hc =>
    decide_eq_true fun heq => h (heq ▸ mem_reverse.mp hc)
  unfold beforeLastComma
  rw [hall]

/-- The last comma is in the text after a comma, or it is this one. -/
lemma beforeLastComma_append (a b : DocText) : beforeLastComma (a ++ ',' :: b) =
    some (match beforeLastComma b with
      | some kept => a ++ ',' :: kept
      | none => a) := by
  have hreverse : (a ++ ',' :: b).reverse = b.reverse ++ ',' :: a.reverse := by simp
  unfold beforeLastComma
  rw [hreverse, dropWhile_append]
  cases hb : b.reverse.dropWhile (· ≠ ',') with
  | nil =>
    rw [isEmpty_nil, if_pos rfl, dropWhile_cons_of_neg (by simp)]
    dsimp only
    rw [reverse_reverse]
  | cons c kept =>
    rw [isEmpty_cons, if_neg Bool.false_ne_true, cons_append]
    dsimp only
    rw [reverse_append, reverse_cons, reverse_reverse, append_assoc]
    rfl

lemma fittingRanges_zero (h : ∀ r ∈ ranges, IsPortRange r) : fittingRanges 0 ranges = [] := by
  cases ranges with
  | nil => rfl
  | cons r ranges =>
    have hsingle : ∀ r' ∈ [r], IsPortRange r' := fun r' hr' =>
      h r' (mem_cons.mpr (.inl (mem_singleton.mp hr')))
    have htwo := two_mul_length_le hsingle
    simp only [map_cons, map_nil, intercalate_singleton, length_singleton] at htwo
    rw [fittingRanges, if_neg (by omega)]

lemma mem_of_mem_fittingRanges {r : ℕ × ℕ} (h : r ∈ fittingRanges room ranges) : r ∈ ranges := by
  induction ranges generalizing room with
  | nil => cases h
  | cons r' ranges ih =>
    rw [fittingRanges] at h
    split_ifs at h
    · rcases mem_cons.mp h with rfl | h
      · exact mem_cons_self
      · exact mem_cons_of_mem _ (ih h)
    · cases h

lemma intercalate_ranges_cons (r : ℕ × ℕ) (ranges : List (ℕ × ℕ)) :
    [','].intercalate ((r :: ranges).map rangeText) = if ranges = [] then rangeText r
      else rangeText r ++ ',' :: [','].intercalate (ranges.map rangeText) := by
  cases ranges with
  | nil => simp
  | cons r' ranges =>
    rw [if_neg (cons_ne_nil _ _)]
    exact intercalate_cons_cons _ _ _

lemma length_fittingRanges_le (h : ∀ r ∈ ranges, IsPortRange r) :
    ([','].intercalate ((fittingRanges room ranges).map rangeText)).length ≤ room := by
  induction ranges generalizing room with
  | nil => exact Nat.zero_le _
  | cons r ranges ih =>
    have hrest : ∀ r ∈ ranges, IsPortRange r := fun r hr => h r (mem_cons_of_mem _ hr)
    have hrec := @ih (room - (rangeText r).length - 1) hrest
    rw [fittingRanges]
    split_ifs with hfits
    · rw [intercalate_ranges_cons]
      split_ifs with hnil
      · exact hfits
      · have hfitting : ∀ r' ∈ fittingRanges (room - (rangeText r).length - 1) ranges,
            IsPortRange r' :=
          fun r' hr' => hrest r' (mem_of_mem_fittingRanges hr')
        have htwo := two_mul_length_le hfitting
        have hpos := length_pos_iff.mpr hnil
        rw [length_append, length_cons]
        omega
    · exact Nat.zero_le _

/-- **The text is cut** after the ranges that there is room for. -/
lemma beforeLastComma_take (h : ∀ r ∈ ranges, IsPortRange r)
    (hlong : room < ([','].intercalate (ranges.map rangeText)).length) :
    beforeLastComma (([','].intercalate (ranges.map rangeText)).take (room + 1)) =
      if fittingRanges room ranges = [] then none
      else some ([','].intercalate ((fittingRanges room ranges).map rangeText)) := by
  induction ranges generalizing room with
  | nil => exact absurd hlong (Nat.not_lt_zero _)
  | cons r ranges ih =>
    have hrest : ∀ r ∈ ranges, IsPortRange r := fun r hr => h r (mem_cons_of_mem _ hr)
    obtain ⟨-, -, hcomma⟩ := rangeText_spec (h r mem_cons_self)
    have hnone : ∀ n, beforeLastComma ((rangeText r).take n) = none := fun n =>
      beforeLastComma_none fun hmem => hcomma (mem_of_mem_take hmem)
    rw [fittingRanges]
    by_cases hfits : (rangeText r).length ≤ room
    · rw [if_pos hfits, if_neg (cons_ne_nil _ _), intercalate_ranges_cons, intercalate_ranges_cons]
      rw [intercalate_ranges_cons] at hlong
      split_ifs at hlong with hnil
      · omega
      · rw [length_append, length_cons] at hlong
        have htake : (rangeText r ++ ',' :: [','].intercalate (ranges.map rangeText)).take
            (room + 1) = rangeText r ++ ',' :: ([','].intercalate (ranges.map rangeText)).take
              (room - (rangeText r).length) := by
          have hsub : room + 1 - (rangeText r).length = room - (rangeText r).length + 1 := by omega
          rw [take_append, take_of_length_le (by omega), hsub, take_succ_cons]
        rw [if_neg hnil, htake, beforeLastComma_append]
        cases hroom : room - (rangeText r).length with
        | zero =>
          have hempty : fittingRanges (0 - 1) ranges = [] := fittingRanges_zero hrest
          rw [hempty, if_pos rfl]
          rfl
        | succ k =>
          rw [Nat.add_sub_cancel, ih hrest (by omega)]
          split_ifs <;> rfl
    · rw [if_neg hfits, if_pos rfl, intercalate_ranges_cons]
      split_ifs
      · exact hnone _
      · rw [take_append_of_le_length (by omega)]
        exact hnone _

end Cutting

/-! ### What is listed -/

def rangesWith (answer : Bool) (ranges : List (Bool × ℕ × ℕ)) : List (ℕ × ℕ) :=
  (ranges.filter fun r => r.1 = answer).map (·.2)

/-- The longest ranges of ports with the same answer. -/
def portRuns (P : ℕ → Bool) : List (Bool × ℕ × ℕ) := runsFrom P 1 65534 1

/-- A port is accepted by the text of the answers: there is room for its range if not all of them
fit. -/
def ListedPort (P : ℕ → Bool) (port : ℕ) : Prop :=
  if summaryTooLong (rangeTexts true (portRuns P)) (rangeTexts false (portRuns P)) then
    ∃ r ∈ fittingRanges maxRangesLen (rangesWith true (portRuns P)), r.1 ≤ port ∧ port ≤ r.2
  else P port = true

section Listed

variable {P : ℕ → Bool} {port : ℕ}

lemma isPortRange_rangesWith (P : ℕ → Bool) (answer : Bool) :
    ∀ r ∈ rangesWith answer (portRuns P), IsPortRange r := by
  intro r hr
  obtain ⟨run, hrun, rfl⟩ := List.mem_map.mp hr
  obtain ⟨hlow, hle, hhigh⟩ := le_of_mem_runsFrom le_rfl (mem_of_mem_filter hrun)
  exact ⟨hlow, hle, hhigh⟩

/-- The ranges with an answer cover the ports that have it. -/
lemma exists_rangesWith (answer : Bool) (hport : 1 ≤ port) (hport' : port ≤ 65535) :
    (∃ r ∈ rangesWith answer (portRuns P), r.1 ≤ port ∧ port ≤ r.2) ↔ P port = answer := by
  have hself : ∀ q, 1 ≤ q → q ≤ 1 → P q = P 1 := fun q hq hq' => by rw [le_antisymm hq' hq]
  have hruns :=
    exists_mem_runsFrom (P := P) (n := 65534) (b := answer) le_rfl hself hport (by omega)
  rw [← hruns]
  unfold rangesWith portRuns
  constructor
  · rintro ⟨r, hr, hin⟩
    obtain ⟨run, hrun, rfl⟩ := List.mem_map.mp hr
    rw [mem_filter, decide_eq_true_eq] at hrun
    exact ⟨run, hrun.1, hrun.2, hin⟩
  · rintro ⟨run, hrun, hanswer, hin⟩
    exact ⟨run.2, List.mem_map_of_mem (mem_filter.mpr ⟨hrun, decide_eq_true hanswer⟩), hin⟩

lemma ListedPort.accepted (h : ListedPort P port) (hport : 1 ≤ port) (hport' : port ≤ 65535) :
    P port = true := by
  unfold ListedPort at h
  split_ifs at h
  · obtain ⟨r, hr, hin⟩ := h
    exact (exists_rangesWith true hport hport').mp ⟨r, mem_of_mem_fittingRanges hr, hin⟩
  · exact h

lemma ShortPolicy.accepts_iff {isAccept : Bool} {ranges : List (ℕ × ℕ)} :
    (ShortPolicy.mk isAccept ranges).accepts port = true ↔
      ((∃ r ∈ ranges, r.1 ≤ port ∧ port ≤ r.2) ↔ isAccept = true) := by
  have hany : (ranges.any fun e => e.1 ≤ port && port ≤ e.2) = true ↔
      ∃ r ∈ ranges, r.1 ≤ port ∧ port ≤ r.2 := by
    simp only [List.any_eq_true, Bool.and_eq_true, decide_eq_true_eq]
  unfold ShortPolicy.accepts
  rw [← hany]
  cases (ranges.any fun e => e.1 ≤ port && port ≤ e.2) <;> cases isAccept <;> simp

/-- **The text of a summary** lists the ports. -/
lemma exists_summaryText (P : ℕ → Bool) : ∃ text short, summaryText (portRuns P) = some text ∧
    parseShortPolicy text = some short ∧
      ∀ port, 1 ≤ port → port ≤ 65535 → (short.accepts port = true ↔ ListedPort P port) := by
  have htexts : ∀ answer, rangeTexts answer (portRuns P) =
      (rangesWith answer (portRuns P)).map rangeText :=
    fun answer => by
      unfold rangeTexts rangesWith
      rw [List.map_map]
      rfl
  have hone : ∀ r ∈ [(1, 65535)], IsPortRange r := by
    intro r hr
    rw [mem_singleton.mp hr]
    exact ⟨le_rfl, by decide, le_rfl⟩
  have hall : ∀ (isAccept : Bool) (port : ℕ), 1 ≤ port → port ≤ 65535 →
      ((ShortPolicy.mk isAccept [(1, 65535)]).accepts port = true ↔ isAccept = true) := by
    intro isAccept port hport hport'
    rw [ShortPolicy.accepts_iff]
    have hin : ∃ r ∈ [(1, 65535)], r.1 ≤ port ∧ port ≤ r.2 :=
      ⟨_, mem_singleton_self _, hport, hport'⟩
    exact ⟨fun h => h.mp hin, fun h => iff_of_true hin h⟩
  have hempty : ∀ answer, rangesWith answer (portRuns P) = [] → ∀ port, 1 ≤ port → port ≤ 65535 →
      P port ≠ answer := by
    intro answer hnil port hport hport' heq
    obtain ⟨r, hr, -⟩ := (exists_rangesWith answer hport hport').mpr heq
    rw [hnil] at hr
    cases hr
  have hcut : maxRangesLen = 993 := by decide
  unfold summaryText ListedPort
  dsimp only
  rw [htexts, htexts]
  simp only [map_eq_nil_iff]
  by_cases haccepts : rangesWith true (portRuns P) = []
  · -- nothing is accepted
    have hshort : summaryTooLong ((rangesWith true (portRuns P)).map rangeText)
        ((rangesWith false (portRuns P)).map rangeText) = false := by
      rw [haccepts]
      unfold summaryTooLong
      rw [Bool.and_eq_false_iff]
      exact .inr rfl
    rw [if_pos haccepts, hshort]
    refine ⟨_, _, rfl, parseShortPolicy_ranges hone (cons_ne_nil _ _) (by decide) false,
      fun port hport hport' => ?_⟩
    rw [hall false port hport hport', if_neg Bool.false_ne_true]
    exact iff_of_false Bool.false_ne_true (hempty true haccepts port hport hport')
  rw [if_neg haccepts]
  by_cases hrejects : rangesWith false (portRuns P) = []
  · -- nothing is rejected
    have hshort : summaryTooLong ((rangesWith true (portRuns P)).map rangeText)
        ((rangesWith false (portRuns P)).map rangeText) = false := by
      rw [hrejects]
      unfold summaryTooLong
      rw [Bool.and_eq_false_iff]
      exact .inl rfl
    rw [if_pos hrejects, hshort]
    refine ⟨_, _, rfl, parseShortPolicy_ranges hone (cons_ne_nil _ _) (by decide) true,
      fun port hport hport' => ?_⟩
    rw [hall true port hport hport', if_neg Bool.false_ne_true]
    exact iff_of_true rfl (Bool.eq_true_of_not_eq_false (hempty false hrejects port hport hport'))
  rw [if_neg hrejects]
  by_cases hlong : summaryTooLong ((rangesWith true (portRuns P)).map rangeText)
      ((rangesWith false (portRuns P)).map rangeText) = true
  · -- both are too long, and the accepted ranges are cut
    have hboth := hlong
    unfold summaryTooLong at hboth
    rw [Bool.and_eq_true, decide_eq_true_eq, decide_eq_true_eq] at hboth
    have hfit : fittingRanges maxRangesLen (rangesWith true (portRuns P)) ≠ [] := by
      cases hranges : rangesWith true (portRuns P) with
      | nil => exact absurd hranges haccepts
      | cons r ranges =>
        have hlen :=
          (rangeText_spec (isPortRange_rangesWith P true r (hranges ▸ mem_cons_self))).2.1
        rw [fittingRanges, if_pos (by omega)]
        exact cons_ne_nil _ _
    have hranges : ∀ r ∈ fittingRanges maxRangesLen (rangesWith true (portRuns P)), IsPortRange r :=
        fun r hr =>
      isPortRange_rangesWith P true r (mem_of_mem_fittingRanges hr)
    have htext := beforeLastComma_take (isPortRange_rangesWith P true) hboth.2
    rw [if_neg hfit] at htext
    rw [if_pos hlong, cutAtComma, htext, map_some]
    refine ⟨_, _, rfl, parseShortPolicy_ranges hranges hfit
      (length_fittingRanges_le (isPortRange_rangesWith P true)) true, fun port _ _ => ?_⟩
    rw [if_pos hlong, ShortPolicy.accepts_iff]
    exact ⟨fun h => h.mpr rfl, fun h => iff_of_true h rfl⟩
  rw [if_neg hlong]
  have hnot := hlong
  unfold summaryTooLong at hnot
  rw [Bool.and_eq_true, decide_eq_true_eq, decide_eq_true_eq] at hnot
  split_ifs with hshorter
  · refine ⟨_, _, rfl,
      parseShortPolicy_ranges (isPortRange_rangesWith P false) hrejects (by omega) false,
      fun port hport hport' => ?_⟩
    rw [ShortPolicy.accepts_iff, exists_rangesWith false hport hport']
    cases P port <;> decide
  · refine ⟨_, _, rfl,
      parseShortPolicy_ranges (isPortRange_rangesWith P true) haccepts (by omega) true,
      fun port hport hport' => ?_⟩
    rw [ShortPolicy.accepts_iff, exists_rangesWith true hport hport']
    cases P port <;> decide

end Listed

/-! ### Policies -/

/-- The number of addresses of an item. -/
def nAddresses (p : AddrPolicy) : ℕ := 2 ^ (p.addr.bits - p.maskbits)

/-- A summary is exact: there is one, it can be read, and it accepts a port exactly if some item
accepts the port for all addresses and the items before it do not reject too many of them.  If it is
cut, it accepts no other ports. -/
def PolicySummaryExact (policy : List AddrPolicy) (family : SaFamily) : Prop :=
  ∃ text short, policySummarize policy family = some text ∧ parseShortPolicy text = some short ∧
    ∀ port, 1 ≤ port → port ≤ 65535 →
      if summaryTruncated policy family then
        short.accepts port = true → SummaryAccepts nAddresses (familyItems policy family) port
      else short.accepts port = true ↔ SummaryAccepts nAddresses (familyItems policy family) port

/-- The answers of a summary as it counts addresses. -/
def countedAnswers (policy : List AddrPolicy) (family : SaFamily) (port : ℕ) : Bool :=
  (portState shiftedCount (familyItems policy family) port).2

/-- A summary for IPv6 counts well enough: no network that is rejected is smaller than the shift
allows, and at the ports that it lists, nothing is rejected before they are accepted. -/
structure SummaryCountsRight (policy : List AddrPolicy) : Prop where
  shift : ∀ p ∈ familyItems policy .inet6, p.ShiftOk
  listed : ∀ port, 1 ≤ port → port ≤ 65535 → ListedPort (countedAnswers policy .inet6) port →
    ∃ before p after, familyItems policy .inet6 = before ++ p :: after ∧ p.AcceptsAll port ∧
      ∀ q ∈ before, q.rejects = true → q.coversPrt port = false

section Policies

variable {policy : List AddrPolicy} {family : SaFamily}

lemma shiftedCount_le (p : AddrPolicy) : shiftedCount p ≤ nAddresses p := by
  have hbits : 32 ≤ p.addr.bits := by
    cases p.addr with
    | ipv4 _ => exact le_rfl
    | ipv6 _ => exact (by decide : 32 ≤ 128)
  exact Nat.pow_le_pow_right (by decide) (by omega)

/-- **A summary is exact** if the ports that it lists are accepted. -/
lemma policySummaryExact_iff (hports : ∀ p ∈ policy, p.PortsOk) (hlen : policy.length < 2 ^ 31)
    (hshift : ∀ p ∈ familyItems policy family, p.ShiftOk) :
    PolicySummaryExact policy family ↔ ∀ port, 1 ≤ port → port ≤ 65535 →
      ListedPort (countedAnswers policy family) port →
        SummaryAccepts nAddresses (familyItems policy family) port := by
  have hitems : ∀ p ∈ familyItems policy family, p.PortsOk := fun p hp =>
    hports p (mem_of_mem_filter hp)
  obtain ⟨summary, hsummary, hshows⟩ := exists_foldlM_addItem hitems hshift
    ((length_filter_le _ _).trans_lt hlen)
  have hruns : summaryRanges 1 summary = portRuns (countedAnswers policy family) := by
    cases summary with
    | nil =>
      have heq : 1 = 65536 := hshows.1
      omega
    | cons item items => exact summaryRanges_eq_runsFrom hshows
  obtain ⟨text, short, htext, hparse, hlisted⟩ := exists_summaryText (countedAnswers policy family)
  have hsummarize : policySummarize policy family = some text := by
    unfold policySummarize policySummary
    rw [hsummary, bind_some, hruns, htext]
  have htruncated : summaryTruncated policy family = summaryTooLong
      (rangeTexts true (portRuns (countedAnswers policy family)))
      (rangeTexts false (portRuns (countedAnswers policy family))) := by
    unfold summaryTruncated policySummary
    rw [hsummary, any_some, hruns]
  constructor
  · rintro ⟨text', short', htext', hparse', hexact⟩ port hport hport' hlist
    obtain rfl := some.inj (hsummarize.symm.trans htext')
    obtain rfl := some.inj (hparse.symm.trans hparse')
    have haccepts := (hlisted port hport hport').mpr hlist
    have hport'' := hexact port hport hport'
    split_ifs at hport''
    · exact hport'' haccepts
    · exact hport''.mp haccepts
  · intro hall
    refine ⟨text, short, hsummarize, hparse, fun port hport hport' => ?_⟩
    rw [hlisted port hport hport']
    split_ifs with hcut
    · exact hall port hport hport'
    · refine ⟨hall port hport hport', fun haccepts => ?_⟩
      rw [htruncated] at hcut
      unfold ListedPort
      rw [if_neg hcut]
      exact (portState_eq shiftedCount _ port).2.mpr (haccepts.mono fun p _ => shiftedCount_le p)

lemma rejectedAddresses_congr {count count' : AddrPolicy → ℕ} {before : List AddrPolicy}
    (h : ∀ p ∈ before, count p = count' p) (port : ℕ) :
    rejectedAddresses count before port = rejectedAddresses count' before port := by
  unfold rejectedAddresses
  rw [map_congr_left fun p hp => h p (mem_of_mem_filter hp)]

/-- Nothing is rejected at a port if no item does. -/
lemma rejectedAddresses_eq_zero {count : AddrPolicy → ℕ} {before : List AddrPolicy} {port : ℕ}
    (h : ∀ q ∈ before, q.rejects = true → q.coversPrt port = false) :
    rejectedAddresses count before port = 0 := by
  have hnone : (before.filter fun p => p.rejects && p.coversPrt port) = [] := by
    rw [filter_eq_nil_iff]
    intro q hq hboth
    rw [Bool.and_eq_true] at hboth
    rw [h q hq hboth.1] at hboth
    exact Bool.false_ne_true hboth.2
  unfold rejectedAddresses
  rw [hnone]
  rfl

/-- An IPv6 network that is large enough for the shift has too many addresses. -/
lemma rejectCutoffCount_lt {q : AddrPolicy} (hq : q ∈ familyItems policy .inet6)
    (hmask : q.maskbits ≤ 32) : rejectCutoffCount < nAddresses q := by
  have hfamily : q.addr.family = .inet6 := of_decide_eq_true (mem_filter.mp hq).2
  have hbits : q.addr.bits = 128 := by
    cases haddr : q.addr with
    | ipv4 _ =>
      rw [haddr] at hfamily
      cases hfamily
    | ipv6 _ => rfl
  unfold nAddresses rejectCutoffCount
  rw [hbits]
  exact Nat.pow_lt_pow_right (by decide) (by omega)

end Policies

/-- **The summary of a policy** is exact for IPv4.  For IPv6 it is exact if and only if it counts
well enough, which is a condition on the items: the number of addresses is computed with a shift by
32 minus the length of the prefix, which is wrong, and undefined for prefixes longer than 32
bits. -/
theorem policySummarize_exact {policy : List AddrPolicy} (hports : ∀ p ∈ policy, p.PortsOk)
    (hlen : policy.length < 2 ^ 31) :
    PolicySummaryExact policy .inet ∧
    (PolicySummaryExact policy .inet6 ↔ SummaryCountsRight policy) := by
  constructor
  · -- the shift is right for all items of the family
    have hbits : ∀ p ∈ familyItems policy .inet, p.addr.bits = 32 := by
      intro p hp
      have hfamily : p.addr.family = .inet := of_decide_eq_true (mem_filter.mp hp).2
      cases haddr : p.addr with
      | ipv4 _ => rfl
      | ipv6 _ =>
        rw [haddr] at hfamily
        cases hfamily
    refine (policySummaryExact_iff hports hlen fun p hp _ => ?_).mpr fun port hport hport' hlist =>
      ?_
    · rw [← hbits p hp]
      exact p.maskbits_le
    · obtain ⟨before, p, after, hitems, haccepts, hle⟩ :=
        (portState_eq shiftedCount _ port).2.mp (hlist.accepted hport hport')
      have hcount : rejectedAddresses nAddresses before port =
          rejectedAddresses shiftedCount before port := by
        refine rejectedAddresses_congr (fun q hq => ?_) port
        unfold nAddresses shiftedCount
        rw [hbits q (hitems ▸ mem_append_left _ hq)]
      exact ⟨before, p, after, hitems, haccepts, hcount ▸ hle⟩
  · by_cases hshift : ∀ p ∈ familyItems policy .inet6, p.ShiftOk
    · rw [policySummaryExact_iff hports hlen hshift]
      constructor
      · intro h
        refine ⟨hshift, fun port hport hport' hlist => ?_⟩
        obtain ⟨before, p, after, hitems, haccepts, hle⟩ := h port hport hport' hlist
        refine ⟨before, p, after, hitems, haccepts, fun q hq hrejects => ?_⟩
        by_contra hcovers
        -- one network is more than the summary allows
        have hmem : q ∈ familyItems policy .inet6 := hitems ▸ mem_append_left _ hq
        have hlt := rejectCutoffCount_lt hmem (hshift q hmem hrejects)
        have hsingle : nAddresses q ≤ rejectedAddresses nAddresses before port := by
          refine single_le_sum (fun _ _ => Nat.zero_le _) _
            (List.mem_map_of_mem (mem_filter.mpr ⟨hq, ?_⟩))
          rw [hrejects, Bool.eq_true_of_not_eq_false hcovers]
          rfl
        omega
      · intro h port hport hport' hlist
        obtain ⟨before, p, after, hitems, haccepts, hnone⟩ := h.listed port hport hport' hlist
        exact ⟨before, p, after, hitems,
          haccepts, by rw [rejectedAddresses_eq_zero hnone]; exact Nat.zero_le _⟩
    · refine iff_of_false ?_ fun h => hshift h.shift
      rintro ⟨text, short, htext, -⟩
      obtain ⟨p, hshift⟩ := not_forall.mp hshift
      obtain ⟨hp, hshift⟩ := Classical.not_imp.mp hshift
      unfold policySummarize policySummary at htext
      rw [foldlM_addItem_none hp hshift] at htext
      cases htext

/-- A policy for IPv6 that rejects one port for a network with a prefix of eight bits. -/
def rejectWideIpv6 : List AddrPolicy :=
  [⟨.reject, ipv6Net 0x20 0, 8, 80, 80, by decide⟩, ⟨.accept, ipv6Net 0 0, 0, 1, 65535, by decide⟩]

lemma rejectWideIpv6_portsOk : ∀ p ∈ rejectWideIpv6, p.PortsOk := by
  intro p hp
  rcases mem_cons.mp hp with rfl | hp
  · exact (by decide : (1 : ℕ) ≤ 80 ∧ (80 : ℕ) ≤ 80)
  · rw [mem_singleton.mp hp]
    exact (by decide : (1 : ℕ) ≤ 1 ∧ (1 : ℕ) ≤ 65535)

theorem policySummarize_exact_wideIpv6 :
    PolicySummaryExact rejectWideIpv6 .inet ∧
      (PolicySummaryExact rejectWideIpv6 .inet6 ↔ SummaryCountsRight rejectWideIpv6) :=
  policySummarize_exact rejectWideIpv6_portsOk (by decide)

/-- The summary of this policy accepts the port, although almost 2 ^ 120 addresses are rejected
there. -/
theorem not_policySummarize_exact : ¬ ∀ (policy : List AddrPolicy) (family : SaFamily),
    (∀ p ∈ policy, p.PortsOk) → policy.length < 2 ^ 31 → PolicySummaryExact policy family := by
  intro h
  obtain ⟨text, short, htext, hshort, hexact⟩ :=
    h rejectWideIpv6 .inet6 rejectWideIpv6_portsOk (by decide)
  have hsummary : policySummarize rejectWideIpv6 .inet6 = some "accept 1-65535".toList := by
    decide +kernel
  have hcut : summaryTruncated rejectWideIpv6 .inet6 = false := by decide +kernel
  have hparse : (parseShortPolicy "accept 1-65535".toList).map (fun short => short.accepts 80) =
      some true := by
    decide +kernel
  obtain rfl := Option.some.inj (hsummary.symm.trans htext)
  rw [hshort, map_some] at hparse
  have hport := hexact 80 (by decide) (by decide)
  rw [hcut, if_neg Bool.false_ne_true] at hport
  have haccepts := (portState_eq nAddresses _ 80).2.mpr (hport.mp (Option.some.inj hparse))
  have hrejects : (portState nAddresses (familyItems rejectWideIpv6 .inet6) 80).2 = false := by
    decide +kernel
  rw [hrejects] at haccepts
  exact Bool.false_ne_true haccepts

end Astoria
