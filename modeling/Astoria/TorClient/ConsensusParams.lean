import Mathlib.Data.List.Chain
import Astoria.Library.DecimalText
import Astoria.Library.OrderStatistic
import Astoria.TorClient.ConsensusRouters
import Astoria.TorClient.DocTokens

/-!
# The times and parameters of a consensus

The times of a consensus are medians of those in the votes.  Its parameters are medians too, of the
values that the votes give to a parameter: the parameters of all votes are sorted as strings, so
that those with the same keyword come one after another, and each series is gone through.

The assertions of these computations are that the medians are far enough apart, and that no series
has more values than there are votes.  A vote carries what the parser has checked of it.
-/

namespace Astoria

open List Option

/-! ### Numbers -/

/-- The integer in a string, if all of the string is one and it is in a range (`tor_parse_long` with
base 10 and without `next`). -/
def torParseLong (s : DocText) (min max : ℤ) : Option ℤ :=
  let (negative, digits) := splitSign (s.dropWhile isWhite)
  if digits = [] ∨ digits.any fun c => !c.isDigit then none
  else
    let r : ℤ := if negative then -digitsValue digits else digitsValue digits
    if r < min ∨ max < r then none else some r

/-- The number in a string, if all of the string is one and it is in a range (`tor_parse_ulong` with
base 10 and without `next`).  A minus sign is taken modulo `2 ^ 64`. -/
def torParseUlong (s : DocText) (min max : ℕ) : Option ℕ :=
  let (negative, digits) := splitSign (s.dropWhile isWhite)
  let v := digitsValue digits
  if digits = [] ∨ digits.any fun c => !c.isDigit then none
  else if 2 ^ 64 ≤ v then none
  else
    let r := if negative then (2 ^ 64 - v) % 2 ^ 64 else v
    if r < min ∨ max < r then none else some r

/-- The length of the keyword of a parameter and the equals sign. -/
def paramLen (param : DocText) : ℕ := param.idxOf '=' + 1

/-- The keyword of a parameter, with the equals sign. -/
def paramKey (param : DocText) : DocText := param.take (paramLen param)

def paramValue (param : DocText) : Option ℤ :=
  if '=' ∈ param then torParseLong (param.drop (paramLen param)) (-2 ^ 31) (2 ^ 31 - 1) else none

/-! ### Votes -/

/-- The shortest interval between votes (`MIN_VOTE_INTERVAL` and `MIN_VOTE_INTERVAL_TESTING`). -/
def minVoteInterval (testingTorNetwork : Bool) : ℤ := if testingTorNetwork then 10 else 300

/-- The shortest time for votes (`MIN_VOTE_SECONDS`). -/
def minVoteSeconds : ℤ := 2

/-- The shortest time for signatures (`MIN_DIST_SECONDS`). -/
def minDistSeconds : ℤ := 2

/-- Whether a text is a nickname of a router (`is_legal_nickname`). -/
def isLegalNickname (s : DocText) : Bool :=
  decide (0 < s.length ∧ s.length ≤ 19) && s.all Char.isAlphanum

/-- What the parser has checked of the entry of a router in a vote. -/
structure VoteRouterstatus.Parsed (rs : VoteRouterstatus) : Prop where
  nickname : isLegalNickname rs.nickname.toList = true
  identity_lt : rs.identityDigest < 256 ^ 20
  descriptor_lt : rs.descriptorDigest < 256 ^ 20
  publishedOn_nonneg : 0 ≤ rs.publishedOn
  guardfraction_le : ∀ g ∈ rs.guardfractionPercentage, g ≤ 100
  version : ∀ v ∈ rs.version, '\n' ∉ v.toList ∧ eatWhitespaceNoNl v.toList = v.toList
  /-- The summary is the rest of a line that is not too long. -/
  exitsummary : ∀ p ∈ rs.exitsummary, '\n' ∉ p.toList ∧ p.toList.length + 2 ≤ maxLineLength ∧
    ("accept ".toList.isPrefixOf p.toList ∨ "reject ".toList.isPrefixOf p.toList)

/-- A vote that the parser accepted. -/
structure Networkstatus (testingTorNetwork : Bool) extends RouterVote where
  voterIdentity : Digest
  supportedMethods : List String
  validAfter : ℤ
  freshUntil : ℤ
  validUntil : ℤ
  voteSeconds : ℤ
  distSeconds : ℤ
  netParams : List DocText
  hasMeasuredBws : Bool
  fresh_le : validAfter + minVoteInterval testingTorNetwork ≤ freshUntil
  valid_le : validAfter + minVoteInterval testingTorNetwork * 2 ≤ validUntil
  voteSeconds_le : minVoteSeconds ≤ voteSeconds
  distSeconds_le : minDistSeconds ≤ distSeconds
  params_value : ∀ p ∈ netParams, (paramValue p).isSome
  params_sorted : netParams.Pairwise (· < ·)
  params_keys : netParams.IsChain fun a b => paramKey a ≠ paramKey b
  flags_words : ∀ f ∈ knownFlags, IsWord f.toList
  routers_parsed : ∀ rs ∈ routerstatusList, rs.Parsed

/-- The median of some numbers (`median_time`, `median_int`, ...). -/
def median {α : Type*} [LinearOrder α] (l : List α) : Option α :=
  OrderStatistic.nth l ((l.length - 1) / 2)

structure ConsensusTimes where
  validAfter : ℤ
  freshUntil : ℤ
  validUntil : ℤ
  voteSeconds : ℤ
  distSeconds : ℤ

section Consensus

variable {testingTorNetwork : Bool}

/-- The medians of the times.  They must be far enough apart. -/
def consensusTimes (votes : List (Networkstatus testingTorNetwork)) : Option ConsensusTimes := do
  let validAfter ← median (votes.map (·.validAfter))
  let freshUntil ← median (votes.map (·.freshUntil))
  let validUntil ← median (votes.map (·.validUntil))
  let voteSeconds ← median (votes.map (·.voteSeconds))
  let distSeconds ← median (votes.map (·.distSeconds))
  if validAfter + minVoteInterval testingTorNetwork ≤ freshUntil ∧
      freshUntil + minVoteInterval testingTorNetwork ≤ validUntil ∧
      minVoteSeconds ≤ voteSeconds ∧ minDistSeconds ≤ distSeconds then
    some ⟨validAfter, freshUntil, validUntil, voteSeconds, distSeconds⟩
  else none

/-! ### Parameters -/

/-- The entry for a series of values, if there are enough of them. -/
def paramEntry (totalAuthorities : ℕ) (vals : List ℤ) (key : DocText) : Option (List DocText) :=
  if totalAuthorities / 2 < vals.length ∨ 3 ≤ vals.length then
    (median vals).map fun m => [key ++ (toString m).toList]
  else some []

/-- Go through the sorted parameters of all votes: the values of the current series are given, and
the length of its keyword. -/
def computeParamsLoop (nVotes totalAuthorities : ℕ) :
    List DocText → List ℤ → ℕ → Option (List DocText)
  | [], _, _ => some []
  | param :: rest, vals, curParamLen =>
    -- there are no more values than votes
    if vals.length < nVotes then do
      let val ← paramValue param
      let vals := vals ++ [val]
      match rest with
      | [] => paramEntry totalAuthorities vals (param.take curParamLen)
      | next :: _ =>
        if next.take curParamLen ≠ param.take curParamLen then do
          let out ← paramEntry totalAuthorities vals (param.take curParamLen)
          let output ← computeParamsLoop nVotes totalAuthorities rest [] (paramLen next)
          some (out ++ output)
        else computeParamsLoop nVotes totalAuthorities rest vals curParamLen
    else none

/-- The parameters of the consensus, if the votes have any. -/
def dirvoteComputeParams (netParams : List (List DocText)) (totalAuthorities : ℕ) :
    Option (Option DocText) :=
  match netParams.flatten.insertionSort (· ≤ ·) with
  | [] => some none
  | param :: rest =>
    if '=' ∈ param then
      (computeParamsLoop netParams.length totalAuthorities (param :: rest) [] (paramLen param)).map
        fun output => some ([' '].intercalate output)
    else none

end Consensus

/-! ### The times -/

section Times

variable {testingTorNetwork : Bool} {votes : List (Networkstatus testingTorNetwork)}

lemma exists_median {α : Type*} [LinearOrder α] {l : List α} (h : l ≠ []) :
    ∃ x ∈ l, median l = some x := by
  have hlen : 0 < l.length := length_pos_iff.mpr h
  exact OrderStatistic.exists_nth (by omega)

lemma le_median {α ι : Type*} [LinearOrder α] {l : List ι} {f : ι → α} {b : α}
    (h : ∀ i ∈ l, b ≤ f i) {x : α} (hx : median (l.map f) = some x) : b ≤ x := by
  have hmem : x ∈ l.map f :=
    (mem_insertionSort _).mp (mem_of_getElem? hx)
  obtain ⟨i, hi, rfl⟩ := List.mem_map.mp hmem
  exact h i hi

/-- The votes are fresh and valid long enough apart: at some time, more than the lower half of the
votes are not fresh any more, and not more than the lower half of them will be invalid an interval
later. -/
def FreshBeforeValid (testingTorNetwork : Bool) (votes : List (Networkstatus testingTorNetwork)) :
    Prop :=
  ∃ x, (votes.length - 1) / 2 < votes.countP (fun v => v.freshUntil ≤ x) ∧
    votes.countP (fun v => v.validUntil < x + minVoteInterval testingTorNetwork) ≤
      (votes.length - 1) / 2

/-- **The medians are far enough apart** exactly if the votes are fresh and valid long enough
apart. -/
lemma median_fresh_valid_iff {fu vu : ℤ} (hfu : median (votes.map (·.freshUntil)) = some fu)
    (hvu : median (votes.map (·.validUntil)) = some vu) :
    fu + minVoteInterval testingTorNetwork ≤ vu ↔ FreshBeforeValid testingTorNetwork votes := by
  unfold median at hfu hvu
  rw [length_map] at hfu hvu
  have hfresh : ∀ x, fu ≤ x ↔ (votes.length - 1) / 2 < votes.countP fun v => v.freshUntil ≤ x := by
    intro x
    rw [OrderStatistic.nth_le_iff hfu, countP_map]
    rfl
  have hvalid : ∀ y, y ≤ vu ↔
      votes.countP (fun v => v.validUntil < y) ≤ (votes.length - 1) / 2 := by
    intro y
    have hle : y ≤ vu ↔ ¬ vu ≤ y - 1 := by omega
    rw [hle, OrderStatistic.nth_le_iff hvu, countP_map, not_lt]
    have hsame : votes.countP ((fun z => decide (z ≤ y - 1)) ∘ fun v => v.validUntil) =
        votes.countP fun v => v.validUntil < y :=
      countP_congr fun v _ => by
        rw [Function.comp_apply, decide_eq_true_eq, decide_eq_true_eq]
        omega
    rw [hsame]
  constructor
  · intro hle
    exact ⟨fu, (hfresh fu).mp le_rfl, (hvalid _).mp hle⟩
  · rintro ⟨x, hx, hy⟩
    have hfx := (hfresh x).mpr hx
    have hvx := (hvalid _).mpr hy
    omega

/-- **The times of a consensus** exist exactly if the votes are fresh and valid long enough
apart. -/
lemma isSome_consensusTimes_iff (hne : votes ≠ []) :
    (consensusTimes votes).isSome ↔ FreshBeforeValid testingTorNetwork votes := by
  have hmap : ∀ f : Networkstatus testingTorNetwork → ℤ, ∃ x, median (votes.map f) = some x := by
    intro f
    obtain ⟨x, -, hx⟩ := exists_median (l := votes.map f) fun h => hne (map_eq_nil_iff.mp h)
    exact ⟨x, hx⟩
  obtain ⟨va, hva⟩ := hmap (·.validAfter)
  obtain ⟨fu, hfu⟩ := hmap (·.freshUntil)
  obtain ⟨vu, hvu⟩ := hmap (·.validUntil)
  obtain ⟨vs, hvs⟩ := hmap (·.voteSeconds)
  obtain ⟨ds, hds⟩ := hmap (·.distSeconds)
  have hfresh : va + minVoteInterval testingTorNetwork ≤ fu := by
    unfold median at hva hfu
    rw [length_map] at hva hfu
    have hself := (OrderStatistic.nth_le_iff hfu fu).mp le_rfl
    have hle : va ≤ fu - minVoteInterval testingTorNetwork := by
      rw [OrderStatistic.nth_le_iff hva]
      rw [countP_map] at hself ⊢
      refine hself.trans_le (countP_mono_left fun v _ hv => decide_eq_true ?_)
      have hvfu : v.freshUntil ≤ fu := of_decide_eq_true hv
      have hvle := v.fresh_le
      show v.validAfter ≤ _
      omega
    omega
  have hvoting : minVoteSeconds ≤ vs := le_median (fun v _ => v.voteSeconds_le) hvs
  have hdist : minDistSeconds ≤ ds := le_median (fun v _ => v.distSeconds_le) hds
  unfold consensusTimes
  rw [hva, hfu, hvu, hvs, hds, ← median_fresh_valid_iff hfu hvu]
  simp only [bind_eq_bind, bind_some, hfresh, hvoting, hdist, true_and, and_true]
  split_ifs with h
  · exact iff_of_true rfl h
  · exact iff_of_false (by simp) h

end Times

/-! ### The parameters -/

lemma cons_le_cons_imp {x y : Char} {a b : DocText} (h : x :: a ≤ y :: b) :
    x < y ∨ x = y ∧ a ≤ b := by
  have hlt : ¬ y :: b < x :: a := not_lt.mpr h
  rw [cons_lt_cons_iff, not_or, not_and, not_lt, not_lt] at hlt
  rcases hlt.1.lt_or_eq with hxy | rfl
  · exact .inl hxy
  · exact .inr ⟨rfl, hlt.2 rfl⟩

/-- What is between two strings with a common prefix has that prefix too. -/
lemma prefix_of_between {k a b c : DocText} (ha : k <+: a) (hc : k <+: c) (hab : a ≤ b)
    (hbc : b ≤ c) : k <+: b := by
  induction k generalizing a b c with
  | nil => exact nil_prefix
  | cons x k ih =>
    obtain ⟨a, rfl⟩ := ha
    obtain ⟨c, rfl⟩ := hc
    cases b with
    | nil => exact absurd hab (not_le.mpr (nil_lt_cons _ _))
    | cons y b =>
      rcases cons_le_cons_imp hab with hxy | ⟨rfl, hab'⟩
      · rcases cons_le_cons_imp hbc with hyx | ⟨rfl, -⟩
        · exact absurd hxy hyx.not_gt
        · exact absurd hxy (lt_irrefl _)
      · rcases cons_le_cons_imp hbc with hyx | ⟨-, hbc'⟩
        · exact absurd hyx (lt_irrefl _)
        · exact cons_prefix_cons.mpr ⟨rfl, ih (prefix_append _ _) (prefix_append _ _) hab' hbc'⟩

lemma starts_paramKey (p : DocText) : paramKey p <+: p := List.take_prefix _ _

lemma length_paramKey {p : DocText} (hp : '=' ∈ p) : (paramKey p).length = paramLen p := by
  have hlt : p.idxOf '=' < p.length := idxOf_lt_length_iff.mpr hp
  rw [paramKey, length_take, paramLen]
  omega

lemma paramKey_eq_of_starts {p q : DocText} (hp : '=' ∈ p) (h : paramKey p <+: q) :
    paramKey q = paramKey p := by
  have hmem : '=' ∈ paramKey p := by
    have hlt : p.idxOf '=' < p.length := idxOf_lt_length_iff.mpr hp
    have hget : p[p.idxOf '='] = '=' := getElem_idxOf hlt
    rw [← hget]
    exact mem_take_iff_getElem.mpr ⟨p.idxOf '=', by unfold paramLen; omega, rfl⟩
  have hlen := length_paramKey hp
  obtain ⟨q, rfl⟩ := h
  have hidx : (paramKey p ++ q).idxOf '=' = p.idxOf '=' := by
    have hp' : (paramKey p ++ p.drop (paramLen p)).idxOf '=' = (paramKey p).idxOf '=' :=
      idxOf_append_of_mem hmem
    rw [paramKey, take_append_drop] at hp'
    rw [idxOf_append_of_mem hmem, hp', paramKey]
  have hparam : paramLen (paramKey p ++ q) = paramLen p := by
    rw [paramLen, hidx, paramLen]
  rw [paramKey, hparam, take_append_of_le_length hlen.ge, take_of_length_le hlen.le]

/-- The keywords of a vote's parameters differ. -/
lemma nodup_paramKey {l : List DocText} (hmem : ∀ p ∈ l, '=' ∈ p) (hs : l.Pairwise (· < ·))
    (hc : l.IsChain fun a b => paramKey a ≠ paramKey b) : (l.map paramKey).Nodup := by
  induction l with
  | nil => exact nodup_nil
  | cons a l ih =>
    obtain ⟨ha, hl⟩ := pairwise_cons.mp hs
    rw [map_cons, nodup_cons]
    refine ⟨fun hin => ?_, ih (fun p hp => hmem p (mem_cons_of_mem a hp)) hl hc.tail⟩
    obtain ⟨c, hcl, hkey⟩ := List.mem_map.mp hin
    cases l with
    | nil => cases hcl
    | cons b l =>
      -- the next parameter is between the two
      have hbc : b ≤ c := by
        rcases mem_cons.mp hcl with rfl | hcl
        · exact le_rfl
        · exact ((pairwise_cons.mp hl).1 c hcl).le
      have hstart : paramKey a <+: b :=
        prefix_of_between (starts_paramKey a) (hkey ▸ starts_paramKey c) (ha b mem_cons_self).le hbc
      exact (isChain_cons_cons.mp hc).1
        (paramKey_eq_of_starts (hmem a mem_cons_self) hstart).symm

lemma mem_of_paramValue {p : DocText} (h : (paramValue p).isSome) : '=' ∈ p := by
  by_contra hp
  rw [paramValue, if_neg hp] at h
  cases h

lemma exists_paramEntry (totalAuthorities : ℕ) {vals : List ℤ} (h : vals ≠ []) (key : DocText) :
    ∃ out, paramEntry totalAuthorities vals key = some out := by
  obtain ⟨m, -, hm⟩ := exists_median h
  unfold paramEntry
  split_ifs
  · exact ⟨_, by rw [hm]; rfl⟩
  · exact ⟨[], rfl⟩

/-- **The parameters can be gone through** if all of them have values and no keyword has more of
them than there are votes. -/
lemma exists_computeParamsLoop {nVotes : ℕ} (totalAuthorities : ℕ) {l : List DocText}
    (vals : List ℤ) (n : ℕ) (hvalue : ∀ p ∈ l, (paramValue p).isSome)
    (hcount : ∀ k, (l.map paramKey).count k ≤ nVotes)
    (hhead : ∀ p ∈ l.head?, n = paramLen p ∧ vals.length + (l.map paramKey).count (paramKey p) ≤
      nVotes) : ∃ output, computeParamsLoop nVotes totalAuthorities l vals n = some output := by
  induction l generalizing vals n with
  | nil => exact ⟨[], rfl⟩
  | cons param rest ih =>
    obtain ⟨rfl, hvals⟩ := hhead param rfl
    have hparam := hvalue param mem_cons_self
    obtain ⟨val, hval⟩ := isSome_iff_exists.mp hparam
    rw [map_cons, count_cons_self] at hvals
    have hrest : ∀ p ∈ rest, (paramValue p).isSome := fun p hp =>
      hvalue p (mem_cons_of_mem param hp)
    have hcount' : ∀ k, (rest.map paramKey).count k ≤ nVotes := fun k =>
      (count_le_count_cons).trans (hcount k)
    have hlt : vals.length < nVotes := by omega
    obtain ⟨out, hout⟩ := exists_paramEntry totalAuthorities
      (append_ne_nil_of_right_ne_nil vals (cons_ne_nil val [])) (param.take (paramLen param))
    unfold computeParamsLoop
    rw [if_pos hlt, hval]
    simp only [bind_eq_bind, bind_some]
    cases rest with
    | nil => exact ⟨out, hout⟩
    | cons next tail =>
      have hnext := mem_of_paramValue (hrest next mem_cons_self)
      by_cases hkey : next.take (paramLen param) ≠ param.take (paramLen param)
      · -- the series ends here
        obtain ⟨output, houtput⟩ := ih [] (paramLen next) hrest hcount' (by
          rintro p hp
          obtain rfl := Option.some.inj hp
          exact ⟨rfl, by simpa using hcount' (paramKey next)⟩)
        exact ⟨out ++ output, by simp only [if_pos hkey, hout, bind_some, houtput]⟩
      · rw [not_not] at hkey
        have hsame : paramKey next = paramKey param := by
          refine paramKey_eq_of_starts (mem_of_paramValue hparam) ?_
          rw [paramKey, ← hkey]
          exact List.take_prefix _ _
        have hlen : paramLen param = paramLen next := by
          rw [← length_paramKey (mem_of_paramValue hparam), ← length_paramKey hnext, hsame]
        obtain ⟨output, houtput⟩ := ih (vals ++ [val]) (paramLen param) hrest hcount' (by
          rintro p hp
          obtain rfl := Option.some.inj hp
          refine ⟨hlen, ?_⟩
          rw [length_append, length_singleton, hsame]
          omega)
        exact ⟨output, by simp only [hkey, ne_eq, not_true, if_false, houtput]⟩

/-- **The parameters of a consensus can be computed** from the parameters of votes that the parser
accepted. -/
lemma exists_dirvoteComputeParams {netParams : List (List DocText)} (totalAuthorities : ℕ)
    (hvalue : ∀ l ∈ netParams, ∀ p ∈ l, (paramValue p).isSome)
    (hkeys : ∀ l ∈ netParams, (l.map paramKey).Nodup) :
    ∃ params, dirvoteComputeParams netParams totalAuthorities = some params := by
  have hperm := perm_insertionSort (· ≤ ·) netParams.flatten
  have hvalue' : ∀ p ∈ netParams.flatten.insertionSort (· ≤ ·), (paramValue p).isSome := by
    intro p hp
    obtain ⟨l, hl, hpl⟩ := mem_flatten.mp (hperm.mem_iff.mp hp)
    exact hvalue l hl p hpl
  have hcount : ∀ k, ((netParams.flatten.insertionSort (· ≤ ·)).map paramKey).count k ≤
      netParams.length := by
    intro k
    rw [(hperm.map paramKey).count_eq, map_flatten, count_flatten]
    refine (sum_le_card_nsmul _ 1 fun n hn => ?_).trans (by simp)
    obtain ⟨keys, hkeysmem, rfl⟩ := List.mem_map.mp hn
    obtain ⟨l, hl, rfl⟩ := List.mem_map.mp hkeysmem
    exact nodup_iff_count_le_one.mp (hkeys l hl) k
  unfold dirvoteComputeParams
  cases hsorted : netParams.flatten.insertionSort (· ≤ ·) with
  | nil => exact ⟨none, rfl⟩
  | cons param rest =>
    rw [hsorted] at hvalue' hcount
    obtain ⟨output, houtput⟩ := exists_computeParamsLoop totalAuthorities [] (paramLen param)
      hvalue' hcount (by
        rintro p hp
        obtain rfl := Option.some.inj hp
        exact ⟨rfl, by simpa using hcount (paramKey param)⟩)
    refine ⟨some ([' '].intercalate output), ?_⟩
    simp only [if_pos (mem_of_paramValue (hvalue' param mem_cons_self)), houtput, map_some]

end Astoria
