import Astoria.Library.SortedRuns
import Astoria.TorClient.ConsensusCompute

/-!
# The parameters that a consensus lists

The parameters of all votes are sorted as texts and cut into series with the same keyword.  As a
keyword ends with the equals sign, no keyword is the beginning of another one, and the series come
in the order of the keywords with their equals signs.  This is not the order of the keywords alone,
if one of them goes on, after another one, with a character below the equals sign.

For every list of votes, the consensus lists the keywords that enough votes vote on, in this order,
each with the low median of its values (`dirvote_compute_params_exact`).
-/

namespace Astoria

open List Option

/-! ### The order of keywords -/

section Keywords

variable {p q a b : DocText}

lemma paramKey_append (hp : '=' ∈ p) (a : DocText) : paramKey (paramKey p ++ a) = paramKey p :=
  paramKey_eq_of_starts hp (prefix_append _ _)

/-- The first text is below the second one, unless it is the beginning of it. -/
lemma append_lt_append_of_lt {k l : DocText} (hlt : k < l) (hstart : ¬ k <+: l) (a b : DocText) :
    k ++ a < l ++ b := by
  induction k generalizing l with
  | nil => exact absurd nil_prefix hstart
  | cons x k ih =>
    cases l with
    | nil => exact absurd hlt (not_lt_nil _)
    | cons y l =>
      rw [cons_append, cons_append, cons_lt_cons_iff]
      rcases cons_lt_cons_iff.mp hlt with hxy | ⟨rfl, hkl⟩
      · exact .inl hxy
      · exact .inr ⟨rfl, ih hkl fun h => hstart (cons_prefix_cons.mpr ⟨rfl, h⟩)⟩

lemma append_lt_of_paramKey_lt (hp : '=' ∈ p) (h : paramKey p < paramKey q) (a b : DocText) :
    paramKey p ++ a < paramKey q ++ b := by
  refine append_lt_append_of_lt h (fun hstart => ?_) a b
  have hkey : paramKey q = paramKey p := paramKey_eq_of_starts hp (hstart.trans (starts_paramKey q))
  exact absurd hkey.symm h.ne

lemma paramKey_le_of_le (hq : '=' ∈ q) (h : p ≤ q) : paramKey p ≤ paramKey q := by
  by_contra hlt
  rw [not_le] at hlt
  have happend (r : DocText) : paramKey r ++ r.drop (paramLen r) = r := take_append_drop _ _
  have hqp := append_lt_of_paramKey_lt hq hlt (q.drop (paramLen q)) (p.drop (paramLen p))
  rw [happend, happend] at hqp
  exact absurd h hqp.not_ge

end Keywords

/-! ### The values of a keyword -/

section Values

variable {k p : DocText} {l : List DocText} {total : ℕ} {vals : List ℤ}

/-- The values that parameters give to a keyword. -/
def seriesValues (k : DocText) (l : List DocText) : List ℤ :=
  l.filterMap fun p => if paramKey p = k then paramValue p else none

lemma seriesValues_cons_of_eq {v : ℤ} (hv : paramValue p = some v) :
    seriesValues (paramKey p) (p :: l) = v :: seriesValues (paramKey p) l := by
  rw [seriesValues, filterMap_cons_some (by rw [if_pos rfl, hv])]
  rfl

lemma seriesValues_cons_of_ne (h : paramKey p ≠ k) :
    seriesValues k (p :: l) = seriesValues k l := by
  rw [seriesValues, filterMap_cons_none (by rw [if_neg h])]
  rfl

lemma seriesValues_eq_nil (h : ∀ p ∈ l, paramKey p ≠ k) : seriesValues k l = [] := by
  rw [seriesValues, filterMap_eq_nil_iff]
  exact fun p hp => if_neg (h p hp)

/-- There are enough values of a keyword, and a text gives the keyword their median. -/
def IsParamEntry (totalAuthorities : ℕ) (vals : List ℤ) (k e : DocText) : Prop :=
  (totalAuthorities / 2 < vals.length ∨ 3 ≤ vals.length) ∧ ∃ m, median vals = some m ∧
    e = k ++ (toString m).toList

/-- What is listed for the values of a keyword. -/
lemma mem_paramEntry_iff {out : List DocText} {e : DocText}
    (h : paramEntry total vals k = some out) : e ∈ out ↔ IsParamEntry total vals k e := by
  unfold paramEntry at h
  split_ifs at h with hmany
  · obtain ⟨m, hm, rfl⟩ := map_eq_some_iff.mp h
    rw [mem_singleton]
    constructor
    · exact fun he => ⟨hmany, m, hm, he⟩
    · rintro ⟨-, m', hm', he⟩
      rw [he, Option.some.inj (hm.symm.trans hm')]
  · obtain rfl := Option.some.inj h
    exact iff_of_false not_mem_nil fun hlisted => hmany hlisted.1

lemma IsParamEntry.paramKey_eq {e : DocText} (hp : '=' ∈ p)
    (h : IsParamEntry total vals (paramKey p) e) : paramKey e = paramKey p := by
  obtain ⟨-, m, -, rfl⟩ := h
  exact paramKey_append hp _

lemma pairwise_paramEntry {out : List DocText}
    (h : paramEntry total vals k = some out) (R : DocText → DocText → Prop) : out.Pairwise R := by
  unfold paramEntry at h
  split_ifs at h
  · obtain ⟨m, -, rfl⟩ := map_eq_some_iff.mp h
    exact pairwise_singleton _ _
  · obtain rfl := Option.some.inj h
    exact List.Pairwise.nil

end Values

/-! ### The series -/

section Series

variable {nVotes total : ℕ} {param : DocText} {rest output : List DocText} {vals : List ℤ}

/-- The next parameter starts with the keyword of this one exactly if it has the same keyword. -/
lemma take_paramLen_eq_iff {p q : DocText} (hp : '=' ∈ p) :
    q.take (paramLen p) = p.take (paramLen p) ↔ paramKey q = paramKey p := by
  constructor
  · intro h
    refine paramKey_eq_of_starts hp ?_
    rw [paramKey, ← h]
    exact List.take_prefix _ _
  · intro h
    have hstart : paramKey p <+: q := h ▸ starts_paramKey q
    rw [prefix_iff_eq_take, length_paramKey hp] at hstart
    exact hstart.symm

/-- The loop reads the value of a parameter.  The series goes on with the next parameter, or
ends. -/
lemma computeParamsLoop_cons {val : ℤ} (hval : paramValue param = some val) (hparam : '=' ∈ param)
    (h : computeParamsLoop nVotes total (param :: rest) vals (paramLen param) = some output) :
    rest = [] ∧ paramEntry total (vals ++ [val]) (paramKey param) = some output ∨
    (∃ next tail, rest = next :: tail ∧ paramKey next ≠ paramKey param ∧ ∃ out output',
      paramEntry total (vals ++ [val]) (paramKey param) = some out ∧
      computeParamsLoop nVotes total rest [] (paramLen next) = some output' ∧
      output = out ++ output') ∨
    ∃ next tail, rest = next :: tail ∧ paramKey next = paramKey param ∧
      computeParamsLoop nVotes total rest (vals ++ [val]) (paramLen param) = some output := by
  unfold computeParamsLoop at h
  split_ifs at h
  rw [hval] at h
  simp only [bind_eq_bind, bind_some] at h
  cases rest with
  | nil => exact .inl ⟨rfl, h⟩
  | cons next tail =>
    right
    by_cases hkey : paramKey next = paramKey param
    · right
      refine ⟨next, tail, rfl, hkey, ?_⟩
      simpa only [(take_paramLen_eq_iff hparam).mpr hkey, ne_eq, not_true, if_false] using h
    · left
      refine ⟨next, tail, rfl, hkey, ?_⟩
      have htake : next.take (paramLen param) ≠ param.take (paramLen param) :=
        fun htake => hkey ((take_paramLen_eq_iff hparam).mp htake)
      simp only [if_pos htake] at h
      obtain ⟨out, hout, h⟩ := bind_eq_some_iff.mp h
      obtain ⟨output', houtput', h⟩ := bind_eq_some_iff.mp h
      exact ⟨out, output', hout, houtput', (Option.some.inj h).symm⟩

lemma seen_append_seriesValues {val : ℤ} (hval : paramValue param = some val) (k : DocText) :
    (if k = paramKey param then vals else []) ++ seriesValues k (param :: rest) =
      (if k = paramKey param then vals ++ [val] else []) ++ seriesValues k rest := by
  by_cases hk : k = paramKey param
  · rw [hk, if_pos rfl, if_pos rfl, seriesValues_cons_of_eq hval, append_assoc, singleton_append]
  · rw [if_neg hk, if_neg hk, seriesValues_cons_of_ne (Ne.symm hk)]

/-- **The loop over the sorted parameters** lists one entry for each keyword with enough values, in
the order of the keywords.  Some values of the first keyword have been seen before. -/
lemma computeParamsLoop_spec (hsorted : (param :: rest).Pairwise fun p q => paramKey p ≤ paramKey q)
    (hvalue : ∀ p ∈ param :: rest, (paramValue p).isSome)
    (h : computeParamsLoop nVotes total (param :: rest) vals (paramLen param) = some output) :
    (output.map paramKey).Pairwise (· < ·) ∧ ∀ e, e ∈ output ↔ ∃ p ∈ param :: rest,
      IsParamEntry total ((if paramKey p = paramKey param then vals else []) ++
        seriesValues (paramKey p) (param :: rest)) (paramKey p) e := by
  have hparam : '=' ∈ param := mem_of_paramValue (hvalue param mem_cons_self)
  obtain ⟨val, hval⟩ := isSome_iff_exists.mp (hvalue param mem_cons_self)
  induction rest generalizing param vals output val with
  | nil =>
    obtain ⟨-, hout⟩ | ⟨next, tail, hcons, -⟩ | ⟨next, tail, hcons, -⟩ :=
      computeParamsLoop_cons hval hparam h
    · refine ⟨pairwise_map.mpr (pairwise_paramEntry hout _), fun e => ?_⟩
      rw [exists_mem_cons_iff, seen_append_seriesValues hval, if_pos rfl, mem_paramEntry_iff hout]
      simp [seriesValues]
    · cases hcons
    · cases hcons
  | cons next rest ih =>
    obtain ⟨hfirst, htail⟩ := pairwise_cons.mp hsorted
    have hvalue' : ∀ p ∈ next :: rest, (paramValue p).isSome := fun p hp =>
      hvalue p (mem_cons_of_mem _ hp)
    have hnext : '=' ∈ next := mem_of_paramValue (hvalue' next mem_cons_self)
    obtain ⟨valNext, hvalNext⟩ := isSome_iff_exists.mp (hvalue' next mem_cons_self)
    obtain ⟨hnil, -⟩ | ⟨next', tail, hcons, hkey, out, output', hout, houtput', rfl⟩ | ⟨next', tail,
        hcons, hkey, h⟩ :=
      computeParamsLoop_cons hval hparam h
    · cases hnil
    · -- the series ends here, and all other keywords are above this one
      cases hcons
      obtain ⟨hpairwise, hlisted⟩ := ih htail hvalue' houtput' hnext valNext hvalNext
      have habove : ∀ p ∈ next :: rest, paramKey param < paramKey p := by
        intro p hp
        have hle : paramKey next ≤ paramKey p := by
          rcases mem_cons.mp hp with rfl | hp
          · exact le_rfl
          · exact (pairwise_cons.mp htail).1 p hp
        exact ((hfirst next mem_cons_self).lt_of_ne (Ne.symm hkey)).trans_le hle
      refine ⟨?_, fun e => ?_⟩
      · rw [map_append, pairwise_append]
        refine ⟨pairwise_map.mpr (pairwise_paramEntry hout _), hpairwise, fun k hk l hl => ?_⟩
        obtain ⟨d, hd, rfl⟩ := List.mem_map.mp hk
        obtain ⟨e, he, rfl⟩ := List.mem_map.mp hl
        obtain ⟨p, hp, hentry⟩ := (hlisted e).mp he
        have hpkey : '=' ∈ p := mem_of_paramValue (hvalue' p hp)
        rw [((mem_paramEntry_iff hout).mp hd).paramKey_eq hparam, hentry.paramKey_eq hpkey]
        exact habove p hp
      · rw [mem_append, hlisted e, mem_paramEntry_iff hout, exists_mem_cons_iff _ param]
        refine or_congr ?_ (exists_congr fun p => and_congr_right fun hp => ?_)
        · rw [seen_append_seriesValues hval, if_pos rfl,
            seriesValues_eq_nil fun p hp => (habove p hp).ne',
            append_nil]
        · rw [ite_self, if_neg (habove p hp).ne', seriesValues_cons_of_ne (habove p hp).ne]
    · -- the series goes on
      cases hcons
      have hlen : paramLen param = paramLen next := by
        rw [← length_paramKey hparam, ← length_paramKey hnext, hkey]
      rw [hlen] at h
      obtain ⟨hpairwise, hlisted⟩ := ih htail hvalue' h hnext valNext hvalNext
      refine ⟨hpairwise, fun e => ?_⟩
      simp only [hlisted e, hkey, exists_mem_cons_iff _ param, seen_append_seriesValues hval]
      refine (or_iff_right_of_imp fun hentry => ?_).symm
      exact ⟨next, mem_cons_self, by simpa only [hkey] using hentry⟩

end Series

/-! ### The votes -/

section Votes

variable {testingTorNetwork : Bool} {votes : List (Networkstatus testingTorNetwork)} {k e : DocText}

/-- The number of votes that vote on a keyword. -/
def paramVoters (votes : List (Networkstatus testingTorNetwork)) (k : DocText) : ℕ :=
  votes.countP fun v => v.netParams.any fun p => paramKey p = k

/-- The values that the votes give to a keyword. -/
def votedValues (votes : List (Networkstatus testingTorNetwork)) (k : DocText) : List ℤ :=
  votes.filterMap fun v => (v.netParams.find? fun p => paramKey p = k).bind paramValue

/-- The consensus lists the parameters that enough votes vote on, with the median of their values,
in the order of what a given function says of an entry.  It does not depend on the order of the
votes, and lists nothing at all if no vote has parameters. -/
def ListsParams (orderedBy : DocText → DocText) (votes : List (Networkstatus testingTorNetwork))
    (totalAuthorities : ℕ) : Prop :=
  ∃ entries : List DocText,
    (∀ votes' : List (Networkstatus testingTorNetwork), votes'.Perm votes →
      dirvoteComputeParams (votes'.map (·.netParams)) totalAuthorities =
      some (if ∀ v ∈ votes, v.netParams = [] then none else some ([' '].intercalate entries))) ∧
    (entries.map orderedBy).Pairwise (· < ·) ∧
    ∀ e, e ∈ entries ↔
    ∃ k m, (totalAuthorities < 2 * paramVoters votes k ∨ 3 ≤ paramVoters votes k) ∧
      median (votedValues votes k) = some m ∧ e = k ++ (toString m).toList

/-- A vote has one value for a keyword at most. -/
lemma seriesValues_netParams (v : Networkstatus testingTorNetwork) (k : DocText) :
    seriesValues k v.netParams =
      ((v.netParams.find? fun p => paramKey p = k).bind paramValue).toList := by
  have hnodup := nodup_paramKey (fun p hp => mem_of_paramValue (v.params_value p hp))
    v.params_sorted v.params_keys
  have hvalue := v.params_value
  generalize v.netParams = l at hnodup hvalue
  induction l with
  | nil => rfl
  | cons p l ih =>
    rw [map_cons, nodup_cons] at hnodup
    by_cases hk : paramKey p = k
    · subst hk
      obtain ⟨val, hval⟩ := isSome_iff_exists.mp (hvalue p mem_cons_self)
      have hnil : seriesValues (paramKey p) l = [] :=
        seriesValues_eq_nil fun q hq hkey => hnodup.1 (List.mem_map.mpr ⟨q, hq, hkey⟩)
      rw [seriesValues_cons_of_eq hval, hnil, find?_cons_of_pos (by simp), bind_some, hval]
      rfl
    · rw [seriesValues_cons_of_ne hk, find?_cons_of_neg (by simpa using hk)]
      exact ih hnodup.2 fun q hq => hvalue q (mem_cons_of_mem _ hq)

lemma seriesValues_flatten (votes : List (Networkstatus testingTorNetwork)) (k : DocText) :
    seriesValues k (votes.map (·.netParams)).flatten = votedValues votes k := by
  induction votes with
  | nil => rfl
  | cons v votes ih =>
    rw [map_cons, flatten_cons, seriesValues, filterMap_append, ← seriesValues, ← seriesValues, ih,
      seriesValues_netParams, votedValues, votedValues, filterMap_cons]
    cases (v.netParams.find? fun p => paramKey p = k).bind paramValue <;> rfl

lemma length_votedValues (votes : List (Networkstatus testingTorNetwork)) (k : DocText) :
    (votedValues votes k).length = paramVoters votes k := by
  rw [votedValues, length_filterMap_eq_countP, paramVoters]
  refine countP_congr fun v _ => ?_
  rw [isSome_bind, List.any_eq_true]
  cases hfind : v.netParams.find? fun p => paramKey p = k with
  | none =>
    rw [find?_eq_none] at hfind
    exact iff_of_false nofun fun ⟨p, hp, hk⟩ => hfind p hp hk
  | some p =>
    exact iff_of_true (v.params_value p (mem_of_find?_eq_some hfind))
      ⟨p, mem_of_find?_eq_some hfind, find?_some (p := fun p => decide (paramKey p = k)) hfind⟩

lemma dirvoteComputeParams_perm {l l' : List (List DocText)} (h : l.Perm l') (total : ℕ) :
    dirvoteComputeParams l total = dirvoteComputeParams l' total := by
  unfold dirvoteComputeParams
  rw [OrderStatistic.insertionSort_eq_of_perm h.flatten, h.length_eq]

lemma median_perm {l l' : List ℤ} (h : l.Perm l') : median l = median l' := by
  unfold median OrderStatistic.nth
  rw [OrderStatistic.insertionSort_eq_of_perm h, h.length_eq]

lemma isParamEntry_votedValues_iff {total : ℕ} {vals : List ℤ}
    (h : vals.Perm (votedValues votes k)) : IsParamEntry total vals k e ↔
      ∃ m, (total < 2 * paramVoters votes k ∨ 3 ≤ paramVoters votes k) ∧
        median (votedValues votes k) = some m ∧ e = k ++ (toString m).toList := by
  have hmany : total / 2 < paramVoters votes k ↔ total < 2 * paramVoters votes k := by omega
  rw [IsParamEntry, h.length_eq, length_votedValues, median_perm h, hmany, ← exists_and_left]

/-- **The parameters are listed** in the order of the keywords with their equals signs. -/
lemma listsParams (votes : List (Networkstatus testingTorNetwork)) (total : ℕ) :
    ListsParams paramKey votes total := by
  obtain ⟨params, hparams⟩ := exists_params votes total
  have hresult : ∀ votes' : List (Networkstatus testingTorNetwork), votes'.Perm votes →
      dirvoteComputeParams (votes'.map (·.netParams)) total = some params :=
    fun votes' hperm => (dirvoteComputeParams_perm (hperm.map _) total).trans hparams
  have hsort := perm_insertionSort (· ≤ ·) (votes.map (·.netParams)).flatten
  have hsorted := pairwise_insertionSort (· ≤ ·) (votes.map (·.netParams)).flatten
  have hvalues :
      ∀ k, (seriesValues k ((votes.map (·.netParams)).flatten.insertionSort (· ≤ ·))).Perm
        (votedValues votes k) := fun k => by
    rw [← seriesValues_flatten]
    exact hsort.filterMap _
  have hvalue : ∀ p ∈ (votes.map (·.netParams)).flatten.insertionSort (· ≤ ·),
      (paramValue p).isSome := by
    intro p hp
    obtain ⟨l, hl, hpl⟩ := mem_flatten.mp (hsort.mem_iff.mp hp)
    obtain ⟨v, -, rfl⟩ := List.mem_map.mp hl
    exact v.params_value p hpl
  have hnone : (∀ v ∈ votes, v.netParams = []) ↔
      (votes.map (·.netParams)).flatten.insertionSort (· ≤ ·) = [] := by
    rw [← length_eq_zero_iff, length_insertionSort, length_eq_zero_iff, flatten_eq_nil_iff,
      List.forall_mem_map]
  unfold ListsParams
  simp only [hnone]
  unfold dirvoteComputeParams at hparams
  cases hlist : (votes.map (·.netParams)).flatten.insertionSort (· ≤ ·) with
  | nil =>
    rw [hlist] at hparams hvalues
    obtain rfl := Option.some.inj hparams
    refine ⟨[], hresult, List.Pairwise.nil, fun e => iff_of_false not_mem_nil ?_⟩
    rintro ⟨k, m, -, hm, -⟩
    rw [← median_perm (hvalues k)] at hm
    cases hm
  | cons param rest =>
    rw [hlist] at hparams hvalues hvalue hsorted
    simp only [if_pos (mem_of_paramValue (hvalue param mem_cons_self))] at hparams
    obtain ⟨output, houtput, rfl⟩ := map_eq_some_iff.mp hparams
    have hkeys : (param :: rest).Pairwise fun p q => paramKey p ≤ paramKey q :=
      hsorted.imp_of_mem fun _ hq hpq => paramKey_le_of_le (mem_of_paramValue (hvalue _ hq)) hpq
    obtain ⟨hpairwise, hlisted⟩ := computeParamsLoop_spec hkeys hvalue houtput
    refine ⟨output, hresult, hpairwise, fun e => (hlisted e).trans ?_⟩
    simp only [ite_self, nil_append, isParamEntry_votedValues_iff (hvalues _)]
    constructor
    · rintro ⟨p, -, hp⟩
      exact ⟨paramKey p, hp⟩
    · rintro ⟨k, m, hvoters, hm, he⟩
      by_contra hno
      have hnil : seriesValues k (param :: rest) = [] :=
        seriesValues_eq_nil fun p hp hk => hno ⟨p, hp, m, hk ▸ ⟨hvoters, hm, he⟩⟩
      rw [← median_perm (hvalues k), hnil] at hm
      cases hm

/-- **The parameters of a consensus.**  For every list of votes that the parser accepted, in any
order, no assertion fails, and the consensus lists exactly the keywords that more than half of the
authorities vote on, or three votes, each once and with the median of its values, in the order of
the keywords with their equals signs. -/
theorem dirvote_compute_params_exact (votes : List (Networkstatus testingTorNetwork))
    (totalAuthorities : ℕ) :
    ListsParams paramKey votes totalAuthorities :=
  listsParams votes totalAuthorities

end Votes

/-! ### The order of the keywords alone -/

/-- The keyword of an entry, without the equals sign. -/
def bareKeyword (e : DocText) : DocText := e.takeWhile (· ≠ '=')

/-- A vote with two parameters, one of which goes on, after the other one, with a character below
the equals sign. -/
def hyphenVote : Networkstatus false :=
  { timesVote 0 3600 10800 (by decide) (by decide) with
    netParams := ["ab-c=1".toList, "ab=2".toList]
    params_value := by decide
    params_sorted := by decide
    params_keys := by decide }

lemma eq_of_hyphenVote {k : DocText} {m : ℤ} (hm : median (votedValues [hyphenVote] k) = some m) :
    k ++ (toString m).toList = "ab-c=1".toList ∨ k ++ (toString m).toList = "ab=2".toList := by
  by_cases hhyphen : k = "ab-c=".toList
  · subst hhyphen
    have hone : median (votedValues [hyphenVote] "ab-c=".toList) = some 1 := by decide
    obtain rfl := Option.some.inj (hone.symm.trans hm)
    exact .inl (by decide)
  by_cases hab : k = "ab=".toList
  · subst hab
    have htwo : median (votedValues [hyphenVote] "ab=".toList) = some 2 := by decide
    obtain rfl := Option.some.inj (htwo.symm.trans hm)
    exact .inr (by decide)
  -- no parameter has another keyword
  have hnil : votedValues [hyphenVote] k = [] := by
    rw [← seriesValues_flatten]
    refine seriesValues_eq_nil fun p hp hk => ?_
    have hkeys : ∀ p ∈ ([hyphenVote].map (·.netParams)).flatten,
        paramKey p = "ab-c=".toList ∨ paramKey p = "ab=".toList := by decide
    rcases hkeys p hp with h | h
    · exact hhyphen (hk.symm.trans h)
    · exact hab (hk.symm.trans h)
  rw [hnil] at hm
  cases hm

/-- **Keywords are not in order** without their equals signs. -/
theorem not_dirvote_compute_params_exact :
    ¬ ∀ (votes : List (Networkstatus false)) (totalAuthorities : ℕ),
      ListsParams bareKeyword votes totalAuthorities := by
  intro h
  obtain ⟨entries, hresult, hpairwise, hlisted⟩ := h [hyphenVote] 1
  have hcomputed : dirvoteComputeParams ([hyphenVote].map (·.netParams)) 1 =
      some (some "ab-c=1 ab=2".toList) := by
    decide
  have htext := (hresult [hyphenVote] (Perm.refl _)).symm.trans hcomputed
  rw [if_neg (by decide), Option.some.injEq, Option.some.injEq] at htext
  have hmem : "ab=2".toList ∈ entries :=
    (hlisted _).mpr ⟨"ab=".toList, 2, Or.inl (by decide), by decide, by decide⟩
  cases entries with
  | nil => cases hmem
  | cons e rest =>
    -- the text starts with the first entry
    obtain ⟨k, m, -, hm, he⟩ := (hlisted e).mp mem_cons_self
    have hstart : e <+: "ab-c=1 ab=2".toList := by
      rw [← htext]
      cases rest with
      | nil => exact prefix_append e []
      | cons e' rest => exact prefix_append _ _
    rcases eq_of_hyphenVote hm with hhyphen | hab
    · rw [← he] at hhyphen
      subst hhyphen
      rcases mem_cons.mp hmem with hsame | hrest
      · exact absurd hsame (by decide)
      · have hlt := (pairwise_cons.mp hpairwise).1 _ (List.mem_map_of_mem hrest)
        exact absurd hlt (by decide)
    · rw [← he] at hab
      subst hab
      exact absurd hstart (by decide)

end Astoria
