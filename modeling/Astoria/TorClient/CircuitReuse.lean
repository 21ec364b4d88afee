import Astoria.TorClient.Whois

/-!
# Circuits for another address

`circuit_get_best` goes through all circuits and keeps the best one that a connection can use.  A
circuit that was built for a destination is only looked at if `compare_as` takes its destination and
the address of the connection to be in one AS.

Without an AS map all addresses get the same answer, so that a circuit for another address is used
although no AS is known.  With a map, the search only comes to its end if all texts that are
compared are in the table (`reuseLaw_iff`).
-/

namespace Astoria.Whois

open List
open Option hiding or_self

/-! ### The comparison and the search -/

/-- What answers depend on: the AS map, the variables that are not initialized when a text is
scanned, and which one of two arguments is evaluated first. -/
structure WhoisEnv where
  database : Option (List (DocText × DocText))
  frames : DocText → ℕ → Frame
  leftFirst : Bool

def WhoisEnv.ask (env : WhoisEnv) (tab : Hashtab) (ip : DocText) : Option (DocText × Hashtab) :=
  doWhois env.database (env.frames ip) tab ip

/-- Whether two addresses are in the same AS (`compare_as`). -/
def compareAs (env : WhoisEnv) (tab : Hashtab) (ip1 ip2 : DocText) : Option (ℤ × Hashtab) :=
  if ip1 = ip2 then some (1, tab)
  else if env.leftFirst then do
    let (as1, tab) ← env.ask tab ip1
    let (as2, tab) ← env.ask tab ip2
    pure (if as1 = as2 then 1 else 0, tab)
  else do
    let (as2, tab) ← env.ask tab ip2
    let (as1, tab) ← env.ask tab ip1
    pure (if as1 = as2 then 1 else 0, tab)

/-- What `circuit_get_best` reads of a circuit itself. -/
structure Circuit where
  globalIdentifier : ℕ
  isOrigin : Bool
  destAddress : Option DocText
  hsCircHasTimedOut : Bool
  deriving DecidableEq

/-- The purposes that a circuit is looked for. -/
inductive Purpose
  | general
  | introduceAckWait
  | rendJoined
  deriving DecidableEq

/-- The connection and what is asked for, with the predicates `circuit_is_acceptable` and
`circuit_is_better`. -/
structure Request where
  address : DocText
  purpose : Purpose
  mustBeOpen : Bool
  isAcceptable : Circuit → Bool
  isBetter : Circuit → Circuit → Bool

/-- The variables of the search, and the table of the ASes. -/
structure Search where
  best : Option Circuit
  introGoingOnButTooOld : Bool
  tab : Hashtab

/-- The circuit is for an introduction that takes too long. -/
def Request.skips (req : Request) (circ : Circuit) : Bool :=
  req.purpose = .introduceAckWait && !req.mustBeOpen && circ.hsCircHasTimedOut

/-- The better one of the best circuit so far and another one. -/
def Request.improve (req : Request) (best : Option Circuit) (circ : Circuit) : Option Circuit :=
  match best with
  | none => some circ
  | some best => if req.isBetter circ best then some circ else some best

/-- Whether the destination of a circuit is for another AS, and the table after the comparison. -/
def otherDest (env : WhoisEnv) (tab : Hashtab) (address : DocText) (circ : Circuit) :
    Option (Bool × Hashtab) :=
  match circ.destAddress with
  | none => some (false, tab)
  | some dest => (compareAs env tab dest address).map fun r => (r.1 ≠ 1, r.2)

/-- One round of the search. -/
def Search.step (env : WhoisEnv) (req : Request) (st : Search) (circ : Circuit) : Option Search :=
  if !circ.isOrigin then some st
  else do
    let (other, tab) ← otherDest env st.tab req.address circ
    let st := { st with tab := tab }
    if other then pure st
    else if req.skips circ then pure { st with introGoingOnButTooOld := true }
    else if !req.isAcceptable circ then pure st
    else pure { st with best := req.improve st.best circ }

/-- The best circuit for a connection, and the table of the ASes after the search. -/
def circuitGetBest (env : WhoisEnv) (req : Request) (tab : Hashtab) (circuits : List Circuit) :
    Option (Option Circuit × Hashtab) :=
  (circuits.foldlM (Search.step env req) ⟨none, false, tab⟩).map fun st => (st.best, st.tab)

/-! ### Answers -/

section Answers

variable {env : WhoisEnv} {tab tab' tab₁ : Hashtab} {s v ip1 ip2 : DocText}

/-- The answer for a text, if the call returns. -/
def WhoisEnv.answer (env : WhoisEnv) (tab : Hashtab) (s : DocText) : Option DocText :=
  (env.ask tab s).map Prod.fst

/-- Two tables give the same answers. -/
def SameAnswers (env : WhoisEnv) (tab tab' : Hashtab) : Prop :=
  (loaded env.database tab = none ↔ loaded env.database tab' = none) ∧
    ∀ s, env.answer tab' s = env.answer tab s

lemma SameAnswers.refl (env : WhoisEnv) (tab : Hashtab) : SameAnswers env tab tab :=
  ⟨Iff.rfl, fun _ => rfl⟩

lemma SameAnswers.trans (h : SameAnswers env tab tab') (h' : SameAnswers env tab' tab₁) :
    SameAnswers env tab tab₁ :=
  ⟨h.1.trans h'.1, fun s => (h'.2 s).trans (h.2 s)⟩

/-- The answers, by the map. -/
lemma answer_eq (env : WhoisEnv) (tab : Hashtab) (s : DocText) :
    env.answer tab s =
      match loaded env.database tab with
      | none => some noDatabase
      | some tab' => lookup tab' s := by
  refine ext fun v => ?_
  rw [WhoisEnv.answer, WhoisEnv.ask, map_eq_some_iff]
  constructor
  · rintro ⟨r, hr, rfl⟩
    rcases doWhois_eq_some_iff.mp hr with ⟨hnone, rfl⟩ | ⟨tab', defn, hload, hlook, rfl⟩
    · rw [hnone]
    · rw [hload]
      exact hlook
  · intro hv
    split at hv
    · next hnone =>
      obtain rfl := Option.some.inj hv
      exact ⟨_, doWhois_eq_some_iff.mpr (.inl ⟨hnone, rfl⟩), rfl⟩
    · next tab' hload =>
      exact ⟨_, doWhois_eq_some_iff.mpr (.inr ⟨tab', v, hload, hv, rfl⟩), rfl⟩

/-- Loading the map once more changes nothing. -/
lemma lookup_loaded (h : loaded env.database tab = some tab₁) :
    ∃ tab₂, loaded env.database tab₁ = some tab₂ ∧ ∀ k, lookup tab₂ k = lookup tab₁ k := by
  cases hkey : (lookup tab₁ testKey).isNone with
  | false =>
    refine ⟨tab₁, ?_, fun _ => rfl⟩
    rw [loaded, hkey, if_neg Bool.false_ne_true]
  | true =>
    unfold loaded at h
    split at h
    · obtain ⟨database, hdb, rfl⟩ := map_eq_some_iff.mp h
      refine ⟨_, by rw [loaded, hkey, if_pos rfl, hdb, map_some], fun k => ?_⟩
      rw [lookup, lookup, load, load, HashChains.lookup_installAll, HashChains.lookup_installAll,
        ← Option.or_assoc, Option.or_self]
    · next hsome =>
      obtain rfl := Option.some.inj h
      exact absurd hkey hsome

/-- **Answers stay the same.** -/
theorem sameAnswers_ask (h : env.ask tab s = some (v, tab')) : SameAnswers env tab tab' := by
  rcases doWhois_eq_some_iff.mp h with ⟨-, heq⟩ | ⟨tab₁, defn, hload, -, heq⟩
  · obtain ⟨-, rfl⟩ := Prod.mk.inj heq
    exact SameAnswers.refl env tab'
  · obtain ⟨-, rfl⟩ := Prod.mk.inj heq
    obtain ⟨tab₂, hload₂, hlook⟩ := lookup_loaded hload
    refine ⟨by simp [hload, hload₂], fun s' => ?_⟩
    rw [answer_eq, answer_eq, hload, hload₂]
    exact hlook s'

/-- Whether two texts have the same answer, if both have one. -/
def sameAs (env : WhoisEnv) (tab : Hashtab) (ip1 ip2 : DocText) : Option Bool :=
  if ip1 = ip2 then some true
  else (env.answer tab ip1).bind fun as1 => (env.answer tab ip2).map fun as2 => as1 = as2

lemma sameAs_congr (h : SameAnswers env tab tab') (ip1 ip2 : DocText) :
    sameAs env tab' ip1 ip2 = sameAs env tab ip1 ip2 := by
  rw [sameAs, sameAs, h.2, h.2]

/-- Two calls, one after the other: the answers are those of the first table. -/
lemma two_asks (env : WhoisEnv) (tab : Hashtab) (s s' : DocText) (f : DocText → DocText → ℤ)
    {r : Option (ℤ × Hashtab)}
    (hr : r = do
      let (v, tab) ← env.ask tab s
      let (v', tab) ← env.ask tab s'
      pure (f v v', tab)) :
    r.map Prod.fst = ((env.answer tab s).bind fun v => (env.answer tab s').map (f v)) ∧
      ∀ r', r = some r' → SameAnswers env tab r'.2 := by
  subst hr
  cases h : env.ask tab s with
  | none => exact ⟨by rw [WhoisEnv.answer, h]; rfl, nofun⟩
  | some r =>
    have hsame := sameAnswers_ask h
    rw [← hsame.2 s', WhoisEnv.answer, WhoisEnv.answer, h]
    cases h' : env.ask r.2 s' with
    | none => exact ⟨by simp [h'], fun r' hr' => by simp [h'] at hr'⟩
    | some r₂ =>
      refine ⟨by simp [h'], fun r' hr' => ?_⟩
      simp only [bind_eq_bind, bind_some, h', Option.pure_def,
        Option.some.injEq] at hr'
      rw [← hr']
      exact hsame.trans (sameAnswers_ask h')

/-- **What a comparison says.** -/
theorem compareAs_spec (env : WhoisEnv) (tab : Hashtab) (ip1 ip2 : DocText) :
    (compareAs env tab ip1 ip2).map Prod.fst =
        (sameAs env tab ip1 ip2).map (fun same => if same then 1 else 0) ∧
      ∀ r, compareAs env tab ip1 ip2 = some r → SameAnswers env tab r.2 := by
  unfold compareAs sameAs
  split_ifs with heq hleft
  · exact ⟨rfl, fun r hr => by rw [← Option.some.inj hr]; exact SameAnswers.refl env tab⟩
  · obtain ⟨hfst, hsame⟩ := two_asks env tab ip1 ip2
      (fun as1 as2 => if as1 = as2 then 1 else 0) rfl
    refine ⟨hfst.trans ?_, hsame⟩
    cases env.answer tab ip1 <;> cases env.answer tab ip2 <;> simp
  · obtain ⟨hfst, hsame⟩ := two_asks env tab ip2 ip1
      (fun as2 as1 => if as1 = as2 then 1 else 0) rfl
    refine ⟨hfst.trans ?_, hsame⟩
    cases env.answer tab ip1 <;> cases env.answer tab ip2 <;> simp

end Answers

/-! ### The search -/

section Circuits

variable {env : WhoisEnv} {req : Request} {tab tab' : Hashtab} {circuits : List Circuit}
  {circ : Circuit} {address dest : DocText}

/-- Whether a circuit is for no destination, or for one with the same answer. -/
def sameDest (env : WhoisEnv) (tab : Hashtab) (address : DocText) (circ : Circuit) : Option Bool :=
  match circ.destAddress with
  | none => some true
  | some dest => sameAs env tab dest address

/-- The circuits that the search compares with each other. -/
def IsCandidate (env : WhoisEnv) (req : Request) (tab : Hashtab) (circ : Circuit) : Prop :=
  circ.isOrigin ∧ sameDest env tab req.address circ = some true ∧ ¬ req.skips circ ∧
    req.isAcceptable circ

instance (env : WhoisEnv) (req : Request) (tab : Hashtab) :
    DecidablePred (IsCandidate env req tab) := fun circ =>
  inferInstanceAs (Decidable (circ.isOrigin ∧ sameDest env tab req.address circ = some true ∧
    ¬ req.skips circ ∧ req.isAcceptable circ))

/-- All comparisons of the search have an answer. -/
def Answered (env : WhoisEnv) (address : DocText) (tab : Hashtab) (circuits : List Circuit) :
    Prop :=
  ∀ circ ∈ circuits, circ.isOrigin → (sameDest env tab address circ).isSome

lemma sameDest_congr (h : SameAnswers env tab tab') (address : DocText) (circ : Circuit) :
    sameDest env tab' address circ = sameDest env tab address circ := by
  unfold sameDest
  cases circ.destAddress with
  | none => rfl
  | some dest => exact sameAs_congr h dest address

lemma isCandidate_congr (h : SameAnswers env tab tab') (req : Request) (circ : Circuit) :
    IsCandidate env req tab' circ ↔ IsCandidate env req tab circ := by
  rw [IsCandidate, IsCandidate, sameDest_congr h]

lemma otherDest_spec (env : WhoisEnv) (tab : Hashtab) (address : DocText) (circ : Circuit) :
    (otherDest env tab address circ).map Prod.fst = (sameDest env tab address circ).map not ∧
      ∀ r, otherDest env tab address circ = some r → SameAnswers env tab r.2 := by
  unfold otherDest sameDest
  cases circ.destAddress with
  | none => exact ⟨rfl, fun r hr => by rw [← Option.some.inj hr]; exact SameAnswers.refl env tab⟩
  | some dest =>
    obtain ⟨hfst, hsame⟩ := compareAs_spec env tab dest address
    dsimp only
    refine ⟨?_, fun r hr => ?_⟩
    · have hmap := congrArg (Option.map fun n : ℤ => decide (n ≠ 1)) hfst
      rw [Option.map_map, Option.map_map] at hmap
      rw [Option.map_map]
      refine hmap.trans ?_
      congr 1
      funext same
      cases same <;> rfl
    · obtain ⟨r', hr', rfl⟩ := map_eq_some_iff.mp hr
      exact hsame r' hr'

/-- A round fails if its comparison has no answer. -/
lemma step_eq_none {st : Search} (horigin : circ.isOrigin = true)
    (h : sameDest env st.tab req.address circ = none) : Search.step env req st circ = none := by
  have hother := (otherDest_spec env st.tab req.address circ).1
  rw [h, map_none, map_eq_none_iff] at hother
  rw [Search.step, horigin, hother]
  rfl

variable (req) in
/-- **One round of the search.** -/
lemma step_eq_some {st : Search}
    (h : circ.isOrigin → (sameDest env st.tab req.address circ).isSome) :
    ∃ st', Search.step env req st circ = some st' ∧ SameAnswers env st.tab st'.tab ∧
      st'.best = if IsCandidate env req st.tab circ then req.improve st.best circ else st.best := by
  unfold Search.step
  by_cases horigin : circ.isOrigin = true
  · obtain ⟨same, hsame⟩ := isSome_iff_exists.mp (h horigin)
    obtain ⟨hfst, htab⟩ := otherDest_spec env st.tab req.address circ
    rw [hsame, map_some] at hfst
    obtain ⟨⟨other, tab⟩, hother, rfl⟩ := map_eq_some_iff.mp hfst
    have htab' := htab _ hother
    have hcand : IsCandidate env req st.tab circ ↔
        same = true ∧ ¬ req.skips circ ∧ req.isAcceptable circ := by
      simp [IsCandidate, horigin, hsame]
    simp only [horigin, Bool.not_true, Bool.false_eq_true, if_false, hother, bind_eq_bind,
      bind_some, hcand]
    cases same with
    | false => exact ⟨_, rfl, htab', by simp⟩
    | true =>
      cases hskip : req.skips circ with
      | true => exact ⟨_, rfl, htab', by simp⟩
      | false =>
        cases hacc : req.isAcceptable circ with
        | false => exact ⟨_, rfl, htab', by simp⟩
        | true => exact ⟨_, rfl, htab', by simp⟩
  · rw [Bool.not_eq_true] at horigin
    refine ⟨st, by rw [horigin]; rfl, SameAnswers.refl env st.tab, (if_neg fun hcand => ?_).symm⟩
    rw [hcand.1] at horigin
    cases horigin

variable (req) in
/-- **What the search finds**: the best one of the candidates, if all comparisons have an answer. -/
theorem circuitGetBest_of_answered (h : Answered env req.address tab circuits) :
    ∃ tab', SameAnswers env tab tab' ∧ circuitGetBest env req tab circuits =
      some ((circuits.filter fun circ => IsCandidate env req tab circ).foldl req.improve none,
        tab') := by
  have hrun : ∀ st : Search, SameAnswers env tab st.tab → ∃ st',
      circuits.foldlM (Search.step env req) st = some st' ∧ SameAnswers env tab st'.tab ∧
        st'.best =
          (circuits.filter fun circ => IsCandidate env req tab circ).foldl req.improve st.best := by
    induction circuits with
    | nil => exact fun st hst => ⟨st, rfl, hst, rfl⟩
    | cons circ circuits ih =>
      intro st hst
      obtain ⟨hcirc, hrest⟩ := forall_mem_cons.mp h
      have hanswer : circ.isOrigin → (sameDest env st.tab req.address circ).isSome :=
        fun ho => by rw [sameDest_congr hst]; exact hcirc ho
      obtain ⟨st₁, hstep, hst₁, hbest⟩ := step_eq_some req hanswer
      obtain ⟨st₂, hfold, hst₂, hbest₂⟩ := ih hrest st₁ (hst.trans hst₁)
      refine ⟨st₂, by rw [foldlM_cons, hstep]; exact hfold, hst₂, ?_⟩
      simp only [isCandidate_congr hst] at hbest
      rw [hbest₂, hbest, filter_cons]
      split_ifs with hcand <;> simp_all
  obtain ⟨st, hfold, hst, hbest⟩ := hrun ⟨none, false, tab⟩ (SameAnswers.refl env tab)
  exact ⟨st.tab, hst, by rw [circuitGetBest, hfold, map_some, hbest]⟩

/-- A search that comes to its end has an answer for all comparisons. -/
theorem answered_of_circuitGetBest {r : Option Circuit × Hashtab}
    (h : circuitGetBest env req tab circuits = some r) : Answered env req.address tab circuits := by
  obtain ⟨st, hfold, -⟩ := map_eq_some_iff.mp h
  have hrun : ∀ st₀ : Search, SameAnswers env tab st₀.tab →
      circuits.foldlM (Search.step env req) st₀ = some st →
        Answered env req.address tab circuits := by
    clear h hfold
    induction circuits with
    | nil => exact fun _ _ _ => nofun
    | cons circ circuits ih =>
      intro st₀ hst₀ hfold
      rw [foldlM_cons] at hfold
      obtain ⟨st₁, hstep, hfold⟩ := bind_eq_some_iff.mp hfold
      have hcirc : circ.isOrigin → (sameDest env st₀.tab req.address circ).isSome := by
        intro horigin
        by_contra hnone
        rw [step_eq_none horigin (not_isSome_iff_eq_none.mp hnone)] at hstep
        cases hstep
      obtain ⟨st₁', hstep', hst₁, -⟩ := step_eq_some req hcirc
      obtain rfl := Option.some.inj (hstep.symm.trans hstep')
      refine forall_mem_cons.mpr ⟨fun ho => ?_, ih st₁ (hst₀.trans hst₁) hfold⟩
      rw [← sameDest_congr hst₀]
      exact hcirc ho
  exact hrun _ (SameAnswers.refl env tab) hfold

/-- The best circuit is one of those that are compared. -/
lemma mem_of_foldl_improve {best : Option Circuit}
    (h : circuits.foldl req.improve best = some circ) : circ ∈ circuits ∨ best = some circ := by
  induction circuits generalizing best with
  | nil => exact .inr h
  | cons next circuits ih =>
    rcases ih h with hmem | hbest
    · exact .inl (mem_cons_of_mem _ hmem)
    · unfold Request.improve at hbest
      cases best with
      | none =>
        obtain rfl := Option.some.inj hbest
        exact .inl mem_cons_self
      | some best =>
        dsimp only at hbest
        split at hbest
        · obtain rfl := Option.some.inj hbest
          exact .inl mem_cons_self
        · exact .inr hbest

/-- Every circuit can be the best one. -/
lemma foldl_improve_prefer (hprefer : ∀ c b, req.isBetter c b = decide (c = circ))
    {best : Option Circuit} (h : circ ∈ circuits ∨ best = some circ) :
    circuits.foldl req.improve best = some circ := by
  induction circuits generalizing best with
  | nil => exact h.resolve_left nofun
  | cons next circuits ih =>
    rw [foldl_cons]
    apply ih
    by_cases hnext : next = circ
    · refine .inr ?_
      cases best with
      | none => exact congrArg some hnext
      | some best => rw [Request.improve, hprefer, if_pos (decide_eq_true hnext), hnext]
    · rcases h with h | rfl
      · exact .inl ((mem_cons.mp h).resolve_left (Ne.symm hnext))
      · exact .inr (by rw [Request.improve, hprefer, if_neg (by simpa using hnext)])

/-! ### The law of the reuse -/

/-- Two addresses are in one AS that is known: there is a map, and both have the same answer, which
is not the one for addresses without an AS. -/
def SameKnownAs (env : WhoisEnv) (tab : Hashtab) (s s' : DocText) : Prop :=
  loaded env.database tab ≠ none ∧ ∃ as, as ≠ noAs ∧ env.answer tab s = some as ∧
    env.answer tab s' = some as

/-- The law of the reuse: the search comes to its end, and it finds a circuit for another
destination only if its destination and the address are in one AS that is known. -/
def ReuseLaw (env : WhoisEnv) (req : Request) (tab : Hashtab) (circuits : List Circuit) : Prop :=
  ∃ best tab', circuitGetBest env req tab circuits = some (best, tab') ∧
    ∀ circ dest, best = some circ → circ.destAddress = some dest → dest ≠ req.address →
      SameKnownAs env tab' dest req.address

/-- What the law needs of a circuit for another destination.  Without a map, it may not be used.
With a map, both texts are in the table, and not both without an AS if it may be used. -/
def ReuseSafe (env : WhoisEnv) (req : Request) (tab : Hashtab) (circuits : List Circuit) : Prop :=
  ∀ circ ∈ circuits, circ.isOrigin → ∀ dest, circ.destAddress = some dest → dest ≠ req.address →
    match loaded env.database tab with
    | none => req.isAcceptable circ → req.skips circ
    | some tab' => (lookup tab' dest).isSome ∧ (lookup tab' req.address).isSome ∧
        (req.isAcceptable circ → ¬ req.skips circ →
          lookup tab' dest ≠ some noAs ∨ lookup tab' req.address ≠ some noAs)

/-- **When the law holds**, however circuits are compared with each other. -/
theorem reuseLaw_iff (env : WhoisEnv) (req : Request) (tab : Hashtab) (circuits : List Circuit) :
    (∀ isBetter, ReuseLaw env { req with isBetter := isBetter } tab circuits) ↔
      ReuseSafe env req tab circuits := by
  have hsameDest {circ : Circuit} {dest : DocText} (hdest : circ.destAddress = some dest)
      (hne : dest ≠ req.address) : sameDest env tab req.address circ =
        (env.answer tab dest).bind fun as1 =>
          (env.answer tab req.address).map fun as2 => decide (as1 = as2) := by
    unfold sameDest
    rw [hdest]
    exact if_neg hne
  constructor
  · intro hlaw circ hmem horigin dest hdest hne
    -- prefer this circuit
    obtain ⟨best, tab', hbest, hfound⟩ := hlaw fun c _ => decide (c = circ)
    have hanswered := answered_of_circuitGetBest hbest
    obtain ⟨tab'', hsame, hspec⟩ := circuitGetBest_of_answered _ hanswered
    obtain ⟨rfl, rfl⟩ := Prod.mk.inj (Option.some.inj (hbest.symm.trans hspec))
    have hfound' (h : sameDest env tab req.address circ = some true) (hacc : req.isAcceptable circ)
        (hskip : ¬ req.skips circ) : SameKnownAs env tab' dest req.address := by
      refine hfound circ dest (foldl_improve_prefer (fun _ _ => rfl) (.inl ?_)) hdest hne
      rw [mem_filter, decide_eq_true_eq]
      exact ⟨hmem, horigin, h, hskip, hacc⟩
    have hsome := hanswered circ hmem horigin
    have hdests := hsameDest hdest hne
    change (sameDest env tab req.address circ).isSome at hsome
    cases hload : loaded env.database tab with
    | none =>
      intro hacc
      by_contra hskip
      have hnone (s : DocText) : env.answer tab s = some noDatabase := by rw [answer_eq, hload]
      refine (hfound' ?_ hacc hskip).1 (hsame.1.mp hload)
      rw [hdests, hnone, hnone]
      simp
    | some tab₁ =>
      have hlook (s : DocText) : env.answer tab s = lookup tab₁ s := by rw [answer_eq, hload]
      rw [hlook, hlook] at hdests
      dsimp only
      cases h₁ : lookup tab₁ dest with
      | none => rw [hdests, h₁] at hsome; cases hsome
      | some as1 =>
        cases h₂ : lookup tab₁ req.address with
        | none => rw [hdests, h₁, h₂] at hsome; cases hsome
        | some as2 =>
          refine ⟨rfl, rfl, fun hacc hskip => ?_⟩
          by_contra hboth
          rw [not_or, not_not, not_not, Option.some.injEq, Option.some.injEq] at hboth
          obtain ⟨rfl, rfl⟩ := hboth
          rw [h₁, h₂] at hdests
          obtain ⟨-, as, has, has', -⟩ := hfound' (by rw [hdests]; simp) hacc hskip
          rw [hsame.2, hlook, h₁] at has'
          exact has (Option.some.inj has').symm
  · intro hsafe isBetter
    have hanswered : Answered env req.address tab circuits := by
      intro circ hmem horigin
      cases hdest : circ.destAddress with
      | none => rw [sameDest, hdest]; rfl
      | some dest =>
        by_cases hne : dest = req.address
        · rw [sameDest, hdest, hne]
          exact (congrArg Option.isSome (if_pos rfl)).trans rfl
        · have hcirc := hsafe circ hmem horigin dest hdest hne
          rw [hsameDest hdest hne, answer_eq, answer_eq]
          cases hload : loaded env.database tab with
          | none => rfl
          | some tab₁ =>
            rw [hload] at hcirc
            obtain ⟨as1, h₁⟩ := isSome_iff_exists.mp hcirc.1
            obtain ⟨as2, h₂⟩ := isSome_iff_exists.mp hcirc.2.1
            simp [h₁, h₂]
    obtain ⟨tab', hsame, hspec⟩ := circuitGetBest_of_answered
      { req with isBetter := isBetter } hanswered
    refine ⟨_, tab', hspec, fun circ dest hcirc hdest hne => ?_⟩
    have hmem := (mem_of_foldl_improve hcirc).resolve_right nofun
    rw [mem_filter, decide_eq_true_eq] at hmem
    obtain ⟨hmem, horigin, hcand, hskip, hacc⟩ := hmem
    have hcirc := hsafe circ hmem horigin dest hdest hne
    change sameDest env tab req.address circ = some true at hcand
    rw [hsameDest hdest hne, answer_eq, answer_eq] at hcand
    cases hload : loaded env.database tab with
    | none =>
      rw [hload] at hcirc
      exact absurd (hcirc hacc) hskip
    | some tab₁ =>
      rw [hload] at hcirc hcand
      obtain ⟨as1, h₁, hcand⟩ := bind_eq_some_iff.mp hcand
      obtain ⟨as2, h₂, hcand⟩ := map_eq_some_iff.mp hcand
      obtain rfl := of_decide_eq_true hcand
      have hknown := hcirc.2.2 hacc hskip
      dsimp only at h₁ h₂
      rw [h₁, h₂, or_self, Ne, Option.some.injEq] at hknown
      refine ⟨fun hnone => ?_, as1, hknown, ?_, ?_⟩
      · rw [hsame.1.mpr hnone] at hload
        cases hload
      · rw [hsame.2, answer_eq, hload]
        exact h₁
      · rw [hsame.2, answer_eq, hload]
        exact h₂

end Circuits

/-- Without an AS map, a circuit for one address is found for another one. -/
theorem not_reuseLaw :
    ¬ ReuseLaw ⟨none, fun _ _ => ⟨fun _ => 0, []⟩, true⟩
      ⟨"198.51.100.7".toList, .general, true, fun _ => true, fun _ _ => true⟩ emptyTab
      [⟨1, true, some "203.0.113.9".toList, false⟩] := by
  rintro ⟨best, tab', hbest, hlaw⟩
  have hfound : (circuitGetBest ⟨none, fun _ _ => ⟨fun _ => 0, []⟩, true⟩
      ⟨"198.51.100.7".toList, .general, true, fun _ => true, fun _ _ => true⟩ emptyTab
      [⟨1, true, some "203.0.113.9".toList, false⟩]).map (fun r =>
        (r.1, (loaded none r.2).isNone)) =
            some (some ⟨1, true, some "203.0.113.9".toList, false⟩, true) := by
    decide +kernel
  rw [hbest, map_some, Option.some.injEq, Prod.mk.injEq] at hfound
  obtain ⟨hknown, -⟩ := hlaw _ _ hfound.1 rfl (by decide)
  exact hknown (isNone_iff_eq_none.mp hfound.2)

end Astoria.Whois
