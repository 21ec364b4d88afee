import Astoria.TorClient.PairSelection
import Astoria.TorClient.RecordedFree

/-!
# The arrays of the selection

Between the request for the AS paths and the draw of a pair, the client fills arrays of fixed sizes:
the texts of the request, the buffer for the reply, the ASes of every record, the ASes of the two
directions of every segment, the row pointers of the attacker matrix and the securities of the
pairs.  None of the sizes is checked.

`fillsArrays_iff` says when everything fits.  The ASes of a segment do whenever those of its records
do. There are as many row pointers as pairs, but a single pair can have more than one attacker.
-/

namespace Astoria

open List Option

/-- Everything between the request and the draw of a pair: the results of the request, the attacker
matrix and the securities of the pairs (`res`).  It fails if something is written, or read, outside
of its array. -/
def circuitArrays (solveLp : List (List ℚ) → ℕ → ℕ → List Binary64) (q : CircuitQuery)
    (uninit : List AsnSet) (before : List Char) (chunks : List (List Char)) :
    Option (List Binary64) :=
  (aspathResults q uninit before (some chunks)).bind fun result =>
    let lists := result.map AsnSet.ases
    (attackerMatrix (entryParts q lists) (exitParts q lists)).bind fun m =>
      -- there is a security for every pair
      if maxPairs < q.asEntry.length * q.asExit.length then none
        else some (securityResult solveLp m)

/-- Whatever was in memory and however the reply arrives, nothing is written or read outside of the
arrays. -/
def FillsArrays (solveLp : List (List ℚ) → ℕ → ℕ → List Binary64) (q : CircuitQuery)
    (reply : List Char) :
    Prop :=
  ∀ uninit before chunks, uninit.length = q.qlen → ChunksOf reply chunks →
    ∃ res, circuitArrays solveLp q uninit before chunks = some res

/-- The request, the reply and its records, the attackers and the pairs fit their arrays.  What is
asked of the row pointers is `rows`. -/
structure ArraysFit (rows : List Segment → List Segment → Prop) (q : CircuitQuery)
    (answers : List (List Asn)) (reply : List Char) : Prop where
  /-- The request, the reply and its records. -/
  fits : ProtocolFits q answers reply
  attackers : rows (entryParts q (answers.map longs)) (exitParts q (answers.map longs))
  pairs : q.asEntry.length * q.asExit.length ≤ maxPairs

section Arrays

variable {P : Params} {g : NetworkGraph} {q : CircuitQuery} {answers : List (List Asn)}
  {solveLp : List (List ℚ) → ℕ → ℕ → List Binary64}

/-- The reply with some answers is taken in without damage if all arrays suffice. -/
lemma fillsArrays_of_fit (h : Forall₂ (AnswerOf P g) q.pairTexts answers)
    (hfit : ArraysFit RowsSuffice q answers (replyOf q answers)) :
    FillsArrays solveLp q (replyOf q answers) := by
  intro uninit before chunks huninit hchunks
  obtain ⟨result, hresult, hases⟩ := aspathResults_arrived h hfit.fits before huninit hchunks
  obtain ⟨m, hm⟩ := (attackerMatrix_rows (hfit.fits.parts_le h.length_eq)).1 hfit.attackers
  refine ⟨securityResult solveLp m, ?_⟩
  rw [circuitArrays, hresult, bind_some, hases]
  simp only [hm, bind_some]
  rw [if_neg (not_lt.mpr hfit.pairs)]

/-- Nothing is damaged only if the arrays are as large as needed. -/
lemma FillsArrays.needed (h : Forall₂ (AnswerOf P g) q.pairTexts answers)
    (hfills : FillsArrays solveLp q (replyOf q answers)) :
    ArraysFit RowsNeeded q answers (replyOf q answers) := by
  have hfit : ProtocolFits q answers (replyOf q answers) := by
    refine protocolFits_of_aspathResults h fun chunks hchunks hnone => ?_
    obtain ⟨res, hres⟩ := hfills (replicate q.qlen AsnSet.empty) [] chunks (by simp) hchunks
    rw [circuitArrays, hnone] at hres
    cases hres
  obtain ⟨res, hres⟩ := hfills (replicate q.qlen AsnSet.empty) [] _ (by simp)
    (chunksOf_singletons (replyOf q answers))
  obtain ⟨result, hresult, hases⟩ := aspathResults_arrived h hfit []
    (length_replicate (a := AsnSet.empty)) (chunksOf_singletons (replyOf q answers))
  rw [circuitArrays, hresult, bind_some, hases] at hres
  obtain ⟨m, hm, hres⟩ := bind_eq_some_iff.mp hres
  refine ⟨hfit, (attackerMatrix_rows (hfit.parts_le h.length_eq)).2 ⟨m, hm⟩, ?_⟩
  by_contra hpairs
  rw [if_pos (not_le.mp hpairs)] at hres
  cases hres

/-- **The arrays of the selection.**  Let a server that has been asked for pairs of ASes reply to a
request.  Nothing is written or read outside of the arrays, however the reply arrives, if the
request, the reply and its records fit their arrays, the row pointers suffice, and there are at most
as many pairs as securities.  Conversely, all this is needed, with the row pointers that are
needed. -/
theorem fillsArrays_of_arraysFit (solveLp : List (List ℚ) → ℕ → ℕ → List Binary64) (P : Params)
    (g : NetworkGraph) (history : List (List Char)) (st st' : ServerState) (q : CircuitQuery)
    (reply : List Char)
    (hhistory : ∀ data ∈ history, ∀ pair ∈ requestPairs data, AsText pair.1 ∧ AsText pair.2)
    (hrun : serveAll P g ServerState.fresh history = some st)
    (hserve : serve P g st q.text = some (st', reply)) :
    ∃ answers, Forall₂ (AnswerOf P g) q.pairTexts answers ∧ reply = replyOf q answers ∧
      (ArraysFit RowsSuffice q answers reply → FillsArrays solveLp q reply) ∧
      (FillsArrays solveLp q reply → ArraysFit RowsNeeded q answers reply) := by
  obtain ⟨answers, hanswers, rfl⟩ := answers_of_serve hhistory hrun hserve
  exact ⟨answers, hanswers, rfl, fillsArrays_of_fit hanswers, FillsArrays.needed hanswers⟩

/-- The theorem for one entry and one exit whose segments share no AS. -/
theorem fillsArrays_freeQuery : ∃ st' reply,
    serve {} twoLinks ServerState.fresh freeQuery.text = some (st', reply) ∧
      FillsArrays (fun _ n _ => replicate n 0) freeQuery reply := by
  obtain ⟨st', hserve⟩ := serve_freeQuery
  obtain ⟨answers, hanswers, heq, hfills, -⟩ := fillsArrays_of_arraysFit
    (fun _ n _ => replicate n 0) {} twoLinks [] ServerState.fresh st' freeQuery _
      (by simp) rfl hserve
  obtain ⟨hfit, hlists⟩ := protocolFits_freeQuery hanswers heq
  refine ⟨st', _, hserve, hfills ⟨hfit, ?_, by decide⟩⟩
  rw [hlists]
  decide

/-- The segments of the only pair share two ASes.  The second one gets a row pointer behind the only
one. -/
theorem not_fillsArrays_smallQuery :
    (serve {} (processCyclopsFile ["1\t2\tc2p".toList]) ServerState.fresh
      smallQuery.text).map Prod.snd = some (replyOf smallQuery [[1, 2], [2, 1], [2, 1], [1, 2]]) ∧
    ¬ FillsArrays (fun _ n _ => replicate n 0) smallQuery
      (replyOf smallQuery [[1, 2], [2, 1], [2, 1], [1, 2]]) := by
  have hnone : circuitArrays (fun _ n _ => replicate n 0) smallQuery
      (replicate 4 AsnSet.empty) [] [replyOf smallQuery [[1, 2], [2, 1], [2, 1], [1, 2]]] =
        none := by
    decide +kernel
  refine ⟨by decide +kernel, fun hfills => ?_⟩
  obtain ⟨res, hres⟩ := hfills (replicate 4 AsnSet.empty) []
    [replyOf smallQuery [[1, 2], [2, 1], [2, 1], [1, 2]]] rfl ⟨by decide, by simp⟩
  rw [hnone] at hres
  cases hres

end Arrays

end Astoria
