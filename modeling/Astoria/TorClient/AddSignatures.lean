import Astoria.TorClient.ConsensusEntries
import Astoria.TorClient.DetachedSignatures

/-!
# Signatures on pending consensuses

The signatures in a document are added to the pending consensus of each flavor, if the document is
for that consensus: its times are the same, and so are all digests that are known.  A signature
replaces the one of the same voter with the same algorithm, unless that one is good.  If signatures
were added, they are written to the body of the consensus, from the first signature on, and the body
is parsed again.

A document for other consensuses should be rejected, and nothing should change.  But a document
whose digests are all zero is not, and one that is rejected for a flavor is rejected altogether if
no signature is new for the others (`dirvote_add_signatures_iff`).
-/

namespace Astoria.Detached

open Option
open List hiding Vector Vector.replicate
open Tokenizer (PemReader)
open EntryGuards (Identity base16Encode)

/-! ### Pending consensuses -/

/-- An authority that voted on a consensus, with its signatures (`networkstatus_voter_info_t`). -/
structure VoterInfo where
  nickname : DocText
  identityDigest : Identity
  sigs : List DocumentSignature
  deriving DecidableEq

/-- What is used here of a consensus (`networkstatus_t`). -/
structure Consensus where
  validAfter : ℕ
  freshUntil : ℕ
  validUntil : ℕ
  digests : Digests
  voters : List VoterInfo

/-- A consensus that is not published yet (`pending_consensus_t`). -/
structure PendingConsensus where
  body : DocText
  consensus : Consensus

/-- The consensuses that are pending (`pending_consensuses`), and the document with the signatures
on them.  There is always one with all entries. -/
structure Pending where
  ns : PendingConsensus
  microdesc : Option PendingConsensus
  pendingConsensusSignatures : DocText

/-- The name of a flavor (`networkstatus_get_flavor_name`). -/
def flavorName : ConsensusFlavor → DocText
  | .ns => flavorNs
  | .microdesc => "microdesc".toList

/-- How signatures are checked: whether one on a document with some digests is good, if there is a
certificate for it. -/
abbrev CheckSignature := Digests → DocumentSignature → Option Bool

/-! ### Adding signatures -/

section Adding

/-- The signature of a voter with an algorithm (`voter_get_sig_by_algorithm`), as a position. -/
def voterGetSigByAlgorithm (voter : VoterInfo) (alg : DigestAlgorithm) : Option ℕ :=
  voter.sigs.findIdx? fun sig => sig.alg = alg

/-- Remove the signature at a position: the last one comes in its place (`smartlist_remove`). -/
def removeSignature (sigs : List DocumentSignature) (i : ℕ) : List DocumentSignature :=
  match sigs.getLast? with
  | none => []
  | some last => (sigs.set i last).dropLast

/-- A signature after it has been checked (`networkstatus_check_document_signature`), unless it was
before. -/
def checkedSignature (check : CheckSignature) (digests : Digests) (sig : DocumentSignature) :
    DocumentSignature :=
  if sig.goodSignature ∨ sig.badSignature then sig
  else
    match check digests sig with
    | none => sig
    | some true => { sig with goodSignature := true }
    | some false => { sig with badSignature := true }

/-- The signature that is added to the ones of a voter, if it is, and what becomes of these. -/
def addToVoter (check : CheckSignature) (digests : Digests) (voter : VoterInfo)
    (sig : DocumentSignature) : Option (DocumentSignature × VoterInfo) :=
  let oldSig := (voterGetSigByAlgorithm voter sig.alg).bind fun i => voter.sigs[i]?
  if oldSig.any (·.goodSignature) then none
  else
    let sig := checkedSignature check digests sig
    if sig.goodSignature ∨ oldSig.all (·.badSignature) then
      let sigs := match voterGetSigByAlgorithm voter sig.alg with
        | none => voter.sigs
        | some i => removeSignature voter.sigs i
      some (sig, { voter with sigs := sigs ++ [sig] })
    else none

/-- Some signatures that have been looked at: how many of them were added, to which consensus, and
which ones the log says were. -/
structure Added where
  r : ℤ
  target : Consensus
  log : List DocumentSignature

/-- Look at one signature.  Signatures of unknown voters are left out
(`networkstatus_get_voter_by_id`). -/
def addOne (check : CheckSignature) (acc : Added) (sig : DocumentSignature) : Added :=
  match acc.target.voters.findIdx? fun voter => voter.identityDigest = sig.identityDigest with
  | none => acc
  | some i =>
    match acc.target.voters[i]?.bind fun voter => addToVoter check acc.target.digests voter sig with
    | none => acc
    | some (sig, voter) =>
      ⟨acc.r + 1, { acc.target with voters := acc.target.voters.set i voter }, acc.log ++ [sig]⟩

/-- Compare the digests of a document with those of a consensus: the number of matches, unless one
is different. -/
def digestMatches (target known : Digests) : Option ℕ :=
  digestAlgorithms.foldlM (fun nMatches alg =>
    if torMemIsZero (known alg) then some nMatches
    else if target alg = known alg then some (nMatches + 1)
    else none) 0

/-- Add the signatures of a document to a consensus, if it is for this one
(`networkstatus_add_detached_signatures`), with a message in some cases. -/
def networkstatusAddDetachedSignatures (check : CheckSignature) (flavor : ConsensusFlavor)
    (target : Consensus) (sigs : NsDetachedSignatures) : Except String (Added × Option String) :=
  if target.validAfter ≠ sigs.validAfter then
    .error "Valid-After times do not match when adding detached signatures to consensus"
  else if target.freshUntil ≠ sigs.freshUntil then
    .error "Fresh-until times do not match when adding detached signatures to consensus"
  else if target.validUntil ≠ sigs.validUntil then
    .error "Valid-until times do not match when adding detached signatures to consensus"
  else
    match sigs.signatures (flavorName flavor) with
    | none => .error "No signatures for given consensus flavor"
    | some siglist =>
      match sigs.digests (flavorName flavor) with
      | none => .error "No digests for given consensus flavor"
      | some digests =>
        match digestMatches target.digests digests with
        | none => .error "Mismatched digest."
        | some nMatches =>
          -- this is no error
          let msg := if nMatches = 0 then some "No regognized digests for given consensus flavor"
            else none
          .ok (siglist.foldl (addOne check) ⟨0, target, []⟩, msg)

end Adding

/-! ### The texts -/

section Texts

def wrapLines : ℕ → DocText → DocText
  | 0, _ => []
  | n + 1, s => if s = [] then [] else s.take 64 ++ '\n' :: wrapLines n (s.drop 64)

def signatureLines (flavor : ConsensusFlavor) (forDetachedSignatures : Bool)
    (sig : DocumentSignature) : DocText :=
  let keyword := if forDetachedSignatures ∧ flavor ≠ .ns then "additional-signature".toList
    else "directory-signature".toList
  let id := base16Encode sig.identityDigest
  let sk := base16Encode sig.signingKeyDigest
  let words := if flavor = .ns then [keyword, id, sk]
    else if forDetachedSignatures then
      [keyword, flavorName flavor, cryptoDigestAlgorithmGetName sig.alg, id, sk]
    else [keyword, cryptoDigestAlgorithmGetName sig.alg, id, sk]
  let body := base64Encode (sig.signature.getD [])
  [' '].intercalate words ++ "\n-----BEGIN SIGNATURE-----\n".toList ++ wrapLines body.length body ++
    "-----END SIGNATURE-----\n".toList

/-- The signatures on a consensus that are not bad, if there are any
(`networkstatus_format_signatures`). -/
def networkstatusFormatSignatures (flavor : ConsensusFlavor) (consensus : Consensus)
    (forDetachedSignatures : Bool) :
    Option DocText :=
  let sigs := (consensus.voters.flatMap (·.sigs)).filter fun sig =>
    sig.signature.isSome && !sig.badSignature
  if sigs = [] then none else some (sigs.flatMap (signatureLines flavor forDetachedSignatures))

/-- The digits of a digest of some algorithm (`base16_encode`). -/
def digestText (alg : DigestAlgorithm) (d : Digest256) : DocText :=
  (d.toList.flatMap fun b =>
    [EntryGuards.hexDigit (b.toNat / 16), EntryGuards.hexDigit (b.toNat % 16)]).take (hexLen alg)

/-- The document with the signatures on the pending consensuses, if all of them have some
(`networkstatus_get_detached_signatures`). -/
def networkstatusGetDetachedSignatures (ns : Consensus) (microdesc : Option Consensus) :
    Option DocText := do
  let header := "consensus-digest ".toList ++ digestText .sha1 (ns.digests .sha1) ++
    "\nvalid-after ".toList ++ formatIsoTime ns.validAfter ++ "\nfresh-until ".toList ++
    formatIsoTime ns.freshUntil ++ "\nvalid-until ".toList ++ formatIsoTime ns.validUntil ++
    "\n".toList
  let additional : DocText := match microdesc with
    | none => []
    | some c => if torMemIsZero (c.digests .sha256) then [] else "additional-digest ".toList ++
        flavorName .microdesc ++ " sha256 ".toList ++ digestText .sha256 (c.digests .sha256) ++
        "\n".toList
  let others ← match microdesc with
    | none => some []
    | some c => networkstatusFormatSignatures .microdesc c true
  let sigs ← networkstatusFormatSignatures .ns ns true
  some (header ++ additional ++ others ++ sigs)

/-- The body of a consensus with other signatures, if it has some that can be replaced. -/
def replaceSignatures (body newSignatures : DocText) : Option DocText :=
  (strstr body "directory-signature ".toList).map fun rest =>
    body.take (body.length - rest.length) ++ newSignatures

end Texts

/-! ### All flavors -/

section Flavors

variable {Key : Type} (pem : PemReader Key) (check : CheckSignature) (parses : DocText → Bool)

/-- Add the signatures of a document to a pending consensus
(`dirvote_add_signatures_to_pending_consensus`): the number of those that were added, or a negative
number; a message; and what becomes of the consensus, with the log.  The outer option is for the
assertions. -/
def dirvoteAddSignaturesToPendingConsensus (flavor : ConsensusFlavor) (pc : PendingConsensus)
    (sigs : NsDetachedSignatures) :
    Option (ℤ × String × PendingConsensus × List DocumentSignature) :=
  match networkstatusAddDetachedSignatures check flavor pc.consensus sigs with
  | .error msg => some (-1, msg, pc, [])
  | .ok (added, _) =>
    if 1 ≤ added.r then
      match networkstatusFormatSignatures flavor added.target false with
      | none =>
        some (added.r, "No signatures to add", { pc with consensus := added.target }, added.log)
      | some newSignatures => do
        let body ← replaceSignatures pc.body newSignatures
        -- the new body is parsed
        if parses body then some (added.r, "Signatures added", ⟨body, added.target⟩, added.log)
          else none
    else some (added.r, "Signatures ignored", { pc with consensus := added.target }, added.log)

/-- The consensus of a flavor, if it is pending. -/
def Pending.consensus (pending : Pending) : ConsensusFlavor → Option PendingConsensus
  | .ns => some pending.ns
  | .microdesc => pending.microdesc

/-- Put the consensus of a flavor. -/
def Pending.setConsensus (pending : Pending) (flavor : ConsensusFlavor) (pc : PendingConsensus) :
    Pending :=
  match flavor with
  | .ns => { pending with ns := pc }
  | .microdesc => { pending with microdesc := some pc }

/-- All flavors, in their order (`consensus_flavor_t`). -/
def consensusFlavors : List ConsensusFlavor := [.ns, .microdesc]

/-- Some flavors that have been gone through: how many of them refused the document, how many
signatures were added, the last message, what became of the pending consensuses, and the log. -/
structure AllAdded where
  errors : ℕ
  nAdded : ℤ
  msgOut : Option String
  pending : Pending
  log : List DocumentSignature

/-- Add the signatures of a document to a flavor, if it is pending. -/
def addToFlavor (sigs : NsDetachedSignatures) (acc : AllAdded) (flavor : ConsensusFlavor) :
    Option AllAdded :=
  match acc.pending.consensus flavor with
  | none => some acc
  | some pc =>
    (dirvoteAddSignaturesToPendingConsensus check parses flavor pc sigs).map
        fun (res, msg, pc, log) =>
      let pending := acc.pending.setConsensus flavor pc
      if res < 0 then ⟨acc.errors + 1, acc.nAdded, some msg, pending, acc.log ++ log⟩
      else ⟨acc.errors, acc.nAdded + res, some msg, pending, acc.log ++ log⟩

/-- Add the signatures in a text to all pending consensuses
(`dirvote_add_signatures_to_all_pending_consensuses`). -/
def dirvoteAddSignaturesToAllPendingConsensuses (pending : Pending)
    (detachedSignaturesBody : DocText) :
    Option (ℤ × Option String × Pending × List DocumentSignature) :=
  match networkstatusParseDetachedSignatures pem detachedSignaturesBody with
  | none => some (-1, some "Couldn't parse detached signatures.", pending, [])
  | some sigs =>
    (consensusFlavors.foldlM (addToFlavor check parses sigs) ⟨0, 0, none, pending, []⟩).map
        fun acc =>
      if acc.errors ≠ 0 ∧ acc.nAdded = 0 then
        (-1, some (acc.msgOut.getD "Unrecognized error while adding detached signatures."),
          acc.pending, acc.log)
      else
        let newDetached := if acc.nAdded = 0 then none
          else networkstatusGetDetachedSignatures acc.pending.ns.consensus
            (acc.pending.microdesc.map PendingConsensus.consensus)
        (acc.nAdded, acc.msgOut,
          { acc.pending with
            pendingConsensusSignatures := newDetached.getD acc.pending.pendingConsensusSignatures },
          acc.log)

/-- The consensuses that are pending, if any are, and the documents that are kept for the next
ones. -/
structure DirvoteState where
  pending : Option Pending
  pendingConsensusSignatureList : List DocText

/-- Add the signatures in a text to the pending consensuses, or keep it for the next ones
(`dirvote_add_signatures`): the number of signatures that were added, or a negative number; the
message; what becomes of the state; and which signatures the log says were added.  There is no
result if an assertion fails. -/
def dirvoteAddSignatures (st : DirvoteState) (detachedSignaturesBody : DocText) :
    Option (ℤ × Option String × DirvoteState × List DocumentSignature) :=
  match st.pending with
  | some pending =>
    (dirvoteAddSignaturesToAllPendingConsensuses pem check parses pending
      detachedSignaturesBody).map
      fun (r, msg, pending, log) => (r, msg, { st with pending := some pending }, log)
  | none =>
    some (0, some "Signature queued",
      { st with pendingConsensusSignatureList := st.pendingConsensusSignatureList ++
        [detachedSignaturesBody] }, [])

end Flavors

/-! ### When a document is refused -/

section Refused

variable (check : CheckSignature) (flavor : ConsensusFlavor) (target : Consensus)
  (sigs : NsDetachedSignatures)

/-- A document has the times of a consensus. -/
def SameTimes : Prop :=
  target.validAfter = sigs.validAfter ∧ target.freshUntil = sigs.freshUntil ∧
    target.validUntil = sigs.validUntil

/-- A document is for another one than a consensus: the times are different, or no digest that it
has is the one of the consensus. -/
def ForOther : Prop :=
  ¬ SameTimes target sigs ∨ ∀ digests, sigs.digests (flavorName flavor) = some digests →
    ∀ alg, torMemIsZero (digests alg) = true ∨ target.digests alg ≠ digests alg

/-- A document is not refused for a consensus: the times are the same, there are signatures and
digests for the flavor, and no digest is different. -/
def Accepted (siglist : List DocumentSignature) : Prop :=
  SameTimes target sigs ∧ sigs.signatures (flavorName flavor) = some siglist ∧
    ∃ digests, sigs.digests (flavorName flavor) = some digests ∧
      ∀ alg, torMemIsZero (digests alg) = true ∨ target.digests alg = digests alg

/-- The digests can be compared up to the end if none is different. -/
lemma digestMatches_isSome_iff (targetDigests known : Digests) :
    (digestMatches targetDigests known).isSome ↔
      ∀ alg, torMemIsZero (known alg) = true ∨ targetDigests alg = known alg := by
  have hall : (∀ alg, torMemIsZero (known alg) = true ∨ targetDigests alg = known alg) ↔
      (torMemIsZero (known .sha1) = true ∨ targetDigests .sha1 = known .sha1) ∧
        (torMemIsZero (known .sha256) = true ∨ targetDigests .sha256 = known .sha256) := by
    constructor
    · intro h
      exact ⟨h _, h _⟩
    · rintro ⟨h1, h256⟩ alg
      cases alg
      exacts [h1, h256]
  rw [hall]
  simp only [digestMatches, digestAlgorithms, foldlM_cons, foldlM_nil]
  by_cases h1 : torMemIsZero (known .sha1) = true <;>
    by_cases h256 : torMemIsZero (known .sha256) = true <;>
    by_cases e1 : targetDigests .sha1 = known .sha1 <;>
      by_cases e256 : targetDigests .sha256 = known .sha256 <;>
      simp [h1, h256, e1, e256]

/-- The signatures of a document that is not refused are gone through. -/
lemma networkstatusAddDetachedSignatures_of_accepted {siglist : List DocumentSignature}
    (h : Accepted flavor target sigs siglist) :
    ∃ msg, networkstatusAddDetachedSignatures check flavor target sigs =
      .ok (siglist.foldl (addOne check) ⟨0, target, []⟩, msg) := by
  obtain ⟨⟨hva, hfu, hvu⟩, hsig, digests, hdig, hall⟩ := h
  obtain ⟨n, hn⟩ :=
    isSome_iff_exists.mp ((digestMatches_isSome_iff target.digests digests).mpr hall)
  refine ⟨if n = 0 then some "No regognized digests for given consensus flavor" else none, ?_⟩
  rw [networkstatusAddDetachedSignatures, if_neg (not_not.mpr hva), if_neg (not_not.mpr hfu),
    if_neg (not_not.mpr hvu), hsig]
  dsimp only
  rw [hdig]
  dsimp only
  rw [hn]

/-- There is a message why a document is refused. -/
lemma networkstatusAddDetachedSignatures_of_not_accepted
    (h : ∀ siglist, ¬ Accepted flavor target sigs siglist) :
    ∃ msg, networkstatusAddDetachedSignatures check flavor target sigs = .error msg := by
  by_cases htimes : SameTimes target sigs
  swap
  · unfold networkstatusAddDetachedSignatures
    by_cases hva : target.validAfter = sigs.validAfter
    · by_cases hfu : target.freshUntil = sigs.freshUntil
      · have hvu : target.validUntil ≠ sigs.validUntil := fun hvu => htimes ⟨hva, hfu, hvu⟩
        rw [if_neg (not_not.mpr hva), if_neg (not_not.mpr hfu), if_pos hvu]
        exact ⟨_, rfl⟩
      · rw [if_neg (not_not.mpr hva), if_pos hfu]
        exact ⟨_, rfl⟩
    · rw [if_pos hva]
      exact ⟨_, rfl⟩
  rw [networkstatusAddDetachedSignatures, if_neg (not_not.mpr htimes.1),
    if_neg (not_not.mpr htimes.2.1),
    if_neg (not_not.mpr htimes.2.2)]
  cases hsig : sigs.signatures (flavorName flavor) with
  | none => exact ⟨_, rfl⟩
  | some siglist =>
    cases hdig : sigs.digests (flavorName flavor) with
    | none => exact ⟨_, rfl⟩
    | some digests =>
      have hnone : digestMatches target.digests digests = none := by
        rw [← not_isSome_iff_eq_none, digestMatches_isSome_iff]
        intro hall
        exact h siglist ⟨htimes, hsig, digests, hdig, hall⟩
      dsimp only
      rw [hnone]
      exact ⟨_, rfl⟩

end Refused

/-! ### Which signatures are added -/

section Signatures

variable (check : CheckSignature)

/-- A signature is added to a consensus: there is a voter whose it is, and this one has no good
signature with the algorithm, and none at all, a bad one, or one that is replaced by a good one. -/
def AddsTo (target : Consensus) (sig : DocumentSignature) : Prop :=
  ∃ i voter, target.voters.findIdx? (fun voter => voter.identityDigest = sig.identityDigest) =
    some i ∧ target.voters[i]? = some voter ∧ (addToVoter check target.digests voter sig).isSome

/-- A signature that is not added changes nothing. -/
lemma addOne_of_not_addsTo {acc : Added} {sig : DocumentSignature}
    (h : ¬ AddsTo check acc.target sig) : addOne check acc sig = acc := by
  unfold addOne
  cases hi : acc.target.voters.findIdx? fun voter => voter.identityDigest = sig.identityDigest with
  | none => rfl
  | some i =>
    have hnone :
        (acc.target.voters[i]?.bind fun voter => addToVoter check acc.target.digests voter sig) =
          none := by
      cases hv : acc.target.voters[i]? with
      | none => rfl
      | some voter =>
        rw [bind_some, ← not_isSome_iff_eq_none]
        intro hsome
        exact h ⟨i, voter, hi, hv, hsome⟩
    dsimp only
    rw [hnone]

/-- A signature that is added is counted, and the log says so. -/
lemma addOne_of_addsTo {acc : Added} {sig : DocumentSignature} (h : AddsTo check acc.target sig) :
    (addOne check acc sig).r = acc.r + 1 ∧
    (addOne check acc sig).log.length = acc.log.length + 1 := by
  obtain ⟨i, voter, hi, hv, hsome⟩ := h
  obtain ⟨⟨sig', voter'⟩, hadd⟩ := isSome_iff_exists.mp hsome
  unfold addOne
  rw [hi]
  dsimp only
  rw [hv, bind_some, hadd]
  exact ⟨rfl, by rw [length_append, length_singleton]⟩

/-- The counter is the number of signatures in the log. -/
lemma foldl_addOne_counted (siglist : List DocumentSignature) (acc : Added)
    (h : acc.r = acc.log.length) :
    (siglist.foldl (addOne check) acc).r = (siglist.foldl (addOne check) acc).log.length := by
  induction siglist generalizing acc with
  | nil => exact h
  | cons sig siglist ih =>
    rw [foldl_cons]
    apply ih
    by_cases hadd : AddsTo check acc.target sig
    · obtain ⟨hr, hlog⟩ := addOne_of_addsTo check hadd
      rw [hr, hlog, h, Nat.cast_add, Nat.cast_one]
    · rw [addOne_of_not_addsTo check hadd]
      exact h

lemma le_foldl_addOne (siglist : List DocumentSignature) (acc : Added) :
    acc.log.length ≤ (siglist.foldl (addOne check) acc).log.length := by
  induction siglist generalizing acc with
  | nil => exact le_refl _
  | cons sig siglist ih =>
    rw [foldl_cons]
    refine le_trans ?_ (ih _)
    by_cases hadd : AddsTo check acc.target sig
    · rw [(addOne_of_addsTo check hadd).2]
      exact Nat.le_succ _
    · rw [addOne_of_not_addsTo check hadd]

lemma foldl_addOne_of_not {siglist : List DocumentSignature} (acc : Added)
    (h : ∀ sig ∈ siglist, ¬ AddsTo check acc.target sig) :
    siglist.foldl (addOne check) acc = acc := by
  induction siglist with
  | nil => rfl
  | cons sig siglist ih =>
    rw [foldl_cons, addOne_of_not_addsTo check (h sig mem_cons_self)]
    exact ih fun sig' hmem => h sig' (mem_cons_of_mem _ hmem)

/-- If some signature can be added, then some is. -/
lemma lt_foldl_addOne {siglist : List DocumentSignature} (acc : Added)
    (h : ∃ sig ∈ siglist, AddsTo check acc.target sig) :
    acc.log.length < (siglist.foldl (addOne check) acc).log.length := by
  induction siglist with
  | nil => exact absurd h (by simp)
  | cons sig siglist ih =>
    rw [foldl_cons]
    by_cases hadd : AddsTo check acc.target sig
    · have hle := le_foldl_addOne check siglist (addOne check acc sig)
      rw [(addOne_of_addsTo check hadd).2] at hle
      exact hle
    · rw [addOne_of_not_addsTo check hadd]
      obtain ⟨sig', hmem, hadd'⟩ := h
      obtain rfl | hmem := mem_cons.mp hmem
      · exact absurd hadd' hadd
      · exact ih ⟨sig', hmem, hadd'⟩

end Signatures

/-! ### All pending consensuses -/

section Flavors

variable (check : CheckSignature) (parses : DocText → Bool) (sigs : NsDetachedSignatures)
  {flavor : ConsensusFlavor} {siglist : List DocumentSignature} {pc : PendingConsensus}

/-- A flavor is pending, and the document is refused for it. -/
def Refuses (pending : Pending) (flavor : ConsensusFlavor) : Prop :=
  ∃ pc, pending.consensus flavor = some pc ∧ ∀ siglist, ¬ Accepted flavor pc.consensus sigs siglist

/-- A flavor is pending, the document is not refused for it, and some of its signatures can be
added. -/
def Adds (pending : Pending) (flavor : ConsensusFlavor) : Prop :=
  ∃ pc siglist, pending.consensus flavor = some pc ∧ Accepted flavor pc.consensus sigs siglist ∧
    ∃ sig ∈ siglist, AddsTo check pc.consensus sig

/-- The signatures on a consensus can be written to its body: there is a first one, and the new body
can be parsed. -/
def Writable (flavor : ConsensusFlavor) (body : DocText) (target : Consensus) : Prop :=
  ∀ newSignatures, networkstatusFormatSignatures flavor target false = some newSignatures →
    ∃ newBody, replaceSignatures body newSignatures = some newBody ∧ parses newBody = true

/-- If signatures are added for a flavor, then they can be written. -/
def Survives (pending : Pending) (flavor : ConsensusFlavor) : Prop :=
  ∀ pc siglist, pending.consensus flavor = some pc → Accepted flavor pc.consensus sigs siglist →
    (∃ sig ∈ siglist, AddsTo check pc.consensus sig) →
      Writable parses flavor pc.body (siglist.foldl (addOne check) ⟨0, pc.consensus, []⟩).target

lemma Accepted.unique {target : Consensus} {siglist' : List DocumentSignature}
    (h : Accepted flavor target sigs siglist) (h' : Accepted flavor target sigs siglist') :
    siglist' = siglist := by
  have heq := h'.2.1
  rw [h.2.1] at heq
  exact (some.inj heq).symm

lemma addToPending_of_refused (h : ∀ siglist, ¬ Accepted flavor pc.consensus sigs siglist) :
    ∃ msg, dirvoteAddSignaturesToPendingConsensus check parses flavor pc sigs =
      some (-1, msg, pc, []) := by
  obtain ⟨msg, hmsg⟩ :=
    networkstatusAddDetachedSignatures_of_not_accepted check flavor pc.consensus sigs h
  exact ⟨msg, by rw [dirvoteAddSignaturesToPendingConsensus, hmsg]⟩

lemma addToPending_of_none (h : Accepted flavor pc.consensus sigs siglist)
    (hnone : ∀ sig ∈ siglist, ¬ AddsTo check pc.consensus sig) :
    ∃ msg, dirvoteAddSignaturesToPendingConsensus check parses flavor pc sigs =
      some (0, msg, pc, []) := by
  obtain ⟨msg, hmsg⟩ :=
    networkstatusAddDetachedSignatures_of_accepted check flavor pc.consensus sigs h
  rw [foldl_addOne_of_not check ⟨0, pc.consensus, []⟩ hnone] at hmsg
  refine ⟨"Signatures ignored", ?_⟩
  rw [dirvoteAddSignaturesToPendingConsensus, hmsg]
  rfl

/-- If signatures are added, then an assertion fails, or their number is returned. -/
lemma addToPending_of_adds (h : Accepted flavor pc.consensus sigs siglist)
    (hadds : ∃ sig ∈ siglist, AddsTo check pc.consensus sig) :
    (Writable parses flavor pc.body (siglist.foldl (addOne check) ⟨0, pc.consensus, []⟩).target →
      ∃ msg pc' log, log ≠ [] ∧
        dirvoteAddSignaturesToPendingConsensus check parses flavor pc sigs =
          some ((log.length : ℤ), msg, pc', log)) ∧
    (¬ Writable parses flavor pc.body (siglist.foldl (addOne check) ⟨0, pc.consensus, []⟩).target →
      dirvoteAddSignaturesToPendingConsensus check parses flavor pc sigs = none) := by
  obtain ⟨msg, hmsg⟩ :=
    networkstatusAddDetachedSignatures_of_accepted check flavor pc.consensus sigs h
  have hcount := foldl_addOne_counted check siglist ⟨0, pc.consensus, []⟩ rfl
  have hlt := lt_foldl_addOne check ⟨0, pc.consensus, []⟩ hadds
  rw [dirvoteAddSignaturesToPendingConsensus, hmsg]
  generalize siglist.foldl (addOne check) ⟨0, pc.consensus, []⟩ = added at hcount hlt ⊢
  rw [length_nil] at hlt
  have hlog : added.log ≠ [] := ne_nil_of_length_pos hlt
  have hr : 1 ≤ added.r := by omega
  dsimp only
  rw [if_pos hr, hcount]
  cases hformat : networkstatusFormatSignatures flavor added.target false with
  | none =>
    refine ⟨fun _ => ⟨_, _, _, hlog, rfl⟩, fun hnot => absurd ?_ hnot⟩
    intro newSignatures hsome
    rw [hformat] at hsome
    exact absurd hsome nofun
  | some newSignatures =>
    dsimp only
    constructor
    · intro hwrite
      obtain ⟨newBody, hbody, hparses⟩ := hwrite newSignatures hformat
      rw [hbody]
      exact ⟨_, _, _, hlog, if_pos hparses⟩
    · intro hnot
      cases hbody : replaceSignatures pc.body newSignatures with
      | none => rfl
      | some newBody =>
        have hfails : ¬ parses newBody = true := by
          intro hparses
          apply hnot
          intro newSignatures' hformat'
          rw [hformat] at hformat'
          obtain rfl := some.inj hformat'
          exact ⟨newBody, hbody, hparses⟩
        exact if_neg hfails

/-- What a flavor does, if no assertion fails. -/
structure FlavorStep (acc acc' : AllAdded) (flavor : ConsensusFlavor) : Prop where
  errors_of_refuses : Refuses sigs acc.pending flavor → acc'.errors = acc.errors + 1
  errors_of_not_refuses : ¬ Refuses sigs acc.pending flavor → acc'.errors = acc.errors
  counted : acc'.nAdded - acc.nAdded = acc'.log.length - acc.log.length
  log_of_adds : Adds check sigs acc.pending flavor → acc.log.length < acc'.log.length
  unchanged : ¬ Adds check sigs acc.pending flavor → acc'.log = acc.log ∧ acc'.pending = acc.pending
  others : ∀ flavor', flavor' ≠ flavor →
    acc'.pending.consensus flavor' = acc.pending.consensus flavor'

lemma setConsensus_of_ne (pending : Pending) {flavor' : ConsensusFlavor} (pc : PendingConsensus)
    (hne : flavor' ≠ flavor) :
    (pending.setConsensus flavor pc).consensus flavor' = pending.consensus flavor' := by
  cases flavor <;> cases flavor' <;> first | rfl | exact absurd rfl hne

variable {pending : Pending} {acc : AllAdded}

/-- To put the consensus that is there changes nothing. -/
lemma setConsensus_self (h : pending.consensus flavor = some pc) :
    pending.setConsensus flavor pc = pending := by
  cases flavor with
  | ns =>
    obtain rfl : pending.ns = pc := some.inj h
    rfl
  | microdesc =>
    have hm : pending.microdesc = some pc := h
    rw [Pending.setConsensus, ← hm]

lemma Refuses.not_adds (h : Refuses sigs pending flavor) : ¬ Adds check sigs pending flavor := by
  obtain ⟨pc, hpc, hnone⟩ := h
  rintro ⟨pc', siglist, hpc', haccepted, -⟩
  rw [hpc] at hpc'
  obtain rfl := some.inj hpc'
  exact hnone siglist haccepted

lemma survives_of_not_adds (h : ¬ Adds check sigs pending flavor) :
    Survives check parses sigs pending flavor :=
  fun pc siglist hpc haccepted hadd => absurd ⟨pc, siglist, hpc, haccepted, hadd⟩ h

/-- Go through a flavor that adds nothing. -/
lemma addToFlavor_of_not_adds (h : ¬ Adds check sigs acc.pending flavor) :
    ∃ acc', addToFlavor check parses sigs acc flavor = some acc' ∧
    FlavorStep check sigs acc acc' flavor := by
  unfold addToFlavor
  cases hpc : acc.pending.consensus flavor with
  | none =>
    -- the flavor is not pending
    have hrefuses : ¬ Refuses sigs acc.pending flavor := by
      rintro ⟨pc, hsome, -⟩
      rw [hpc] at hsome
      exact absurd hsome nofun
    exact ⟨acc, rfl, fun hr => absurd hr hrefuses, fun _ => rfl, by omega, fun ha => absurd ha h,
      fun _ => ⟨rfl, rfl⟩, fun _ _ => rfl⟩
  | some pc =>
    dsimp only
    by_cases hrefuses : Refuses sigs acc.pending flavor
    · -- the document is refused
      obtain ⟨pc', hpc', hnone⟩ := id hrefuses
      obtain rfl : pc = pc' := some.inj (hpc.symm.trans hpc')
      obtain ⟨msg, hmsg⟩ := addToPending_of_refused check parses sigs hnone
      rw [hmsg]
      refine ⟨⟨acc.errors + 1, acc.nAdded, some msg, acc.pending.setConsensus flavor pc,
        acc.log ++ []⟩, rfl,
        fun _ => rfl, fun hr => absurd hrefuses hr, ?_, fun ha => absurd ha h, fun _ => ?_, ?_⟩
      · dsimp only
        rw [append_nil]
        omega
      · exact ⟨append_nil _, setConsensus_self hpc⟩
      · exact fun flavor' hne => setConsensus_of_ne acc.pending pc hne
    · -- no signature can be added
      have haccepted : ∃ siglist, Accepted flavor pc.consensus sigs siglist := by
        by_contra hnone
        exact hrefuses ⟨pc, hpc, not_exists.mp hnone⟩
      obtain ⟨siglist, haccepted⟩ := haccepted
      have hnone : ∀ sig ∈ siglist, ¬ AddsTo check pc.consensus sig :=
        fun sig hmem hadd => h ⟨pc, siglist, hpc, haccepted, sig, hmem, hadd⟩
      obtain ⟨msg, hmsg⟩ := addToPending_of_none check parses sigs haccepted hnone
      rw [hmsg]
      refine ⟨⟨acc.errors, acc.nAdded + 0, some msg, acc.pending.setConsensus flavor pc,
        acc.log ++ []⟩, rfl,
        fun hr => absurd hr hrefuses, fun _ => rfl, ?_, fun ha => absurd ha h, fun _ => ?_, ?_⟩
      · dsimp only
        rw [append_nil]
        omega
      · exact ⟨append_nil _, setConsensus_self hpc⟩
      · exact fun flavor' hne => setConsensus_of_ne acc.pending pc hne

/-- Go through a flavor that adds signatures: an assertion fails, or the signatures are counted. -/
lemma addToFlavor_of_adds (h : Adds check sigs acc.pending flavor) :
    (Survives check parses sigs acc.pending flavor →
      ∃ acc', addToFlavor check parses sigs acc flavor = some acc' ∧
      FlavorStep check sigs acc acc' flavor) ∧
    (¬ Survives check parses sigs acc.pending flavor →
      addToFlavor check parses sigs acc flavor = none) := by
  have hrefuses : ¬ Refuses sigs acc.pending flavor := fun hr => hr.not_adds check sigs h
  obtain ⟨pc, siglist, hpc, haccepted, hadd⟩ := id h
  obtain ⟨hwritten, hfails⟩ := addToPending_of_adds check parses sigs haccepted hadd
  unfold addToFlavor
  rw [hpc]
  dsimp only
  constructor
  · intro hsurvives
    obtain ⟨msg, pc', log, hlog, heq⟩ := hwritten (hsurvives pc siglist hpc haccepted hadd)
    have hpos := length_pos_of_ne_nil hlog
    have hnonneg : ¬ (log.length : ℤ) < 0 := by omega
    rw [heq]
    refine ⟨⟨acc.errors, acc.nAdded + log.length, some msg, acc.pending.setConsensus flavor pc',
      acc.log ++ log⟩, ?_,
      fun hr => absurd hr hrefuses, fun _ => rfl, ?_, fun _ => ?_, fun hnot => absurd h hnot, ?_⟩
    · rw [map_some, if_neg hnonneg]
    · dsimp only
      rw [length_append]
      omega
    · dsimp only
      rw [length_append]
      omega
    · exact fun flavor' hne => setConsensus_of_ne acc.pending pc' hne
  · intro hnot
    have hwritable : ¬ Writable parses flavor pc.body
        (siglist.foldl (addOne check) ⟨0, pc.consensus, []⟩).target := by
      intro hwritable
      apply hnot
      intro pc' siglist' hpc' haccepted' _
      obtain rfl : pc = pc' := some.inj (hpc.symm.trans hpc')
      rw [haccepted.unique sigs haccepted']
      exact hwritable
    rw [hfails hwritable]
    rfl

lemma addToFlavor_step (acc : AllAdded) (flavor : ConsensusFlavor) :
    (Survives check parses sigs acc.pending flavor →
      ∃ acc', addToFlavor check parses sigs acc flavor = some acc' ∧
      FlavorStep check sigs acc acc' flavor) ∧
    (¬ Survives check parses sigs acc.pending flavor →
      addToFlavor check parses sigs acc flavor = none) := by
  by_cases h : Adds check sigs acc.pending flavor
  · exact addToFlavor_of_adds check parses sigs h
  · exact ⟨fun _ => addToFlavor_of_not_adds check parses sigs h,
      fun hnot => absurd (survives_of_not_adds check parses sigs h) hnot⟩

lemma FlavorStep.congr {acc' : AllAdded} {flavor' : ConsensusFlavor}
    (h : FlavorStep check sigs acc acc' flavor) (hne : flavor' ≠ flavor) :
    (Refuses sigs acc'.pending flavor' ↔ Refuses sigs acc.pending flavor') ∧
    (Adds check sigs acc'.pending flavor' ↔ Adds check sigs acc.pending flavor') ∧
    (Survives check parses sigs acc'.pending flavor' ↔
      Survives check parses sigs acc.pending flavor') := by
  unfold Refuses Adds Survives
  rw [h.others flavor' hne]
  exact ⟨Iff.rfl, Iff.rfl, Iff.rfl⟩

/-- What some flavors do together, if no assertion fails. -/
structure FlavorRun (acc acc' : AllAdded) (flavors : List ConsensusFlavor) : Prop where
  errors : (∃ flavor ∈ flavors, Refuses sigs acc.pending flavor) → acc.errors < acc'.errors
  no_errors : (¬ ∃ flavor ∈ flavors, Refuses sigs acc.pending flavor) → acc'.errors = acc.errors
  counted : acc'.nAdded - acc.nAdded = acc'.log.length - acc.log.length
  log : (∃ flavor ∈ flavors, Adds check sigs acc.pending flavor) → acc.log.length < acc'.log.length
  unchanged : (¬ ∃ flavor ∈ flavors, Adds check sigs acc.pending flavor) →
    acc'.log = acc.log ∧ acc'.pending = acc.pending

lemma FlavorRun.cons {acc₁ acc₂ : AllAdded} {flavors : List ConsensusFlavor}
    (hnot : flavor ∉ flavors) (hstep : FlavorStep check sigs acc acc₁ flavor)
    (hrun : FlavorRun check sigs acc₁ acc₂ flavors) :
    FlavorRun check sigs acc acc₂ (flavor :: flavors) := by
  have hne : ∀ flavor' ∈ flavors, flavor' ≠ flavor := by
    rintro flavor' hmem rfl
    exact hnot hmem
  have hrefuses : (∃ flavor' ∈ flavors, Refuses sigs acc₁.pending flavor') ↔
      ∃ flavor' ∈ flavors, Refuses sigs acc.pending flavor' :=
    exists_congr fun flavor' => and_congr_right fun hmem =>
      (hstep.congr check (fun _ => true) sigs (hne flavor' hmem)).1
  have hadds : (∃ flavor' ∈ flavors, Adds check sigs acc₁.pending flavor') ↔
      ∃ flavor' ∈ flavors, Adds check sigs acc.pending flavor' :=
    exists_congr fun flavor' => and_congr_right fun hmem =>
      (hstep.congr check (fun _ => true) sigs (hne flavor' hmem)).2.1
  have herrors : acc.errors ≤ acc₁.errors := by
    by_cases h : Refuses sigs acc.pending flavor
    · exact (hstep.errors_of_refuses h).symm ▸ Nat.le_succ _
    · exact (hstep.errors_of_not_refuses h).ge
  have herrors' : acc₁.errors ≤ acc₂.errors := by
    by_cases h : ∃ flavor' ∈ flavors, Refuses sigs acc₁.pending flavor'
    · exact (hrun.errors h).le
    · exact (hrun.no_errors h).ge
  have hlog : acc.log.length ≤ acc₁.log.length := by
    by_cases h : Adds check sigs acc.pending flavor
    · exact (hstep.log_of_adds h).le
    · exact (congrArg List.length (hstep.unchanged h).1).ge
  have hlog' : acc₁.log.length ≤ acc₂.log.length := by
    by_cases h : ∃ flavor' ∈ flavors, Adds check sigs acc₁.pending flavor'
    · exact (hrun.log h).le
    · exact (congrArg List.length (hrun.unchanged h).1).ge
  constructor
  · rw [exists_mem_cons_iff]
    rintro (h | h)
    · have hplus := hstep.errors_of_refuses h
      omega
    · exact lt_of_le_of_lt herrors (hrun.errors (hrefuses.mpr h))
  · rw [exists_mem_cons_iff, not_or]
    rintro ⟨h, hrest⟩
    rw [hrun.no_errors (mt hrefuses.mp hrest)]
    exact hstep.errors_of_not_refuses h
  · have h₁ := hstep.counted
    have h₂ := hrun.counted
    omega
  · rw [exists_mem_cons_iff]
    rintro (h | h)
    · exact lt_of_lt_of_le (hstep.log_of_adds h) hlog'
    · exact lt_of_le_of_lt hlog (hrun.log (hadds.mpr h))
  · rw [exists_mem_cons_iff, not_or]
    rintro ⟨h, hrest⟩
    obtain ⟨hl₁, hp₁⟩ := hstep.unchanged h
    obtain ⟨hl₂, hp₂⟩ := hrun.unchanged (mt hadds.mp hrest)
    exact ⟨hl₂.trans hl₁, hp₂.trans hp₁⟩

/-- Go through all flavors: an assertion fails for one of them, or all steps are counted. -/
lemma foldlM_addToFlavor (flavors : List ConsensusFlavor) (hnodup : flavors.Nodup)
    (acc : AllAdded) : ((∀ flavor ∈ flavors, Survives check parses sigs acc.pending flavor) →
      ∃ acc', flavors.foldlM (addToFlavor check parses sigs) acc = some acc' ∧
        FlavorRun check sigs acc acc' flavors) ∧
    ((∃ flavor ∈ flavors, ¬ Survives check parses sigs acc.pending flavor) →
      flavors.foldlM (addToFlavor check parses sigs) acc = none) := by
  induction flavors generalizing acc with
  | nil =>
    constructor
    · intro _
      refine ⟨acc, rfl, fun h => absurd h (by simp),
        fun _ => rfl, by omega, fun h => absurd h (by simp), fun _ => ?_⟩
      exact ⟨rfl, rfl⟩
    · intro h
      exact absurd h (by simp)
  | cons flavor flavors ih =>
    obtain ⟨hnot, hnodup⟩ := nodup_cons.mp hnodup
    obtain ⟨hsurvives, hfails⟩ := addToFlavor_step check parses sigs acc flavor
    by_cases h : Survives check parses sigs acc.pending flavor
    swap
    · constructor
      · intro hall
        exact absurd (hall flavor mem_cons_self) h
      · intro _
        rw [foldlM_cons, hfails h]
        rfl
    obtain ⟨acc₁, hacc₁, hstep⟩ := hsurvives h
    have hcongr : ∀ flavor' ∈ flavors,
        (Survives check parses sigs acc₁.pending flavor' ↔
          Survives check parses sigs acc.pending flavor') := by
      intro flavor' hmem
      refine (hstep.congr check parses sigs ?_).2.2
      rintro rfl
      exact hnot hmem
    obtain ⟨ihsome, ihnone⟩ := ih hnodup acc₁
    rw [foldlM_cons, hacc₁]
    constructor
    · intro hall
      obtain ⟨acc₂, hacc₂, hrun⟩ := ihsome fun flavor' hmem =>
        (hcongr flavor' hmem).mpr (hall flavor' (mem_cons_of_mem _ hmem))
      exact ⟨acc₂, hacc₂, hrun.cons check sigs hnot hstep⟩
    · rw [exists_mem_cons_iff]
      rintro (hflavor | ⟨flavor', hmem, hflavor'⟩)
      · exact absurd h hflavor
      · exact ihnone ⟨flavor', hmem, mt (hcongr flavor' hmem).mp hflavor'⟩

end Flavors

/-! ### The result -/

section Result

variable {Key : Type} (pem : PemReader Key) (check : CheckSignature) (parses : DocText → Bool)

/-- A document is for another one than each consensus that is pending, or there is none in the
text. -/
def ForOtherDocuments (pending : Pending) (detachedSignaturesBody : DocText) : Prop :=
  ∀ sigs, networkstatusParseDetachedSignatures pem detachedSignaturesBody = some sigs →
    ∀ flavor pc, pending.consensus flavor = some pc → ForOther flavor pc.consensus sigs

/-- A result is returned: a negative number, with nothing changed, for a document that is for
others, and for one that is not the number of signatures that were added. -/
def AnsweredRight (st : DirvoteState) (pending : Pending) (detachedSignaturesBody : DocText) :
    Prop :=
  ∃ r msg st' log, dirvoteAddSignatures pem check parses st detachedSignaturesBody =
    some (r, msg, st', log) ∧
    (ForOtherDocuments pem pending detachedSignaturesBody → r < 0 ∧ st' = st) ∧
    (¬ ForOtherDocuments pem pending detachedSignaturesBody → r = log.length)

lemma addToAll_of_run {pending : Pending} {detachedSignaturesBody : DocText}
    {sigs : NsDetachedSignatures}
    (hsigs : networkstatusParseDetachedSignatures pem detachedSignaturesBody = some sigs)
    {acc : AllAdded}
    (hacc : consensusFlavors.foldlM (addToFlavor check parses sigs) ⟨0, 0, none, pending, []⟩ =
      some acc) (hrun : FlavorRun check sigs ⟨0, 0, none, pending, []⟩ acc consensusFlavors) :
        ∃ r msg pending', dirvoteAddSignaturesToAllPendingConsensuses pem check parses pending
          detachedSignaturesBody = some (r, msg, pending', acc.log) ∧
      (r < 0 ↔ (∃ flavor, Refuses sigs pending flavor) ∧
        ¬ ∃ flavor, Adds check sigs pending flavor) ∧
      (0 ≤ r → r = acc.log.length) ∧ (r < 0 → pending' = pending) := by
  have hmem : ∀ flavor, flavor ∈ consensusFlavors := by
    intro flavor
    cases flavor <;> simp [consensusFlavors]
  have hcount : acc.nAdded = acc.log.length := by
    have h := hrun.counted
    dsimp only at h
    rw [length_nil] at h
    omega
  have hlog : (∃ flavor, Adds check sigs pending flavor) ↔ acc.nAdded ≠ 0 := by
    constructor
    · rintro ⟨flavor, hadds⟩
      have h := hrun.log ⟨flavor, hmem flavor, hadds⟩
      dsimp only at h
      rw [length_nil] at h
      omega
    · intro hne
      by_contra hnone
      have h := (hrun.unchanged fun ⟨flavor, _, hadds⟩ => hnone ⟨flavor, hadds⟩).1
      rw [h] at hcount
      exact hne hcount
  have herrors : (∃ flavor, Refuses sigs pending flavor) ↔ acc.errors ≠ 0 := by
    constructor
    · rintro ⟨flavor, hrefuses⟩
      exact (Nat.zero_lt_of_lt (hrun.errors ⟨flavor, hmem flavor, hrefuses⟩)).ne'
    · intro hne
      by_contra hnone
      exact hne (hrun.no_errors fun ⟨flavor, _, hrefuses⟩ => hnone ⟨flavor, hrefuses⟩)
  rw [dirvoteAddSignaturesToAllPendingConsensuses, hsigs]
  dsimp only
  rw [hacc, map_some, hlog, herrors, not_not]
  by_cases h : acc.errors ≠ 0 ∧ acc.nAdded = 0
  · rw [if_pos h]
    refine ⟨_, _, _, rfl, iff_of_true (by omega) h, fun hr => absurd hr (by omega), fun _ => ?_⟩
    refine (hrun.unchanged ?_).2
    rintro ⟨flavor, _, hadds⟩
    exact hlog.mp ⟨flavor, hadds⟩ h.2
  · rw [if_neg h]
    refine ⟨_, _, _, rfl, iff_of_false (by omega) h, fun _ => hcount, fun hr =>
      absurd hr (by omega)⟩

/-- **When a document with signatures is answered right.**  It is if there is none in the text.
Else no assertion may fail, and if the document is for others than the pending consensuses, then
some flavor has to refuse it, and none may have a signature to add; if it is for one of them, then
no flavor may refuse it, or some must have one to add. -/
theorem dirvote_add_signatures_iff (pending : Pending) (pendingList : List DocText)
    (detachedSignaturesBody : DocText) :
    AnsweredRight pem check parses ⟨some pending, pendingList⟩ pending detachedSignaturesBody ↔
      ∀ sigs, networkstatusParseDetachedSignatures pem detachedSignaturesBody = some sigs →
        (∀ flavor, Survives check parses sigs pending flavor) ∧
        ((∀ flavor pc, pending.consensus flavor = some pc → ForOther flavor pc.consensus sigs) →
          (∃ flavor, Refuses sigs pending flavor) ∧ ¬ ∃ flavor, Adds check sigs pending flavor) ∧
        ((¬ ∀ flavor pc, pending.consensus flavor = some pc → ForOther flavor pc.consensus sigs) →
          (¬ ∃ flavor, Refuses sigs pending flavor) ∨
          ∃ flavor, Adds check sigs pending flavor) := by
  unfold AnsweredRight dirvoteAddSignatures
  cases hsigs : networkstatusParseDetachedSignatures pem detachedSignaturesBody with
  | none =>
    -- the text cannot be parsed
    refine iff_of_true ?_ fun sigs hsome => absurd hsome nofun
    have hother : ForOtherDocuments pem pending detachedSignaturesBody := by
      intro sigs hsome
      rw [hsigs] at hsome
      exact absurd hsome nofun
    dsimp only
    rw [dirvoteAddSignaturesToAllPendingConsensuses, hsigs]
    exact ⟨_, _, _, _, rfl, fun _ => ⟨by omega, rfl⟩, fun h => absurd hother h⟩
  | some sigs =>
    have hother : ForOtherDocuments pem pending detachedSignaturesBody ↔
        ∀ flavor pc, pending.consensus flavor = some pc → ForOther flavor pc.consensus sigs := by
      constructor
      · intro h
        exact h sigs hsigs
      · intro h sigs' hsome
        rw [hsigs] at hsome
        obtain rfl := Option.some.inj hsome
        exact h
    have hsome : ∀ p : NsDetachedSignatures → Prop, (∀ sigs', some sigs = some sigs' → p sigs') ↔
        p sigs := by
      intro p
      constructor
      · intro h
        exact h sigs rfl
      · rintro h sigs' heq
        obtain rfl := Option.some.inj heq
        exact h
    rw [hsome, hother]
    obtain ⟨hruns, hfails⟩ :=
      foldlM_addToFlavor check parses sigs consensusFlavors (by decide) ⟨0, 0, none, pending, []⟩
    by_cases hsurvives : ∀ flavor, Survives check parses sigs pending flavor
    swap
    · -- an assertion fails
      obtain ⟨flavor, hflavor⟩ := not_forall.mp hsurvives
      have hnone := hfails ⟨flavor, by cases flavor <;> simp [consensusFlavors], hflavor⟩
      have hall : dirvoteAddSignaturesToAllPendingConsensuses pem check parses pending
          detachedSignaturesBody = none := by
        rw [dirvoteAddSignaturesToAllPendingConsensuses, hsigs]
        dsimp only
        rw [hnone]
        rfl
      refine iff_of_false ?_ fun h => hsurvives h.1
      rintro ⟨r, msg, st', log, heq, -⟩
      dsimp only at heq
      rw [hall] at heq
      exact absurd heq nofun
    obtain ⟨acc, hacc, hrun⟩ := hruns fun flavor _ => hsurvives flavor
    obtain ⟨r, msg, pending', hall, hneg, hcount, hsame⟩ :=
      addToAll_of_run pem check parses hsigs hacc hrun
    dsimp only
    rw [hall, map_some]
    constructor
    · rintro ⟨r', msg', st', log', heq, hothers, hours⟩
      simp only [Option.some.injEq, Prod.mk.injEq] at heq
      obtain ⟨rfl, -, -, rfl⟩ := heq
      refine ⟨hsurvives, fun h => hneg.mp (hothers h).1, fun h => ?_⟩
      have hr : ¬ r < 0 := by
        rw [hours h]
        omega
      rw [hneg, not_and_or, not_not] at hr
      exact hr
    · rintro ⟨-, hothers, hours⟩
      refine ⟨_, _, _, _, rfl, fun h => ?_, fun h => ?_⟩
      · have hr := hneg.mpr (hothers h)
        rw [hsame hr]
        exact ⟨hr, rfl⟩
      · apply hcount
        rw [← not_lt, hneg, not_and_or, not_not]
        exact hours h

/-- A document with times, a digest that is zero and the signature of an authority. -/
def zeroDigestBody : DocText :=
  "consensus-digest ".toList ++ replicate 40 '0' ++
    "\nvalid-after 2015-01-01 00:00:00\nfresh-until 2015-01-01 01:00:00".toList ++
    "\nvalid-until 2015-01-01 03:00:00\n".toList ++
    "directory-signature ".toList ++ replicate 40 'A' ++ ' ' :: replicate 40 'B' ++
    "\n-----BEGIN SIGNATURE-----\n".toList ++ replicate 172 'A' ++
    "\n-----END SIGNATURE-----\n".toList

/-- A consensus with the same times, whose digest is not zero, is pending. -/
def onlyNs : Pending :=
  ⟨⟨"network-status-version 3\n".toList,
    ⟨1420070400, 1420074000, 1420081200, fun _ => Vector.replicate 32 1, []⟩⟩,
    none, []⟩

def noKeys : PemReader Unit := ⟨fun _ => none, fun _ => none, fun _ => 0, fun _ => false⟩

/-- A document that is for the same times as a consensus, and has signatures but no digest. -/
def NoDigest (flavor : ConsensusFlavor) (target : Consensus) (sigs : NsDetachedSignatures) : Bool :=
  target.validAfter = sigs.validAfter && target.freshUntil = sigs.freshUntil &&
    target.validUntil = sigs.validUntil && (sigs.signatures (flavorName flavor)).isSome &&
    (sigs.digests (flavorName flavor)).any fun digests => digestAlgorithms.all fun alg =>
      torMemIsZero (digests alg)

/-- Such a document is not refused, though it is for another one. -/
lemma accepted_of_noDigest {flavor : ConsensusFlavor} {target : Consensus}
    {sigs : NsDetachedSignatures} (h : NoDigest flavor target sigs = true) :
    (∃ siglist, Accepted flavor target sigs siglist) ∧ ForOther flavor target sigs := by
  simp only [NoDigest, Bool.and_eq_true, decide_eq_true_eq] at h
  obtain ⟨⟨⟨⟨hva, hfu⟩, hvu⟩, hsig⟩, hdig⟩ := h
  obtain ⟨siglist, hsiglist⟩ := isSome_iff_exists.mp hsig
  obtain ⟨digests, hdigests, hall⟩ := (Option.any_eq_true _ _).mp hdig
  have hzero : ∀ alg, torMemIsZero (digests alg) = true := by
    intro alg
    apply List.all_eq_true.mp hall alg
    cases alg <;> simp [digestAlgorithms]
  refine ⟨⟨siglist, ⟨hva, hfu, hvu⟩, hsiglist, digests, hdigests, fun alg => .inl (hzero alg)⟩,
    .inr ?_⟩
  intro digests' hdigests' alg
  rw [hdigests] at hdigests'
  obtain rfl := some.inj hdigests'
  exact .inl (hzero alg)

/-- A document without a digest is not refused: none of its signatures is added, and this is no
error. -/
theorem not_dirvote_add_signatures :
    ¬ AnsweredRight noKeys (fun _ _ => none) (fun _ => true)
      ⟨some onlyNs, []⟩ onlyNs zeroDigestBody := by
  have hparse : (networkstatusParseDetachedSignatures noKeys zeroDigestBody).any
      (fun sigs => NoDigest .ns onlyNs.ns.consensus sigs) = true := by
    decide +kernel
  obtain ⟨sigs, hsigs, hzero⟩ := (Option.any_eq_true _ _).mp hparse
  obtain ⟨⟨siglist, haccepted⟩, hforOther⟩ := accepted_of_noDigest hzero
  have hpending : ∀ flavor pc, onlyNs.consensus flavor = some pc →
      flavor = .ns ∧ pc = onlyNs.ns := by
    intro flavor pc hpc
    cases flavor with
    | ns => exact ⟨rfl, (Option.some.inj hpc).symm⟩
    | microdesc => exact absurd hpc nofun
  have hrefuses : ¬ ∃ flavor, Refuses sigs onlyNs flavor := by
    rintro ⟨flavor, pc, hpc, hnone⟩
    obtain ⟨rfl, rfl⟩ := hpending flavor pc hpc
    exact hnone siglist haccepted
  have hadds : ∀ flavor, ¬ Adds (fun _ _ => none) sigs onlyNs flavor := by
    -- there are no voters
    rintro flavor ⟨pc, siglist', hpc, -, sig, -, i, voter, hvoter, -⟩
    obtain ⟨rfl, rfl⟩ := hpending flavor pc hpc
    exact absurd hvoter nofun
  obtain ⟨acc, hacc, hrun⟩ :=
    (foldlM_addToFlavor (fun _ _ => none) (fun _ => true) sigs consensusFlavors (by decide)
      ⟨0, 0, none, onlyNs, []⟩).1 fun flavor _ => survives_of_not_adds _ _ sigs (hadds flavor)
  obtain ⟨r', msg', pending', hall, hneg, -⟩ := addToAll_of_run noKeys _ _ hsigs hacc hrun
  rintro ⟨r, msg, st', log, heq, hothers, -⟩
  unfold dirvoteAddSignatures at heq
  dsimp only at heq
  rw [hall, map_some] at heq
  simp only [Option.some.injEq, Prod.mk.injEq] at heq
  obtain ⟨rfl, -⟩ := heq
  refine hrefuses (hneg.mp (hothers ?_).1).1
  intro sigs' hsigs' flavor pc hpc
  rw [hsigs] at hsigs'
  obtain rfl := Option.some.inj hsigs'
  obtain ⟨rfl, rfl⟩ := hpending flavor pc hpc
  exact hforOther

end Result

end Astoria.Detached
