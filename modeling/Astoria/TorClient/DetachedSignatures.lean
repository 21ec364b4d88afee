import Astoria.TorClient.EntryGuards
import Astoria.TorClient.Tokenizer

/-!
# Documents with detached signatures

Once an authority has computed a consensus, it gets the signatures of the others in documents of
their own.  Such a document says which consensus it is for, with its times and with digests of its
flavors, and has the signatures on each flavor.
-/

namespace Astoria.Detached

open Function
open Tokenizer (DirectoryKeyword DirTokenRule DirToken PemReader nul)
open EntryGuards (Identity hexDigestLen decodeIdentity)

/-! ### Digests and signatures -/

/-- The algorithms for digests (`digest_algorithm_t`). -/
inductive DigestAlgorithm
  | sha1 | sha256
  deriving DecidableEq

def digestAlgorithms : List DigestAlgorithm := [.sha1, .sha256]

/-- The algorithm with a name (`crypto_digest_algorithm_parse_name`). -/
def cryptoDigestAlgorithmParseName (name : DocText) : Option DigestAlgorithm :=
  if name = "sha1".toList then some .sha1 else if name = "sha256".toList then some .sha256 else none

/-- The name of an algorithm (`crypto_digest_algorithm_get_name`). -/
def cryptoDigestAlgorithmGetName : DigestAlgorithm → DocText
  | .sha1 => "sha1".toList
  | .sha256 => "sha256".toList

/-- Space for a digest (`DIGEST256_LEN` bytes), which is zero if there is none. -/
abbrev Digest256 := Vector UInt8 32

/-- Some bytes that are all zero (`tor_mem_is_zero`). -/
def torMemIsZero (d : Digest256) : Bool := d.toList.all (· = 0)

/-- The digests of a document (`digests_t`). -/
abbrev Digests := DigestAlgorithm → Digest256

/-- A signature (`document_signature_t`). -/
structure DocumentSignature where
  alg : DigestAlgorithm
  identityDigest : Identity
  signingKeyDigest : Identity
  signature : Option (List ℕ)
  badSignature : Bool
  goodSignature : Bool
  deriving DecidableEq

/-- What a document with detached signatures says, for each flavor (`ns_detached_signatures_t`). -/
structure NsDetachedSignatures where
  validAfter : ℕ
  freshUntil : ℕ
  validUntil : ℕ
  digests : DocText → Option Digests
  signatures : DocText → Option (List DocumentSignature)

/-! ### The tokens -/

section Keywords

/-- The keyword of digests of the consensus (`K_CONSENSUS_DIGEST`). -/
def kConsensusDigest : DirectoryKeyword := .other 0

/-- The keyword of digests of other flavors (`K_ADDITIONAL_DIGEST`). -/
def kAdditionalDigest : DirectoryKeyword := .other 1

/-- The keyword of the time from which on the consensus is valid (`K_VALID_AFTER`). -/
def kValidAfter : DirectoryKeyword := .other 2

/-- The keyword of the time up to which the consensus is fresh (`K_FRESH_UNTIL`). -/
def kFreshUntil : DirectoryKeyword := .other 3

/-- The keyword of the time up to which the consensus is valid (`K_VALID_UNTIL`). -/
def kValidUntil : DirectoryKeyword := .other 4

/-- The keyword of signatures on other flavors (`K_ADDITIONAL_SIGNATURE`). -/
def kAdditionalSignature : DirectoryKeyword := .other 5

/-- The keyword of signatures on the consensus (`K_DIRECTORY_SIGNATURE`). -/
def kDirectorySignature : DirectoryKeyword := .other 6

/-- The number that stands for no bound (`INT_MAX`). -/
def intMax : ℕ := 2 ^ 31 - 1

/-- The rules for documents with detached signatures
(`networkstatus_detached_signature_token_table`). -/
def networkstatusDetachedSignatureTokenTable : List DirTokenRule :=
  [⟨"consensus-digest".toList, kConsensusDigest, 1, intMax, false, .noObj, 1, 1, true, false⟩,
    ⟨"additional-digest".toList, kAdditionalDigest, 3, intMax, false, .noObj, 0, intMax,
      false, false⟩,
    ⟨"valid-after".toList, kValidAfter, 1, 1, true, .noObj, 1, 1, false, false⟩,
    ⟨"fresh-until".toList, kFreshUntil, 1, 1, true, .noObj, 1, 1, false, false⟩,
    ⟨"valid-until".toList, kValidUntil, 1, 1, true, .noObj, 1, 1, false, false⟩,
    ⟨"additional-signature".toList, kAdditionalSignature, 4, intMax, false, .needObj, 0, intMax,
      false, false⟩,
    ⟨"directory-signature".toList, kDirectorySignature, 2, intMax, false, .needObj, 1, intMax,
      false, false⟩]

end Keywords

/-! ### The parser -/

section Parser

variable {Key : Type}

/-- The name of the flavor of consensuses with all entries. -/
def flavorNs : DocText := "ns".toList

/-- The digest in a text of hexadecimal digits; bytes that are missing are zero
(`base16_decode`). -/
def decodeDigest256 (s : DocText) : Option Digest256 :=
  (base16Decode s).map fun bytes => Vector.ofFn fun i => UInt8.ofNat (bytes.getD i 0)

/-- The number of digits of a digest (`HEX_DIGEST_LEN` and `HEX_DIGEST256_LEN`). -/
def hexLen : DigestAlgorithm → ℕ
  | .sha1 => 40
  | .sha256 => 64

/-- The flavor, the algorithm and the digits of a token with a digest, if it is one. -/
def digestToken (tok : DirToken Key) : Option (DocText × DigestAlgorithm × DocText) :=
  if tok.tp = kConsensusDigest then some (flavorNs, .sha1, tok.args.getD 0 [])
  else if tok.tp = kAdditionalDigest then
    (cryptoDigestAlgorithmParseName (tok.args.getD 1 [])).map fun alg =>
      (tok.args.getD 0 [], alg, tok.args.getD 2 [])
  else none

/-- Take the digest of a token.  Of several digests of one kind, the first one counts. -/
def addDigest (digests : DocText → Option Digests) (tok : DirToken Key) :
    Option (DocText → Option Digests) :=
  match digestToken tok with
  | none => some digests
  | some (flavor, alg, hexdigest) =>
    if hexdigest.length ≠ hexLen alg then none
    else
      let known : Digests := (digests flavor).getD fun _ => Vector.replicate 32 0
      if torMemIsZero (known alg) then
        (decodeDigest256 hexdigest).map fun d => update digests flavor (some (update known alg d))
      else some digests

/-- The flavor, the algorithm and the digests of keys of a token with a signature, if it is one. -/
def signatureToken (tok : DirToken Key) : Option (DocText × DigestAlgorithm × DocText × DocText) :=
  if tok.tp = kDirectorySignature then
    some (flavorNs, .sha1, tok.args.getD 0 [], tok.args.getD 1 [])
  else if tok.tp = kAdditionalSignature then
    (cryptoDigestAlgorithmParseName (tok.args.getD 1 [])).map fun alg =>
      (tok.args.getD 0 [], alg, tok.args.getD 2 [], tok.args.getD 3 [])
  else none

/-- The digest of a key in a text of the right length. -/
def decodeKeyDigest (s : DocText) : Option Identity :=
  if s.length ≠ hexDigestLen then none else decodeIdentity s

/-- Take the signature of a token.  A second one by the same keys is left out. -/
def addSignature (signatures : DocText → Option (List DocumentSignature)) (tok : DirToken Key) :
    Option (DocText → Option (List DocumentSignature)) :=
  match signatureToken tok with
  | none => some signatures
  | some (flavor, alg, idHexdigest, skHexdigest) => do
    let body := tok.objectBody.getD []
    if tok.objectType ≠ some "SIGNATURE".toList ∨ body.length < 128 ∨ 512 < body.length then none
    else
      let idDigest ← decodeKeyDigest idHexdigest
      let skDigest ← decodeKeyDigest skHexdigest
      let siglist := (signatures flavor).getD []
      let isDuplicate := siglist.any fun dsig =>
        dsig.alg = alg ∧ dsig.identityDigest = idDigest ∧ dsig.signingKeyDigest = skDigest
      let sig : DocumentSignature := ⟨alg, idDigest, skDigest, some body, false, false⟩
      some (update signatures flavor (some (if isDuplicate then siglist else siglist ++ [sig])))

def timeOfToken (tokens : List (DirToken Key)) (keyword : DirectoryKeyword) : Option ℕ := do
  let tok ← tokens.find? fun tok => tok.tp = keyword
  parseIsoTime (tok.args.getD 0 [])

/-- What some tokens say. -/
def detachedSignaturesOfTokens (tokens : List (DirToken Key)) : Option NsDetachedSignatures := do
  let digests ← tokens.foldlM addDigest fun _ => none
  let validAfter ← timeOfToken tokens kValidAfter
  let freshUntil ← timeOfToken tokens kFreshUntil
  let validUntil ← timeOfToken tokens kValidUntil
  let signatures ← tokens.foldlM addSignature fun _ => none
  some ⟨validAfter, freshUntil, validUntil, digests, signatures⟩

/-- The document in a text (`networkstatus_parse_detached_signatures`). -/
def networkstatusParseDetachedSignatures (pem : PemReader Key) (s : DocText) :
    Option NsDetachedSignatures := do
  let result ← Tokenizer.tokenizeString pem networkstatusDetachedSignatureTokenTable
    (fun p => s.getD p nul) 0 s.length [] ⟨false, false, false⟩
  if result.accepted then detachedSignaturesOfTokens result.out else none

end Parser

end Astoria.Detached
