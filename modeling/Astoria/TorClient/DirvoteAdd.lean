import Mathlib.Data.List.Infix

/-!
# Adding votes

A directory authority stores the votes that it receives from the other authorities.  The body of one
posting may hold several vote documents, one after another, and the loop of `dirvote_add_vote` goes
through them.  The end of a document comes from the parser, which does not report it for a document
that it rejects.

The parser itself is a parameter, except for how it finds the end of a document.
-/

namespace Astoria

open List

/-- The text of a document. -/
abbrev DocText := List Char

abbrev Digest := ℕ

/-- A vote that the parser accepted.  It has one voter, with a good signature, and the certificate
is the voter's. -/
structure NetworkstatusVote where
  voterIdentity : Digest
  certIdentity : Digest
  identity_eq : voterIdentity = certIdentity
  voteDigest : Digest
  published : ℤ
  validAfter : ℤ

/-- A vote that is stored, with its text. -/
structure PendingVote where
  vote : NetworkstatusVote
  voteBody : DocText

/-- The keyword with which a document starts. -/
def networkStatusVersionKeyword : DocText := "network-status-version".toList

/-- The keyword with the space after it. -/
def networkStatusVersion : DocText := networkStatusVersionKeyword ++ [' ']

/-! ### The end of a document -/

/-- The index of the first occurrence of a pattern (`strstr`, `tor_memstr`). -/
def strIndex (pattern : DocText) : DocText → Option ℕ
  | [] => none
  | c :: s => if pattern.isPrefixOf (c :: s) then some 0 else (strIndex pattern s).map (· + 1)

/-- The length of the entry at the start of a text (`find_start_of_next_routerstatus`). -/
def findStartOfNextRouterstatus (s : DocText) : ℕ :=
  let eos := ((strIndex "\nr ".toList s).map (· + 1)).getD s.length
  let footer := strIndex "\ndirectory-footer".toList (s.take eos)
  let sig := strIndex "\ndirectory-signature".toList (s.take eos)
  match footer, sig with
  | some i, some j => min i j + 1
  | some i, none => i + 1
  | none, some j => j + 1
  | none, none => eos

/-- A pattern that starts with a newline is not found within a line. -/
lemma strIndex_append {pattern line : DocText} (h : '\n' ∉ line) (s : DocText) :
    strIndex ('\n' :: pattern) (line ++ s) = (strIndex ('\n' :: pattern) s).map
      (· + line.length) := by
  induction line with
  | nil => simp
  | cons c line ih =>
    have hc : '\n' ≠ c := fun hc => h (hc ▸ mem_cons_self)
    have hpre : ('\n' :: pattern).isPrefixOf (c :: (line ++ s)) = false := by
      rw [isPrefixOf_cons_cons, beq_false_of_ne hc, Bool.false_and]
    rw [cons_append, strIndex, hpre, ih fun hmem => h (mem_cons_of_mem c hmem)]
    cases strIndex ('\n' :: pattern) s with
    | none => rfl
    | some i => simp only [Bool.false_eq_true, if_false, Option.map_some, length_cons]; rfl

/-- The text behind the entries that a text starts with, of which at most a given number are left
out. -/
def skipEntries : ℕ → DocText → DocText
  | 0, s => s
  | n + 1, s =>
    if "r ".toList.isPrefixOf s then skipEntries n (s.drop (findStartOfNextRouterstatus s)) else s

/-- The text behind the header and the entries.  There are no more entries than characters. -/
def behindEntries (s : DocText) : DocText :=
  skipEntries s.length (s.drop (findStartOfNextRouterstatus s))

/-- The text after the first newline with which a pattern starts, or the end of the text. -/
def afterNewline (pattern : DocText) : DocText → DocText
  | [] => []
  | c :: s => if pattern.isPrefixOf (c :: s) then s else afterNewline pattern s

/-- What the parser reports as the end of a document: the start of the next one behind the entries,
or the end of the text (`end_of_footer`). -/
def endOfFooter (s : DocText) : DocText :=
  afterNewline ('\n' :: networkStatusVersion) (behindEntries s)

/-! ### The loop -/

/-- The ways in which one pass of the loop can end. -/
inductive AddVoteOutcome
  | unparsable | unrecognized | badTime | same | replaced | newer | added
  deriving DecidableEq

/-- What is known about the votes to come. -/
structure VoteRules where
  /-- The vote in a text, if the parser accepts it. -/
  parse : DocText → Option NetworkstatusVote
  /-- The identity of a recognized authority. -/
  recognized : Digest → Bool
  /-- The start of the interval for which votes are accepted. -/
  intervalStarts : ℤ

section Add

variable (rules : VoteRules)

/-- The stored vote of an authority. -/
def findPendingVote (pendingVoteList : List PendingVote) (identity : Digest) : Option PendingVote :=
  pendingVoteList.find? fun v => v.vote.certIdentity == identity

/-- The stored vote of an authority is replaced. -/
def replacePendingVote (pendingVoteList : List PendingVote) (new : PendingVote) :
    List PendingVote :=
  pendingVoteList.lookmap fun v =>
    if v.vote.certIdentity = new.vote.certIdentity then some new else none

/-- One pass of the loop, from the label `again` on: the new list of votes, how the pass ends, and
the text with which the loop goes on. -/
def dirvoteAddVotePass (pendingVoteList : List PendingVote) (voteBody : DocText) :
    List PendingVote × AddVoteOutcome × Option DocText :=
  match rules.parse voteBody with
  | none => (pendingVoteList, .unparsable, none)
  | some vote =>
    let endOfVote := endOfFooter voteBody
    let next := if networkStatusVersion.isPrefixOf endOfVote then some endOfVote else none
    let pendingVote : PendingVote := ⟨vote, voteBody.take (voteBody.length - endOfVote.length)⟩
    if !rules.recognized vote.voterIdentity then (pendingVoteList, .unrecognized, next)
    else if vote.validAfter ≠ rules.intervalStarts then (pendingVoteList, .badTime, next)
    else
      match findPendingVote pendingVoteList vote.certIdentity with
      | some v =>
        if v.vote.voteDigest = vote.voteDigest then (pendingVoteList, .same, next)
        else if v.vote.published < vote.published then
          -- if another document follows, the loop goes on with the same text
          (replacePendingVote pendingVoteList pendingVote, .replaced,
            if networkStatusVersionKeyword.isPrefixOf endOfVote then some voteBody else none)
        else (pendingVoteList, .newer, next)
      | none => (pendingVoteList ++ [pendingVote], .added, next)

/-- The reply to the authority that has posted the votes. -/
structure AddVoteReply where
  msgOut : Option String
  statusOut : ℕ
  anyFailed : Bool
  /-- A vote was added, or, in the end, a stored vote is returned. -/
  pendingVote : Bool

/-- A document was rejected. -/
def AddVoteReply.fail (r : AddVoteReply) (msg : String) : AddVoteReply :=
  { r with msgOut := some msg, statusOut := max r.statusOut 400, anyFailed := true }

/-- The reply so far after one more pass. -/
def AddVoteReply.record (r : AddVoteReply) : AddVoteOutcome → AddVoteReply
  | .unparsable => r.fail "Unable to parse vote"
  | .unrecognized => r.fail "Vote not from a recognized v3 authority"
  | .badTime => r.fail "Bad valid-after time"
  | .same => { r with statusOut := max r.statusOut 200 }
  | .replaced => r
  | .newer => r.fail "Already have a newer pending vote"
  | .added => { r with pendingVote := true }

/-- The reply after the last pass. -/
def AddVoteReply.done (r : AddVoteReply) (outcome : AddVoteOutcome) : AddVoteReply :=
  { r with
    statusOut := max r.statusOut 200
    msgOut := some (r.msgOut.getD (
      if outcome = .replaced then "OK"
      else if !r.anyFailed && !r.pendingVote then "Duplicate discarded"
      else "ok"))
    pendingVote := decide (outcome = .replaced) || (!r.anyFailed && r.pendingVote) }

/-- The passes of the loop, at most a given number of them. -/
def dirvoteAddVoteLoop :
    ℕ → List PendingVote → AddVoteReply → DocText → Option (List PendingVote × AddVoteReply)
  | 0, _, _, _ => none
  | n + 1, pendingVoteList, r, voteBody =>
    let (pendingVoteList, outcome, next) := dirvoteAddVotePass rules pendingVoteList voteBody
    let r := r.record outcome
    match next with
    | none => some (pendingVoteList, r.done outcome)
    | some voteBody => dirvoteAddVoteLoop n pendingVoteList r voteBody

/-- The votes of one posting are parsed and stored.  There are at most two passes for each
document. -/
def dirvoteAddVote (pendingVoteList : List PendingVote) (voteBody : DocText) :
    Option (List PendingVote × AddVoteReply) :=
  dirvoteAddVoteLoop rules (2 * voteBody.length + 2) pendingVoteList
    ⟨none, 0, false, false⟩ voteBody

/-- The postings, one after another. -/
def dirvoteAddVotes (pendingVoteList : List PendingVote) (bodies : List DocText) :
    Option (List PendingVote) :=
  bodies.foldlM (fun l body => (dirvoteAddVote rules l body).map (·.1)) pendingVoteList

end Add

end Astoria
