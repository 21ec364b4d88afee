import Mathlib
import Astoria.Library.HashChains
import Astoria.TorClient.SplitIpaddr

/-!
# The AS of an address

`do_whois` keeps a table of texts: the prefixes of the AS map with their ASes, and the addresses
that were asked for with the answers they got.  For a new address it makes the keys of the prefixes
of the lengths 31 down to 4, by clearing the bits at the end of the address in text, and looks for
them.

The text of a key is in an array of `ip_tostring`, which is gone when the function has returned its
address.  Reading the key is therefore an error, as are writes behind the buffers of `split_ipaddr`.
An answer is given only if there is no map or if the text itself is in the table
(`doWhois_eq_some_iff`), which an address never is (`not_whoisLaw_of_isDottedQuad`).
-/

namespace Astoria.Whois

open List Option

/-! ### The table -/

/-- The number of chains (`HASHSIZE`). -/
def hashSize : ℕ := 10000000

/-- The value of a `char`, which has a sign, as an unsigned number. -/
def signedChar (c : Char) : ℕ := if c.toNat < 128 then c.toNat else 2 ^ 32 - 256 + c.toNat

/-- The hash value of a text. -/
def hash (s : DocText) : ℕ :=
  s.foldl (fun hashval c => (signedChar c + 31 * hashval) % 2 ^ 32) 0 % hashSize

/-- The table from texts to ASes. -/
abbrev Hashtab := ℕ → List (DocText × DocText)

/-- Look for a text in the table. -/
def lookup (tab : Hashtab) (s : DocText) : Option DocText := HashChains.lookup hash tab s

/-- Put a text into the table. -/
def install (tab : Hashtab) (name defn : DocText) : Hashtab := HashChains.install hash tab name defn

/-- The table before anything is put into it. -/
def emptyTab : Hashtab := fun _ => []

/-- Put the lines of the AS map into the table: each one has an AS and a prefix. -/
def load (tab : Hashtab) (database : List (DocText × DocText)) : Hashtab :=
  HashChains.installAll hash tab (database.map fun line => (line.2, line.1))

/-! ### Prefixes in text -/

def bitChar (b : Bool) : Char := if b then '1' else '0'

/-- The low eight bits of a number. -/
def int2bin (i : ℤ) : DocText :=
  (range 8).map fun k => bitChar ((i % 2 ^ 32).toNat.testBit (7 - k))

/-- The number of eight bits. -/
def bin2int (bin : DocText) : ℕ :=
  ((range 8).map fun k => if bin[k]? = some '1' then 2 ^ (7 - k) else 0).sum

/-- The address of a local array of a function that has returned, with the text that it held. -/
structure ReturnedText where
  text : DocText

/-- What a caller reads at the address of such an array: its lifetime has ended. -/
def ReturnedText.read (_ : ReturnedText) : Option DocText := none

/-- The text of a prefix, in an array of the function itself. -/
def ipTostring (ip : ℕ → ℕ) (suffix : ℕ) : ReturnedText :=
  ⟨Nat.toDigits 10 (ip 0) ++ '.' :: (Nat.toDigits 10 (ip 1) ++ '.' :: (Nat.toDigits 10 (ip 2) ++
    '.' :: (Nat.toDigits 10 (ip 3) ++ '/' :: Nat.toDigits 10 suffix)))⟩

/-- Clear as many bits as are given, in a text that is read from its end. -/
def clearBits : DocText → ℕ → DocText
  | [], _ => []
  | s, 0 => s
  | c :: s, n + 1 => if c ≠ '.' then '0' :: clearBits s n else c :: clearBits s (n + 1)

/-- The text of the prefix without the last bits of an address, where `ip_tostring` left it. -/
def formcidrstring (binary : DocText) (suffix : ℕ) : ReturnedText :=
  let copyBin := (clearBits binary.reverse suffix).reverse
  ipTostring (fun i => bin2int ((copyBin.drop (i + i * 8)).take 8)) (32 - suffix)

/-- The bits of an octet of an address, unless its text is written behind the buffers. -/
def octetBinary (frame : Frame) (ip1 : DocText) (i : ℕ) : Option DocText :=
  if (scanText frame ip1).InBounds then some (int2bin (splitIpaddr frame ip1 i)) else none

/-- The bits of an address, with dots between its octets. -/
def ipBinary (frames : ℕ → Frame) (ip1 : DocText) : Option DocText := do
  let b0 ← octetBinary (frames 0) ip1 0
  let b1 ← octetBinary (frames 1) ip1 1
  let b2 ← octetBinary (frames 2) ip1 2
  let b3 ← octetBinary (frames 3) ip1 3
  pure (b0 ++ '.' :: (b1 ++ '.' :: (b2 ++ '.' :: b3)))

/-! ### Asking for an address -/

/-- The key by which the table is known to be loaded. -/
def testKey : DocText := "24.75.21.0/24".toList

/-- The answer for an address without an AS. -/
def noAs : DocText := "-1".toList

/-- The answer if the AS map cannot be opened. -/
def noDatabase : DocText := "1".toList

/-- Load the AS map unless it is there. -/
def loaded (database : Option (List (DocText × DocText))) (tab : Hashtab) : Option Hashtab :=
  if (lookup tab testKey).isNone then database.map (load tab) else some tab

/-- The first of the prefixes without so many bits that is in the table.  It fails if a key cannot
be read. -/
def findPrefix (tab : Hashtab) (binary : DocText) : List ℕ → Option (Option DocText)
  | [] => some none
  | suffix :: suffixes => do
    let key ← (formcidrstring binary suffix).read
    match lookup tab key with
    | some defn => pure (some defn)
    | none => findPrefix tab binary suffixes

/-- The AS of an address, and the table with the answer.  It fails if the call reads or writes
outside of the memory of its variables. -/
def doWhois (database : Option (List (DocText × DocText))) (frames : ℕ → Frame) (tab : Hashtab)
    (ip1 : DocText) : Option (DocText × Hashtab) :=
  match loaded database tab with
  | none => some (noDatabase, tab)
  | some tab =>
    match lookup tab ip1 with
    | some defn => some (defn, tab)
    | none => do
      let binary ← ipBinary frames ip1
      match ← findPrefix tab binary (range' 1 28) with
      | some defn => pure (defn, install tab ip1 defn)
      | none => pure (noAs, install tab ip1 noAs)

/-- **When an answer is given**: there is no map, or the text is in the table. -/
theorem doWhois_eq_some_iff {database : Option (List (DocText × DocText))} {frames : ℕ → Frame}
    {tab : Hashtab} {ip1 : DocText} {r : DocText × Hashtab} :
    doWhois database frames tab ip1 = some r ↔
      (loaded database tab = none ∧ r = (noDatabase, tab)) ∨
        ∃ tab' defn, loaded database tab = some tab' ∧ lookup tab' ip1 = some defn ∧
          r = (defn, tab') := by
  unfold doWhois
  cases loaded database tab with
  | none => simp [eq_comm]
  | some tab' =>
    cases hl : lookup tab' ip1 with
    | some defn => simp [hl, eq_comm]
    | none =>
      -- the first key cannot be read
      have hfind (binary : DocText) : findPrefix tab' binary (range' 1 28) = none := rfl
      simp [hl, hfind]

/-! ### The meaning of the table -/

/-- A prefix of addresses in canonical form: the bits behind its length are zero. -/
structure Cidr where
  bits : ℕ
  len : ℕ
  len_pos : 1 ≤ len
  len_le : len ≤ 32
  bits_lt : bits < 2 ^ 32
  host : bits % 2 ^ (32 - len) = 0
  deriving DecidableEq

def octet (a : ℕ) (i : ℕ) : ℕ := a / 2 ^ (24 - 8 * i) % 2 ^ 8

/-- The key of a prefix in the AS map. -/
def Cidr.text (p : Cidr) : DocText := (ipTostring (octet p.bits) p.len).text

/-- The address begins with the prefix. -/
def Cidr.Covers (p : Cidr) (a : ℕ) : Prop := a / 2 ^ (32 - p.len) = p.bits / 2 ^ (32 - p.len)

/-- A line of the AS map: a prefix with its AS. -/
structure Row where
  as : DocText
  cidr : Cidr
  as_ne : as ≠ noAs
  deriving DecidableEq

/-- The lines as they are read. -/
def databaseOf (rows : List Row) : List (DocText × DocText) :=
  rows.map fun row => (row.as, row.cidr.text)

/-- The AS of a prefix: that of its last line. -/
def asOf (rows : List Row) (p : Cidr) : Option DocText :=
  HashChains.lastOf (rows.map fun row => (row.cidr, row.as)) p

/-- The longest prefix that covers an address, and its AS. -/
structure IsLongest (rows : List Row) (a : ℕ) (p : Cidr) (as : DocText) : Prop where
  asOf_eq : asOf rows p = some as
  covers : p.Covers a
  longest : ∀ row ∈ rows, row.cidr.Covers a → row.cidr.len ≤ p.len

/-- A call, with what is on the stack. -/
structure Call where
  frames : ℕ → Frame
  text : DocText

/-- The table after some calls. -/
def tableAfter (database : List (DocText × DocText)) (calls : List Call) : Option Hashtab :=
  calls.foldlM (fun tab call => (doWhois (some database) call.frames tab call.text).map Prod.snd)
    emptyTab

/-- The law of the answers: there is one, it is the AS of the longest prefix of the map that covers
the address, it is the one for addresses without an AS exactly if there is none, and the first call
would get it as well. -/
def WhoisLaw (rows : List Row) (calls : List Call) (frames : ℕ → Frame) (t : DocText) (a : ℕ) :
    Prop :=
  ∃ tab answer tab', tableAfter (databaseOf rows) calls = some tab ∧
    doWhois (some (databaseOf rows)) frames tab t = some (answer, tab') ∧
    (∀ p as, IsLongest rows a p as → answer = as) ∧
    (answer = noAs ↔ ∀ row ∈ rows, ¬ row.cidr.Covers a) ∧
    (doWhois (some (databaseOf rows)) frames emptyTab t).map Prod.fst = some answer

section Law

variable {rows : List Row} {calls : List Call} {frames : ℕ → Frame} {tab tab' : Hashtab}
  {octets : Fin 4 → ℕ} {s t : DocText}

lemma Cidr.slash_mem_text (p : Cidr) : '/' ∈ p.text := by simp [Cidr.text, ipTostring]

lemma IsDottedQuad.slash_notMem (h : IsDottedQuad t octets) : '/' ∉ t := by
  obtain ⟨labels, hlabels, rfl⟩ := h
  have hnot (i : Fin 4) : '/' ∉ labels i :=
    fun hmem => absurd ((hlabels i).digits _ hmem) (by decide)
  simp [hnot]

/-- All texts in the table are keys of prefixes. -/
def OnlyPrefixes (tab : Hashtab) : Prop := ∀ s, (lookup tab s).isSome → ∃ p : Cidr, s = p.text

lemma onlyPrefixes_emptyTab : OnlyPrefixes emptyTab := nofun

lemma OnlyPrefixes.loaded (h : OnlyPrefixes tab)
    (hload : loaded (some (databaseOf rows)) tab = some tab') : OnlyPrefixes tab' := by
  unfold Whois.loaded at hload
  split at hload
  · obtain rfl := Option.some.inj hload
    intro s hs
    rw [lookup, load, HashChains.lookup_installAll, isSome_or, Bool.or_eq_true] at hs
    rcases hs with hs | hs
    · obtain ⟨as, has⟩ := isSome_iff_exists.mp hs
      have hmem := HashChains.mem_of_lastOf has
      rw [databaseOf, List.map_map] at hmem
      obtain ⟨row, -, heq⟩ := List.mem_map.mp hmem
      exact ⟨row.cidr, (Prod.mk.inj heq).1.symm⟩
    · exact h s hs
  · obtain rfl := Option.some.inj hload
    exact h

/-- A call puts nothing but the map into the table. -/
lemma OnlyPrefixes.doWhois {r : DocText × Hashtab} (h : OnlyPrefixes tab)
    (hask : doWhois (some (databaseOf rows)) frames tab s = some r) : OnlyPrefixes r.2 := by
  rcases doWhois_eq_some_iff.mp hask with ⟨-, rfl⟩ | ⟨tab', defn, hload, -, rfl⟩
  · exact h
  · exact h.loaded hload

lemma onlyPrefixes_tableAfter (h : tableAfter (databaseOf rows) calls = some tab) :
    OnlyPrefixes tab := by
  induction calls using reverseRecOn generalizing tab with
  | nil =>
    obtain rfl := Option.some.inj h
    exact onlyPrefixes_emptyTab
  | append_singleton calls call ih =>
    rw [tableAfter, foldlM_append] at h
    obtain ⟨tab₁, hcalls, h⟩ := bind_eq_some_iff.mp h
    rw [foldlM_cons] at h
    obtain ⟨tab₂, hcall, h⟩ := bind_eq_some_iff.mp h
    obtain rfl := Option.some.inj h
    obtain ⟨r, hask, rfl⟩ := map_eq_some_iff.mp hcall
    exact (ih hcalls).doWhois hask

/-- **The law never holds**: whatever the map is and whatever was asked before, a call for an
address has to read the key of a prefix. -/
theorem not_whoisLaw_of_isDottedQuad (hquad : IsDottedQuad t octets) :
    ¬ WhoisLaw rows calls frames t (addressOf octets) := by
  rintro ⟨tab, answer, tab', htable, hask, -⟩
  rcases doWhois_eq_some_iff.mp hask with ⟨hnone, -⟩ | ⟨tab₁, defn, hload, hlook, -⟩
  · unfold loaded at hnone
    split at hnone <;> cases hnone
  · -- the address would have to be the key of a prefix
    obtain ⟨p, rfl⟩ := (onlyPrefixes_tableAfter htable).loaded hload t (by rw [hlook]; rfl)
    exact hquad.slash_notMem p.slash_mem_text

lemma isOctet_toDigits {v : ℕ} (hv : v ≤ 255) : IsOctet (Nat.toDigits 10 v) v :=
  ⟨Nat.toDigits_ne_nil, fun _ hc => isDigit_of_mem_toDigits hc, digitsValue_toDigits v, hv⟩

lemma isDottedQuad_toDigits (h : ∀ i, octets i ≤ 255) :
    IsDottedQuad (Nat.toDigits 10 (octets 0) ++ '.' :: (Nat.toDigits 10 (octets 1) ++ '.' ::
      (Nat.toDigits 10 (octets 2) ++ '.' :: Nat.toDigits 10 (octets 3)))) octets :=
  ⟨fun i => Nat.toDigits 10 (octets i), fun i => isOctet_toDigits (h i), rfl⟩

/-- The map with the line "19281 9.9.9.0/24". -/
def quad9Rows : List Row :=
  [⟨"19281".toList, ⟨9 * 2 ^ 24 + 9 * 2 ^ 16 + 9 * 2 ^ 8, 24, by decide, by decide, by decide,
    by decide⟩, by decide⟩]

/-- An address in a map with one prefix, after a call for the key of that prefix. -/
theorem not_whoisLaw_quad9_asked :
    ¬ WhoisLaw quad9Rows [⟨fun _ => ⟨fun _ => 0, []⟩, "9.9.9.0/24".toList⟩]
      (fun _ => ⟨fun _ => 0, []⟩) "9.9.9.9".toList (addressOf fun _ => 9) :=
  not_whoisLaw_of_isDottedQuad (isDottedQuad_toDigits fun _ => by decide)

/-- The first call for an address that the only prefix of the map covers gets no answer, although
the octets of the address fit their buffers. -/
theorem not_whoisLaw :
    IsLongest quad9Rows (addressOf fun _ => 9)
      ⟨9 * 2 ^ 24 + 9 * 2 ^ 16 + 9 * 2 ^ 8, 24, by decide, by decide, by decide, by decide⟩
      "19281".toList ∧
    (ipBinary (fun _ => ⟨fun _ => 0, []⟩) "9.9.9.9".toList).isSome ∧
    (doWhois (some (databaseOf quad9Rows)) (fun _ => ⟨fun _ => 0, []⟩) emptyTab
      "9.9.9.9".toList).isNone ∧
    ¬ WhoisLaw quad9Rows [] (fun _ => ⟨fun _ => 0, []⟩) "9.9.9.9".toList
      (addressOf fun _ => 9) := by
  have hnone : doWhois (some (databaseOf quad9Rows)) (fun _ => ⟨fun _ => 0, []⟩) emptyTab
      "9.9.9.9".toList = none := by
    decide +kernel
  refine ⟨⟨by decide, by unfold Cidr.Covers addressOf; decide, fun row hrow _ => ?_⟩,
    by decide +kernel, by rw [hnone]; rfl, ?_⟩
  · rw [mem_singleton.mp hrow]
  · rintro ⟨tab, answer, tab', htable, hask, -⟩
    obtain rfl := Option.some.inj htable
    rw [hnone] at hask
    cases hask

end Law

end Astoria.Whois
