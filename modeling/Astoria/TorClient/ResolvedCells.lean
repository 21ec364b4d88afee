import Astoria.Library.BigEndian
import Astoria.TorClient.OnionCells

/-!
# Answers in resolved cells

A resolved cell has records, one after another: a type, the length of a value, the value and a time
to live.  The parser moves a cursor over as many bytes as the cell declares, and keeps the addresses
and host names and the last error.  If a record is malformed or not complete, nothing is kept.

`resolvedCellParse_exact` says what it returns in terms of the records.
-/

namespace Astoria.ResolvedCells

open Option Function
open List hiding Vector Vector.ext Vector.ofFn
open ByteBuffer BigEndian

/-! ### The code -/

def resolvedTypeHostname : UInt8 := 0
def resolvedTypeIpv4 : UInt8 := 4
def resolvedTypeIpv6 : UInt8 := 6
def resolvedTypeErrorTransient : UInt8 := 0xF0
def resolvedTypeError : UInt8 := 0xF1

/-- An address, with the bytes in the order of the network. -/
inductive Addr
  | unspec
  | ipv4 (bytes : Vector UInt8 4)
  | ipv6 (bytes : Vector UInt8 16)
  deriving DecidableEq

/-- An address or a host name with its time to live. -/
structure AddressTtl where
  addr : Addr
  hostname : Option (List UInt8)
  ttl : Int32
  deriving DecidableEq

/-- Why the parser stops early. -/
inductive ParseAbort
  /-- The cell is malformed. -/
  | err
  /-- An assertion fails. -/
  | assertion
  /-- There were more rounds than bytes. -/
  | outOfRounds
  deriving DecidableEq

/-- The bytes at a place. -/
def bytesAt (p : Buffer) (i n : ℕ) : List UInt8 := (range n).map fun k => p (i + k)

/-- The time to live at a place, as an `int`. -/
def ttlAt (p : Buffer) (i : ℕ) : Int32 := (UInt32.ofNat (ofBytes (bytesAt p i 4))).toInt32

/-- Read an answer of some type and length behind its header, with the answers and the error before
it. -/
def parseAnswer (p : Buffer) (answerType : UInt8) (answerLen cp : ℕ) (addrs : List AddressTtl)
    (errcode : UInt8) : Except ParseAbort (ℕ × List AddressTtl × UInt8) :=
  if answerType = resolvedTypeIpv4 then
    if answerLen ≠ 4 then .error .err
    else .ok (cp + 4 + 4,
      addrs ++ [⟨.ipv4 (Vector.ofFn fun k => p (cp + k)), none, ttlAt p (cp + 4)⟩], errcode)
  else if answerType = resolvedTypeIpv6 then
    if answerLen ≠ 16 then .error .err
    else .ok (cp + 16 + 4,
      addrs ++ [⟨.ipv6 (Vector.ofFn fun k => p (cp + k)), none, ttlAt p (cp + 16)⟩], errcode)
  else if answerType = resolvedTypeHostname then
    if answerLen = 0 then .error .err
    else .ok (cp + answerLen + 4,
      addrs ++ [⟨.unspec, some (bytesAt p cp answerLen), ttlAt p (cp + answerLen)⟩], errcode)
  else if answerType = resolvedTypeErrorTransient ∨ answerType = resolvedTypeError then
    .ok (cp + (answerLen + 4), addrs, answerType)
  else .ok (cp + (answerLen + 4), addrs, errcode)

/-- The rounds of the parser, from a place on. -/
def parseLoop (p : Buffer) : ℕ → ℕ → ℕ → List AddressTtl → UInt8 →
    Except ParseAbort (List AddressTtl × UInt8)
  | 0, _, remaining, addrs, errcode =>
    if remaining = 0 then .ok (addrs, errcode) else .error .outOfRounds
  | fuel + 1, cpOrig, remaining, addrs, errcode =>
    if remaining = 0 then .ok (addrs, errcode)
    else if remaining < 2 then .error .err
    else
      let answerLen := (p (cpOrig + 1)).toNat
      if remaining < 2 + answerLen + 4 then .error .err
      else do
        let (cp, addrs, errcode) ← parseAnswer p (p cpOrig) answerLen (cpOrig + 2) addrs errcode
        if remaining < cp - cpOrig then .error .assertion
        else parseLoop p fuel cp (remaining - (cp - cpOrig)) addrs errcode

/-- Parse the bytes behind the header of a resolved cell.  The result is that of the function, the
addresses and the error code; there is none if an assertion fails or the rounds do not end. -/
def resolvedCellParse (p : Buffer) (length : UInt16) (addressesOut : List AddressTtl) :
    Option (ℤ × List AddressTtl × UInt8) :=
  if relayPayloadSize < length.toNat then some (-1, addressesOut, 0)
  else
    match parseLoop p length.toNat 0 length.toNat [] 0 with
    | .ok (addrs, errcode) =>
      some (0, addressesOut ++ addrs, if errcode ≠ 0 ∧ addrs.length = 0 then errcode else 0)
    | .error .err => some (-1, addressesOut, 0)
    | .error _ => none

/-- Write an address with its type and length, and count the bytes. -/
def appendAddressToPayload (payloadOut : Buffer) : Addr → Buffer × ℤ
  | .ipv4 a => (copy (update (update payloadOut 0 resolvedTypeIpv4) 1 4) 2
      (fun k => a[k]?.getD 0) 0 4, 6)
  | .ipv6 a => (copy (update (update payloadOut 0 resolvedTypeIpv6) 1 16) 2
      (fun k => a[k]?.getD 0) 0 16, 18)
  | .unspec => (payloadOut, -1)

/-- Read an address, and where the next byte is. -/
def decodeAddressFromPayload (payload : Buffer) (payloadLen : ℤ) : Option (Addr × ℕ) :=
  if payloadLen < 2 then none
  else if payloadLen < 2 + (payload 1).toNat then none
  else if payload 0 = resolvedTypeIpv4 then
    if payload 1 ≠ 4 then none
    else some (.ipv4 (Vector.ofFn fun k => payload (2 + k)), 2 + (payload 1).toNat)
  else if payload 0 = resolvedTypeIpv6 then
    if payload 1 ≠ 16 then none
    else some (.ipv6 (Vector.ofFn fun k => payload (2 + k)), 2 + (payload 1).toNat)
  else some (.unspec, 2 + (payload 1).toNat)

/-! ### Records -/

/-- A record of a resolved cell. -/
structure Record where
  type : UInt8
  value : List UInt8
  ttl : UInt32

/-- The bytes of a record. -/
def Record.bytes (r : Record) : List UInt8 :=
  r.type :: UInt8.ofNat r.value.length :: (r.value ++ toBytes 4 r.ttl.toNat)

/-- The length of a record fits its type and one byte. -/
def Record.Valid (r : Record) : Prop :=
  r.value.length < 256 ∧ (r.type = resolvedTypeIpv4 → r.value.length = 4) ∧
    (r.type = resolvedTypeIpv6 → r.value.length = 16) ∧
      (r.type = resolvedTypeHostname → 1 ≤ r.value.length)

/-- The answer in a record of an address or a host name. -/
def Record.answer (r : Record) : Option AddressTtl :=
  if r.type = resolvedTypeIpv4 then
    some ⟨.ipv4 (Vector.ofFn fun k => r.value.getD k 0), none, r.ttl.toInt32⟩
  else if r.type = resolvedTypeIpv6 then
    some ⟨.ipv6 (Vector.ofFn fun k => r.value.getD k 0), none, r.ttl.toInt32⟩
  else if r.type = resolvedTypeHostname then some ⟨.unspec, some r.value, r.ttl.toInt32⟩
  else none

/-- The code of a record of an error. -/
def Record.error (r : Record) : Option UInt8 :=
  if r.type = resolvedTypeErrorTransient ∨ r.type = resolvedTypeError then some r.type else none

/-- The bytes of a cell are those of valid records. -/
def Consists (p : Buffer) (i n : ℕ) (records : List Record) : Prop :=
  (∀ r ∈ records, r.Valid) ∧ bytesAt p i n = records.flatMap Record.bytes

/-- The code of the last error, if there is no answer. -/
def errorOf (records : List Record) : UInt8 :=
  if records.filterMap Record.answer = [] then ((records.filterMap Record.error).getLast?).getD 0
    else 0

section Records

variable {p : Buffer} {i n : ℕ} {r : Record}

lemma length_bytesAt (p : Buffer) (i n : ℕ) : (bytesAt p i n).length = n := by
  rw [bytesAt, length_map, length_range]

lemma bytesAt_add (p : Buffer) (i m n : ℕ) : bytesAt p i (m + n) = bytesAt p i m ++ bytesAt p
    (i + m) n := by
  unfold bytesAt
  rw [range_add, map_append, List.map_map]
  simp only [Function.comp_def, add_assoc]

lemma bytesAt_congr {q : Buffer} (h : ∀ k < n, p (i + k) = q (i + k)) :
    bytesAt p i n = bytesAt q i n :=
  map_congr_left fun k hk => h k (mem_range.mp hk)

lemma Record.length_bytes (r : Record) : r.bytes.length = 2 + r.value.length + 4 := by
  rw [Record.bytes, length_cons, length_cons, length_append, length_toBytes]
  omega

/-- The record whose header is at a place. -/
def recordAt (p : Buffer) (i : ℕ) : Record :=
  ⟨p i, bytesAt p (i + 2) (p (i + 1)).toNat,
    UInt32.ofNat (ofBytes (bytesAt p (i + 2 + (p (i + 1)).toNat) 4))⟩

lemma length_recordAt (p : Buffer) (i : ℕ) :
    (recordAt p i).bytes.length = 2 + (p (i + 1)).toNat + 4 := by
  rw [Record.length_bytes, recordAt, length_bytesAt]

/-- The bytes of the record at a place. -/
lemma bytes_recordAt (p : Buffer) (i : ℕ) :
    (recordAt p i).bytes = bytesAt p i (recordAt p i).bytes.length := by
  have hlt : ofBytes (bytesAt p (i + 2 + (p (i + 1)).toNat) 4) < 2 ^ 32 := by
    have := ofBytes_lt (bytesAt p (i + 2 + (p (i + 1)).toNat) 4)
    rw [length_bytesAt] at this
    exact this
  have httl := toBytes_ofBytes (bytesAt p (i + 2 + (p (i + 1)).toNat) 4)
  rw [length_bytesAt] at httl
  rw [length_recordAt, bytesAt_add, bytesAt_add, Record.bytes]
  unfold recordAt
  dsimp only
  rw [length_bytesAt, UInt8.ofNat_toNat, UInt32.toNat_ofNat_of_lt' hlt, httl, add_assoc]
  rfl

/-- **A valid record is the one at its place.** -/
lemma eq_recordAt (hr : r.Valid) {rest : List UInt8} (h : bytesAt p i n = r.bytes ++ rest) :
    r = recordAt p i := by
  have hlen : r.bytes.length ≤ n := by
    rw [← length_bytesAt p i n, h, length_append]
    exact Nat.le_add_right _ _
  obtain ⟨m, rfl⟩ := Nat.exists_eq_add_of_le hlen
  rw [bytesAt_add] at h
  have hbytes := (append_inj h (length_bytesAt _ _ _)).1
  rw [Record.length_bytes, bytesAt_add, bytesAt_add, Record.bytes] at hbytes
  obtain ⟨htype : p i = r.type, hrest⟩ := List.cons.inj (hbytes.trans rfl)
  obtain ⟨hlength : p (i + 1) = UInt8.ofNat r.value.length, hrest⟩ := List.cons.inj hrest
  have happend : bytesAt p (i + 2) r.value.length ++ bytesAt p (i + (2 + r.value.length)) 4 =
      r.value ++ toBytes 4 r.ttl.toNat := hrest
  obtain ⟨hvalue, httl⟩ := append_inj happend (length_bytesAt _ _ _)
  have hnat : (p (i + 1)).toNat = r.value.length := by
    rw [hlength, UInt8.toNat_ofNat', Nat.mod_eq_of_lt hr.1]
  unfold recordAt
  rw [hnat, hvalue, add_assoc, httl, ofBytes_toBytes r.ttl.toNat_lt, UInt32.ofNat_toNat, htype]

lemma consists_nil : Consists p i n [] ↔ n = 0 := by
  unfold Consists
  rw [flatMap_nil, ← length_eq_zero_iff, length_bytesAt]
  exact ⟨And.right, fun h => ⟨fun _ h => absurd h not_mem_nil, h⟩⟩

/-- The first record is the one at the place, and the others are behind it. -/
lemma consists_cons {records : List Record} : Consists p i n (r :: records) ↔
    r = recordAt p i ∧ r.Valid ∧ r.bytes.length ≤ n ∧
      Consists p (i + r.bytes.length) (n - r.bytes.length) records := by
  unfold Consists
  rw [forall_mem_cons, flatMap_cons]
  constructor
  · rintro ⟨⟨hr, hrecords⟩, h⟩
    have hat := eq_recordAt hr h
    have hlen : r.bytes.length ≤ n := by
      rw [← length_bytesAt p i n, h, length_append]
      exact Nat.le_add_right _ _
    refine ⟨hat, hr, hlen, hrecords, ?_⟩
    rw [← Nat.add_sub_cancel' hlen, bytesAt_add] at h
    exact (append_inj h (length_bytesAt _ _ _)).2
  · rintro ⟨hat, hr, hlen, hrecords, h⟩
    refine ⟨⟨hr, hrecords⟩, ?_⟩
    rw [← h, ← Nat.add_sub_cancel' hlen, bytesAt_add, Nat.add_sub_cancel_left]
    congr 1
    rw [hat]
    exact (bytes_recordAt p i).symm

lemma getD_bytesAt {k : ℕ} (h : k < n) : (bytesAt p i n).getD k 0 = p (i + k) := by
  rw [getD_eq_getElem?_getD, bytesAt, getElem?_map, getElem?_range h]
  rfl

end Records

section Parsing

variable {p : Buffer} {fuel i n : ℕ} {addrs : List AddressTtl} {errcode : UInt8}
  {records : List Record}

lemma ttl_recordAt (p : Buffer) (i : ℕ) :
    (recordAt p i).ttl.toInt32 = ttlAt p (i + 2 + (p (i + 1)).toNat) := rfl

/-- The values of a record at a place are the bytes there. -/
lemma ofFn_recordAt {size : ℕ} (h : (p (i + 1)).toNat = size) :
    (Vector.ofFn fun k : Fin size => (recordAt p i).value.getD k 0) =
      Vector.ofFn fun k => p (i + 2 + k) := by
  subst h
  exact congrArg Vector.ofFn (funext fun k => getD_bytesAt k.isLt)

/-- What is read behind a valid header is the record there. -/
lemma parseAnswer_of_valid (h : (recordAt p i).Valid) :
    parseAnswer p (p i) (p (i + 1)).toNat (i + 2) addrs errcode =
      .ok (i + (recordAt p i).bytes.length, addrs ++ (recordAt p i).answer.toList,
        (recordAt p i).error.getD errcode) := by
  have htype : (recordAt p i).type = p i := rfl
  have hlen : (recordAt p i).value.length = (p (i + 1)).toNat := length_bytesAt _ _ _
  have hnext : i + (recordAt p i).bytes.length = i + 2 + (p (i + 1)).toNat + 4 := by
    rw [length_recordAt]
    omega
  obtain ⟨-, h4, h6, hname⟩ := h
  rw [htype, hlen] at h4 h6 hname
  unfold parseAnswer Record.answer Record.error
  simp only [htype, hnext, ttl_recordAt, ne_eq]
  by_cases hipv4 : p i = resolvedTypeIpv4
  · have herr : ¬(p i = resolvedTypeErrorTransient ∨ p i = resolvedTypeError) := by
      rw [hipv4]
      decide
    rw [if_pos hipv4, if_pos hipv4, if_neg herr, if_neg (not_not.mpr (h4 hipv4)),
      ofFn_recordAt (h4 hipv4), h4 hipv4]
    rfl
  rw [if_neg hipv4, if_neg hipv4]
  by_cases hipv6 : p i = resolvedTypeIpv6
  · have herr : ¬(p i = resolvedTypeErrorTransient ∨ p i = resolvedTypeError) := by
      rw [hipv6]
      decide
    rw [if_pos hipv6, if_pos hipv6, if_neg herr, if_neg (not_not.mpr (h6 hipv6)),
      ofFn_recordAt (h6 hipv6), h6 hipv6]
    rfl
  rw [if_neg hipv6, if_neg hipv6]
  by_cases hhost : p i = resolvedTypeHostname
  · have herr : ¬(p i = resolvedTypeErrorTransient ∨ p i = resolvedTypeError) := by
      rw [hhost]
      decide
    rw [if_pos hhost, if_pos hhost, if_neg herr, if_neg (Nat.pos_iff_ne_zero.mp (hname hhost))]
    rfl
  rw [if_neg hhost, if_neg hhost, toList_none, append_nil, ← add_assoc]
  by_cases herr : p i = resolvedTypeErrorTransient ∨ p i = resolvedTypeError
  · rw [if_pos herr, if_pos herr]
    rfl
  · rw [if_neg herr, if_neg herr]
    rfl

/-- Nothing is read behind a header that is not valid. -/
lemma parseAnswer_of_not_valid (h : ¬(recordAt p i).Valid) :
    parseAnswer p (p i) (p (i + 1)).toNat (i + 2) addrs errcode = .error .err := by
  have hlen : (recordAt p i).value.length = (p (i + 1)).toNat := length_bytesAt _ _ _
  have hbyte : (p (i + 1)).toNat < 256 := (p (i + 1)).toNat_lt
  have htype : (recordAt p i).type = p i := rfl
  rw [Record.Valid, hlen, htype] at h
  unfold parseAnswer
  by_contra hne
  refine h ⟨hbyte, fun h4 => ?_, fun h6 => ?_, fun hname => ?_⟩ <;> by_contra hsize <;>
    refine hne ?_
  · rw [if_pos h4, if_pos hsize]
  · rw [if_neg (h6 ▸ by decide), if_pos h6, if_pos hsize]
  · rw [if_neg (hname ▸ by decide), if_neg (hname ▸ by decide), if_pos hname, if_pos (by omega)]

/-- A round reads the record at its place, if there is one. -/
lemma parseLoop_of_valid (hr : (recordAt p i).Valid) (hn : (recordAt p i).bytes.length ≤ n) :
    parseLoop p (fuel + 1) i n addrs errcode =
      parseLoop p fuel (i + (recordAt p i).bytes.length) (n - (recordAt p i).bytes.length)
        (addrs ++ (recordAt p i).answer.toList) ((recordAt p i).error.getD errcode) := by
  have hlen := length_recordAt p i
  rw [parseLoop, if_neg (by omega), if_neg (by omega), if_neg (by omega), parseAnswer_of_valid hr]
  dsimp only [bind, Except.bind]
  rw [if_neg (by omega), Nat.add_sub_cancel_left]

lemma parseLoop_of_not (hpos : n ≠ 0)
    (h : ¬((recordAt p i).Valid ∧ (recordAt p i).bytes.length ≤ n)) :
    parseLoop p (fuel + 1) i n addrs errcode = .error .err := by
  have hlen := length_recordAt p i
  rw [parseLoop, if_neg hpos]
  by_cases htwo : n < 2
  · rw [if_pos htwo]
  rw [if_neg htwo]
  by_cases hshort : n < 2 + (p (i + 1)).toNat + 4
  · exact if_pos hshort
  rw [if_neg hshort, parseAnswer_of_not_valid fun hr => h ⟨hr, by omega⟩]
  rfl

/-- **The rounds read all records.** -/
theorem parseLoop_of_consists (h : Consists p i n records) (hn : n ≤ fuel) :
    parseLoop p fuel i n addrs errcode = .ok (addrs ++ records.filterMap Record.answer,
      ((records.filterMap Record.error).getLast?).getD errcode) := by
  induction records generalizing fuel i n addrs errcode with
  | nil =>
    rw [consists_nil.mp h, filterMap_nil, append_nil]
    cases fuel <;> rfl
  | cons r records ih =>
    obtain ⟨rfl, hr, hlen, hrest⟩ := consists_cons.mp h
    have hpos := length_recordAt p i
    obtain ⟨fuel, rfl⟩ : ∃ k, fuel = k + 1 := Nat.exists_eq_succ_of_ne_zero (by omega)
    rw [parseLoop_of_valid hr hlen, ih hrest (by omega), append_assoc]
    congr 2
    · rw [filterMap_cons]
      cases (recordAt p i).answer <;> rfl
    · rw [filterMap_cons]
      cases (recordAt p i).error with
      | none => rfl
      | some e => rw [getLast?_cons]; rfl

/-- **The rounds stop if the bytes are not those of records.** -/
theorem parseLoop_eq_err (h : ¬∃ records, Consists p i n records) (hn : n ≤ fuel) :
    parseLoop p fuel i n addrs errcode = .error .err := by
  have hpos : n ≠ 0 := fun hzero => h ⟨[], consists_nil.mpr hzero⟩
  induction fuel generalizing i n addrs errcode with
  | zero => exact absurd (Nat.le_zero.mp hn) hpos
  | succ fuel ih =>
    by_cases hr : (recordAt p i).Valid ∧ (recordAt p i).bytes.length ≤ n
    · have hlen := length_recordAt p i
      have hrest : ¬∃ records, Consists p (i + (recordAt p i).bytes.length)
        (n - (recordAt p i).bytes.length)
          records := fun ⟨records, hrecords⟩ =>
        h ⟨recordAt p i :: records, consists_cons.mpr ⟨rfl, hr.1, hr.2, hrecords⟩⟩
      rw [parseLoop_of_valid hr.1 hr.2]
      exact ih hrest (by omega) fun hzero => hrest ⟨[], consists_nil.mpr hzero⟩
    · exact parseLoop_of_not hpos hr

/-- There is an error code exactly if there are errors and no answers. -/
lemma errorOf_ne_zero_iff : errorOf records ≠ 0 ↔
    (∃ r ∈ records, r.error ≠ none) ∧ ∀ r ∈ records, r.answer = none := by
  have hcode : ∀ e ∈ records.filterMap Record.error, e ≠ 0 := by
    intro e he
    obtain ⟨r, -, hr⟩ := mem_filterMap.mp he
    unfold Record.error at hr
    split_ifs at hr with htype
    rw [← Option.some.inj hr]
    rcases htype with htype | htype <;> rw [htype] <;> decide
  unfold errorOf
  rw [← filterMap_eq_nil_iff]
  by_cases hanswers : records.filterMap Record.answer = []
  · rw [if_pos hanswers, and_iff_left hanswers]
    constructor
    · intro h
      by_contra hnone
      push Not at hnone
      exact h (by rw [filterMap_eq_nil_iff.mpr hnone]; rfl)
    · rintro ⟨r, hr, herr⟩
      obtain ⟨e, he⟩ := ne_none_iff_exists'.mp herr
      have hne := ne_nil_of_mem (mem_filterMap.mpr ⟨r, hr, he⟩)
      rw [getLast?_eq_some_getLast hne]
      exact hcode _ (getLast_mem hne)
  · rw [if_neg hanswers]
    exact ⟨fun h => absurd rfl h, fun h => absurd h.2 hanswers⟩

variable {length : UInt16} {addressesOut : List AddressTtl}

lemma resolvedCellParse_of_consists (hlength : length.toNat ≤ relayPayloadSize)
    (h : Consists p 0 length.toNat records) : resolvedCellParse p length addressesOut =
      some (0, addressesOut ++ records.filterMap Record.answer, errorOf records) := by
  unfold resolvedCellParse errorOf
  rw [if_neg (not_lt.mpr hlength), parseLoop_of_consists h le_rfl]
  dsimp only
  rw [nil_append]
  by_cases hanswers : records.filterMap Record.answer = []
  · rw [if_pos hanswers]
    split_ifs with hcode
    · rfl
    · rw [not_not.mp fun hzero => hcode ⟨hzero, length_eq_zero_iff.mpr hanswers⟩]
  · rw [if_neg hanswers, if_neg fun h => hanswers (length_eq_zero_iff.mp h.2)]

lemma resolvedCellParse_of_not
    (h : length.toNat ≤ relayPayloadSize → ¬∃ records, Consists p 0 length.toNat records) :
    resolvedCellParse p length addressesOut = some (-1, addressesOut, 0) := by
  unfold resolvedCellParse
  split_ifs with hlength
  · rfl
  · rw [parseLoop_eq_err (h (not_lt.mp hlength)) le_rfl]

/-- Only the declared bytes are read. -/
lemma resolvedCellParse_congr {q : Buffer} (h : ∀ k < length.toNat, p k = q k) :
    resolvedCellParse p length addressesOut = resolvedCellParse q length addressesOut := by
  have hiff : ∀ records, Consists p 0 length.toNat records ↔ Consists q 0 length.toNat records := by
    intro records
    unfold Consists
    rw [bytesAt_congr (i := 0) (q := q) fun k hk => by rw [zero_add]; exact h k hk]
  by_cases hconsists : length.toNat ≤ relayPayloadSize ∧
    ∃ records, Consists p 0 length.toNat records
  · obtain ⟨hlength, records, hrecords⟩ := hconsists
    rw [resolvedCellParse_of_consists hlength hrecords,
      resolvedCellParse_of_consists hlength ((hiff records).mp hrecords)]
  · have hnot := fun hlength hex => hconsists ⟨hlength, hex⟩
    rw [resolvedCellParse_of_not hnot, resolvedCellParse_of_not]
    rw [← exists_congr hiff]
    exact hnot

lemma ofFn_copy {dst payload : Buffer} {size : ℕ} {a : Vector UInt8 size}
    (h : ∀ k < 2 + size, payload k = copy dst 2 (fun k => a[k]?.getD 0) 0 size k) :
    (Vector.ofFn fun k : Fin size => payload (2 + k)) = a := by
  refine Vector.ext fun k hk => ?_
  rw [Vector.getElem_ofFn, h (2 + k) (Nat.add_lt_add_left hk 2),
    copy_of_mem (Nat.le_add_right _ _) (Nat.add_lt_add_left hk 2), zero_add,
    Nat.add_sub_cancel_left, Vector.getElem?_eq_getElem hk, getD_some]

/-- An address with a type and a length is read back. -/
lemma decodeAddressFromPayload_append {addr : Addr} (haddr : addr ≠ .unspec)
    {payloadOut payload : Buffer} {payloadLen : ℤ}
    (h : ∀ k : ℕ, k < (appendAddressToPayload payloadOut addr).2 →
      payload k = (appendAddressToPayload payloadOut addr).1 k)
    (hlen : (appendAddressToPayload payloadOut addr).2 ≤ payloadLen) :
    decodeAddressFromPayload payload payloadLen =
      some (addr, (appendAddressToPayload payloadOut addr).2.toNat) := by
  cases addr with
  | unspec => exact absurd rfl haddr
  | ipv4 a =>
    have htype : payload 0 = resolvedTypeIpv4 := h 0 (by decide : (0 : ℤ) < 6)
    have hsize : payload 1 = 4 := h 1 (by decide : (1 : ℤ) < 6)
    have hlen : 2 + ((4 : UInt8).toNat : ℤ) ≤ payloadLen := hlen
    have hbytes : (Vector.ofFn fun k : Fin 4 => payload (2 + k)) = a :=
      ofFn_copy fun k hk => h k (Int.ofNat_lt.mpr hk)
    unfold decodeAddressFromPayload
    rw [hsize, htype, hbytes, if_neg (by omega), if_neg (not_lt.mpr hlen), if_pos rfl,
      if_neg (not_not.mpr rfl)]
    rfl
  | ipv6 a =>
    have htype : payload 0 = resolvedTypeIpv6 := h 0 (by decide : (0 : ℤ) < 18)
    have hsize : payload 1 = 16 := h 1 (by decide : (1 : ℤ) < 18)
    have hlen : 2 + ((16 : UInt8).toNat : ℤ) ≤ payloadLen := hlen
    have hbytes : (Vector.ofFn fun k : Fin 16 => payload (2 + k)) = a :=
      ofFn_copy fun k hk => h k (Int.ofNat_lt.mpr hk)
    unfold decodeAddressFromPayload
    rw [hsize, htype, hbytes, if_neg (by omega), if_neg (not_lt.mpr hlen), if_neg (by decide),
      if_pos rfl,
      if_neg (not_not.mpr rfl)]
    rfl

end Parsing

/-- **What is read from a resolved cell are the records of its declared bytes.** -/
theorem resolvedCellParse_exact (p : Buffer) (length : UInt16) (addressesOut : List AddressTtl) :
    (∀ records, length.toNat ≤ relayPayloadSize → Consists p 0 length.toNat records →
      resolvedCellParse p length addressesOut =
          some (0, addressesOut ++ records.filterMap Record.answer, errorOf records) ∧
        (errorOf records ≠ 0 ↔ (∃ r ∈ records, r.error ≠ none) ∧ ∀ r ∈ records, r.answer = none)) ∧
    ((length.toNat ≤ relayPayloadSize → ¬∃ records, Consists p 0 length.toNat records) →
      resolvedCellParse p length addressesOut = some (-1, addressesOut, 0)) ∧
    (∀ q : Buffer, (∀ k < length.toNat, p k = q k) →
      resolvedCellParse p length addressesOut = resolvedCellParse q length addressesOut) ∧
    ∀ (addr : Addr) (payloadOut payload : Buffer) (payloadLen : ℤ), addr ≠ .unspec →
      (∀ k : ℕ, k < (appendAddressToPayload payloadOut addr).2 →
        payload k = (appendAddressToPayload payloadOut addr).1 k) →
      (appendAddressToPayload payloadOut addr).2 ≤ payloadLen →
      decodeAddressFromPayload payload payloadLen =
        some (addr, (appendAddressToPayload payloadOut addr).2.toNat) :=
  ⟨fun _ hlength h => ⟨resolvedCellParse_of_consists hlength h, errorOf_ne_zero_iff⟩,
    resolvedCellParse_of_not, fun _ => resolvedCellParse_congr,
    fun _ _ _ _ haddr => decodeAddressFromPayload_append haddr⟩

end Astoria.ResolvedCells
