import Mathlib
import Astoria.TorClient.DirvoteAdd

/-!
# Digests in base 64

Documents contain digests as base-64 text without the padding at its end.  A digest of 20 or 32
bytes is a number here, and its bytes are the digits of this number in base 256.

What is read from the text of a digest is the digest (`digestFromBase64_digestToBase64`).
-/

namespace Astoria

open List Option

/-! ### Bytes -/

/-- The bytes of a digest, the most significant one first. -/
def digestBytes : ℕ → Digest → List ℕ
  | 0, _ => []
  | n + 1, d => digestBytes n (d / 256) ++ [d % 256]

def bytesDigest (bytes : List ℕ) : Digest := bytes.foldl (fun d b => 256 * d + b) 0

@[simp] lemma length_digestBytes (n : ℕ) (d : Digest) : (digestBytes n d).length = n := by
  induction n generalizing d with
  | zero => rfl
  | succ n ih => rw [digestBytes, length_append, ih, length_singleton]

variable {d : Digest}

lemma lt_of_mem_digestBytes {n : ℕ} {b : ℕ} (h : b ∈ digestBytes n d) : b < 256 := by
  induction n generalizing d with
  | zero => cases h
  | succ n ih =>
    rcases mem_append.mp h with h | h
    · exact ih h
    · obtain rfl := mem_singleton.mp h
      exact Nat.mod_lt _ (by decide)

lemma bytesDigest_digestBytes {n : ℕ} (h : d < 256 ^ n) : bytesDigest (digestBytes n d) = d := by
  induction n generalizing d with
  | zero =>
    rw [pow_zero, Nat.lt_one_iff] at h
    rw [h]
    rfl
  | succ n ih =>
    have hdiv : d / 256 < 256 ^ n := by
      rw [pow_succ] at h
      exact Nat.div_lt_of_lt_mul (by rwa [mul_comm])
    have hrec := ih hdiv
    unfold bytesDigest at hrec ⊢
    rw [digestBytes, foldl_append, hrec]
    exact Nat.div_add_mod d 256

/-! ### Characters -/

/-- What a character means in base 64. -/
inductive Base64Value
  | value (v : ℕ)
  | space
  | pad
  | invalid
  deriving DecidableEq

/-- The meanings of the characters (`base64_decode_table`). -/
def base64DecodeTable (c : Char) : Base64Value :=
  if c.isUpper then .value (c.toNat - 'A'.toNat)
  else if c.isLower then .value (c.toNat - 'a'.toNat + 26)
  else if c.isDigit then .value (c.toNat - '0'.toNat + 52)
  else if c = '+' then .value 62
  else if c = '/' then .value 63
  else if c = '=' then .pad
  else if c = ' ' ∨ c = '\t' ∨ c = '\n' ∨ c = '\x0b' ∨ c = '\r' then .space
  else .invalid

def base64Char (v : ℕ) : Char :=
  if v < 26 then Char.ofNat (v + 'A'.toNat)
  else if v < 52 then Char.ofNat (v - 26 + 'a'.toNat)
  else if v < 62 then Char.ofNat (v - 52 + '0'.toNat)
  else if v = 62 then '+' else '/'

lemma base64DecodeTable_base64Char {v : ℕ} (h : v < 64) :
    base64DecodeTable (base64Char v) = .value v := by
  interval_cases v <;> rfl

/-! ### Decoding -/

/-- The bytes that are left when the text ends in the middle of a group. -/
def base64Leftover (n nIdx : ℕ) : Option (List ℕ) :=
  match nIdx with
  | 1 => none
  | 2 => some [n / 2 ^ 4]
  | 3 => some [n / 2 ^ 10, n / 2 ^ 2 % 256]
  | _ => some []

/-- Go through the text: the digits of the current group so far are `nIdx`, with the value `n`. -/
def base64DecodeLoop : DocText → ℕ → ℕ → Option (List ℕ)
  | [], n, nIdx => base64Leftover n nIdx
  | c :: src, n, nIdx =>
    match base64DecodeTable c with
    | .invalid => none
    | .space => base64DecodeLoop src n nIdx
    | .pad => base64Leftover n nIdx
    | .value v =>
      let n := 64 * n + v
      if nIdx + 1 = 4 then
        (base64DecodeLoop src 0 0).map ([n / 2 ^ 16, n / 2 ^ 8 % 256, n % 256] ++ ·)
      else base64DecodeLoop src n (nIdx + 1)

/-- Decode a text into at most so many bytes. -/
def base64Decode (destlen : ℕ) (src : DocText) : Option (List ℕ) :=
  if destlen < src.length * 3 / 4 then none else base64DecodeLoop src 0 0

/-- The digest in a text (`digest_from_base64` and `digest256_from_base64`). -/
def digestFromBase64 (digestLen : ℕ) (d64 : DocText) : Option Digest :=
  match base64Decode digestLen d64 with
  | none => none
  | some bytes => if bytes.length = digestLen then some (bytesDigest bytes) else none

/-! ### Encoding -/

/-- The digits of bytes in base 64, without padding. -/
def base64Digits : List ℕ → DocText
  | a :: b :: c :: rest =>
    let n := a * 2 ^ 16 + b * 2 ^ 8 + c
    [base64Char (n / 2 ^ 18), base64Char (n / 2 ^ 12 % 64), base64Char (n / 2 ^ 6 % 64),
      base64Char (n % 64)] ++ base64Digits rest
  | [a, b] =>
    let n := a * 2 ^ 10 + b * 2 ^ 2
    [base64Char (n / 2 ^ 12), base64Char (n / 2 ^ 6 % 64), base64Char (n % 64)]
  | [a] => [base64Char (a * 2 ^ 4 / 2 ^ 6), base64Char (a * 2 ^ 4 % 64)]
  | [] => []

/-- Encode bytes, with padding (`base64_encode`). -/
def base64Encode (src : List ℕ) : DocText :=
  base64Digits src ++ replicate ((3 - src.length % 3) % 3) '='

/-- The number of digits of a digest (`BASE64_DIGEST_LEN` and `BASE64_DIGEST256_LEN`). -/
def base64DigestLen (digestLen : ℕ) : ℕ := (digestLen * 8 + 5) / 6

/-- The text of a digest (`digest_to_base64` and `digest256_to_base64`). -/
def digestToBase64 (digestLen : ℕ) (digest : Digest) : DocText :=
  (base64Encode (digestBytes digestLen digest)).take (base64DigestLen digestLen)

example : (digestToBase64 20 (2 ^ 160 - 1)).length = 27 := by decide

/-! ### The round trip -/

/-- The number of digits of some bytes. -/
lemma length_base64Digits (l : List ℕ) : (base64Digits l).length = (l.length * 8 + 5) / 6 := by
  induction l using base64Digits.induct with
  | case1 a b c rest ih =>
    rw [base64Digits, length_append, ih]
    simp only [length_cons, length_nil]
    omega
  | case2 a b => simp [base64Digits]
  | case3 a => simp [base64Digits]
  | case4 => rfl

lemma mem_base64Digits {l : List ℕ} (hl : ∀ b ∈ l, b < 256) {c : Char} (h : c ∈ base64Digits l) :
    ∃ v < 64, c = base64Char v := by
  induction l using base64Digits.induct with
  | case1 a b c rest ih =>
    have ha := hl a (by simp)
    have hb := hl b (by simp)
    have hc := hl c (by simp)
    rw [base64Digits] at h
    rcases mem_append.mp h with h | h
    · simp only [mem_cons, not_mem_nil, or_false] at h
      rcases h with rfl | rfl | rfl | rfl
      · exact ⟨_, by omega, rfl⟩
      · exact ⟨_, Nat.mod_lt _ (by decide), rfl⟩
      · exact ⟨_, Nat.mod_lt _ (by decide), rfl⟩
      · exact ⟨_, Nat.mod_lt _ (by decide), rfl⟩
    · exact ih (fun b hb => hl b (by simp [hb])) h
  | case2 a b =>
    have ha := hl a (by simp)
    have hb := hl b (by simp)
    simp only [base64Digits, mem_cons, not_mem_nil, or_false] at h
    rcases h with rfl | rfl | rfl
    · exact ⟨_, by omega, rfl⟩
    · exact ⟨_, Nat.mod_lt _ (by decide), rfl⟩
    · exact ⟨_, Nat.mod_lt _ (by decide), rfl⟩
  | case3 a =>
    have ha := hl a (by simp)
    simp only [base64Digits, mem_cons, not_mem_nil, or_false] at h
    rcases h with rfl | rfl
    · exact ⟨_, by omega, rfl⟩
    · exact ⟨_, Nat.mod_lt _ (by decide), rfl⟩
  | case4 => cases h

lemma base64DecodeLoop_cons {v : ℕ} (h : v < 64) (src : DocText) (n nIdx : ℕ) :
    base64DecodeLoop (base64Char v :: src) n nIdx =
      if nIdx + 1 = 4 then (base64DecodeLoop src 0 0).map
        ([(64 * n + v) / 2 ^ 16, (64 * n + v) / 2 ^ 8 % 256, (64 * n + v) % 256] ++ ·)
      else base64DecodeLoop src (64 * n + v) (nIdx + 1) := by
  rw [base64DecodeLoop, base64DecodeTable_base64Char h]

lemma base64DecodeLoop_base64Digits {l : List ℕ} (hl : ∀ b ∈ l, b < 256) :
    base64DecodeLoop (base64Digits l) 0 0 = some l := by
  induction l using base64Digits.induct with
  | case1 a b c rest ih =>
    have ha := hl a (by simp)
    have hb := hl b (by simp)
    have hc := hl c (by simp)
    have hrest := ih fun b hb => hl b (by simp [hb])
    simp only [base64Digits, cons_append, nil_append]
    rw [base64DecodeLoop_cons (by omega), if_neg (by decide), base64DecodeLoop_cons (by omega),
      if_neg (by decide), base64DecodeLoop_cons (by omega), if_neg (by decide),
      base64DecodeLoop_cons (by omega), if_pos rfl, hrest, map_some]
    simp only [cons_append, nil_append, Option.some.injEq, List.cons.injEq, and_true]
    refine ⟨?_, ?_, ?_⟩ <;> omega
  | case2 a b =>
    have ha := hl a (by simp)
    have hb := hl b (by simp)
    simp only [base64Digits]
    rw [base64DecodeLoop_cons (by omega), if_neg (by decide), base64DecodeLoop_cons (by omega),
      if_neg (by decide), base64DecodeLoop_cons (by omega), if_neg (by decide), base64DecodeLoop,
      base64Leftover]
    simp only [Option.some.injEq, List.cons.injEq, and_true]
    refine ⟨?_, ?_⟩ <;> omega
  | case3 a =>
    have ha := hl a (by simp)
    simp only [base64Digits]
    rw [base64DecodeLoop_cons (by omega), if_neg (by decide), base64DecodeLoop_cons (by omega),
      if_neg (by decide), base64DecodeLoop, base64Leftover]
    simp only [Option.some.injEq, List.cons.injEq, and_true]
    omega
  | case4 => rfl

lemma digestToBase64_eq (digestLen : ℕ) (d : Digest) :
    digestToBase64 digestLen d = base64Digits (digestBytes digestLen d) := by
  have hlen := length_base64Digits (digestBytes digestLen d)
  rw [length_digestBytes] at hlen
  rw [digestToBase64, base64Encode, base64DigestLen, ← hlen, take_left]

/-- **A digest is read from its text.** -/
theorem digestFromBase64_digestToBase64 {digestLen : ℕ} (h : d < 256 ^ digestLen) :
    digestFromBase64 digestLen (digestToBase64 digestLen d) = some d := by
  have hlen := length_base64Digits (digestBytes digestLen d)
  rw [length_digestBytes] at hlen
  rw [digestToBase64_eq]
  unfold digestFromBase64 base64Decode
  rw [if_neg (by rw [hlen]; omega), base64DecodeLoop_base64Digits fun b => lt_of_mem_digestBytes]
  dsimp only
  rw [if_pos (length_digestBytes digestLen d), bytesDigest_digestBytes h]

/-! ### The size of a digest -/

/-- The characters mean digits in base 64. -/
lemma lt_of_base64DecodeTable {c : Char} {v : ℕ} (h : base64DecodeTable c = .value v) : v < 64 := by
  unfold base64DecodeTable at h
  split_ifs at h with hupper hlower hdigit
  · have hle : c.toNat ≤ 90 := by
      simp only [Char.isUpper, decide_eq_true_eq] at hupper
      exact UInt32.le_iff_toNat_le.mp hupper.2
    have hA : 'A'.toNat = 65 := rfl
    cases h
    omega
  · have hle : c.toNat ≤ 122 := by
      simp only [Char.isLower, Bool.and_eq_true, decide_eq_true_eq] at hlower
      exact UInt32.le_iff_toNat_le.mp hlower.2
    have ha : 'a'.toNat = 97 := rfl
    cases h
    omega
  · have hle : c.toNat ≤ 57 := by
      simp only [Char.isDigit, Bool.and_eq_true, decide_eq_true_eq] at hdigit
      exact UInt32.le_iff_toNat_le.mp hdigit.2
    have h0 : '0'.toNat = 48 := rfl
    cases h
    omega
  · cases h
    decide
  · cases h
    decide

lemma lt_of_mem_base64DecodeLoop {src : DocText} {n nIdx : ℕ} {bytes : List ℕ} (hn : n < 64 ^ nIdx)
    (hIdx : nIdx < 4) (h : base64DecodeLoop src n nIdx = some bytes) : ∀ b ∈ bytes, b < 256 := by
  have hleftover : ∀ {n nIdx : ℕ} {bytes : List ℕ}, n < 64 ^ nIdx → nIdx < 4 →
      base64Leftover n nIdx = some bytes → ∀ b ∈ bytes, b < 256 := by
    intro n nIdx bytes hn hIdx h b hb
    unfold base64Leftover at h
    interval_cases nIdx
    · cases h
      cases hb
    · cases h
    · cases h
      obtain rfl := mem_singleton.mp hb
      omega
    · cases h
      rcases mem_pair.mp hb with rfl | rfl
      · omega
      · omega
  induction src generalizing n nIdx bytes with
  | nil => exact hleftover hn hIdx h
  | cons c src ih =>
    rw [base64DecodeLoop] at h
    cases hc : base64DecodeTable c with
    | invalid =>
      rw [hc] at h
      cases h
    | space =>
      rw [hc] at h
      exact ih hn hIdx h
    | pad =>
      rw [hc] at h
      exact hleftover hn hIdx h
    | value v =>
      rw [hc] at h
      dsimp only at h
      have hv := lt_of_base64DecodeTable hc
      split_ifs at h with hfull
      · obtain ⟨rest, hrest, rfl⟩ := map_eq_some_iff.mp h
        have hthree : nIdx = 3 := by omega
        rw [hthree] at hn
        intro b hb
        rcases mem_append.mp hb with hb | hb
        · simp only [mem_cons, not_mem_nil, or_false] at hb
          omega
        · exact ih (by decide) (by decide) hrest b hb
      · refine ih ?_ (by omega) h
        rw [Nat.pow_succ]
        omega

/-- The digest with some bytes is below the next power. -/
lemma bytesDigest_lt {bytes : List ℕ} (h : ∀ b ∈ bytes, b < 256) :
    bytesDigest bytes < 256 ^ bytes.length := by
  induction bytes using reverseRecOn with
  | nil => decide
  | append_singleton bytes b ih =>
    have hb := h b (by simp)
    have hrec := ih fun b' hb' => h b' (mem_append_left _ hb')
    have hstep : bytesDigest (bytes ++ [b]) = 256 * bytesDigest bytes + b := by
      unfold bytesDigest
      rw [foldl_append]
      rfl
    rw [hstep, length_append, length_singleton, Nat.pow_succ]
    have hbyte : ∀ d m b : ℕ, d < m → b < 256 → 256 * d + b < m * 256 := fun d m b hd hb => by omega
    exact hbyte _ _ _ hrec hb

/-- A digest that was read has no more bytes than were asked for. -/
lemma digestFromBase64_lt {digestLen : ℕ} {d64 : DocText}
    (h : digestFromBase64 digestLen d64 = some d) : d < 256 ^ digestLen := by
  unfold digestFromBase64 base64Decode at h
  split_ifs at h
  cases hbytes : base64DecodeLoop d64 0 0 with
  | none =>
    rw [hbytes] at h
    cases h
  | some bytes =>
    rw [hbytes] at h
    dsimp only at h
    split_ifs at h with hlen
    obtain rfl := Option.some.inj h
    rw [← hlen]
    exact bytesDigest_lt (lt_of_mem_base64DecodeLoop (by decide) (by decide) hbytes)

end Astoria
