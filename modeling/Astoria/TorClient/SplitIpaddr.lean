import Mathlib
import Astoria.Library.DecimalText
import Astoria.TorClient.DirvoteAdd

/-!
# The octets of an address

`split_ipaddr` goes through a text and collects the characters between its dots in a buffer of three
bytes, from which the octets are read.  The model keeps what the memory holds, and writes down the
places that the source writes to.

The places are inside the buffer and the array exactly if the text has labels of at most two
characters and at most four dots (`splitLaw_iff`).  Where a write goes behind the buffer, the model
lets the buffer continue there.
-/

namespace Astoria.Whois

open List
open Function

/-! ### The scanner -/

/-- The number at the start of a text (`atoi`): a `long`, of which an `int` keeps the low bits. -/
def atoi (s : DocText) : ℤ :=
  let (negative, rest) := splitSign (s.dropWhile isWhite)
  let v : ℤ := digitsValue (rest.takeWhile Char.isDigit)
  Int.bmod (if negative then max (-v) (-2 ^ 63) else min v (2 ^ 63 - 1)) (2 ^ 32)

/-- What the uninitialized variables of a call hold: the array of the octets and the text in the
buffer. -/
structure Frame where
  ipInt : ℕ → ℤ
  buf : DocText

/-- The variables of `split_ipaddr`, and the indices that were written to so far. -/
structure Scan where
  ipInt : ℕ → ℤ
  buf : DocText
  count : ℕ
  wordcount : ℕ
  bufWrites : List ℕ
  ipWrites : List ℕ

/-- The variables before the loop. -/
def Scan.start (frame : Frame) : Scan := ⟨frame.ipInt, frame.buf, 0, 0, [], []⟩

/-- One character: it goes to the end of the buffer, or it is a dot and ends an octet. -/
def Scan.push (st : Scan) (c : Char) : Scan :=
  if c ≠ '.' then
    { st with
      buf := st.buf.take st.wordcount ++ [c]
      wordcount := st.wordcount + 1
      bufWrites := st.bufWrites ++ [st.wordcount, st.wordcount + 1] }
  else
    { st with
      ipInt := update st.ipInt st.count (atoi st.buf)
      buf := []
      count := st.count + 1
      wordcount := 0
      bufWrites := st.bufWrites ++ [0]
      ipWrites := st.ipWrites ++ [st.count] }

/-- The last octet is read again after every character. -/
def Scan.readLast (st : Scan) : Scan :=
  { st with ipInt := update st.ipInt 3 (atoi st.buf), ipWrites := st.ipWrites ++ [3] }

/-- One round of the loop. -/
def Scan.step (st : Scan) (c : Char) : Scan := (st.push c).readLast

/-- The variables after the loop. -/
def scanText (frame : Frame) (inputIp : DocText) : Scan :=
  inputIp.foldl Scan.step (Scan.start frame)

/-- An octet of an address (`split_ipaddr`). -/
def splitIpaddr (frame : Frame) (inputIp : DocText) (index : ℕ) : ℤ :=
  (scanText frame inputIp).ipInt index

/-- All writes are inside the buffer of three bytes and the array of four octets. -/
def Scan.InBounds (st : Scan) : Prop := (∀ w ∈ st.bufWrites, w < 3) ∧ ∀ w ∈ st.ipWrites, w < 4

instance (st : Scan) : Decidable st.InBounds := inferInstanceAs (Decidable (_ ∧ _))

/-! ### Octets -/

/-- A text of digits with a value up to 255. -/
structure IsOctet (label : DocText) (v : ℕ) : Prop where
  ne_nil : label ≠ []
  digits : ∀ c ∈ label, c.isDigit = true
  value : digitsValue label = v
  le : v ≤ 255

/-- A dotted quad with the given octets. -/
def IsDottedQuad (text : DocText) (octets : Fin 4 → ℕ) : Prop :=
  ∃ labels : Fin 4 → DocText, (∀ i, IsOctet (labels i) (octets i)) ∧
    text = labels 0 ++ '.' :: (labels 1 ++ '.' :: (labels 2 ++ '.' :: labels 3))

/-- The number of an address with the given octets. -/
def addressOf (octets : Fin 4 → ℕ) : ℕ :=
  octets 0 * 2 ^ 24 + octets 1 * 2 ^ 16 + octets 2 * 2 ^ 8 + octets 3

variable {label : DocText}

lemma IsOctet.dot_notMem {v : ℕ} (h : IsOctet label v) : '.' ∉ label :=
  fun hmem => absurd (h.digits _ hmem) (by decide)

/-- The value of an octet, also in front of a text that starts with no digit. -/
lemma IsOctet.atoi_append {v : ℕ} (h : IsOctet label v) {rest : DocText}
    (hrest : ∀ c ∈ rest.head?, c.isDigit = false) : atoi (label ++ rest) = v := by
  obtain ⟨d, label', hlabel⟩ := exists_cons_of_ne_nil h.ne_nil
  have hd : ∀ c ∈ [d], c.isDigit = true := by
    rintro c hc
    obtain rfl := mem_singleton.mp hc
    exact h.digits c (by rw [hlabel]; exact mem_cons_self)
  -- the first digit is neither white nor a sign
  have hwhite : (label ++ rest).dropWhile isWhite = label ++ rest := by
    have hd' := dropWhile_isWhite_of_isDigit hd
    rw [hlabel, cons_append]
    cases hw : isWhite d with
    | true => rw [dropWhile_cons_of_pos hw] at hd'; cases hd'
    | false => rw [dropWhile_cons_of_neg (by rw [hw]; exact Bool.false_ne_true)]
  have hsign : splitSign (label ++ rest) = (false, label ++ rest) := by
    rw [hlabel, cons_append]
    unfold splitSign
    split
    · next heq =>
      obtain ⟨rfl, -⟩ := List.cons.inj heq
      exact absurd (hd _ mem_cons_self) (by decide)
    · next heq =>
      obtain ⟨rfl, -⟩ := List.cons.inj heq
      exact absurd (hd _ mem_cons_self) (by decide)
    · rfl
  have htake : (label ++ rest).takeWhile Char.isDigit = label := by
    rw [takeWhile_append_of_pos h.digits]
    cases rest with
    | nil => rw [takeWhile_nil, append_nil]
    | cons c rest =>
      rw [takeWhile_cons_of_neg (by rw [hrest c rfl]; exact Bool.false_ne_true), append_nil]
  have hv : v ≤ 255 := h.le
  rw [atoi, hwhite, hsign]
  dsimp only
  rw [htake, h.value, if_neg Bool.false_ne_true, min_eq_left (by omega),
    Int.bmod_eq_of_le (by omega) (by omega)]

lemma IsOctet.atoi_eq {v : ℕ} (h : IsOctet label v) : atoi label = v := by
  have hend : ∀ c ∈ ([] : DocText).head?, c.isDigit = false := nofun
  have hvalue := h.atoi_append hend
  rwa [append_nil] at hvalue

/-! ### What the loop does -/

section Loop

variable {st : Scan} {label text rest : DocText}

/-- The variables after a label, when the buffer is filled from its start. -/
structure LabelRead (st st' : Scan) (label : DocText) : Prop where
  count : st'.count = st.count
  wordcount : st'.wordcount = label.length
  buf : st'.buf = if label = [] then st.buf else label
  ipInt : st'.ipInt = if label = [] then st.ipInt else update st.ipInt 3 (atoi label)
  bufWrites : (∀ w ∈ st'.bufWrites, w < 3) ↔ (∀ w ∈ st.bufWrites, w < 3) ∧ label.length ≤ 2
  ipWrites : (∀ w ∈ st'.ipWrites, w < 4) ↔ ∀ w ∈ st.ipWrites, w < 4

/-- A label without dots is collected in the buffer. -/
lemma labelRead (hst : st.wordcount = 0) (hlabel : '.' ∉ label) :
    LabelRead st (label.foldl Scan.step st) label := by
  induction label using reverseRec with
  | nil => exact ⟨rfl, hst, rfl, rfl, by simp, Iff.rfl⟩
  | append_singleton label c ih =>
    obtain ⟨hcount, hword, hbuf, hint, hbufWrites, hipWrites⟩ := ih fun h =>
      hlabel (mem_append_left _ h)
    have hc : c ≠ '.' := fun h =>
      hlabel (by rw [h]; exact mem_append_right _ (mem_singleton_self _))
    have hne : label ++ [c] ≠ [] := append_ne_nil_of_right_ne_nil _ (cons_ne_nil _ _)
    have htake : (label.foldl Scan.step st).buf.take label.length = label := by
      rw [hbuf]
      split
      · next h => rw [h, length_nil, take_zero]
      · rw [take_length]
    rw [foldl_append, foldl_cons, foldl_nil, Scan.step, Scan.push, if_pos hc, Scan.readLast]
    refine ⟨hcount, ?_, ?_, ?_, ?_, ?_⟩
    · dsimp only
      rw [hword, length_append, length_singleton]
    · dsimp only
      rw [hword, htake, if_neg hne]
    · dsimp only
      rw [hword, htake, if_neg hne, hint]
      split
      · rfl
      · rw [update_idem]
    · dsimp only
      rw [forall_mem_append, hbufWrites, hword, length_append, length_singleton]
      simp only [forall_mem_cons]
      constructor
      · rintro ⟨⟨h, -⟩, -, hlt, -⟩
        exact ⟨h, by omega⟩
      · rintro ⟨h, hle⟩
        exact ⟨⟨h, by omega⟩, by omega, by omega, nofun⟩
    · dsimp only
      rw [forall_mem_append, hipWrites]
      exact and_iff_left fun w hw => by rw [mem_singleton.mp hw]; decide

/-- The variables after a label and a dot. -/
structure OctetRead (st st' : Scan) (label : DocText) : Prop where
  count : st'.count = st.count + 1
  wordcount : st'.wordcount = 0
  ipInt : ∀ i < 3, st'.ipInt i =
    if i = st.count then atoi (if label = [] then st.buf else label) else st.ipInt i
  inBounds : st'.InBounds ↔ st.InBounds ∧ label.length ≤ 2 ∧ st.count < 4

lemma octetRead (hst : st.wordcount = 0) (hlabel : '.' ∉ label) :
    OctetRead st ((label.foldl Scan.step st).step '.') label := by
  obtain ⟨hcount, hword, hbuf, hint, hbufWrites, hipWrites⟩ := labelRead hst hlabel
  rw [Scan.step, Scan.push, if_neg (fun h => h rfl), Scan.readLast]
  refine ⟨congrArg Nat.succ hcount, rfl, fun i hi => ?_, ?_⟩
  · dsimp only
    rw [update_of_ne hi.ne, hcount, hbuf, update_apply, hint]
    congr 1
    split
    · rfl
    · rw [update_of_ne hi.ne]
  · unfold Scan.InBounds
    dsimp only
    rw [forall_mem_append, hbufWrites, append_assoc, forall_mem_append, hipWrites, hcount]
    simp only [singleton_append, forall_mem_cons]
    constructor
    · rintro ⟨⟨⟨hbuf, hlen⟩, -⟩, hip, hlt, -⟩
      exact ⟨⟨hbuf, hip⟩, hlen, hlt⟩
    · rintro ⟨⟨hbuf, hip⟩, hlen, hlt⟩
      exact ⟨⟨⟨hbuf, hlen⟩, by omega, nofun⟩, hip, hlt, by omega, nofun⟩

/-- **Where the loop writes**: inside the bounds if the labels are short and the dots are few. -/
lemma inBounds_foldl (hst : st.wordcount = 0) : (text.foldl Scan.step st).InBounds ↔
    st.InBounds ∧ (∀ label ∈ text.splitOn '.', label.length ≤ 2) ∧
      (text.count '.' = 0 ∨ st.count + text.count '.' ≤ 4) := by
  induction hn : text.count '.' generalizing st text with
  | zero =>
    have hdot : '.' ∉ text := count_eq_zero.mp hn
    obtain ⟨-, -, -, -, hbufWrites, hipWrites⟩ := labelRead hst hdot
    rw [splitOn_eq_singleton hdot, Scan.InBounds, hbufWrites, hipWrites, Scan.InBounds]
    simp only [forall_mem_singleton, true_or, and_true]
    exact and_right_comm
  | succ n ih =>
    have hdot : '.' ∈ text := count_pos_iff.mp (by omega)
    obtain ⟨label, rest, rfl, hlabel⟩ := eq_append_cons_of_mem hdot
    have hrest : rest.count '.' = n := by
      rw [count_append, count_cons_self, count_eq_zero.mpr hlabel] at hn
      omega
    obtain ⟨hcount, hword, -, hin⟩ := octetRead hst hlabel
    rw [foldl_append, foldl_cons, ih hword hrest, hin, hcount,
      splitOn_append_cons_self_of_not_mem hlabel]
    simp only [forall_mem_cons]
    constructor
    · rintro ⟨⟨hst', hlen, hlt⟩, hall, hdots⟩
      exact ⟨hst', ⟨hlen, hall⟩, .inr (by omega)⟩
    · rintro ⟨hst', ⟨hlen, hall⟩, hdots⟩
      exact ⟨⟨hst', hlen, by omega⟩, hall, by omega⟩

end Loop

/-! ### The octets and the bounds -/

/-- **The octets of a dotted quad.** -/
theorem splitIpaddr_dottedQuad {text : DocText} {octets : Fin 4 → ℕ} (h : IsDottedQuad text octets)
    (frame : Frame) (i : Fin 4) : splitIpaddr frame text i = octets i := by
  obtain ⟨labels, hlabels, rfl⟩ := h
  have hvalue (i : Fin 4) (buf : DocText) :
      atoi (if labels i = [] then buf else labels i) = octets i := by
    rw [if_neg (hlabels i).ne_nil, (hlabels i).atoi_eq]
  -- three octets that end with dots, and the last one
  have hfirst : (Scan.start frame).wordcount = 0 := rfl
  obtain ⟨hcount₀, hword₀, hint₀, -⟩ := octetRead hfirst (hlabels 0).dot_notMem
  obtain ⟨hcount₁, hword₁, hint₁, -⟩ := octetRead hword₀ (hlabels 1).dot_notMem
  obtain ⟨hcount₂, hword₂, hint₂, -⟩ := octetRead hword₁ (hlabels 2).dot_notMem
  obtain ⟨-, -, -, hint₃, -, -⟩ := labelRead hword₂ (hlabels 3).dot_notMem
  have hstart : (Scan.start frame).count = 0 := rfl
  rw [if_neg (hlabels 3).ne_nil, (hlabels 3).atoi_eq] at hint₃
  rw [splitIpaddr, scanText]
  simp only [foldl_append, foldl_cons]
  rw [hint₃]
  match i with
  | 0 =>
    rw [update_of_ne (by decide)]
    rw [Fin.val_zero, hint₂ 0 (by decide), hcount₁, hcount₀, hstart, if_neg (by decide),
      hint₁ 0 (by decide), hcount₀, hstart,
      if_neg (by decide), hint₀ 0 (by decide), hstart, if_pos rfl]
    exact hvalue 0 _
  | 1 =>
    rw [update_of_ne (by decide)]
    rw [Fin.val_one, hint₂ 1 (by decide), hcount₁, hcount₀, hstart, if_neg (by decide),
      hint₁ 1 (by decide), hcount₀, hstart,
      if_pos rfl]
    exact hvalue 1 _
  | 2 =>
    rw [update_of_ne (by decide)]
    rw [Fin.val_two, hint₂ 2 (by decide), hcount₁, hcount₀, hstart, if_pos rfl]
    exact hvalue 2 _
  | 3 => exact update_self _ _ _

/-- The law of the scanner: it writes inside its buffer and its array, and finds the octets of
dotted quads. -/
def SplitLaw (frame : Frame) (text : DocText) : Prop :=
  (scanText frame text).InBounds ∧
    ∀ octets, IsDottedQuad text octets → ∀ i : Fin 4, splitIpaddr frame text i = octets i

/-- **When the law holds**: no label has more than two characters, and there are at most four
dots. -/
theorem splitLaw_iff (frame : Frame) (text : DocText) :
    SplitLaw frame text ↔ (∀ label ∈ text.splitOn '.', label.length ≤ 2) ∧ text.count '.' ≤ 4 := by
  have hin : (scanText frame text).InBounds ↔ (Scan.start frame).InBounds ∧
      (∀ label ∈ text.splitOn '.', label.length ≤ 2) ∧
      (text.count '.' = 0 ∨ 0 + text.count '.' ≤ 4) :=
    inBounds_foldl rfl
  have hstart : (Scan.start frame).InBounds := ⟨nofun, nofun⟩
  constructor
  · rintro ⟨hbounds, -⟩
    obtain ⟨-, hlabels, hdots⟩ := hin.mp hbounds
    exact ⟨hlabels, by omega⟩
  · rintro ⟨hlabels, hdots⟩
    exact ⟨hin.mpr ⟨hstart, hlabels, Or.inr (by omega)⟩, fun octets h =>
      splitIpaddr_dottedQuad h frame⟩

/-- An octet of three digits does not fit into the buffer. -/
theorem not_splitLaw : ¬ SplitLaw ⟨fun _ => 0, []⟩ "198.51.100.7".toList := by
  rintro ⟨⟨hbuf, -⟩, -⟩
  exact absurd (hbuf 3 (by decide)) (by decide)

end Astoria.Whois
