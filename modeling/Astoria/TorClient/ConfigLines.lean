import Astoria.Library.EscapedText
import Astoria.TorClient.Routerset

/-!
# Lines of the configuration

A line has a key and a value.  Values with special characters are written in quotes, with escapes,
and read back (`unescapeString_escForLog`).
-/

namespace Astoria.Config

open List
open Routersets (isHexChar hexValue)

/-! ### Texts -/

/-- The characters that can be printed (`TOR_ISPRINT`). -/
def torIsPrint (c : Char) : Bool := ' ' ≤ c && c ≤ '~'

/-- The octal digits (`TOR_ISODIGIT`). -/
def torIsOdigit (c : Char) : Bool := '0' ≤ c && c ≤ '7'

/-- The characters that strings can have: bytes, but not the one that ends strings. -/
def IsCString (s : DocText) : Prop := ∀ c ∈ s, c ≠ '\x00' ∧ c.toNat < 256

/-- The escape sequence of a character, if it has one. -/
def escapeChar (c : Char) : DocText :=
  if c = '\\' ∨ c = '"' ∨ c = '\x27' then ['\\', c]
  else if c = '\n' then ['\\', 'n']
  else if c = '\t' then ['\\', 't']
  else if c = '\r' then ['\\', 'r']
  else if torIsPrint c then [c]
  else ['\\', Nat.digitChar (c.toNat / 64), Nat.digitChar (c.toNat / 8 % 8),
    Nat.digitChar (c.toNat % 8)]

/-- A text in quotes, with escapes (`esc_for_log`). -/
def escForLog (s : DocText) : DocText := '"' :: s.flatMap escapeChar ++ ['"']

def octalValue (ds : DocText) : ℕ := ds.foldl (fun n c => n * 8 + (c.toNat - '0'.toNat)) 0

/-- The character at the start of a text in quotes, and the rest of the text. -/
def unescapeChar : DocText → Option (Char × DocText)
  | [] => none
  | c :: s =>
    if c = '\n' then none
    else if c = '\\' then
      match s with
      | [] => none
      | c :: s =>
        if c = 'x' ∨ c = 'X' then
          match s with
          | c₁ :: c₂ :: s =>
            if isHexChar c₁ && isHexChar c₂ then
              some (Char.ofNat (16 * hexValue c₁ + hexValue c₂), s)
            else none
          | _ => none
        else if torIsOdigit c then
          let more := (s.take 2).takeWhile torIsOdigit
          if 255 < octalValue (c :: more) then none
          else some (Char.ofNat (octalValue (c :: more)), s.drop more.length)
        else if c = 'n' then some ('\n', s)
        else if c = 'r' then some ('\r', s)
        else if c = 't' then some ('\t', s)
        else if c = '"' ∨ c = '\\' ∨ c = '\x27' then some (c, s)
        else none
    else some (c, s)

/-- The text in quotes at the start of a text, and the rest.  A zero byte ends the result. -/
def unescapeString : DocText → Option (DocText × DocText)
  | [] => none
  | c :: s =>
    if c = '"' then
      (EscapedText.decodeUntil '"' unescapeChar (s.length + 1) s).map fun (out, rest) =>
        (out.takeWhile (· ≠ '\x00'), rest)
    else none

/-! ### Lines -/

/-- What is to be done with the value of a line. -/
inductive LineCommand
  | normal | append | clear
  deriving DecidableEq

/-- A line of the configuration (`config_line_t`).  The first line of a list that the next
assignment replaces is fragile. -/
structure ConfigLine where
  key : DocText
  value : DocText
  command : LineCommand := .normal
  fragile : Bool := false
  deriving DecidableEq

/-! ### Escapes -/

section Escapes

variable {c : Char} {s : DocText}

lemma torIsOdigit_digitChar {n : ℕ} (h : n < 8) :
    torIsOdigit (Nat.digitChar n) = true ∧ (Nat.digitChar n).toNat - '0'.toNat = n := by
  have hall : ∀ n < 8, torIsOdigit (Nat.digitChar n) = true ∧
    (Nat.digitChar n).toNat - '0'.toNat = n := by decide
  exact hall n h

lemma ne_of_torIsOdigit (h : torIsOdigit c = true) : c ≠ 'x' ∧ c ≠ 'X' := by
  constructor <;> rintro rfl <;> exact absurd h (by decide)

/-- **A character is read from its escape sequence.** -/
lemma unescapeChar_escapeChar (hc : c.toNat < 256) (s : DocText) :
    unescapeChar (escapeChar c ++ s) = some (c, s) := by
  unfold escapeChar
  split
  · next h => rcases h with rfl | rfl | rfl <;> rfl
  · next h =>
    rw [not_or, not_or] at h
    split
    · next hn => rw [hn]; rfl
    · next hn =>
      split
      · next ht => rw [ht]; rfl
      · split
        · next hr => rw [hr]; rfl
        · split
          · rw [singleton_append, unescapeChar.eq_def]
            dsimp only
            rw [if_neg hn, if_neg h.1]
          · -- three octal digits, of which the first is at most 3
            obtain ⟨h₁, v₁⟩ := torIsOdigit_digitChar (n := c.toNat / 64) (by omega)
            obtain ⟨h₂, v₂⟩ := torIsOdigit_digitChar (n := c.toNat / 8 % 8) (by omega)
            obtain ⟨h₃, v₃⟩ := torIsOdigit_digitChar (n := c.toNat % 8) (by omega)
            obtain ⟨hx, hX⟩ := ne_of_torIsOdigit h₁
            have hvalue : octalValue [Nat.digitChar (c.toNat / 64), Nat.digitChar (c.toNat / 8 % 8),
                Nat.digitChar (c.toNat % 8)] = c.toNat := by
              simp only [octalValue, foldl_cons, foldl_nil, v₁, v₂, v₃]
              omega
            simp only [cons_append, nil_append, unescapeChar, if_neg (by decide : ¬ '\\' = '\n'),
              if_true, hx, hX, or_self, if_false, h₁, take_succ_cons, take_zero, takeWhile_cons, h₂,
              h₃, takeWhile_nil, hvalue, if_neg (by omega : ¬ 255 < c.toNat), Char.ofNat_toNat,
              length_cons, length_nil, drop_succ_cons, drop_zero]

/-- An escape sequence does not close the text. -/
lemma escapeChar_open (c : Char) : ∃ a s, escapeChar c = a :: s ∧ a ≠ '"' := by
  unfold escapeChar
  split
  · exact ⟨_, _, rfl, by decide⟩
  · next h =>
    rw [not_or, not_or] at h
    split_ifs
    · exact ⟨_, _, rfl, by decide⟩
    · exact ⟨_, _, rfl, by decide⟩
    · exact ⟨_, _, rfl, by decide⟩
    · exact ⟨c, [], rfl, h.2.1⟩
    · exact ⟨_, _, rfl, by decide⟩

/-- **A text is read from its escape sequences.** -/
theorem unescapeString_escForLog (hs : IsCString s) (rest : DocText) :
    unescapeString (escForLog s ++ rest) = some (s, rest) := by
  have hlen : s.length < (s.flatMap escapeChar ++ '"' :: rest).length + 1 := by
    have hle := EscapedText.length_le_length_flatMap fun c (_ : c ∈ s) => escapeChar_open c
    rw [length_append]
    omega
  have hdecode : EscapedText.decodeUntil '"' unescapeChar
      ((s.flatMap escapeChar ++ '"' :: rest).length + 1) (s.flatMap escapeChar ++ '"' :: rest) =
        some (s, rest) :=
    EscapedText.decodeUntil_flatMap (fun c hc => unescapeChar_escapeChar (hs c hc).2)
      (fun c _ => escapeChar_open c) rest hlen
  have hzero : s.takeWhile (· ≠ '\x00') = s :=
    List.takeWhile_eq_self_iff.mpr fun c hc => decide_eq_true (hs c hc).1
  have htext : escForLog s ++ rest = '"' :: (s.flatMap escapeChar ++ '"' :: rest) := by
    rw [escForLog, cons_append, cons_append, append_assoc, singleton_append]
  rw [htext, unescapeString, if_pos rfl, hdecode, Option.map_some]
  dsimp only
  rw [hzero]

theorem unescapeString_escForLog_newline :
    unescapeString (escForLog ['a', '\n'] ++ ['b']) = some (['a', '\n'], ['b']) :=
  unescapeString_escForLog (by simp [IsCString]) _

end Escapes

end Astoria.Config
