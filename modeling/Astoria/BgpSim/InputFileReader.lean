import Astoria.BgpSim.NetworkGraph
import Astoria.Library.DecimalText
import Mathlib.Data.List.TakeWhile

/-!
# Reading an AS graph

The reader of relationship files in the Cyclops format: one edge a line, three fields separated by
tabs, two AS numbers and a relationship.  A line that is a comment or that cannot be decoded is
skipped.  A file is modelled by the list of its lines and a line by the list of its characters.

Every graph that the reader builds is symmetric and free of sibling edges, and its AS numbers do not
exceed `numASNs`.
-/

namespace Astoria

open List
open RelationshipType

/-! ### Numbers in text -/

/-- `UInt32.TryParse`: optional white space, an optional sign, at least one decimal digit and
optional white space, within the range of the type.  Null characters at the end are ignored, and a
minus sign is accepted only before zero. -/
def tryParseUInt32 (text : List Char) : Option ℕ :=
  let signed := splitSign (text.dropWhile isWhite)
  let digits := signed.2.takeWhile Char.isDigit
  let rest := (signed.2.dropWhile Char.isDigit).dropWhile isWhite
  let value := digitsValue digits
  if digits = [] ∨ rest.any (· ≠ '\x00') then none
  else if signed.1 ∧ value ≠ 0 then none
  else if value < 2 ^ 32 then some value
  else none

example : tryParseUInt32 " 15169\r".toList = some 15169 := by decide

lemma tryParseUInt32_toDigits {n : ℕ} (h : n < 2 ^ 32) :
    tryParseUInt32 (Nat.toDigits 10 n) = some n := by
  have hdigits : ∀ c ∈ Nat.toDigits 10 n, c.isDigit = true := fun c hc => isDigit_of_mem_toDigits hc
  unfold tryParseUInt32
  simp only [dropWhile_isWhite_of_isDigit hdigits, splitSign_of_isDigit hdigits,
    takeWhile_eq_self_iff.mpr hdigits, dropWhile_eq_nil_iff.mpr hdigits,
    digitsValue_toDigits, dropWhile_nil, any_nil, Nat.toDigits_ne_nil, Bool.false_eq_true,
    or_self, false_and, if_false, if_pos h]

/-! ### The Cyclops format -/

/-- The relationship named by the third field of a line. -/
def cyclopsRelationship (edgeDescriptor : List Char) : Option RelationshipType :=
  if edgeDescriptor = "c2p".toList then some customerOf
  else if edgeDescriptor = "p2p".toList then some peerOf
  else if edgeDescriptor = "p2c".toList then some providerTo
  else none

/-- The edge that a line describes.  Vertices above `numASNs` are ignored. -/
def cyclopsEdge (line : List Char) : Option (Asn × Asn × RelationshipType) :=
  match line.splitOn '\t' with
  | [field₀, field₁, field₂] =>
    if field₀.head? = some '#' then none
    else
      match tryParseUInt32 field₀, tryParseUInt32 field₁, cyclopsRelationship field₂ with
      | some vertex₁, some vertex₂, some t =>
        if numASNs < vertex₁ ∨ numASNs < vertex₂ then none else some (vertex₁, vertex₂, t)
      | _, _, _ => none
  | _ => none

/-- Add the edge of a line to the graph, in both directions. -/
def processCyclopsLine (g : NetworkGraph) (line : List Char) : NetworkGraph :=
  match cyclopsEdge line with
  | some (vertex₁, vertex₂, t) =>
    (g.addEdge vertex₁ vertex₂ t).addEdge vertex₂ vertex₁ (getOppositeRelationshipType t)
  | none => g

/-- The graph described by the lines of a file. -/
def processCyclopsFile (lines : List (List Char)) : NetworkGraph :=
  lines.foldl processCyclopsLine NetworkGraph.empty

/-! ### The graphs that the reader builds -/

/-- What the reader guarantees about its graphs. -/
structure NetworkGraph.Cyclops (g : NetworkGraph) : Prop where
  /-- Every edge has its opposite. -/
  symmetric : g.Symmetric
  siblingFree : g.SiblingFree
  /-- AS numbers are at most `numASNs`, which itself is admitted. -/
  le_numASNs : ∀ n ∈ g.asNodes, n ≤ numASNs

lemma cyclopsRelationship_ne_siblingOf {field : List Char} {t : RelationshipType}
    (h : cyclopsRelationship field = some t) : t ≠ siblingOf := by
  unfold cyclopsRelationship at h
  split_ifs at h <;> (rw [← Option.some.inj h]; decide)

/-- What a decoded line can hold. -/
lemma cyclopsEdge_spec {line : List Char} {v₁ v₂ : Asn} {t : RelationshipType}
    (h : cyclopsEdge line = some (v₁, v₂, t)) : v₁ ≤ numASNs ∧ v₂ ≤ numASNs ∧ t ≠ siblingOf := by
  unfold cyclopsEdge at h
  split at h
  · next field₀ field₁ field₂ _ =>
    split_ifs at h with hc
    split at h
    · next w₁ w₂ u _ _ ht =>
      split_ifs at h with hn
      have he := Option.some.inj h
      simp only [Prod.mk.injEq] at he
      obtain ⟨rfl, rfl, rfl⟩ := he
      rw [not_or, not_lt, not_lt] at hn
      exact ⟨hn.1, hn.2, cyclopsRelationship_ne_siblingOf ht⟩
    · cases h
  · cases h

lemma mem_neighbors_addEdge_both {g : NetworkGraph} {v₁ v₂ n m : Asn} {t u : RelationshipType} :
    m ∈ ((g.addEdge v₁ v₂ t).addEdge v₂ v₁ (getOppositeRelationshipType t)).neighbors n u ↔
      m ∈ g.neighbors n u ∨ (n = v₁ ∧ u = t ∧ m = v₂) ∨
        (n = v₂ ∧ u = getOppositeRelationshipType t ∧ m = v₁) := by
  rw [NetworkGraph.mem_neighbors_addEdge, NetworkGraph.mem_neighbors_addEdge, or_assoc]

lemma Cyclops.processCyclopsLine {g : NetworkGraph} (h : g.Cyclops) (line : List Char) :
    (processCyclopsLine g line).Cyclops := by
  unfold Astoria.processCyclopsLine
  split
  · next v₁ v₂ t he =>
    obtain ⟨h₁, h₂, ht⟩ := cyclopsEdge_spec he
    refine ⟨?_, ?_, ?_⟩
    · intro n u m hm
      rw [mem_neighbors_addEdge_both] at hm ⊢
      rcases hm with hm | ⟨rfl, rfl, rfl⟩ | ⟨rfl, rfl, rfl⟩
      · exact .inl (h.symmetric n u m hm)
      · exact .inr (.inr ⟨rfl, rfl, rfl⟩)
      · exact .inr (.inl ⟨rfl, by simp, rfl⟩)
    · intro n
      refine eq_nil_iff_forall_not_mem.mpr fun m hm => ?_
      rw [mem_neighbors_addEdge_both, h.siblingFree n] at hm
      rcases hm with hm | ⟨-, hu, -⟩ | ⟨-, hu, -⟩
      · simp at hm
      · exact ht hu.symm
      · have hopp : t = getOppositeRelationshipType siblingOf := by
          rw [hu, getOppositeRelationshipType_involutive]
        exact ht hopp
    · intro n hn
      simp only [NetworkGraph.addEdge, NetworkGraph.mem_getOrCreateNode] at hn
      rcases hn with (((hn | rfl) | rfl) | rfl) | rfl
      · exact h.le_numASNs n hn
      all_goals assumption
  · exact h

/-- **The reader's guarantees.**  Whatever the file holds, the graph is symmetric, free of siblings
and within the admitted AS numbers. -/
theorem cyclops_processCyclopsFile (lines : List (List Char)) :
    (processCyclopsFile lines).Cyclops := by
  have hempty : NetworkGraph.empty.Cyclops :=
    ⟨fun _ _ _ h => absurd h not_mem_nil, fun _ => rfl, fun _ h => absurd h not_mem_nil⟩
  unfold processCyclopsFile
  generalize NetworkGraph.empty = g at hempty ⊢
  induction lines generalizing g with
  | nil => exact hempty
  | cons line lines ih => exact ih _ (Cyclops.processCyclopsLine hempty line)

/-- Two providers of a customer, AS 1, with another common customer, AS 3. -/
def fourNodes : NetworkGraph :=
  processCyclopsFile (["1\t2\tc2p", "1\t4\tc2p", "3\t2\tc2p", "3\t4\tc2p"].map String.toList)

/-- The reader creates nodes for edges only. -/
lemma exists_neighbor_of_mem_processCyclopsFile {lines : List (List Char)} {n : Asn}
    (h : n ∈ (processCyclopsFile lines).asNodes) :
    ∃ t m, m ∈ (processCyclopsFile lines).neighbors n t := by
  have hempty : ∀ n ∈ NetworkGraph.empty.asNodes, ∃ t m, m ∈ NetworkGraph.empty.neighbors n t :=
    fun _ h => absurd h not_mem_nil
  unfold processCyclopsFile at h ⊢
  generalize NetworkGraph.empty = g at hempty h ⊢
  induction lines generalizing g with
  | nil => exact hempty n h
  | cons line lines ih =>
    refine ih (processCyclopsLine g line) (fun k hk => ?_) h
    unfold processCyclopsLine at hk ⊢
    split at hk
    · next v₁ v₂ t _ =>
      simp only [mem_neighbors_addEdge_both]
      simp only [NetworkGraph.addEdge, NetworkGraph.mem_getOrCreateNode] at hk
      rcases hk with (((hk | rfl) | rfl) | rfl) | rfl
      · obtain ⟨u, m, hm⟩ := hempty k hk
        exact ⟨u, m, .inl hm⟩
      · exact ⟨t, v₂, .inr (.inl ⟨rfl, rfl, rfl⟩)⟩
      · exact ⟨_, v₁, .inr (.inr ⟨rfl, rfl, rfl⟩)⟩
      · exact ⟨_, v₁, .inr (.inr ⟨rfl, rfl, rfl⟩)⟩
      · exact ⟨t, v₂, .inr (.inl ⟨rfl, rfl, rfl⟩)⟩
    · exact hempty k hk

end Astoria
