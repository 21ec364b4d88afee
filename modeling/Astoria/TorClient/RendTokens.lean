import Astoria.Library.PartialInverse
import Astoria.TorClient.ActiveCircuits

/-!
# Rendezvous tokens

A relay finds the circuit that waits for a rendezvous by its cookie, and the circuit of an
introduction point by the digest of its key, in two maps that are created when they are first
needed.  A circuit keeps its own token.  A token is given up when the circuit gets another one, when
another circuit registers it, and when the circuit is freed; a circuit that is only marked for close
keeps it, and the lookup skips it.

The circuits are numbered in the order in which they are created, and a freed one leaves a gap.
Functions yield `none` where an assertion fails or a circuit is used that has been freed.
`rendTokens_run` says that neither happens, that the maps and the tokens of the circuits are inverse
to each other, and what a lookup and a registration do.
-/

namespace Astoria

open List Option
open Function

/-! ### Circuits and their tokens -/

def circuitPurposeRendPointWaiting : UInt8 := 3

def circuitPurposeIntroPoint : UInt8 := 2

/-- A token and its type. -/
structure RendInfo (τ : Type) where
  isRendCirc : Bool
  rendToken : τ
  deriving DecidableEq

structure RendCircuit (τ : Type) where
  purpose : UInt8
  markedForClose : Bool
  rendinfo : Option (RendInfo τ)
  /-- The circuit that it is joined with. -/
  rendSplice : Option ℕ
  deriving DecidableEq

/-- The circuits and the two maps. -/
structure RendState (τ : Type) where
  circs : List (Option (RendCircuit τ))
  rendCookieMap : Option (τ → Option ℕ)
  introDigestMap : Option (τ → Option ℕ)

namespace RendState

variable {τ : Type}

/-- There are no circuits and no maps. -/
def init : RendState τ := ⟨[], none, none⟩

def circ (s : RendState τ) (c : ℕ) : Option (RendCircuit τ) := s.circs[c]?.join

/-- Fields of a circuit are set. -/
def modify (s : RendState τ) (c : ℕ) (f : RendCircuit τ → RendCircuit τ) : RendState τ :=
  { s with circs := s.circs.modify c (Option.map f) }

def tokenMap (s : RendState τ) (isRendCirc : Bool) : Option (τ → Option ℕ) :=
  if isRendCirc then s.rendCookieMap else s.introDigestMap

def setTokenMap (s : RendState τ) (isRendCirc : Bool) (map : τ → Option ℕ) : RendState τ :=
  if isRendCirc then { s with rendCookieMap := some map } else { s with introDigestMap := some map }

/-- The number of circuits that are not marked for close. -/
def unmarked (s : RendState τ) : ℕ :=
  s.circs.countP fun circ => circ.any fun circ => !circ.markedForClose

/-- A circuit becomes marked. -/
lemma unmarked_modify_lt {s : RendState τ} {c : ℕ} {circ : RendCircuit τ} (h : s.circ c = some circ)
    (hmarked : ¬circ.markedForClose) :
    (s.modify c fun circ => { circ with markedForClose := true }).unmarked < s.unmarked := by
  have hget : s.circs[c]? = some (some circ) := join_eq_some_iff.mp h
  obtain ⟨hc, hcirc⟩ := List.getElem?_eq_some_iff.mp hget
  have hsplit : s.circs = s.circs.take c ++ some circ :: s.circs.drop (c + 1) := by
    rw [← hcirc, ← drop_eq_getElem_cons hc, take_append_drop]
  have hbefore : s.unmarked = (s.circs.take c ++ some circ :: s.circs.drop (c + 1)).countP
      fun circ => circ.any fun circ => !circ.markedForClose := by
    rw [← hsplit, unmarked]
  rw [hbefore, unmarked, modify, modify_eq_take_cons_drop hc, hcirc]
  simp [hmarked]

end RendState

section Model

variable {τ : Type} [DecidableEq τ]

open RendState

/-- The circuit with a purpose that has a token, unless it is marked for close. -/
def circuitGetByRendTokenAndPurpose (s : RendState τ) (purpose : UInt8) (isRendCirc : Bool)
    (token : τ) : Option (Option ℕ) :=
  match s.tokenMap isRendCirc with
  | none => some none
  | some map =>
    match map token with
    | none => some none
    | some c => do
      let circ ← s.circ c
      if circ.purpose ≠ purpose ∨ circ.markedForClose then some none
      else
        match circ.rendinfo with
        | none => some none
        | some info =>
          if info.isRendCirc ≠ isRendCirc ∨ info.rendToken ≠ token then some none else some (some c)

/-- The token of a circuit is cleared and removed from its map, if the map has it for this
circuit. -/
def circuitClearRendToken (s : RendState τ) (c : ℕ) : Option (RendState τ) := do
  let circ ← s.circ c
  match circ.rendinfo with
  | none => some s
  | some info =>
    match s.tokenMap info.isRendCirc with
    | none => some s
    | some map =>
      let s := if map info.rendToken = some c then
          s.setTokenMap info.isRendCirc (update map info.rendToken none)
        else s
      some (s.modify c fun circ => { circ with rendinfo := none })

/-- The circuit is marked for close, and with it the one that it is joined with. -/
def circuitMarkForClose (s : RendState τ) (c : ℕ) : Option (RendState τ) :=
  match _h : s.circ c with
  | none => none
  | some circ =>
    if _hmarked : circ.markedForClose then some s
    else
      let s₁ := s.modify c fun circ => { circ with markedForClose := true }
      match circ.rendSplice with
      | none => some s₁
      | some d =>
        match s₁.circ d with
        | none => none
        | some other =>
          -- the circuit is marked already, so that the recursion ends
          if other.markedForClose then
            some (s₁.modify c fun circ => { circ with rendSplice := none })
          else
            (circuitMarkForClose s₁ d).map
              (RendState.modify · c fun circ => { circ with rendSplice := none })
termination_by s.unmarked
decreasing_by exact unmarked_modify_lt _h _hmarked

/-- The circuit that another one takes a token from gives it up and is marked for close. -/
def circuitReplaceRendToken (s : RendState τ) (c found : ℕ) : Option (RendState τ) := do
  torAssert (found ≠ c)
  let s ← circuitClearRendToken s found
  let circ ← s.circ found
  if circ.markedForClose then some s else circuitMarkForClose s found

/-- The token of a circuit is set, or only cleared. -/
def circuitSetRendToken (s : RendState τ) (c : ℕ) (isRendCirc : Bool) (token : Option τ) :
    Option (RendState τ) := do
  let s := if s.tokenMap isRendCirc = none then s.setTokenMap isRendCirc fun _ => none else s
  let circ ← s.circ c
  let s ← (if circ.rendinfo.isSome then circuitClearRendToken s c else some s)
  match token with
  | none => some s
  | some token =>
    let map ← s.tokenMap isRendCirc
    let s ← (match map token with
      | none => some s
      | some found => circuitReplaceRendToken s c found)
    let s := s.modify c fun circ => { circ with rendinfo := some ⟨isRendCirc, token⟩ }
    let map ← s.tokenMap isRendCirc
    some (s.setTokenMap isRendCirc (update map token (some c)))

/-- The circuit that waits for a rendezvous with a cookie. -/
def circuitGetRendezvous (s : RendState τ) (cookie : τ) : Option (Option ℕ) :=
  circuitGetByRendTokenAndPurpose s circuitPurposeRendPointWaiting true cookie

/-- The circuit that waits for cells to an introduction point. -/
def circuitGetIntroPoint (s : RendState τ) (digest : τ) : Option (Option ℕ) :=
  circuitGetByRendTokenAndPurpose s circuitPurposeIntroPoint false digest

def circuitSetRendezvousCookie (s : RendState τ) (c : ℕ) (cookie : Option τ) :
    Option (RendState τ) :=
  circuitSetRendToken s c true cookie

def circuitSetIntroPointDigest (s : RendState τ) (c : ℕ) (digest : Option τ) :
    Option (RendState τ) :=
  circuitSetRendToken s c false digest

def orCircuitNew (s : RendState τ) : RendState τ :=
  { s with circs := s.circs ++ [some ⟨0, false, none, none⟩] }

/-- A circuit gives up its token, leaves the circuit that it is joined with, and is freed. -/
def circuitFree (s : RendState τ) (c : ℕ) : Option (RendState τ) := do
  let s ← circuitClearRendToken s c
  let circ ← s.circ c
  let s ← (match circ.rendSplice with
    | none => some s
    | some other => do
      let _ ← s.circ other
      some (s.modify other fun circ => { circ with rendSplice := none }))
  some { s with circs := s.circs.set c none }

/-- What happens to the circuits of a relay. -/
inductive RendEvent (τ : Type)
  | newCircuit
  | setRendezvousCookie (c : ℕ) (cookie : Option τ)
  | setIntroPointDigest (c : ℕ) (digest : Option τ)
  | clearRendToken (c : ℕ)
  | getRendezvous (cookie : τ)
  | getIntroPoint (digest : τ)
  | markForClose (c : ℕ)
  | free (c : ℕ)
  | setPurpose (c : ℕ) (purpose : UInt8)
  /-- Two circuits are joined. -/
  | splice (c d : ℕ)

def RendState.step (s : RendState τ) : RendEvent τ → Option (RendState τ)
  | .newCircuit => some (orCircuitNew s)
  | .setRendezvousCookie c cookie => circuitSetRendezvousCookie s c cookie
  | .setIntroPointDigest c digest => circuitSetIntroPointDigest s c digest
  | .clearRendToken c => circuitClearRendToken s c
  | .getRendezvous cookie => (circuitGetRendezvous s cookie).map fun _ => s
  | .getIntroPoint digest => (circuitGetIntroPoint s digest).map fun _ => s
  | .markForClose c => circuitMarkForClose s c
  | .free c => circuitFree s c
  | .setPurpose c purpose => some (s.modify c fun circ => { circ with purpose := purpose })
  | .splice c d => some ((s.modify c fun circ => { circ with rendSplice := some d }).modify d
      fun circ => { circ with rendSplice := some c })

/-- A circuit that is not joined and not marked for close. -/
def RendState.Joinable (s : RendState τ) (c : ℕ) : Prop :=
  ∃ circ, s.circ c = some circ ∧ circ.rendSplice = none ∧ circ.markedForClose = false

/-- The functions are called for circuits that have not been freed, and two circuits are joined if
both are not joined yet and not marked for close. -/
def RendEvent.Ok (s : RendState τ) : RendEvent τ → Prop
  | .newCircuit => True
  | .setRendezvousCookie c _ => (s.circ c).isSome
  | .setIntroPointDigest c _ => (s.circ c).isSome
  | .clearRendToken c => (s.circ c).isSome
  | .getRendezvous _ => True
  | .getIntroPoint _ => True
  | .markForClose c => (s.circ c).isSome
  | .free c => (s.circ c).isSome
  | .setPurpose c _ => (s.circ c).isSome
  | .splice c d => c ≠ d ∧ s.Joinable c ∧ s.Joinable d

end Model

/-! ### The maps and the tokens of the circuits -/

namespace RendState

variable {τ : Type} {s s' : RendState τ} {c d : ℕ} {circ : RendCircuit τ}

/-- The circuit that a map has for a token. -/
def mapped (s : RendState τ) (k : RendInfo τ) : Option ℕ :=
  (s.tokenMap k.isRendCirc).bind (· k.rendToken)

/-- The token of a circuit. -/
def held (s : RendState τ) (c : ℕ) : Option (RendInfo τ) := (s.circ c).bind RendCircuit.rendinfo

/-- The circuit that a circuit is joined with. -/
def splice (s : RendState τ) (c : ℕ) : Option ℕ := (s.circ c).bind RendCircuit.rendSplice

/-- The circuit is marked for close. -/
def marked (s : RendState τ) (c : ℕ) : Bool := (s.circ c).any RendCircuit.markedForClose

lemma circ_modify (s : RendState τ) (c d : ℕ) (f : RendCircuit τ → RendCircuit τ) :
    (s.modify c f).circ d = if c = d then (s.circ d).map f else s.circ d := by
  unfold circ modify
  rw [getElem?_modify]
  split
  · cases s.circs[d]? with
    | none => rfl
    | some o => cases o <;> rfl
  · cases s.circs[d]? <;> rfl

@[simp]
lemma circ_modify_self (s : RendState τ) (c : ℕ) (f : RendCircuit τ → RendCircuit τ) :
    (s.modify c f).circ c = (s.circ c).map f := by
  rw [circ_modify, if_pos rfl]

lemma circ_modify_ne (s : RendState τ) (h : c ≠ d) (f : RendCircuit τ → RendCircuit τ) :
    (s.modify c f).circ d = s.circ d := by
  rw [circ_modify, if_neg h]

@[simp]
lemma mapped_modify (s : RendState τ) (c : ℕ) (f : RendCircuit τ → RendCircuit τ) :
    (s.modify c f).mapped = s.mapped := rfl

@[simp]
lemma circ_setTokenMap (s : RendState τ) (b : Bool) (map : τ → Option ℕ) :
    (s.setTokenMap b map).circ = s.circ := by
  cases b <;> rfl

@[simp]
lemma tokenMap_setTokenMap (s : RendState τ) (b b' : Bool) (map : τ → Option ℕ) :
    (s.setTokenMap b map).tokenMap b' = if b' = b then some map else s.tokenMap b' := by
  cases b <;> cases b' <;> rfl

lemma mapped_setTokenMap [DecidableEq τ] {b : Bool} {map : τ → Option ℕ}
    (h : s.tokenMap b = some map) (t : τ) (o : Option ℕ) :
    (s.setTokenMap b (update map t o)).mapped = update s.mapped ⟨b, t⟩ o := by
  funext k
  rw [mapped, tokenMap_setTokenMap]
  by_cases hb : k.isRendCirc = b
  · rw [if_pos hb, bind_some]
    by_cases ht : k.rendToken = t
    · have hk : k = ⟨b, t⟩ := by rw [← hb, ← ht]
      rw [ht, hk, update_self, update_self]
    · have hk : k ≠ ⟨b, t⟩ := fun hk => ht (by rw [hk])
      rw [update_of_ne ht, update_of_ne hk, mapped, hb, h, bind_some]
  · have hk : k ≠ ⟨b, t⟩ := fun hk => hb (by rw [hk])
    rw [if_neg hb, update_of_ne hk, mapped]

lemma held_congr (h : s'.circ = s.circ) : s'.held = s.held := by
  funext d
  rw [held, held, h]

lemma held_modify (hlive : s.circ c = some circ) (o : Option (RendInfo τ)) :
    (s.modify c fun circ => { circ with rendinfo := o }).held = update s.held c o := by
  funext d
  by_cases hd : d = c
  · subst hd
    rw [update_self, held, circ_modify_self, hlive]
    rfl
  · rw [update_of_ne hd, held, circ_modify_ne s (Ne.symm hd), held]

/-- The joined circuits.  Both know of each other, and neither is marked for close. -/
def SplicesOk (s : RendState τ) : Prop :=
  ∀ c d, s.splice c = some d → s.splice d = some c ∧ s.marked c = false

/-- Fields of a circuit but its mark and its joined circuit are set. -/
lemma SplicesOk.modify (h : s.SplicesOk) {f : RendCircuit τ → RendCircuit τ}
    (hsplice : ∀ circ, (f circ).rendSplice = circ.rendSplice)
    (hmarked : ∀ circ, (f circ).markedForClose = circ.markedForClose) (c : ℕ) :
    (s.modify c f).SplicesOk := by
  have hsame : ∀ d, (s.modify c f).splice d = s.splice d ∧
      (s.modify c f).marked d = s.marked d := by
    intro d
    unfold splice marked
    rw [circ_modify]
    split
    · cases s.circ d with
      | none => exact ⟨rfl, rfl⟩
      | some circ => exact ⟨hsplice circ, hmarked circ⟩
    · exact ⟨rfl, rfl⟩
  intro d e hd
  rw [(hsame d).1] at hd
  rw [(hsame e).1, (hsame d).2]
  exact h d e hd

lemma SplicesOk.setRendinfo (h : s.SplicesOk) (c : ℕ) (o : Option (RendInfo τ)) :
    (s.modify c fun circ => { circ with rendinfo := o }).SplicesOk :=
  h.modify (f := fun circ => { circ with rendinfo := o }) (fun _ => rfl) (fun _ => rfl) c

lemma SplicesOk.congr (h : s.SplicesOk) (hcirc : s'.circ = s.circ) : s'.SplicesOk := by
  unfold SplicesOk splice marked at *
  rw [hcirc]
  exact h

end RendState

section Operations

variable {τ : Type} [DecidableEq τ] {s : RendState τ} {c : ℕ} {circ : RendCircuit τ}

open RendState

lemma circuitClearRendToken_of_held_none (hlive : s.circ c = some circ) (h : s.held c = none) :
    circuitClearRendToken s c = some s := by
  have hinfo : circ.rendinfo = none := by
    rw [← h, held, hlive, bind_some]
  rw [circuitClearRendToken, some_bind hlive, hinfo]

lemma circuitClearRendToken_of_held (htokens : Inverse s.mapped s.held) {k : RendInfo τ}
    (h : s.held c = some k) :
    ∃ s₁ : RendState τ,
      circuitClearRendToken s c = some (s₁.modify c fun circ => { circ with rendinfo := none }) ∧
        s₁.circ = s.circ ∧ s₁.mapped = update s.mapped k none ∧
        ∀ b, (s.tokenMap b).isSome → (s₁.tokenMap b).isSome := by
  obtain ⟨circ, hlive, hinfo⟩ := bind_eq_some_iff.mp h
  obtain ⟨map, hmap, hc⟩ := bind_eq_some_iff.mp ((htokens k c).mpr h)
  refine ⟨s.setTokenMap k.isRendCirc (update map k.rendToken none), ?_,
    circ_setTokenMap _ _ _, mapped_setTokenMap hmap _ _, fun b hb => ?_⟩
  · rw [circuitClearRendToken, some_bind hlive, hinfo]
    simp only [hmap, if_pos hc]
  · rw [tokenMap_setTokenMap]
    split
    · rfl
    · exact hb

/-- **A circuit gives up its token.**  The other circuits are as before. -/
lemma exists_circuitClearRendToken (htokens : Inverse s.mapped s.held)
    (hlive : s.circ c = some circ) :
    ∃ s', circuitClearRendToken s c = some s' ∧ Inverse s'.mapped s'.held ∧
      s'.held = update s.held c none ∧
      s'.circ = (s.modify c fun circ => { circ with rendinfo := none }).circ ∧
      (∀ k, s.mapped k = none → s'.mapped k = none) ∧
      ∀ b, (s.tokenMap b).isSome → (s'.tokenMap b).isSome := by
  cases h : s.held c with
  | none =>
    have hinfo : circ.rendinfo = none := by
      rw [← h, held, hlive, bind_some]
    refine ⟨s, circuitClearRendToken_of_held_none hlive h, htokens, ?_, ?_, fun _ hk => hk,
      fun _ hb => hb⟩
    · rw [← h, update_eq_self]
    · funext d
      by_cases hd : c = d
      · subst hd
        rw [circ_modify_self, hlive, map_some, ← hinfo]
      · rw [circ_modify_ne s hd]
  | some k =>
    obtain ⟨s₁, hs₁, hcirc, hmapped, hmaps⟩ := circuitClearRendToken_of_held htokens h
    have hheld := held_modify (s := s₁) (c := c) (hcirc ▸ hlive) none
    rw [held_congr hcirc] at hheld
    refine ⟨_, hs₁, ?_, hheld, ?_, fun k' hk' => ?_, hmaps⟩
    · rw [mapped_modify, hmapped, hheld]
      exact htokens.erase h
    · funext d
      rw [circ_modify, circ_modify, hcirc]
    · rw [mapped_modify, hmapped]
      by_cases hkk : k' = k
      · rw [hkk, update_self]
      · rw [update_of_ne hkk, hk']

end Operations

section Closing

variable {τ : Type} {s s' : RendState τ} {c : ℕ} {circ : RendCircuit τ}

open RendState

lemma circuitMarkForClose_of_marked (hlive : s.circ c = some circ) (h : circ.markedForClose) :
    circuitMarkForClose s c = some s := by
  rw [circuitMarkForClose]
  split
  · next hnone => cases hlive.symm.trans hnone
  · next circ' hsome =>
    obtain rfl := some.inj (hlive.symm.trans hsome)
    rw [dif_pos h]

lemma circuitMarkForClose_of_unjoined (hlive : s.circ c = some circ) (h : ¬circ.markedForClose)
    (hsplice : circ.rendSplice = none) :
    circuitMarkForClose s c =
      some (s.modify c fun circ => { circ with markedForClose := true }) := by
  rw [circuitMarkForClose]
  split
  · next hnone => cases hlive.symm.trans hnone
  · next circ' hsome =>
    obtain rfl := some.inj (hlive.symm.trans hsome)
    rw [dif_neg h, hsplice]

lemma circuitMarkForClose_of_joined (hlive : s.circ c = some circ) (h : ¬circ.markedForClose)
    {d : ℕ} (hsplice : circ.rendSplice = some d) {other : RendCircuit τ}
    (hother : (s.modify c fun circ => { circ with markedForClose := true }).circ d = some other) :
    circuitMarkForClose s c =
      if other.markedForClose then
        some ((s.modify c fun circ => { circ with markedForClose := true }).modify c
          fun circ => { circ with rendSplice := none })
      else
        (circuitMarkForClose (s.modify c fun circ => { circ with markedForClose := true }) d).map
          (RendState.modify · c fun circ => { circ with rendSplice := none }) := by
  conv_lhs => rw [circuitMarkForClose]
  split
  · next hnone => cases hlive.symm.trans hnone
  · next circ' hsome =>
    obtain rfl := some.inj (hlive.symm.trans hsome)
    rw [dif_neg h, hsplice]
    simp only [hother]

/-- A circuit that has been marked for close, and is not joined any more. -/
def RendCircuit.close (circ : RendCircuit τ) : RendCircuit τ :=
  { circ with markedForClose := true, rendSplice := none }

/-- A circuit and the one that it is joined with are closed. -/
def Closed (s s' : RendState τ) (c : ℕ) : Prop :=
  s'.tokenMap = s.tokenMap ∧ ∀ d, s'.circ d =
    if d = c ∨ s.splice c = some d then (s.circ d).map RendCircuit.close else s.circ d

/-- **A circuit is marked for close**, and so is the one that it is joined with. -/
lemma exists_circuitMarkForClose (hsplices : s.SplicesOk) (hlive : s.circ c = some circ)
    (hmarked : ¬circ.markedForClose) :
    ∃ s', circuitMarkForClose s c = some s' ∧ Closed s s' c := by
  cases hsplice : circ.rendSplice with
  | none =>
    refine ⟨_, circuitMarkForClose_of_unjoined hlive hmarked hsplice, rfl, fun d => ?_⟩
    have hnone : s.splice c = none := by rw [splice, hlive, bind_some, hsplice]
    by_cases hd : d = c
    · subst hd
      rw [circ_modify_self, if_pos (.inl rfl), hlive, map_some, map_some,
        RendCircuit.close, hsplice]
    · rw [circ_modify_ne s (Ne.symm hd), if_neg]
      rintro (h | h)
      · exact hd h
      · rw [hnone] at h
        cases h
  | some d =>
    have hcd : s.splice c = some d := by rw [splice, hlive, bind_some, hsplice]
    obtain ⟨hdc, -⟩ := hsplices c d hcd
    obtain ⟨other, hother, hback⟩ := bind_eq_some_iff.mp hdc
    have hother' := circ_modify s c d fun circ => { circ with markedForClose := true }
    by_cases hne : c = d
    · -- joined with itself: it is marked by now
      subst hne
      obtain rfl := some.inj (hlive.symm.trans hother)
      rw [if_pos rfl, hlive, map_some] at hother'
      refine ⟨_, (circuitMarkForClose_of_joined hlive hmarked hsplice hother').trans (if_pos rfl),
        rfl,
        fun e => ?_⟩
      by_cases he : e = c
      · subst he
        rw [circ_modify_self, circ_modify_self, if_pos (.inl rfl), hlive]
        rfl
      · rw [circ_modify_ne _ (Ne.symm he), circ_modify_ne _ (Ne.symm he), if_neg]
        rintro (h | h)
        · exact he h
        · exact he (some.inj (h.symm.trans hcd))
    · rw [if_neg hne, hother] at hother'
      have hunmarked : ¬other.markedForClose := by
        have hm := (hsplices d c hdc).2
        rw [marked, hother, any_some] at hm
        rw [hm]
        exact Bool.false_ne_true
      -- the other circuit finds this one marked
      have hthis : ((s.modify c fun circ => { circ with markedForClose := true }).modify d
          fun circ => { circ with markedForClose := true }).circ c =
          some { circ with markedForClose := true } := by
        rw [circ_modify_ne _ (Ne.symm hne), circ_modify_self, hlive, map_some]
      have hrec := (circuitMarkForClose_of_joined hother' hunmarked hback hthis).trans (if_pos rfl)
      refine ⟨_, (circuitMarkForClose_of_joined hlive hmarked hsplice hother').trans
        ((if_neg hunmarked).trans (congrArg _ hrec)), rfl, fun e => ?_⟩
      by_cases hec : e = c
      · subst hec
        rw [circ_modify_self, circ_modify_ne _ (Ne.symm hne), hthis, if_pos (.inl rfl), hlive]
        rfl
      · by_cases hed : e = d
        · subst hed
          rw [circ_modify_ne _ hne, circ_modify_self, circ_modify_self, hother',
            if_pos (.inr hcd), hother]
          rfl
        · rw [circ_modify_ne _ (Ne.symm hec), circ_modify_ne _ (Ne.symm hed),
            circ_modify_ne _ (Ne.symm hed), circ_modify_ne _ (Ne.symm hec), if_neg]
          rintro (h | h)
          · exact hec h
          · exact hed (some.inj (h.symm.trans hcd))

namespace Closed

variable (h : Closed s s' c)

include h

lemma circ_eq (d : ℕ) : s'.circ d = s.circ d ∨ s'.circ d = (s.circ d).map RendCircuit.close := by
  rw [h.2 d]
  split
  · exact .inr rfl
  · exact .inl rfl

lemma held : s'.held = s.held := by
  funext d
  rw [RendState.held, RendState.held]
  rcases h.circ_eq d with heq | heq
  · rw [heq]
  · rw [heq]
    cases s.circ d <;> rfl

lemma mapped : s'.mapped = s.mapped := by
  funext k
  rw [RendState.mapped, RendState.mapped, h.1]

lemma isSome (d : ℕ) : (s'.circ d).isSome = (s.circ d).isSome := by
  rcases h.circ_eq d with heq | heq
  · rw [heq]
  · rw [heq, isSome_map]

/-- A circuit that is still joined is not closed. -/
lemma of_splice {d e : ℕ} (hde : s'.splice d = some e) :
    d ≠ c ∧ s.splice c ≠ some d ∧ s'.circ d = s.circ d := by
  have hnot : ¬(d = c ∨ s.splice c = some d) := by
    intro hclosed
    rw [splice, h.2 d, if_pos hclosed] at hde
    cases hd : s.circ d with
    | none =>
      rw [hd] at hde
      cases hde
    | some circ =>
      rw [hd] at hde
      cases hde
  obtain ⟨hdc, hcd⟩ := not_or.mp hnot
  refine ⟨hdc, hcd, ?_⟩
  rw [h.2 d, if_neg hnot]

/-- The circuits that are still joined know of each other. -/
lemma splices (hsplices : s.SplicesOk) : s'.SplicesOk := by
  intro d e hde
  obtain ⟨hdc, hcd, heq⟩ := h.of_splice hde
  rw [splice, heq] at hde
  obtain ⟨hed, hmarked⟩ := hsplices d e hde
  have hnot : ¬(e = c ∨ s.splice c = some e) := by
    rintro (rfl | hce)
    · exact hcd hed
    · have hec := (hsplices c e hce).1
      exact hdc (some.inj (hed.symm.trans hec))
  constructor
  · rw [splice, h.2 e, if_neg hnot]
    exact hed
  · rw [marked, heq]
    exact hmarked

lemma marked (hlive : (s.circ c).isSome) : s'.marked c := by
  obtain ⟨circ, hcirc⟩ := isSome_iff_exists.mp hlive
  rw [RendState.marked, h.2 c, if_pos (.inl rfl), hcirc]
  rfl

end Closed

/-- What is left of a circuit and of all maps, if it is marked for close or was so before. -/
lemma exists_circuitMarkForClose_or (hsplices : s.SplicesOk) (hlive : s.circ c = some circ) :
    ∃ s', (if circ.markedForClose then some s else circuitMarkForClose s c) = some s' ∧
      s'.tokenMap = s.tokenMap ∧ s'.held = s.held ∧ s'.SplicesOk ∧ s'.marked c ∧
      (∀ d, (s'.circ d).isSome = (s.circ d).isSome) ∧
      ∀ d, s.marked d → s'.marked d := by
  by_cases hmarked : circ.markedForClose
  · refine ⟨s, if_pos hmarked, rfl, rfl, hsplices, ?_, fun _ => rfl, fun _ hd => hd⟩
    rw [marked, hlive]
    exact hmarked
  · obtain ⟨s', hs', hclosed⟩ := exists_circuitMarkForClose hsplices hlive hmarked
    refine ⟨s', (if_neg hmarked).trans hs', hclosed.1, hclosed.held, hclosed.splices hsplices,
      hclosed.marked (hlive ▸ rfl), hclosed.isSome, fun d hd => ?_⟩
    rw [marked] at hd ⊢
    rcases hclosed.circ_eq d with heq | heq
    · rw [heq, hd]
    · rw [heq]
      cases hcirc : s.circ d with
      | none =>
        rw [hcirc] at hd
        cases hd
      | some circ => rfl

end Closing

/-! ### What the operations keep -/

/-- The maps and the tokens of the circuits are inverse to each other, and so are the two pointers
of joined circuits. -/
structure RendOk {τ : Type} (s : RendState τ) : Prop where
  tokens : Inverse s.mapped s.held
  splices : s.SplicesOk

section Keeping

variable {τ : Type} [DecidableEq τ] {s : RendState τ} {c : ℕ}

open RendState

/-- A circuit that has a token gives it up and is marked. -/
lemma exists_circuitReplaceRendToken (h : RendOk s) {found : ℕ} (hne : found ≠ c) {k : RendInfo τ}
    (hfound : s.held found = some k) :
    ∃ s', circuitReplaceRendToken s c found = some s' ∧ RendOk s' ∧
      s'.held = update s.held found none ∧ s'.mapped k = none ∧ s'.marked found ∧
      (∀ d, (s'.circ d).isSome = (s.circ d).isSome) ∧
      ∀ b, (s.tokenMap b).isSome → (s'.tokenMap b).isSome := by
  obtain ⟨circ, hlive, -⟩ := bind_eq_some_iff.mp hfound
  obtain ⟨s₁, hs₁, htokens, hheld, hcirc, -, hmaps⟩ := exists_circuitClearRendToken h.tokens hlive
  have hlive₁ : s₁.circ found = some { circ with rendinfo := none } := by
    rw [hcirc, circ_modify_self, hlive, map_some]
  have hsplices₁ : s₁.SplicesOk := by
    apply SplicesOk.congr _ hcirc
    exact h.splices.setRendinfo found none
  obtain ⟨s₂, hs₂, hmap₂, hheld₂, hsplices₂, hmarked, hisSome, -⟩ :=
    exists_circuitMarkForClose_or hsplices₁ hlive₁
  have hmapped₂ : s₂.mapped = s₁.mapped := by
    funext k'
    rw [mapped, mapped, hmap₂]
  have htokens₂ : Inverse s₂.mapped s₂.held := by
    rw [hmapped₂, hheld₂]
    exact htokens
  have hall : s₂.held = update s.held found none := hheld₂.trans hheld
  refine ⟨s₂, ?_, ⟨htokens₂, hsplices₂⟩, hall, ?_, hmarked, fun d => ?_, fun b hb => ?_⟩
  · rw [circuitReplaceRendToken, torAssert_bind hne, some_bind hs₁, some_bind hlive₁]
    exact hs₂
  · by_contra hsome
    obtain ⟨e, he⟩ := ne_none_iff_exists'.mp hsome
    have hheldBy := (htokens₂ k e).mp he
    rw [hall] at hheldBy
    by_cases hef : e = found
    · rw [hef, update_self] at hheldBy
      cases hheldBy
    · rw [update_of_ne hef] at hheldBy
      exact hef (h.tokens.owner_unique hheldBy hfound)
  · rw [hisSome, hcirc, circ_modify]
    split
    · exact isSome_map
    · rfl
  · rw [hmap₂]
    exact hmaps b hb

omit [DecidableEq τ] in
/-- The map that is needed is created. -/
lemma exists_ensured (s : RendState τ) (b : Bool) :
    ∃ s', (if s.tokenMap b = none then s.setTokenMap b fun _ => none else s) = s' ∧
      s'.circ = s.circ ∧ s'.mapped = s.mapped ∧ (s'.tokenMap b).isSome := by
  by_cases hmap : s.tokenMap b = none
  · refine ⟨_, if_pos hmap, circ_setTokenMap _ _ _, ?_, ?_⟩
    · funext k
      rw [mapped, mapped, tokenMap_setTokenMap]
      by_cases hk : k.isRendCirc = b
      · rw [if_pos hk, hk, hmap]
        rfl
      · rw [if_neg hk]
    · rw [tokenMap_setTokenMap, if_pos rfl]
      rfl
  · exact ⟨s, if_neg hmap, rfl, rfl, isSome_iff_ne_none.mpr hmap⟩

/-- What a registration leaves.  The circuit has the token, and one that had it before has none and
is marked for close; every other circuit has the token that it had. -/
structure Registered (s s' : RendState τ) (c : ℕ) (k : Option (RendInfo τ)) : Prop where
  ok : RendOk s'
  held_self : s'.held c = k
  held_replaced : ∀ d ≠ c, s.held d = k → s'.held d = none
  marked_replaced : ∀ d ≠ c, s.held d = k → k ≠ none → s'.marked d
  held_other : ∀ d ≠ c, s.held d ≠ k → s'.held d = s.held d
  isSome : ∀ d, (s'.circ d).isSome = (s.circ d).isSome

/-- A token that no circuit has is given to a circuit without one. -/
lemma exists_give (h : RendOk s) (hlive : (s.circ c).isSome) (hheld : s.held c = none)
    {b : Bool} {t : τ} (hfree : s.mapped ⟨b, t⟩ = none) (hmap : (s.tokenMap b).isSome) :
    ∃ s', (do
        let s := s.modify c fun circ => { circ with rendinfo := some ⟨b, t⟩ }
        let map ← s.tokenMap b
        some (s.setTokenMap b (update map t (some c)))) = some s' ∧
      RendOk s' ∧ s'.held = update s.held c (some ⟨b, t⟩) ∧
      (∀ d, (s'.circ d).isSome = (s.circ d).isSome) ∧ s'.marked = s.marked := by
  obtain ⟨map, hmap⟩ := isSome_iff_exists.mp hmap
  obtain ⟨circ, hcirc⟩ := isSome_iff_exists.mp hlive
  have hmap₁ : (s.modify c fun circ => { circ with rendinfo := some ⟨b, t⟩ }).tokenMap b =
    some map := hmap
  have hmapped := mapped_setTokenMap hmap₁ t (some c)
  have hheld' : ((s.modify c fun circ => { circ with rendinfo := some ⟨b, t⟩ }).setTokenMap b
      (update map t (some c))).held = update s.held c (some ⟨b, t⟩) := by
    rw [held_congr (circ_setTokenMap _ _ _), held_modify hcirc]
  refine ⟨_, by simp only [hmap₁, bind_eq_bind, bind_some], ⟨?_, ?_⟩, hheld',
    fun d => ?_, ?_⟩
  · rw [hmapped, hheld']
    exact h.tokens.insert hfree hheld
  · apply SplicesOk.congr _ (circ_setTokenMap _ _ _)
    exact h.splices.setRendinfo c (some ⟨b, t⟩)
  · rw [circ_setTokenMap, circ_modify]
    split
    · exact isSome_map
    · rfl
  · funext d
    rw [marked, marked, circ_setTokenMap, circ_modify]
    split
    · cases s.circ d <;> rfl
    · rfl

/-- **A circuit without a token gets one.**  A circuit that had it loses it. -/
lemma exists_register (h : RendOk s) (hlive : (s.circ c).isSome) (hheld : s.held c = none)
    {b : Bool} {map : τ → Option ℕ} (hmap : s.tokenMap b = some map) (t : τ) :
    ∃ s', (do
        let s ← (match map t with
          | none => some s
          | some found => circuitReplaceRendToken s c found)
        let s := s.modify c fun circ => { circ with rendinfo := some ⟨b, t⟩ }
        let map ← s.tokenMap b
        some (s.setTokenMap b (update map t (some c)))) = some s' ∧
      Registered s s' c (some ⟨b, t⟩) := by
  have hmapped : s.mapped ⟨b, t⟩ = map t := by rw [mapped, hmap, bind_some]
  cases hfound : map t with
  | none =>
    rw [hfound] at hmapped
    obtain ⟨s', hs', hok, hheld', hisSome, -⟩ := exists_give h hlive hheld hmapped (hmap ▸ rfl)
    refine ⟨s', by rw [bind_eq_bind, bind_some]; exact hs', hok, ?_, fun d hd hdk => ?_,
      fun d hd hdk => ?_, fun d hd _ => ?_, hisSome⟩
    · rw [hheld', update_self]
    · exact absurd hdk (h.tokens.not_held hmapped d)
    · exact absurd hdk (h.tokens.not_held hmapped d)
    · rw [hheld', update_of_ne hd]
  | some found =>
    rw [hfound] at hmapped
    have hfoundHeld := (h.tokens _ _).mp hmapped
    have hne : found ≠ c := by
      rintro rfl
      rw [hheld] at hfoundHeld
      cases hfoundHeld
    obtain ⟨s₁, hs₁, hok₁, hheld₁, hfree, hmarked, hisSome₁, hmaps⟩ :=
      exists_circuitReplaceRendToken h hne hfoundHeld
    have hheldc : s₁.held c = none := by rw [hheld₁, update_of_ne (Ne.symm hne), hheld]
    obtain ⟨s', hs', hok, hheld', hisSome, hmarks⟩ :=
      exists_give hok₁ (hisSome₁ c ▸ hlive) hheldc hfree (hmaps b (hmap ▸ rfl))
    have hunique : ∀ d, s.held d = some ⟨b, t⟩ → d = found := fun d hd =>
      h.tokens.owner_unique hd hfoundHeld
    refine ⟨s', by simp only [hs₁]; exact hs', hok, ?_,
      fun d hd hdk => ?_, fun d hd hdk _ => ?_, fun d hd hdk => ?_, fun d => ?_⟩
    · rw [hheld', update_self]
    · rw [hheld', update_of_ne hd, hheld₁, hunique d hdk, update_self]
    · rw [hmarks, hunique d hdk]
      exact hmarked
    · have hdf : d ≠ found := by
        rintro rfl
        exact hdk hfoundHeld
      rw [hheld', update_of_ne hd, hheld₁, update_of_ne hdf]
    · rw [hisSome, hisSome₁]

/-- **A registration** keeps the maps and the tokens inverse to each other. -/
lemma exists_circuitSetRendToken (h : RendOk s) (hlive : (s.circ c).isSome) (b : Bool)
    (token : Option τ) :
    ∃ s', circuitSetRendToken s c b token = some s' ∧
    Registered s s' c (token.map (RendInfo.mk b)) := by
  obtain ⟨s₀, hs₀, hcirc₀, hmapped₀, hmaps₀⟩ := exists_ensured s b
  obtain ⟨circ, hlive⟩ := isSome_iff_exists.mp hlive
  have hlive₀ : s₀.circ c = some circ := hcirc₀ ▸ hlive
  have hheld₀ : s₀.held = s.held := held_congr hcirc₀
  have htokens₀ : Inverse s₀.mapped s₀.held := by
    rw [hmapped₀, hheld₀]
    exact h.tokens
  obtain ⟨s₁, hs₁, htokens₁, hheld₁, hcirc₁, -, hmaps₁⟩ :=
    exists_circuitClearRendToken htokens₀ hlive₀
  have hclear : (if circ.rendinfo.isSome then circuitClearRendToken s₀ c else some s₀) =
      some s₁ := by
    split
    · exact hs₁
    · next hnone =>
      have hheld : s₀.held c = none := by
        rw [held, hlive₀, bind_some]
        exact not_isSome_iff_eq_none.mp hnone
      rw [← hs₁, circuitClearRendToken_of_held_none hlive₀ hheld]
  have hsplices₁ : s₁.SplicesOk := by
    apply SplicesOk.congr _ hcirc₁
    exact (h.splices.congr hcirc₀).setRendinfo c none
  have hisSome₁ : ∀ d, (s₁.circ d).isSome = (s.circ d).isSome := by
    intro d
    rw [hcirc₁, circ_modify, hcirc₀]
    split
    · exact isSome_map
    · rfl
  have hheldc : s₁.held c = none := by rw [hheld₁, update_self]
  have hother : ∀ d, d ≠ c → s₁.held d = s.held d := fun d hd => by
    rw [hheld₁, update_of_ne hd, hheld₀]
  rw [circuitSetRendToken]
  simp only [hs₀]
  rw [some_bind hlive₀, some_bind hclear]
  cases token with
  | none =>
    refine ⟨s₁, rfl, ⟨htokens₁, hsplices₁⟩, hheldc, fun d hd hdk => (hother d hd).trans hdk,
      fun d hd _ hk => absurd rfl hk, fun d hd _ => hother d hd, hisSome₁⟩
  | some t =>
    obtain ⟨map, hmap⟩ := isSome_iff_exists.mp (hmaps₁ b hmaps₀)
    obtain ⟨s', hs', hreg⟩ := exists_register ⟨htokens₁, hsplices₁⟩
      ((hisSome₁ c).trans (hlive ▸ rfl)) hheldc hmap t
    refine ⟨s', ?_, hreg.ok, hreg.held_self, fun d hd hdk => ?_, fun d hd hdk => ?_,
      fun d hd hdk => ?_,
      fun d => ?_⟩
    · simp only [hmap]
      exact hs'
    · exact hreg.held_replaced d hd ((hother d hd).trans hdk)
    · exact hreg.marked_replaced d hd ((hother d hd).trans hdk)
    · rw [hreg.held_other d hd (hother d hd ▸ hdk), hother d hd]
    · rw [hreg.isSome, hisSome₁]

omit [DecidableEq τ] in
/-- States in which the circuits have the same tokens, marks and joined circuits, and the same
maps. -/
lemma RendOk.congr (h : RendOk s) {s' : RendState τ} (hmapped : s'.mapped = s.mapped)
    (hheld : s'.held = s.held) (hsplice : s'.splice = s.splice) (hmarked : s'.marked = s.marked) :
    RendOk s' := by
  constructor
  · rw [hmapped, hheld]
    exact h.tokens
  · unfold SplicesOk
    rw [hsplice, hmarked]
    exact h.splices

omit [DecidableEq τ] in
lemma RendOk.orCircuitNew (h : RendOk s) : RendOk (orCircuitNew s) := by
  have hcirc : ∀ d, (Astoria.orCircuitNew s).circ d =
      if d = s.circs.length then some ⟨0, false, none, none⟩ else s.circ d := by
    intro d
    unfold Astoria.orCircuitNew circ
    by_cases hd : d < s.circs.length
    · rw [getElem?_append_left hd, if_neg (Nat.ne_of_lt hd)]
    · rw [getElem?_append_right (Nat.not_lt.mp hd)]
      by_cases heq : d = s.circs.length
      · rw [if_pos heq, heq, Nat.sub_self]
        rfl
      · rw [if_neg heq, getElem?_eq_none (by simp; omega), getElem?_eq_none (by omega)]
  have hnone : s.circ s.circs.length = none := by
    rw [circ, getElem?_eq_none (Nat.le_refl _)]
    rfl
  refine h.congr rfl (funext fun d => ?_) (funext fun d => ?_) (funext fun d => ?_)
  · rw [held, held, hcirc]
    split
    · next hd => rw [hd, hnone]; rfl
    · rfl
  · rw [splice, splice, hcirc]
    split
    · next hd => rw [hd, hnone]; rfl
    · rfl
  · rw [marked, marked, hcirc]
    split
    · next hd => rw [hd, hnone]; rfl
    · rfl

omit [DecidableEq τ] in
lemma RendOk.setPurpose (h : RendOk s) (c : ℕ) (purpose : UInt8) :
    RendOk (s.modify c fun circ => { circ with purpose := purpose }) := by
  refine h.congr rfl (funext fun d => ?_) (funext fun d => ?_) (funext fun d => ?_)
  · rw [held, held, circ_modify]
    cases s.circ d <;> split <;> rfl
  · rw [splice, splice, circ_modify]
    cases s.circ d <;> split <;> rfl
  · rw [marked, marked, circ_modify]
    cases s.circ d <;> split <;> rfl

omit [DecidableEq τ] in
lemma RendOk.join (h : RendOk s) {d : ℕ} (hne : c ≠ d) (hc : s.Joinable c) (hd : s.Joinable d) :
    RendOk ((s.modify c fun circ => { circ with rendSplice := some d }).modify d
      fun circ => { circ with rendSplice := some c }) := by
  obtain ⟨circc, hcircc, hsplicec, hmarkedc⟩ := hc
  obtain ⟨circd, hcircd, hspliced, hmarkedd⟩ := hd
  have hcnone : s.splice c = none := by rw [splice, hcircc, bind_some, hsplicec]
  have hdnone : s.splice d = none := by rw [splice, hcircd, bind_some, hspliced]
  set s' := (s.modify c fun circ => { circ with rendSplice := some d }).modify d
    fun circ => { circ with rendSplice := some c } with hs'
  have hmarked : ∀ e, s'.marked e = s.marked e := by
    intro e
    rw [marked, marked, hs', circ_modify, circ_modify]
    cases s.circ e <;> split <;> split <;> rfl
  have hheld : s'.held = s.held := by
    funext e
    rw [held, held, hs', circ_modify, circ_modify]
    cases s.circ e <;> split <;> split <;> rfl
  have hsc : s'.splice c = some d := by
    rw [splice, hs', circ_modify_ne _ (Ne.symm hne), circ_modify_self, hcircc]
    rfl
  have hsd : s'.splice d = some c := by
    rw [splice, hs', circ_modify_self, circ_modify_ne _ hne, hcircd]
    rfl
  have hother : ∀ e, e ≠ c → e ≠ d → s'.splice e = s.splice e := by
    intro e hec hed
    rw [splice, hs', circ_modify_ne _ (Ne.symm hed), circ_modify_ne _ (Ne.symm hec), splice]
  refine ⟨?_, fun e x hex => ?_⟩
  · rw [hheld]
    exact h.tokens
  · by_cases hec : e = c
    · subst hec
      obtain rfl := some.inj (hsc.symm.trans hex)
      exact ⟨hsd, by rw [hmarked, marked, hcircc, any_some, hmarkedc]⟩
    · by_cases hed : e = d
      · subst hed
        obtain rfl := some.inj (hsd.symm.trans hex)
        exact ⟨hsc, by rw [hmarked, marked, hcircd, any_some, hmarkedd]⟩
      · rw [hother e hec hed] at hex
        obtain ⟨hxe, hunmarked⟩ := h.splices e x hex
        have hxc : x ≠ c := by
          rintro rfl
          rw [hcnone] at hxe
          cases hxe
        have hxd : x ≠ d := by
          rintro rfl
          rw [hdnone] at hxe
          cases hxe
        exact ⟨(hother x hxc hxd).trans hxe, (hmarked e).trans hunmarked⟩

omit [DecidableEq τ] in
lemma circ_set_none (s : RendState τ) (c d : ℕ) :
    ({ s with circs := s.circs.set c none } : RendState τ).circ d = if d = c then none
      else s.circ d := by
  unfold circ
  by_cases hd : d = c
  · subst hd
    rw [if_pos rfl, getElem?_set_self']
    cases s.circs[d]? <;> rfl
  · rw [if_neg hd, getElem?_set_ne (Ne.symm hd)]

/-- **A circuit is freed.**  It takes its token with it. -/
lemma exists_circuitFree (h : RendOk s) (hlive : (s.circ c).isSome) :
    ∃ s', circuitFree s c = some s' ∧ RendOk s' := by
  obtain ⟨circ, hlive⟩ := isSome_iff_exists.mp hlive
  obtain ⟨s₁, hs₁, htokens₁, hheld₁, hcirc₁, -, -⟩ := exists_circuitClearRendToken h.tokens hlive
  have hlive₁ : s₁.circ c = some { circ with rendinfo := none } := by
    rw [hcirc₁, circ_modify_self, hlive, map_some]
  have hsplices₁ : s₁.SplicesOk := by
    apply SplicesOk.congr _ hcirc₁
    exact h.splices.setRendinfo c none
  -- the circuit that it is joined with is left alone
  have hleave : ∃ s₂, (match circ.rendSplice with
      | none => some s₁
      | some other => do
        let _ ← s₁.circ other
        some (s₁.modify other fun circ => { circ with rendSplice := none })) = some s₂ ∧
      s₂.mapped = s₁.mapped ∧ ∀ d, s₂.held d = s₁.held d ∧ s₂.marked d = s₁.marked d ∧
        s₂.splice d = if s₁.splice c = some d then none else s₁.splice d := by
    have hc : s₁.splice c = circ.rendSplice := by rw [splice, hlive₁, bind_some]
    cases hsplice : circ.rendSplice with
    | none =>
      refine ⟨s₁, rfl, rfl, fun d => ⟨rfl, rfl, ?_⟩⟩
      rw [hc, hsplice, if_neg nofun]
    | some other =>
      obtain ⟨hback, -⟩ := hsplices₁ c other (hc.trans hsplice)
      obtain ⟨rec, hrec, -⟩ := bind_eq_some_iff.mp hback
      refine ⟨s₁.modify other fun circ => { circ with rendSplice := none }, ?_, rfl,
        fun d => ⟨?_, ?_, ?_⟩⟩
      · simp only [hrec]
        rfl
      · rw [held, held, circ_modify]
        cases s₁.circ d <;> split <;> rfl
      · rw [marked, marked, circ_modify]
        cases s₁.circ d <;> split <;> rfl
      · rw [hc, hsplice, splice, splice, circ_modify]
        by_cases hd : other = d
        · rw [if_pos hd, if_pos (congrArg some hd)]
          cases s₁.circ d <;> rfl
        · rw [if_neg hd, if_neg fun heq => hd (some.inj heq)]
  obtain ⟨s₂, hs₂, hmapped₂, hviews⟩ := hleave
  refine ⟨{ s₂ with circs := s₂.circs.set c none }, ?_, ?_, fun d e hde => ?_⟩
  · rw [circuitFree, some_bind hs₁, some_bind hlive₁]
    exact bind_eq_some_iff.mpr ⟨s₂, hs₂, rfl⟩
  · have hheld : ({ s₂ with circs := s₂.circs.set c none } : RendState τ).held = s₁.held := by
      funext d
      rw [held, circ_set_none]
      split
      · next hd => rw [hd, hheld₁, update_self]; rfl
      · exact (hviews d).1
    rw [hheld]
    exact hmapped₂ ▸ htokens₁
  · have hdc : d ≠ c := by
      rintro rfl
      rw [splice, circ_set_none, if_pos rfl] at hde
      cases hde
    rw [splice, circ_set_none, if_neg hdc] at hde
    have hde₂ : s₂.splice d = some e := hde
    rw [(hviews d).2.2] at hde₂
    split at hde₂
    · cases hde₂
    · next hcd =>
      obtain ⟨hed, hmarked⟩ := hsplices₁ d e hde₂
      have hec : e ≠ c := by
        rintro rfl
        exact hcd hed
      have hce : s₁.splice c ≠ some e := fun hce =>
        hdc (some.inj (hed.symm.trans (hsplices₁ c e hce).1))
      constructor
      · rw [splice, circ_set_none, if_neg hec]
        exact ((hviews e).2.2.trans (if_neg hce)).trans hed
      · rw [marked, circ_set_none, if_neg hdc]
        exact (hviews d).2.1.trans hmarked

/-- **A lookup** finds the circuit that has the token, if it has the purpose and is not marked for
close. -/
lemma exists_circuitGetByRendToken (h : RendOk s) (purpose : UInt8) (b : Bool) (t : τ) :
    ∃ r, circuitGetByRendTokenAndPurpose s purpose b t = some r ∧ ∀ c, r = some c ↔
      ∃ circ, s.circ c = some circ ∧ circ.rendinfo = some ⟨b, t⟩ ∧ circ.purpose = purpose ∧
        circ.markedForClose = false := by
  have hheld : ∀ c, s.mapped ⟨b, t⟩ = some c ↔
      ∃ circ, s.circ c = some circ ∧ circ.rendinfo = some ⟨b, t⟩ := by
    intro c
    rw [h.tokens, held, bind_eq_some_iff]
  have hmapped : s.mapped ⟨b, t⟩ = (s.tokenMap b).bind (· t) := rfl
  unfold circuitGetByRendTokenAndPurpose
  cases hmap : s.tokenMap b with
  | none =>
    refine ⟨none, rfl, fun c => iff_of_false nofun ?_⟩
    rintro ⟨circ, hcirc, hinfo, -⟩
    have hc := (hheld c).mpr ⟨circ, hcirc, hinfo⟩
    rw [hmapped, hmap] at hc
    cases hc
  | some map =>
    rw [hmap, bind_some] at hmapped
    cases hfound : map t with
    | none =>
      refine ⟨none, by simp only [hfound], fun c => iff_of_false nofun ?_⟩
      rintro ⟨circ, hcirc, hinfo, -⟩
      have hc := (hheld c).mpr ⟨circ, hcirc, hinfo⟩
      rw [hmapped, hfound] at hc
      cases hc
    | some found =>
      rw [hfound] at hmapped
      obtain ⟨circ, hcirc, hinfo⟩ := (hheld found).mp hmapped
      have hunique : ∀ c circ', s.circ c = some circ' → circ'.rendinfo = some ⟨b, t⟩ →
          c = found ∧ circ' = circ := by
        intro c circ' hcirc' hinfo'
        obtain rfl := some.inj (hmapped.symm.trans ((hheld c).mpr ⟨circ', hcirc', hinfo'⟩))
        exact ⟨rfl, some.inj (hcirc'.symm.trans hcirc)⟩
      simp only [hfound, hcirc, bind_eq_bind, bind_some, hinfo]
      by_cases hskip : circ.purpose ≠ purpose ∨ circ.markedForClose
      · refine ⟨none, if_pos hskip, fun c => iff_of_false nofun ?_⟩
        rintro ⟨circ', hcirc', hinfo', hpurpose, hmarked⟩
        obtain ⟨-, rfl⟩ := hunique c circ' hcirc' hinfo'
        rcases hskip with hne | hmark
        · exact hne hpurpose
        · rw [hmarked] at hmark
          cases hmark
      · obtain ⟨hpurpose, hmarked⟩ := not_or.mp hskip
        refine ⟨some found, ?_, fun c => ⟨?_, ?_⟩⟩
        · rw [if_neg hskip]
          simp
        · rintro ⟨rfl⟩
          exact ⟨circ, hcirc, hinfo, not_not.mp hpurpose, Bool.eq_false_iff.mpr hmarked⟩
        · rintro ⟨circ', hcirc', hinfo', -, -⟩
          rw [(hunique c circ' hcirc' hinfo').1]

/-- **One event** succeeds and keeps the maps. -/
theorem exists_rendStep (h : RendOk s) (e : RendEvent τ) (hok : e.Ok s) :
    ∃ s', s.step e = some s' ∧ RendOk s' := by
  cases e with
  | newCircuit => exact ⟨_, rfl, h.orCircuitNew⟩
  | setRendezvousCookie c cookie =>
    obtain ⟨s', hs', hreg⟩ := exists_circuitSetRendToken h hok true cookie
    exact ⟨s', hs', hreg.ok⟩
  | setIntroPointDigest c digest =>
    obtain ⟨s', hs', hreg⟩ := exists_circuitSetRendToken h hok false digest
    exact ⟨s', hs', hreg.ok⟩
  | clearRendToken c =>
    obtain ⟨circ, hlive⟩ := isSome_iff_exists.mp hok
    obtain ⟨s', hs', htokens, -, hcirc, -, -⟩ := exists_circuitClearRendToken h.tokens hlive
    refine ⟨s', hs', htokens, ?_⟩
    apply SplicesOk.congr _ hcirc
    exact h.splices.setRendinfo c none
  | getRendezvous cookie =>
    obtain ⟨r, hr, -⟩ := exists_circuitGetByRendToken h circuitPurposeRendPointWaiting true cookie
    exact ⟨s, congrArg (Option.map fun _ => s) hr, h⟩
  | getIntroPoint digest =>
    obtain ⟨r, hr, -⟩ := exists_circuitGetByRendToken h circuitPurposeIntroPoint false digest
    exact ⟨s, congrArg (Option.map fun _ => s) hr, h⟩
  | markForClose c =>
    obtain ⟨circ, hlive⟩ := isSome_iff_exists.mp hok
    by_cases hmarked : circ.markedForClose
    · exact ⟨s, circuitMarkForClose_of_marked hlive hmarked, h⟩
    · obtain ⟨s', hs', hclosed⟩ := exists_circuitMarkForClose h.splices hlive hmarked
      refine ⟨s', hs', ?_, hclosed.splices h.splices⟩
      rw [hclosed.mapped, hclosed.held]
      exact h.tokens
  | free c => exact exists_circuitFree h hok
  | setPurpose c purpose => exact ⟨_, rfl, h.setPurpose c purpose⟩
  | splice c d => exact ⟨_, rfl, h.join hok.1 hok.2.1 hok.2.2⟩

/-- **Rendezvous tokens.**  In every run the maps and the tokens of the circuits are inverse to each
other: a map has a circuit for a token exactly when the circuit has not been freed and has that
token of that type.  A lookup finds a circuit exactly when it has the token, the type and the
purpose and is not marked for close.  A registration takes the token from the circuit that had it,
which is marked for close, and leaves the other circuits their tokens. -/
theorem rendTokens_run (events : List (RendEvent τ))
    (hok : Runs.MeetsAlong RendState.step RendEvent.Ok events RendState.init) :
    ∃ s, events.foldlM RendState.step RendState.init = some s ∧ Inverse s.mapped s.held ∧
      (∀ purpose b t, ∃ r, circuitGetByRendTokenAndPurpose s purpose b t = some r ∧
        ∀ c, r = some c ↔
        ∃ circ, s.circ c = some circ ∧ circ.rendinfo = some ⟨b, t⟩ ∧ circ.purpose = purpose ∧
          circ.markedForClose = false) ∧
      ∀ c b token, (s.circ c).isSome → ∃ s', circuitSetRendToken s c b token = some s' ∧
        Registered s s' c (token.map (RendInfo.mk b)) := by
  have hinit : RendOk (RendState.init : RendState τ) := by
    refine ⟨?_, fun c d hcd => ?_⟩
    · intro k c
      refine iff_of_false (fun hk => ?_) nofun
      cases hb : k.isRendCirc <;> simp [mapped, tokenMap, init, hb] at hk
    · cases hcd
  obtain ⟨s, hs, h⟩ := hok.exists_foldlM (fun s e h hok => exists_rendStep h e hok) hinit
  exact ⟨s, hs, h.tokens, fun purpose b t => exists_circuitGetByRendToken h purpose b t,
    fun c b token hlive => exists_circuitSetRendToken h hlive b token⟩

end Keeping

/-- A second circuit registers the cookie of a first one. -/
theorem rendTokens_run_replaced :
    ∃ s, [RendEvent.newCircuit, .newCircuit, .setRendezvousCookie 0 (some 7),
        .setRendezvousCookie 1 (some 7)].foldlM
          RendState.step (RendState.init : RendState ℕ) = some s ∧
      Inverse s.mapped s.held ∧
      (∀ purpose b t, ∃ r, circuitGetByRendTokenAndPurpose s purpose b t = some r ∧
        ∀ c, r = some c ↔
        ∃ circ, s.circ c = some circ ∧ circ.rendinfo = some ⟨b, t⟩ ∧ circ.purpose = purpose ∧
          circ.markedForClose = false) ∧
      ∀ c b token, (s.circ c).isSome → ∃ s', circuitSetRendToken s c b token = some s' ∧
        Registered s s' c (token.map (RendInfo.mk b)) := by
  refine rendTokens_run _ ⟨trivial, fun s₁ hs₁ => ⟨trivial, fun s₂ hs₂ => ?_⟩⟩
  obtain rfl := Option.some.inj hs₁
  obtain rfl := Option.some.inj hs₂
  refine ⟨rfl, fun s₃ hs₃ => ?_⟩
  obtain rfl := Option.some.inj hs₃
  exact ⟨rfl, fun _ _ => trivial⟩

end Astoria
