import Astoria.TorClient.GuardStatus

/-!
# When the flags of the nodes are right

No identity is ever twice in the list of guards (`holdsAlong_written`), so every operation says
which identities come into it and which ones leave it.  The flags stay right in an operation exactly
if no guard with a known node leaves the list, unless all flags are set anew.  Hence they are right
in every state of a run exactly if every operation of the run meets this condition
(`holdsAlong_exact_iff`).
-/

namespace Astoria.EntryGuards

open Option Function
open List hiding Vector Vector.replicate
open Config (ConfigLine)

section Lists

variable {B : Type} {guards guards' : List (EntryGuard B)} {e : EntryGuard B}

/-! ### Identities and nicknames -/

def EntryGuard.names (e : EntryGuard B) : Identity × DocText := (e.identity, e.nickname)

lemma map_identity_eq (guards : List (EntryGuard B)) :
    guards.map EntryGuard.identity = (guards.map EntryGuard.names).map Prod.fst := by
  rw [List.map_map]
  rfl

/-- A list of guards that is written: no identity is twice in it, and the nicknames are legal. -/
structure Written (guards : List (EntryGuard B)) : Prop where
  nodup : (guards.map EntryGuard.identity).Nodup
  legal : ∀ e ∈ guards, Routersets.isLegalNickname e.nickname = true

/-- Only the names matter, and guards may leave the list. -/
lemma Written.of_sublist (h : Written guards)
    (hnames : Sublist (guards'.map EntryGuard.names) (guards.map EntryGuard.names)) :
    Written guards' where
  nodup := by
    have hnodup := h.nodup
    rw [map_identity_eq] at hnodup ⊢
    exact hnodup.sublist (hnames.map Prod.fst)
  legal := by
    intro e he
    obtain ⟨e', he', heq⟩ := List.mem_map.mp (hnames.subset (List.mem_map.mpr ⟨e, he, rfl⟩))
    have hnick : e'.nickname = e.nickname := congrArg Prod.snd heq
    rw [← hnick]
    exact h.legal e' he'

/-- A guard with another identity may come into the list. -/
lemma Written.of_perm (h : Written guards) (hperm : guards'.Perm (e :: guards))
    (hnew : e.identity ∉ guards.map EntryGuard.identity)
    (hlegal : Routersets.isLegalNickname e.nickname = true) : Written guards' where
  nodup := by
    rw [(hperm.map EntryGuard.identity).nodup_iff, map_cons, nodup_cons]
    exact ⟨hnew, h.nodup⟩
  legal := by
    intro e' he'
    rcases mem_cons.mp (hperm.mem_iff.mp he') with rfl | he'
    · exact hlegal
    · exact h.legal e' he'

/-- Guards with distinct identities: one of them stays in the list if its identity does. -/
lemma mem_filter_iff (h : (guards.map EntryGuard.identity).Nodup) (he : e ∈ guards)
    (p : EntryGuard B → Bool) : e.identity ∈ (guards.filter p).map EntryGuard.identity ↔
    p e = true := by
  rw [List.mem_map]
  constructor
  · rintro ⟨e', he', heq⟩
    rw [mem_filter] at he'
    rw [← inj_on_of_nodup_map h he'.1 he heq]
    exact he'.2
  · exact fun hp => ⟨e, mem_filter.mpr ⟨he, hp⟩, rfl⟩

/-- Only one guard with an identity can leave the list. -/
lemma eraseP_eq_filter (h : (guards.map EntryGuard.identity).Nodup) (d : Identity) :
    (guards.eraseP fun e => e.identity = d) = guards.filter fun e => e.identity ≠ d := by
  induction guards with
  | nil => rfl
  | cons e guards ih =>
    rw [map_cons, nodup_cons] at h
    by_cases heq : e.identity = d
    · rw [eraseP_cons_of_pos (by simpa using heq), filter_cons_of_neg (by simpa using heq), eq_comm,
        filter_eq_self]
      intro e' he'
      rw [decide_eq_true_iff]
      rintro rfl
      rw [heq] at h
      exact h.1 (List.mem_map.mpr ⟨e', he', rfl⟩)
    · rw [eraseP_cons_of_neg (by simpa using heq), filter_cons_of_pos (by simpa using heq), ih h.2]

variable {d : Identity}

lemma mem_of_entryGuardGetByIdDigest (h : entryGuardGetByIdDigest guards d = some e) :
    e ∈ guards ∧ e.identity = d :=
  ⟨mem_of_find?_eq_some h, by simpa using find?_some h⟩

lemma isSome_entryGuardGetByIdDigest :
    (entryGuardGetByIdDigest guards d).isSome = true ↔ d ∈ guards.map EntryGuard.identity := by
  rw [entryGuardGetByIdDigest, find?_isSome, List.mem_map]
  exact exists_congr fun e => and_congr_right fun _ => decide_eq_true_iff

lemma entryGuardGetByIdDigest_eq_none :
    entryGuardGetByIdDigest guards d = none ↔ d ∉ guards.map EntryGuard.identity := by
  rw [← isSome_entryGuardGetByIdDigest, not_isSome_iff_eq_none]

lemma map_names_updateGuard (d : Identity) {f : EntryGuard B → EntryGuard B}
    (hf : ∀ e, (f e).names = e.names) (guards : List (EntryGuard B)) :
    (updateGuard d f guards).map EntryGuard.names = guards.map EntryGuard.names := by
  induction guards with
  | nil => rfl
  | cons e guards ih =>
    rw [updateGuard]
    split
    · rw [map_cons, hf, map_cons]
    · rw [map_cons, ih, map_cons]

/-- Guards that get another chance keep their names. -/
lemma map_names_retryEarlier (d : Identity) (live : EntryGuard B → Bool)
    (guards : List (EntryGuard B)) :
    (retryEarlier d live guards).2.map EntryGuard.names = guards.map EntryGuard.names := by
  induction guards with
  | nil => rfl
  | cons e guards ih =>
    rw [retryEarlier]
    split
    · rfl
    · dsimp only
      split
      · rw [map_cons, ih]
        rfl
      · rw [map_cons, ih, map_cons]

/-! ### Reading -/

variable {env : ReadEnv B} {st st' : Reading B}

def Reading.allGuards (st : Reading B) : List (EntryGuard B) := st.done ++ st.node.toList

/-- Lines about the last guard keep the names of all guards. -/
lemma withNode_names {key : String} {f : EntryGuard B → Except DocText (EntryGuard B)}
    (hf : ∀ e e', f e = .ok e' → e'.names = e.names) (h : withNode st key f = .ok st') :
    st'.allGuards.map EntryGuard.names = st.allGuards.map EntryGuard.names := by
  unfold withNode at h
  split at h
  · cases h
  · rename_i node hnode
    cases hfn : f node with
    | error msg =>
      rw [hfn] at h
      cases h
    | ok node' =>
      rw [hfn] at h
      obtain rfl := Except.ok.inj h
      rw [Reading.allGuards, Reading.allGuards, hnode, map_append, map_append, toList_some,
        toList_some, map_singleton, map_singleton, hf node node' hfn]

lemma applyBias_names (node : EntryGuard B) (counters : Option B) (disables : B → Bool) :
    (applyBias node counters disables).names = node.names := by
  unfold applyBias
  split
  · rfl
  · rfl

lemma parseSince_names {now : ℕ} {isDown : Bool} {value : DocText} {node node' : EntryGuard B}
    (h : parseSince now isDown value node = .ok node') : node'.names = node.names := by
  unfold parseSince at h
  split at h
  · cases h
  · split at h
    · rw [Except.ok.inj h]
    · split at h
      · rw [← Except.ok.inj h]
        rfl
      · rw [← Except.ok.inj h]
        rfl

/-- Only the first line of a guard adds a guard. -/
lemma parseLine_names {line : ConfigLine} (hkey : hasKey line "EntryGuard" = false)
    (h : parseLine env st line = .ok st') :
    st'.allGuards.map EntryGuard.names = st.allGuards.map EntryGuard.names := by
  unfold parseLine at h
  rw [hkey, if_neg Bool.false_ne_true] at h
  split at h
  · exact withNode_names (fun _ _ => parseSince_names) h
  · split at h
    · rw [← Except.ok.inj h]
      rfl
    · split at h
      · refine withNode_names (fun e e' he => ?_) h
        rw [← Except.ok.inj he]
        exact applyBias_names _ _ _
      · split at h
        · refine withNode_names (fun e e' he => ?_) h
          rw [← Except.ok.inj he]
          exact applyBias_names _ _ _
        · rw [Except.ok.inj h]

/-- The lines after the first one of a guard are no first lines. -/
lemma hasKey_of_mem_tail {bias : PathBias B} {line : ConfigLine}
    (h : line ∈ (entryGuardLines bias e).tail) : hasKey line "EntryGuard" = false := by
  have hkey : ∀ key value, key ∈ ["EntryGuardDownSince", "EntryGuardUnlistedSince",
      "EntryGuardAddedBy", "EntryGuardPathBias", "EntryGuardPathUseBias"] →
        hasKey (stateLine key value) "EntryGuard" = false := by
    intro key value hmem
    have hall : ∀ key ∈ ["EntryGuardDownSince", "EntryGuardUnlistedSince", "EntryGuardAddedBy",
        "EntryGuardPathBias",
        "EntryGuardPathUseBias"], hasKey (stateLine key []) "EntryGuard" = false := by decide
    exact hall key hmem
  have hsince : ∀ key since value, line ∈ sinceLine key since value →
      line = stateLine key value := by
    intro key since value hmem
    unfold sinceLine at hmem
    split at hmem
    · exact mem_singleton.mp hmem
    · cases hmem
  unfold entryGuardLines at h
  rw [tail_cons, mem_append, mem_append, mem_append, mem_append] at h
  rcases h with (((hmem | hmem) | hmem) | hmem) | hmem
  · rw [hsince _ _ _ hmem]
    exact hkey _ _ (by decide)
  · rw [hsince _ _ _ hmem]
    exact hkey _ _ (by decide)
  · unfold addedByLine at hmem
    split at hmem
    · split at hmem
      · rw [mem_singleton.mp hmem]
        exact hkey _ _ (by decide)
      · cases hmem
    · cases hmem
  · obtain ⟨text, -, rfl⟩ := map_eq_some_iff.mp (mem_toList.mp hmem)
    exact hkey _ _ (by decide)
  · obtain ⟨text, -, rfl⟩ := map_eq_some_iff.mp (mem_toList.mp hmem)
    exact hkey _ _ (by decide)

/-- The lines after the first one of a guard add none. -/
lemma foldlM_names {lines : List ConfigLine}
    (hkeys : ∀ line ∈ lines, hasKey line "EntryGuard" = false)
    (h : lines.foldlM (parseLine env) st = .ok st') :
    st'.allGuards.map EntryGuard.names = st.allGuards.map EntryGuard.names := by
  induction lines generalizing st with
  | nil => rw [Except.ok.inj h]
  | cons line lines ih =>
    rw [foldlM_cons] at h
    cases hline : parseLine env st line with
    | error msg =>
      rw [hline] at h
      cases h
    | ok st₁ =>
      rw [hline] at h
      rw [ih (fun line hmem => hkeys line (mem_cons_of_mem _ hmem)) h,
        parseLine_names (hkeys line mem_cons_self) hline]

/-- The lines of guards with legal nicknames: the guards come into the list, if the lines are read
at all. -/
lemma foldlM_guards_names (hlegal : ∀ e ∈ guards, Routersets.isLegalNickname e.nickname = true)
    (h : (guards.flatMap (entryGuardLines env.bias)).foldlM (parseLine env) st = .ok st') :
    st'.allGuards.map EntryGuard.names =
      st.allGuards.map EntryGuard.names ++ guards.map EntryGuard.names := by
  induction guards generalizing st with
  | nil =>
    rw [← Except.ok.inj h]
    exact (append_nil _).symm
  | cons e guards ih =>
    have hfirst : parseLine env st (stateLine "EntryGuard" (entryGuardText e)) =
        .ok ⟨st.done ++ st.node.toList, some (newGuard env.bias e.nickname e.identity e.isDirCache),
          st.addedBy⟩ := by
      have hline : parseLine env st (stateLine "EntryGuard" (entryGuardText e)) =
          (parseEntryGuard env.bias (entryGuardText e)).map fun node =>
            ⟨st.done ++ st.node.toList, some node, st.addedBy⟩ := rfl
      rw [hline, parseEntryGuard_text (hlegal e mem_cons_self)]
      rfl
    have hlines : entryGuardLines env.bias e =
        stateLine "EntryGuard" (entryGuardText e) :: (entryGuardLines env.bias e).tail := rfl
    rw [flatMap_cons, foldlM_append, hlines, foldlM_cons, hfirst] at h
    change ((entryGuardLines env.bias e).tail.foldlM (parseLine env) _ >>= _) = _ at h
    cases htail : (entryGuardLines env.bias e).tail.foldlM (parseLine env)
        ⟨st.done ++ st.node.toList, some (newGuard env.bias e.nickname e.identity e.isDirCache),
          st.addedBy⟩ with
    | error msg =>
      rw [htail] at h
      cases h
    | ok st₁ =>
      rw [htail] at h
      rw [ih (fun e he => hlegal e (mem_cons_of_mem _ he)) h,
        foldlM_names (fun line hmem => hasKey_of_mem_tail hmem) htail]
      unfold Reading.allGuards
      rw [map_append, toList_some, map_singleton, map_cons, append_assoc]
      rfl

lemma markBiased_withChoice_names (env : ReadEnv B) (addedBy : List (Identity × DocText))
    (e : EntryGuard B) : (markBiased env (withChoice env addedBy e)).names = e.names := by
  have hmark : ∀ e : EntryGuard B, (markBiased env e).names = e.names := by
    intro e
    unfold markBiased
    split
    · rfl
    · rfl
  rw [hmark]
  unfold withChoice
  split
  · split
    · rfl
    · rfl
  · split
    · rfl
    · rfl

/-- **The guards that are read** are the ones that have been contacted, if the lines are read at
all. -/
theorem entryGuardsParseState_names
    (hlegal : ∀ e ∈ guards, Routersets.isLegalNickname e.nickname = true)
    (h : entryGuardsParseState env (entryGuardsUpdateState env.bias guards) = .ok guards') :
    guards'.map EntryGuard.names = (guards.filter EntryGuard.madeContact).map EntryGuard.names := by
  unfold entryGuardsParseState entryGuardsUpdateState at h
  cases hfold : ((guards.filter EntryGuard.madeContact).flatMap (entryGuardLines env.bias)).foldlM
      (parseLine env) ⟨[], none, []⟩ with
  | error msg =>
    rw [hfold] at h
    cases h
  | ok st =>
    rw [hfold] at h
    have hread := foldlM_guards_names (fun e he => hlegal e (mem_filter.mp he).1) hfold
    rw [← Except.ok.inj h, List.map_map]
    refine (map_congr_left fun e _ => markBiased_withChoice_names env st.addedBy e).trans ?_
    exact hread

end Lists

open EntryGuards.EntryGuard (identity names)

section Operations

variable {B : Type} {known : Identity → Bool} {env : Surroundings B} {st st' : GuardState B}

/-! ### Exact flags -/

/-- No identity is twice in the list, and the flags of the known nodes say which of them are in
it. -/
structure Exact (known : Identity → Bool) (st : GuardState B) : Prop where
  nodup : (st.entryGuards.map EntryGuard.identity).Nodup
  flag : ∀ d, known d = true →
    (st.usingAsGuard d = true ↔ d ∈ st.entryGuards.map EntryGuard.identity)

/-- Only identities and flags matter. -/
lemma Exact.congr (h : Exact known st)
    (hnames : st'.entryGuards.map names = st.entryGuards.map names)
    (hflag : st'.usingAsGuard = st.usingAsGuard) : Exact known st' where
  nodup := by
    rw [map_identity_eq, hnames, ← map_identity_eq]
    exact h.nodup
  flag := by
    intro d hd
    rw [map_identity_eq, hnames, ← map_identity_eq, hflag]
    exact h.flag d hd

/-- **Guards that leave the list** without their flags: the flags stay right exactly if no guard
with a known node leaves. -/
lemma Exact.filter_iff (h : Exact known st) {guards : List (EntryGuard B)} {p : EntryGuard B → Bool}
    (hnames : guards.map names = st.entryGuards.map names)
    (hguards : st'.entryGuards = guards.filter p) (hflag : st'.usingAsGuard = st.usingAsGuard) :
    Exact known st' ↔ ∀ e ∈ guards, known e.identity = true → p e = true := by
  have hids : guards.map identity = st.entryGuards.map identity := by
    rw [map_identity_eq, hnames, ← map_identity_eq]
  have hnodup : (guards.map identity).Nodup := by
    rw [hids]
    exact h.nodup
  constructor
  · intro h' e he hknown
    rw [← mem_filter_iff hnodup he p, ← hguards, ← h'.flag e.identity hknown, hflag,
      h.flag e.identity hknown, ← hids]
    exact List.mem_map.mpr ⟨e, he, rfl⟩
  · intro hstay
    constructor
    · rw [hguards]
      exact hnodup.sublist (filter_sublist.map identity)
    · intro d hd
      rw [hflag, h.flag d hd, hguards, ← hids]
      constructor
      · intro hmem
        obtain ⟨e, he, rfl⟩ := List.mem_map.mp hmem
        exact (mem_filter_iff hnodup he p).mpr (hstay e he hd)
      · exact fun hmem => (filter_sublist.map identity).subset hmem

/-- **Flags that are set anew are right.** -/
lemma exact_of_updateNodeGuardStatus (h : (st.entryGuards.map identity).Nodup)
    (hflag : st.usingAsGuard = (updateNodeGuardStatus known st).usingAsGuard) : Exact known st where
  nodup := h
  flag := by
    intro d hd
    rw [hflag, ← isSome_entryGuardGetByIdDigest]
    change (known d && _) = true ↔ _
    rw [hd, Bool.true_and]

/-! ### Adding guards -/

/-- All nicknames of nodes are legal. -/
def Surroundings.Legal (env : Surroundings B) : Prop :=
  ∀ d, Routersets.isLegalNickname (env.node d).nickname = true

/-- What adding a guard does: nothing to identities and flags, or the flag of a node is set that is
in the list then. -/
inductive Added (env : Surroundings B) (st st' : GuardState B) : Prop
  /-- Names and flags stay. -/
  | same (hnames : st'.entryGuards.map EntryGuard.names = st.entryGuards.map EntryGuard.names)
      (hflag : st'.usingAsGuard = st.usingAsGuard)
  /-- The node is in the list already. -/
  | flag (node : Identity) (hmem : node ∈ st.entryGuards.map EntryGuard.identity)
      (hguards : st'.entryGuards = st.entryGuards)
      (hflag : st'.usingAsGuard = update st.usingAsGuard node true)
  /-- A guard for the node comes into the list. -/
  | entry (e : EntryGuard B) (hnew : e.identity ∉ st.entryGuards.map EntryGuard.identity)
      (hperm : st'.entryGuards.Perm (e :: st.entryGuards))
      (hflag : st'.usingAsGuard = update st.usingAsGuard e.identity true)
      (hnick : e.nickname = (env.node e.identity).nickname.take Routersets.maxNicknameLen)

lemma added_addNode (node : Identity) (prepend forDiscovery : Bool) :
    Added env st (addNode env st node prepend forDiscovery).1 := by
  unfold addNode
  split
  · exact .same rfl rfl
  · dsimp only
    split
    · rename_i e he
      refine .flag node ?_ rfl rfl
      rw [← isSome_entryGuardGetByIdDigest, he]
      rfl
    · rename_i hnone
      refine .entry (guardOfNode env node forDiscovery)
        (entryGuardGetByIdDigest_eq_none.mp hnone) ?_ rfl
        rfl
      cases prepend
      · exact perm_append_comm
      · exact Perm.refl _

/-- **What `addAnEntryGuard` does** to identities and flags. -/
lemma added_addAnEntryGuard (known : Identity → Bool) (env : Surroundings B) (st : GuardState B)
    (chosen : Option Identity) (resetStatus prepend forDiscovery forDirectory : Bool)
    (goodEntryServer directoryServer : Option Identity) :
    Added env st
      (addAnEntryGuard known env st chosen resetStatus prepend forDiscovery forDirectory
        goodEntryServer directoryServer).1 := by
  unfold addAnEntryGuard
  split
  · split
    · refine .same (map_names_updateGuard _ (fun e => ?_) _) rfl
      rfl
    · exact added_addNode _ _ _
  · split
    · exact added_addNode _ _ _
    · exact .same rfl rfl

/-- Adding a guard keeps the flags right. -/
lemma Added.exact (hadd : Added env st st') (h : Exact known st) : Exact known st' := by
  cases hadd with
  | same hnames hflag => exact h.congr hnames hflag
  | flag node hmem hguards hflag =>
    refine ⟨hguards ▸ h.nodup, fun d hd => ?_⟩
    rw [hguards, hflag]
    by_cases heq : d = node
    · rw [heq, update_self]
      exact iff_of_true rfl hmem
    · rw [update_of_ne heq]
      exact h.flag d hd
  | entry e hnew hperm hflag hnick =>
    have hids := hperm.map identity
    rw [map_cons] at hids
    refine ⟨?_, fun d hd => ?_⟩
    · rw [hids.nodup_iff, nodup_cons]
      exact ⟨hnew, h.nodup⟩
    · rw [hflag, hids.mem_iff, mem_cons]
      by_cases heq : d = e.identity
      · rw [heq, update_self]
        exact iff_of_true rfl (.inl rfl)
      · rw [update_of_ne heq, h.flag d hd, or_iff_right heq]

/-- Adding a guard keeps the list as it is written. -/
lemma Added.written (hadd : Added env st st') (henv : env.Legal) (h : Written st.entryGuards) :
    Written st'.entryGuards := by
  cases hadd with
  | same hnames hflag => exact h.of_sublist (hnames ▸ Sublist.refl _)
  | flag node hmem hguards hflag =>
    rw [hguards]
    exact h
  | entry e hnew hperm hflag hnick =>
    have hlegal := henv e.identity
    refine h.of_perm hperm hnew ?_
    rw [hnick, take_of_length_le]
    · exact hlegal
    · unfold Routersets.isLegalNickname at hlegal
      rw [Bool.and_eq_true, Bool.and_eq_true, decide_eq_true_eq, decide_eq_true_eq] at hlegal
      exact hlegal.1.2

/-- Adding guards for nodes keeps the list as it is written. -/
lemma written_addNodes (henv : env.Legal) (nodes : List Identity) (h : Written st.entryGuards) :
    Written (addNodes known env nodes st).entryGuards := by
  induction nodes generalizing st with
  | nil => exact h
  | cons node nodes ih =>
    have hadd := (added_addAnEntryGuard known env st (some node) false false true false none
      none).written henv h
    rw [addNodes]
    split
    · exact hadd
    · exact ih hadd

/-! ### The operations -/

/-- Whether a new directory leaves a guard with a known node in the list. -/
def isKept (env : Surroundings B) (now : ℕ) (e : EntryGuard B) : Bool :=
  !isObsolete env now e && ((badReason env e (some (env.node e.identity))).isNone || !isDead now e)

/-- The guards of a state with their new status. -/
def withStatus (known : Identity → Bool) (env : Surroundings B) (now : ℕ) (st : GuardState B) :
    List (EntryGuard B) :=
  st.entryGuards.map fun e =>
    (entryGuardSetStatus env now e (if known e.identity then some (env.node e.identity)
      else none)).1

lemma map_names_withStatus (known : Identity → Bool) (env : Surroundings B) (now : ℕ)
    (st : GuardState B) : (withStatus known env now st).map names = st.entryGuards.map names := by
  rw [withStatus, List.map_map]
  rfl

lemma entryGuards_computeStatus (known : Identity → Bool) (env : Surroundings B) (now : ℕ)
    (st : GuardState B) : (entryGuardsComputeStatus known env st now).entryGuards =
      (withStatus known env now st).filter fun e => !isObsolete env now e && !isDead now e := by
  change removeObsoleteEntryGuards env now
    (removeDeadEntryGuards now ((st.entryGuards.map _).map _)) = _
  rw [removeObsoleteEntryGuards, removeDeadEntryGuards, List.filter_filter, List.map_map]
  rfl

/-- A guard that has just become unusable is not given up, and neither is one that is usable
again. -/
lemma isDead_entryGuardSetStatus (now : ℕ) (e : EntryGuard B) (node : Option NodeView) :
    isDead now (entryGuardSetStatus env now e node).1 =
      ((badReason env e node).isSome && isDead now e) := by
  unfold entryGuardSetStatus isDead
  dsimp only
  cases badReason env e node with
  | none =>
    by_cases hzero : e.badSince = 0
    · simp [hzero]
    · simp [hzero]
  | some reason =>
    by_cases hzero : e.badSince = 0
    · simp [hzero]
    · simp [hzero]

lemma stays_entryGuardSetStatus (now : ℕ) (e : EntryGuard B) :
    (!isObsolete env now (entryGuardSetStatus env now e (some (env.node e.identity))).1 &&
      !isDead now (entryGuardSetStatus env now e (some (env.node e.identity))).1) =
        isKept env now e := by
  have hobsolete :
    isObsolete env now (entryGuardSetStatus env now e (some (env.node e.identity))).1 =
      isObsolete env now e := rfl
  rw [hobsolete, isDead_entryGuardSetStatus, isKept, Bool.not_and, not_isSome]

/-- An attempt to connect changes no names, unless a guard that was never contacted fails. -/
lemma names_registerConnectStatus {digest : Identity} {succeeded : Bool} {now : ℕ}
    {live : EntryGuard B → Bool} (h : succeeded = true ∨
      ∀ e ∈ entryGuardGetByIdDigest st.entryGuards digest, e.madeContact = true) :
    (entryGuardRegisterConnectStatus st digest succeeded now live).1.entryGuards.map names =
      st.entryGuards.map names := by
  have hconnected : (updateGuard digest (connected now) st.entryGuards).map names =
      st.entryGuards.map names := by
    refine map_names_updateGuard _ (fun e => ?_) _
    unfold connected
    split
    · rfl
    · rfl
  unfold entryGuardRegisterConnectStatus
  split
  · rfl
  · rename_i entry hentry
    split
    · dsimp only
      split
      · exact hconnected
      · exact (map_names_retryEarlier _ _ _).trans hconnected
    · rename_i hsucceeded
      have hcontact := h.resolve_left hsucceeded entry hentry
      rw [hcontact, if_neg (by decide)]
      refine map_names_updateGuard _ (fun e => ?_) _
      rfl

lemma entryGuards_registerConnectStatus {digest : Identity} {now : ℕ} {live : EntryGuard B → Bool}
    {e : EntryGuard B} (he : entryGuardGetByIdDigest st.entryGuards digest = some e)
    (hcontact : e.madeContact = false) :
    (entryGuardRegisterConnectStatus st digest false now live).1.entryGuards =
      st.entryGuards.eraseP fun e => e.identity = digest := by
  unfold entryGuardRegisterConnectStatus
  rw [he]
  dsimp only
  rw [if_neg Bool.false_ne_true, hcontact, if_pos (by decide)]

lemma usingAsGuard_registerConnectStatus (st : GuardState B) (digest : Identity) (succeeded : Bool)
    (now : ℕ) (live : EntryGuard B → Bool) :
    (entryGuardRegisterConnectStatus st digest succeeded now live).1.usingAsGuard =
      st.usingAsGuard := by
  unfold entryGuardRegisterConnectStatus
  split
  · rfl
  · split
    · rfl
    · split
      · rfl
      · rfl

/-- What was written is read, and all flags are set anew, or nothing changes. -/
lemma loadEntryGuards_cases {readEnv : ReadEnv B} {saved : List (EntryGuard B)} {set : Bool}
    (hsaved : Written saved)
    (h : (loadEntryGuards known env st readEnv (entryGuardsUpdateState readEnv.bias saved) set).1 =
      st') : st' = st ∨
      Written st'.entryGuards ∧
      st'.usingAsGuard = (updateNodeGuardStatus known st').usingAsGuard := by
  unfold loadEntryGuards at h
  split at h
  · exact .inl h.symm
  · rename_i newEntryGuards hparse
    split at h
    · obtain rfl := h
      refine .inr ⟨?_, rfl⟩
      have hnames := entryGuardsParseState_names hsaved.legal hparse
      refine hsaved.of_sublist ((filter_sublist.map names).trans ?_)
      rw [hnames]
      exact filter_sublist.map names
    · exact .inl h.symm

/-- The guards are taken from the configuration, and all flags are set anew, or no guard and no flag
changes. -/
lemma setFromConfig_cases {entryNodes : List Identity} {shuffle : List Identity → List Identity}
    (henv : env.Legal) (hst : Written st.entryGuards)
    (h : entryGuardsSetFromConfig known env st entryNodes shuffle = st') :
    st'.entryGuards = st.entryGuards ∧ st'.usingAsGuard = st.usingAsGuard ∨
      Written st'.entryGuards ∧
      st'.usingAsGuard = (updateNodeGuardStatus known st').usingAsGuard := by
  unfold entryGuardsSetFromConfig at h
  dsimp only at h
  split at h
  · obtain rfl := h
    exact .inl ⟨rfl, rfl⟩
  · obtain rfl := h
    refine .inr ⟨?_, rfl⟩
    refine written_addNodes henv _ (hst.of_sublist ?_)
    exact filter_sublist.map names

/-! ### Runs -/

/-- The lines of an operation are those of a list that is written, and the nicknames of the nodes
are legal. -/
def GuardEvent.Ok : GuardEvent B → Prop
  | .addAnEntryGuard env _ _ _ _ _ _ _ => env.Legal
  | .entryGuardsSetFromConfig env _ _ => env.Legal
  | .entryGuardsParseState _ _ saved _ => Written saved
  | _ => True

/-- No guard with a known node leaves the list, unless all flags are set anew. -/
def KeepsFlags (known : Identity → Bool) (st : GuardState B) : GuardEvent B → Prop
  | .entryGuardsComputeStatus env now => ∀ e ∈ st.entryGuards, known e.identity = true →
    isKept env now e = true
  | .entryGuardRegisterConnectStatus digest succeeded _ _ =>
    known digest = true →
      succeeded = true ∨ ∀ e ∈ entryGuardGetByIdDigest st.entryGuards digest, e.madeContact = true
  | .removeAllEntryGuards => ∀ e ∈ st.entryGuards, known e.identity = false
  | _ => True

/-- **The list of guards stays as it is written** in every operation. -/
theorem written_step {event : GuardEvent B} (hok : event.Ok) (h : Written st.entryGuards) :
    Written (st.step known event).entryGuards := by
  cases event with
  | addAnEntryGuard env chosen resetStatus prepend forDiscovery forDirectory goodEntryServer
      directoryServer =>
    exact (added_addAnEntryGuard known env st chosen resetStatus prepend forDiscovery forDirectory
      goodEntryServer
      directoryServer).written hok h
  | entryGuardsComputeStatus env now =>
    refine h.of_sublist ?_
    change Sublist ((entryGuardsComputeStatus known env st now).entryGuards.map names) _
    rw [entryGuards_computeStatus, ← map_names_withStatus known env now st]
    exact filter_sublist.map names
  | entryGuardRegisterConnectStatus digest succeeded now live =>
    change Written (entryGuardRegisterConnectStatus st digest succeeded now live).1.entryGuards
    by_cases hcond : succeeded = true ∨
      ∀ e ∈ entryGuardGetByIdDigest st.entryGuards digest, e.madeContact = true
    · exact h.of_sublist (names_registerConnectStatus hcond ▸ Sublist.refl _)
    · rw [not_or, Bool.not_eq_true] at hcond
      obtain ⟨rfl, hcontact⟩ := hcond
      push Not at hcontact
      obtain ⟨e, he, hcontact⟩ := hcontact
      rw [entryGuards_registerConnectStatus he (by simpa using hcontact)]
      exact h.of_sublist (eraseP_sublist.map names)
  | entryGuardsSetFromConfig env entryNodes shuffle =>
    rcases setFromConfig_cases hok h rfl with ⟨hguards, -⟩ | ⟨hwritten, -⟩
    · exact h.of_sublist (by rw [GuardState.step, hguards])
    · exact hwritten
  | removeAllEntryGuards => exact h.of_sublist (nil_sublist _)
  | entryGuardsParseState env readEnv saved set =>
    have hstep :
        (loadEntryGuards known env st readEnv (entryGuardsUpdateState readEnv.bias saved) set).1 =
          st.step known (.entryGuardsParseState env readEnv saved set) := rfl
    rcases loadEntryGuards_cases hok hstep with hsame | ⟨hwritten, -⟩
    · rw [hsame]
      exact h
    · exact hwritten

/-- **One operation** keeps the flags right exactly if no guard with a known node leaves the list,
unless all flags are set anew. -/
theorem exact_step_iff {event : GuardEvent B} (hok : event.Ok) (hst : Written st.entryGuards)
    (h : Exact known st) : Exact known (st.step known event) ↔ KeepsFlags known st event := by
  cases event with
  | addAnEntryGuard env chosen resetStatus prepend forDiscovery forDirectory goodEntryServer
      directoryServer =>
    exact iff_of_true
      ((added_addAnEntryGuard known env st chosen resetStatus prepend forDiscovery forDirectory
        goodEntryServer directoryServer).exact h) trivial
  | entryGuardsComputeStatus env now =>
    refine (h.filter_iff (map_names_withStatus known env now st)
      (entryGuards_computeStatus known env now st) rfl).trans ?_
    rw [withStatus, List.forall_mem_map]
    refine forall₂_congr fun e he => forall_congr' fun hknown => ?_
    change known e.identity = true at hknown
    rw [if_pos hknown, stays_entryGuardSetStatus]
  | entryGuardRegisterConnectStatus digest succeeded now live =>
    have hflag := usingAsGuard_registerConnectStatus st digest succeeded now live
    by_cases hcond : succeeded = true ∨
      ∀ e ∈ entryGuardGetByIdDigest st.entryGuards digest, e.madeContact = true
    · exact iff_of_true (h.congr (names_registerConnectStatus hcond) hflag) fun _ => hcond
    · have hremoved := hcond
      rw [not_or, Bool.not_eq_true] at hremoved
      obtain ⟨rfl, hcontact⟩ := hremoved
      push Not at hcontact
      obtain ⟨e, he, hcontact⟩ := hcontact
      have hguards : (entryGuardRegisterConnectStatus st digest false now live).1.entryGuards = _ :=
        entryGuards_registerConnectStatus he (by simpa using hcontact)
      obtain ⟨hmem, rfl⟩ := mem_of_entryGuardGetByIdDigest he
      rw [eraseP_eq_filter h.nodup] at hguards
      refine (h.filter_iff rfl hguards hflag).trans
        ⟨fun hall hknown => ?_, fun hkeeps e' he' hknown => ?_⟩
      · exact absurd rfl (of_decide_eq_true (hall e hmem hknown))
      · rw [decide_eq_true_iff]
        intro heq
        rw [heq] at hknown
        exact hcond (hkeeps hknown)
  | entryGuardsSetFromConfig env entryNodes shuffle =>
    refine iff_of_true ?_ trivial
    have hstep : entryGuardsSetFromConfig known env st entryNodes shuffle =
        st.step known (.entryGuardsSetFromConfig env entryNodes shuffle) := rfl
    rcases setFromConfig_cases hok hst hstep with ⟨hguards, hflag⟩ | ⟨hwritten, hflag⟩
    · exact h.congr (congrArg (List.map names) hguards) hflag
    · exact exact_of_updateNodeGuardStatus hwritten.nodup hflag
  | removeAllEntryGuards =>
    have hguards : (st.step known .removeAllEntryGuards).entryGuards =
        st.entryGuards.filter fun _ => false :=
      (filter_false _).symm
    refine (h.filter_iff rfl hguards rfl).trans ?_
    refine forall₂_congr fun e he => ?_
    rw [Bool.false_eq_true, imp_false, Bool.not_eq_true]
  | entryGuardsParseState env readEnv saved set =>
    refine iff_of_true ?_ trivial
    have hstep :
        (loadEntryGuards known env st readEnv (entryGuardsUpdateState readEnv.bias saved) set).1 =
          st.step known (.entryGuardsParseState env readEnv saved set) := rfl
    rcases loadEntryGuards_cases hok hstep with hsame | ⟨hwritten, hflag⟩
    · rw [hsame]
      exact h
    · exact exact_of_updateNodeGuardStatus hwritten.nodup hflag

/-- **The list of guards is always as it is written.**  No identity is ever twice in it. -/
theorem holdsAlong_written (known : Identity → Bool) {events : List (GuardEvent B)}
    (hok : ∀ event ∈ events, event.Ok) (h : Written st.entryGuards) :
    Runs.HoldsAlong (fun st event => some (st.step known event)) (fun st => Written st.entryGuards)
      events st := by
  refine Runs.holdsAlong_of_step (fun event hmem st st' hst hstep => ?_) h
  rw [← Option.some.inj hstep]
  exact written_step (hok event hmem) hst

lemma exact_start (known : Identity → Bool) (B : Type) : Exact known (GuardState.start B) where
  nodup := nodup_nil
  flag := fun _ _ => iff_of_false Bool.false_ne_true not_mem_nil

lemma written_start (B : Type) : Written (GuardState.start B).entryGuards where
  nodup := nodup_nil
  legal := fun _ he => absurd he not_mem_nil

end Operations

/-- **When the flags of the nodes are right.**  No identity is ever twice in the list of guards, and
in every state of a run the flags are set exactly on the known nodes that are guards, exactly if no
operation of the run removes a guard with a known node without setting all flags anew. -/
theorem holdsAlong_exact_iff {B : Type} (known : Identity → Bool) (events : List (GuardEvent B))
    (hok : ∀ event ∈ events, event.Ok) :
    Runs.HoldsAlong (fun st event => some (st.step known event)) (fun st => Exact known st) events
        (GuardState.start B) ↔
      Runs.MeetsAlong (fun st event => some (st.step known event))
        (fun st event => KeepsFlags known st event) events (GuardState.start B) :=
  Runs.holdsAlong_iff_meetsAlong (fun event hmem _ hst => written_step (hok event hmem) hst)
    (fun event hmem _ hst hexact => exact_step_iff (hok event hmem) hst hexact) (written_start B)
    (exact_start known B)

/-- Running nodes with the flag of a guard, all of one name. -/
def plainSurroundings : Surroundings Unit where
  node _ := ⟨"alice".toList, true, false, false, true, false, false, true, true, true⟩
  useBridges := false
  hasEntryNodes := false
  guardLifetime := 0
  guardLifetimeParam := 86400 * 60
  numGuards := 1
  drawnDate _ := 86400
  version := "0.2.7.6".toList
  bias := plainEnv.bias

lemma legal_plainSurroundings : plainSurroundings.Legal := by
  have hlegal : Routersets.isLegalNickname "alice".toList = true := by decide
  exact fun _ => hlegal

def addNodeEvent (node : Identity) : GuardEvent Unit :=
  .addAnEntryGuard plainSurroundings (some node) false false true false none none

/-- A guard is added, a connection to it succeeds, a directory arrives, and the guards of the state
file are read. -/
def plainEvents : List (GuardEvent Unit) :=
  [addNodeEvent (Vector.replicate 20 1),
    .entryGuardRegisterConnectStatus (Vector.replicate 20 1) true 864000 fun _ => true,
    .entryGuardsComputeStatus plainSurroundings 864000,
    .entryGuardsParseState plainSurroundings plainEnv [reachedGuard] true]

theorem holdsAlong_written_addNode :
    Runs.HoldsAlong (fun st event => some (st.step (fun _ => true) event))
      (fun st => Written st.entryGuards) [addNodeEvent (Vector.replicate 20 1)]
      (GuardState.start Unit) :=
  holdsAlong_written (fun _ => true) (forall_mem_singleton.mpr legal_plainSurroundings)
    (written_start Unit)

/-- The flags are right all along this run. -/
theorem holdsAlong_exact_plainEvents :
    Runs.HoldsAlong (fun st event => some (st.step (fun _ => true) event))
      (fun st => Exact (fun _ => true) st) plainEvents (GuardState.start Unit) := by
  refine (holdsAlong_exact_iff (fun _ => true) plainEvents fun event hmem => ?_).mpr ?_
  · simp only [plainEvents, mem_cons, not_mem_nil, or_false] at hmem
    rcases hmem with rfl | rfl | rfl | rfl
    · exact legal_plainSurroundings
    · trivial
    · trivial
    · refine ⟨nodup_singleton _, fun e he => ?_⟩
      rw [mem_singleton.mp he]
      decide
  · simp only [plainEvents, Runs.meetsAlong_some_cons]
    refine ⟨trivial, fun _ => Or.inl rfl, fun e he _ => ?_, trivial, trivial⟩
    obtain rfl := mem_singleton.mp he
    decide

/-- The flag of a node stays set when all guards are removed. -/
theorem not_holdsAlong_exact :
    ¬ ∀ (known : Identity → Bool) (events : List (GuardEvent Unit)), (∀ event ∈ events, event.Ok) →
      Runs.HoldsAlong (fun st event => some (st.step known event)) (fun st => Exact known st) events
        (GuardState.start Unit) := by
  intro hall
  have hholds := hall (fun _ => true) [addNodeEvent (Vector.replicate 20 1), .removeAllEntryGuards]
      fun event hmem => by
    rcases mem_pair.mp hmem with rfl | rfl
    · exact legal_plainSurroundings
    · trivial
  have hexact : Exact (fun _ => true)
      (((GuardState.start Unit).step (fun _ => true) (addNodeEvent (Vector.replicate 20 1))).step
        (fun _ => true)
        .removeAllEntryGuards) :=
    (hholds.2 _ rfl).2 _ rfl
  exact not_mem_nil ((hexact.flag (Vector.replicate 20 1) rfl).mp (by decide))

end Astoria.EntryGuards
