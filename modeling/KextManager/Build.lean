/-
KextManager/Build.lean

The version-chain builder, `KXKextManagerCalculateVersionRelationships`.

After tearing the structure down, the builder walks the candidate kexts of
every repository in order and files each one that is not known to be
unloadable under its bundle identifier: a new identifier gets the kext as its
head; a strictly higher version than the head becomes the new head, the old
head its prior version; anything else is handed to
`_KXKextAddPriorOrDuplicateVersionKext`.  That function lives in `KXKext.c`,
which is not under src/, and is modelled from the spec (§4.1): it files the
kext as a duplicate of the node of equal version, or links it into the prior
version chain at the place its version dictates.  Its pointer walks are
bounded by `Fintype.card κ`, the number of kext objects, which the proofs
show is always enough.

Main results: one builder step edits the chain of the kext's identifier as
`insertVersion` does and leaves every other chain alone
(`addCandidateKext_buildInv`); hence after the build every identifier's
links spell out the chain of its candidate kexts
(`calculateVersionRelationships_chains`).
-/
import KextManager.Chain
import KextManager.Relationships

namespace KextManager

namespace Manager

variable {ι κ : Type} [DecidableEq ι] [DecidableEq κ] [Fintype κ]

/-! ### The builder -/

/-- Modelled from the spec: the part of `_KXKextAddPriorOrDuplicateVersionKext`
that files `newKext` as the last duplicate of the version node `k`. -/
def appendDuplicateVersionKext : Nat → Manager ι κ → κ → κ → Manager ι κ
  | 0, s, _, _ => s
  | fuel + 1, s, k, newKext =>
      match s.duplicateVersion k with
      | none => s.setDuplicateVersionKext k (some newKext)
      | some d => appendDuplicateVersionKext fuel s d newKext

/-- Modelled from the spec: `_KXKextAddPriorOrDuplicateVersionKext` (spec §4.1),
called with a version node `aKext` whose version is not below that of
`newKext`: file `newKext` into the duplicate chain of the node of equal
version, or else link it into the prior-version chain below `aKext` at the
place its version dictates. -/
def addPriorOrDuplicateVersionKext : Nat → Manager ι κ → κ → κ → Manager ι κ
  | 0, s, _, _ => s
  | fuel + 1, s, aKext, newKext =>
      if s.versionOf newKext = s.versionOf aKext then
        s.appendDuplicateVersionKext (Fintype.card κ) aKext newKext
      else
        match s.priorVersion aKext with
        | none => s.setPriorVersionKext aKext (some newKext)
        | some p =>
            if s.versionOf p < s.versionOf newKext then
              (s.setPriorVersionKext newKext (some p)).setPriorVersionKext aKext (some newKext)
            else addPriorOrDuplicateVersionKext fuel s p newKext

/-- The body of the inner loop of `KXKextManagerCalculateVersionRelationships`:
skip `thisKext` if it is known to be unloadable, else store it by identifier
and build the version chain. -/
def addCandidateKext (s : Manager ι κ) (thisKext : κ) : Manager ι κ :=
  if s.isCandidate thisKext then
    match s.candidateKexts.lookup (s.identifierOf thisKext) with
    | none => { s with candidateKexts := s.candidateKexts.insert (s.identifierOf thisKext) thisKext }
    | some alreadyKext =>
        if s.versionOf alreadyKext < s.versionOf thisKext then
          let s := s.setPriorVersionKext thisKext (some alreadyKext)
          { s with candidateKexts := s.candidateKexts.insert (s.identifierOf thisKext) thisKext }
        else s.addPriorOrDuplicateVersionKext (Fintype.card κ) alreadyKext thisKext
  else s

/-- `KXKextManagerCalculateVersionRelationships`: tear down (whether clearing
is enabled or not), then file every candidate kext of every repository. -/
def calculateVersionRelationships (s : Manager ι κ) : Manager ι κ :=
  let s := Internal.clearDependencyRelationships (Internal.clearRelationships s)
  let s := s.candidateList.foldl addCandidateKext s
  { s with needsCalculateRelationships := false }

/-! ### A builder step writes only the chain structure -/

omit [DecidableEq ι] [Fintype κ] in
theorem appendDuplicateVersionKext_withoutLinks :
    ∀ (fuel : Nat) (s : Manager ι κ) (k n : κ),
      (s.appendDuplicateVersionKext fuel k n).withoutLinks = s.withoutLinks
  | 0, _, _, _ => rfl
  | fuel + 1, s, k, n => by
      unfold appendDuplicateVersionKext
      split
      · rfl
      · exact appendDuplicateVersionKext_withoutLinks fuel s _ n

omit [DecidableEq ι] in
theorem addPriorOrDuplicateVersionKext_withoutLinks :
    ∀ (fuel : Nat) (s : Manager ι κ) (a k : κ),
      (s.addPriorOrDuplicateVersionKext fuel a k).withoutLinks = s.withoutLinks
  | 0, _, _, _ => rfl
  | fuel + 1, s, a, k => by
      unfold addPriorOrDuplicateVersionKext
      split_ifs
      · exact appendDuplicateVersionKext_withoutLinks _ s a k
      · split
        · rfl
        · split_ifs
          · rfl
          · exact addPriorOrDuplicateVersionKext_withoutLinks fuel s _ k

theorem addCandidateKext_withoutChains (s : Manager ι κ) (k : κ) :
    (s.addCandidateKext k).withoutChains = s.withoutChains := by
  unfold addCandidateKext
  split_ifs
  · split
    · rfl
    · split_ifs
      · rfl
      · exact congrArg (fun t => { t with candidateKexts := ∅ })
          (addPriorOrDuplicateVersionKext_withoutLinks _ s _ k)
  · rfl

theorem foldl_addCandidateKext_withoutChains (xs : List κ) (s : Manager ι κ) :
    (xs.foldl addCandidateKext s).withoutChains = s.withoutChains := by
  induction xs generalizing s with
  | nil => rfl
  | cons x xs ih => rw [List.foldl_cons, ih, addCandidateKext_withoutChains]

/-- A build leaves everything but the chain structure as its teardown left it. -/
theorem calculateVersionRelationships_withoutChains (s : Manager ι κ) :
    s.calculateVersionRelationships.withoutChains =
      { (Internal.clearDependencyRelationships (Internal.clearRelationships s)).withoutChains with
        needsCalculateRelationships := false } := by
  have := congrArg (fun t : Manager ι κ => { t with needsCalculateRelationships := false })
    (foldl_addCandidateKext_withoutChains
      (Internal.clearDependencyRelationships (Internal.clearRelationships s)).candidateList
      (Internal.clearDependencyRelationships (Internal.clearRelationships s)))
  exact this

section Fields

variable (s : Manager ι κ)

@[simp] theorem calculateVersionRelationships_kextsWithMissingDependencies :
    s.calculateVersionRelationships.kextsWithMissingDependencies = [] := by
  have := congrArg kextsWithMissingDependencies (calculateVersionRelationships_withoutChains s)
  dsimp only [withoutChains, withoutLinks] at this
  exact this

theorem calculateVersionRelationships_kexts :
    s.calculateVersionRelationships.kexts =
      (Internal.clearDependencyRelationships (Internal.clearRelationships s)).kexts := by
  have := congrArg kexts (calculateVersionRelationships_withoutChains s)
  dsimp only [withoutChains, withoutLinks] at this
  exact this

@[simp] theorem calculateVersionRelationships_versionOf :
    s.calculateVersionRelationships.versionOf = s.versionOf := by
  have h := Internal.clearDependencyRelationships_versionOf (Internal.clearRelationships s)
  rw [Internal.clearRelationships_versionOf] at h
  rw [← h]; unfold versionOf; rw [calculateVersionRelationships_kexts]

@[simp] theorem calculateVersionRelationships_identifierOf :
    s.calculateVersionRelationships.identifierOf = s.identifierOf := by
  have h := Internal.clearDependencyRelationships_identifierOf (Internal.clearRelationships s)
  rw [Internal.clearRelationships_identifierOf] at h
  rw [← h]; unfold identifierOf; rw [calculateVersionRelationships_kexts]

@[simp] theorem calculateVersionRelationships_teardownCount :
    s.calculateVersionRelationships.teardownCount = s.teardownCount + 1 := by
  have := congrArg teardownCount (calculateVersionRelationships_withoutChains s)
  dsimp only [withoutChains, withoutLinks] at this
  simpa [Internal.clearDependencyRelationships, clearRepositoryDependencies_eq,
    Internal.clearRelationships, clearRepositoryRelationships_eq] using this

@[simp] theorem calculateVersionRelationships_disableCount :
    s.calculateVersionRelationships.clearRelationshipsDisableCount =
      s.clearRelationshipsDisableCount := by
  have := congrArg clearRelationshipsDisableCount (calculateVersionRelationships_withoutChains s)
  dsimp only [withoutChains, withoutLinks] at this
  simpa [Internal.clearDependencyRelationships, clearRepositoryDependencies_eq,
    Internal.clearRelationships, clearRepositoryRelationships_eq] using this

@[simp] theorem calculateVersionRelationships_repositoryList :
    s.calculateVersionRelationships.repositoryList = s.repositoryList := by
  have := congrArg repositoryList (calculateVersionRelationships_withoutChains s)
  dsimp only [withoutChains, withoutLinks] at this
  rw [this, Internal.clearDependencyRelationships_repositoryList,
    Internal.clearRelationships_repositoryList]

@[simp] theorem calculateVersionRelationships_safeBoot :
    s.calculateVersionRelationships.safeBoot = s.safeBoot := by
  have := congrArg safeBoot (calculateVersionRelationships_withoutChains s)
  dsimp only [withoutChains, withoutLinks] at this
  simpa [Internal.clearDependencyRelationships, clearRepositoryDependencies_eq,
    Internal.clearRelationships, clearRepositoryRelationships_eq] using this

@[simp] theorem calculateVersionRelationships_needsClearRelationships :
    s.calculateVersionRelationships.needsClearRelationships = false := by
  have := congrArg needsClearRelationships (calculateVersionRelationships_withoutChains s)
  dsimp only [withoutChains, withoutLinks] at this
  simpa [Internal.clearDependencyRelationships, clearRepositoryDependencies_eq,
    Internal.clearRelationships, clearRepositoryRelationships_eq] using this

@[simp] theorem calculateVersionRelationships_needsCalculateRelationships :
    s.calculateVersionRelationships.needsCalculateRelationships = false := by
  have := congrArg needsCalculateRelationships (calculateVersionRelationships_withoutChains s)
  dsimp only [withoutChains, withoutLinks] at this
  exact this

end Fields

/-! ### Filing a kext into a chain -/

omit [DecidableEq ι] [Fintype κ] in
theorem appendDuplicateVersionKext_eq {s : Manager ι κ} {newKext : κ} :
    ∀ {fuel : Nat} {n : κ} {ds : List κ}, DupRep s.duplicateVersion n ds → ds.length < fuel →
      s.appendDuplicateVersionKext fuel n newKext =
        s.setDuplicateVersionKext ((n :: ds).getLast (List.cons_ne_nil _ _)) (some newKext)
  | 0, _, _, _, h => absurd h (Nat.not_lt_zero _)
  | _ + 1, n, [], h, _ => by
      simp only [DupRep] at h
      simp [appendDuplicateVersionKext, h]
  | fuel + 1, n, d :: ds, ⟨h, hrest⟩, hlt => by
      simp only [appendDuplicateVersionKext, h]
      rw [appendDuplicateVersionKext_eq hrest (by simpa using hlt), List.getLast_cons_cons]

omit [DecidableEq ι] in
/-- **Filing a kext below a version node.**  If `a` heads the chain `L`, the
kext `k` is not in it, has no links yet, and its version is not above that of
`a`, then `_KXKextAddPriorOrDuplicateVersionKext` makes the links spell out
`insertVersion v k L` and writes no link outside `k :: L`. -/
theorem addPriorOrDuplicateVersionKext_spec {s : Manager ι κ} {k : κ}
    (hkp : s.priorVersion k = none) (hkd : s.duplicateVersion k = none) :
    ∀ {fuel : Nat} {a : κ} {L : List (List κ)},
      ChainRep s.priorVersion s.duplicateVersion (some a) L → IsVersionChain s.versionOf L →
      (k :: L.flatten).Nodup → ¬ s.versionOf a < s.versionOf k → L.length ≤ fuel →
      ChainRep (s.addPriorOrDuplicateVersionKext fuel a k).priorVersion
          (s.addPriorOrDuplicateVersionKext fuel a k).duplicateVersion (some a)
          (insertVersion s.versionOf k L) ∧
        ∀ m ∉ k :: L.flatten,
          (s.addPriorOrDuplicateVersionKext fuel a k).priorVersion m = s.priorVersion m ∧
          (s.addPriorOrDuplicateVersionKext fuel a k).duplicateVersion m = s.duplicateVersion m
  | _, _, [], h, _, _, _, _ => by simp at h
  | _, _, [] :: _, h, _, _, _, _ => h.elim
  | 0, _, (_ :: _) :: _, _, _, _, _, hlen => by simp at hlen
  | fuel + 1, a, (a' :: ds) :: L, ⟨ha, hd, hnp, hL⟩, hvc, hnd, hva, hlen => by
      obtain rfl : a = a' := Option.some.inj ha
      have hka : k ≠ a := fun e => by simp_all
      have hdisj : List.Disjoint (a :: ds) L.flatten :=
        List.disjoint_of_nodup_append (List.nodup_cons.mp hnd).2
      unfold addPriorOrDuplicateVersionKext
      by_cases heq : s.versionOf k = s.versionOf a
      · -- equal version: `k` becomes the last duplicate of `a`
        have hcard : ds.length < Fintype.card κ := by
          have := (hnd.sublist (by simp : List.Sublist (k :: a :: ds) (k :: ((a :: ds) :: L).flatten))).length_le_card
          simp at this; omega
        rw [if_pos heq, appendDuplicateVersionKext_eq hd hcard]
        rw [insertVersion, if_neg hva, if_pos heq]
        set t := (a :: ds).getLast (List.cons_ne_nil _ _)
        have ht : t ∈ a :: ds := List.getLast_mem _
        have htL : t ∉ L.flatten := hdisj ht
        refine ⟨⟨rfl, hd.append_last hkd (hnd.sublist (by simp)), ?_, ?_⟩, fun m hm => ?_⟩
        · intro d hd'
          rcases List.mem_append.mp hd' with hd' | hd'
          · exact hnp d hd'
          · rw [List.mem_singleton.mp hd']; exact hkp
        · refine hL.frame (fun _ _ => rfl) fun m hm => ?_
          show Function.update _ _ _ m = _
          rw [Function.update_noteq (by rintro rfl; exact htL hm)]
        · refine ⟨rfl, ?_⟩
          show Function.update _ _ _ m = _
          rw [Function.update_noteq]
          rintro rfl; exact hm (List.mem_cons_of_mem _ (List.mem_append_left _ ht))
      · -- lower version: `k` goes further down the prior-version chain
        have hins : insertVersion s.versionOf k ((a :: ds) :: L) =
            (a :: ds) :: insertVersion s.versionOf k L := by
          rw [insertVersion, if_neg hva, if_neg heq]
        have hndL : (k :: L.flatten).Nodup :=
          hnd.sublist (List.Sublist.cons₂ k (List.sublist_append_right _ _))
        have hout : ∀ m ∉ k :: ((a :: ds) :: L).flatten, m ∉ k :: L.flatten := by
          intro m hm h
          rcases List.mem_cons.mp h with rfl | h
          · exact hm (List.mem_cons_self _ _)
          · exact hm (List.mem_cons_of_mem _ (List.mem_append_right _ h))
        have hne : ∀ m ∉ k :: ((a :: ds) :: L).flatten, m ≠ a ∧ m ≠ k := by
          intro m hm
          refine ⟨?_, ?_⟩ <;> rintro rfl
          · exact hm (List.mem_cons_of_mem _ (List.mem_cons_self _ _))
          · exact hm (List.mem_cons_self _ _)
        have hdsa : ∀ d ∈ ds, d ≠ a ∧ d ≠ k := by
          intro d hd'
          refine ⟨?_, ?_⟩ <;> rintro rfl
          · exact (List.nodup_cons.mp (List.nodup_cons.mp hnd).2).1 (List.mem_append_left _ hd')
          · exact (List.nodup_cons.mp hnd).1 (List.mem_append_left _ (List.mem_cons_of_mem _ hd'))
        rw [if_neg heq, hins]
        cases hp : s.priorVersion a with
        | none =>
            -- `a` was the last version: `k` becomes the new last one
            rw [hp] at hL
            obtain rfl := hL.eq_nil_of_none
            refine ⟨⟨rfl, hd, fun d hd' => ?_, ?_⟩, fun m hm => ?_⟩
            · simp [(hdsa d hd').1, hnp d hd']
            · simp [insertVersion, hkd, hka, hkp, DupRep]
            · simp [(hne m hm).1, setPriorVersionKext]
        | some p =>
            rw [hp] at hL
            obtain ⟨ds', L', rfl⟩ := hL.exists_of_some
            by_cases hpk : s.versionOf p < s.versionOf k
            · -- `k` goes between `a` and `p`
              simp only [if_pos hpk]
              rw [insertVersion, if_pos hpk]
              have hLk : ∀ m ∈ ((p :: ds') :: L').flatten, m ≠ a ∧ m ≠ k := by
                intro m hm
                refine ⟨?_, ?_⟩ <;> rintro rfl
                · exact hdisj (List.mem_cons_self _ _) hm
                · exact (List.nodup_cons.mp hnd).1 (List.mem_append_right _ hm)
              refine ⟨⟨rfl, hd, fun d hd' => ?_, ?_⟩, fun m hm => ?_⟩
              · simp [(hdsa d hd').1, (hdsa d hd').2, hnp d hd']
              · refine ⟨by simp, hkd, by simp, ?_⟩
                simp only [setPriorVersionKext_priorVersion, if_neg hka, if_true]
                refine hL.frame (fun m hm => ?_) (fun _ _ => rfl)
                simp [(hLk m hm).1, (hLk m hm).2]
              · simp [(hne m hm).1, (hne m hm).2, setPriorVersionKext]
            · -- `k` is filed below `p`
              simp only [if_neg hpk]
              obtain ⟨hrep, hfr⟩ := addPriorOrDuplicateVersionKext_spec hkp hkd hL hvc.tail hndL
                hpk (by simpa using hlen)
              have haout : a ∉ k :: ((p :: ds') :: L').flatten := by
                intro h
                rcases List.mem_cons.mp h with h | h
                · exact hka h.symm
                · exact hdisj (List.mem_cons_self _ _) h
              refine ⟨⟨rfl, hd.frame fun m hm => (hfr m ?_).2, fun d hd' => ?_, ?_⟩,
                fun m hm => hfr m (hout m hm)⟩
              · rcases List.mem_cons.mp hm with rfl | hm
                · exact haout
                · intro h
                  rcases List.mem_cons.mp h with h | h
                  · exact (hdsa m hm).2 h
                  · exact hdisj (List.mem_cons_of_mem _ hm) h
              · rw [(hfr d ?_).1, hnp d hd']
                intro h
                rcases List.mem_cons.mp h with h | h
                · exact (hdsa d hd').2 h
                · exact hdisj (List.mem_cons_of_mem _ hd') h
              · rw [(hfr a haout).1, hp]; exact hrep

/-! ### One builder step -/

/-- The candidate kexts of identifier `I` among `xs`, in their order. -/
def candidatesOf (s : Manager ι κ) (I : ι) (xs : List κ) : List κ :=
  xs.filter fun k => s.isCandidate k && s.identifierOf k = I

omit [DecidableEq κ] [Fintype κ] in
theorem mem_candidatesOf {s : Manager ι κ} {I : ι} {xs : List κ} {k : κ} :
    k ∈ s.candidatesOf I xs ↔ k ∈ xs ∧ s.isCandidate k = true ∧ s.identifierOf k = I := by
  simp [candidatesOf]

/-- **One builder step on the links.**  Filing a candidate kext `k` that has
no links yet edits the chain `L` of its identifier into
`insertVersion v k L`, keeps every other dictionary entry, and writes no link
outside `k :: L`. -/
theorem addCandidateKext_spec {s : Manager ι κ} {k : κ} {L : List (List κ)}
    (hkp : s.priorVersion k = none) (hkd : s.duplicateVersion k = none)
    (hrep : ChainRep s.priorVersion s.duplicateVersion
      (s.candidateKexts.lookup (s.identifierOf k)) L)
    (hvc : IsVersionChain s.versionOf L) (hnd : (k :: L.flatten).Nodup)
    (hc : s.isCandidate k = true) :
    ChainRep (s.addCandidateKext k).priorVersion (s.addCandidateKext k).duplicateVersion
        ((s.addCandidateKext k).candidateKexts.lookup (s.identifierOf k))
        (insertVersion s.versionOf k L) ∧
      (∀ I ≠ s.identifierOf k,
        (s.addCandidateKext k).candidateKexts.lookup I = s.candidateKexts.lookup I) ∧
      ∀ m ∉ k :: L.flatten, (s.addCandidateKext k).priorVersion m = s.priorVersion m ∧
        (s.addCandidateKext k).duplicateVersion m = s.duplicateVersion m := by
  unfold addCandidateKext
  rw [if_pos hc]
  cases ha : s.candidateKexts.lookup (s.identifierOf k) with
  | none =>
      rw [ha] at hrep
      obtain rfl := hrep.eq_nil_of_none
      refine ⟨?_, fun I hI => AList.lookup_insert_ne hI, fun m _ => ⟨rfl, rfl⟩⟩
      simp [insertVersion, hkp, hkd, DupRep]
  | some a =>
      rw [ha] at hrep
      have hkL : k ∉ L.flatten := (List.nodup_cons.mp hnd).1
      by_cases hlt : s.versionOf a < s.versionOf k
      · -- a new head
        obtain ⟨ds, L', rfl⟩ := hrep.exists_of_some
        dsimp only
        rw [if_pos hlt, insertVersion, if_pos hlt]
        refine ⟨⟨by simp, hkd, by simp, ?_⟩, fun I hI => AList.lookup_insert_ne hI,
          fun m hm => ⟨?_, rfl⟩⟩
        · simp only [setPriorVersionKext_priorVersion, if_true]
          refine hrep.frame (fun m hm => ?_) (fun _ _ => rfl)
          simp [show m ≠ k from fun e => hkL (e ▸ hm)]
        · simp [show m ≠ k from fun e => hm (e ▸ List.mem_cons_self _ _)]
      · -- filed below the head
        dsimp only
        rw [if_neg hlt]
        have hlen : L.length ≤ Fintype.card κ :=
          hvc.length_le.trans (List.nodup_cons.mp hnd).2.length_le_card
        obtain ⟨h1, h2⟩ := addPriorOrDuplicateVersionKext_spec hkp hkd hrep hvc hnd hlt hlen
        have hdict : (s.addPriorOrDuplicateVersionKext (Fintype.card κ) a k).candidateKexts =
            s.candidateKexts := by
          have := congrArg Manager.candidateKexts (addPriorOrDuplicateVersionKext_withoutLinks
            (Fintype.card κ) s a k)
          exact this
        refine ⟨?_, fun I _ => by rw [hdict], h2⟩
        rw [hdict, ha]; exact h1

/-- The builder's loop invariant after the candidate kexts `P`, with `rest`
still to come: every identifier's links spell out the chain of its candidates
among `P`, and the kexts still to come have no links. -/
structure BuildInv (s₀ : Manager ι κ) (P rest : List κ) (s : Manager ι κ) : Prop where
  frame : s.withoutChains = s₀.withoutChains
  chains : ∀ I, ∃ L, IsChainOf s₀.versionOf (s₀.candidatesOf I P) L ∧
    ChainRep s.priorVersion s.duplicateVersion (s.candidateKexts.lookup I) L
  fresh : ∀ k ∈ rest, s.priorVersion k = none ∧ s.duplicateVersion k = none

theorem BuildInv.step {s₀ s : Manager ι κ} {P rest : List κ} {k : κ}
    (hinv : BuildInv s₀ P (k :: rest) s) (hnd : (P ++ k :: rest).Nodup) :
    BuildInv s₀ (P ++ [k]) rest (s.addCandidateKext k) := by
  have hkx : s.kexts = s₀.kexts := by
    have := congrArg Manager.kexts hinv.frame; exact this
  have hsb : s.safeBoot = s₀.safeBoot := by
    have := congrArg Manager.safeBoot hinv.frame; exact this
  have hver : s.versionOf = s₀.versionOf := by funext m; simp [versionOf, hkx]
  have hid : s.identifierOf = s₀.identifierOf := by funext m; simp [identifierOf, hkx]
  have hcand : s.isCandidate = s₀.isCandidate := by funext m; simp [isCandidate, hkx, hsb]
  have hkP : k ∉ P := fun h => (List.nodup_append.mp hnd).2.2 h (List.mem_cons_self _ _)
  have hrest : ∀ m ∈ rest, m ≠ k ∧ m ∉ P := fun m hm =>
    ⟨fun e => (List.nodup_cons.mp (List.nodup_append.mp hnd).2.1).1 (e ▸ hm),
      fun h => (List.nodup_append.mp hnd).2.2 h (List.mem_cons_of_mem _ hm)⟩
  obtain ⟨hkp, hkd⟩ := hinv.fresh k (List.mem_cons_self _ _)
  by_cases hc : s₀.isCandidate k = true
  · obtain ⟨LJ, hJc, hJr⟩ := hinv.chains (s₀.identifierOf k)
    have hJmem : ∀ m ∈ LJ.flatten, m ∈ P ∧ s₀.identifierOf m = s₀.identifierOf k := fun m hm => by
      have := mem_candidatesOf.mp ((hJc.mem_iff m).mp hm); exact ⟨this.1, this.2.2⟩
    have hndJ : (k :: LJ.flatten).Nodup :=
      List.nodup_cons.mpr ⟨fun h => hkP (hJmem k h).1,
        hJc.nodup ((List.nodup_append.mp hnd).1.sublist (List.filter_sublist _))⟩
    rw [← hid] at hJr
    obtain ⟨h1, h2, h3⟩ := addCandidateKext_spec hkp hkd hJr (hver ▸ hJc.toIsVersionChain)
      hndJ (hcand ▸ hc)
    refine ⟨by rw [addCandidateKext_withoutChains, hinv.frame], fun I => ?_, fun m hm => ?_⟩
    · by_cases hI : I = s₀.identifierOf k
      · subst hI
        refine ⟨insertVersion s₀.versionOf k LJ, ?_, by rw [hid, hver] at h1; exact h1⟩
        have : s₀.candidatesOf (s₀.identifierOf k) (P ++ [k]) =
            s₀.candidatesOf (s₀.identifierOf k) P ++ [k] := by
          simp [candidatesOf, List.filter_append, hc]
        rw [this]; exact isChainOf_insertVersion hJc
      · obtain ⟨LI, hIc, hIr⟩ := hinv.chains I
        have : s₀.candidatesOf I (P ++ [k]) = s₀.candidatesOf I P := by
          simp [candidatesOf, List.filter_append, Ne.symm hI]
        refine ⟨LI, this ▸ hIc, ?_⟩
        rw [h2 I (hid ▸ hI)]
        refine hIr.frame (fun m hm => (h3 m ?_).1) (fun m hm => (h3 m ?_).2) <;>
        · have hmI := (mem_candidatesOf.mp ((hIc.mem_iff m).mp hm)).2.2
          intro h
          rcases List.mem_cons.mp h with rfl | h
          · exact hI hmI.symm
          · exact hI (hmI.symm.trans (hJmem m h).2)
    · have hmo : m ∉ k :: LJ.flatten := by
        intro h
        rcases List.mem_cons.mp h with rfl | h
        · exact (hrest m hm).1 rfl
        · exact (hrest m hm).2 (hJmem m h).1
      rw [(h3 m hmo).1, (h3 m hmo).2]
      exact hinv.fresh m (List.mem_cons_of_mem _ hm)
  · have hs : s.addCandidateKext k = s := by
      unfold addCandidateKext; rw [if_neg (hcand ▸ hc)]
    rw [hs]
    refine ⟨hinv.frame, fun I => ?_, fun m hm => hinv.fresh m (List.mem_cons_of_mem _ hm)⟩
    have : s₀.candidatesOf I (P ++ [k]) = s₀.candidatesOf I P := by
      simp [candidatesOf, List.filter_append, hc]
    rw [this]; exact hinv.chains I

theorem BuildInv.foldl {s₀ : Manager ι κ} :
    ∀ {rest P : List κ} {s : Manager ι κ}, BuildInv s₀ P rest s → (P ++ rest).Nodup →
      BuildInv s₀ (P ++ rest) [] (rest.foldl addCandidateKext s)
  | [], _, _, h, _ => by simpa using h
  | k :: rest, P, s, h, hnd => by
      have := BuildInv.foldl (h.step hnd) (by simpa using hnd)
      simpa using this

/-! ### The build -/

omit [Fintype κ] in
/-- Before the first kext is filed, the structure is empty and every candidate
kext is without links. -/
theorem buildInv_start (s : Manager ι κ) :
    let s₁ := Internal.clearDependencyRelationships (Internal.clearRelationships s)
    BuildInv s₁ [] s₁.candidateList s₁ := by
  refine ⟨rfl, fun I => ⟨[], by simpa [candidatesOf] using isChainOf_nil, by simp⟩,
    fun k hk => ?_⟩
  have hk' : k ∈ s.allKexts := by
    simp only [candidateList, Internal.clearDependencyRelationships_repositoryList,
      Internal.clearRelationships_repositoryList, List.mem_flatMap] at hk
    obtain ⟨r, hr, hk⟩ := hk
    exact List.mem_flatMap.mpr ⟨r, hr, List.mem_append_left _ hk⟩
  simp [hk']

/-- **The version chains after a build.**  Whatever links the kexts carried
before, after `KXKextManagerCalculateVersionRelationships` the links read from
the dictionary entry of each identifier `I` spell out the chain of the
candidate kexts of `I` in traversal order, each of them once. -/
theorem calculateVersionRelationships_chains (s : Manager ι κ) (I : ι) :
    ∃ L, ChainRep s.calculateVersionRelationships.priorVersion
        s.calculateVersionRelationships.duplicateVersion
        (s.calculateVersionRelationships.candidateKexts.lookup I) L ∧
      IsChainOf s.versionOf (s.candidatesOf I s.candidateList) L ∧ L.flatten.Nodup := by
  have hinv := (buildInv_start s).foldl (by rw [List.nil_append]; exact candidateList_nodup _)
  obtain ⟨L, hc, hr⟩ := hinv.chains I
  have hlist : (Internal.clearDependencyRelationships (Internal.clearRelationships s)).candidateList =
      s.candidateList := by simp [candidateList]
  simp only [hlist, List.nil_append, Internal.clearDependencyRelationships_versionOf,
    Internal.clearRelationships_versionOf] at hc
  have hcand : (Internal.clearDependencyRelationships (Internal.clearRelationships s)).candidatesOf I
      s.candidateList = s.candidatesOf I s.candidateList := by simp [candidatesOf]
  rw [hcand] at hc
  exact ⟨L, hr, hc, hc.nodup ((candidateList_nodup s).sublist (List.filter_sublist _))⟩

/-- After a build the kexts reached from the head of `I` are the candidate
kexts of `I`. -/
theorem calculateVersionRelationships_reaches (s : Manager ι κ) (I : ι) (k : κ) :
    Reaches s.calculateVersionRelationships I k ↔
      k ∈ s.candidateList ∧ s.isCandidate k = true ∧ s.identifierOf k = I := by
  obtain ⟨L, hr, hc, _⟩ := calculateVersionRelationships_chains s I
  exact (reaches_iff_mem_of_chainRep hr k).trans ((hc.mem_iff k).trans mem_candidatesOf)

/-- **The builder is correct.**  For any repositories, any flags and whatever
links the kexts carried before, after `KXKextManagerCalculateVersionRelationships`
`candidateKexts` has a key exactly for the identifiers of candidate kexts; the
kexts reachable from the head of `I` are exactly the candidate kexts of `I`;
and the links spell out their version chain: one version node per version,
strictly descending along `priorVersion`, the node of a version being its first
candidate kext in traversal order and its duplicate chain the others in order
(`IsChainOf.level_eq`), each kext once. -/
theorem calculateVersionRelationships_correct (s : Manager ι κ) (I : ι) :
    (I ∈ s.calculateVersionRelationships.candidateKexts ↔
        ∃ k ∈ s.candidateList, s.isCandidate k = true ∧ s.identifierOf k = I) ∧
      (∀ k, Reaches s.calculateVersionRelationships I k ↔
        k ∈ s.candidateList ∧ s.isCandidate k = true ∧ s.identifierOf k = I) ∧
      ∃ L, ChainRep s.calculateVersionRelationships.priorVersion
          s.calculateVersionRelationships.duplicateVersion
          (s.calculateVersionRelationships.candidateKexts.lookup I) L ∧
        IsChainOf s.versionOf (s.candidatesOf I s.candidateList) L ∧ L.flatten.Nodup := by
  obtain ⟨L, hr, hc, hnd⟩ := calculateVersionRelationships_chains s I
  have hmem : ∀ k, k ∈ L.flatten ↔
      k ∈ s.candidateList ∧ s.isCandidate k = true ∧ s.identifierOf k = I := fun k =>
    (hc.mem_iff k).trans mem_candidatesOf
  refine ⟨?_, calculateVersionRelationships_reaches s I, L, hr, hc, hnd⟩
  rw [← AList.lookup_isSome, Option.isSome_iff_exists]
  constructor
  · rintro ⟨n, hn⟩
    exact ⟨n, (hmem n).mp (hr.head_mem n hn)⟩
  · rintro ⟨k, hk⟩
    cases h : s.calculateVersionRelationships.candidateKexts.lookup I with
    | none =>
        rw [h] at hr
        rw [hr.eq_nil_of_none] at hmem
        simp at hmem; exact absurd hk.2.2 (hmem k hk.1 hk.2.1)
    | some n => exact ⟨n, rfl⟩

/-! ### What the builder leaves -/

/-- `Built s`: what the builder leaves, as the readers of the structure rely
on it.  Each dictionary entry represents a chain without repetitions, and the
kexts reachable from the head of `I` carry identifier `I` and belong to the
repositories. -/
structure Built (s : Manager ι κ) : Prop where
  chains : ∀ I, ∃ L, ChainRep s.priorVersion s.duplicateVersion (s.candidateKexts.lookup I) L ∧
    L.flatten.Nodup
  identifierOf_eq : ∀ I k, Reaches s I k → s.identifierOf k = I
  mem_allKexts : ∀ I k, Reaches s I k → k ∈ s.allKexts

omit [DecidableEq ι] [DecidableEq κ] [Fintype κ] in
theorem mem_allKexts_of_mem_candidateList {s : Manager ι κ} {k : κ} (hk : k ∈ s.candidateList) :
    k ∈ s.allKexts := by
  simp only [candidateList, allKexts, List.mem_flatMap] at hk ⊢
  obtain ⟨r, hr, hk⟩ := hk
  exact ⟨r, hr, List.mem_append_left _ hk⟩

/-- A build leaves a built structure. -/
theorem calculateVersionRelationships_built (s : Manager ι κ) :
    Built s.calculateVersionRelationships := by
  have hreach : ∀ I k, Reaches s.calculateVersionRelationships I k →
      k ∈ s.candidateList ∧ s.identifierOf k = I := fun I k hk =>
    have := (calculateVersionRelationships_reaches s I k).mp hk
    ⟨this.1, this.2.2⟩
  refine ⟨fun I => ?_, fun I k hk => ?_, fun I k hk => ?_⟩
  · obtain ⟨L, hr, _, hnd⟩ := calculateVersionRelationships_chains s I
    exact ⟨L, hr, hnd⟩
  · rw [calculateVersionRelationships_identifierOf]; exact (hreach I k hk).2
  · unfold allKexts; rw [calculateVersionRelationships_repositoryList]
    exact mem_allKexts_of_mem_candidateList (hreach I k hk).1

end Manager

end KextManager
