/-
KextManager/Coherence.lean

The chain structure over whole runs of the calls that build, splice, tear down
and gate it: `KXKextManagerCalculateVersionRelationships`,
`KXKextManagerResolveAllKextDependencies`, `KXKextManagerClearRelationships`,
`KXKextManagerDisableClearRelationships` and
`KXKextManagerEnableClearRelationships`.

The ghost `placement` records, per identifier, the kexts that the latest build
since the last teardown placed: a build sets it to the build's candidates, a
call that tears down (the ghost `teardownCount` moves) empties it, and every
other call keeps it.  The invariant `Coherent` says that the links spell out,
from the dictionary entry of each identifier, the builder's chain of its placed
kexts with the kexts of `kextsWithMissingDependencies` erased, and that this
list holds placed kexts, each once.  Each call keeps it
(`RelationshipOp.coherent_apply`), so every state of a run from a fresh
manager has it (`coherent_run`), and the main theorem reads off what it says
about reachability, the dictionary keys and the shape of the chains.
-/
import KextManager.Resolve

namespace KextManager

variable {ι κ : Type} [DecidableEq ι] [DecidableEq κ] [Fintype κ]

/-! ### The calls and their runs -/

/-- The manager calls that build, splice, tear down or gate the chain
structure.  A resolution carries the results of `KXKextResolveDependencies`
and whether the snapshot arrays could be allocated. -/
inductive RelationshipOp (κ : Type) where
  | calculateVersionRelationships
  | resolveAllKextDependencies (resolve : κ → KXKextManagerError) (mallocOk : Bool)
  | clearRelationships
  | disableClearRelationships
  | enableClearRelationships

namespace RelationshipOp

/-- The effect of one call. -/
def apply : RelationshipOp κ → Manager ι κ → Manager ι κ
  | calculateVersionRelationships, s => s.calculateVersionRelationships
  | resolveAllKextDependencies resolve mallocOk, s => s.resolveAllKextDependencies resolve mallocOk
  | clearRelationships, s => s.clearRelationships
  | disableClearRelationships, s => s.disableClearRelationships
  | enableClearRelationships, s => s.enableClearRelationships

/-- Ghost: the kexts of each identifier placed by the latest build since the
last teardown, after the call, given `P` before it. -/
def placement (op : RelationshipOp κ) (s : Manager ι κ) (P : ι → List κ) : ι → List κ :=
  match op with
  | calculateVersionRelationships => fun I => s.candidatesOf I s.candidateList
  | _ => if (op.apply s).teardownCount = s.teardownCount then P else fun _ => []

/-- The state after a run of calls. -/
def run : List (RelationshipOp κ) → Manager ι κ → Manager ι κ
  | [], s => s
  | op :: ops, s => run ops (op.apply s)

/-- The ghost placement after a run of calls, given `P` before it. -/
def placedAfter : List (RelationshipOp κ) → Manager ι κ → (ι → List κ) → ι → List κ
  | [], _, P => P
  | op :: ops, s, P => placedAfter ops (op.apply s) (op.placement s P)

end RelationshipOp

/-! ### The invariant -/

/-- The links spell out, from the dictionary entry of each identifier, the
builder's chain of the kexts `P` placed with the kexts of `R` spliced out;
placed kexts carry their identifier, and `R` holds placed kexts, each once. -/
structure SplicedFrom (P : ι → List κ) (R : List κ) (s : Manager ι κ) : Prop where
  placed_identifier : ∀ I, ∀ k ∈ P I, s.identifierOf k = I
  chains : ∀ I, ∃ L, IsChainOf s.versionOf (P I) L ∧ L.flatten.Nodup ∧
    ChainRep s.priorVersion s.duplicateVersion (s.candidateKexts.lookup I) (eraseMissing R L)
  spliced_nodup : R.Nodup
  spliced_placed : ∀ k ∈ R, k ∈ P (s.identifierOf k)

/-- The chain structure of `s` is coherent with the placement `P`: the kexts
spliced out of the builder's chains are those of
`kextsWithMissingDependencies`. -/
abbrev Coherent (P : ι → List κ) (s : Manager ι κ) : Prop :=
  SplicedFrom P s.kextsWithMissingDependencies s

namespace Manager

/-- The manager with the gate's fields forgotten. -/
def withoutGate (s : Manager ι κ) : Manager ι κ :=
  { s with
    clearRelationshipsDisableCount := 0
    needsClearRelationships := false
    needsCalculateRelationships := false }

end Manager

section Gate

variable {P : ι → List κ} {s s' : Manager ι κ}

omit [Fintype κ] in
/-- Only the chain structure and the kexts' versions and identifiers matter. -/
theorem SplicedFrom.congr {R : List κ} (h : SplicedFrom P R s)
    (hp : s'.priorVersion = s.priorVersion) (hd : s'.duplicateVersion = s.duplicateVersion)
    (hc : s'.candidateKexts = s.candidateKexts) (hv : s'.versionOf = s.versionOf)
    (hi : s'.identifierOf = s.identifierOf) : SplicedFrom P R s' :=
  ⟨by rw [hi]; exact h.placed_identifier, by rw [hv, hp, hd, hc]; exact h.chains,
    h.spliced_nodup, by rw [hi]; exact h.spliced_placed⟩

omit [Fintype κ] in
/-- The kexts reached from the head of `I` are its placed kexts not spliced out. -/
theorem SplicedFrom.reaches_iff {R : List κ} (h : SplicedFrom P R s) (I : ι) (k : κ) :
    Reaches s I k ↔ k ∈ P I ∧ k ∉ R := by
  obtain ⟨L, hL, -, hc⟩ := h.chains I
  rw [reaches_iff_mem_of_chainRep hc, mem_flatten_eraseMissing, hL.mem_iff]

omit [Fintype κ] in
/-- Every kext reached from the head of `I` has a version no higher than the
head's. -/
theorem SplicedFrom.le_head {R : List κ} (h : SplicedFrom P R s) {I : ι} {k : κ}
    (hk : Reaches s I k) :
    ∃ n, s.candidateKexts.lookup I = some n ∧ s.versionOf k ≤ s.versionOf n := by
  obtain ⟨L, hL, -, hc⟩ := h.chains I
  exact hc.le_head (hL.toIsVersionChain.eraseMissing R) ((reaches_iff_mem_of_chainRep hc k).mp hk)

omit [Fintype κ] in
theorem SplicedFrom.of_withoutGate {R : List κ} (h : SplicedFrom P R s)
    (hg : s'.withoutGate = s.withoutGate) : SplicedFrom P R s' :=
  h.congr (by have := congrArg Manager.priorVersion hg; exact this)
    (by have := congrArg Manager.duplicateVersion hg; exact this)
    (by have := congrArg Manager.candidateKexts hg; exact this)
    (by have h' := congrArg Manager.kexts hg; unfold Manager.versionOf; exact congrArg
          (fun f k => (f k).version) h')
    (by have h' := congrArg Manager.kexts hg; unfold Manager.identifierOf; exact congrArg
          (fun f k => (f k).bundleIdentifier) h')

omit [Fintype κ] in
theorem Coherent.of_withoutGate (h : Coherent P s) (hg : s'.withoutGate = s.withoutGate) :
    Coherent P s' := by
  have hm : s'.kextsWithMissingDependencies = s.kextsWithMissingDependencies := by
    have := congrArg Manager.kextsWithMissingDependencies hg; exact this
  unfold Coherent; rw [hm]; exact SplicedFrom.of_withoutGate h hg

omit [Fintype κ] in
/-- A torn-down structure is coherent with the empty placement. -/
theorem splicedFrom_of_empty (hc : s.candidateKexts = ∅) : SplicedFrom (fun _ => []) [] s :=
  ⟨fun _ _ h => absurd h (List.not_mem_nil _), fun I => ⟨[], isChainOf_nil, List.nodup_nil, by
    rw [hc]; rfl⟩, List.nodup_nil, by simp⟩

omit [Fintype κ] in
theorem coherent_of_empty (hc : s.candidateKexts = ∅) (hm : s.kextsWithMissingDependencies = []) :
    Coherent (fun _ => []) s := by
  unfold Coherent; rw [hm]; exact splicedFrom_of_empty hc

omit [DecidableEq ι] [DecidableEq κ] [Fintype κ] in
theorem teardownCount_eq_of_withoutGate (hg : s'.withoutGate = s.withoutGate) :
    s'.teardownCount = s.teardownCount := by
  have := congrArg Manager.teardownCount hg; exact this

omit [DecidableEq ι] [Fintype κ] in
/-- A clear request either only marks the structure stale or tears it down. -/
theorem clearRelationships_cases (s : Manager ι κ) :
    s.clearRelationships.withoutGate = s.withoutGate ∨
      (s.clearRelationships.teardownCount ≠ s.teardownCount ∧
        s.clearRelationships.candidateKexts = ∅ ∧
        s.clearRelationships.kextsWithMissingDependencies = []) := by
  by_cases h : 0 < s.clearRelationshipsDisableCount.toInt
  · exact .inl (by rw [Manager.clearRelationships_of_pos s h]; rfl)
  · refine .inr ⟨by simp [h], ?_, ?_⟩ <;>
      simp [Manager.clearRelationships_of_nonpos s h, Manager.Internal.clearRelationships,
        Manager.clearRepositoryRelationships_eq]

omit [DecidableEq ι] [Fintype κ] in
/-- Re-enabling clears: nothing, or a teardown. -/
theorem enableClearRelationships_cases (s : Manager ι κ) :
    s.enableClearRelationships.withoutGate = s.withoutGate ∨
      (s.enableClearRelationships.teardownCount ≠ s.teardownCount ∧
        s.enableClearRelationships.candidateKexts = ∅ ∧
        s.enableClearRelationships.kextsWithMissingDependencies = []) := by
  set s₁ : Manager ι κ := if 0 < s.clearRelationshipsDisableCount.toInt then
    { s with clearRelationshipsDisableCount := s.clearRelationshipsDisableCount - 1 } else s
  have h₁ : s₁.withoutGate = s.withoutGate := by simp only [s₁]; split_ifs <;> rfl
  have he : s.enableClearRelationships =
      if s₁.needsClearRelationships then s₁.clearRelationships else s₁ := rfl
  rw [he, ← h₁, ← teardownCount_eq_of_withoutGate h₁]
  split_ifs
  · exact clearRelationships_cases s₁
  · exact .inl rfl

end Gate

/-- What the chain structure of `s` is, given the placement `P`: the kexts
reached from the dictionary are the placed kexts not listed in
`kextsWithMissingDependencies`; the list holds each kext once; an identifier has
a key exactly when one of its placed kexts survives, and its key is a survivor;
and the links spell out the builder's chain of its placed kexts with the listed
ones erased, which keeps the builder's shape, has no cycle and gives every kext
but the head exactly one incoming link. -/
structure SplicedChains (P : ι → List κ) (s : Manager ι κ) : Prop where
  reaches_iff : ∀ I k, Reaches s I k ↔ k ∈ P I ∧ k ∉ s.kextsWithMissingDependencies
  missing_nodup : s.kextsWithMissingDependencies.Nodup
  missing_unreached : ∀ I, ∀ k ∈ s.kextsWithMissingDependencies, ¬ Reaches s I k
  mem_iff : ∀ I, I ∈ s.candidateKexts ↔ ∃ k ∈ P I, k ∉ s.kextsWithMissingDependencies
  head_survives : ∀ I k, s.candidateKexts.lookup I = some k →
    k ∈ P I ∧ k ∉ s.kextsWithMissingDependencies
  shape : ∀ I, ∃ L, IsChainOf s.versionOf (P I) L ∧
    let E := eraseMissing s.kextsWithMissingDependencies L
    IsVersionChain s.versionOf E ∧ E.flatten.Nodup ∧
      ChainRep s.priorVersion s.duplicateVersion (s.candidateKexts.lookup I) E ∧
      (∀ m ∈ E.flatten, ∀ k, (s.priorVersion m = some k ∨ s.duplicateVersion m = some k) →
        E.flatten.indexOf m < E.flatten.indexOf k) ∧
      ∀ k ∈ E.flatten, E.flatten.countP (fun m => s.priorVersion m = some k) +
        E.flatten.countP (fun m => s.duplicateVersion m = some k) =
          if s.candidateKexts.lookup I = some k then 0 else 1

omit [Fintype κ] in
/-- The invariant says what the chains are. -/
theorem Coherent.splicedChains {P : ι → List κ} {s : Manager ι κ} (h : Coherent P s) :
    SplicedChains P s := by
  have hreach := h.reaches_iff
  refine ⟨hreach, h.spliced_nodup, fun I k hk hr => ((hreach I k).mp hr).2 hk, fun I => ?_,
    fun I k hk => (hreach I k).mp (.head hk), fun I => ?_⟩
  · rw [← AList.lookup_isSome, Option.isSome_iff_exists]
    constructor
    · rintro ⟨k, hk⟩; exact ⟨k, (hreach I k).mp (.head hk)⟩
    · rintro ⟨k, hk⟩
      obtain ⟨L, hL, -, hc⟩ := h.chains I
      cases hl : s.candidateKexts.lookup I with
      | none =>
          rw [hl] at hc
          have hmem := mem_flatten_eraseMissing.mpr ⟨(hL.mem_iff k).mpr hk.1, hk.2⟩
          rw [hc.eq_nil_of_none] at hmem
          exact absurd hmem (List.not_mem_nil _)
      | some n => exact ⟨n, rfl⟩
  · obtain ⟨L, hL, hnd, hc⟩ := h.chains I
    have hE : (eraseMissing s.kextsWithMissingDependencies L).flatten.Nodup := by
      rw [flatten_eraseMissing]; exact hnd.filter _
    exact ⟨L, hL, hL.toIsVersionChain.eraseMissing _, hE, hc, hc.index_lt hE, hc.countP_links hE⟩

/-! ### Each call keeps the invariant -/

section Steps

variable {P : ι → List κ} {s : Manager ι κ}

/-- **A build places the candidates.** -/
theorem coherent_calculateVersionRelationships (s : Manager ι κ) :
    Coherent (fun I => s.candidatesOf I s.candidateList) s.calculateVersionRelationships := by
  refine ⟨fun I k hk => ?_, fun I => ?_, by simp, by simp⟩
  · rw [Manager.calculateVersionRelationships_identifierOf]
    exact (Manager.mem_candidatesOf.mp hk).2.2
  · obtain ⟨L, hc, hL, hnd⟩ := Manager.calculateVersionRelationships_chains s I
    refine ⟨L, by simpa using hL, hnd, ?_⟩
    rwa [Manager.calculateVersionRelationships_kextsWithMissingDependencies,
      eraseMissing_nil hL.ne_nil]

/-- **A resolution splices out exactly what it lists**: the kexts it appends
to `kextsWithMissingDependencies` are the kexts it erases from the chains. -/
theorem SplicedFrom.resolveAllKextDependencies {R : List κ} (h : SplicedFrom P R s)
    (resolve : κ → KXKextManagerError) (mallocOk : Bool) :
    ∃ A, (s.resolveAllKextDependencies resolve mallocOk).kextsWithMissingDependencies =
        s.kextsWithMissingDependencies ++ A ∧
      SplicedFrom P (R ++ A) (s.resolveAllKextDependencies resolve mallocOk) := by
  by_cases hm : s.candidateKexts.entries = [] ∨ mallocOk = true
  swap
  · -- the allocation failed: nothing changes
    have : s.resolveAllKextDependencies resolve mallocOk = s := by
      unfold Manager.resolveAllKextDependencies
      rw [if_pos (by simpa [List.isEmpty_iff, not_or] using hm)]
    rw [this]; exact ⟨[], (List.append_nil _).symm, by rw [List.append_nil]; exact h⟩
  obtain ⟨L, hL⟩ := Classical.axiomOfChoice h.chains
  set E : ι → List (List κ) := fun I => eraseMissing R (L I)
  have hE : ∀ I, ∀ x ∈ (E I).flatten, x ∈ P I ∧ x ∉ R := fun I x hx => by
    obtain ⟨hx, hxR⟩ := mem_flatten_eraseMissing.mp hx
    exact ⟨((hL I).1.mem_iff x).mp hx, hxR⟩
  have hEid : ∀ I, ∀ x ∈ (E I).flatten, s.identifierOf x = I := fun I x hx =>
    h.placed_identifier I x (hE I x hx).1
  have hEnd : ∀ I, (E I).flatten.Nodup := fun I => by
    simp only [E]; rw [flatten_eraseMissing]; exact (hL I).2.1.filter _
  have hdisj : ∀ I J, I ≠ J → List.Disjoint (E I).flatten (E J).flatten := fun I J hIJ x hI hJ =>
    hIJ ((hEid I x hI).symm.trans (hEid J x hJ))
  obtain ⟨hchain, hmissing, -⟩ :=
    Manager.resolveAllKextDependencies_spec resolve (fun I => (hL I).2.2) hEnd hdisj hm
  have hres := Manager.resolveAllKextDependencies_withoutResolution resolve mallocOk s
  set ok : κ → Bool := fun k => decide (resolve k = .none)
  set A := s.candidateKexts.entries.flatMap fun e => removedChain ok (E e.1)
  have hv := Manager.versionOf_eq_of_withoutResolution hres
  have hi := Manager.identifierOf_eq_of_withoutResolution hres
  -- what pass 2 records of a chain is in its chain
  have hrem : ∀ I, ∀ x ∈ removedChain ok (E I), x ∈ (E I).flatten := fun I x hx =>
    (removedChain_sublist ok (E I)).subset hx
  -- a kext of the chain of `I` is recorded with the chain of `I` or not at all
  have hkey : ∀ I, ∀ x ∈ (L I).flatten, (x ∈ A ↔ x ∈ removedChain ok (E I)) := fun I x hx => by
    constructor
    · intro hx'
      obtain ⟨e, -, he⟩ := List.mem_flatMap.mp hx'
      have hI : e.1 = I := (hEid e.1 x (hrem e.1 x he)).symm.trans
        (h.placed_identifier I x (((hL I).1.mem_iff x).mp hx))
      rwa [hI] at he
    · intro hx'
      cases hl : s.candidateKexts.lookup I with
      | none =>
          have hE0 : E I = [] := by
            have := (hL I).2.2; rw [hl] at this; exact this.eq_nil_of_none
          have := hrem I x hx'
          rw [hE0] at this
          exact absurd this (List.not_mem_nil _)
      | some n => exact List.mem_flatMap.mpr ⟨⟨I, n⟩, AList.mem_lookup_iff.mp hl, hx'⟩
  refine ⟨A, hmissing, fun I k hk => by rw [hi]; exact h.placed_identifier I k hk,
    fun I => ⟨L I, ?_, (hL I).2.1, ?_⟩, ?_, fun k hk => ?_⟩
  · rw [hv]; exact (hL I).1
  · have hc := hchain I
    rw [filterChain_eq_eraseMissing ok (hEnd I), eraseMissing_eraseMissing] at hc
    have he : eraseMissing (R ++ A) (L I) = eraseMissing (R ++ removedChain ok (E I)) (L I) :=
      eraseMissing_congr fun x hx => by simp only [List.mem_append, hkey I x hx]
    rw [he]; exact hc
  · rw [List.nodup_append]
    refine ⟨h.spliced_nodup, List.nodup_flatMap.mpr ⟨fun e _ =>
      (removedChain_sublist ok (E e.1)).nodup (hEnd e.1), ?_⟩, fun x hxR hx => ?_⟩
    · exact (List.pairwise_map.mp s.candidateKexts.nodupKeys).imp fun hne x h₁ h₂ =>
        hne ((hEid _ x (hrem _ x h₁)).symm.trans (hEid _ x (hrem _ x h₂)))
    · obtain ⟨e, -, he⟩ := List.mem_flatMap.mp hx
      exact (hE e.1 x (hrem e.1 x he)).2 hxR
  · rw [hi]
    rcases List.mem_append.mp hk with hk | hk
    · exact h.spliced_placed k hk
    · obtain ⟨e, -, he⟩ := List.mem_flatMap.mp hk
      rw [hEid e.1 k (hrem e.1 k he)]
      exact (hE e.1 k (hrem e.1 k he)).1

/-- **A resolution keeps the placement**: it erases from the chains exactly
the kexts it appends to `kextsWithMissingDependencies`. -/
theorem Coherent.resolveAllKextDependencies (h : Coherent P s)
    (resolve : κ → KXKextManagerError) (mallocOk : Bool) :
    Coherent P (s.resolveAllKextDependencies resolve mallocOk) := by
  obtain ⟨A, hA, h'⟩ := SplicedFrom.resolveAllKextDependencies h resolve mallocOk
  unfold Coherent; rw [hA]; exact h'

end Steps

namespace RelationshipOp

/-- **Every call keeps the invariant**, with the ghost placement it makes. -/
theorem coherent_apply {P : ι → List κ} {s : Manager ι κ} (h : Coherent P s) :
    ∀ op : RelationshipOp κ, Coherent (op.placement s P) (op.apply s)
  | calculateVersionRelationships => coherent_calculateVersionRelationships s
  | resolveAllKextDependencies resolve mallocOk => by
      simp only [placement, apply, Manager.teardownCount_eq_of_withoutResolution
        (Manager.resolveAllKextDependencies_withoutResolution resolve mallocOk s), if_true]
      exact h.resolveAllKextDependencies resolve mallocOk
  | clearRelationships => by
      rcases clearRelationships_cases s with hg | ⟨ht, hc, hm⟩
      · simp only [placement, apply, teardownCount_eq_of_withoutGate hg, if_true]
        exact h.of_withoutGate hg
      · simp only [placement, apply, if_neg ht]
        exact coherent_of_empty hc hm
  | disableClearRelationships => by
      simp only [placement, apply]
      rw [if_pos (show s.disableClearRelationships.teardownCount = s.teardownCount from rfl)]
      exact h.of_withoutGate rfl
  | enableClearRelationships => by
      rcases enableClearRelationships_cases s with hg | ⟨ht, hc, hm⟩
      · simp only [placement, apply, teardownCount_eq_of_withoutGate hg, if_true]
        exact h.of_withoutGate hg
      · simp only [placement, apply, if_neg ht]
        exact coherent_of_empty hc hm

/-- Every state of a run keeps the invariant. -/
theorem coherent_run :
    ∀ (ops : List (RelationshipOp κ)) {P : ι → List κ} {s : Manager ι κ}, Coherent P s →
      Coherent (placedAfter ops s P) (run ops s)
  | [], _, _, h => h
  | op :: ops, _, _, h => coherent_run ops (coherent_apply h op)

/-- **The chain structure over any run.**  From a fresh manager (no dictionary
entry, nothing listed), after any sequence of builds, resolutions with any
outcomes, clear requests and disabling and re-enabling of clears, the links
spell out the chains of the kexts placed by the latest build since the last
teardown, with the kexts of `kextsWithMissingDependencies` spliced out. -/
theorem run_splicedChains (ops : List (RelationshipOp κ)) (s : Manager ι κ)
    (hc : s.candidateKexts = ∅) (hm : s.kextsWithMissingDependencies = []) :
    SplicedChains (placedAfter ops s fun _ => []) (run ops s) :=
  (coherent_run ops (coherent_of_empty hc hm)).splicedChains

theorem run_splicedChains_sameVersionPair :
    sameVersionPair.candidateKexts = ∅ ∧ sameVersionPair.kextsWithMissingDependencies = [] ∧
      SplicedChains
        (placedAfter [.calculateVersionRelationships,
          .resolveAllKextDependencies (fun k => if k = 0 then .none else .dependency) true]
          sameVersionPair fun _ => [])
        (run [.calculateVersionRelationships,
          .resolveAllKextDependencies (fun k => if k = 0 then .none else .dependency) true]
          sameVersionPair) :=
  ⟨rfl, rfl, run_splicedChains _ _ rfl rfl⟩

end RelationshipOp

end KextManager
