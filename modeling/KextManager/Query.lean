/-
KextManager/Query.lean

The lookups by version and the two copies of the candidate structure:
`KXKextManagerGetKextWithIdentifierAndVersionString`,
`KXKextManagerGetKextWithIdentifierCompatibleWithVersionString` with the
internal lookups they call, `KXKextManagerCopyKextsWithIdentifier` and
`KXKextManagerCopyAllKexts`; and `KXKextManagerGetLoadedOrLatestKextWithIdentifier`.

Design.  Both internal lookups walk `priorVersion` links from the head of an
identifier, so they only ever see the version nodes of its chain, never a
duplicate.  On a represented chain `L` the walks are `find?` over
`versionNodes L` (`findPriorVersionKext_eq`, `scanCompatibleKexts_eq`), and the
builder's invariant `Ordered` (the chains descend in version, each level
holding one version) turns "first found" into "highest version".

Main results: `getKextWithIdentifierCompatibleWithVersionNumber_spec`, the
compatible lookup's answer among the version nodes;
`getKextWithIdentifierAndVersionString_spec`, the lookup by version string;
`getLoadedOrLatestKextWithIdentifier_spec`, the newest loaded version node, else
the head; and `copyAllKexts_eq`, which says that the copy of everything lists,
for each head, what the copy by identifier lists except the head's own
duplicates.
-/
import KextManager.Session

namespace KextManager

variable {ι κ : Type}

/-! ### Version nodes -/

/-- The version nodes of a chain given level by level: the first kext of each
level. -/
def versionNodes (L : List (List κ)) : List κ :=
  L.filterMap List.head?

@[simp] theorem versionNodes_nil : versionNodes ([] : List (List κ)) = [] := rfl

@[simp] theorem versionNodes_cons (n : κ) (ds : List κ) (L : List (List κ)) :
    versionNodes ((n :: ds) :: L) = n :: versionNodes L := rfl

theorem mem_flatten_of_mem_versionNodes {L : List (List κ)} {k : κ}
    (h : k ∈ versionNodes L) : k ∈ L.flatten := by
  obtain ⟨l, hl, hk⟩ := List.mem_filterMap.mp h
  exact List.mem_flatten.mpr ⟨l, hl, List.mem_of_mem_head? hk⟩

/-- Along a version chain the version nodes descend strictly. -/
theorem IsVersionChain.versionNodes_pairwise {v : κ → Int} :
    ∀ {L : List (List κ)}, IsVersionChain v L → (versionNodes L).Pairwise (fun a b => v b < v a)
  | [], _ => List.Pairwise.nil
  | [] :: _, h => absurd rfl (h.ne_nil [] (List.mem_cons_self _ _))
  | (_ :: _) :: _, h => List.Pairwise.cons
      (fun _ hm => h.lt_of_mem _ (mem_flatten_of_mem_versionNodes hm))
      h.tail.versionNodes_pairwise

/-- Every kext of a version chain shares its version with a version node. -/
theorem IsVersionChain.exists_versionNode {v : κ → Int} :
    ∀ {L : List (List κ)}, IsVersionChain v L → ∀ x ∈ L.flatten, ∃ n ∈ versionNodes L, v n = v x
  | [], _, _, hx => absurd hx (List.not_mem_nil _)
  | [] :: _, h, _, _ => absurd rfl (h.ne_nil [] (List.mem_cons_self _ _))
  | (n :: ds) :: L, h, x, hx => by
      rcases List.mem_append.mp (List.flatten_cons ▸ hx) with hx | hx
      · exact ⟨n, List.mem_cons_self _ _,
          h.level_version _ (List.mem_cons_self _ _) n (List.mem_cons_self _ _) x hx⟩
      · obtain ⟨m, hm, e⟩ := h.tail.exists_versionNode x hx
        exact ⟨m, List.mem_cons_of_mem _ hm, e⟩

/-- On a list descending in `v`, two kexts of one version are one kext. -/
theorem eq_of_pairwise_lt {v : κ → Int} :
    ∀ {l : List κ}, l.Pairwise (fun a b => v b < v a) → ∀ {a b : κ}, a ∈ l → b ∈ l →
      v a = v b → a = b
  | [], _, _, _, ha, _, _ => absurd ha (List.not_mem_nil _)
  | x :: l, hl, a, b, ha, hb, e => by
      obtain ⟨hlt, hl⟩ := List.pairwise_cons.mp hl
      rcases List.mem_cons.mp ha with rfl | ha' <;> rcases List.mem_cons.mp hb with rfl | hb'
      · rfl
      · exact absurd e (hlt b hb').ne'
      · exact absurd e (hlt a ha').ne
      · exact eq_of_pairwise_lt hl ha' hb' e

/-- On a list descending in `v`, the first kext `p` accepts has the highest
version among those `p` accepts. -/
theorem find?_highest {v : κ → Int} {p : κ → Bool} :
    ∀ {l : List κ}, l.Pairwise (fun a b => v b < v a) → ∀ {k : κ}, l.find? p = some k →
      ∀ k' ∈ l, p k' = true → v k' ≤ v k
  | [], _, _, _, _, hk', _ => absurd hk' (List.not_mem_nil _)
  | a :: l, hl, k, hk, k', hk', hp => by
      obtain ⟨hlt, hl⟩ := List.pairwise_cons.mp hl
      cases ha : p a
      · rw [List.find?_cons, ha] at hk
        rcases List.mem_cons.mp hk' with rfl | hk'
        · exact absurd hp (by simp [ha])
        · exact find?_highest hl hk k' hk' hp
      · rw [List.find?_cons, ha, Option.some.injEq] at hk
        subst hk
        rcases List.mem_cons.mp hk' with rfl | hk'
        · exact le_refl _
        · exact (hlt k' hk').le

section VersionNode

variable [DecidableEq ι]

/-- `VersionNode s I k`: `k` is reached from the head of `I` along
`priorVersion` links alone, as the version lookups walk. -/
inductive VersionNode (s : Manager ι κ) (I : ι) : κ → Prop
  | head {k : κ} : s.candidateKexts.lookup I = some k → VersionNode s I k
  | prior {k k' : κ} : VersionNode s I k → s.priorVersion k = some k' → VersionNode s I k'

theorem ChainRep.versionNode {s : Manager ι κ} {I : ι} :
    ∀ {h : Option κ} {L : List (List κ)}, ChainRep s.priorVersion s.duplicateVersion h L →
      (∀ n, h = some n → VersionNode s I n) → ∀ k ∈ versionNodes L, VersionNode s I k
  | _, [], _, _, k, hk => absurd hk (List.not_mem_nil _)
  | _, [] :: _, h, _, _, _ => h.elim
  | _, (n :: _) :: _, ⟨hh, _, _, hL⟩, hr, k, hk => by
      rcases List.mem_cons.mp hk with rfl | hk
      · exact hr k hh
      · exact hL.versionNode (fun n' hn' => (hr n hh).prior hn') k hk

theorem ChainRep.head_mem_versionNodes {prior dup : κ → Option κ} {n : κ} {L : List (List κ)}
    (h : ChainRep prior dup (some n) L) : n ∈ versionNodes L := by
  obtain ⟨ds, L', rfl⟩ := h.exists_of_some
  exact List.mem_cons_self _ _

/-- The prior version of a version node is a version node. -/
theorem ChainRep.prior_mem_versionNodes {prior dup : κ → Option κ} :
    ∀ {h : Option κ} {L : List (List κ)}, ChainRep prior dup h L →
      ∀ k ∈ versionNodes L, ∀ k', prior k = some k' → k' ∈ versionNodes L
  | _, [], _, k, hk, _, _ => absurd hk (List.not_mem_nil _)
  | _, [] :: _, h, _, _, _, _ => h.elim
  | _, (n :: _) :: _, ⟨_, _, _, hL⟩, k, hk, k', hp => by
      rcases List.mem_cons.mp hk with rfl | hk
      · rw [hp] at hL; exact List.mem_cons_of_mem _ hL.head_mem_versionNodes
      · exact List.mem_cons_of_mem _ (hL.prior_mem_versionNodes k hk k' hp)

/-- **Version nodes are the version nodes of the represented chain.** -/
theorem versionNode_iff_mem_versionNodes {s : Manager ι κ} {I : ι} {L : List (List κ)}
    (hc : ChainRep s.priorVersion s.duplicateVersion (s.candidateKexts.lookup I) L) (k : κ) :
    VersionNode s I k ↔ k ∈ versionNodes L := by
  refine ⟨fun h => ?_, hc.versionNode (fun n hn => .head hn) k⟩
  induction h with
  | head hk => rw [hk] at hc; exact hc.head_mem_versionNodes
  | prior _ hk ih => exact hc.prior_mem_versionNodes _ ih _ hk

theorem VersionNode.reaches {s : Manager ι κ} {I : ι} {k : κ} (h : VersionNode s I k) :
    Reaches s I k := by
  induction h with
  | head hk => exact .head hk
  | prior _ hk ih => exact ih.prior hk

end VersionNode

namespace Manager

variable [DecidableEq ι] [DecidableEq κ] [Fintype κ]

/-! ### The builder's invariant -/

/-- `Ordered s`: the builder's invariant as the version lookups rely on it: a
built structure whose chains descend in version, each level holding one
version. -/
structure Ordered (s : Manager ι κ) extends Built s : Prop where
  versionChains : ∀ I, ∃ L, ChainRep s.priorVersion s.duplicateVersion
    (s.candidateKexts.lookup I) L ∧ L.flatten.Nodup ∧ IsVersionChain s.versionOf L

/-- A build leaves an ordered structure. -/
theorem calculateVersionRelationships_ordered (s : Manager ι κ) :
    Ordered s.calculateVersionRelationships where
  toBuilt := calculateVersionRelationships_built s
  versionChains I := by
    obtain ⟨L, hr, hc, hnd⟩ := calculateVersionRelationships_chains s I
    exact ⟨L, hr, hnd, by rw [calculateVersionRelationships_versionOf]; exact hc.toIsVersionChain⟩

/-- The block the lookups open with keeps the invariant. -/
theorem ensureRelationships_ordered {s : Manager ι κ} (hs : Ordered s) :
    Ordered s.ensureRelationships := by
  unfold ensureRelationships
  by_cases hc : s.needsClearRelationships <;> by_cases hk : s.needsCalculateRelationships <;>
    simp [hc, hk, Internal.clearRelationships, calculateVersionRelationships_ordered, hs]

/-! ### The walks along `priorVersion` -/

omit [DecidableEq ι] [DecidableEq κ] [Fintype κ] in
/-- The walk of `__KXKextManagerGetKextWithIdentifierAndVersionNumber` finds
the first version node that `found` accepts. -/
theorem findPriorVersionKext_eq (s : Manager ι κ) (found : κ → Bool) :
    ∀ (fuel : Nat) {h : Option κ} {L : List (List κ)},
      ChainRep s.priorVersion s.duplicateVersion h L → L.length ≤ fuel →
      s.findPriorVersionKext found fuel h = (versionNodes L).find? found
  | fuel, h, [], hc, _ => by rw [show h = none from hc]; cases fuel <;> rfl
  | _, _, [] :: _, hc, _ => hc.elim
  | 0, _, (_ :: _) :: _, _, hf => absurd hf (by simp)
  | f + 1, _, (n :: _) :: L, ⟨hh, _, _, hL⟩, hf => by
      rw [hh, findPriorVersionKext, versionNodes_cons, List.find?_cons,
        findPriorVersionKext_eq s found f hL (by simpa using hf)]
      cases found n <;> rfl

omit [DecidableEq ι] [DecidableEq κ] [Fintype κ] in
/-- The scan of `__KXKextManagerGetKextWithIdentifierCompatibleWithVersionNumber`
finds the first accepted version node that is loaded, else the kext it had
noted, else the first accepted version node. -/
theorem scanCompatibleKexts_eq (s : Manager ι κ) (ok : κ → Bool) :
    ∀ (fuel : Nat) (foundKext : Option κ) {h : Option κ} {L : List (List κ)},
      ChainRep s.priorVersion s.duplicateVersion h L → L.length ≤ fuel →
      s.scanCompatibleKexts ok fuel foundKext h =
        ((versionNodes L).find? (fun k => ok k && (s.kexts k).isLoaded) <|>
          foundKext <|> (versionNodes L).find? ok)
  | fuel, f, h, [], hc, _ => by
      rw [show h = none from hc]; cases fuel <;> cases f <;> rfl
  | _, _, _, [] :: _, hc, _ => hc.elim
  | 0, _, _, (_ :: _) :: _, _, hf => absurd hf (by simp)
  | k + 1, f, _, (n :: _) :: L, ⟨hh, _, _, hL⟩, hf => by
      have ih := scanCompatibleKexts_eq s ok k
      have hk : L.length ≤ k := by simpa using hf
      rw [hh, scanCompatibleKexts, versionNodes_cons, List.find?_cons, List.find?_cons]
      cases hn : ok n <;> cases hl : (s.kexts n).isLoaded <;> cases f <;>
        simp [ih _ hL hk]

/-! ### The compatible lookup -/

/-- What the compatible lookup answers for `I`: a version node of `I` that
`ok` accepts, loaded if any accepted version node is loaded, and of the
highest version among the accepted version nodes loaded as it is. -/
structure IsCompatibleChoice (s : Manager ι κ) (I : ι) (ok : κ → Bool) (k : κ) : Prop where
  versionNode : VersionNode s I k
  accepted : ok k = true
  loaded : ∀ k', VersionNode s I k' → ok k' = true → (s.kexts k').isLoaded = true →
    (s.kexts k).isLoaded = true
  highest : ∀ k', VersionNode s I k' → ok k' = true →
    (s.kexts k').isLoaded = (s.kexts k).isLoaded → s.versionOf k' ≤ s.versionOf k

omit [DecidableEq κ] [Fintype κ] in
/-- On an ordered chain, the scan's answer is the compatible choice. -/
theorem isCompatibleChoice_of_find? {s : Manager ι κ} {I : ι} {L : List (List κ)}
    (hc : ChainRep s.priorVersion s.duplicateVersion (s.candidateKexts.lookup I) L)
    (hv : IsVersionChain s.versionOf L) (ok : κ → Bool) {k : κ}
    (hk : ((versionNodes L).find? (fun k => ok k && (s.kexts k).isLoaded) <|>
      (versionNodes L).find? ok) = some k) : IsCompatibleChoice s I ok k := by
  have hmem := versionNode_iff_mem_versionNodes hc
  have hpw := hv.versionNodes_pairwise
  cases h₁ : (versionNodes L).find? (fun k => ok k && (s.kexts k).isLoaded) with
  | some k₁ =>
      -- a loaded accepted version node exists: the first one is the answer
      rw [h₁] at hk
      obtain rfl : k₁ = k := Option.some.inj hk
      have hp := List.find?_some h₁
      simp only [Bool.and_eq_true] at hp
      exact ⟨(hmem _).mpr (List.mem_of_find?_eq_some h₁), hp.1, fun _ _ _ _ => hp.2,
        fun k' hk' hok hl => find?_highest hpw h₁ k' ((hmem k').mp hk') (by simp [hok, hl, hp.2])⟩
  | none =>
      -- none is loaded: the first accepted version node is the answer
      rw [h₁] at hk
      replace hk : (versionNodes L).find? ok = some k := hk
      have hnone := List.find?_eq_none.mp h₁
      refine ⟨(hmem _).mpr (List.mem_of_find?_eq_some hk), List.find?_some hk,
        fun k' hk' hok hl => absurd (by simp [hok, hl]) (hnone k' ((hmem k').mp hk')),
        fun k' hk' hok _ => find?_highest hpw hk k' ((hmem k').mp hk') hok⟩

/-- **The compatible lookup.**  On a structure keeping the builder's
invariant, `__KXKextManagerGetKextWithIdentifierCompatibleWithVersionNumber`
answers, in the structure its opening block leaves: with no version, the head
of `I`; with a version `v`, none iff no version node of `I` is compatible with
`v`, and otherwise the compatible choice among the version nodes.  Duplicates
are never considered. -/
theorem getKextWithIdentifierCompatibleWithVersionNumber_spec
    (isCompatibleWithVersionNumber : κ → Int → Bool) {s : Manager ι κ} (hs : s.Ordered)
    (I : ι) :
    (s.getKextWithIdentifierCompatibleWithVersionNumber isCompatibleWithVersionNumber I
        none).2 = s.ensureRelationships.candidateKexts.lookup I ∧
      ∀ v, ((s.getKextWithIdentifierCompatibleWithVersionNumber isCompatibleWithVersionNumber I
          (some v)).2 = none ↔
            ∀ k, VersionNode s.ensureRelationships I k → isCompatibleWithVersionNumber k v = false) ∧
        ∀ k, (s.getKextWithIdentifierCompatibleWithVersionNumber isCompatibleWithVersionNumber I
          (some v)).2 = some k →
            IsCompatibleChoice s.ensureRelationships I (fun k => isCompatibleWithVersionNumber k v) k := by
  obtain ⟨L, hc, hnd, hv⟩ := (ensureRelationships_ordered hs).versionChains I
  refine ⟨rfl, fun v => ?_⟩
  have hscan : (s.getKextWithIdentifierCompatibleWithVersionNumber isCompatibleWithVersionNumber
      I (some v)).2 = ((versionNodes L).find? (fun k => isCompatibleWithVersionNumber k v &&
        (s.ensureRelationships.kexts k).isLoaded) <|>
          (versionNodes L).find? fun k => isCompatibleWithVersionNumber k v) :=
    scanCompatibleKexts_eq _ _ _ none hc (hc.length_le.trans hnd.length_le_card)
  have hmem := versionNode_iff_mem_versionNodes hc
  refine ⟨?_, fun k hk => isCompatibleChoice_of_find? hc hv _ (hscan ▸ hk)⟩
  rw [hscan]
  constructor
  · intro h k hk
    cases h₂ : (versionNodes L).find? fun k => isCompatibleWithVersionNumber k v
    · simpa using List.find?_eq_none.mp h₂ k ((hmem k).mp hk)
    · cases h₁ : (versionNodes L).find? fun k => isCompatibleWithVersionNumber k v &&
        (s.ensureRelationships.kexts k).isLoaded <;> simp [h₁, h₂] at h
  · intro h
    have hn : ∀ x ∈ versionNodes L, isCompatibleWithVersionNumber x v = false :=
      fun x hx => h x ((hmem x).mpr hx)
    rw [List.find?_eq_none.mpr (fun x hx => by simp [hn x hx]),
      List.find?_eq_none.mpr (fun x hx => by simp [hn x hx])]
    rfl

end Manager

/-- `_KXKextIsCompatibleWithVersionNumber` for the two kexts of
`sameVersionPair`, both of version `1`: compatible with `v` when `v` lies
between the kext's compatible version (`1` for kext `0`, `0` for kext `1`) and
its version. -/
def pairIsCompatibleWithVersionNumber (k : Fin 2) (v : Int) : Bool :=
  decide ((if k = 0 then 1 else 0) ≤ v ∧ v ≤ sameVersionPair.versionOf k)

theorem getKextWithIdentifierCompatibleWithVersionNumber_spec_pair :
    sameVersionPair.calculateVersionRelationships.Ordered ∧
      ((sameVersionPair.calculateVersionRelationships.getKextWithIdentifierCompatibleWithVersionNumber
          pairIsCompatibleWithVersionNumber 0 none).2 =
        sameVersionPair.calculateVersionRelationships.ensureRelationships.candidateKexts.lookup 0 ∧
      ∀ v, ((sameVersionPair.calculateVersionRelationships.getKextWithIdentifierCompatibleWithVersionNumber
          pairIsCompatibleWithVersionNumber 0 (some v)).2 = none ↔
            ∀ k, VersionNode sameVersionPair.calculateVersionRelationships.ensureRelationships 0 k →
              pairIsCompatibleWithVersionNumber k v = false) ∧
        ∀ k, (sameVersionPair.calculateVersionRelationships.getKextWithIdentifierCompatibleWithVersionNumber
          pairIsCompatibleWithVersionNumber 0 (some v)).2 = some k →
            Manager.IsCompatibleChoice sameVersionPair.calculateVersionRelationships.ensureRelationships 0
              (fun k => pairIsCompatibleWithVersionNumber k v) k) :=
  ⟨Manager.calculateVersionRelationships_ordered _,
    Manager.getKextWithIdentifierCompatibleWithVersionNumber_spec pairIsCompatibleWithVersionNumber
      (Manager.calculateVersionRelationships_ordered _) 0⟩

/-- In the built `sameVersionPair` kext `1`, the duplicate of the head, is the
only kext of identifier `0` compatible with version `0`, and the compatible
lookup answers none. -/
theorem getKextWithIdentifierCompatibleWithVersionNumber_misses_duplicate :
    (sameVersionPair.calculateVersionRelationships.getKextWithIdentifierCompatibleWithVersionNumber
        pairIsCompatibleWithVersionNumber 0 (some 0)).2 = none ∧
      Reaches sameVersionPair.calculateVersionRelationships 0 1 ∧
      pairIsCompatibleWithVersionNumber 1 0 = true :=
  ⟨by decide, .duplicate (k := 0) (.head (by decide)) (by decide), by decide⟩

/-! ### The loaded or latest kext -/

namespace Manager

variable [DecidableEq ι] [DecidableEq κ] [Fintype κ]

/-- **The loaded or latest kext.**  On a structure keeping the builder's
invariant, `KXKextManagerGetLoadedOrLatestKextWithIdentifier` answers none
exactly when the identifier has no head; otherwise, in the structure the check
of the kernel's table leaves, it answers a version node of the identifier that
is loaded if any version node is, with the highest version among the version
nodes loaded as it is: the newest loaded version, else the newest version,
whether the check succeeded or not. -/
theorem getLoadedOrLatestKextWithIdentifier_spec (kmodInfo : Option (List (KmodInfo ι)))
    {s : Manager ι κ} (hs : s.Ordered) (I : ι) :
    ((s.getLoadedOrLatestKextWithIdentifier kmodInfo I).2 = none ↔
        s.ensureRelationships.candidateKexts.lookup I = none) ∧
      ∀ k, (s.getLoadedOrLatestKextWithIdentifier kmodInfo I).2 = some k →
        IsCompatibleChoice (s.getLoadedOrLatestKextWithIdentifier kmodInfo I).1 I (fun _ => true) k := by
  have ho := ensureRelationships_ordered hs
  obtain ⟨L, hc, hnd, hv⟩ := ho.versionChains I
  obtain ⟨t, ht⟩ : ∃ t, (s.ensureRelationships.checkForLoadedKexts kmodInfo).1 = t := ⟨_, rfl⟩
  -- the check records what is loaded and keeps the chains and the versions
  have hw : t.withoutLoaded = s.ensureRelationships.withoutLoaded :=
    ht ▸ checkForLoadedKexts_withoutLoaded_of_fresh kmodInfo ho.toBuilt (ensureRelationships_fresh s)
  have hhead : t.candidateKexts.lookup I = s.ensureRelationships.candidateKexts.lookup I := by
    have := congrArg (fun s => s.candidateKexts.lookup I) hw; exact this
  have hcT : ChainRep t.priorVersion t.duplicateVersion (t.candidateKexts.lookup I) L := by
    have hp := congrArg priorVersion hw
    have hd := congrArg duplicateVersion hw
    dsimp only [withoutLoaded] at hp hd
    rw [hhead, hp, hd]; exact hc
  have hvT : IsVersionChain t.versionOf L := (versionOf_eq_of_withoutLoaded hw).symm ▸ hv
  have hres : s.getLoadedOrLatestKextWithIdentifier kmodInfo I = (t,
      ((versionNodes L).find? fun k => (t.kexts k).isLoaded).orElse fun _ => t.candidateKexts.lookup I) := by
    simp only [getLoadedOrLatestKextWithIdentifier, ht]
    rw [findPriorVersionKext_eq t _ _ hcT (hc.length_le.trans hnd.length_le_card)]
  rw [hres, ← hhead]
  -- the head is the first version node
  cases hh : t.candidateKexts.lookup I with
  | none =>
      obtain rfl := (show ChainRep _ _ none L from hh ▸ hcT).eq_nil_of_none
      simp
  | some n =>
      obtain ⟨ds, L', rfl⟩ := (hh ▸ hcT).exists_of_some
      refine ⟨by simp, fun k hk => isCompatibleChoice_of_find? hcT hvT _ ?_⟩
      simpa using hk

/-- The built `sameVersionPair` with a kernel table listing identifier `0` at
the version of both kexts. -/
theorem getLoadedOrLatestKextWithIdentifier_spec_pair :
    ∃ (s : Manager Nat (Fin 2)) (kmodInfo : Option (List (KmodInfo Nat))),
      s = sameVersionPair.calculateVersionRelationships ∧ kmodInfo = some [⟨some 0, 1, 4096, false⟩] ∧
      s.Ordered ∧
      ((s.getLoadedOrLatestKextWithIdentifier kmodInfo 0).2 = none ↔
          s.ensureRelationships.candidateKexts.lookup 0 = none) ∧
        ∀ k, (s.getLoadedOrLatestKextWithIdentifier kmodInfo 0).2 = some k →
          IsCompatibleChoice (s.getLoadedOrLatestKextWithIdentifier kmodInfo 0).1 0 (fun _ => true) k :=
  have hs := calculateVersionRelationships_ordered sameVersionPair
  ⟨_, _, rfl, rfl, hs, getLoadedOrLatestKextWithIdentifier_spec _ hs 0⟩

end Manager

namespace Manager

variable [DecidableEq ι] [DecidableEq κ] [Fintype κ]

/-! ### The lookup by version -/

/-- **The lookup by version number.**  On a structure keeping the builder's
invariant, the lookup of `I` at version `v` answers the version node of `I`
with version `v`, and it answers one iff some kext reached from the head of
`I`, duplicates included, has version `v`: duplicates share the version of
their node. -/
theorem getKextWithIdentifierAndVersionNumber_spec {s : Manager ι κ} (hs : s.Ordered) (I : ι)
    (v : Int) :
    (∀ k, (s.getKextWithIdentifierAndVersionNumber I (some v)).2 = some k ↔
        VersionNode s.ensureRelationships I k ∧ s.versionOf k = v) ∧
      ((s.getKextWithIdentifierAndVersionNumber I (some v)).2.isSome ↔
        ∃ m, Reaches s.ensureRelationships I m ∧ s.versionOf m = v) := by
  obtain ⟨L, hc, hnd, hv⟩ := (ensureRelationships_ordered hs).versionChains I
  rw [ensureRelationships_versionOf] at hv
  have hfind : (s.getKextWithIdentifierAndVersionNumber I (some v)).2 =
      (versionNodes L).find? (fun k => s.ensureRelationships.versionOf k = v) :=
    findPriorVersionKext_eq _ _ _ hc (hc.length_le.trans hnd.length_le_card)
  simp only [ensureRelationships_versionOf] at hfind
  have hmem := versionNode_iff_mem_versionNodes hc
  refine ⟨fun k => ⟨fun hk => ?_, fun ⟨hk, hkv⟩ => ?_⟩, ⟨fun h => ?_, fun ⟨m, hm, hmv⟩ => ?_⟩⟩
  · rw [hfind] at hk
    exact ⟨(hmem k).mpr (List.mem_of_find?_eq_some hk), by simpa using List.find?_some hk⟩
  · obtain ⟨k', hk'⟩ := Option.isSome_iff_exists.mp
      (List.find?_isSome.mpr ⟨k, (hmem k).mp hk, by simpa using hkv⟩ :
        ((versionNodes L).find? fun k => decide (s.versionOf k = v)).isSome)
    have hv' : s.versionOf k' = v := by simpa using List.find?_some hk'
    rw [hfind, hk', eq_of_pairwise_lt hv.versionNodes_pairwise
      (List.mem_of_find?_eq_some hk') ((hmem k).mp hk) (hv'.trans hkv.symm)]
  · obtain ⟨k, hk⟩ := Option.isSome_iff_exists.mp h
    rw [hfind] at hk
    exact ⟨k, ((hmem k).mpr (List.mem_of_find?_eq_some hk)).reaches,
      by simpa using List.find?_some hk⟩
  · obtain ⟨n, hn, e⟩ := hv.exists_versionNode m ((reaches_iff_mem_of_chainRep hc m).mp hm)
    rw [hfind]
    exact List.find?_isSome.mpr ⟨n, hn, by simpa [e] using hmv⟩

end Manager

/-- `__versionNumberForString`: the string copied with `CFStringGetCString`
into a buffer of 31 bytes, which fails when its UTF-8 form and the terminating
NUL do not fit, then parsed with `VERS_parse_string` (external,
`versParseString`), negative on a malformed version. -/
def versionNumberForString (versParseString : String → Int) (aVersionString : String) :
    Option Int :=
  if cStringFits 31 aVersionString then
    if versParseString aVersionString < 0 then none else some (versParseString aVersionString)
  else none

namespace Manager

variable [DecidableEq ι] [DecidableEq κ] [Fintype κ]

/-- `KXKextManagerGetKextWithIdentifierAndVersionString`.  A string that does
not parse gives none at once; otherwise the internal lookup is handed the
address of `version`, which a NULL string leaves unset: `uninitialized` is
whatever the stack holds there. -/
def getKextWithIdentifierAndVersionString (versParseString : String → Int)
    (uninitialized : Int) (s : Manager ι κ) (identifier : ι) (versionString : Option String) :
    Manager ι κ × Option κ :=
  match versionString with
  | none => s.getKextWithIdentifierAndVersionNumber identifier (some uninitialized)
  | some str =>
      match versionNumberForString versParseString str with
      | none => (s, none)
      | some version => s.getKextWithIdentifierAndVersionNumber identifier (some version)

/-- `KXKextManagerGetKextWithIdentifierCompatibleWithVersionString`: a string
that does not parse gives none at once; a NULL string asks for no version. -/
def getKextWithIdentifierCompatibleWithVersionString (versParseString : String → Int)
    (isCompatibleWithVersionNumber : κ → Int → Bool) (s : Manager ι κ) (identifier : ι)
    (versionString : Option String) : Manager ι κ × Option κ :=
  match versionString with
  | none => s.getKextWithIdentifierCompatibleWithVersionNumber isCompatibleWithVersionNumber
      identifier none
  | some str =>
      match versionNumberForString versParseString str with
      | none => (s, none)
      | some version => s.getKextWithIdentifierCompatibleWithVersionNumber
          isCompatibleWithVersionNumber identifier (some version)

/-- **The lookup by version string**, for every string: a NULL string looks
for the version node whose version is the unset `uninitialized`, a string
that does not parse gives none without touching the structure, and a parsed
version `v` gives the version node of version `v`, present iff some kext
reached from the head of `I` has version `v`. -/
theorem getKextWithIdentifierAndVersionString_spec (versParseString : String → Int)
    (uninitialized : Int) {s : Manager ι κ} (hs : s.Ordered) (I : ι) :
    (∀ k, (s.getKextWithIdentifierAndVersionString versParseString uninitialized I none).2 =
        some k ↔ VersionNode s.ensureRelationships I k ∧ s.versionOf k = uninitialized) ∧
      (∀ str, versionNumberForString versParseString str = none →
        s.getKextWithIdentifierAndVersionString versParseString uninitialized I (some str) =
          (s, none)) ∧
      ∀ str v, versionNumberForString versParseString str = some v →
        (∀ k, (s.getKextWithIdentifierAndVersionString versParseString uninitialized I
            (some str)).2 = some k ↔ VersionNode s.ensureRelationships I k ∧ s.versionOf k = v) ∧
          ((s.getKextWithIdentifierAndVersionString versParseString uninitialized I
            (some str)).2.isSome ↔ ∃ m, Reaches s.ensureRelationships I m ∧ s.versionOf m = v) := by
  refine ⟨(getKextWithIdentifierAndVersionNumber_spec hs I uninitialized).1,
    fun str h => by simp [getKextWithIdentifierAndVersionString, h], fun str v h => ?_⟩
  simp only [getKextWithIdentifierAndVersionString, h]
  exact getKextWithIdentifierAndVersionNumber_spec hs I v

/-- The built `sameVersionPair`, with an unset version `0` and a parser that
reads every string as version `1`. -/
theorem getKextWithIdentifierAndVersionString_spec_pair :
    ∃ s : Manager Nat (Fin 2), s = sameVersionPair.calculateVersionRelationships ∧ s.Ordered ∧
      (∀ k, (s.getKextWithIdentifierAndVersionString (fun _ => 1) 0 0 none).2 = some k ↔
          VersionNode s.ensureRelationships 0 k ∧ s.versionOf k = 0) ∧
        (∀ str, versionNumberForString (fun _ => 1) str = none →
          s.getKextWithIdentifierAndVersionString (fun _ => 1) 0 0 (some str) = (s, none)) ∧
        ∀ str v, versionNumberForString (fun _ => 1) str = some v →
          (∀ k, (s.getKextWithIdentifierAndVersionString (fun _ => 1) 0 0 (some str)).2 = some k ↔
              VersionNode s.ensureRelationships 0 k ∧ s.versionOf k = v) ∧
            ((s.getKextWithIdentifierAndVersionString (fun _ => 1) 0 0 (some str)).2.isSome ↔
              ∃ m, Reaches s.ensureRelationships 0 m ∧ s.versionOf m = v) :=
  have hs := calculateVersionRelationships_ordered sameVersionPair
  ⟨_, rfl, hs, getKextWithIdentifierAndVersionString_spec _ 0 hs 0⟩

end Manager

/-! ### The copies of the structure -/

namespace Manager

variable [DecidableEq ι] [DecidableEq κ] [Fintype κ]

/-- `KXKextManagerCopyAllKexts`: none when the array cannot be created.  For
each head of `candidateKexts` the head, then every prior version followed by
its duplicates; then the bad kexts of each repository.  When the snapshot of a
nonempty dictionary cannot be allocated (`mallocOk` false) the empty array is
returned.  No rebuild is made first. -/
def copyAllKexts (arrayCreated mallocOk : Bool) (s : Manager ι κ) : Option (List κ) :=
  if arrayCreated then
    let kexts := s.candidateKexts.entries.map Sigma.snd
    if !kexts.isEmpty && !mallocOk then some []
    else some (kexts.flatMap (fun thisKext =>
        thisKext :: s.versionChainKexts (Fintype.card κ) (s.priorVersion thisKext)) ++
      s.repositoryList.list.flatMap Repository.badKexts)
  else none

/-- Over a represented chain from a head, the copy by identifier lists the
head, its duplicates and the rest of the chain; the copy of everything lists
the head and the rest of the chain. -/
theorem copy_segments {s : Manager ι κ} (hf : s.Fresh) {I : ι} {n : κ} {ds : List κ}
    {L : List (List κ)} (hI : s.candidateKexts.lookup I = some n)
    (hc : ChainRep s.priorVersion s.duplicateVersion (some n) ((n :: ds) :: L))
    (hnd : ((n :: ds) :: L).flatten.Nodup) :
    (s.copyKextsWithIdentifier true I).2 = some (n :: ds ++ L.flatten) ∧
      n :: s.versionChainKexts (Fintype.card κ) (s.priorVersion n) = n :: L.flatten ∧
      s.duplicateChainKexts (Fintype.card κ) (s.duplicateVersion n) = ds := by
  have hnd' : (n :: ds ++ L.flatten).Nodup := by simpa using hnd
  have hL := (List.nodup_append.mp hnd').2.1
  refine ⟨?_, ?_, duplicateChainKexts_eq s hc.2.1
    ((Nat.le_succ _).trans (List.nodup_append.mp hnd').1.length_le_card)⟩
  · simp only [copyKextsWithIdentifier, getKextWithIdentifier, getKextWithIdentifierAndVersionNumber,
      ensureRelationships_of_fresh hf, if_true, hI]
    rw [versionChainKexts_eq _ s hc hnd (hc.length_le.trans hnd.length_le_card)]
    simp
  · rw [versionChainKexts_eq _ s hc.2.2.2 hL (hc.2.2.2.length_le.trans hL.length_le_card)]

/-- **The copy of everything against the copies by identifier.**  On a built,
fresh structure `KXKextManagerCopyAllKexts` lists, head by head, what
`KXKextManagerCopyKextsWithIdentifier` lists for the head's identifier less
the head's own duplicates, then the repositories' bad kexts in order. -/
theorem copyAllKexts_eq {s : Manager ι κ} (hb : Built s) (hf : s.Fresh) :
    s.copyAllKexts true true = some ((s.candidateKexts.entries.flatMap fun e =>
        ((s.copyKextsWithIdentifier true e.1).2.getD []).filter fun k =>
          k ∉ s.duplicateChainKexts (Fintype.card κ) (s.duplicateVersion e.2)) ++
      s.repositoryList.list.flatMap Repository.badKexts) := by
  simp only [copyAllKexts, if_true, Bool.not_true, Bool.and_false, Bool.false_eq_true, if_false,
    List.flatMap_map]
  congr 2
  refine List.flatMap_congr fun e he => ?_
  have hI : s.candidateKexts.lookup e.1 = some e.2 := AList.mem_lookup_iff.mpr he
  obtain ⟨L, hc, hnd⟩ := hb.chains e.1
  rw [hI] at hc
  obtain ⟨ds, L', rfl⟩ := hc.exists_of_some
  obtain ⟨h₁, h₂, h₃⟩ := copy_segments hf hI hc hnd
  rw [h₁, h₂, h₃, Option.getD_some]
  have hnd' : (e.2 :: ds ++ L'.flatten).Nodup := by simpa using hnd
  have hn : e.2 ∉ ds := (List.nodup_cons.mp (List.nodup_append.mp hnd').1).1
  rw [List.cons_append, List.filter_cons_of_pos (by simpa using hn), List.filter_append,
    List.filter_eq_nil_iff.mpr (fun x hx => by simpa using hx), List.nil_append,
    List.filter_eq_self.mpr (fun x hx => by
      simpa using fun hd => List.disjoint_of_nodup_append hnd' (List.mem_cons_of_mem _ hd) hx)]

/-- The built `sameVersionPair`. -/
theorem copyAllKexts_eq_pair :
    ∃ s : Manager Nat (Fin 2), s = sameVersionPair.calculateVersionRelationships ∧ Built s ∧ s.Fresh ∧
      s.copyAllKexts true true = some ((s.candidateKexts.entries.flatMap fun e =>
          ((s.copyKextsWithIdentifier true e.1).2.getD []).filter fun k =>
            k ∉ s.duplicateChainKexts (Fintype.card (Fin 2)) (s.duplicateVersion e.2)) ++
        s.repositoryList.list.flatMap Repository.badKexts) :=
  have hb := calculateVersionRelationships_built sameVersionPair
  have hf : sameVersionPair.calculateVersionRelationships.Fresh := ⟨rfl, rfl⟩
  ⟨_, rfl, hb, hf, copyAllKexts_eq hb hf⟩

end Manager

/-- With `sameVersionPair` built, kext `1` is the duplicate of the head,
kext `0`: the copy by identifier lists both, the copy of everything only the
head. -/
theorem copyAllKexts_omits_head_duplicates :
    (sameVersionPair.calculateVersionRelationships.copyKextsWithIdentifier true 0).2 =
        some [0, 1] ∧
      sameVersionPair.calculateVersionRelationships.copyAllKexts true true = some [0] :=
  ⟨by decide, by decide⟩

/-- With a NULL version string the lookup is handed an unset version.  When
the stack holds `0` there, no version node of identifier `0` of the built
`sameVersionPair` (version `1`) matches and the answer is none, where
`KXKextManagerGetKextWithIdentifier` answers the head, kext `0`. -/
theorem getKextWithIdentifierAndVersionString_null_string (versParseString : String → Int) :
    (sameVersionPair.calculateVersionRelationships.getKextWithIdentifierAndVersionString
        versParseString 0 0 none).2 = none ∧
      (sameVersionPair.calculateVersionRelationships.getKextWithIdentifier 0).2 = some 0 :=
  ⟨show (sameVersionPair.calculateVersionRelationships.getKextWithIdentifierAndVersionNumber 0
    (some 0)).2 = none by decide, by decide⟩

end KextManager
