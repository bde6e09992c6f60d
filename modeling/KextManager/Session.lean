/-
KextManager/Session.lean

A session with the manager: the calls a client makes that build, read, splice,
tear down or gate the chain structure, or change what the builder admits.
Besides the calls of `RelationshipOp` these are the lookups,
`KXKextManagerCopyKextsWithIdentifier`, `KXKextManagerCopyAllKextPersonalities`,
`_KXKextManagerPrepareKextForLoading`, `KXKextManagerLoadKextUsingOptions` and
`KXKextManagerSetSafeBootMode`.

The invariant `SessionInv m R` extends `Coherent` to the calls that empty
`kextsWithMissingDependencies` without relinking the chains (the preparation
does).  The links spell out the builder's chains of some placement with the
kexts `R` spliced out.  When the structure is not stale, the placement is what
the builder makes of the kexts' current flags under the safe-boot mode `m` of
the latest build.  Both `m` and `R` are ghosts of the run: a call that tears the
structure down resets them, and a resolution adds to `R` what it lists.  Every
call keeps the invariant (`SessionCall.sessionInv_apply`), so every state of a
run from a new manager has it (`SessionCall.sessionInv_run`).

Main results: what `kextsWithMissingDependencies` can hold
(`SessionCall.run_missing`); and that `KXKextManagerSetSafeBootMode` leaves a
fresh structure built under the other mode, so that a read finds a kext the
builder no longer admits (`getKextWithIdentifier_after_setSafeBootMode`).
What the structure is whenever it is not stale, with repository adds and
removals in the run, is `ManagerCall.run_reaches` (`Runs.lean`).
-/
import KextManager.Load
import KextManager.Coherence

namespace KextManager

variable {ι κ : Type}

namespace Manager

/-- `KXKextManagerSetSafeBootMode`: the flag is set; nothing is marked
stale. -/
def setSafeBootMode (s : Manager ι κ) (flag : Bool) : Manager ι κ :=
  { s with safeBoot := flag }

variable [DecidableEq ι] [DecidableEq κ] [Fintype κ]

/-- `KXKextManagerCopyAllKextPersonalities`: after the rebuild block, the
personalities of the kext of every dictionary entry, where
`copyPersonalitiesArray` is the external `KXKextCopyPersonalitiesArray`
(`none` for NULL).  The result is `none` when the array cannot be created, and
empty when the snapshot of the dictionary cannot be allocated. -/
def copyAllKextPersonalities {α : Type} (copyPersonalitiesArray : κ → Option (List α))
    (arrayCreated valuesAllocated : Bool) (s : Manager ι κ) : Manager ι κ × Option (List α) :=
  let s := s.ensureRelationships
  if !arrayCreated then (s, none)
  else if !valuesAllocated then (s, some [])
  else (s, some (s.candidateKexts.entries.flatMap fun e => (copyPersonalitiesArray e.2).getD []))

end Manager

/-! ### The calls and their runs -/

/-- The calls of a session. -/
inductive SessionCall (ι κ : Type) where
  | relationship (op : RelationshipOp κ)
  | getKextWithIdentifierAndVersionNumber (identifier : ι) (versionNumber : Option Int)
  | getKextWithIdentifierCompatibleWithVersionNumber
      (isCompatibleWithVersionNumber : κ → Int → Bool) (identifier : ι) (versionNumber : Option Int)
  | getLoadedOrLatestKextWithIdentifier (kmodInfo : Option (List (KmodInfo ι))) (identifier : ι)
  | copyKextsWithIdentifier (arrayCreated : Bool) (identifier : ι)
  | copyAllKextPersonalities (arrayCreated valuesAllocated : Bool)
  | prepareKextForLoading (env : PrepareEnvironment ι κ) (aKext : κ) (kextName : Option String)
      (checkLoadedForDependencies doLoad : Bool) (inauthenticKexts : Option (List κ))
  | loadKextUsingOptions (prepareEnv : PrepareEnvironment ι κ) (env : LoadEnvironment) (aKext : κ)
      (kextName symbolDir : Option String) (checkLoadedForDependencies doLoad getAddrsFromKernel : Bool)
      (numAddresses : Nat)
  | setSafeBootMode (flag : Bool)

namespace SessionCall

variable [DecidableEq ι] [DecidableEq κ] [Fintype κ]

/-- The effect of one call on the manager. -/
def apply : SessionCall ι κ → Manager ι κ → Manager ι κ
  | relationship op, s => op.apply s
  | getKextWithIdentifierAndVersionNumber identifier versionNumber, s =>
      (s.getKextWithIdentifierAndVersionNumber identifier versionNumber).1
  | getKextWithIdentifierCompatibleWithVersionNumber isCompatible identifier versionNumber, s =>
      (Manager.getKextWithIdentifierCompatibleWithVersionNumber isCompatible s identifier
        versionNumber).1
  | getLoadedOrLatestKextWithIdentifier kmodInfo identifier, s =>
      (Manager.getLoadedOrLatestKextWithIdentifier kmodInfo s identifier).1
  | copyKextsWithIdentifier arrayCreated identifier, s =>
      (Manager.copyKextsWithIdentifier arrayCreated s identifier).1
  | copyAllKextPersonalities arrayCreated valuesAllocated, s =>
      (s.copyAllKextPersonalities (α := Unit) (fun _ => none) arrayCreated valuesAllocated).1
  | prepareKextForLoading env aKext kextName checkLoadedForDependencies doLoad inauthenticKexts, s =>
      (Manager.prepareKextForLoading env s aKext kextName checkLoadedForDependencies doLoad
        inauthenticKexts).manager
  | loadKextUsingOptions prepareEnv env aKext kextName symbolDir checkLoadedForDependencies doLoad
      getAddrsFromKernel numAddresses, s =>
      (Manager.loadKextUsingOptions prepareEnv env s aKext kextName symbolDir
        checkLoadedForDependencies doLoad getAddrsFromKernel numAddresses).1
  | setSafeBootMode flag, s => s.setSafeBootMode flag

/-- The state after a run of calls. -/
def run : List (SessionCall ι κ) → Manager ι κ → Manager ι κ
  | [], s => s
  | c :: cs, s => run cs (c.apply s)

/-- Ghost: the safe-boot mode of the latest build after the call, given `m`
before it.  A call that tears the structure down rebuilds it, if at all, under
the mode it runs in. -/
def mode (c : SessionCall ι κ) (s : Manager ι κ) (m : Bool) : Bool :=
  if (c.apply s).teardownCount = s.teardownCount then m else s.safeBoot

/-- Ghost: the kexts spliced out of the chains since the latest build, after
the call, given `R` before it: a resolution splices out what it lists. -/
def spliced (c : SessionCall ι κ) (s : Manager ι κ) (R : List κ) : List κ :=
  if (c.apply s).teardownCount = s.teardownCount then
    match c with
    | relationship (.resolveAllKextDependencies _ _) =>
        R ++ (c.apply s).kextsWithMissingDependencies.drop s.kextsWithMissingDependencies.length
    | _ => R
  else []

/-- The ghost mode after a run. -/
def modeAfter : List (SessionCall ι κ) → Manager ι κ → Bool → Bool
  | [], _, m => m
  | c :: cs, s, m => modeAfter cs (c.apply s) (c.mode s m)

/-- The ghost spliced kexts after a run. -/
def splicedAfter : List (SessionCall ι κ) → Manager ι κ → List κ → List κ
  | [], _, R => R
  | c :: cs, s, R => splicedAfter cs (c.apply s) (c.spliced s R)

end SessionCall

/-! ### The invariant -/

variable [DecidableEq ι] [DecidableEq κ]

/-- The invariant of a session, given the safe-boot mode `m` of the latest
build and the kexts `R` spliced out since.  The links spell out the builder's
chains of some placement with `R` spliced out, and placed kexts belong to the
repositories.  Unless the structure is stale, the placement is what the builder
makes of the kexts' current flags under `m`.  The missing-dependency list, its
first entry apart, holds spliced kexts, each once. -/
structure SessionInv (m : Bool) (R : List κ) (s : Manager ι κ) : Prop where
  placement : ∃ P, SplicedFrom P R s ∧ (∀ I, ∀ k ∈ P I, k ∈ s.allKexts) ∧
    (s.needsCalculateRelationships = false →
      ∀ I, P I = { s with safeBoot := m }.candidatesOf I s.candidateList)
  missing_nodup : (s.kextsWithMissingDependencies.drop 1).Nodup
  missing_spliced : ∀ k ∈ s.kextsWithMissingDependencies.drop 1, k ∈ R

namespace Manager

omit [DecidableEq ι] [DecidableEq κ] in
/-- What the builder admits reads only the kexts' records, up to what the
manager computes of them, and the safe-boot mode. -/
theorem isCandidate_congr {s t : Manager ι κ} {k : κ}
    (hk : (t.kexts k).withoutComputed = (s.kexts k).withoutComputed) (hb : t.safeBoot = s.safeBoot) :
    t.isCandidate k = s.isCandidate k := by
  have hv := congrArg Kext.isValid hk
  have hl := congrArg Kext.loadFailed hk
  have he := congrArg Kext.isEligibleDuringSafeBoot hk
  have hn := congrArg Kext.isEnabled hk
  simp only [Kext.withoutComputed] at hv hl he hn
  simp only [isCandidate, hv, hl, he, hn, hb]

omit [DecidableEq κ] in
theorem candidatesOf_congr {s t : Manager ι κ} (m : Bool)
    (hk : ∀ k, (t.kexts k).withoutComputed = (s.kexts k).withoutComputed)
    (hr : t.repositoryList = s.repositoryList) (I : ι) :
    { t with safeBoot := m }.candidatesOf I t.candidateList =
      { s with safeBoot := m }.candidatesOf I s.candidateList := by
  have hi : ∀ k, ({ t with safeBoot := m } : Manager ι κ).identifierOf k =
      ({ s with safeBoot := m } : Manager ι κ).identifierOf k := fun k => by
    have := congrArg Kext.bundleIdentifier (hk k); exact this
  have hl : t.candidateList = s.candidateList := by unfold candidateList; rw [hr]
  rw [hl]
  unfold candidatesOf
  exact List.filter_congr fun k _ => by
    rw [isCandidate_congr (s := { s with safeBoot := m }) (t := { t with safeBoot := m }) (hk k) rfl,
      hi k]

end Manager

namespace SessionInv

variable {m : Bool} {R : List κ} {s s' : Manager ι κ}

/-- A state that keeps the structure, the kexts' records up to what the
manager computes of them, and the repositories keeps the invariant, unless it
makes a stale structure look fresh. -/
theorem congr (h : SessionInv m R s) (hp : s'.priorVersion = s.priorVersion)
    (hd : s'.duplicateVersion = s.duplicateVersion) (hc : s'.candidateKexts = s.candidateKexts)
    (hm : List.Sublist (s'.kextsWithMissingDependencies.drop 1)
      (s.kextsWithMissingDependencies.drop 1))
    (hk : ∀ k, (s'.kexts k).withoutComputed = (s.kexts k).withoutComputed)
    (hr : s'.repositoryList = s.repositoryList)
    (hn : s'.needsCalculateRelationships = false → s.needsCalculateRelationships = false) :
    SessionInv m R s' := by
  obtain ⟨P, hP, hall, hfresh⟩ := h.placement
  have hv : s'.versionOf = s.versionOf := funext fun k => by
    have := congrArg Kext.version (hk k); exact this
  have hi : s'.identifierOf = s.identifierOf := funext fun k => by
    have := congrArg Kext.bundleIdentifier (hk k); exact this
  refine ⟨⟨P, hP.congr hp hd hc hv hi, fun I k hk' => ?_, fun hn' I => ?_⟩, ?_, ?_⟩
  · unfold Manager.allKexts; rw [hr]; exact hall I k hk'
  · rw [Manager.candidatesOf_congr m hk hr]; exact hfresh (hn hn') I
  · exact hm.nodup h.missing_nodup
  · exact fun k hk' => h.missing_spliced k (hm.subset hk')

/-- A state with an empty dictionary, nothing listed and a stale structure has
the invariant with nothing placed. -/
theorem of_empty (m : Bool) (hc : s.candidateKexts = ∅) (hm : s.kextsWithMissingDependencies = [])
    (hn : s.needsCalculateRelationships = true) : SessionInv m [] s :=
  ⟨⟨fun _ => [], splicedFrom_of_empty hc, fun _ _ h => absurd h (List.not_mem_nil _),
    fun h => absurd (hn.symm.trans h) Bool.noConfusion⟩, by rw [hm]; exact List.nodup_nil,
    by rw [hm]; simp⟩

end SessionInv

/-- The invariant gives what the lookups need of the structure. -/
theorem SessionInv.built {m : Bool} {R : List κ} {s : Manager ι κ} (h : SessionInv m R s) :
    s.Built := by
  obtain ⟨P, hP, hall, -⟩ := h.placement
  have hmem : ∀ I k, Reaches s I k → k ∈ P I := fun I k hk => ((hP.reaches_iff I k).mp hk).1
  refine ⟨fun I => ?_, fun I k hk => hP.placed_identifier I k (hmem I k hk),
    fun I k hk => hall I k (hmem I k hk)⟩
  obtain ⟨L, -, hnd, hc⟩ := hP.chains I
  exact ⟨_, hc, by rw [flatten_eraseMissing]; exact hnd.filter _⟩

/-! ### Steps that keep the invariant -/

/-- `t` follows `s` keeping the invariant from the ghosts `m` and `R`: the
ghost count of teardowns does not go back, and if it moved, the ghosts are
reset to the mode of `s` and to nothing spliced. -/
def Follows (m : Bool) (R : List κ) (s t : Manager ι κ) : Prop :=
  s.teardownCount ≤ t.teardownCount ∧
    SessionInv (if t.teardownCount = s.teardownCount then m else s.safeBoot)
      (if t.teardownCount = s.teardownCount then R else []) t

/-- A step keeps the safe-boot mode and the invariant, resetting the ghosts
when it tears the structure down. -/
def KeepsSessionInv (f : Manager ι κ → Manager ι κ) : Prop :=
  ∀ m R s, SessionInv m R s → (f s).safeBoot = s.safeBoot ∧ Follows m R s (f s)

namespace Follows

variable {m : Bool} {R : List κ} {s t : Manager ι κ}

theorem of_eq (h : SessionInv m R s) (ht : t = s) : Follows m R s t := by
  subst ht; exact ⟨le_refl _, by simpa using h⟩

theorem of_teardown (hle : s.teardownCount < t.teardownCount) (h : SessionInv s.safeBoot [] t) :
    Follows m R s t :=
  ⟨hle.le, by rwa [if_neg (Nat.ne_of_gt hle), if_neg (Nat.ne_of_gt hle)]⟩

theorem of_same (ht : t.teardownCount = s.teardownCount) (h : SessionInv m R t) :
    Follows m R s t :=
  ⟨ht.ge, by rwa [if_pos ht, if_pos ht]⟩

theorem inv (h : Follows m R s t) :
    SessionInv (if t.teardownCount = s.teardownCount then m else s.safeBoot)
      (if t.teardownCount = s.teardownCount then R else []) t := h.2

/-- A step after a follower, from the same mode. -/
theorem trans {f : Manager ι κ → Manager ι κ} (h : Follows m R s t) (hb : t.safeBoot = s.safeBoot)
    (hf : KeepsSessionInv f) : Follows m R s (f t) := by
  obtain ⟨hle₁, h₁⟩ := h
  obtain ⟨-, hle₂, h₂⟩ := hf _ _ _ h₁
  refine ⟨hle₁.trans hle₂, ?_⟩
  by_cases e₁ : t.teardownCount = s.teardownCount
  · by_cases e₂ : (f t).teardownCount = t.teardownCount
    · rw [if_pos e₂, if_pos e₂, if_pos e₁, if_pos e₁] at h₂
      rwa [if_pos (e₂.trans e₁), if_pos (e₂.trans e₁)]
    · rw [if_neg e₂, if_neg e₂, hb] at h₂
      rwa [if_neg (by omega), if_neg (by omega)]
  · have e : (f t).teardownCount ≠ s.teardownCount := by omega
    rw [if_neg e, if_neg e]
    by_cases e₂ : (f t).teardownCount = t.teardownCount
    · rwa [if_pos e₂, if_pos e₂, if_neg e₁, if_neg e₁] at h₂
    · rwa [if_neg e₂, if_neg e₂, hb] at h₂

end Follows

namespace KeepsSessionInv

theorem comp {f g : Manager ι κ → Manager ι κ} (hf : KeepsSessionInv f) (hg : KeepsSessionInv g) :
    KeepsSessionInv (g ∘ f) := fun m R s h => by
  obtain ⟨hb₁, h₁⟩ := hf m R s h
  obtain ⟨hb₂, -⟩ := hg _ _ _ h₁.inv
  exact ⟨hb₂.trans hb₁, h₁.trans hb₁ hg⟩

theorem ite (p : Manager ι κ → Bool) {f g : Manager ι κ → Manager ι κ} (hf : KeepsSessionInv f)
    (hg : KeepsSessionInv g) : KeepsSessionInv fun s => if p s then f s else g s := fun m R s h => by
  by_cases hp : p s
  · simp only [hp, if_true]; exact hf m R s h
  · simp only [hp]; exact hg m R s h

theorem foldl {f : Manager ι κ → κ → Manager ι κ} (hf : ∀ k, KeepsSessionInv fun s => f s k) :
    ∀ xs : List κ, KeepsSessionInv fun s => xs.foldl f s
  | [] => fun _ _ _ h => ⟨rfl, .of_eq h rfl⟩
  | x :: xs => (hf x).comp (foldl hf xs)

end KeepsSessionInv

namespace SessionInv

variable {m : Bool} {R : List κ} {s s' : Manager ι κ}

/-- The gate's fields do not matter, but for a stale structure looking
fresh. -/
theorem of_withoutGate (h : SessionInv m R s) (hg : s'.withoutGate = s.withoutGate)
    (hn : s'.needsCalculateRelationships = false → s.needsCalculateRelationships = false) :
    SessionInv m R s' :=
  h.congr (by have := congrArg Manager.priorVersion hg; exact this)
    (by have := congrArg Manager.duplicateVersion hg; exact this)
    (by have := congrArg Manager.candidateKexts hg; exact this)
    (by have := congrArg Manager.kextsWithMissingDependencies hg; exact this ▸ List.Sublist.refl _)
    (fun k => by have := congrArg (fun t : Manager ι κ => (t.kexts k).withoutComputed) hg; exact this)
    (by have := congrArg Manager.repositoryList hg; exact this) hn

/-- Nor does what the check of the kernel's table records. -/
theorem of_withoutLoaded (h : SessionInv m R s) (hw : s'.withoutLoaded = s.withoutLoaded) :
    SessionInv m R s' :=
  h.congr (by have := congrArg Manager.priorVersion hw; exact this)
    (by have := congrArg Manager.duplicateVersion hw; exact this)
    (by have := congrArg Manager.candidateKexts hw; exact this)
    (by have := congrArg Manager.kextsWithMissingDependencies hw; exact this ▸ List.Sublist.refl _)
    (fun k => by
      have := congrArg (fun t : Manager ι κ => (t.kexts k).withoutComputed) hw; exact this)
    (by have := congrArg Manager.repositoryList hw; exact this)
    (fun hn => by have := congrArg Manager.needsCalculateRelationships hw; exact this ▸ hn)

end SessionInv

section Steps

/-- A clear request keeps the invariant after any step that keeps the
structure and the kexts' versions and identifiers, and keeps every kext in the
repositories: it marks the structure stale or tears it down. -/
theorem keeps_clearRelationships_after_of_subset {g : Manager ι κ → Manager ι κ}
    (hp : ∀ s, (g s).priorVersion = s.priorVersion) (hd : ∀ s, (g s).duplicateVersion = s.duplicateVersion)
    (hc : ∀ s, (g s).candidateKexts = s.candidateKexts)
    (hm : ∀ s, (g s).kextsWithMissingDependencies = s.kextsWithMissingDependencies)
    (hv : ∀ s, (g s).versionOf = s.versionOf) (hi : ∀ s, (g s).identifierOf = s.identifierOf)
    (ht : ∀ s, (g s).teardownCount = s.teardownCount) (hb : ∀ s, (g s).safeBoot = s.safeBoot)
    (ha : ∀ s x, x ∈ s.allKexts → x ∈ (g s).allKexts) :
    KeepsSessionInv fun s => (g s).clearRelationships := fun m R s h => by
  refine ⟨by rw [Manager.clearRelationships_safeBoot, hb], ?_⟩
  have hle : s.teardownCount ≤ (g s).clearRelationships.teardownCount :=
    (ht s).ge.trans (Manager.teardownCount_le_clearRelationships _)
  rcases clearRelationships_cases (g s) with hg | ⟨ht', hc', hm'⟩
  · obtain ⟨P, hP, hall, -⟩ := h.placement
    have hv' := congrArg (fun t : Manager ι κ => t.versionOf) hg
    have hi' := congrArg (fun t : Manager ι κ => t.identifierOf) hg
    simp only [Manager.versionOf, Manager.identifierOf] at hv' hi'
    refine Follows.of_same ((teardownCount_eq_of_withoutGate hg).trans (ht s))
      ⟨⟨P, hP.congr ?_ ?_ ?_ ?_ ?_, fun I k hk => ?_, fun hn => ?_⟩, ?_, ?_⟩
    · rw [← hp s]; have := congrArg Manager.priorVersion hg; exact this
    · rw [← hd s]; have := congrArg Manager.duplicateVersion hg; exact this
    · rw [← hc s]; have := congrArg Manager.candidateKexts hg; exact this
    · rw [← hv s]; unfold Manager.versionOf; exact hv'
    · rw [← hi s]; unfold Manager.identifierOf; exact hi'
    · have hr := congrArg Manager.repositoryList hg
      unfold Manager.allKexts; rw [show (g s).clearRelationships.repositoryList = (g s).repositoryList
        from hr]
      exact ha s k (hall I k hk)
    · simp at hn
    · have := congrArg Manager.kextsWithMissingDependencies hg
      rw [show (g s).clearRelationships.kextsWithMissingDependencies =
        (g s).kextsWithMissingDependencies from this, hm]; exact h.missing_nodup
    · have := congrArg Manager.kextsWithMissingDependencies hg
      rw [show (g s).clearRelationships.kextsWithMissingDependencies =
        (g s).kextsWithMissingDependencies from this, hm]; exact h.missing_spliced
  · refine Follows.of_teardown (lt_of_le_of_ne hle (Ne.symm (by rwa [ht] at ht'))) ?_
    rw [← hb s, ← Manager.clearRelationships_safeBoot (g s)]
    exact SessionInv.of_empty _ hc' hm' (Manager.clearRelationships_needsCalculateRelationships _)

/-- The same after a step that keeps which kexts the repositories hold. -/
theorem keeps_clearRelationships_after {g : Manager ι κ → Manager ι κ}
    (hp : ∀ s, (g s).priorVersion = s.priorVersion) (hd : ∀ s, (g s).duplicateVersion = s.duplicateVersion)
    (hc : ∀ s, (g s).candidateKexts = s.candidateKexts)
    (hm : ∀ s, (g s).kextsWithMissingDependencies = s.kextsWithMissingDependencies)
    (hv : ∀ s, (g s).versionOf = s.versionOf) (hi : ∀ s, (g s).identifierOf = s.identifierOf)
    (ht : ∀ s, (g s).teardownCount = s.teardownCount) (hb : ∀ s, (g s).safeBoot = s.safeBoot)
    (ha : ∀ s x, x ∈ (g s).allKexts ↔ x ∈ s.allKexts) :
    KeepsSessionInv fun s => (g s).clearRelationships :=
  keeps_clearRelationships_after_of_subset hp hd hc hm hv hi ht hb fun s x => (ha s x).mpr

theorem keeps_clearRelationships : KeepsSessionInv (Manager.clearRelationships : Manager ι κ → _) :=
  keeps_clearRelationships_after (g := id) (fun _ => rfl) (fun _ => rfl) (fun _ => rfl) (fun _ => rfl)
    (fun _ => rfl) (fun _ => rfl) (fun _ => rfl) (fun _ => rfl) (fun _ _ => Iff.rfl)

theorem keeps_disqualifyKext (k : κ) : KeepsSessionInv fun s : Manager ι κ => s.disqualifyKext k :=
  keeps_clearRelationships_after
    (g := fun s => { s with repositoryList := s.repositoryList.disqualifyKext k }) (fun _ => rfl)
    (fun _ => rfl) (fun _ => rfl) (fun _ => rfl) (fun _ => rfl) (fun _ => rfl) (fun _ => rfl)
    (fun _ => rfl) fun s x => by
      simp only [Manager.allKexts, Repositories.disqualifyKext, List.flatMap_map]
      exact (List.Perm.flatMap_left _ fun r _ => Repository.disqualifyKext_kexts_perm k r).mem_iff

theorem keeps_setLoadFailed_clearRelationships (k : κ) :
    KeepsSessionInv fun s : Manager ι κ => (s.setLoadFailed k).clearRelationships :=
  keeps_clearRelationships_after (g := fun s => s.setLoadFailed k) (fun _ => rfl) (fun _ => rfl)
    (fun _ => rfl) (fun _ => rfl)
    (fun s => funext fun x => by
      simp only [Manager.versionOf, Manager.setLoadFailed, Manager.modifyKext_kexts]; split_ifs <;> simp_all)
    (fun s => funext fun x => by
      simp only [Manager.identifierOf, Manager.setLoadFailed, Manager.modifyKext_kexts]
      split_ifs <;> simp_all)
    (fun _ => rfl) (fun _ => rfl) (fun _ _ => Iff.rfl)

theorem keeps_disableClearRelationships :
    KeepsSessionInv (Manager.disableClearRelationships : Manager ι κ → _) := fun _ _ _ h =>
  ⟨rfl, .of_same rfl (h.of_withoutGate rfl id)⟩

theorem keeps_enableClearRelationships :
    KeepsSessionInv (Manager.enableClearRelationships : Manager ι κ → _) := fun m R s h => by
  refine ⟨Manager.enableClearRelationships_safeBoot s, ?_⟩
  rcases enableClearRelationships_cases s with hg | ⟨ht, hc, hm⟩
  · exact .of_same (teardownCount_eq_of_withoutGate hg) (h.of_withoutGate hg fun hn => by
      simp only [Manager.enableClearRelationships_needsCalculateRelationships, Bool.or_eq_false_iff] at hn
      exact hn.2)
  · have hn : s.needsClearRelationships = true := by
      by_contra hn
      exact ht (Manager.enableClearRelationships_teardownCount_of_not_needsClear s (by simpa using hn))
    refine .of_teardown (lt_of_le_of_ne (Manager.teardownCount_le_enableClearRelationships s)
      (Ne.symm ht)) ?_
    rw [← Manager.enableClearRelationships_safeBoot s]
    exact SessionInv.of_empty _ hc hm (by simp [hn])

/-- The teardown of `__KXKextManagerClearRelationships`. -/
theorem keeps_internalClearRelationships :
    KeepsSessionInv (Manager.Internal.clearRelationships : Manager ι κ → _) := fun _ _ s _ =>
  ⟨Manager.Internal.clearRelationships_safeBoot s, .of_teardown (by
    simp [Manager.Internal.clearRelationships, Manager.clearRepositoryRelationships_eq])
    (by
      rw [← Manager.Internal.clearRelationships_safeBoot s]
      exact SessionInv.of_empty _ (Manager.Internal.clearRelationships_candidateKexts s)
        (by simp [Manager.Internal.clearRelationships, Manager.clearRepositoryRelationships_eq])
        (by simp [Manager.Internal.clearRelationships, Manager.clearRepositoryRelationships_eq]))⟩

theorem keeps_id : KeepsSessionInv (id : Manager ι κ → Manager ι κ) := fun _ _ _ h =>
  ⟨rfl, .of_eq h rfl⟩

theorem keeps_clearDependencyRelationships :
    KeepsSessionInv (Manager.Internal.clearDependencyRelationships : Manager ι κ → _) := fun _ _ s h =>
  ⟨Manager.Internal.clearDependencyRelationships_safeBoot s,
    .of_same (by simp [Manager.Internal.clearDependencyRelationships,
      Manager.clearRepositoryDependencies_eq])
    (h.congr (by simp) (by simp) (by simp)
      (by simp [Manager.Internal.clearDependencyRelationships])
      (fun k => Manager.clearDependencyRelationships_withoutComputed k s) (by simp)
      (fun hn => by simpa [Manager.Internal.clearDependencyRelationships,
        Manager.clearRepositoryDependencies_eq] using hn))⟩

theorem keeps_resolveDependencies (resolve : κ → KXKextManagerError) (k : κ) :
    KeepsSessionInv fun s : Manager ι κ => s.resolveDependencies resolve k := fun _ _ s h =>
  ⟨rfl, .of_same rfl (h.congr rfl rfl rfl (List.Sublist.refl _) (fun x => by
    simp only [Manager.resolveDependencies, Manager.modifyKext_kexts]
    split_ifs with hx
    · subst hx; rfl
    · rfl) rfl id)⟩

theorem keeps_internalLoadKextUsingOptions (env : LoadEnvironment) (aKext : κ)
    (kextName symbolDir : Option String) (loadOptions : LoadOptions) (getAddrsFromKernel : Bool)
    (numAddresses : Nat) :
    KeepsSessionInv fun s : Manager ι κ => (Manager.Internal.loadKextUsingOptions env s aKext kextName
      symbolDir loadOptions getAddrsFromKernel numAddresses).1 := fun m R s h => by
  dsimp only [Manager.Internal.loadKextUsingOptions]
  rcases Manager.performLoad_manager env s aKext kextName symbolDir loadOptions getAddrsFromKernel
    numAddresses with e | e <;> split_ifs <;> rw [e]
  · exact keeps_setLoadFailed_clearRelationships aKext m R s h
  · exact ⟨rfl, .of_eq h rfl⟩
  · exact ((keeps_disqualifyKext aKext).comp (keeps_setLoadFailed_clearRelationships aKext)) m R s h
  · exact keeps_disqualifyKext aKext m R s h

/-- A preparation whose dependency resolution fails lists its kext, alone. -/
theorem keeps_resolveFailure (resolve : κ → KXKextManagerError) (aKext : κ) :
    KeepsSessionInv fun s : Manager ι κ =>
      ((Manager.Internal.clearDependencyRelationships s).resolveDependencies resolve aKext).appendMissing
        aKext := fun m R s h => by
  obtain ⟨hb, hle, hi⟩ := (keeps_clearDependencyRelationships.comp
    (keeps_resolveDependencies resolve aKext)) m R s h
  exact ⟨hb, hle, hi.congr rfl rfl rfl (by
    simp [Manager.appendMissing, Manager.resolveDependencies, Manager.modifyKext,
      Manager.Internal.clearDependencyRelationships]) (fun _ => rfl) rfl id⟩

theorem keeps_resolveAndAuthenticate (env : PrepareEnvironment ι κ) (aKext : κ)
    (inauthenticKexts : Option (List κ)) :
    KeepsSessionInv fun s => (Manager.resolveAndAuthenticate env aKext inauthenticKexts s).manager :=
  fun m R s h => by
    dsimp only
    rcases Manager.resolveAndAuthenticate_cases env aKext inauthenticKexts s with ⟨-, e⟩ | ⟨-, bad, e⟩ <;>
      rw [e]
    · exact keeps_resolveFailure env.resolve aKext m R s h
    · exact ((((keeps_clearDependencyRelationships.comp (keeps_resolveDependencies env.resolve aKext)).comp
        keeps_disableClearRelationships).comp (KeepsSessionInv.foldl keeps_disqualifyKext bad)).comp
        keeps_enableClearRelationships) m R s h

end Steps

/-! ### Builds -/

variable [Fintype κ]

/-- **A build places the candidate kexts** of the mode it runs in. -/
theorem sessionInv_calculateVersionRelationships (s : Manager ι κ) :
    SessionInv s.safeBoot [] s.calculateVersionRelationships := by
  have hc := coherent_calculateVersionRelationships s
  unfold Coherent at hc
  rw [Manager.calculateVersionRelationships_kextsWithMissingDependencies] at hc
  have hk : ∀ k, (s.calculateVersionRelationships.kexts k).withoutComputed =
      (s.kexts k).withoutComputed := fun k => Manager.calculateVersionRelationships_withoutComputed k s
  refine ⟨⟨_, hc, fun I k hk' => ?_, fun _ I => ?_⟩, by simp, by simp⟩
  · unfold Manager.allKexts; rw [Manager.calculateVersionRelationships_repositoryList]
    exact Manager.mem_allKexts_of_mem_candidateList (Manager.mem_candidatesOf.mp hk').1
  · rw [Manager.candidatesOf_congr s.safeBoot hk
      (Manager.calculateVersionRelationships_repositoryList s)]

/-- A build resets the ghosts to its own mode. -/
theorem keeps_calculateVersionRelationships :
    KeepsSessionInv (Manager.calculateVersionRelationships : Manager ι κ → _) := fun _ _ s _ =>
  ⟨Manager.calculateVersionRelationships_safeBoot s, .of_teardown (by simp)
    (sessionInv_calculateVersionRelationships s)⟩

/-! ### The calls of a session keep the invariant -/

namespace Manager

theorem ensureRelationships_fresh (s : Manager ι κ) : s.ensureRelationships.Fresh := by
  unfold ensureRelationships
  by_cases hc : s.needsClearRelationships <;> by_cases hk : s.needsCalculateRelationships <;>
    simp [hc, hk, Fresh, Internal.clearRelationships, clearRepositoryRelationships_eq]

theorem ensureRelationshipsForLoading_fresh (s : Manager ι κ) :
    s.ensureRelationshipsForLoading.Fresh := by
  unfold ensureRelationshipsForLoading
  by_cases hc : s.needsClearRelationships <;> by_cases hk : s.needsCalculateRelationships <;>
    simp [hc, hk, Fresh, Internal.clearRelationships, clearRepositoryRelationships_eq,
      Internal.clearDependencyRelationships, clearRepositoryDependencies_eq]

/-- On a fresh built structure the check of the kernel's table changes only
what it records. -/
theorem checkForLoadedKexts_withoutLoaded_of_fresh (kmodInfo : Option (List (KmodInfo ι)))
    {s : Manager ι κ} (hb : s.Built) (hf : s.Fresh) :
    (s.checkForLoadedKexts kmodInfo).1.withoutLoaded = s.withoutLoaded := by
  have hm := markKextsNotLoaded_withoutLoaded s
  cases kmodInfo with
  | none => exact hm
  | some kmods =>
      have hf' : s.markKextsNotLoaded.Fresh :=
        ⟨(congrArg needsClearRelationships hm).trans hf.1,
          (congrArg needsCalculateRelationships hm).trans hf.2⟩
      rcases (checkKmods_structure kmods _ (Built.of_withoutLoaded hm hb)).2 with h | h
      · exact h.trans hm
      · rw [ensureRelationships_of_fresh hf'] at h; exact h.trans hm

theorem getKextWithIdentifierAndVersionNumber_manager (s : Manager ι κ) (identifier : ι)
    (versionNumber : Option Int) :
    (s.getKextWithIdentifierAndVersionNumber identifier versionNumber).1 = s.ensureRelationships := by
  cases versionNumber <;> rfl

theorem getKextWithIdentifierCompatibleWithVersionNumber_manager
    (isCompatible : κ → Int → Bool) (s : Manager ι κ) (identifier : ι) (versionNumber : Option Int) :
    (getKextWithIdentifierCompatibleWithVersionNumber isCompatible s identifier versionNumber).1 =
      s.ensureRelationships := by
  cases versionNumber <;> rfl

theorem copyKextsWithIdentifier_manager (arrayCreated : Bool) (s : Manager ι κ) (identifier : ι) :
    (copyKextsWithIdentifier arrayCreated s identifier).1 =
      if arrayCreated then s.ensureRelationships else s := by
  cases arrayCreated <;> rfl

theorem copyAllKextPersonalities_manager {α : Type} (copyPersonalitiesArray : κ → Option (List α))
    (arrayCreated valuesAllocated : Bool) (s : Manager ι κ) :
    (s.copyAllKextPersonalities copyPersonalitiesArray arrayCreated valuesAllocated).1 =
      s.ensureRelationships := by
  unfold copyAllKextPersonalities; split_ifs <;> rfl

end Manager

section Steps

/-- The rebuild block of the lookups. -/
theorem keeps_ensureRelationships :
    KeepsSessionInv (Manager.ensureRelationships : Manager ι κ → _) :=
  (KeepsSessionInv.ite (fun s => s.needsClearRelationships) keeps_internalClearRelationships keeps_id).comp
    (KeepsSessionInv.ite (fun s => s.needsCalculateRelationships)
      keeps_calculateVersionRelationships keeps_id)

/-- The rebuild block of the preparation. -/
theorem keeps_ensureRelationshipsForLoading :
    KeepsSessionInv (Manager.ensureRelationshipsForLoading : Manager ι κ → _) :=
  (KeepsSessionInv.ite (fun s => s.needsClearRelationships)
    (keeps_internalClearRelationships.comp keeps_clearDependencyRelationships) keeps_id).comp
    (KeepsSessionInv.ite (fun s => s.needsCalculateRelationships)
      keeps_calculateVersionRelationships keeps_id)

/-- A check of the kernel's table after a rebuild block. -/
theorem keeps_checkForLoadedKexts_after {E : Manager ι κ → Manager ι κ} (hE : KeepsSessionInv E)
    (hf : ∀ s, (E s).Fresh) (kmodInfo : Option (List (KmodInfo ι))) :
    KeepsSessionInv fun s => ((E s).checkForLoadedKexts kmodInfo).1 := fun m R s h => by
  obtain ⟨hb, hle, hi⟩ := hE m R s h
  have hw := Manager.checkForLoadedKexts_withoutLoaded_of_fresh kmodInfo hi.built (hf s)
  have ht : ((E s).checkForLoadedKexts kmodInfo).1.teardownCount = (E s).teardownCount := by
    have := congrArg Manager.teardownCount hw; exact this
  refine ⟨(by have := congrArg Manager.safeBoot hw; exact this.trans hb), ht ▸ hle, ?_⟩
  rw [ht]; exact hi.of_withoutLoaded hw

/-- **A preparation keeps the invariant**, on every path. -/
theorem keeps_prepareKextForLoading (env : PrepareEnvironment ι κ) (aKext : κ)
    (kextName : Option String) (checkLoadedForDependencies doLoad : Bool)
    (inauthenticKexts : Option (List κ)) :
    KeepsSessionInv fun s => (Manager.prepareKextForLoading env s aKext kextName
      checkLoadedForDependencies doLoad inauthenticKexts).manager := fun m R s h => by
  dsimp only
  rcases Manager.prepareKextForLoading_cases env s aKext kextName checkLoadedForDependencies doLoad
    inauthenticKexts with e | ⟨t, ht, e⟩
  · rw [e]; exact ⟨rfl, .of_eq h rfl⟩
  have hT : t.safeBoot = s.safeBoot ∧ Follows m R s t := by
    rcases ht with rfl | rfl
    · exact keeps_ensureRelationshipsForLoading m R s h
    · exact keeps_checkForLoadedKexts_after keeps_ensureRelationshipsForLoading
        Manager.ensureRelationshipsForLoading_fresh env.kmodInfo m R s h
  rcases e with e | e <;> rw [e]
  · exact hT
  · exact ⟨(keeps_resolveAndAuthenticate env aKext inauthenticKexts _ _ _ hT.2.inv).1.trans hT.1,
      hT.2.trans hT.1 (keeps_resolveAndAuthenticate env aKext inauthenticKexts)⟩

/-- **A load keeps the invariant**, whatever each step answers. -/
theorem keeps_loadKextUsingOptions (prepareEnv : PrepareEnvironment ι κ) (env : LoadEnvironment)
    (aKext : κ) (kextName symbolDir : Option String)
    (checkLoadedForDependencies doLoad getAddrsFromKernel : Bool) (numAddresses : Nat) :
    KeepsSessionInv fun s => (Manager.loadKextUsingOptions prepareEnv env s aKext kextName symbolDir
      checkLoadedForDependencies doLoad getAddrsFromKernel numAddresses).1 := fun m R s h => by
  obtain ⟨hb, hF⟩ := keeps_prepareKextForLoading prepareEnv aKext kextName checkLoadedForDependencies
    doLoad none m R s h
  dsimp only [Manager.loadKextUsingOptions]
  split_ifs
  · exact ⟨hb, hF⟩
  all_goals exact ⟨(keeps_internalLoadKextUsingOptions env aKext kextName symbolDir _ getAddrsFromKernel
      numAddresses _ _ _ hF.inv).1.trans hb,
      hF.trans hb (keeps_internalLoadKextUsingOptions env aKext kextName symbolDir _ getAddrsFromKernel
        numAddresses)⟩

end Steps

omit [DecidableEq κ] [Fintype κ] in
/-- Appending kexts that are spliced out for the first time keeps the list, its
first entry apart, free of repeats and made of spliced kexts. -/
theorem drop_one_append {l A R : List κ} (hl : (l.drop 1).Nodup) (hlR : ∀ k ∈ l.drop 1, k ∈ R)
    (hRA : (R ++ A).Nodup) :
    ((l ++ A).drop 1).Nodup ∧ ∀ k ∈ (l ++ A).drop 1, k ∈ R ++ A := by
  obtain ⟨-, hA, hdisj⟩ := List.nodup_append.mp hRA
  cases l with
  | nil => exact ⟨(List.drop_sublist 1 A).nodup hA,
      fun k hk => List.mem_append_right _ ((List.drop_sublist 1 A).subset hk)⟩
  | cons x l =>
      simp only [List.drop_one, List.tail_cons, List.cons_append] at hl hlR ⊢
      refine ⟨List.nodup_append.mpr ⟨hl, hA, fun k hk hk' => hdisj (hlR k hk) hk'⟩, fun k hk => ?_⟩
      rcases List.mem_append.mp hk with hk | hk
      · exact List.mem_append_left _ (hlR k hk)
      · exact List.mem_append_right _ hk

namespace SessionInv

variable {m : Bool} {R : List κ} {s : Manager ι κ}

/-- **A resolution splices out what it lists.** -/
theorem resolveAllKextDependencies (h : SessionInv m R s) (resolve : κ → KXKextManagerError)
    (mallocOk : Bool) :
    SessionInv m (R ++ (s.resolveAllKextDependencies resolve mallocOk).kextsWithMissingDependencies.drop
      s.kextsWithMissingDependencies.length) (s.resolveAllKextDependencies resolve mallocOk) := by
  obtain ⟨P, hP, hall, hfr⟩ := h.placement
  obtain ⟨A, hA, hP'⟩ := hP.resolveAllKextDependencies resolve mallocOk
  have hres := Manager.resolveAllKextDependencies_withoutResolution resolve mallocOk s
  have hr : (s.resolveAllKextDependencies resolve mallocOk).repositoryList = s.repositoryList := by
    have := congrArg Manager.repositoryList hres; exact this
  have hk : ∀ k, ((s.resolveAllKextDependencies resolve mallocOk).kexts k).withoutComputed =
      (s.kexts k).withoutComputed := fun k => by
    have := congrArg (fun t : Manager ι κ => (t.kexts k).withoutComputed) hres; exact this
  rw [hA, List.drop_left]
  obtain ⟨hnd, hsp⟩ := drop_one_append h.missing_nodup h.missing_spliced hP'.spliced_nodup
  rw [← hA] at hnd hsp
  refine ⟨⟨P, hP', fun I k hk' => ?_, fun hn I => ?_⟩, hnd, hsp⟩
  · unfold Manager.allKexts; rw [hr]; exact hall I k hk'
  · rw [Manager.candidatesOf_congr m hk hr]
    exact hfr (by have := congrArg Manager.needsCalculateRelationships hres; exact this ▸ hn) I

omit [Fintype κ] in
/-- A change of safe-boot mode keeps the invariant: the ghost keeps the mode of
the latest build. -/
theorem setSafeBootMode (h : SessionInv m R s) (flag : Bool) :
    SessionInv m R (s.setSafeBootMode flag) := by
  obtain ⟨P, hP, hall, hfr⟩ := h.placement
  exact ⟨⟨P, hP.congr rfl rfl rfl rfl rfl, hall, hfr⟩, h.missing_nodup, h.missing_spliced⟩

end SessionInv

namespace SessionCall

variable {m : Bool} {R : List κ} {s : Manager ι κ}

theorem sessionInv_of_keeps {c : SessionCall ι κ} {f : Manager ι κ → Manager ι κ}
    (hf : KeepsSessionInv f) (hc : c.apply s = f s)
    (hsp : c.spliced s R = if (c.apply s).teardownCount = s.teardownCount then R else [])
    (h : SessionInv m R s) : SessionInv (c.mode s m) (c.spliced s R) (c.apply s) := by
  rw [hsp]; unfold mode; rw [hc]; exact (hf m R s h).2.2

/-- **Every call keeps the invariant**, with the ghosts it makes. -/
theorem sessionInv_apply (h : SessionInv m R s) : ∀ c : SessionCall ι κ,
    SessionInv (c.mode s m) (c.spliced s R) (c.apply s)
  | relationship .calculateVersionRelationships =>
      sessionInv_of_keeps keeps_calculateVersionRelationships rfl rfl h
  | relationship (.resolveAllKextDependencies resolve mallocOk) => by
      have ht := Manager.teardownCount_eq_of_withoutResolution
        (Manager.resolveAllKextDependencies_withoutResolution resolve mallocOk s)
      simp only [mode, spliced, apply, RelationshipOp.apply, ht, if_true]
      exact h.resolveAllKextDependencies resolve mallocOk
  | relationship .clearRelationships => sessionInv_of_keeps keeps_clearRelationships rfl rfl h
  | relationship .disableClearRelationships =>
      sessionInv_of_keeps keeps_disableClearRelationships rfl rfl h
  | relationship .enableClearRelationships =>
      sessionInv_of_keeps keeps_enableClearRelationships rfl rfl h
  | getKextWithIdentifierAndVersionNumber identifier versionNumber =>
      sessionInv_of_keeps keeps_ensureRelationships
        (Manager.getKextWithIdentifierAndVersionNumber_manager s identifier versionNumber) rfl h
  | getKextWithIdentifierCompatibleWithVersionNumber isCompatible identifier versionNumber =>
      sessionInv_of_keeps keeps_ensureRelationships
        (Manager.getKextWithIdentifierCompatibleWithVersionNumber_manager isCompatible s identifier
          versionNumber) rfl h
  | getLoadedOrLatestKextWithIdentifier kmodInfo _ =>
      sessionInv_of_keeps (keeps_checkForLoadedKexts_after keeps_ensureRelationships
        Manager.ensureRelationships_fresh kmodInfo) rfl rfl h
  | copyKextsWithIdentifier arrayCreated identifier =>
      sessionInv_of_keeps (KeepsSessionInv.ite (fun _ => arrayCreated) keeps_ensureRelationships keeps_id)
        (Manager.copyKextsWithIdentifier_manager arrayCreated s identifier) rfl h
  | copyAllKextPersonalities arrayCreated valuesAllocated =>
      sessionInv_of_keeps keeps_ensureRelationships
        (Manager.copyAllKextPersonalities_manager _ arrayCreated valuesAllocated s) rfl h
  | prepareKextForLoading env aKext kextName checkLoadedForDependencies doLoad inauthenticKexts =>
      sessionInv_of_keeps (keeps_prepareKextForLoading env aKext kextName checkLoadedForDependencies
        doLoad inauthenticKexts) rfl rfl h
  | loadKextUsingOptions prepareEnv env aKext kextName symbolDir checkLoadedForDependencies doLoad
      getAddrsFromKernel numAddresses =>
      sessionInv_of_keeps (keeps_loadKextUsingOptions prepareEnv env aKext kextName symbolDir
        checkLoadedForDependencies doLoad getAddrsFromKernel numAddresses) rfl rfl h
  | setSafeBootMode flag => by
      simp only [mode, spliced, apply, Manager.setSafeBootMode, if_true]
      exact h.setSafeBootMode flag

/-- Every state of a run keeps the invariant. -/
theorem sessionInv_run : ∀ (cs : List (SessionCall ι κ)) {m : Bool} {R : List κ}
    {s : Manager ι κ}, SessionInv m R s → SessionInv (modeAfter cs s m) (splicedAfter cs s R) (run cs s)
  | [], _, _, _, h => h
  | c :: cs, _, _, _, h => sessionInv_run cs (sessionInv_apply h c)

/-! ### What a run from a new manager reads -/

section Runs

variable (cs : List (SessionCall ι κ)) (s : Manager ι κ) (hc : s.candidateKexts = ∅)
  (hm : s.kextsWithMissingDependencies = []) (hn : s.needsCalculateRelationships = true)

include hc hm hn

/-- **What the missing list holds.**  In every state of every run from a new
manager, `kextsWithMissingDependencies` holds, after its first entry, each kext
once, and none of them is reached from a head. -/
theorem run_missing :
    ((run cs s).kextsWithMissingDependencies.drop 1).Nodup ∧
      ∀ k ∈ (run cs s).kextsWithMissingDependencies.drop 1, ∀ I, ¬ Reaches (run cs s) I k := by
  have h := sessionInv_run cs (SessionInv.of_empty s.safeBoot hc hm hn)
  obtain ⟨P, hP, -⟩ := h.placement
  exact ⟨h.missing_nodup, fun k hk I hr => ((hP.reaches_iff I k).mp hr).2 (h.missing_spliced k hk)⟩

end Runs

end SessionCall

/-! ### Runs on fixed inputs -/

/-- Two kexts of `sameVersionPair` that are not eligible during safe boot. -/
def safeBootPair : Manager Nat (Fin 2) :=
  { sameVersionPair with
    kexts := fun k => { sameVersionPair.kexts k with isEligibleDuringSafeBoot := false } }

/-- A build, then safe-boot mode on. -/
def buildThenSafeBoot : List (SessionCall Nat (Fin 2)) :=
  [.relationship .calculateVersionRelationships, .setSafeBootMode true]

/-- After `buildThenSafeBoot` the lookup of identifier `0` finds the structure
fresh and returns kext `0`, the head it reaches, which the builder no longer
admits under the current mode. -/
theorem getKextWithIdentifier_after_setSafeBootMode :
    ((SessionCall.run buildThenSafeBoot safeBootPair).getKextWithIdentifierAndVersionNumber 0
        none).2 = some 0 ∧
      Reaches ((SessionCall.run buildThenSafeBoot safeBootPair).getKextWithIdentifierAndVersionNumber 0
        none).1 0 0 ∧
      ((SessionCall.run buildThenSafeBoot safeBootPair).getKextWithIdentifierAndVersionNumber 0
        none).1.isCandidate 0 = false :=
  ⟨by decide, .head (by decide), by decide⟩

/-- A preparation environment in which every dependency resolution fails. -/
def unresolvedEnvironment : PrepareEnvironment Nat (Fin 2) :=
  ⟨true, none, fun _ => .dependency, fun _ => none, true, fun _ => .none⟩

/-- A build, a preparation of kext `0` whose resolution fails, and a resolution
in which every kext fails. -/
def buildPrepareResolve : List (SessionCall Nat (Fin 2)) :=
  [.relationship .calculateVersionRelationships,
    .prepareKextForLoading unresolvedEnvironment 0 (some "") false false none,
    .relationship (.resolveAllKextDependencies (fun _ => .dependency) true)]

/-- After `buildPrepareResolve` kext `0` is listed twice. -/
theorem kextsWithMissingDependencies_lists_twice :
    (SessionCall.run buildPrepareResolve sameVersionPair).kextsWithMissingDependencies = [0, 0, 1] := by
  decide

/-- The same run: the list, after its first entry, holds each kext once. -/
theorem run_missing_sameVersionPair :
    sameVersionPair.candidateKexts = ∅ ∧ sameVersionPair.kextsWithMissingDependencies = [] ∧
      sameVersionPair.needsCalculateRelationships = true ∧
      ((SessionCall.run buildPrepareResolve sameVersionPair).kextsWithMissingDependencies.drop 1).Nodup ∧
      ∀ k ∈ (SessionCall.run buildPrepareResolve sameVersionPair).kextsWithMissingDependencies.drop 1,
        ∀ I, ¬ Reaches (SessionCall.run buildPrepareResolve sameVersionPair) I k :=
  ⟨rfl, rfl, rfl, SessionCall.run_missing _ _ rfl rfl rfl⟩

end KextManager
