/-
KextManager/Relationships.lean

Tearing the chain structure down, and the gate that defers it
(`KXKextManagerClearRelationships`, `KXKextManagerEnableClearRelationships`,
`KXKextManagerDisableClearRelationships` and the module-private
`__KXKextManagerClearRelationships`, `__KXKextManagerClearDependencyRelationships`).

The repositories' own clears live in `KXKextRepository.c`, which is not under
src/; they are modelled from the spec's description of the repository
interface: clearing relationships drops the two links of every kext the
repository holds, clearing dependency relationships drops what dependency
resolution computed.

The closed forms `clearRepositoryRelationships_eq` and
`clearRepositoryDependencies_eq` say once what the loops over the repository
list do, so that no later proof unfolds a fold.
-/
import KextManager.Basic

namespace KextManager

variable {ι κ : Type} [DecidableEq κ]

namespace Repository

/-- Modelled from the spec: `_KXKextRepositoryClearRelationships` (spec §6
`clearRelationships()`, §4.4 "freeing all chain links"): every kext of the
repository loses its `priorVersion` and `duplicateVersion` links. -/
def clearRelationships (r : Repository κ) (s : Manager ι κ) : Manager ι κ :=
  { s with
    priorVersion := fun k => if k ∈ r.kexts then none else s.priorVersion k
    duplicateVersion := fun k => if k ∈ r.kexts then none else s.duplicateVersion k }

/-- Modelled from the spec: `_KXKextRepositoryClearDependencyRelationships`
(spec §6 `clearDependencyRelationships()`, §4.3 step 3 "discard prior
dependency-resolution state"): every kext of the repository forgets its
resolved dependencies, so `hasAllDependencies` is false again. -/
def clearDependencyRelationships (r : Repository κ) (s : Manager ι κ) : Manager ι κ :=
  { s with kexts := fun k =>
      if k ∈ r.kexts then { s.kexts k with hasAllDependencies := false } else s.kexts k }

end Repository

namespace Manager

/-- Every kext of every repository. -/
def allKexts (s : Manager ι κ) : List κ :=
  s.repositoryList.list.flatMap Repository.kexts

/-- The loop "have each repository clear its kexts' relationships". -/
def clearRepositoryRelationships (s : Manager ι κ) : Manager ι κ :=
  s.repositoryList.list.foldl (fun s r => r.clearRelationships s) s

/-- The loop "have each repository clear its dependencies". -/
def clearRepositoryDependencies (s : Manager ι κ) : Manager ι κ :=
  s.repositoryList.list.foldl (fun s r => r.clearDependencyRelationships s) s

namespace Internal

/-- `__KXKextManagerClearRelationships`: the teardown.  Every link of every
repository's kexts, the candidate dictionary and the missing-dependency list
are dropped, and the structure is marked for recalculation. -/
def clearRelationships (s : Manager ι κ) : Manager ι κ :=
  let s := s.clearRepositoryRelationships
  { s with
    candidateKexts := ∅
    kextsWithMissingDependencies := []
    needsClearRelationships := false
    needsCalculateRelationships := true
    teardownCount := s.teardownCount + 1 }

/-- `__KXKextManagerClearDependencyRelationships`. -/
def clearDependencyRelationships (s : Manager ι κ) : Manager ι κ :=
  { s.clearRepositoryDependencies with kextsWithMissingDependencies := [] }

end Internal

/-- `KXKextManagerClearRelationships`: while clearing is disabled only mark
the request pending; otherwise tear down, then have each repository clear its
kexts' relationships once more. -/
def clearRelationships (s : Manager ι κ) : Manager ι κ :=
  if 0 < s.clearRelationshipsDisableCount.toInt then
    { s with needsClearRelationships := true, needsCalculateRelationships := true }
  else (Internal.clearRelationships s).clearRepositoryRelationships

/-- `KXKextManagerEnableClearRelationships`. -/
def enableClearRelationships (s : Manager ι κ) : Manager ι κ :=
  let s := if 0 < s.clearRelationshipsDisableCount.toInt then
      { s with clearRelationshipsDisableCount := s.clearRelationshipsDisableCount - 1 }
    else s
  if s.needsClearRelationships then s.clearRelationships else s

/-- `KXKextManagerDisableClearRelationships`. -/
def disableClearRelationships (s : Manager ι κ) : Manager ι κ :=
  { s with clearRelationshipsDisableCount := s.clearRelationshipsDisableCount + 1 }

/-! ### The repository loops in closed form -/

theorem foldl_clearRelationships (rs : List (Repository κ)) (s : Manager ι κ) :
    rs.foldl (fun s r => r.clearRelationships s) s =
      { s with
        priorVersion := fun k => if k ∈ rs.flatMap Repository.kexts then none
          else s.priorVersion k
        duplicateVersion := fun k => if k ∈ rs.flatMap Repository.kexts then none
          else s.duplicateVersion k } := by
  induction rs generalizing s with
  | nil => simp
  | cons r rs ih =>
      rw [List.foldl_cons, ih]
      simp only [Repository.clearRelationships, List.flatMap_cons, List.mem_append]
      congr 1 <;> funext k <;> by_cases h1 : k ∈ r.kexts <;> simp [h1]

theorem foldl_clearDependencyRelationships (rs : List (Repository κ)) (s : Manager ι κ) :
    rs.foldl (fun s r => r.clearDependencyRelationships s) s =
      { s with kexts := fun k => if k ∈ rs.flatMap Repository.kexts then
          { s.kexts k with hasAllDependencies := false } else s.kexts k } := by
  induction rs generalizing s with
  | nil => simp
  | cons r rs ih =>
      rw [List.foldl_cons, ih]
      simp only [Repository.clearDependencyRelationships, List.flatMap_cons, List.mem_append]
      congr 1; funext k; by_cases h1 : k ∈ r.kexts <;> simp [h1]

theorem clearRepositoryRelationships_eq (s : Manager ι κ) :
    s.clearRepositoryRelationships =
      { s with
        priorVersion := fun k => if k ∈ s.allKexts then none else s.priorVersion k
        duplicateVersion := fun k => if k ∈ s.allKexts then none else s.duplicateVersion k } :=
  foldl_clearRelationships _ _

theorem clearRepositoryDependencies_eq (s : Manager ι κ) :
    s.clearRepositoryDependencies =
      { s with kexts := fun k => if k ∈ s.allKexts then
          { s.kexts k with hasAllDependencies := false } else s.kexts k } :=
  foldl_clearDependencyRelationships _ _

namespace Internal

section Teardown

variable (s : Manager ι κ) (k : κ)

@[simp] theorem clearRelationships_priorVersion :
    (clearRelationships s).priorVersion k = if k ∈ s.allKexts then none else s.priorVersion k := by
  simp [clearRelationships, clearRepositoryRelationships_eq]

@[simp] theorem clearRelationships_duplicateVersion :
    (clearRelationships s).duplicateVersion k =
      if k ∈ s.allKexts then none else s.duplicateVersion k := by
  simp [clearRelationships, clearRepositoryRelationships_eq]

@[simp] theorem clearRelationships_candidateKexts : (clearRelationships s).candidateKexts = ∅ := by
  simp [clearRelationships, clearRepositoryRelationships_eq]

@[simp] theorem clearRelationships_kexts : (clearRelationships s).kexts = s.kexts := by
  simp [clearRelationships, clearRepositoryRelationships_eq]

@[simp] theorem clearRelationships_repositoryList :
    (clearRelationships s).repositoryList = s.repositoryList := by
  simp [clearRelationships, clearRepositoryRelationships_eq]

@[simp] theorem clearRelationships_safeBoot : (clearRelationships s).safeBoot = s.safeBoot := by
  simp [clearRelationships, clearRepositoryRelationships_eq]

@[simp] theorem clearRelationships_disableCount :
    (clearRelationships s).clearRelationshipsDisableCount = s.clearRelationshipsDisableCount := by
  simp [clearRelationships, clearRepositoryRelationships_eq]

@[simp] theorem clearRelationships_versionOf :
    (clearRelationships s).versionOf = s.versionOf := by
  funext k; simp [versionOf]

@[simp] theorem clearRelationships_identifierOf :
    (clearRelationships s).identifierOf = s.identifierOf := by
  funext k; simp [identifierOf]

@[simp] theorem clearRelationships_isCandidate :
    (clearRelationships s).isCandidate = s.isCandidate := by
  funext k; simp [isCandidate]

@[simp] theorem clearDependencyRelationships_priorVersion :
    (clearDependencyRelationships s).priorVersion = s.priorVersion := by
  simp [clearDependencyRelationships, clearRepositoryDependencies_eq]

@[simp] theorem clearDependencyRelationships_duplicateVersion :
    (clearDependencyRelationships s).duplicateVersion = s.duplicateVersion := by
  simp [clearDependencyRelationships, clearRepositoryDependencies_eq]

@[simp] theorem clearDependencyRelationships_candidateKexts :
    (clearDependencyRelationships s).candidateKexts = s.candidateKexts := by
  simp [clearDependencyRelationships, clearRepositoryDependencies_eq]

@[simp] theorem clearDependencyRelationships_repositoryList :
    (clearDependencyRelationships s).repositoryList = s.repositoryList := by
  simp [clearDependencyRelationships, clearRepositoryDependencies_eq]

@[simp] theorem clearDependencyRelationships_safeBoot :
    (clearDependencyRelationships s).safeBoot = s.safeBoot := by
  simp [clearDependencyRelationships, clearRepositoryDependencies_eq]

@[simp] theorem clearDependencyRelationships_disableCount :
    (clearDependencyRelationships s).clearRelationshipsDisableCount =
      s.clearRelationshipsDisableCount := by
  simp [clearDependencyRelationships, clearRepositoryDependencies_eq]

/-- Clearing dependencies touches only `hasAllDependencies`. -/
theorem clearDependencyRelationships_kexts :
    (clearDependencyRelationships s).kexts k =
      if k ∈ s.allKexts then { s.kexts k with hasAllDependencies := false } else s.kexts k := by
  simp [clearDependencyRelationships, clearRepositoryDependencies_eq]

@[simp] theorem clearDependencyRelationships_versionOf :
    (clearDependencyRelationships s).versionOf = s.versionOf := by
  funext k; unfold versionOf; rw [clearDependencyRelationships_kexts]; split_ifs <;> rfl

@[simp] theorem clearDependencyRelationships_identifierOf :
    (clearDependencyRelationships s).identifierOf = s.identifierOf := by
  funext k; unfold identifierOf; rw [clearDependencyRelationships_kexts]; split_ifs <;> rfl

@[simp] theorem clearDependencyRelationships_isCandidate :
    (clearDependencyRelationships s).isCandidate = s.isCandidate := by
  funext k; unfold isCandidate
  rw [clearDependencyRelationships_kexts, clearDependencyRelationships_safeBoot]; split_ifs <;> rfl

end Teardown

end Internal

/-! ### The gate -/

section Gate

variable (s : Manager ι κ)

/-- While clearing is disabled, a clear request only marks the structure
stale. -/
theorem clearRelationships_of_pos (h : 0 < s.clearRelationshipsDisableCount.toInt) :
    s.clearRelationships =
      { s with needsClearRelationships := true, needsCalculateRelationships := true } :=
  if_pos h

/-- At depth zero a clear request tears the structure down. -/
theorem clearRelationships_of_nonpos (h : ¬ 0 < s.clearRelationshipsDisableCount.toInt) :
    s.clearRelationships = (Internal.clearRelationships s).clearRepositoryRelationships :=
  if_neg h

@[simp] theorem clearRelationships_disableCount :
    s.clearRelationships.clearRelationshipsDisableCount = s.clearRelationshipsDisableCount := by
  unfold clearRelationships; split_ifs <;>
    simp [Internal.clearRelationships, clearRepositoryRelationships_eq]

@[simp] theorem clearRelationships_needsCalculateRelationships :
    s.clearRelationships.needsCalculateRelationships = true := by
  unfold clearRelationships; split_ifs <;>
    simp [Internal.clearRelationships, clearRepositoryRelationships_eq]

@[simp] theorem clearRelationships_needsClearRelationships :
    s.clearRelationships.needsClearRelationships =
      decide (0 < s.clearRelationshipsDisableCount.toInt) := by
  unfold clearRelationships; split_ifs with h <;>
    simp [Internal.clearRelationships, clearRepositoryRelationships_eq, h]

@[simp] theorem clearRelationships_teardownCount :
    s.clearRelationships.teardownCount =
      if 0 < s.clearRelationshipsDisableCount.toInt then s.teardownCount else s.teardownCount + 1 := by
  unfold clearRelationships; split_ifs <;>
    simp [Internal.clearRelationships, clearRepositoryRelationships_eq]

@[simp] theorem clearRelationships_kexts : s.clearRelationships.kexts = s.kexts := by
  unfold clearRelationships; split_ifs <;>
    simp [Internal.clearRelationships, clearRepositoryRelationships_eq]

@[simp] theorem clearRelationships_repositoryList :
    s.clearRelationships.repositoryList = s.repositoryList := by
  unfold clearRelationships; split_ifs <;>
    simp [Internal.clearRelationships, clearRepositoryRelationships_eq]

@[simp] theorem clearRelationships_safeBoot : s.clearRelationships.safeBoot = s.safeBoot := by
  unfold clearRelationships; split_ifs <;>
    simp [Internal.clearRelationships, clearRepositoryRelationships_eq]

omit [DecidableEq κ] in
@[simp] theorem disableClearRelationships_disableCount :
    s.disableClearRelationships.clearRelationshipsDisableCount =
      s.clearRelationshipsDisableCount + 1 := rfl

@[simp] theorem enableClearRelationships_disableCount :
    s.enableClearRelationships.clearRelationshipsDisableCount =
      if 0 < s.clearRelationshipsDisableCount.toInt then s.clearRelationshipsDisableCount - 1
      else s.clearRelationshipsDisableCount := by
  unfold enableClearRelationships; split_ifs <;> simp [apply_ite]

omit [DecidableEq κ] in
/-- A disable below `INT_MAX` counts one more. -/
theorem disableClearRelationships_toInt (h : s.clearRelationshipsDisableCount.toInt + 1 < 2 ^ 31) :
    s.disableClearRelationships.clearRelationshipsDisableCount.toInt =
      s.clearRelationshipsDisableCount.toInt + 1 :=
  toInt_add_one h

/-- An enable counts one less from a positive count, and nothing otherwise. -/
theorem enableClearRelationships_toInt :
    s.enableClearRelationships.clearRelationshipsDisableCount.toInt =
      if 0 < s.clearRelationshipsDisableCount.toInt then s.clearRelationshipsDisableCount.toInt - 1
      else s.clearRelationshipsDisableCount.toInt := by
  rw [enableClearRelationships_disableCount]; split_ifs with h
  · exact toInt_sub_one h
  · rfl

@[simp] theorem enableClearRelationships_kexts : s.enableClearRelationships.kexts = s.kexts := by
  dsimp only [enableClearRelationships]; split_ifs <;> simp

@[simp] theorem enableClearRelationships_repositoryList :
    s.enableClearRelationships.repositoryList = s.repositoryList := by
  dsimp only [enableClearRelationships]; split_ifs <;> simp

@[simp] theorem enableClearRelationships_safeBoot :
    s.enableClearRelationships.safeBoot = s.safeBoot := by
  dsimp only [enableClearRelationships]; split_ifs <;> simp

theorem teardownCount_le_clearRelationships :
    s.teardownCount ≤ s.clearRelationships.teardownCount := by
  rw [clearRelationships_teardownCount]; split_ifs <;> omega

theorem teardownCount_le_enableClearRelationships :
    s.teardownCount ≤ s.enableClearRelationships.teardownCount := by
  have key : ∀ t : Manager ι κ, t.teardownCount = s.teardownCount →
      s.teardownCount ≤ (if t.needsClearRelationships then t.clearRelationships else t).teardownCount :=
    fun t ht => by
      split_ifs
      · exact ht ▸ teardownCount_le_clearRelationships t
      · exact ht.ge
  exact key _ (by split_ifs <;> rfl)

/-- Re-enabling with no clear pending tears nothing down. -/
theorem enableClearRelationships_teardownCount_of_not_needsClear
    (h : s.needsClearRelationships = false) :
    s.enableClearRelationships.teardownCount = s.teardownCount := by
  dsimp only [enableClearRelationships]; split_ifs <;> simp_all

/-- Re-enabling keeps a pending clear pending exactly when the count stays
positive. -/
theorem enableClearRelationships_needsClearRelationships :
    s.enableClearRelationships.needsClearRelationships =
      (s.needsClearRelationships &&
        decide (0 < s.enableClearRelationships.clearRelationshipsDisableCount.toInt)) := by
  rw [enableClearRelationships_disableCount]
  dsimp only [enableClearRelationships]
  split_ifs <;> simp_all

/-- Re-enabling tears down once when a clear is pending and the count it
leaves is not positive. -/
theorem enableClearRelationships_teardownCount :
    s.enableClearRelationships.teardownCount = s.teardownCount +
      if s.needsClearRelationships = true ∧
        ¬ 0 < s.enableClearRelationships.clearRelationshipsDisableCount.toInt then 1 else 0 := by
  rw [enableClearRelationships_disableCount]
  dsimp only [enableClearRelationships]
  split_ifs <;> simp_all

/-- Re-enabling leaves the structure stale if it was, or if a clear was
pending. -/
@[simp] theorem enableClearRelationships_needsCalculateRelationships :
    s.enableClearRelationships.needsCalculateRelationships =
      (s.needsClearRelationships || s.needsCalculateRelationships) := by
  dsimp only [enableClearRelationships]; split_ifs <;> simp_all

end Gate

end Manager

end KextManager
