/-
KextManager/Basic.lean

The data model of `KXKextManager.c`: the result codes, the kernel extensions
("kexts") as the manager reads them through the `KXKext` accessors, the
repositories that own them, and the manager record `__KXKextManager`.

Kexts are handles, the elements of a finite type `κ`: the heap of module
objects of one run.  A repository carries its own handle, the
`KXKextRepositoryRef` the manager compares by pointer.  The two links a kext
carries, `priorVersion` and `duplicateVersion`, are stored as two maps on the
manager rather than inside the kext records; every other field the manager
reads or writes stays in the record `Kext`.  Bundle identifiers range over a
type `ι` with decidable equality, and `candidateKexts` (a
`CFMutableDictionary`) is an `AList`.  The
`int` `clearRelationshipsDisableCount` is a `BitVec 32` read as signed with
`toInt`, wrapping as the machine does; `toInt_add_one` and `toInt_sub_one` say
when the machine's step is the exact one.

One field is not in the C struct: `teardownCount` counts the calls of
`__KXKextManagerClearRelationships`, so that statements about when the chain
structure is torn down can be made.  No modelled function reads it.
-/
import Mathlib.Data.List.AList
import Mathlib.Data.Fintype.Card

namespace KextManager

/-! ### Result codes -/

/-- `KXKextManagerError`, the result of every fallible manager call. -/
inductive KXKextManagerError where
  | none | unspecified | invalidArgument | noMemory | fileAccess | notADirectory
  | diskFull | serialization | compression | ipc | childTask | userAbort
  | kernelResource | kernelPermission | kextNotFound | urlNotInRepository
  | notABundle | notAKext | validation | bootLevel | disabled | authentication
  | dependency | dependencyLoop | cache | alreadyLoaded | loadedVersionDiffers
  | dependencyLoadedVersionDiffers | loadExecutableBad | loadExecutableNoArch
  | linkLoad
  deriving DecidableEq, Repr

/-- Whether `CFStringGetCString` can copy `s` in UTF-8 into a buffer of
`bufferSize` bytes: its bytes and the terminating NUL must fit. -/
def cStringFits (bufferSize : Nat) (s : String) : Bool :=
  decide (s.utf8ByteSize < bufferSize)

/-! ### Kexts and repositories -/

/-- The fields of a kext that the manager reads or writes, links apart. -/
structure Kext (ι : Type) where
  bundleIdentifier : ι
  /-- `_KXKextGetVersion`: the parsed `VERS_version`. -/
  version : Int
  isValid : Bool
  isEnabled : Bool
  isEligibleDuringSafeBoot : Bool
  loadFailed : Bool
  isLoaded : Bool
  otherVersionIsLoaded : Bool
  isAuthentic : Bool
  hasAllDependencies : Bool
  startAddress : Nat
  deriving DecidableEq, Repr

/-- A repository: the object (`handle`), and the kexts it found, split into
candidates and bad kexts (validation or authentication failures). -/
structure Repository (κ : Type) where
  handle : Nat
  candidateKexts : List κ
  badKexts : List κ
  deriving DecidableEq, Repr

/-- Every kext a repository holds. -/
def Repository.kexts {κ : Type} (r : Repository κ) : List κ :=
  r.candidateKexts ++ r.badKexts

/-- The manager's `repositoryList`.  A kext object belongs to the one
repository that created it and is listed there once (`nodup`), and each
repository object is in the array once (`handles_nodup`). -/
structure Repositories (κ : Type) where
  list : List (Repository κ)
  nodup : (list.flatMap Repository.kexts).Nodup
  handles_nodup : (list.map Repository.handle).Nodup

/-- Two repositories of the list with one handle are one repository. -/
theorem Repositories.eq_of_handle_eq {κ : Type} (rs : Repositories κ) {r r' : Repository κ}
    (hr : r ∈ rs.list) (hr' : r' ∈ rs.list) (h : r.handle = r'.handle) : r = r' :=
  List.inj_on_of_nodup_map rs.handles_nodup hr hr' h

/-! ### The `int` counter -/

theorem toInt_bounds (x : BitVec 32) : -2 ^ 31 ≤ x.toInt ∧ x.toInt < 2 ^ 31 := by
  have := x.isLt
  rw [BitVec.toInt_eq_toNat_cond]; split_ifs <;> omega

/-- An increment that stays below `2^31` is exact. -/
theorem toInt_add_one {x : BitVec 32} (h : x.toInt + 1 < 2 ^ 31) : (x + 1).toInt = x.toInt + 1 := by
  have := toInt_bounds x
  rw [BitVec.toInt_add, show (1 : BitVec 32).toInt = 1 from rfl, Int.bmod_def]
  split_ifs <;> omega

/-- A decrement of a positive value is exact. -/
theorem toInt_sub_one {x : BitVec 32} (h : 0 < x.toInt) : (x - 1).toInt = x.toInt - 1 := by
  have := toInt_bounds x
  rw [BitVec.toInt_sub, show (1 : BitVec 32).toInt = 1 from rfl, Int.bmod_def]
  split_ifs <;> omega

/-! ### The manager -/

/-- `__KXKextManager`, without the logging hooks and the receipts array, which
no modelled function reads. -/
structure Manager (ι κ : Type) where
  repositoryList : Repositories κ
  kexts : κ → Kext ι
  /-- `_KXKextGetPriorVersionKext` of every kext. -/
  priorVersion : κ → Option κ
  /-- `KXKextGetDuplicateVersionKext` of every kext. -/
  duplicateVersion : κ → Option κ
  candidateKexts : AList (fun _ : ι => κ)
  kextsWithMissingDependencies : List κ
  clearRelationshipsDisableCount : BitVec 32
  needsClearRelationships : Bool
  needsCalculateRelationships : Bool
  performsFullTests : Bool
  performLoadsInTask : Bool
  safeBoot : Bool
  /-- Ghost: calls of `__KXKextManagerClearRelationships` so far. -/
  teardownCount : Nat

namespace Manager

variable {ι κ : Type} [DecidableEq κ]

/-- The candidate kexts of all repositories, in repository order and then in
each repository's order: the traversal order of the version-chain builder. -/
def candidateList (s : Manager ι κ) : List κ :=
  s.repositoryList.list.flatMap Repository.candidateKexts

omit [DecidableEq κ] in
theorem candidateList_nodup (s : Manager ι κ) : s.candidateList.Nodup := by
  have h := List.nodup_flatMap.mp s.repositoryList.nodup
  refine List.nodup_flatMap.mpr ⟨fun r hr => (h.1 r hr).sublist (List.sublist_append_left _ _),
    h.2.imp fun hd => ?_⟩
  exact fun x hx hy => hd (List.mem_append_left _ hx) (List.mem_append_left _ hy)

/-- The version of a kext. -/
def versionOf (s : Manager ι κ) (k : κ) : Int := (s.kexts k).version

/-- The bundle identifier of a kext. -/
def identifierOf (s : Manager ι κ) (k : κ) : ι := (s.kexts k).bundleIdentifier

/-- The four tests by which `KXKextManagerCalculateVersionRelationships` skips
a kext known to be unloadable, as one predicate: valid, not failed to load,
eligible during safe boot when the manager is in safe boot, and enabled. -/
def isCandidate (s : Manager ι κ) (k : κ) : Bool :=
  (s.kexts k).isValid && !(s.kexts k).loadFailed &&
    (!s.safeBoot || (s.kexts k).isEligibleDuringSafeBoot) && (s.kexts k).isEnabled

/-- `_KXKextSetPriorVersionKext`. -/
def setPriorVersionKext (s : Manager ι κ) (k : κ) (p : Option κ) : Manager ι κ :=
  { s with priorVersion := Function.update s.priorVersion k p }

/-- `_KXKextSetDuplicateVersionKext`. -/
def setDuplicateVersionKext (s : Manager ι κ) (k : κ) (d : Option κ) : Manager ι κ :=
  { s with duplicateVersion := Function.update s.duplicateVersion k d }

/-- Rewrite the record of one kext (the `_KXKextSet...` flag setters). -/
def modifyKext (s : Manager ι κ) (k : κ) (f : Kext ι → Kext ι) : Manager ι κ :=
  { s with kexts := Function.update s.kexts k (f (s.kexts k)) }

/-- `CFArrayAppendValue(kextsWithMissingDependencies, k)`. -/
def appendMissing (s : Manager ι κ) (k : κ) : Manager ι κ :=
  { s with kextsWithMissingDependencies := s.kextsWithMissingDependencies ++ [k] }

/-- The manager with its two link maps forgotten. -/
def withoutLinks (s : Manager ι κ) : Manager ι κ :=
  { s with priorVersion := fun _ => none, duplicateVersion := fun _ => none }

/-- The manager with its chain structure, the two link maps and the candidate
dictionary, forgotten: what the builder leaves alone. -/
def withoutChains (s : Manager ι κ) : Manager ι κ :=
  { s.withoutLinks with candidateKexts := ∅ }

section Simp

variable (s : Manager ι κ) (k m : κ)

@[simp] theorem setPriorVersionKext_priorVersion (p : Option κ) :
    (s.setPriorVersionKext k p).priorVersion m = if m = k then p else s.priorVersion m := by
  simp [setPriorVersionKext, Function.update_apply]

@[simp] theorem setDuplicateVersionKext_duplicateVersion (d : Option κ) :
    (s.setDuplicateVersionKext k d).duplicateVersion m =
      if m = k then d else s.duplicateVersion m := by
  simp [setDuplicateVersionKext, Function.update_apply]

@[simp] theorem setPriorVersionKext_duplicateVersion (p : Option κ) :
    (s.setPriorVersionKext k p).duplicateVersion = s.duplicateVersion := rfl

@[simp] theorem setDuplicateVersionKext_priorVersion (d : Option κ) :
    (s.setDuplicateVersionKext k d).priorVersion = s.priorVersion := rfl

@[simp] theorem setPriorVersionKext_candidateKexts (p : Option κ) :
    (s.setPriorVersionKext k p).candidateKexts = s.candidateKexts := rfl

@[simp] theorem setPriorVersionKext_identifierOf (p : Option κ) :
    (s.setPriorVersionKext k p).identifierOf = s.identifierOf := rfl

@[simp] theorem setPriorVersionKext_versionOf (p : Option κ) :
    (s.setPriorVersionKext k p).versionOf = s.versionOf := rfl

@[simp] theorem withoutLinks_setPriorVersionKext (p : Option κ) :
    (s.setPriorVersionKext k p).withoutLinks = s.withoutLinks := rfl

@[simp] theorem withoutLinks_setDuplicateVersionKext (d : Option κ) :
    (s.setDuplicateVersionKext k d).withoutLinks = s.withoutLinks := rfl

@[simp] theorem setPriorVersionKext_kexts (p : Option κ) :
    (s.setPriorVersionKext k p).kexts = s.kexts := rfl

@[simp] theorem setPriorVersionKext_kextsWithMissingDependencies (p : Option κ) :
    (s.setPriorVersionKext k p).kextsWithMissingDependencies = s.kextsWithMissingDependencies := rfl

@[simp] theorem setDuplicateVersionKext_candidateKexts (d : Option κ) :
    (s.setDuplicateVersionKext k d).candidateKexts = s.candidateKexts := rfl

@[simp] theorem setDuplicateVersionKext_kexts (d : Option κ) :
    (s.setDuplicateVersionKext k d).kexts = s.kexts := rfl

@[simp] theorem setDuplicateVersionKext_kextsWithMissingDependencies (d : Option κ) :
    (s.setDuplicateVersionKext k d).kextsWithMissingDependencies =
      s.kextsWithMissingDependencies := rfl

omit [DecidableEq κ] in
@[simp] theorem appendMissing_priorVersion : (s.appendMissing k).priorVersion = s.priorVersion := rfl

omit [DecidableEq κ] in
@[simp] theorem appendMissing_duplicateVersion :
    (s.appendMissing k).duplicateVersion = s.duplicateVersion := rfl

omit [DecidableEq κ] in
@[simp] theorem appendMissing_candidateKexts :
    (s.appendMissing k).candidateKexts = s.candidateKexts := rfl

omit [DecidableEq κ] in
@[simp] theorem appendMissing_kexts : (s.appendMissing k).kexts = s.kexts := rfl

omit [DecidableEq κ] in
@[simp] theorem appendMissing_kextsWithMissingDependencies :
    (s.appendMissing k).kextsWithMissingDependencies = s.kextsWithMissingDependencies ++ [k] := rfl

@[simp] theorem modifyKext_kexts (f : Kext ι → Kext ι) :
    (s.modifyKext k f).kexts m = if m = k then f (s.kexts k) else s.kexts m := by
  simp [modifyKext, Function.update_apply]

end Simp

end Manager

end KextManager
