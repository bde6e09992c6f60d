/-
KextManager/RepositoryList.lean

The repository list: the two lookups by URL,
`KXKextManagerGetRepositoryForDirectory` and `KXKextManagerGetRepositoryWithURL`,
and the removal loop of `_KXKextManagerRemoveRepository` behind
`KXKextManagerRemoveRepositoryDirectory`.

URLs are a type `υ` with the equality `CFEqual` tests.  The URL functions the
lookups call are external and given as inputs: `PATH_CopyCanonicalizedURL`
(`copyCanonicalizedURL`), `CFURLCopyFileSystemPath` (`copyFileSystemPath`) and
`KXKextRepositoryCopyURL` (`copyURL`), each none when it fails.  The two lookups
share their search (`findRepositoryWithURL`) and differ in the URL they search
for: the directory lookup searches for the canonical form it computed, the URL
lookup for its argument (`getRepositoryWithURL_eq`).

The removal loop is modelled with its index arithmetic over the array's
entries, the repository objects (their handles): `i` counts down from the
array's count, the entry at `i - 1` is read and removed if it is the
repository, and the loop stops after index `0`; a read outside the array makes
the result none.  Main result: from a list holding the repository every read
is inside the array and the loop leaves the list filtered
(`removeRepositoryLoop_eq_filter`), which is the removal `Window.lean` models.

`KXKextManagerGetRepositoryForKextWithURL` tries the kext's parent directory
and then, for a kext inside another kext's `PlugIns` directory, the directory
holding that kext.  It finds that directory by string surgery on the path
(`pluginRepositoryPath`), modelled on lists of characters: CFString indices
count UTF-16 units, which are characters for every path in the Basic
Multilingual Plane.  The cut gives back the directory of every path built as a
plug-in directory, and only those (`pluginRepositoryPath_eq_some_iff`).
-/
import KextManager.Window

namespace KextManager

variable {ι κ υ ρ : Type}

/-! ### The removal loop -/

section RemoveLoop

variable [DecidableEq ρ]

/-- The loop of `_KXKextManagerRemoveRepository`, `i` the index before its
decrement: read the entry at `i - 1` (`CFArrayGetValueAtIndex`, none outside
the array, as at `-1`), remove it if it is `aRepository`
(`CFArrayRemoveValueAtIndex`), and stop after index `0`. -/
def removeRepositoryLoop (aRepository : ρ) : Nat → List ρ → Option (List ρ)
  | 0, _ => none
  | i + 1, l =>
      match l[i]? with
      | none => none
      | some thisRepository =>
          let l := if thisRepository = aRepository then l.eraseIdx i else l
          if i = 0 then some l else removeRepositoryLoop aRepository i l

variable (r : ρ) (L : List ρ)

/-- The array while the loop is at index `i`: the entries below `i` as they
were, those from `i` on with `r` removed. -/
def removedFrom (i : Nat) : List ρ :=
  L.take i ++ (L.drop i).filter (fun x => x != r)

@[simp] theorem removedFrom_zero : removedFrom r L 0 = L.filter (fun x => x != r) := by
  simp [removedFrom]

theorem removedFrom_length : removedFrom r L L.length = L := by
  simp [removedFrom]

variable {r L}

/-- At index `i` the loop reads the original entry. -/
theorem removedFrom_getElem? {i : Nat} (hi : i < L.length) :
    (removedFrom r L (i + 1))[i]? = some L[i] := by
  rw [removedFrom, List.getElem?_append_left (by simp; omega), List.getElem?_take,
    if_pos (Nat.lt_succ_self i), List.getElem?_eq_getElem hi]

/-- One iteration moves the loop from index `i + 1` to index `i`. -/
theorem removedFrom_step {i : Nat} (hi : i < L.length) :
    (if L[i] = r then (removedFrom r L (i + 1)).eraseIdx i else removedFrom r L (i + 1)) =
      removedFrom r L i := by
  have htake : L.take (i + 1) = L.take i ++ [L[i]] := by
    rw [List.take_succ, List.getElem?_eq_getElem hi]; rfl
  have hlen : (L.take i).length = i := by simp; omega
  have hdrop := List.drop_eq_getElem_cons hi
  unfold removedFrom
  rw [htake, List.append_assoc, hdrop]
  by_cases h : L[i] = r
  · rw [if_pos h, List.eraseIdx_append_of_length_le hlen.le, hlen, Nat.sub_self]
    simp [h]
  · rw [if_neg h, List.filter_cons_of_pos (by simpa using h)]; rfl

/-- From index `i + 1` down, every read is inside the array and the loop ends
with `r` removed everywhere. -/
theorem removeRepositoryLoop_removedFrom :
    ∀ {i : Nat}, i < L.length → removeRepositoryLoop r (i + 1) (removedFrom r L (i + 1)) =
      some (L.filter (fun x => x != r))
  | 0, hi => by
      rw [removeRepositoryLoop, removedFrom_getElem? hi]
      simp only [removedFrom_step hi, removedFrom_zero, if_true]
  | i + 1, hi => by
      rw [removeRepositoryLoop, removedFrom_getElem? hi]
      simp only [removedFrom_step hi, Nat.add_one_ne_zero, if_false]
      exact removeRepositoryLoop_removedFrom (by omega)

/-- From a nonempty list the loop reads only entries of the array and removes
`r` everywhere. -/
theorem removeRepositoryLoop_of_ne_nil (hL : L ≠ []) :
    removeRepositoryLoop r L.length L = some (L.filter (fun x => x != r)) := by
  obtain ⟨i, hi⟩ : ∃ i, L.length = i + 1 :=
    Nat.exists_eq_succ_of_ne_zero (mt List.eq_nil_of_length_eq_zero hL)
  have := removeRepositoryLoop_removedFrom (r := r) (L := L) (i := i) (by omega)
  rwa [← hi, removedFrom_length] at this

/-- **The removal loop.**  From a list holding `r`, the loop of
`_KXKextManagerRemoveRepository` reads only entries of the array (the result
is not none) and leaves the list with every occurrence of `r` removed, the
other entries in their order. -/
theorem removeRepositoryLoop_eq_filter (r : ρ) (L : List ρ) (h : r ∈ L) :
    removeRepositoryLoop r L.length L = some (L.filter (fun x => x != r)) :=
  removeRepositoryLoop_of_ne_nil (List.ne_nil_of_mem h)

theorem removeRepositoryLoop_eq_filter_example :
    1 ∈ [1, 2, 1, 1] ∧
      removeRepositoryLoop 1 [1, 2, 1, 1].length [1, 2, 1, 1] =
        some ([1, 2, 1, 1].filter (fun x => x != 1)) :=
  ⟨by decide, removeRepositoryLoop_eq_filter 1 [1, 2, 1, 1] (by decide)⟩

/-- From an empty list the loop's first read is at index `-1`. -/
theorem removeRepositoryLoop_nil (r : ρ) : removeRepositoryLoop r 0 [] = none := rfl

end RemoveLoop

/-! ### The lookups by URL -/

section Lookups

variable [DecidableEq υ] (copyURL : Repository κ → Option υ)

/-- The search of both lookups: the first repository whose URL, copied with
`KXKextRepositoryCopyURL`, equals `url`; a failed copy ends the search. -/
def findRepositoryWithURL (url : υ) : List (Repository κ) → Option (Repository κ)
  | [] => none
  | checkRepository :: rs =>
      match copyURL checkRepository with
      | none => none
      | some checkURL =>
          if url = checkURL then some checkRepository else findRepositoryWithURL url rs

theorem findRepositoryWithURL_mem {url : υ} :
    ∀ {rs : List (Repository κ)} {r : Repository κ}, findRepositoryWithURL copyURL url rs = some r →
      r ∈ rs
  | [], _, h => absurd h (by simp [findRepositoryWithURL])
  | r' :: rs, r, h => by
      unfold findRepositoryWithURL at h
      split at h
      · exact absurd h (by simp)
      · split_ifs at h
        · exact Option.some.inj h ▸ List.mem_cons_self _ _
        · exact List.mem_cons_of_mem _ (findRepositoryWithURL_mem h)

namespace Manager

variable (copyCanonicalizedURL : υ → Option υ) (copyFileSystemPath : υ → Option String)

/-- `KXKextManagerGetRepositoryForDirectory`: search for the canonical form of
the directory's URL. -/
def getRepositoryForDirectory (s : Manager ι κ) (aDirectory : υ) : Option (Repository κ) :=
  match copyCanonicalizedURL aDirectory with
  | none => none
  | some canonicalURL => findRepositoryWithURL copyURL canonicalURL s.repositoryList.list

/-- `KXKextManagerGetRepositoryWithURL`: compute the canonical form and its
file-system path, then search for the URL it was given. -/
def getRepositoryWithURL (s : Manager ι κ) (anURL : υ) : Option (Repository κ) :=
  match copyCanonicalizedURL anURL with
  | none => none
  | some canonicalURL =>
      match copyFileSystemPath canonicalURL with
      | none => none
      | some _ => findRepositoryWithURL copyURL anURL s.repositoryList.list

/-- What the URL lookup searches for: its argument, whenever the canonical
form and its path can be made, where the directory lookup searches for the
canonical form.  So the two agree on a URL that is its own canonical form,
and may differ on any other. -/
theorem getRepositoryWithURL_eq (s : Manager ι κ) {anURL canonicalURL : υ} {path : String}
    (hc : copyCanonicalizedURL anURL = some canonicalURL)
    (hp : copyFileSystemPath canonicalURL = some path) :
    s.getRepositoryWithURL copyURL copyCanonicalizedURL copyFileSystemPath anURL =
        findRepositoryWithURL copyURL anURL s.repositoryList.list ∧
      s.getRepositoryForDirectory copyURL copyCanonicalizedURL anURL =
        findRepositoryWithURL copyURL canonicalURL s.repositoryList.list := by
  simp [getRepositoryWithURL, getRepositoryForDirectory, hc, hp]

/-- On `sameVersionPair`, whose repository has the URL `0`, the URL `10`, whose
canonical form is `0`: the URL lookup searches for `10`, the directory lookup
for `0`. -/
theorem getRepositoryWithURL_eq_sameVersionPair :
    (fun u : Nat => some (u % 10)) 10 = some 0 ∧ (fun _ : Nat => some "") 0 = some "" ∧
      sameVersionPair.getRepositoryWithURL (fun r => some r.handle) (fun u => some (u % 10))
          (fun _ => some "") 10 =
        findRepositoryWithURL (fun r => some r.handle) 10 sameVersionPair.repositoryList.list ∧
      sameVersionPair.getRepositoryForDirectory (fun r => some r.handle) (fun u => some (u % 10)) 10 =
        findRepositoryWithURL (fun r => some r.handle) 0 sameVersionPair.repositoryList.list :=
  ⟨rfl, rfl, getRepositoryWithURL_eq (fun r => some r.handle) (fun u => some (u % 10)) (fun _ => some "")
    sameVersionPair rfl rfl⟩

variable [DecidableEq κ]

omit [DecidableEq υ] in
@[simp] theorem removeRepository_repositoryList (s : Manager ι κ)
    (r : Repository κ) :
    (s.removeRepository r).repositoryList.list =
      s.repositoryList.list.filter (fun x => x.handle != r.handle) := by
  simp [removeRepository, Repositories.remove]

/-- `KXKextManagerRemoveRepositoryDirectory`: look the directory's repository
up and remove it. -/
def removeRepositoryDirectory (s : Manager ι κ) (directoryURL : υ) : Manager ι κ :=
  match s.getRepositoryForDirectory copyURL copyCanonicalizedURL directoryURL with
  | none => s
  | some foundRepository => s.removeRepository foundRepository

/-- **The removal a directory asks for is the loop's.**  The repository found
for the directory is in the list, so the loop of `_KXKextManagerRemoveRepository`
over the array of repository objects reads only entries of the array and leaves
the objects of the repositories that `removeRepository` keeps. -/
theorem removeRepositoryDirectory_loop (s : Manager ι κ) {directoryURL : υ}
    {foundRepository : Repository κ}
    (h : s.getRepositoryForDirectory copyURL copyCanonicalizedURL directoryURL =
      some foundRepository) :
    removeRepositoryLoop foundRepository.handle (s.repositoryList.list.map Repository.handle).length
        (s.repositoryList.list.map Repository.handle) =
        some ((s.removeRepository foundRepository).repositoryList.list.map Repository.handle) ∧
      s.removeRepositoryDirectory copyURL copyCanonicalizedURL directoryURL =
        s.removeRepository foundRepository := by
  have hmem : foundRepository ∈ s.repositoryList.list := by
    unfold getRepositoryForDirectory at h
    split at h
    · exact absurd h (by simp)
    · exact findRepositoryWithURL_mem copyURL h
  have hf : (s.repositoryList.list.filter (fun x => x.handle != foundRepository.handle)).map
      Repository.handle = (s.repositoryList.list.map Repository.handle).filter
        (· != foundRepository.handle) := by
    rw [List.filter_map]; rfl
  rw [removeRepository_repositoryList, hf]
  exact ⟨removeRepositoryLoop_of_ne_nil (List.ne_nil_of_mem (List.mem_map_of_mem _ hmem)),
    by simp [removeRepositoryDirectory, h]⟩

/-- The directory `10` of `sameVersionPair`, whose canonical form `0` is the URL
of its one repository. -/
theorem removeRepositoryDirectory_loop_sameVersionPair :
    sameVersionPair.getRepositoryForDirectory (fun r => some r.handle) (fun u => some (u % 10)) 10 =
        some ⟨0, [0, 1], []⟩ ∧
      removeRepositoryLoop (⟨0, [0, 1], []⟩ : Repository (Fin 2)).handle
          (sameVersionPair.repositoryList.list.map Repository.handle).length
          (sameVersionPair.repositoryList.list.map Repository.handle) =
        some ((sameVersionPair.removeRepository ⟨0, [0, 1], []⟩).repositoryList.list.map
          Repository.handle) ∧
      sameVersionPair.removeRepositoryDirectory (fun r => some r.handle) (fun u => some (u % 10)) 10 =
        sameVersionPair.removeRepository ⟨0, [0, 1], []⟩ :=
  have h : sameVersionPair.getRepositoryForDirectory (fun r => some r.handle) (fun u => some (u % 10)) 10 =
      some ⟨0, [0, 1], []⟩ := rfl
  ⟨h, removeRepositoryDirectory_loop (fun r => some r.handle) (fun u => some (u % 10)) sameVersionPair h⟩

end Manager

end Lookups

/-- A URL with a trailing slash, whose canonical form drops it, and one
repository whose URL is the canonical form: the directory lookup finds the
repository, the URL lookup does not. -/
theorem getRepositoryWithURL_compares_argument :
    sameVersionPair.getRepositoryForDirectory (fun _ => some "/System/Library/Extensions")
        (fun u => some (if u = "/System/Library/Extensions/" then "/System/Library/Extensions" else u))
        "/System/Library/Extensions/" = some ⟨0, [0, 1], []⟩ ∧
      sameVersionPair.getRepositoryWithURL (fun _ => some "/System/Library/Extensions")
        (fun u => some (if u = "/System/Library/Extensions/" then "/System/Library/Extensions" else u))
        some "/System/Library/Extensions/" = none :=
  ⟨by decide, by decide⟩

/-! ### The repository for a kext's URL -/

/-- `KEXT_PLUGIN_SUBPATH`. -/
def kextPluginSubpath : List Char := ".kext/Contents/PlugIns".toList

/-- `CFStringFindWithOptions` with `kCFCompareBackwards` for the character `c`
in the range `[0, n)` of `s`: the last index below `n` that holds `c`. -/
def findBackwards (c : Char) (s : List Char) : Nat → Option Nat
  | 0 => none
  | i + 1 => if s[i]? = some c then some i else findBackwards c s i

/-- The directory `KXKextManagerGetRepositoryForKextWithURL` tries second, from
the path of the kext's parent directory: a path ending in
`KEXT_PLUGIN_SUBPATH` is cut at the last `/` before it, so that the kext is
looked up as a plug-in of the kext named there.  None when no `/` comes before
it, or when `CFStringCreateWithSubstring` fails. -/
def pluginRepositoryPath (scratchString : List Char) (substringCreated : Bool) : Option (List Char) :=
  if kextPluginSubpath.isSuffixOf scratchString then
    match findBackwards '/' scratchString (scratchString.length - kextPluginSubpath.length) with
    | none => none
    | some location => if substringCreated then some (scratchString.take location) else none
  else some scratchString

/-- The external calls of `KXKextManagerGetRepositoryForKextWithURL` besides
the URL functions of the lookups. -/
structure KextURLFunctions (υ : Type) where
  copyPathExtension : υ → Option String
  createCopyDeletingLastPathComponent : υ → Option υ
  /-- `CFURLCreateWithFileSystemPath` of a POSIX path, as a directory. -/
  createWithFileSystemPath : String → Option υ
  substringCreated : Bool

section KextURL

variable [DecidableEq υ] (copyURL : Repository κ → Option υ) (copyCanonicalizedURL : υ → Option υ)
  (copyFileSystemPath : υ → Option String)

/-- `KXKextManagerGetRepositoryForKextWithURL`: for a URL with the extension
`kext`, the repository registered under its parent directory, or else, when
that directory is a kext's `PlugIns` directory, under the directory holding
that kext.  Both searches are `KXKextManagerGetRepositoryWithURL`. -/
def Manager.getRepositoryForKextWithURL (f : KextURLFunctions υ) (s : Manager ι κ) (anURL : υ) :
    Option (Repository κ) :=
  match f.copyPathExtension anURL with
  | none => none
  | some scratchString =>
      if scratchString ≠ "kext" then none
      else
        match copyCanonicalizedURL anURL with
        | none => none
        | some absURL =>
            match f.createCopyDeletingLastPathComponent absURL with
            | none => none
            | some absURL =>
                match s.getRepositoryWithURL copyURL copyCanonicalizedURL copyFileSystemPath absURL with
                | some foundRepository => some foundRepository
                | none =>
                    match copyFileSystemPath absURL with
                    | none => none
                    | some scratchString =>
                        match pluginRepositoryPath scratchString.toList f.substringCreated with
                        | none => none
                        | some path =>
                            match f.createWithFileSystemPath (String.mk path) with
                            | none => none
                            | some scratchURL =>
                                match copyCanonicalizedURL scratchURL with
                                | none => none
                                | some absURL =>
                                    s.getRepositoryWithURL copyURL copyCanonicalizedURL copyFileSystemPath
                                      absURL

end KextURL

/-- The backward search finds `i` exactly when `s` holds `c` at `i` and at no
index between `i` and `n`. -/
theorem findBackwards_eq_some_iff (c : Char) (s : List Char) {i : Nat} : ∀ {n : Nat},
    findBackwards c s n = some i ↔ i < n ∧ s[i]? = some c ∧ ∀ j, i < j → j < n → s[j]? ≠ some c
  | 0 => by simp [findBackwards]
  | n + 1 => by
      rw [findBackwards]
      split_ifs with h
      · refine ⟨fun e => ?_, fun ⟨h₁, _, h₃⟩ => ?_⟩
        · cases e; exact ⟨by omega, h, fun j h₁ h₂ => by omega⟩
        · by_cases e : n = i
          · rw [e]
          · exact absurd h (h₃ n (by omega) (by omega))
      · rw [findBackwards_eq_some_iff]
        refine ⟨fun ⟨h₁, h₂, h₃⟩ => ⟨by omega, h₂, fun j hj₁ hj₂ => ?_⟩,
          fun ⟨h₁, h₂, h₃⟩ => ⟨?_, h₂, fun j hj₁ hj₂ => h₃ j hj₁ (by omega)⟩⟩
        · by_cases e : j = n
          · rw [e]; exact h
          · exact h₃ j hj₁ (by omega)
        · by_cases e : i = n
          · rw [e] at h₂; exact absurd h₂ h
          · omega

/-- **The plug-in path.**  A path ending in `KEXT_PLUGIN_SUBPATH` is cut to `d`
exactly when it is `d`, a `/`, a name without `/`, and the subpath: the
directory holding the kext whose `PlugIns` directory it is. -/
theorem pluginRepositoryPath_eq_some_iff {p d : List Char}
    (hp : kextPluginSubpath.isSuffixOf p = true) :
    pluginRepositoryPath p true = some d ↔
      ∃ n, '/' ∉ n ∧ p = d ++ '/' :: (n ++ kextPluginSubpath) := by
  obtain ⟨q, rfl⟩ := List.isSuffixOf_iff_suffix.mp hp
  have hlen : (q ++ kextPluginSubpath).length - kextPluginSubpath.length = q.length := by simp
  have hget : ∀ j, j < q.length → (q ++ kextPluginSubpath)[j]? = q[j]? :=
    fun j hj => List.getElem?_append_left hj
  simp only [pluginRepositoryPath, hp, if_true, hlen]
  constructor
  · intro h
    split at h
    · cases h
    rename_i i hi
    simp only [Option.some.injEq] at h
    obtain ⟨h₁, h₂, h₃⟩ := (findBackwards_eq_some_iff '/' _).mp hi
    refine ⟨q.drop (i + 1), fun hm => ?_, ?_⟩
    · obtain ⟨j, hj⟩ := List.mem_iff_getElem?.mp hm
      rw [List.getElem?_drop] at hj
      have hlt : i + 1 + j < q.length := (List.getElem?_eq_some_iff.mp hj).1
      exact h₃ (i + 1 + j) (by omega) hlt (by rw [hget _ hlt]; exact hj)
    · rw [hget i h₁] at h₂
      rw [← h, List.take_append_of_le_length (by omega), ← List.cons_append, ← List.append_assoc]
      congr 1
      obtain ⟨_, hq⟩ := List.getElem?_eq_some_iff.mp h₂
      conv_lhs => rw [← List.take_append_drop i q, List.drop_eq_getElem_cons h₁, hq]
  · rintro ⟨n, hn, e⟩
    rw [← List.cons_append, ← List.append_assoc] at e
    obtain rfl := List.append_cancel_right e
    have hi : findBackwards '/' ((d ++ '/' :: n) ++ kextPluginSubpath) (d ++ '/' :: n).length =
        some d.length := by
      refine (findBackwards_eq_some_iff '/' _).mpr ⟨by simp, ?_, ?_⟩
      · rw [hget _ (by simp), List.getElem?_append_right (le_refl _), Nat.sub_self,
          List.getElem?_cons_zero]
      intro j hj₁ hj₂ hj
      rw [hget j hj₂, List.getElem?_append_right (by omega)] at hj
      obtain ⟨k, hk⟩ : ∃ k, j - d.length = k + 1 := ⟨j - d.length - 1, by omega⟩
      rw [hk, List.getElem?_cons_succ] at hj
      exact hn (List.mem_iff_getElem?.mpr ⟨k, hj⟩)
    rw [hi]
    simp

/-- A kext inside the `PlugIns` directory of a kext of `/System/Library/Extensions`
is looked up in `/System/Library/Extensions`. -/
theorem pluginRepositoryPath_extensions :
    kextPluginSubpath.isSuffixOf "/System/Library/Extensions/IONetworkingFamily.kext/Contents/PlugIns".toList ∧
      pluginRepositoryPath "/System/Library/Extensions/IONetworkingFamily.kext/Contents/PlugIns".toList true =
        some "/System/Library/Extensions".toList :=
  have hp : kextPluginSubpath.isSuffixOf
      "/System/Library/Extensions/IONetworkingFamily.kext/Contents/PlugIns".toList := by decide
  ⟨hp, (pluginRepositoryPath_eq_some_iff hp).mpr ⟨"IONetworkingFamily".toList, by decide, by decide⟩⟩

end KextManager
