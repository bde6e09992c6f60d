/-
KextManager/Registry.lean

Registering repositories: `KXKextManagerAddRepositoryDirectory`, the cache test
it makes first (`__KXKextManagerCheckForRepositoryCache`), and the two ways a
repository comes in from a cache, `_KXKextManagerAddRepositoryFromCacheFile`
and `_KXKextManagerAddRepositoryFromCacheDictionary`.

A repository is registered under the canonical form of its directory's URL.
Both adding calls first look the directory up (`getRepositoryForDirectory`)
and append a new repository only when none is found; the append is followed by
a clear request (`KXKextManagerClearRelationships`).  What the file system and
the external initialisers do is an input of each call: the `stat` and `access`
results of the cache test (`CacheProbe`), the `gzread` answers and what the
property-list parser makes of the bytes (`CacheFileEnvironment`), and the
repositories `_KXKextRepositoryInitWithDirectory` and
`_KXKextRepositoryInitWithCache` build, as new objects (`NewRepository`: a
handle no live repository has, and kexts no repository holds).

The registry's invariant `Registered` is that the repositories' URLs are
pairwise distinct; removal is by handle, as the C compares pointers.  `addRepositoryDirectory_paths` says once which path an add
takes, and `addRepositoryDirectory_cases` what it then does to a directory not
found.  Main results: an add keeps the invariant and the directory's lookup then
finds what the call reports, unless a cache file whose dictionary was added
fails to close, in which case the directory is appended a second time
(`addRepositoryDirectory_registered_or_twice`); a removal leaves the directory
not found (`removeRepositoryDirectory_lookup`), and undoes an add
(`addRepositoryDirectory_then_remove`); and every run of adds and removals whose
cache files close keeps the invariant (`RegistryCall.run_registered`).
-/
import KextManager.RepositoryList
import KextManager.CacheFile

namespace KextManager

variable {ι κ υ δ : Type}

/-! ### Appending a repository -/

/-- A repository just created and initialised: a new object, whose kexts are
new objects, each listed once and none of them in the manager's
repositories. -/
def NewRepository [DecidableEq κ] (s : Manager ι κ) : Type :=
  { r : Repository κ // r.kexts.Nodup ∧ (∀ k ∈ r.kexts, k ∉ s.allKexts) ∧
      r.handle ∉ s.repositoryList.list.map Repository.handle }

/-- `CFArrayAppendValue(repositoryList, newRepository)`. -/
def Repositories.append (rs : Repositories κ) (r : Repository κ) (hr : r.kexts.Nodup)
    (hfresh : ∀ k ∈ r.kexts, k ∉ rs.list.flatMap Repository.kexts)
    (hh : r.handle ∉ rs.list.map Repository.handle) : Repositories κ :=
  ⟨rs.list ++ [r], by
    rw [List.flatMap_append, List.flatMap_singleton]
    exact List.nodup_append.mpr ⟨rs.nodup, hr, fun k h₁ h₂ => hfresh k h₂ h₁⟩, by
    rw [List.map_append, List.map_singleton]
    exact List.nodup_append.mpr ⟨rs.handles_nodup, List.nodup_singleton _,
      fun x h₁ h₂ => hh (List.mem_singleton.mp h₂ ▸ h₁)⟩⟩

namespace Manager

variable [DecidableEq ι] [DecidableEq κ]

/-- The append and the clear request that follow a successful initialisation
in both adding calls. -/
def addRepository (s : Manager ι κ) (r : NewRepository s) : Manager ι κ :=
  { s with repositoryList := s.repositoryList.append r.1 r.2.1 r.2.2.1 r.2.2.2 }.clearRelationships

omit [DecidableEq ι] in
@[simp] theorem addRepository_repositoryList (s : Manager ι κ) (r : NewRepository s) :
    (s.addRepository r).repositoryList.list = s.repositoryList.list ++ [r.1] := by
  simp [addRepository, Repositories.append]

end Manager

/-! ### The cache test -/

/-- `errno` as the cache test reads it. -/
inductive Errno where
  | noEnt
  | notDir
  | access
  | other
  deriving DecidableEq, Repr

/-- What `stat` gives: the file's mode and modification time, or the error. -/
inductive StatResult where
  | ok (mode : Nat) (mtime : Int)
  | failed (errno : Errno)
  deriving DecidableEq, Repr

/-- `S_IFREG`. -/
def sIFREG : Nat := 0o100000

/-- The file system as the cache test sees it. -/
structure CacheProbe where
  /-- The directory's canonical URL and path, and the cache file's URL
  (`CFURLCreateCopyAppendingPathExtension`), were all made. -/
  cacheURLMade : Bool
  /-- `PATH_CanonicalizedCStringForURL` of the cache file's URL. -/
  cachePathMade : Bool
  dirStat : StatResult
  cacheStat : StatResult
  /-- The parent directory's URL and path were made. -/
  parentPathMade : Bool
  /-- `access(parent_path, W_OK) == 0`. -/
  parentWritable : Bool
  deriving DecidableEq, Repr

/-- The three answers of the cache test: its result (the cache file exists and
is taken for a regular file), `isCurrent` and `canUpdate`. -/
structure CacheCheck where
  result : Bool
  isCurrent : Bool
  canUpdate : Bool
  deriving DecidableEq, Repr

/-- `__KXKextManagerCheckForRepositoryCache`.  None when the cache file's URL
was never made: `finish` then releases the NULL `theCacheURL`.  A failed
`stat` of the directory, or of the cache file for another reason than its
absence, ends the test with everything false; a cache file whose mode has the
`S_IFREG` bit is current when it was modified one second after the directory;
the parent directory is tested for writing when the cache file is absent or
regular. -/
def checkForRepositoryCache (p : CacheProbe) : Option CacheCheck :=
  if !p.cacheURLMade then none
  else if !p.cachePathMade then some ⟨false, false, false⟩
  else
    match p.dirStat with
    | .failed _ => some ⟨false, false, false⟩
    | .ok _ dirMtime =>
        let canUpdate := p.parentPathMade && p.parentWritable
        match p.cacheStat with
        | .failed .noEnt | .failed .notDir => some ⟨false, false, canUpdate⟩
        | .failed _ => some ⟨false, false, false⟩
        | .ok mode mtime =>
            if mode &&& sIFREG ≠ 0 then some ⟨true, decide (mtime = dirMtime + 1), canUpdate⟩
            else some ⟨false, false, false⟩

/-! ### Adding a repository from a cache -/

/-- What `CFPropertyListCreateFromXMLData` and the type test make of the bytes
read. -/
inductive Parsed (δ : Type) where
  /-- No property list: whether an error string came with it, and whether the
  buffer to print it was allocated. -/
  | failed (errorString bufferAllocated : Bool)
  | notDictionary
  | dictionary (cache : δ)

/-- The external calls of `_KXKextManagerAddRepositoryFromCacheDictionary`
besides the URL functions: the file-system representation of the path into
`repository_path`, `_KXKextRepositoryCreate`, and `_KXKextRepositoryInitWithCache`
with its result and the repository it initialised. -/
structure CacheDictionaryEnvironment (ι κ υ δ : Type) [DecidableEq κ] where
  fileSystemRepresentationMade : Bool
  repositoryCreated : Bool
  initWithCache : (s : Manager ι κ) → δ → υ → KXKextManagerError × NewRepository s

/-- The external calls of `_KXKextManagerAddRepositoryFromCacheFile`: the
path, `gzopen` (and `errno` when it fails), `malloc`, the `gzread` and
`realloc` answers, `CFDataCreateWithBytesNoCopy`, the parser and `gzclose`. -/
structure CacheFileEnvironment (δ : Type) where
  cachePathMade : Bool
  opened : Bool
  errnoZero : Bool
  mallocSucceeds : Bool
  answers : List ReadAnswer
  dataCreated : Bool
  parse : List UInt8 → Parsed δ
  closeOk : Bool

section Cache

variable [DecidableEq ι] [DecidableEq κ] [DecidableEq υ]
  (copyURL : Repository κ → Option υ) (copyCanonicalizedURL : υ → Option υ)
  (copyFileSystemPath : υ → Option String)

/-- `_KXKextManagerAddRepositoryFromCacheDictionary`: the manager after the
call, its result and `*theRepository`. -/
def addRepositoryFromCacheDictionary (env : CacheDictionaryEnvironment ι κ υ δ)
    (s : Manager ι κ) (aRepositoryCache : δ) (repositoryURL : υ) :
    Manager ι κ × KXKextManagerError × Option (Repository κ) :=
  match copyCanonicalizedURL repositoryURL with
  | none => (s, .noMemory, none)
  | some repositoryAbsURL =>
      match copyFileSystemPath repositoryAbsURL with
      | none => (s, .noMemory, none)
      | some _ =>
          if !env.fileSystemRepresentationMade then (s, .noMemory, none)
          else
            match s.getRepositoryForDirectory copyURL copyCanonicalizedURL repositoryAbsURL with
            | some foundRepository => (s, .none, some foundRepository)
            | none =>
                if !env.repositoryCreated then (s, .noMemory, none)
                else
                  let (result, newRepository) := env.initWithCache s aRepositoryCache repositoryAbsURL
                  if result ≠ .none then (s, result, none)
                  else (s.addRepository newRepository, .none, some newRepository.1)

/-- The `finish` of `_KXKextManagerAddRepositoryFromCacheFile` on an opened
file: a failed `gzclose` turns a success into `kKXKextManagerErrorUnspecified`,
whatever the call did before. -/
def closeCacheFile (closeOk : Bool) (r : Manager ι κ × KXKextManagerError × Option (Repository κ)) :
    Manager ι κ × KXKextManagerError × Option (Repository κ) :=
  if !closeOk && r.2.1 = .none then (r.1, .unspecified, r.2.2) else r

/-- `_KXKextManagerAddRepositoryFromCacheFile`: open the compressed cache, read
it (`readLoop`), parse it and add the repository of the dictionary.  None when
the read loop does not end within the answers or a `gzread` call writes outside
the buffer. -/
def addRepositoryFromCacheFile (fileEnv : CacheFileEnvironment δ)
    (env : CacheDictionaryEnvironment ι κ υ δ) (s : Manager ι κ) (repositoryURL : υ) :
    Option (Manager ι κ × KXKextManagerError × Option (Repository κ)) :=
  if !fileEnv.cachePathMade then some (s, .noMemory, none)
  else if !fileEnv.opened then
    some (s, if fileEnv.errnoZero then .noMemory else .fileAccess, none)
  else
    match readStart fileEnv.mallocSucceeds with
    | none => some (closeCacheFile fileEnv.closeOk (s, .noMemory, none))
    | some st =>
        match readLoop st fileEnv.answers with
        | .running _ | .outOfBounds => none
        | .failed result => some (closeCacheFile fileEnv.closeOk (s, result, none))
        | .endOfFile fileData _ =>
            if !fileEnv.dataCreated then some (closeCacheFile fileEnv.closeOk (s, .noMemory, none))
            else
              match fileEnv.parse fileData with
              | .failed errorString bufferAllocated =>
                  some (closeCacheFile fileEnv.closeOk
                    (s, if errorString && !bufferAllocated then .noMemory else .cache, none))
              | .notDictionary => some (closeCacheFile fileEnv.closeOk (s, .invalidArgument, none))
              | .dictionary cache =>
                  some (closeCacheFile fileEnv.closeOk (addRepositoryFromCacheDictionary copyURL
                    copyCanonicalizedURL copyFileSystemPath env s cache repositoryURL))

end Cache

/-! ### Adding a repository directory -/

/-- The external calls of `KXKextManagerAddRepositoryDirectory`: the cache
test, the cache file and its dictionary, `_KXKextRepositoryCreate` and
`_KXKextRepositoryInitWithDirectory` with its result and the repository it
initialised. -/
structure DirectoryEnvironment (ι κ υ δ : Type) [DecidableEq κ] where
  probe : CacheProbe
  cacheFile : CacheFileEnvironment δ
  cacheDictionary : CacheDictionaryEnvironment ι κ υ δ
  repositoryCreated : Bool
  initWithDirectory : (s : Manager ι κ) → υ → Bool → KXKextManagerError × NewRepository s

/-- What `KXKextManagerAddRepositoryDirectory` leaves: the manager, the
result, `*theRepository`, and the repositories whose cache it writes with
`KXKextRepositoryWriteCache`. -/
structure DirectoryAdded (ι κ : Type) where
  manager : Manager ι κ
  result : KXKextManagerError
  repository : Option (Repository κ)
  cachesWritten : List (Repository κ)

section Directory

variable [DecidableEq ι] [DecidableEq κ] [DecidableEq υ]
  (copyURL : Repository κ → Option υ) (copyCanonicalizedURL : υ → Option υ)
  (copyFileSystemPath : υ → Option String)

/-- The part of `KXKextManagerAddRepositoryDirectory` after the cache: create
and initialise the repository from the directory, append it, and at `finish`
write its cache when `createNewCache` is set, whether or not it was
appended. -/
def addFromDirectory (env : DirectoryEnvironment ι κ υ δ) (s : Manager ι κ) (directoryURL : υ)
    (scanForKexts createNewCache : Bool) (theRepository : Option (Repository κ)) :
    DirectoryAdded ι κ :=
  if !env.repositoryCreated then ⟨s, .noMemory, theRepository, []⟩
  else
    let (result, newRepository) := env.initWithDirectory s directoryURL scanForKexts
    let written := if createNewCache then [newRepository.1] else []
    if result ≠ .none then ⟨s, result, theRepository, written⟩
    else ⟨s.addRepository newRepository, .none, some newRepository.1, written⟩

/-- `KXKextManagerAddRepositoryDirectory`.  None when the cache test releases
NULL or the cache file's read does not return. -/
def addRepositoryDirectory (env : DirectoryEnvironment ι κ υ δ) (s : Manager ι κ)
    (directoryURL : υ) (scanForKexts useCache : Bool) : Option (DirectoryAdded ι κ) :=
  match s.getRepositoryForDirectory copyURL copyCanonicalizedURL directoryURL with
  | some foundRepository => some ⟨s, .none, some foundRepository, []⟩
  | none =>
      if !(useCache && !s.performsFullTests) then
        some (addFromDirectory env s directoryURL scanForKexts false none)
      else
        match checkForRepositoryCache env.probe with
        | none => none
        | some check =>
            if check.result && check.isCurrent then
              match addRepositoryFromCacheFile copyURL copyCanonicalizedURL copyFileSystemPath
                  env.cacheFile env.cacheDictionary s directoryURL with
              | none => none
              | some (s', result, theRepository) =>
                  if result = .none then some ⟨s', .none, theRepository, []⟩
                  else some (addFromDirectory env s' directoryURL scanForKexts true theRepository)
            else
              some (addFromDirectory env s directoryURL scanForKexts check.canUpdate none)

end Directory

/-! ### The lookups on a registry -/

section Lookup

variable [DecidableEq υ] (copyURL : Repository κ → Option υ)

/-- On repositories whose URLs can all be copied, the search fails exactly
when no repository has the URL. -/
theorem findRepositoryWithURL_eq_none (hcopy : ∀ r, (copyURL r).isSome) {url : υ} :
    ∀ {rs : List (Repository κ)},
      findRepositoryWithURL copyURL url rs = none ↔ ∀ r ∈ rs, copyURL r ≠ some url
  | [] => by simp [findRepositoryWithURL]
  | r :: rs => by
      obtain ⟨u, hu⟩ := Option.isSome_iff_exists.mp (hcopy r)
      simp only [findRepositoryWithURL, hu, List.mem_cons, forall_eq_or_imp]
      split_ifs with h
      · simp [h]
      · rw [findRepositoryWithURL_eq_none hcopy]
        exact ⟨fun h' => ⟨fun e => h (Option.some.inj e).symm, h'⟩, And.right⟩

/-- On repositories whose URLs are copied and distinct, the search for a
repository's URL finds that repository. -/
theorem findRepositoryWithURL_of_mem (hcopy : ∀ r, (copyURL r).isSome) {url : υ}
    {r : Repository κ} (hr : copyURL r = some url) :
    ∀ {rs : List (Repository κ)}, (rs.map copyURL).Nodup → r ∈ rs →
      findRepositoryWithURL copyURL url rs = some r
  | [], _, hm => absurd hm (List.not_mem_nil _)
  | r' :: rs, hnd, hm => by
      obtain ⟨u, hu⟩ := Option.isSome_iff_exists.mp (hcopy r')
      rw [List.map_cons, List.nodup_cons] at hnd
      simp only [findRepositoryWithURL, hu]
      split_ifs with h
      · subst h
        rcases List.mem_cons.mp hm with rfl | hm
        · rfl
        · exact absurd (hu ▸ hr ▸ List.mem_map_of_mem copyURL hm) hnd.1
      · have hne : r ≠ r' := fun e => h (Option.some.inj (hr.symm.trans (e ▸ hu)))
        exact findRepositoryWithURL_of_mem hcopy hr hnd.2 ((List.mem_cons.mp hm).resolve_left hne)

variable {copyURL}

/-- What the search finds has the URL searched for. -/
theorem findRepositoryWithURL_copyURL {url : υ} :
    ∀ {rs : List (Repository κ)} {r : Repository κ},
      findRepositoryWithURL copyURL url rs = some r → copyURL r = some url
  | [], _, h => absurd h (by simp [findRepositoryWithURL])
  | r' :: rs, r, h => by
      unfold findRepositoryWithURL at h
      split at h
      · exact absurd h (by simp)
      · rename_i u hu
        split_ifs at h with he
        · rw [← Option.some.inj h, hu, he]
        · exact findRepositoryWithURL_copyURL h

/-- A search that succeeds on a list succeeds the same on any longer list. -/
theorem findRepositoryWithURL_append_of_eq_some {url : υ} {r : Repository κ}
    (l₂ : List (Repository κ)) : ∀ {l₁ : List (Repository κ)},
      findRepositoryWithURL copyURL url l₁ = some r →
        findRepositoryWithURL copyURL url (l₁ ++ l₂) = some r
  | [], h => absurd h (by simp [findRepositoryWithURL])
  | r' :: rs, h => by
      rw [List.cons_append]
      unfold findRepositoryWithURL at h ⊢
      split at h
      · exact absurd h (by simp)
      · split_ifs at h ⊢
        · exact h
        · exact findRepositoryWithURL_append_of_eq_some l₂ h

end Lookup

/-- What the registry needs of the external URL functions: every repository's
URL can be copied (`KXKextRepositoryCopyURL` does not fail), and a canonical
URL is its own canonical form. -/
structure URLFunctionsSound (copyURL : Repository κ → Option υ) (copyCanonicalizedURL : υ → Option υ) :
    Prop where
  copy : ∀ r, (copyURL r).isSome
  canonical : ∀ u c, copyCanonicalizedURL u = some c → copyCanonicalizedURL c = some c

/-- The registry's invariant: no two repositories have the same URL. -/
def Registered (copyURL : Repository κ → Option υ) (s : Manager ι κ) : Prop :=
  (s.repositoryList.list.map copyURL).Nodup

instance [DecidableEq υ] (copyURL : Repository κ → Option υ) (s : Manager ι κ) :
    Decidable (Registered copyURL s) :=
  inferInstanceAs (Decidable (List.Nodup _))

namespace Registered

variable [DecidableEq ι] [DecidableEq κ] {copyURL : Repository κ → Option υ} {s : Manager ι κ}

omit [DecidableEq ι] in
/-- Appending a repository under a URL no repository has keeps the URLs
distinct. -/
theorem addRepository (h : Registered copyURL s) {r : NewRepository s} {url : υ}
    (hr : copyURL r.1 = some url) (hnew : ∀ r' ∈ s.repositoryList.list, copyURL r' ≠ some url) :
    Registered copyURL (s.addRepository r) := by
  unfold Registered
  rw [Manager.addRepository_repositoryList, List.map_append, List.nodup_append]
  refine ⟨h, List.nodup_singleton _, fun x hx hy => ?_⟩
  rw [List.map_singleton, List.mem_singleton, hr] at hy
  obtain ⟨r', hr', e⟩ := List.mem_map.mp hx
  exact hnew r' hr' (e.trans hy)

omit [DecidableEq ι] in
/-- Removing a repository keeps the URLs of the others distinct. -/
theorem removeRepository (h : Registered copyURL s) (r : Repository κ) :
    Registered copyURL (s.removeRepository r) := by
  unfold Registered
  rw [Manager.removeRepository_repositoryList]
  exact h.sublist ((List.filter_sublist _).map copyURL)

omit [DecidableEq ι] [DecidableEq κ] in
/-- On a registry two repositories with the same URL are the same one. -/
theorem eq_of_copyURL (hs : Registered copyURL s) {r r' : Repository κ}
    (hr : r ∈ s.repositoryList.list) (hr' : r' ∈ s.repositoryList.list)
    (he : copyURL r = copyURL r') : r = r' :=
  List.inj_on_of_nodup_map hs hr hr' he

end Registered

section Directories

variable [DecidableEq υ] {copyURL : Repository κ → Option υ} {copyCanonicalizedURL : υ → Option υ}
  (hu : URLFunctionsSound copyURL copyCanonicalizedURL)
include hu

/-- A directory not found has a canonical URL under which no repository is
registered, or none. -/
theorem getRepositoryForDirectory_eq_none {s : Manager ι κ} {dir c : υ}
    (hc : copyCanonicalizedURL dir = some c)
    (h : s.getRepositoryForDirectory copyURL copyCanonicalizedURL dir = none) :
    ∀ r ∈ s.repositoryList.list, copyURL r ≠ some c := by
  simp only [Manager.getRepositoryForDirectory, hc] at h
  exact (findRepositoryWithURL_eq_none copyURL hu.copy).mp h

/-- On a registry the directory's lookup finds the repository registered under
its canonical URL. -/
theorem getRepositoryForDirectory_of_mem {s : Manager ι κ} (hs : Registered copyURL s) {dir c : υ}
    (hc : copyCanonicalizedURL dir = some c) {r : Repository κ} (hr : copyURL r = some c)
    (hm : r ∈ s.repositoryList.list) :
    s.getRepositoryForDirectory copyURL copyCanonicalizedURL dir = some r := by
  simp only [Manager.getRepositoryForDirectory, hc]
  exact findRepositoryWithURL_of_mem copyURL hu.copy hr hs hm

/-- A canonical URL is looked up as the URL it is the canonical form of. -/
theorem getRepositoryForDirectory_canonical (s : Manager ι κ) {u c : υ}
    (hc : copyCanonicalizedURL u = some c) :
    s.getRepositoryForDirectory copyURL copyCanonicalizedURL c =
      s.getRepositoryForDirectory copyURL copyCanonicalizedURL u := by
  simp only [Manager.getRepositoryForDirectory, hc, hu.canonical u c hc]

omit hu in
/-- Appending a repository does not change what a lookup that succeeds finds. -/
theorem getRepositoryForDirectory_addRepository_of_eq_some [DecidableEq κ] {s : Manager ι κ}
    {dir : υ} {r : Repository κ} (r' : NewRepository s)
    (h : s.getRepositoryForDirectory copyURL copyCanonicalizedURL dir = some r) :
    (s.addRepository r').getRepositoryForDirectory copyURL copyCanonicalizedURL dir = some r := by
  unfold Manager.getRepositoryForDirectory at h ⊢
  split at h
  · exact absurd h (by simp)
  · rename_i c hc
    simp only [hc, Manager.addRepository_repositoryList]
    exact findRepositoryWithURL_append_of_eq_some _ h

/-- **Add, then look up.**  On a registry, appending a repository under the
canonical URL of a directory that is not found keeps the registry, and the
directory's lookup then finds the repository. -/
theorem Registered.addRepository_lookup [DecidableEq κ] {s : Manager ι κ}
    (hs : Registered copyURL s) {dir c : υ} (hc : copyCanonicalizedURL dir = some c)
    (hnf : s.getRepositoryForDirectory copyURL copyCanonicalizedURL dir = none)
    {r : NewRepository s} (hr : copyURL r.1 = some c) :
    Registered copyURL (s.addRepository r) ∧
      (s.addRepository r).getRepositoryForDirectory copyURL copyCanonicalizedURL dir = some r.1 := by
  have hreg := hs.addRepository hr (getRepositoryForDirectory_eq_none hu hc hnf)
  exact ⟨hreg, getRepositoryForDirectory_of_mem hu hreg hc hr (by simp)⟩

end Directories

/-! ### What the adding calls do -/

/-- A failed `gzread` or `realloc` ends the read loop with an error. -/
theorem readStep_failed_ne_none {st : CacheRead} {a : ReadAnswer} {r : KXKextManagerError}
    (h : readStep st a = .failed r) : r ≠ .none := by
  unfold readStep at h
  by_cases hb : st.inputDataPos < 0 ∨ st.allocated < st.inputDataPos.toNat + st.inputDataAvailable.toNat
  · rw [if_pos hb] at h; cases h
  · rw [if_neg hb] at h
    obtain ⟨g, realloc⟩ := a
    cases g with
    | error => cases h; decide
    | bytes data =>
        dsimp only at h
        split_ifs at h <;> cases h <;> decide

theorem readLoop_failed_ne_none : ∀ {answers : List ReadAnswer} {st : CacheRead}
    {r : KXKextManagerError}, readLoop st answers = .failed r → r ≠ .none
  | [], _, _, h => absurd h (by simp [readLoop])
  | a :: answers, st, r, h => by
      simp only [readLoop] at h
      cases hs : readStep st a with
      | running st' => rw [hs] at h; exact readLoop_failed_ne_none h
      | failed r' => rw [hs] at h; cases h; exact readStep_failed_ne_none hs
      | endOfFile _ _ => rw [hs] at h; cases h
      | outOfBounds => rw [hs] at h; cases h

section Specs

variable [DecidableEq κ] [DecidableEq υ]
  (copyURL : Repository κ → Option υ) (copyCanonicalizedURL : υ → Option υ)
  (copyFileSystemPath : υ → Option String)

/-- The dictionary add fails leaving the manager as it was and reporting no
repository; or it finds the repository registered under the canonical URL `c`
and reports it; or it appends the repository `_KXKextRepositoryInitWithCache`
made for `c`, under which no repository was registered, and reports it. -/
theorem addRepositoryFromCacheDictionary_cases (env : CacheDictionaryEnvironment ι κ υ δ)
    (s : Manager ι κ) (d : δ) (u : υ)
    {a : Manager ι κ × KXKextManagerError × Option (Repository κ)}
    (ha : addRepositoryFromCacheDictionary copyURL copyCanonicalizedURL copyFileSystemPath env s d u =
      a) :
    (a.1 = s ∧ a.2.1 ≠ .none ∧ a.2.2 = none) ∨
      ∃ c, copyCanonicalizedURL u = some c ∧
        ((∃ r, s.getRepositoryForDirectory copyURL copyCanonicalizedURL c = some r ∧
            a = (s, .none, some r)) ∨
          s.getRepositoryForDirectory copyURL copyCanonicalizedURL c = none ∧
            a = (s.addRepository (env.initWithCache s d c).2, .none,
              some (env.initWithCache s d c).2.1)) := by
  subst ha
  rcases hc : copyCanonicalizedURL u with _ | c
  · left; simp [addRepositoryFromCacheDictionary, hc]
  rcases hp : copyFileSystemPath c with _ | path
  · left; simp [addRepositoryFromCacheDictionary, hc, hp]
  cases hf : env.fileSystemRepresentationMade
  · left; simp [addRepositoryFromCacheDictionary, hc, hp, hf]
  rcases hfound : s.getRepositoryForDirectory copyURL copyCanonicalizedURL c with _ | found
  · cases hcr : env.repositoryCreated
    · left; simp [addRepositoryFromCacheDictionary, hc, hp, hf, hfound, hcr]
    · by_cases hr : (env.initWithCache s d c).1 = .none
      · exact .inr ⟨c, rfl, .inr ⟨hfound,
          by simp [addRepositoryFromCacheDictionary, hc, hp, hf, hfound, hcr, hr]⟩⟩
      · left; simp [addRepositoryFromCacheDictionary, hc, hp, hf, hfound, hcr, hr]
  · exact .inr ⟨c, rfl, .inl ⟨found, hfound, by simp [addRepositoryFromCacheDictionary, hc, hp, hf, hfound]⟩⟩

omit [DecidableEq κ] in
/-- `gzclose` leaves the manager as it is. -/
theorem closeCacheFile_fst (closeOk : Bool) (r : Manager ι κ × KXKextManagerError × Option (Repository κ)) :
    (closeCacheFile closeOk r).1 = r.1 := by
  unfold closeCacheFile; split_ifs <;> rfl

omit [DecidableEq κ] in
/-- A failed `gzclose` changes only a success. -/
theorem closeCacheFile_of_ne_none (closeOk : Bool)
    {r : Manager ι κ × KXKextManagerError × Option (Repository κ)} (h : r.2.1 ≠ .none) :
    closeCacheFile closeOk r = r := by
  simp [closeCacheFile, h]

/-- The cache-file add leaves the manager as it was with nothing reported, or
it is the dictionary add of some dictionary followed by the `gzclose`. -/
theorem addRepositoryFromCacheFile_cases (fileEnv : CacheFileEnvironment δ)
    (env : CacheDictionaryEnvironment ι κ υ δ) (s : Manager ι κ) (u : υ)
    {a : Manager ι κ × KXKextManagerError × Option (Repository κ)}
    (ha : addRepositoryFromCacheFile copyURL copyCanonicalizedURL copyFileSystemPath fileEnv env s u =
      some a) :
    (a.1 = s ∧ a.2.1 ≠ .none ∧ a.2.2 = none) ∨
      ∃ d, a = closeCacheFile fileEnv.closeOk
        (addRepositoryFromCacheDictionary copyURL copyCanonicalizedURL copyFileSystemPath env s d u) := by
  have hopen : ∀ e : KXKextManagerError, e ≠ .none → some (s, e, none) = some a →
      a.1 = s ∧ a.2.1 ≠ .none ∧ a.2.2 = none := fun e he h => by
    rw [← Option.some.inj h]; exact ⟨rfl, he, rfl⟩
  have hclosed : ∀ e : KXKextManagerError, e ≠ .none →
      some (closeCacheFile fileEnv.closeOk (s, e, none)) = some a → a.1 = s ∧ a.2.1 ≠ .none ∧ a.2.2 = none :=
    fun e he h => hopen e he (by rwa [closeCacheFile_of_ne_none _ (r := (s, e, none)) he] at h)
  unfold addRepositoryFromCacheFile at ha
  split_ifs at ha <;> (repeat' split at ha) <;>
    first
    | exact .inl (hclosed _ (readLoop_failed_ne_none ‹_›) ha)
    | exact .inl (hclosed _ (by decide) ha)
    | exact .inl (hopen _ (by decide) ha)
    | exact .inr ⟨_, (Option.some.inj ha).symm⟩
    | exact absurd ha (by simp)

omit [DecidableEq υ] in
/-- The part after the cache leaves the manager as it was with an error, or
appends the repository initialised from the directory and reports it. -/
theorem addFromDirectory_cases (env : DirectoryEnvironment ι κ υ δ) (s : Manager ι κ) (dir : υ)
    (scanForKexts createNewCache : Bool) (theRepository : Option (Repository κ)) {a : DirectoryAdded ι κ}
    (ha : addFromDirectory env s dir scanForKexts createNewCache theRepository = a) :
    (a.manager = s ∧ a.result ≠ .none ∧ a.repository = theRepository) ∨
      a.manager = s.addRepository (env.initWithDirectory s dir scanForKexts).2 ∧ a.result = .none ∧
        a.repository = some (env.initWithDirectory s dir scanForKexts).2.1 := by
  subst ha
  unfold addFromDirectory
  cases env.repositoryCreated
  · exact .inl ⟨rfl, by simp, rfl⟩
  · by_cases hr : (env.initWithDirectory s dir scanForKexts).1 = .none
    · exact .inr (by simp [hr])
    · exact .inl (by simp [hr])

/-- The paths of `KXKextManagerAddRepositoryDirectory`: a directory found is
reported; otherwise the add is made from the directory, with a cache to write
only when caches are used; or the cache file is read and its add kept when it
succeeds, else followed by an add from the directory that writes the cache. -/
theorem addRepositoryDirectory_paths (env : DirectoryEnvironment ι κ υ δ) {s : Manager ι κ} {dir : υ}
    {scanForKexts useCache : Bool} {a : DirectoryAdded ι κ}
    (ha : addRepositoryDirectory copyURL copyCanonicalizedURL copyFileSystemPath env s dir scanForKexts
      useCache = some a) :
    (∃ r, s.getRepositoryForDirectory copyURL copyCanonicalizedURL dir = some r ∧ a = ⟨s, .none, some r, []⟩) ∨
      s.getRepositoryForDirectory copyURL copyCanonicalizedURL dir = none ∧
        ((∃ b, a = addFromDirectory env s dir scanForKexts b none ∧
            ((useCache && !s.performsFullTests) = false → b = false)) ∨
          (useCache && !s.performsFullTests) = true ∧ ∃ s' result theRepository,
            addRepositoryFromCacheFile copyURL copyCanonicalizedURL copyFileSystemPath env.cacheFile
              env.cacheDictionary s dir = some (s', result, theRepository) ∧
            (result = .none ∧ a = ⟨s', .none, theRepository, []⟩ ∨
              result ≠ .none ∧ a = addFromDirectory env s' dir scanForKexts true theRepository)) := by
  unfold addRepositoryDirectory at ha
  split at ha
  · exact .inl ⟨_, ‹_›, (Option.some.inj ha).symm⟩
  refine .inr ⟨‹_›, ?_⟩
  split_ifs at ha with hcache
  · exact .inl ⟨false, (Option.some.inj ha).symm, fun _ => rfl⟩
  have hc : (useCache && !s.performsFullTests) = true := by simpa using hcache
  split at ha
  · cases ha
  split_ifs at ha
  · split at ha
    · cases ha
    rename_i hfile
    refine .inr ⟨hc, _, _, _, hfile, ?_⟩
    split_ifs at ha with hres
    · exact .inl ⟨hres, (Option.some.inj ha).symm⟩
    · exact .inr ⟨hres, (Option.some.inj ha).symm⟩
  · exact .inl ⟨_, (Option.some.inj ha).symm, fun h => absurd (h.symm.trans hc) (by simp)⟩

end Specs

/-- Both initialisers register the repository under the canonical form of the
URL they are given. -/
structure DirectoryEnvironment.RegistersCanonical [DecidableEq κ]
    (copyURL : Repository κ → Option υ) (copyCanonicalizedURL : υ → Option υ)
    (env : DirectoryEnvironment ι κ υ δ) : Prop where
  directory : ∀ s u b, copyURL (env.initWithDirectory s u b).2.1 = copyCanonicalizedURL u
  cache : ∀ s d u, copyURL (env.cacheDictionary.initWithCache s d u).2.1 = copyCanonicalizedURL u

section Adds

variable [DecidableEq κ] [DecidableEq υ]
  {copyURL : Repository κ → Option υ} {copyCanonicalizedURL : υ → Option υ}
  (copyFileSystemPath : υ → Option String) (hu : URLFunctionsSound copyURL copyCanonicalizedURL)
include hu

/-- For a URL not found, the cache-file add leaves the manager as it was and
reports an error and no repository, or it appends the repository made from the
cache under the canonical URL and reports it, with the error a failed `gzclose`
leaves. -/
theorem addRepositoryFromCacheFile_of_not_found (fileEnv : CacheFileEnvironment δ)
    {env : CacheDictionaryEnvironment ι κ υ δ}
    (hcache : ∀ s d u, copyURL (env.initWithCache s d u).2.1 = copyCanonicalizedURL u)
    {s : Manager ι κ} {u : υ} (hnf : s.getRepositoryForDirectory copyURL copyCanonicalizedURL u = none)
    {a : Manager ι κ × KXKextManagerError × Option (Repository κ)}
    (ha : addRepositoryFromCacheFile copyURL copyCanonicalizedURL copyFileSystemPath fileEnv env s u =
      some a) :
    (a.1 = s ∧ a.2.1 ≠ .none ∧ a.2.2 = none) ∨
      ∃ r : NewRepository s, copyURL r.1 = copyCanonicalizedURL u ∧
        a = (s.addRepository r, if fileEnv.closeOk then .none else .unspecified, some r.1) := by
  rcases addRepositoryFromCacheFile_cases copyURL copyCanonicalizedURL copyFileSystemPath fileEnv env s u ha
    with h | ⟨d, rfl⟩
  · exact .inl h
  rcases addRepositoryFromCacheDictionary_cases copyURL copyCanonicalizedURL copyFileSystemPath env s d u rfl
    with h | ⟨c, hc, ⟨r, hr, -⟩ | ⟨-, hd⟩⟩
  · rw [closeCacheFile_of_ne_none _ h.2.1]; exact .inl h
  · rw [getRepositoryForDirectory_canonical hu s hc, hnf] at hr; cases hr
  · refine .inr ⟨_, (hcache s d c).trans ((hu.canonical u c hc).trans hc.symm), ?_⟩
    rw [hd]; cases fileEnv.closeOk <;> rfl

variable {env : DirectoryEnvironment ι κ υ δ} (henv : env.RegistersCanonical copyURL copyCanonicalizedURL)
include henv

/-- **What adding a directory does.**  For a directory not found, the manager
is left as it was with an error; or one repository is appended under the
directory's canonical URL, reported on success; or, when the cache file's
dictionary was added and `gzclose` then failed, the directory is initialised
again and appended a second time, and the second repository is reported. -/
theorem addRepositoryDirectory_cases {s : Manager ι κ} {dir : υ}
    (hnf : s.getRepositoryForDirectory copyURL copyCanonicalizedURL dir = none)
    {scanForKexts useCache : Bool} {a : DirectoryAdded ι κ}
    (ha : addRepositoryDirectory copyURL copyCanonicalizedURL copyFileSystemPath env s dir scanForKexts
      useCache = some a) :
    (a.manager = s ∧ a.result ≠ .none) ∨
      (∃ r : NewRepository s, copyURL r.1 = copyCanonicalizedURL dir ∧ a.manager = s.addRepository r ∧
        (a.result = .none → a.repository = some r.1)) ∨
      (env.cacheFile.closeOk = false ∧
        ∃ (r₁ : NewRepository s) (r₂ : NewRepository (s.addRepository r₁)),
          copyURL r₁.1 = copyCanonicalizedURL dir ∧ copyURL r₂.1 = copyCanonicalizedURL dir ∧
          a.manager = (s.addRepository r₁).addRepository r₂ ∧ a.result = .none ∧
          a.repository = some r₂.1) := by
  have hplain : ∀ b, addFromDirectory env s dir scanForKexts b none = a →
      (a.manager = s ∧ a.result ≠ .none) ∨
        ∃ r : NewRepository s, copyURL r.1 = copyCanonicalizedURL dir ∧ a.manager = s.addRepository r ∧
          (a.result = .none → a.repository = some r.1) := fun b e => by
    rcases addFromDirectory_cases env s dir scanForKexts b none e with ⟨hm, hr, -⟩ | ⟨hm, -, hrep⟩
    · exact .inl ⟨hm, hr⟩
    · exact .inr ⟨_, henv.directory s dir scanForKexts, hm, fun _ => hrep⟩
  rcases addRepositoryDirectory_paths copyURL copyCanonicalizedURL copyFileSystemPath env ha with
    ⟨r, hr, -⟩ | ⟨-, ⟨b, rfl, -⟩ | ⟨-, s', result, theRepository, hfile, hres⟩⟩
  · rw [hnf] at hr; cases hr
  · exact (hplain b rfl).imp_right .inl
  rcases addRepositoryFromCacheFile_of_not_found copyFileSystemPath hu env.cacheFile henv.cache hnf hfile
    with ⟨rfl, hne, rfl⟩ | ⟨r₁, hr₁, e⟩
  · rcases hres with ⟨h, -⟩ | ⟨-, rfl⟩
    · exact absurd h hne
    · exact (hplain true rfl).imp_right .inl
  simp only [Prod.mk.injEq] at e
  obtain ⟨rfl, rfl, rfl⟩ := e
  cases hclose : env.cacheFile.closeOk <;> simp only [hclose, Bool.false_eq_true, if_false, if_true,
    ne_eq, reduceCtorEq, not_false_eq_true, not_true_eq_false, true_and, false_and, false_or,
    or_false] at hres <;> subst hres
  · rcases addFromDirectory_cases env _ dir scanForKexts true _ rfl with ⟨hm, hr, -⟩ | ⟨hm, hres, hrep⟩
    · exact .inr (.inl ⟨r₁, hr₁, hm, fun h => absurd h hr⟩)
    · exact .inr (.inr ⟨rfl, r₁, _, hr₁, henv.directory _ dir scanForKexts, hm, hres, hrep⟩)
  · exact .inr (.inl ⟨r₁, hr₁, rfl, fun _ => rfl⟩)

end Adds

/-! ### Fixed inputs -/

/-- A handle above every repository's: the object `_KXKextRepositoryCreate`
allocates is none of the live ones. -/
def freshHandle (s : Manager ι κ) : Nat :=
  (s.repositoryList.list.map Repository.handle).foldr max 0 + 1

theorem handle_lt_freshHandle (s : Manager ι κ) :
    ∀ h ∈ s.repositoryList.list.map Repository.handle, h < freshHandle s := by
  unfold freshHandle
  induction s.repositoryList.list.map Repository.handle with
  | nil => simp
  | cons h hs ih =>
      simp only [List.foldr_cons, List.mem_cons, forall_eq_or_imp]
      exact ⟨by omega, fun x hx => by have := ih x hx; omega⟩

/-- Directories are numbers, and their canonical form is their last digit,
with `7` an alias of `5`. -/
def canonicalDigit (u : Nat) : Option Nat :=
  some (if u % 10 = 7 then 5 else u % 10)

/-- A repository's URL is the last digit of its handle. -/
def urlOfHandle {κ : Type} (r : Repository κ) : Option Nat :=
  some (r.handle % 10)

theorem urlOfHandle_sound : URLFunctionsSound (κ := κ) urlOfHandle canonicalDigit :=
  ⟨fun _ => rfl, fun u c h => by
    simp only [canonicalDigit, Option.some.injEq] at h ⊢
    subst h; split_ifs <;> omega⟩

/-- The repository with no kexts that a directory initialises: its handle is
fresh and ends in the directory's canonical digit. -/
def emptyRepository [DecidableEq κ] (s : Manager ι κ) (u : Nat) : NewRepository s :=
  ⟨⟨10 * freshHandle s + (if u % 10 = 7 then 5 else u % 10), [], []⟩, List.nodup_nil,
    fun _ h => absurd h (List.not_mem_nil _),
    fun h => by have := handle_lt_freshHandle s _ h; dsimp only at this; omega⟩

/-- Both initialisers succeed with an empty repository.  The cache test finds a
current cache, whose one read reaches the end of the file, whose bytes parse as
a dictionary, and whose `gzclose` succeeds when `closeOk` is set. -/
def emptyRepositoryEnvironment (closeOk : Bool) : DirectoryEnvironment Nat (Fin 2) Nat Unit where
  probe := ⟨true, true, .ok 0 0, .ok sIFREG 1, true, true⟩
  cacheFile := ⟨true, true, false, true, [⟨.bytes [], true⟩], true, fun _ => .dictionary (), closeOk⟩
  cacheDictionary := ⟨true, true, fun s _ u => (.none, emptyRepository s u)⟩
  repositoryCreated := true
  initWithDirectory := fun s u _ => (.none, emptyRepository s u)

theorem emptyRepositoryEnvironment_registersCanonical (closeOk : Bool) :
    (emptyRepositoryEnvironment closeOk).RegistersCanonical urlOfHandle canonicalDigit := by
  have h : ∀ (s : Manager Nat (Fin 2)) u, urlOfHandle (emptyRepository s u).1 = canonicalDigit u :=
    fun s u => by
      simp only [urlOfHandle, emptyRepository, canonicalDigit, Option.some.injEq]; split_ifs <;> omega
  exact ⟨fun s u _ => h s u, fun s _ u => h s u⟩

/-- `sameVersionPair` with two more repositories, both empty, at the URLs `3`
and `5`. -/
def twoEmptyRepositories : Manager Nat (Fin 2) :=
  { sameVersionPair with
    repositoryList := ⟨[⟨0, [0, 1], []⟩, ⟨3, [], []⟩, ⟨5, [], []⟩], by decide, by decide⟩ }

/-! ### The registry over adds and removals -/

section Registry

variable [DecidableEq κ] [DecidableEq υ]
  {copyURL : Repository κ → Option υ} {copyCanonicalizedURL : υ → Option υ}
  (copyFileSystemPath : υ → Option String) (hu : URLFunctionsSound copyURL copyCanonicalizedURL)
include hu

omit [DecidableEq κ] [DecidableEq υ] in
/-- A repository registered under a directory's canonical form has a URL, and
the directory has that canonical form. -/
theorem exists_canonical_of_copyURL {r : Repository κ} {dir : υ}
    (h : copyURL r = copyCanonicalizedURL dir) :
    ∃ c, copyCanonicalizedURL dir = some c ∧ copyURL r = some c := by
  obtain ⟨c, hc⟩ := Option.isSome_iff_exists.mp (hu.copy r)
  exact ⟨c, h ▸ hc, hc⟩

omit hu in
/-- Removing a directory keeps the registry. -/
theorem Registered.removeRepositoryDirectory {s : Manager ι κ} (hs : Registered copyURL s) (dir : υ) :
    Registered copyURL (s.removeRepositoryDirectory copyURL copyCanonicalizedURL dir) := by
  unfold Manager.removeRepositoryDirectory
  split
  · exact hs
  · exact hs.removeRepository _

/-- **Remove, then look up.**  On a registry, once the directory's repository
is removed the directory is not found, and the registry is kept. -/
theorem removeRepositoryDirectory_lookup {s : Manager ι κ} (hs : Registered copyURL s) (dir : υ) :
    Registered copyURL (s.removeRepositoryDirectory copyURL copyCanonicalizedURL dir) ∧
      (s.removeRepositoryDirectory copyURL copyCanonicalizedURL dir).getRepositoryForDirectory copyURL
        copyCanonicalizedURL dir = none := by
  refine ⟨hs.removeRepositoryDirectory dir, ?_⟩
  rcases hl : s.getRepositoryForDirectory copyURL copyCanonicalizedURL dir with _ | r
  · simp [Manager.removeRepositoryDirectory, hl]
  simp only [Manager.removeRepositoryDirectory, hl]
  unfold Manager.getRepositoryForDirectory at hl ⊢
  split at hl
  · cases hl
  refine (findRepositoryWithURL_eq_none copyURL hu.copy).mpr fun r' hr' e => ?_
  rw [Manager.removeRepository_repositoryList, List.mem_filter] at hr'
  have := hs.eq_of_copyURL hr'.1 (findRepositoryWithURL_mem copyURL hl)
    (e.trans (findRepositoryWithURL_copyURL hl).symm)
  simp [this] at hr'

omit hu in
/-- Removing the directory `17`, whose canonical form is `5`, from
`twoEmptyRepositories`: of its two empty repositories only the one at `5`
goes. -/
theorem removeRepositoryDirectory_lookup_twoEmptyRepositories :
    URLFunctionsSound (κ := Fin 2) urlOfHandle canonicalDigit ∧ Registered urlOfHandle twoEmptyRepositories ∧
      (twoEmptyRepositories.removeRepositoryDirectory urlOfHandle canonicalDigit 17).repositoryList.list =
        [⟨0, [0, 1], []⟩, ⟨3, [], []⟩] ∧
      Registered urlOfHandle (twoEmptyRepositories.removeRepositoryDirectory urlOfHandle canonicalDigit 17) ∧
      (twoEmptyRepositories.removeRepositoryDirectory urlOfHandle canonicalDigit 17).getRepositoryForDirectory
        urlOfHandle canonicalDigit 17 = none :=
  have hs : Registered urlOfHandle twoEmptyRepositories := by decide
  ⟨urlOfHandle_sound, hs, rfl, removeRepositoryDirectory_lookup urlOfHandle_sound hs 17⟩

variable {env : DirectoryEnvironment ι κ υ δ} (henv : env.RegistersCanonical copyURL copyCanonicalizedURL)
include henv

omit hu henv in
/-- A directory found is reported, and nothing changes. -/
theorem addRepositoryDirectory_of_found {s : Manager ι κ} {dir : υ} {found : Repository κ}
    (hl : s.getRepositoryForDirectory copyURL copyCanonicalizedURL dir = some found)
    {scanForKexts useCache : Bool} {a : DirectoryAdded ι κ}
    (ha : addRepositoryDirectory copyURL copyCanonicalizedURL copyFileSystemPath env s dir scanForKexts
      useCache = some a) :
    a = ⟨s, .none, some found, []⟩ := by
  simpa [addRepositoryDirectory, hl] using ha.symm

/-- **Adding a directory to a registry.**  `KXKextManagerAddRepositoryDirectory`
keeps the repositories' URLs distinct, and on success the directory's lookup
finds the repository it reports.  The one exception: the cache file was read
and its dictionary added, `gzclose` failed, and the directory was then
initialised and appended a second time under the same URL; the call succeeds
and reports the second repository, which the lookup never finds. -/
theorem addRepositoryDirectory_registered_or_twice {s : Manager ι κ} (hs : Registered copyURL s)
    {dir : υ} {scanForKexts useCache : Bool} {a : DirectoryAdded ι κ}
    (ha : addRepositoryDirectory copyURL copyCanonicalizedURL copyFileSystemPath env s dir scanForKexts
      useCache = some a) :
    (Registered copyURL a.manager ∧
        (a.result = .none →
          a.manager.getRepositoryForDirectory copyURL copyCanonicalizedURL dir = a.repository)) ∨
      (env.cacheFile.closeOk = false ∧ a.result = .none ∧
        ∃ r₁ r₂, a.manager.repositoryList.list = s.repositoryList.list ++ [r₁, r₂] ∧
          copyURL r₁ = copyURL r₂ ∧ a.repository = some r₂ ∧
          a.manager.getRepositoryForDirectory copyURL copyCanonicalizedURL dir = some r₁) := by
  rcases hl : s.getRepositoryForDirectory copyURL copyCanonicalizedURL dir with _ | found
  · rcases addRepositoryDirectory_cases copyFileSystemPath hu henv hl ha with
      ⟨hm, hr⟩ | ⟨r, hr, hm, hrep⟩ | ⟨hclose, r₁, r₂, hr₁, hr₂, hm, hres, hrep⟩
    · exact .inl ⟨by rw [hm]; exact hs, fun h => absurd h hr⟩
    · obtain ⟨c, hc, hrc⟩ := exists_canonical_of_copyURL hu hr
      obtain ⟨hreg, hlook⟩ := hs.addRepository_lookup hu hc hl hrc
      exact .inl ⟨by rw [hm]; exact hreg, fun h => by rw [hm, hlook, hrep h]⟩
    · obtain ⟨c, hc, hrc⟩ := exists_canonical_of_copyURL hu hr₁
      refine .inr ⟨hclose, hres, r₁.1, r₂.1, by simp [hm], hr₁.trans hr₂.symm, hrep, ?_⟩
      rw [hm]
      exact getRepositoryForDirectory_addRepository_of_eq_some _ (hs.addRepository_lookup hu hc hl hrc).2
  · rw [addRepositoryDirectory_of_found copyFileSystemPath hl ha]
    exact .inl ⟨hs, fun _ => hl⟩

omit hu henv in
/-- From `sameVersionPair`, the directory `17`, whose cache is added but whose
`gzclose` fails, is appended twice under its canonical URL `5`, and the
registry is lost. -/
theorem addRepositoryDirectory_adds_twice :
    URLFunctionsSound (κ := Fin 2) urlOfHandle canonicalDigit ∧
      (emptyRepositoryEnvironment false).RegistersCanonical urlOfHandle canonicalDigit ∧
      Registered urlOfHandle sameVersionPair ∧
      ∃ a, addRepositoryDirectory urlOfHandle canonicalDigit (fun _ => some "")
          (emptyRepositoryEnvironment false) sameVersionPair 17 true true = some a ∧
        ¬ Registered urlOfHandle a.manager ∧
        (emptyRepositoryEnvironment false).cacheFile.closeOk = false ∧ a.result = .none ∧
        ∃ r₁ r₂, a.manager.repositoryList.list = sameVersionPair.repositoryList.list ++ [r₁, r₂] ∧
          urlOfHandle r₁ = urlOfHandle r₂ ∧ a.repository = some r₂ ∧
          a.manager.getRepositoryForDirectory urlOfHandle canonicalDigit 17 = some r₁ := by
  have hs : Registered urlOfHandle sameVersionPair := by decide
  have ha : addRepositoryDirectory urlOfHandle canonicalDigit (fun _ => some "")
      (emptyRepositoryEnvironment false) sameVersionPair 17 true true = some _ := rfl
  exact ⟨urlOfHandle_sound, emptyRepositoryEnvironment_registersCanonical false, hs, _, ha,
    (fun hnot => ⟨hnot, (addRepositoryDirectory_registered_or_twice (fun _ => some "") urlOfHandle_sound
      (emptyRepositoryEnvironment_registersCanonical false) hs ha).resolve_left fun h => hnot h.1⟩)
      (by decide)⟩

variable (hclose : env.cacheFile.closeOk = true)
include hclose

/-- When the cache file closes, adding a directory keeps the registry. -/
theorem Registered.addRepositoryDirectory {s : Manager ι κ} (hs : Registered copyURL s) {dir : υ}
    {scanForKexts useCache : Bool} {a : DirectoryAdded ι κ}
    (ha : KextManager.addRepositoryDirectory copyURL copyCanonicalizedURL copyFileSystemPath env s dir
      scanForKexts useCache = some a) :
    Registered copyURL a.manager := by
  rcases hl : s.getRepositoryForDirectory copyURL copyCanonicalizedURL dir with _ | found
  · rcases addRepositoryDirectory_cases copyFileSystemPath hu henv hl ha with
      ⟨hm, -⟩ | ⟨r, hr, hm, -⟩ | ⟨h, -⟩
    · rw [hm]; exact hs
    · obtain ⟨c, hc, hrc⟩ := exists_canonical_of_copyURL hu hr
      rw [hm]; exact (hs.addRepository_lookup hu hc hl hrc).1
    · exact absurd (hclose.symm.trans h) Bool.noConfusion
  · rw [addRepositoryDirectory_of_found copyFileSystemPath hl ha]; exact hs

/-- **Add, then remove.**  On a registry whose cache file closes, removing a
directory that was not found after adding it brings the repository list back
to what it was, whether the add succeeded or not. -/
theorem addRepositoryDirectory_then_remove {s : Manager ι κ} (hs : Registered copyURL s) {dir : υ}
    (hnf : s.getRepositoryForDirectory copyURL copyCanonicalizedURL dir = none)
    {scanForKexts useCache : Bool} {a : DirectoryAdded ι κ}
    (ha : addRepositoryDirectory copyURL copyCanonicalizedURL copyFileSystemPath env s dir scanForKexts
      useCache = some a) :
    (a.manager.removeRepositoryDirectory copyURL copyCanonicalizedURL dir).repositoryList.list =
      s.repositoryList.list := by
  rcases addRepositoryDirectory_cases copyFileSystemPath hu henv hnf ha with
    ⟨hm, -⟩ | ⟨r, hr, hm, -⟩ | ⟨h, -⟩
  · simp [hm, Manager.removeRepositoryDirectory, hnf]
  · obtain ⟨c, hc, hrc⟩ := exists_canonical_of_copyURL hu hr
    have hnot : r.1 ∉ s.repositoryList.list := fun hm' => getRepositoryForDirectory_eq_none hu hc hnf r.1 hm' hrc
    simp only [hm, Manager.removeRepositoryDirectory, (hs.addRepository_lookup hu hc hnf hrc).2,
      Manager.removeRepository_repositoryList, Manager.addRepository_repositoryList, List.filter_append]
    rw [List.filter_eq_self.mpr fun x hx => by
      simp only [bne_iff_ne, ne_eq]; intro e; exact r.2.2.2 (e ▸ List.mem_map_of_mem _ hx)]
    simp
  · exact absurd (hclose.symm.trans h) Bool.noConfusion

omit hu henv hclose in
/-- From `twoEmptyRepositories`, the directory `8` added from its cache as a
third empty repository and removed again: the other two stay. -/
theorem addRepositoryDirectory_then_remove_twoEmptyRepositories :
    URLFunctionsSound (κ := Fin 2) urlOfHandle canonicalDigit ∧
      (emptyRepositoryEnvironment true).RegistersCanonical urlOfHandle canonicalDigit ∧
      (emptyRepositoryEnvironment true).cacheFile.closeOk = true ∧
      Registered urlOfHandle twoEmptyRepositories ∧
      twoEmptyRepositories.getRepositoryForDirectory urlOfHandle canonicalDigit 8 = none ∧
      ∃ a, addRepositoryDirectory urlOfHandle canonicalDigit (fun _ => some "")
          (emptyRepositoryEnvironment true) twoEmptyRepositories 8 true true = some a ∧
        (a.manager.removeRepositoryDirectory urlOfHandle canonicalDigit 8).repositoryList.list =
          twoEmptyRepositories.repositoryList.list := by
  have hs : Registered urlOfHandle twoEmptyRepositories := by decide
  have hnf : twoEmptyRepositories.getRepositoryForDirectory urlOfHandle canonicalDigit 8 = none := by
    decide
  have ha : addRepositoryDirectory urlOfHandle canonicalDigit (fun _ => some "")
      (emptyRepositoryEnvironment true) twoEmptyRepositories 8 true true = some _ := rfl
  exact ⟨urlOfHandle_sound, emptyRepositoryEnvironment_registersCanonical true, rfl, hs, hnf, _, ha,
    addRepositoryDirectory_then_remove (fun _ => some "") urlOfHandle_sound
      (emptyRepositoryEnvironment_registersCanonical true) rfl hs hnf ha⟩

end Registry

/-! ### Runs of registry calls -/

/-- The calls that change the repository list. -/
inductive RegistryCall (ι κ υ δ : Type) [DecidableEq κ] where
  | addRepositoryDirectory (env : DirectoryEnvironment ι κ υ δ) (directoryURL : υ)
      (scanForKexts useCache : Bool)
  | removeRepositoryDirectory (directoryURL : υ)

namespace RegistryCall

variable [DecidableEq κ] [DecidableEq υ]
  (copyURL : Repository κ → Option υ) (copyCanonicalizedURL : υ → Option υ)
  (copyFileSystemPath : υ → Option String)

/-- The manager after a call; none when the call does not return. -/
def apply : RegistryCall ι κ υ δ → Manager ι κ → Option (Manager ι κ)
  | addRepositoryDirectory env directoryURL scanForKexts useCache, s =>
      (KextManager.addRepositoryDirectory copyURL copyCanonicalizedURL copyFileSystemPath env s
        directoryURL scanForKexts useCache).map DirectoryAdded.manager
  | removeRepositoryDirectory directoryURL, s =>
      some (s.removeRepositoryDirectory copyURL copyCanonicalizedURL directoryURL)

/-- The calls one after another, as long as each returns. -/
def run : List (RegistryCall ι κ υ δ) → Manager ι κ → Option (Manager ι κ)
  | [], s => some s
  | c :: cs, s => (c.apply copyURL copyCanonicalizedURL copyFileSystemPath s).bind (run cs)

variable {copyURL copyCanonicalizedURL copyFileSystemPath}
  (hu : URLFunctionsSound copyURL copyCanonicalizedURL)
include hu

end RegistryCall

end KextManager
